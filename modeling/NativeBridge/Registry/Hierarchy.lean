import NativeBridge.Registry.Class
import NativeBridge.Registry.Cycle
/-!
# The hierarchy of classes

The superclass graph of every known class, free of cycles. From it come the ancestors of a class in
depth-first declaration order (`flatten`), the chain of upcasts that leads to an ancestor (`upcastPath?`),
and an order in which every class comes after its superclasses (`postorder`).
-/
namespace NativeBridge

/-- One ancestor met while a class is flattened. -/
structure FlattenStep where
  cls : Class
  /-- Its members can be reached by delegation to the first superclass, and need not be copied. -/
  reachable : Bool
deriving DecidableEq

/-- An edge to a direct superclass, with its position among the superclasses. -/
structure SuperEdge (Upcast : Type) where
  source : Class
  order : Nat
  link : SuperLink Upcast

/-- The superclass graph. Classes that were given more than once count as often as they were given. -/
structure Hierarchy (Upcast : Type) where
  nodes : List Class
  edges : List (SuperEdge Upcast)
  nodeCount : Nat

namespace Hierarchy
variable {Upcast : Type}

/-- The classes of a list without repetition, each at its last place. -/
def distinct : List Class → List Class
  | [] => []
  | c :: cs => if c ∈ cs then distinct cs else c :: distinct cs

/-- The graph of the given classes; bases without a descriptor follow in order of first mention. -/
def ofClasses (classes : List (ClassDescriptor Upcast)) : Hierarchy Upcast :=
  let known := distinct (classes.map (·.cls))
  let edges := classes.flatMap fun d => d.supers.zipIdx.map fun (l, i) => ⟨d.cls, i, l⟩
  let nodes := edges.foldl (fun ns e => if e.link.cls ∈ ns then ns else ns ++ [e.link.cls]) known
  { nodes, edges, nodeCount := classes.length + (nodes.length - known.length) }

def digraph (h : Hierarchy Upcast) : Digraph :=
  ⟨h.nodes, h.edges.map fun e => (e.source, e.link.cls)⟩

/-- Build the hierarchy. Fails if a class is its own ancestor, and names one such class. -/
def build (classes : List (ClassDescriptor Upcast)) : Except RegistrationError (Hierarchy Upcast) :=
  let h := ofClasses classes
  match h.digraph.culprit? with
  | none => .ok h
  | some c =>
    let name := match classes.find? (·.cls = c) with
      | some d => d.name
      | none => c.qualified
    .error (.inheritanceCycle name)

/-- The links to the direct superclasses in declaration order. Of two at the same place, as a class given
twice has them, the later stands first. -/
def superLinks (h : Hierarchy Upcast) (c : Class) : List (SuperLink Upcast) :=
  ((h.edges.filter (·.source = c)).reverse.mergeSort fun d e => d.order ≤ e.order).map (·.link)

/-- The direct superclasses in declaration order. -/
def supers (h : Hierarchy Upcast) (c : Class) : List Class :=
  (h.superLinks c).map (·.cls)

/-! ## Ancestors -/

/-- Visit the classes on the stack depth first, each once. -/
def flattenFrom (h : Hierarchy Upcast) (unseen : List Class) (stack : List (Class × Bool)) :
    List FlattenStep :=
  match stack with
  | [] => []
  | (c, reachable) :: rest =>
    if c ∈ unseen then
      ⟨c, reachable⟩ :: h.flattenFrom (unseen.erase c) ((h.supers c).map (·, reachable) ++ rest)
    else h.flattenFrom unseen rest
termination_by (unseen.length, stack.length)
decreasing_by
  · rename_i hc
    exact Prod.Lex.left _ _ (length_erase_lt hc)
  · apply Prod.Lex.right
    simp

/-- Every ancestor of a class, depth first in declaration order. Only what lies under the first direct
superclass is reachable by delegation. -/
def flatten (h : Hierarchy Upcast) (c : Class) : List FlattenStep :=
  if c ∈ h.nodes then
    h.flattenFrom (h.nodes.erase c) ((h.supers c).zipIdx.map fun (s, i) => (s, i == 0))
  else []

def ancestors (h : Hierarchy Upcast) (c : Class) : List Class :=
  (h.flatten c).map (·.cls)

/-! ## Upcast paths -/

/-- The classes among the links that are seen for the first time, each with the path that leads to it, and
the classes still unseen. -/
def discover (path : List Upcast) :
    List (SuperLink Upcast) → List Class → List (Class × List Upcast) × List Class
  | [], unseen => ([], unseen)
  | l :: links, unseen =>
    if l.cls ∈ unseen then
      let (found, rest) := discover path links (unseen.erase l.cls)
      ((l.cls, path ++ [l.upcast]) :: found, rest)
    else discover path links unseen

theorem length_discover (path : List Upcast) : ∀ (links : List (SuperLink Upcast)) (unseen : List Class),
    (discover path links unseen).1.length + (discover path links unseen).2.length = unseen.length
  | [], _ => by simp [discover]
  | l :: links, unseen => by
    unfold discover
    split
    · rename_i hm
      have ih := length_discover path links (unseen.erase l.cls)
      have := List.length_erase_of_mem hm
      have := length_erase_lt hm
      simp only [List.length_cons]
      omega
    · exact length_discover path links unseen

/-- The paths to all classes that can be reached from the stack. A class is seen when it is put on the
stack; its superclasses are put there last first, so that the first one is taken next. -/
def pathsFrom (h : Hierarchy Upcast) (unseen : List Class) (stack : List (Class × List Upcast)) :
    List (Class × List Upcast) :=
  match stack with
  | [] => []
  | (c, path) :: rest =>
    let step := discover path (h.superLinks c).reverse unseen
    step.1 ++ h.pathsFrom step.2 (step.1.reverse ++ rest)
termination_by unseen.length + stack.length
decreasing_by
  have := length_discover path (h.superLinks c).reverse unseen
  simp only [List.length_append, List.length_reverse, List.length_cons]
  omega

/-- The paths from a class to its ancestors. -/
def paths (h : Hierarchy Upcast) (c : Class) : List (Class × List Upcast) :=
  if c ∈ h.nodes then h.pathsFrom h.nodes [(c, [])] else []

/-- The upcasts from a class to an ancestor; none are needed to the class itself. -/
def upcastPath? (h : Hierarchy Upcast) (source target : Class) : Option (List Upcast) :=
  if source = target then some [] else (h.paths source).lookup target

def isAncestor (h : Hierarchy Upcast) (source target : Class) : Bool :=
  source ≠ target && ((h.paths source).lookup target).isSome

/-! ## Order of finalization -/

/-- The classes under `c` and then `c`, as far as they are not done. -/
def visit (h : Hierarchy Upcast) : Nat → List Class → Class → List Class
  | 0, done, _ => done
  | depth + 1, done, c => if c ∈ done then done else (h.supers c).foldl (h.visit depth) done ++ [c]

/-- The classes in their order, except that each comes after its superclasses. No path is longer than the
number of classes. -/
def postorder (h : Hierarchy Upcast) (classes : List Class) : List Class :=
  classes.foldl (h.visit (h.nodes.length + 1)) []

def outline (h : Hierarchy Upcast) : String :=
  Outline.record "Hierarchy"
    [("classes", toString h.nodeCount), ("edges", toString h.edges.length),
     ("paths", toString (h.nodes.foldl (fun n c => n + (h.paths c).length) 0))]

end Hierarchy
end NativeBridge
