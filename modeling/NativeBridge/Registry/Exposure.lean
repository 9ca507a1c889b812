import NativeBridge.Registry.Hierarchy
/-!
# What the host sees

When the declarations are closed, every class shows its own members and those ancestors' members that the
host cannot reach by delegating to the first superclass, and every entry point gets a tag.
-/
namespace NativeBridge

/-- What a tag invokes. -/
inductive TagTarget where
  /-- The constructors of a class. -/
  | constructor (c : Class)
  /-- The release of the receiver. -/
  | release (c : Class)
  /-- A member group, by its position in the class that declared it. -/
  | member (c : Class) (group : Nat)
  /-- A group of free functions, by its position. -/
  | function (index : Nat)
deriving DecidableEq, Inhabited

/-- A member as the host sees it. -/
structure ExposedMember where
  name : String
  kind : MemberKind
  tag : CallTag
  /-- The class that declared it. -/
  owner : Class
deriving DecidableEq, Inhabited

def ExposedMember.key (m : ExposedMember) : GroupKey :=
  ⟨m.name, m.kind⟩

/-- A class as the host sees it. -/
structure ExposedClass where
  cls : Class
  name : String
  constructor : CallTag
  release : CallTag
  supers : List Class
  /-- Its own members, and those copied from ancestors that delegation does not reach. -/
  members : List ExposedMember
  valueType : Bool
deriving Inhabited

namespace ExposedClass

/-- The first superclass; the host asks it for members that the class lacks. -/
def parent? (c : ExposedClass) : Option Class :=
  c.supers.head?

def member? (c : ExposedClass) (name : String) (kind : MemberKind) : Option ExposedMember :=
  c.members.find? fun m => m.kind = kind && m.name = name

/-- The number of members of this name, of whatever kind. -/
def countNamed (c : ExposedClass) (name : String) : Nat :=
  (c.members.filter (·.name = name)).length

end ExposedClass

structure ExposedFunction where
  name : String
  tag : CallTag
deriving DecidableEq, Inhabited

/-- Everything that is fixed when the declarations are closed. The tag of a target is its position. -/
structure Exposure (Upcast : Type) where
  hierarchy : Hierarchy Upcast
  classes : List ExposedClass
  functions : List ExposedFunction
  tags : List TagTarget

namespace Exposure
variable {Upcast : Type}

/-- The tag of a target, a new one if it has none. -/
def tagOf (tags : List TagTarget) (target : TagTarget) : CallTag × List TagTarget :=
  match tags.findIdx? (· = target) with
  | some i => (⟨i⟩, tags)
  | none => (⟨tags.length⟩, tags ++ [target])

/-- Show the listed groups of `owner`, by key and position, as members. -/
def showGroups (owner : Class) :
    List (GroupKey × Nat) → List TagTarget → List ExposedMember × List TagTarget
  | [], tags => ([], tags)
  | (key, i) :: groups, tags =>
    let (tag, tags) := tagOf tags (.member owner i)
    let (rest, tags) := showGroups owner groups tags
    (⟨key.name, key.kind, tag, owner⟩ :: rest, tags)

/-- The keys of a class's groups with their positions. -/
def groupKeys (classes : List (ClassDescriptor Upcast)) (c : Class) : List (GroupKey × Nat) :=
  match classes.find? (·.cls = c) with
  | some d => (d.members.map (·.key)).zipIdx
  | none => []

/-- The members that a class takes over from its ancestors. A key that has been seen is not taken again,
whether or not it was copied; what is reachable by delegation is copied only if it is static. -/
def inherited (classes : List (ClassDescriptor Upcast)) :
    List FlattenStep → List GroupKey → List TagTarget → List ExposedMember × List TagTarget
  | [], _, tags => ([], tags)
  | step :: steps, seen, tags =>
    let fresh := (groupKeys classes step.cls).filter fun (key, _) => key ∉ seen
    let copied := fresh.filter fun (key, _) => !step.reachable || key.kind.isStatic
    let (members, tags) := showGroups step.cls copied tags
    let (rest, tags) := inherited classes steps (seen ++ fresh.map (·.1)) tags
    (members ++ rest, tags)

/-- Show one class, if it is declared: a tag for its constructors, one for its release, one for each member
group that has none yet. -/
def exposeClass (h : Hierarchy Upcast) (classes : List (ClassDescriptor Upcast))
    (state : List ExposedClass × List TagTarget) (c : Class) : List ExposedClass × List TagTarget :=
  match classes.find? (·.cls = c) with
  | none => state
  | some d =>
    if d.declared then
      let (shown, tags) := state
      let constructor : CallTag := ⟨tags.length⟩
      let release : CallTag := ⟨tags.length + 1⟩
      let tags := tags ++ [.constructor c, .release c]
      let own := groupKeys classes c
      let (members, tags) := showGroups c own tags
      let (taken, tags) := inherited classes (h.flatten c) (own.map (·.1)) tags
      (shown ++ [{ cls := c, name := d.name, constructor, release, supers := h.supers c,
                   members := members ++ taken, valueType := d.valueType }], tags)
    else state

/-- Show every class after its superclasses, then every function. -/
def ofDeclarations (h : Hierarchy Upcast) (classes : List (ClassDescriptor Upcast))
    (functions : List OverloadGroup) : Exposure Upcast :=
  let (shown, tags) := (h.postorder (classes.map (·.cls))).foldl (exposeClass h classes) ([], [])
  { hierarchy := h
    classes := shown
    functions := functions.zipIdx.map fun (g, i) => ⟨g.name, ⟨tags.length + i⟩⟩
    tags := tags ++ (List.range functions.length).map .function }

def class? (x : Exposure Upcast) (c : Class) : Option ExposedClass :=
  x.classes.find? (·.cls = c)

/-- Follow the chain of first superclasses, at most `steps` classes of it. -/
def findAlong (x : Exposure Upcast) (name : String) (kind : MemberKind) :
    Nat → Class → Option ExposedMember
  | 0, _ => none
  | steps + 1, c =>
    match x.class? c with
    | none => none
    | some shown =>
      match shown.member? name kind with
      | some m => some m
      | none =>
        match shown.parent? with
        | some parent => x.findAlong name kind steps parent
        | none => none

/-- The member that a class shows itself or by delegation to its first superclass. No chain is longer than
the number of classes. -/
def findMember? (x : Exposure Upcast) (c : Class) (name : String) (kind : MemberKind) :
    Option ExposedMember :=
  x.findAlong name kind (x.classes.length + 1) c

end Exposure
end NativeBridge
