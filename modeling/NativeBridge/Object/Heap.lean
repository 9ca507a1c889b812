import NativeBridge.Error
import NativeBridge.Object.Model
/-!
# The heap

Every object that crosses the boundary lives in a cell. A cell counts the strong references to it and is
dead when there are none; the references of its object are then given up too (`Heap.release`). While an
object is being read nobody may write it, and while it is being written nobody else may look at it.
-/
namespace NativeBridge

/-- A native object with its strong references and present users. -/
structure Cell (Ω : Type) where
  object : Ω
  strong : Nat
  readers : Nat
  writing : Bool

/-- All cells ever made, by address. -/
structure Heap (Ω : Type) where
  cells : List (Cell Ω)

namespace Heap
variable {Ω : Type}

def empty : Heap Ω := ⟨[]⟩

/-- Put an object into a fresh cell with one strong reference. -/
def alloc (h : Heap Ω) (o : Ω) : Address × Heap Ω :=
  (h.cells.length, ⟨h.cells ++ [⟨o, 1, 0, false⟩]⟩)

/-- The cell at an address, as long as it is alive. -/
def live? (h : Heap Ω) (a : Address) : Option (Cell Ω) :=
  h.cells[a]?.filter (0 < ·.strong)

def isAlive (h : Heap Ω) (a : Address) : Bool :=
  (h.live? a).isSome

/-- The number of strong references to an object. -/
def strong (h : Heap Ω) (a : Address) : Nat :=
  (h.cells[a]?.map (·.strong)).getD 0

def modify (h : Heap Ω) (a : Address) (f : Cell Ω → Cell Ω) : Heap Ω :=
  ⟨h.cells.modify a f⟩

/-- Count one more strong reference for each listed address. -/
def retain (h : Heap Ω) (as : List Address) : Heap Ω :=
  as.foldl (fun h a => h.modify a fun c => { c with strong := c.strong + 1 }) h

/-- The number of all strong references of some cells. -/
def strongCount : List (Cell Ω) → Nat
  | [] => 0
  | c :: cells => c.strong + strongCount cells

/-- Lowering the count of one cell lowers the number of all strong references. -/
theorem strongCount_set_lt : ∀ (cells : List (Cell Ω)) (a : Nat) (c d : Cell Ω),
    cells[a]? = some c → d.strong < c.strong → strongCount (cells.set a d) < strongCount cells
  | [], _, _, _, h, _ => by simp at h
  | e :: cells, 0, c, d, h, hlt => by
    simp only [List.getElem?_cons_zero, Option.some.injEq] at h
    subst h
    simp only [List.set_cons_zero, strongCount]
    omega
  | e :: cells, a + 1, c, d, h, hlt => by
    simp only [List.getElem?_cons_succ] at h
    have := strongCount_set_lt cells a c d h hlt
    simp only [List.set_cons_succ, strongCount]
    omega

/-- Give up one strong reference for each listed address. The last reference to an object takes the
references with it that the object holds. -/
def release [ObjectModel Ω] (h : Heap Ω) (as : List Address) : Heap Ω :=
  match as with
  | [] => h
  | a :: rest =>
    match _hc : h.cells[a]? with
    | none => h.release rest
    | some c =>
      match _hs : c.strong with
      | 0 => h.release rest
      | n + 1 =>
        let inner := if n = 0 then ObjectModel.refs c.object else []
        Heap.release ⟨h.cells.set a { c with strong := n }⟩ (inner ++ rest)
termination_by (strongCount h.cells, as.length)
decreasing_by
  · apply Prod.Lex.right; simp
  · apply Prod.Lex.right; simp
  · apply Prod.Lex.left
    exact strongCount_set_lt h.cells a c { c with strong := n } _hc (by simp only; omega)

/-- Empty a cell whose object has been moved out: the object keeps its own references. -/
def vacate (h : Heap Ω) (a : Address) : Heap Ω :=
  h.modify a fun c => { c with strong := 0 }

/-! ## Users of a cell -/

/-- Begin to read, unless the object is being written. -/
def beginRead? (h : Heap Ω) (a : Address) : Option (Heap Ω) :=
  match h.cells[a]? with
  | some c => if c.writing then none else some (h.modify a fun c => { c with readers := c.readers + 1 })
  | none => none

def endRead (h : Heap Ω) (a : Address) : Heap Ω :=
  h.modify a fun c => { c with readers := c.readers - 1 }

/-- Begin to write, unless anyone uses the object. -/
def beginWrite? (h : Heap Ω) (a : Address) : Option (Heap Ω) :=
  match h.cells[a]? with
  | some c =>
    if c.writing || 0 < c.readers then none else some (h.modify a fun c => { c with writing := true })
  | none => none

def endWrite (h : Heap Ω) (a : Address) : Heap Ω :=
  h.modify a fun c => { c with writing := false }

/-- Replace the object of a cell: the references of the new object are counted, those of the old one given
up. -/
def store [ObjectModel Ω] (h : Heap Ω) (a : Address) (o : Ω) : Heap Ω :=
  match h.cells[a]? with
  | some c =>
    ((h.retain (ObjectModel.refs o)).modify a fun c => { c with object := o }).release
      (ObjectModel.refs c.object)
  | none => h

/-- The class of the object at an address. -/
def classAt? [ObjectModel Ω] (h : Heap Ω) (a : Address) : Option Class :=
  h.cells[a]?.map fun c => ObjectModel.classOf c.object

/-- The name of that class, for messages. -/
def classNameAt [ObjectModel Ω] (h : Heap Ω) (a : Address) : String :=
  ((h.classAt? a).map (·.name)).getD ""

end Heap
end NativeBridge
