import NativeBridge.Proofs.Call.Frame
/-!
# Taking hold of an object

An object is used in three steps: it is locked, found at the end of the path along which it is to be seen, and left
again. Reading and writing an object are these steps around the use of it (`Access.reading_eq`, `Access.writing_eq`).
-/
namespace NativeBridge
variable {Ω : Type} [ObjectModel Ω] {α β : Type}

open Act

namespace Access

/-- An object in use as one of class `c`: where it is, the path along which it is seen, the whole object and the part
that is of class `c`. -/
structure Hold (Ω : Type) [ObjectModel Ω] (c : Class) where
  address : Address
  path : List (Upcast Ω)
  whole : Ω
  part : Instance Ω c

/-- The part of class `c` at the end of a path from the object at an address. -/
def partAt (heap : Heap Ω) (a : Address) (path : List (Upcast Ω)) (c : Class) : Option (Hold Ω c) :=
  heap.cells[a]?.bind fun cell =>
    ((Upcast.viewAlong path cell.object).bind (Instance.of? c)).map fun x => ⟨a, path, cell.object, x⟩

/-- Begin to use the object at an address. -/
def begin? (mutable : Bool) (heap : Heap Ω) (a : Address) : Option (Heap Ω) :=
  if mutable then heap.beginWrite? a else heap.beginRead? a

/-- End the use of the object at an address. -/
def leave (mutable : Bool) (a : Address) (b : Boundary Ω) : Boundary Ω :=
  { b with heap := (if mutable then b.heap.endWrite a else b.heap.endRead a).release [a] }

def busy (mutable : Bool) (heap : Heap Ω) (a : Address) : CallError :=
  .native (heap.classNameAt a ++ if mutable then " is already borrowed" else " is already borrowed mutably")

/-- Take hold of the object at an address, to read or to change it. -/
def seize (mutable : Bool) (a : Address) (path : List (Upcast Ω)) (c : Class) : Act Ω (Hold Ω c) := do
  let heap := (← get).heap
  match begin? mutable heap a with
  | none => Act.fail (busy mutable heap a)
  | some locked =>
    modify fun b => { b with heap := locked.retain [a] }
    match partAt heap a path c with
    | some hold => return hold
    | none => (Act.fail (.mismatch c.qualified (heap.classNameAt a))).onFailure (leave mutable a)

theorem reading_eq (a : Address) (path : List (Upcast Ω)) (c : Class) (use : Instance Ω c → Act Ω α) :
    reading a path c use = seize false a path c >>= fun hold => (use hold.part).ensuring (leave false hold.address) := by
  funext b
  unfold reading seize
  rw [get_bind, bind_assoc, get_bind]
  change (match b.heap.beginRead? a with | none => _ | some locked => _ : Act Ω α) b = _
  change _ = ((match b.heap.beginRead? a with | none => _ | some locked => _ : Act Ω (Hold Ω c)) >>= _) b
  cases b.heap.beginRead? a with
  | none => rfl
  | some locked =>
    dsimp only
    rw [bind_assoc]
    unfold partAt
    cases b.heap.cells[a]? with
    | none => rfl
    | some cell =>
      rw [Option.bind_some, Option.bind_some]
      cases (Upcast.viewAlong path cell.object).bind (Instance.of? c) with
      | none => rfl
      | some x => rfl

theorem writing_eq (a : Address) (path : List (Upcast Ω)) (c : Class)
    (use : Instance Ω c → Act Ω (Except Interrupt α × Instance Ω c)) :
    writing a path c use = seize true a path c >>= fun hold => (do
      let (outcome, x) ← use hold.part
      modify fun b => { b with heap := b.heap.store hold.address (Upcast.putAlong hold.path hold.whole x.object) }
      Act.ofOutcome outcome : Act Ω α).ensuring (leave true hold.address) := by
  funext b
  unfold writing seize
  rw [get_bind, bind_assoc, get_bind]
  change (match b.heap.beginWrite? a with | none => _ | some locked => _ : Act Ω α) b = _
  change _ = ((match b.heap.beginWrite? a with | none => _ | some locked => _ : Act Ω (Hold Ω c)) >>= _) b
  cases b.heap.beginWrite? a with
  | none => rfl
  | some locked =>
    dsimp only
    rw [bind_assoc]
    unfold partAt
    cases hcell : b.heap.cells[a]? with
    | none =>
      unfold Heap.classNameAt Heap.classAt?
      rw [hcell]
      rfl
    | some cell =>
      rw [Option.bind_some]
      dsimp only
      cases (Upcast.viewAlong path cell.object).bind (Instance.of? c) with
      | none => rfl
      | some x => rfl

/-- Take hold of the receiver as an object of class `c`. -/
def grasp (sv : Services Ω) (c : Class) (mutable : Bool) : Act Ω (Hold Ω c) := do
  let h ← Act.ofExcept (requireThis (← get) c)
  let (a, p) ← Act.ofExcept (locate sv (← get) h c mutable)
  seize mutable a p c

theorem seize_ok {mutable : Bool} {a : Address} {path : List (Upcast Ω)} {c : Class} {b b' : Boundary Ω}
    {hold : Hold Ω c} (h : seize mutable a path c b = .ok hold b') :
    ∃ locked, begin? mutable b.heap a = some locked ∧ partAt b.heap a path c = some hold ∧
      b' = { b with heap := locked.retain [a] } := by
  unfold seize at h
  rw [get_bind] at h
  cases hlocked : begin? mutable b.heap a with
  | none =>
    rw [hlocked] at h
    cases h
  | some locked =>
    rw [hlocked] at h
    cases hpart : partAt b.heap a path c with
    | none =>
      rw [hpart] at h
      cases h
    | some hold' =>
      rw [hpart] at h
      cases h
      exact ⟨locked, rfl, rfl, rfl⟩

end Access
end NativeBridge
