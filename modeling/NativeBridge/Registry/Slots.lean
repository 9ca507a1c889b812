import NativeBridge.Call.Boundary
import NativeBridge.Registry.Overload
/-!
# Overload groups in slots

An overload group as it is stored: a slot for every number of arguments up to the largest, with an entry or empty.
The slots are changed in place and grow when an overload lies beyond them.
-/
namespace NativeBridge

/-- Why an overload was not stored. -/
inductive StoreFailure where
  | refused (e : RegistrationError)
  | panicked (p : Panic)
deriving DecidableEq, Repr, Inhabited

/-- Overloads by arity, a slot for each. -/
structure SlotGroup where
  name : String
  scope : GroupScope
  slots : List (Option EntryRef)
  frozen : Bool
deriving DecidableEq, Inhabited

namespace SlotGroup

def empty (name : String) (scope : GroupScope) : SlotGroup :=
  ⟨name, scope, [], false⟩

/-- A change to the slots in place. It leaves a group whether it succeeds or fails. -/
abbrev Change := EStateM StoreFailure SlotGroup

def panic {α : Type} (message : String) : Change α :=
  throw (.panicked (.text message))

/-- The number of slots up to that of `arity`, counted in a word. -/
def countTo (arity : Nat) : Change Nat :=
  if arity + 1 < 0x10000000000000000 then pure (arity + 1) else panic "attempt to add with overflow"

/-- Bring the slots to a larger number. Each takes twelve bytes, and all together have less than `2 ^ 63`. -/
def grow (count : Nat) : Change Unit :=
  if 12 * count < 0x8000000000000000 then
    modify fun g => { g with slots := g.slots ++ .replicate (count - g.slots.length) none }
  else panic "capacity overflow"

/-- Fill the slot of `arity`. -/
def fill (arity : Nat) (entry : EntryRef) : Change Unit := do
  let g ← get
  match g.slots[arity]? with
  | some none => set { g with slots := g.slots.set arity (some entry) }
  | some (some _) => throw (.refused (.duplicateArity g.name arity))
  | none =>
    panic ("index out of bounds: the len is " ++ toString g.slots.length ++ " but the index is " ++ toString arity)

/-- Add the overload of `arity` arguments. -/
def insert (arity : Nat) (entry : EntryRef) : Change Unit := do
  if (← get).frozen then throw (.refused .alreadyInitialized)
  if (← get).slots.length ≤ arity then
    grow (← countTo arity)
  fill arity entry

def freeze : Change Unit :=
  modify fun g => { g with frozen := true }

/-- The entry for a call with `count` arguments. -/
def resolve (g : SlotGroup) (count : Nat) : Except CallError EntryRef :=
  match g.slots[count]?.join with
  | some e => .ok e
  | none => .error (.arityMismatch g.name count)

/-- The position of the last slot in use. -/
def maxArity? (g : SlotGroup) : Option Nat :=
  (g.slots.reverse.findIdx? (·.isSome)).map (g.slots.length - 1 - ·)

/-- The slots in use, with their arity. -/
def entries (g : SlotGroup) : List (Nat × EntryRef) :=
  g.slots.zipIdx.filterMap fun (slot, arity) => slot.map (arity, ·)

def size (g : SlotGroup) : Nat :=
  g.slots.countP (·.isSome)

def isSingle (g : SlotGroup) : Bool :=
  g.size == 1

/-- The overloads without the empty slots. -/
def toGroup (g : SlotGroup) : OverloadGroup :=
  ⟨g.name, g.scope, g.entries, g.frozen⟩

/-- What a group is asked to do. -/
inductive Request where
  | insert (arity : Nat) (entry : EntryRef)
  | freeze
deriving DecidableEq

namespace Request

def make : Request → Change Unit
  | .insert arity entry => SlotGroup.insert arity entry
  | .freeze => SlotGroup.freeze

/-- The overload that a request adds, if it succeeds. -/
def stored (g : SlotGroup) (q : Request) : List (Nat × EntryRef) :=
  match q, q.make g with
  | .insert arity entry, .ok .. => [(arity, entry)]
  | _, _ => []

/-- The group that a request leaves behind, whether it succeeds or fails. -/
def leaves (g : SlotGroup) (q : Request) : SlotGroup :=
  match q.make g with
  | .ok _ g => g
  | .error _ g => g

end Request

/-- The group after some requests, and the overloads that were added, in that order. -/
def run : SlotGroup → List Request → SlotGroup × List (Nat × EntryRef)
  | g, [] => (g, [])
  | g, q :: qs =>
    let (final, added) := run (q.leaves g) qs
    (final, q.stored g ++ added)

end SlotGroup
end NativeBridge
