import NativeBridge.Object.Heap
import NativeBridge.Flags
/-!
# The object table

The wrappers that the host holds by handle. A slot that is used again gets the next generation, so a handle
to a released wrapper is recognized. There is one live wrapper for each object and constness: wrapping an
object again gives the same handle, and a borrowed wrapper is promoted when its object arrives with a strong
reference.
-/
namespace NativeBridge

/-- How a wrapper holds its object. -/
inductive Ownership where
  /-- Made by the host: freed when the wrapper is released. -/
  | owned
  /-- Held together with native code. -/
  | shared
  /-- Held by native code alone: the wrapper keeps nothing alive. -/
  | borrowed
deriving DecidableEq, Repr, Inhabited

namespace Ownership

def ofPointer (p : Pointer) (owned : Bool) : Ownership :=
  if p.weak then .borrowed else if owned then .owned else .shared

def flags : Ownership → TypeFlags
  | .owned => .none
  | .shared => .shared
  | .borrowed => .pointer

def isStrong : Ownership → Bool
  | .borrowed => false
  | _ => true

def name : Ownership → String
  | .owned => "owned"
  | .shared => "shared"
  | .borrowed => "borrowed"

end Ownership

/-- What a wrapper is unique for. -/
structure IdentityKey where
  address : Address
  const : Bool
deriving DecidableEq, Repr, Inhabited

/-- One native object bound to one handle. -/
structure Wrapper where
  cls : Class
  address : Address
  ownership : Ownership
  flags : TypeFlags
deriving DecidableEq, Repr, Inhabited

namespace Wrapper

def isConst (w : Wrapper) : Bool :=
  w.flags.contains .const

def key (w : Wrapper) : IdentityKey :=
  ⟨w.address, w.isConst⟩

/-- The strong reference of the wrapper, if it has one. -/
def refs (w : Wrapper) : List Address :=
  if w.ownership.isStrong then [w.address] else []

/-- Whether the wrapper's object is there: a borrowed one may be gone. -/
def isAlive {Ω : Type} (w : Wrapper) (h : Heap Ω) : Bool :=
  w.ownership.isStrong || h.isAlive w.address

end Wrapper

/-- A place of the table. -/
structure Slot where
  generation : UInt32
  wrapper : Option Wrapper
deriving Repr, Inhabited

/-- All slots, the free ones (last freed first), and the handle of each identity. -/
structure ObjectTable where
  slots : List Slot
  free : List Nat
  identity : List (IdentityKey × Handle)
deriving Repr, Inhabited

namespace ObjectTable

def empty : ObjectTable := ⟨[], [], []⟩

/-- The wrapper that a handle names. -/
def live? (t : ObjectTable) (h : Handle) : Option Wrapper :=
  match t.slots[h.index]? with
  | some slot => if slot.generation = h.generation then slot.wrapper else none
  | none => none

def get (t : ObjectTable) (h : Handle) : Except CallError Wrapper :=
  match t.live? h with
  | some w => .ok w
  | none => .error (.useAfterFree h)

def contains (t : ObjectTable) (h : Handle) : Bool :=
  (t.live? h).isSome

/-- Put a wrapper into the slot freed last, or into a new one. -/
def allocate (t : ObjectTable) (w : Wrapper) : Handle × ObjectTable :=
  match t.free with
  | i :: free =>
    let generation := (t.slots[i]?.map (·.generation)).getD 0
    (⟨i, generation⟩, { t with slots := t.slots.set i ⟨generation, some w⟩, free })
  | [] => (⟨t.slots.length, 0⟩, { t with slots := t.slots ++ [⟨0, some w⟩] })

/-- Empty the slot of a live handle and step its generation. -/
def discard (t : ObjectTable) (h : Handle) : ObjectTable :=
  if t.contains h then
    { t with slots := t.slots.set h.index ⟨h.generation + 1, none⟩, free := h.index :: t.free }
  else t

/-- Replace the wrapper of a live handle. -/
def setWrapper (t : ObjectTable) (h : Handle) (w : Wrapper) : ObjectTable :=
  { t with slots := t.slots.set h.index ⟨h.generation, some w⟩ }

def forget (t : ObjectTable) (k : IdentityKey) : ObjectTable :=
  { t with identity := t.identity.filter (·.1 ≠ k) }

/-- The handles of all live wrappers, in slot order. -/
def handles (t : ObjectTable) : List Handle :=
  t.slots.zipIdx.filterMap fun (slot, i) => slot.wrapper.map fun _ => ⟨i, slot.generation⟩

def liveCount (t : ObjectTable) : Nat :=
  (t.slots.filter (·.wrapper.isSome)).length

def outline (t : ObjectTable) : String :=
  Outline.record "ObjectTable"
    [("slot_count", toString t.slots.length), ("free_count", toString t.free.length),
     ("live_count", toString t.liveCount)]

end ObjectTable

/-- The heap together with the table of wrappers that hold part of it. -/
structure Holdings (Ω : Type) where
  heap : Heap Ω
  table : ObjectTable

namespace Holdings
variable {Ω : Type} [ObjectModel Ω]

def empty : Holdings Ω := ⟨.empty, .empty⟩

/-- Count references held outside the table. -/
def retain (s : Holdings Ω) (as : List Address) : Holdings Ω :=
  { s with heap := s.heap.retain as }

/-- Give up references held outside the table. -/
def drop (s : Holdings Ω) (as : List Address) : Holdings Ω :=
  { s with heap := s.heap.release as }

/-- Empty the slot of a handle and give up what its wrapper holds. -/
def discard (s : Holdings Ω) (h : Handle) : Holdings Ω :=
  match s.table.live? h with
  | some w => { table := s.table.discard h, heap := s.heap.release w.refs }
  | none => s

/-- Make a new wrapper, which keeps the pointer's reference. -/
def wrapNew (s : Holdings Ω) (w : Wrapper) : Handle × Holdings Ω :=
  let (h, table) := s.table.allocate w
  (h, { s with table := { table with identity := (w.key, h) :: table.identity } })

/-- Bind a pointer to a wrapper. The pointer's reference is kept by a new or promoted wrapper and given up
when a strong wrapper is there already. A wrapper whose borrowed object is gone is replaced. -/
def wrap (s : Holdings Ω) (p : Pointer) (owned : Bool) (flags : TypeFlags) : Handle × Holdings Ω :=
  let ownership := Ownership.ofPointer p owned
  let flags := (flags.diff .ownership).union ownership.flags
  let fresh : Wrapper := ⟨p.cls, p.address, ownership, flags⟩
  match s.table.identity.lookup fresh.key with
  | none => s.wrapNew fresh
  | some h =>
    match s.table.live? h with
    | some w =>
      if w.isAlive s.heap then
        if ownership.isStrong && !w.ownership.isStrong then
          let promoted := { w with
            ownership := .shared, flags := (w.flags.diff .ownership).union .shared }
          (h, { s with table := s.table.setWrapper h promoted })
        else (h, s.drop p.refs)
      else ({ s with table := s.table.forget fresh.key }.discard h).wrapNew fresh
    | none => { s with table := s.table.forget fresh.key }.wrapNew fresh

/-- The address behind a handle, as long as both the wrapper and its object are there. -/
def cell (s : Holdings Ω) (h : Handle) : Except CallError Address := do
  let w ← s.table.get h
  if w.isAlive s.heap then .ok w.address else .error (.useAfterFree h)

/-- Release a wrapper and what it holds. -/
def release (s : Holdings Ω) (h : Handle) : Except CallError (Holdings Ω) := do
  let w ← s.table.get h
  return { s with table := s.table.forget w.key }.discard h

/-- The address of the object that could be moved out: the wrapper must not be const and must hold the only
strong reference. -/
def uniqueCell (s : Holdings Ω) (h : Handle) : Except CallError Address := do
  let w ← s.table.get h
  if w.isConst then throw (.constViolation ("cannot move out of const " ++ w.cls.name))
  if w.ownership.isStrong && s.heap.strong w.address == 1 then return w.address
  throw (.mismatch ("unique " ++ w.cls.name) ("shared " ++ w.cls.name))

/-- Move a solely held object out of its wrapper, which is released. The reference passes to the caller. -/
def takeUnique (s : Holdings Ω) (h : Handle) : Except CallError (Address × Holdings Ω) := do
  let a ← s.uniqueCell h
  let s ← (s.retain [a]).release h
  return (a, s)

/-- Release every wrapper. -/
def clear (s : Holdings Ω) : Holdings Ω :=
  let s := s.table.handles.foldl (fun s h => (s.release h).toOption.getD s) s
  { s with table := { s.table with identity := [] } }

/-- Move the object of class `c` out of a cell to which the caller holds the only reference. The caller's
reference is given up in any case. -/
def takeCell (s : Holdings Ω) (c : Class) (a : Address) : Except CallError (Instance Ω c) × Holdings Ω :=
  match s.heap.cells[a]? with
  | none => (.error (.mismatch c.name ""), s)
  | some cell =>
    match Instance.of? c cell.object with
    | none => (.error (.mismatch c.name (ObjectModel.classOf cell.object).name), s.drop [a])
    | some x =>
      if cell.strong = 1 then (.ok x, { s with heap := s.heap.vacate a })
      else (.error (.native (c.name ++ " is still referenced elsewhere")), s.drop [a])

/-- Move the object out of a pointer that holds it alone. -/
def intoOwned (s : Holdings Ω) (c : Class) (p : Pointer) : Except CallError (Instance Ω c) × Holdings Ω :=
  if p.weak then (.error (.mismatch ("owned " ++ c.name) ("borrowed " ++ p.cls.name)), s)
  else s.takeCell c p.address

end Holdings
end NativeBridge
