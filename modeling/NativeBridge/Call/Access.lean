import NativeBridge.Call.Services
/-!
# Access to objects

How a call reaches an object: through a handle, through a raw pointer, or as its receiver. Every way checks
the class first (an object may be viewed as an ancestor of its class, a handle must match exactly), then that
the object is still there.
-/
namespace NativeBridge.Access
variable {Ω α : Type} [ObjectModel Ω]

/-- Use an object while it is being read, viewed as class `c` along a path. The object stays alive until the
use is over. -/
def reading (a : Address) (path : List (Upcast Ω)) (c : Class) (use : Instance Ω c → Act Ω α) : Act Ω α := do
  let heap := (← get).heap
  match heap.beginRead? a with
  | none => Act.fail (.native (heap.classNameAt a ++ " is already borrowed mutably"))
  | some locked =>
    modify fun b => { b with heap := locked.retain [a] }
    let view := (heap.cells[a]?.bind fun cell => Upcast.viewAlong path cell.object).bind (Instance.of? c)
    let inner := match view with
      | some x => use x
      | none => Act.fail (.mismatch c.qualified (heap.classNameAt a))
    inner.ensuring fun b => { b with heap := (b.heap.endRead a).release [a] }

/-- Use an object while it is being written, viewed as class `c` along a path. What the use makes of it is
kept even if the use is cut short. -/
def writing (a : Address) (path : List (Upcast Ω)) (c : Class)
    (use : Instance Ω c → Act Ω (Except Interrupt α × Instance Ω c)) : Act Ω α := do
  let heap := (← get).heap
  match heap.beginWrite? a with
  | none => Act.fail (.native (heap.classNameAt a ++ " is already borrowed"))
  | some locked =>
    modify fun b => { b with heap := locked.retain [a] }
    let inner : Act Ω α := do
      match heap.cells[a]? with
      | none => Act.fail (.mismatch c.qualified "")
      | some cell =>
        match (Upcast.viewAlong path cell.object).bind (Instance.of? c) with
        | none => Act.fail (.mismatch c.qualified (heap.classNameAt a))
        | some x =>
          let (outcome, x) ← use x
          modify fun b => { b with heap := b.heap.store a (Upcast.putAlong path cell.object x.object) }
          Act.ofOutcome outcome
    inner.ensuring fun b => { b with heap := (b.heap.endWrite a).release [a] }

/-- The upcasts from a class to `c`, or the mismatch of the two. -/
def path (sv : Services Ω) (c source : Class) : Except CallError (List (Upcast Ω)) :=
  if source = c then .ok []
  else
    match sv.upcastPath source c with
    | some p => .ok p
    | none => .error (.mismatch c.name source.name)

def denied (h : Handle) (c : Class) : CallError :=
  .constViolation (h.text ++ " is const, mutable access to " ++ c.name ++ " denied")

/-- The cell behind a handle and the path along which it is viewed as `c`. -/
def locate (sv : Services Ω) (b : Boundary Ω) (h : Handle) (c : Class) (mutable : Bool) :
    Except CallError (Address × List (Upcast Ω)) := do
  let w ← b.table.get h
  if mutable && w.isConst then throw (denied h c)
  let p ← path sv c w.cls
  if w.isAlive b.heap then return (w.address, p)
  throw (.useAfterFree h)

/-- The handle of the receiver. -/
def requireThis (b : Boundary Ω) (c : Class) : Except CallError Handle :=
  match b.call.receiver with
  | some h => .ok h
  | none => .error (.mismatch c.name "undefined")

/-- Check that the receiver is there and can be viewed as `c`. -/
def checkThis (sv : Services Ω) (b : Boundary Ω) (c : Class) (mutable : Bool) : Except CallError Unit := do
  let h ← requireThis b c
  let _ ← locate sv b h c mutable

/-- Use the object behind a handle. -/
def readObject (sv : Services Ω) (h : Handle) (c : Class) (use : Instance Ω c → Act Ω α) : Act Ω α := do
  let (a, p) ← Act.ofExcept (locate sv (← get) h c false)
  reading a p c use

/-- Use and change the object behind a handle. -/
def writeObject (sv : Services Ω) (h : Handle) (c : Class)
    (use : Instance Ω c → Act Ω (Except Interrupt α × Instance Ω c)) : Act Ω α := do
  let (a, p) ← Act.ofExcept (locate sv (← get) h c true)
  writing a p c use

/-- The address of a raw pointer whose object is still there. -/
def livePointer (b : Boundary Ω) (p : Pointer) (c : Class) : Except CallError Address :=
  if b.heap.isAlive p.address then .ok p.address
  else .error (.mismatch c.name ("dangling " ++ p.cls.name))

/-- Use the object behind a raw pointer. -/
def readPointer (sv : Services Ω) (p : Pointer) (c : Class) (use : Instance Ω c → Act Ω α) : Act Ω α := do
  let path ← Act.ofExcept (path sv c p.cls)
  let a ← Act.ofExcept (livePointer (← get) p c)
  reading a path c use

/-- A shared handle to the object behind a raw pointer of exactly class `c`. -/
def sharedPointer (p : Pointer) (c : Class) : Act Ω Address := do
  if p.cls ≠ c then Act.fail (.mismatch c.name p.cls.name)
  let a ← Act.ofExcept (livePointer (← get) p c)
  Act.retain [a]
  return a

/-- A shared handle to a wrapped object of exactly class `c`. -/
def sharedObject (h : Handle) (c : Class) (allowConst : Bool) : Act Ω Address := do
  let b ← get
  let w ← Act.ofExcept (b.table.get h)
  if w.isConst && !allowConst then
    Act.fail (.constViolation (h.text ++ " is const, a mutable " ++ c.name ++ " handle is required"))
  if w.cls ≠ c then Act.fail (.mismatch c.name w.cls.name)
  if !w.isAlive b.heap then Act.fail (.useAfterFree h)
  Act.retain [w.address]
  return w.address

/-- Check that the object behind a handle could be moved out as an object of exactly class `c`. -/
def checkUnique (b : Boundary Ω) (c : Class) (h : Handle) : Except CallError Unit := do
  let w ← b.table.get h
  if w.cls ≠ c then throw (.mismatch c.name w.cls.name)
  if b.call.receiver = some h then throw (.mismatch ("unique " ++ c.name) "the call's receiver")
  let _ ← b.toHoldings.uniqueCell h

/-- Move the object of class `c` out of its wrapper. -/
def takeUnique (c : Class) (h : Handle) : Act Ω (Instance Ω c) := do
  let b ← get
  Act.ofExcept (checkUnique b c h)
  let (a, s) ← Act.ofExcept (b.toHoldings.takeUnique h)
  let (taken, s) := s.takeCell c a
  set { b with toHoldings := s }
  Act.ofExcept taken

/-- Move the object out of a pointer that holds it alone. The pointer is given up. -/
def intoOwned (c : Class) (p : Pointer) : Act Ω (Instance Ω c) := do
  let b ← get
  let (taken, s) := b.toHoldings.intoOwned c p
  set { b with toHoldings := s }
  Act.ofExcept taken

end NativeBridge.Access
