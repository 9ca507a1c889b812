import NativeBridge.Call.Convert
import NativeBridge.Registry.Signature
/-!
# Entry points

A native function, method or constructor with its types. A call converts its arguments in two passes. What
leaves the object table alone converts first; then the receiver and every argument that moves an object out
are checked; only then are those arguments moved.
-/
namespace NativeBridge

/-- A typed native entry point over objects `Ω`. -/
inductive Entry (Ω : Type) [ObjectModel Ω] where
  /-- A function without receiver. -/
  | function (params : List NativeType) (ret : NativeType)
      (body : NativeType.Values Ω params → Body Ω Unit (ret.Value Ω))
  /-- A method that reads its receiver. -/
  | method (c : Class) (params : List NativeType) (ret : NativeType)
      (body : Instance Ω c → NativeType.Values Ω params → Body Ω Unit (ret.Value Ω))
  /-- A method that may change its receiver. -/
  | methodMut (c : Class) (params : List NativeType) (ret : NativeType)
      (body : NativeType.Values Ω params → Body Ω (Instance Ω c) (ret.Value Ω))
  /-- A constructor of a class. -/
  | constructor (c : Class) (params : List NativeType)
      (body : NativeType.Values Ω params → Body Ω Unit (Instance Ω c))

namespace Entry
variable {Ω : Type} [ObjectModel Ω]

/-- The shape under which the entry is declared. -/
def shape : Entry Ω → CallShape
  | .function params ret _ => .function params ret
  | .method c params ret _ => .method c params ret
  | .methodMut c params ret _ => .method c params ret
  | .constructor c params _ => .function params (.object c)

/-! ## Arguments -/

/-- Convert an argument of the call in progress. -/
def arg (sv : Services Ω) (t : NativeType) (i : Nat) : Act Ω (t.Value Ω) := do
  let w ← Act.takeArg i
  (Convert.fromWire sv t w).atArgument i

/-- The arguments that leave the object table alone. -/
def early (sv : Services Ω) : (ts : List NativeType) → Nat → Act Ω (NativeType.PartialValues Ω ts)
  | [], _ => pure ()
  | t :: ts, i => do
    let x ← if t.consumes then pure none else some <$> arg sv t i
    let held := match x with
      | some x => t.refs x
      | none => []
    let xs ← (early sv ts (i + 1)).orDrop held
    return (x, xs)

/-- Foresee whether an argument that moves an object out would fail. -/
def precheck (b : Boundary Ω) : List NativeType → Nat → Except CallError Unit
  | [], _ => .ok ()
  | t :: ts, i => do
    if t.consumes then
      if let some w := b.call.args[i]? then
        if let .error e := Convert.precheck b t w then throw (e.atArgument i)
    precheck b ts (i + 1)

/-- The arguments that move objects out. -/
def late (sv : Services Ω) :
    (ts : List NativeType) → NativeType.PartialValues Ω ts → Nat → Act Ω (NativeType.Values Ω ts)
  | [], _, _ => pure ()
  | t :: ts, (x, xs), i => do
    let x ← (match x with
      | some x => pure x
      | none => arg sv t i).orDrop (NativeType.partialRefs ts xs)
    let xs ← (late sv ts xs (i + 1)).orDrop (t.refs x)
    return (x, xs)

/-- All arguments, with `check` between the two passes. -/
def arguments (sv : Services Ω) (ts : List NativeType) (check : Boundary Ω → Except CallError Unit) :
    Act Ω (NativeType.Values Ω ts) := do
  let xs ← early sv ts 0
  (do
    Act.ofExcept (check (← get))
    Act.ofExcept (precheck (← get) ts 0)).orDrop (NativeType.partialRefs ts xs)
  late sv ts xs 0

/-! ## Running -/

/-- The value of a body that has ended, with its references counted. -/
def harvest {ρ α : Type} (refs : α → List Address) (ended : Body.Ended ρ α) : Act Ω α := do
  let x ← Act.ofOutcome ended.outcome
  Act.retain (refs x)
  return x

/-- Run a body without receiver on the converted arguments, which are given up afterwards. -/
def runFree (sv : Services Ω) {α : Type} (refs : α → List Address) (held : List Address)
    (body : Body Ω Unit α) : Act Ω α := do
  let ended ← Body.run sv.host () body
  (harvest refs ended).thenDrop (ended.fresh ++ held)

/-- Run a body on a receiver that it only reads. -/
def runReading (sv : Services Ω) {c : Class} {α : Type} (refs : α → List Address) (held : List Address)
    (body : Instance Ω c → Body Ω Unit α) : Act Ω α :=
  (do
    let h ← Act.ofExcept (Access.requireThis (← get) c)
    Access.readObject sv h c fun this => do
      let ended ← Body.run sv.host () (body this)
      (harvest refs ended).thenDrop ended.fresh).thenDrop held

/-- Run a body on a receiver that it may change. The references of what the receiver has become are counted
before those of the arguments are given up. -/
def runWriting (sv : Services Ω) {c : Class} {α : Type} (refs : α → List Address) (held : List Address)
    (body : Body Ω (Instance Ω c) α) : Act Ω α :=
  (do
    let h ← Act.ofExcept (Access.requireThis (← get) c)
    let (ended, fresh) ← Access.writeObject sv h c fun this => do
      let ended ← Body.run sv.host this body
      if let .ok x := ended.outcome then Act.retain (refs x)
      return (.ok (ended.outcome, ended.fresh), ended.receiver)
    (Act.ofOutcome ended).thenDrop fresh).thenDrop held

/-- Run the entry in the call in progress, and leave its result there. A constructor leaves a pointer to the
new object. -/
def run (sv : Services Ω) : Entry Ω → Act Ω Unit
  | .function params ret body => do
    let xs ← arguments sv params fun _ => .ok ()
    let x ← runFree sv ret.refs (NativeType.valuesRefs params xs) (body xs)
    Act.setResult (← Convert.toWire sv ret x)
  | .method c params ret body => do
    let xs ← arguments sv params fun b => Access.checkThis sv b c false
    let x ← runReading sv ret.refs (NativeType.valuesRefs params xs) fun this => body this xs
    Act.setResult (← Convert.toWire sv ret x)
  | .methodMut c params ret body => do
    let xs ← arguments sv params fun b => Access.checkThis sv b c true
    let x ← runWriting sv ret.refs (NativeType.valuesRefs params xs) (body xs)
    Act.setResult (← Convert.toWire sv ret x)
  | .constructor _ params body => do
    let xs ← arguments sv params fun _ => .ok ()
    let x ← runFree sv Instance.refs (NativeType.valuesRefs params xs) (body xs)
    Act.setResult (.pointer (← Act.newObject x))

end Entry
end NativeBridge
