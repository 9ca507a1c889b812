import NativeBridge.Doc
import NativeBridge.Object.Table
/-!
# The boundary

The state that both sides share: the objects and their wrappers, the error sinks of the calls, the call in
progress, and what the native program and the host keep for themselves. An action on it may be cut short by
an error or a panic; what it changed before that stays changed.
-/
namespace NativeBridge

/-- What a panic carries. -/
inductive Panic where
  | text (message : String)
  /-- Something else than a text. -/
  | other
deriving DecidableEq, Repr, Inhabited

/-- Why an action was cut short. -/
inductive Interrupt where
  | error (e : CallError)
  | panic (p : Panic)
  /-- Conversions call one another more deeply than their values nest. -/
  | nesting
deriving DecidableEq, Repr, Inhabited

/-- The call in progress: its arguments, receiver and result slot, and the sink of its errors. -/
structure CallContext where
  args : List Wire
  receiver : Option Handle
  sink : SinkId
  result : Wire
deriving Inhabited

namespace CallContext

def new (args : List Wire) (receiver : Option Handle) (sink : SinkId) : CallContext :=
  ⟨args, receiver, sink, .undefined⟩

/-- The strong references held by the arguments and the result. -/
def refs (c : CallContext) : List Address :=
  Wire.refsAll c.args ++ c.result.refs

end CallContext

/-- What the native program keeps between calls. -/
structure Program where
  /-- The callback that was given to it to keep. -/
  kept : Option Callback
  /-- The direct superclasses of each class, as far as it has declared any. -/
  lineage : List (Class × List Class)
deriving Inhabited

/-- The state shared by both sides. -/
structure Boundary (Ω : Type) extends Holdings Ω where
  /-- The first error recorded in each sink. -/
  sinks : List (Option CallError)
  call : CallContext
  program : Program
  /-- Native pointers held under names. -/
  pointers : List (String × Pointer)
  /-- What host functions and scripts wrote down. -/
  journal : List Doc

namespace Boundary
variable {Ω : Type} [ObjectModel Ω]

def empty : Boundary Ω :=
  { toHoldings := .empty, sinks := [], call := .new [] none 0, program := ⟨none, []⟩, pointers := []
    journal := [] }

def retain (b : Boundary Ω) (as : List Address) : Boundary Ω :=
  { b with toHoldings := b.toHoldings.retain as }

def drop (b : Boundary Ω) (as : List Address) : Boundary Ω :=
  { b with toHoldings := b.toHoldings.drop as }

/-- The error in a sink. -/
def errorIn (b : Boundary Ω) (sink : SinkId) : Option CallError :=
  (b.sinks[sink]?).join

end Boundary

/-- Record an error in a sink, unless it holds one. -/
def recordIn (sinks : List (Option CallError)) (sink : SinkId) (e : CallError) :
    List (Option CallError) :=
  sinks.modify sink fun
    | some first => some first
    | none => some e

/-- An action on the boundary. Its effects are kept when it is cut short. -/
abbrev Act (Ω : Type) := EStateM Interrupt (Boundary Ω)

namespace Act
variable {Ω α : Type}

def fail (e : CallError) : Act Ω α :=
  throw (.error e)

def ofExcept : Except CallError α → Act Ω α
  | .ok a => pure a
  | .error e => fail e

/-- Run the action and then `after`, whatever the outcome. -/
def ensuring (act : Act Ω α) (after : Boundary Ω → Boundary Ω) : Act Ω α := fun b =>
  match act b with
  | .ok a b => .ok a (after b)
  | .error e b => .error e (after b)

/-- Run `after` if the action is cut short. -/
def onFailure (act : Act Ω α) (after : Boundary Ω → Boundary Ω) : Act Ω α := fun b =>
  match act b with
  | .ok a b => .ok a b
  | .error e b => .error e (after b)

/-- The outcome of an action that may fail with an error. Other interruptions pass through. -/
def attempt (act : Act Ω α) : Act Ω (Except CallError α) := fun b =>
  match act b with
  | .ok a b => .ok (.ok a) b
  | .error (.error e) b => .ok (.error e) b
  | .error e b => .error e b

/-- The outcome of an action, however it ends. -/
def outcome (act : Act Ω α) : Act Ω (Except Interrupt α) := fun b =>
  match act b with
  | .ok a b => .ok (.ok a) b
  | .error e b => .ok (.error e) b

def ofOutcome : Except Interrupt α → Act Ω α
  | .ok a => pure a
  | .error e => throw e

/-- Give the errors of an action the position of an argument. -/
def atArgument (index : Nat) (act : Act Ω α) : Act Ω α := fun b =>
  match act b with
  | .ok a b => .ok a b
  | .error (.error e) b => .error (.error (e.atArgument index)) b
  | .error e b => .error e b

variable [ObjectModel Ω]

def retain (as : List Address) : Act Ω Unit :=
  modify (·.retain as)

def drop (as : List Address) : Act Ω Unit :=
  modify (·.drop as)

/-- Give the references up if the action is cut short. -/
def orDrop (act : Act Ω α) (as : List Address) : Act Ω α :=
  act.onFailure (·.drop as)

/-- Give the references up when the action ends. -/
def thenDrop (act : Act Ω α) (as : List Address) : Act Ω α :=
  act.ensuring (·.drop as)

/-! ## The call in progress -/

/-- A fresh error sink. -/
def newSink : Act Ω SinkId := fun b =>
  .ok b.sinks.length { b with sinks := b.sinks ++ [none] }

/-- Record an error in the sink of the call in progress. -/
def record (e : CallError) : Act Ω Unit :=
  modify fun b => { b with sinks := recordIn b.sinks b.call.sink e }

/-- Take the error out of the sink of the call in progress. -/
def takeError : Act Ω (Option CallError) := fun b =>
  .ok (b.errorIn b.call.sink) { b with sinks := b.sinks.set b.call.sink none }

/-- Run an action in a call of its own. What its context still holds at the end is dropped. -/
def inCall (context : CallContext) (act : Act Ω α) : Act Ω α := fun b =>
  let restore (inner : Boundary Ω) : Boundary Ω :=
    { inner.drop inner.call.refs with call := b.call }
  act.ensuring restore { b with call := context }

/-- Move an argument out of the call; it leaves `undefined` behind. -/
def takeArg (index : Nat) : Act Ω Wire := fun b =>
  match b.call.args[index]? with
  | some w => .ok w { b with call := { b.call with args := b.call.args.set index .undefined } }
  | none =>
    let missing := CallError.mismatch ("argument " ++ toString index)
      (toString b.call.args.length ++ " argument(s)")
    .error (.error missing) b

/-- Replace the result of the call. -/
def setResult (w : Wire) : Act Ω Unit := do
  let old := (← get).call.result
  modify fun b => { b with call := { b.call with result := w } }
  drop old.refs

/-- Move the result out of the call. -/
def takeResult : Act Ω Wire := fun b =>
  .ok b.call.result { b with call := { b.call with result := .undefined } }

/-- Bind a pointer to a wrapper. -/
def wrap (p : Pointer) (owned : Bool) (flags : TypeFlags) : Act Ω Handle := fun b =>
  let (h, s) := b.toHoldings.wrap p owned flags
  .ok h { b with toHoldings := s }

/-- Put an object into a fresh cell and point to it. -/
def newObject {c : Class} (x : Instance Ω c) : Act Ω Pointer := fun b =>
  let (a, heap) := b.heap.alloc x.object
  .ok ⟨c, a, false⟩ { b with heap }

end Act
end NativeBridge
