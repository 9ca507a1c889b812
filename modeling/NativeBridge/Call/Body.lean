import NativeBridge.Call.Boundary
/-!
# Native bodies

A native body is a tree of steps: it ends with a value or a panic, acts on the objects that it can reach, or
calls a function of the host and goes on with what that gives. It never touches the object table or the
error sinks: a failing callback is recorded where the callback was scoped to, whatever the body makes of it.

A body borrows its arguments. Whatever its result or its receiver refer to is counted when it is over
(`Body.exec` keeps the references that arose on the way until then).
-/
namespace NativeBridge

/-- What a body can reach: its receiver, the objects, what the program keeps, and the references that the
body itself has brought about. -/
structure Scene (Ω ρ : Type) where
  receiver : ρ
  heap : Heap Ω
  program : Program
  fresh : List Address

/-- A native body with a receiver of type `ρ`. -/
inductive Body (Ω ρ α : Type) where
  | done (value : α)
  | panic (p : Panic)
  | act (change : Scene Ω ρ → Scene Ω ρ) (next : Scene Ω ρ → Body Ω ρ α)
  | call (callback : Callback) (args : List Wire) (next : Except CallError Wire → Body Ω ρ α)

namespace Body
variable {Ω ρ α β : Type}

protected def bind : Body Ω ρ α → (α → Body Ω ρ β) → Body Ω ρ β
  | .done a, f => f a
  | .panic p, _ => .panic p
  | .act change next, f => .act change fun s => (next s).bind f
  | .call c args next, f => .call c args fun r => (next r).bind f

instance : Monad (Body Ω ρ) where
  pure := .done
  bind := Body.bind

/-- Panic with a text. -/
def panicWith (message : String) : Body Ω ρ α :=
  .panic (.text message)

def scene : Body Ω ρ (Scene Ω ρ) :=
  .act id .done

def receiver : Body Ω ρ ρ :=
  .act id fun s => .done s.receiver

def setReceiver (r : ρ) : Body Ω ρ Unit :=
  .act ({ · with receiver := r }) fun _ => .done ()

def updateReceiver (f : ρ → ρ) : Body Ω ρ Unit :=
  .act (fun s => { s with receiver := f s.receiver }) fun _ => .done ()

/-- The object at an address, as a reader sees it: nothing while it is being written. -/
def load? (a : Address) : Body Ω ρ (Option Ω) :=
  .act id fun s => .done ((s.heap.live? a).bind fun c => if c.writing then none else some c.object)

/-- The number of strong references to an object. -/
def strong (a : Address) : Body Ω ρ Nat :=
  .act id fun s => .done (s.heap.strong a)

def isAlive (a : Address) : Body Ω ρ Bool :=
  .act id fun s => .done (s.heap.isAlive a)

/-- Replace the object at an address. -/
def store [ObjectModel Ω] (a : Address) (o : Ω) : Body Ω ρ Unit :=
  .act (fun s => { s with heap := s.heap.store a o }) fun _ => .done ()

/-- Put an object into a fresh cell. The body holds it until it ends. -/
def alloc [ObjectModel Ω] (o : Ω) : Body Ω ρ Address :=
  .act id fun s =>
    let a := s.heap.cells.length
    let heap := (s.heap.retain (ObjectModel.refs o)).alloc o |>.2
    .act (fun s => { s with heap, fresh := a :: s.fresh }) fun _ => .done a

/-- What the program keeps. -/
def program : Body Ω ρ Program :=
  .act id fun s => .done s.program

def setKept (c : Option Callback) : Body Ω ρ Unit :=
  .act (fun s => { s with program := { s.program with kept := c } }) fun _ => .done ()

/-- Call a function of the host. -/
def invoke (c : Callback) (args : List Wire) : Body Ω ρ (Except CallError Wire) :=
  .call c args .done

end Body

/-- How the functions of the host behave: from the arguments and what has been written down so far to a
result, and what is written down then. -/
abbrev HostBehaviour := HostFunction → List Wire → List Doc → Except Interrupt Wire × List Doc

/-- What a body's run goes through. -/
structure Stage (Ω ρ : Type) where
  scene : Scene Ω ρ
  sinks : List (Option CallError)
  journal : List Doc

namespace Body
variable {Ω ρ α : Type}

/-- Run a body. A failing callback that is scoped to a call records its error there; a panic of the host
ends the body. -/
def exec (host : HostBehaviour) : Body Ω ρ α → Stage Ω ρ → Except Interrupt α × Stage Ω ρ
  | .done a, s => (.ok a, s)
  | .panic p, s => (.error (.panic p), s)
  | .act change next, s =>
    let scene := change s.scene
    (next scene).exec host { s with scene }
  | .call c args next, s =>
    match host c.function args s.journal with
    | (.ok w, journal) =>
      let scene := { s.scene with heap := s.scene.heap.retain w.refs, fresh := w.refs ++ s.scene.fresh }
      (next (.ok w)).exec host { s with scene, journal }
    | (.error (.error e), journal) =>
      let sinks := match c.sink with
        | some sink => recordIn s.sinks sink e
        | none => s.sinks
      (next (.error e)).exec host { s with sinks, journal }
    | (.error i, journal) => (.error i, { s with journal })

/-- The end of a body: its outcome, its receiver, and the references it brought about. -/
structure Ended (ρ α : Type) where
  outcome : Except Interrupt α
  receiver : ρ
  fresh : List Address

/-- Run a body on the boundary. -/
def run (host : HostBehaviour) (receiver : ρ) (body : Body Ω ρ α) : Act Ω (Ended ρ α) := fun b =>
  let start : Stage Ω ρ := ⟨⟨receiver, b.heap, b.program, []⟩, b.sinks, b.journal⟩
  let (outcome, s) := body.exec host start
  .ok ⟨outcome, s.scene.receiver, s.scene.fresh⟩
    { b with heap := s.scene.heap, program := s.scene.program, sinks := s.sinks, journal := s.journal }

end Body

/-- Call a function of the host from outside a body. The arguments are given up, the result is held. -/
def Callback.invoke {Ω : Type} [ObjectModel Ω] (host : HostBehaviour) (c : Callback) (args : List Wire) :
    Act Ω (Except CallError Wire) := do
  let ended ← Body.run host () (Body.invoke c args)
  Act.thenDrop (do
    let r ← Act.ofOutcome ended.outcome
    if let .ok w := r then Act.retain w.refs
    return r) (ended.fresh ++ Wire.refsAll args)

end NativeBridge
