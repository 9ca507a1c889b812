import NativeBridge.Proofs.Call.Hold
import NativeBridge.Proofs.Engine.Untouched
/-!
# Where native code starts

A run of an entry is a beginning, one run of its native code, and an end (`Entry.run_withClosure`). The beginning
converts the arguments and takes hold of the receiver; neither it nor the end depends on the native code.
-/
namespace NativeBridge
variable {Ω : Type} [ObjectModel Ω] {α β : Type}

open Act

/-! ## Splitting what surrounds an action -/

namespace Act

omit [ObjectModel Ω]

theorem ensuring_bind (act : Act Ω α) (f : α → Act Ω β) (after : Boundary Ω → Boundary Ω) :
    (act >>= f).ensuring after = act.onFailure after >>= fun a => (f a).ensuring after := by
  funext b
  cases h : act b with
  | ok a b' =>
    rw [Act.bind_ok (show act.onFailure after b = .ok a b' by rw [onFailure, h]), ensuring, Act.bind_ok h, ensuring]
  | error i b' =>
    rw [bind_error (show act.onFailure after b = .error i (after b') by rw [onFailure, h]), ensuring, bind_error h]

/-- An action that cannot be cut short. -/
def Total (act : Act Ω α) : Prop :=
  ∀ b, ∃ a b', act b = .ok a b'

theorem Total.onFailure {act : Act Ω α} (hact : act.Total) (after : Boundary Ω → Boundary Ω) :
    act.onFailure after = act := by
  funext b
  obtain ⟨a, b', h⟩ := hact b
  rw [Act.onFailure, h]

end Act

omit [ObjectModel Ω] in
theorem Body.total_run {ρ : Type} (host : HostBehaviour) (receiver : ρ) (body : Body Ω ρ α) :
    (Body.run host receiver body).Total :=
  fun _ => ⟨_, _, rfl⟩

/-! ## Native code -/

namespace Entry

/-- What native code takes hold of besides its arguments. -/
@[reducible] def Receiver : Entry Ω → Type
  | .function _ _ _ => Unit
  | .method c _ _ _ => Access.Hold Ω c
  | .methodMut c _ _ _ => Access.Hold Ω c
  | .constructor _ _ _ => Unit

/-- What native code sees of its receiver. -/
@[reducible] def Seen : Entry Ω → Type
  | .method c _ _ _ => Instance Ω c
  | _ => Unit

/-- What native code may change of its receiver. -/
@[reducible] def Place : Entry Ω → Type
  | .methodMut c _ _ _ => Instance Ω c
  | _ => Unit

/-- What native code gives back. -/
@[reducible] def Yield : Entry Ω → Type
  | .function _ ret _ => ret.Value Ω
  | .method _ _ ret _ => ret.Value Ω
  | .methodMut _ _ ret _ => ret.Value Ω
  | .constructor c _ _ => Instance Ω c

/-- Native code that could stand behind the entry. -/
abbrev Closure (e : Entry Ω) : Type :=
  e.Seen → NativeType.Values Ω e.params → Body Ω e.Place e.Yield

/-- The entry with other native code. -/
def withClosure : (e : Entry Ω) → e.Closure → Entry Ω
  | .function params ret _, f => .function params ret fun xs => f () xs
  | .method c params ret _, f => .method c params ret f
  | .methodMut c params ret _, f => .methodMut c params ret fun xs => f () xs
  | .constructor c params _, f => .constructor c params fun xs => f () xs

def closure : (e : Entry Ω) → e.Closure
  | .function _ _ body => fun _ xs => body xs
  | .method _ _ _ body => body
  | .methodMut _ _ _ body => fun _ xs => body xs
  | .constructor _ _ body => fun _ xs => body xs

theorem withClosure_closure (e : Entry Ω) : e.withClosure e.closure = e := by
  cases e <;> rfl

/-- What native code is started with. -/
structure Start (e : Entry Ω) where
  receiver : e.Receiver
  args : NativeType.Values Ω e.params

def seen : (e : Entry Ω) → e.Receiver → e.Seen
  | .function _ _ _, _ => ()
  | .method _ _ _ _, hold => hold.part
  | .methodMut _ _ _ _, _ => ()
  | .constructor _ _ _, _ => ()

def place : (e : Entry Ω) → e.Receiver → e.Place
  | .function _ _ _, _ => ()
  | .method _ _ _ _, _ => ()
  | .methodMut _ _ _ _, hold => hold.part
  | .constructor _ _ _, _ => ()

/-- Take hold of the receiver, if there is to be one. -/
def grasp (sv : Services Ω) : (e : Entry Ω) → Act Ω e.Receiver
  | .function _ _ _ => pure ()
  | .method c _ _ _ => Access.grasp sv c false
  | .methodMut c _ _ _ => Access.grasp sv c true
  | .constructor _ _ _ => pure ()

/-- Everything up to the native code. -/
def begin (sv : Services Ω) (e : Entry Ω) : Act Ω e.Start := do
  let xs ← arguments sv e.params (e.check sv)
  let r ← (e.grasp sv).orDrop (NativeType.valuesRefs e.params xs)
  return ⟨r, xs⟩

/-- The native code of the entry, on what it is started with. -/
def runClosure (sv : Services Ω) (e : Entry Ω) (f : e.Closure) (s : e.Start) : Act Ω (Body.Ended e.Place e.Yield) :=
  Body.run sv.host (e.place s.receiver) (f (e.seen s.receiver) s.args)

/-- Put what the receiver has become back, and end its use. -/
def putBack {c : Class} (hold : Access.Hold Ω c) (x : Instance Ω c) (retained : List Address) : Act Ω Unit :=
  (do
    Act.retain retained
    modify fun b => { b with heap := b.heap.store hold.address (Upcast.putAlong hold.path hold.whole x.object) }
    : Act Ω Unit).ensuring (Access.leave true hold.address)

/-- The references of a value, if there is one. -/
def yielded {ρ : Type} (refs : α → List Address) (ended : Body.Ended ρ α) : List Address :=
  match ended.outcome with
  | .ok x => refs x
  | .error _ => []

/-- What a body that has ended gives back, once its receiver and its arguments are given up. -/
def settle : (e : Entry Ω) → e.Start → Body.Ended e.Place e.Yield → Act Ω e.Yield
  | .function params ret _, s, ended =>
    (harvest ret.refs ended).thenDrop (ended.fresh ++ NativeType.valuesRefs params s.args)
  | .method _ params ret _, s, ended =>
    (((harvest ret.refs ended).thenDrop ended.fresh).ensuring (Access.leave false s.receiver.address)).thenDrop
      (NativeType.valuesRefs params s.args)
  | .methodMut _ params ret _, s, ended =>
    (do
      putBack s.receiver ended.receiver (yielded ret.refs ended)
      (Act.ofOutcome ended.outcome).thenDrop ended.fresh : Act Ω _).thenDrop (NativeType.valuesRefs params s.args)
  | .constructor _ params _, s, ended =>
    (harvest Instance.refs ended).thenDrop (ended.fresh ++ NativeType.valuesRefs params s.args)

/-- Leave the result of native code as the result of the call. -/
def leaveResult (sv : Services Ω) : (e : Entry Ω) → e.Yield → Act Ω Unit
  | .function _ ret _, x => do Act.setResult (← Convert.toWire sv ret x)
  | .method _ _ ret _, x => do Act.setResult (← Convert.toWire sv ret x)
  | .methodMut _ _ ret _, x => do Act.setResult (← Convert.toWire sv ret x)
  | .constructor _ _ _, x => do Act.setResult (.pointer (← Act.newObject x))

/-- Everything after the native code. -/
def finish (sv : Services Ω) (e : Entry Ω) (s : e.Start) (ended : Body.Ended e.Place e.Yield) : Act Ω Unit := do
  leaveResult sv e (← settle e s ended)

theorem runReading_eq (sv : Services Ω) {c : Class} (refs : α → List Address) (held : List Address)
    (body : Instance Ω c → Body Ω Unit α) :
    runReading sv refs held body = (do
      let hold ← (Access.grasp sv c false).orDrop held
      let ended ← Body.run sv.host () (body hold.part)
      (((harvest refs ended).thenDrop ended.fresh).ensuring (Access.leave false hold.address)).thenDrop held) := by
  have hgrasp : (do
      let h ← Act.ofExcept (Access.requireThis (← get) c)
      Access.readObject sv h c fun this => do
        let ended ← Body.run sv.host () (body this)
        (harvest refs ended).thenDrop ended.fresh : Act Ω α) =
      Access.grasp sv c false >>= fun hold => (do
        let ended ← Body.run sv.host () (body hold.part)
        (harvest refs ended).thenDrop ended.fresh : Act Ω α).ensuring (Access.leave false hold.address) := by
    unfold Access.grasp Access.readObject
    simp only [bind_assoc, Access.reading_eq]
  rw [runReading, hgrasp, thenDrop, ensuring_bind]
  rfl

/-- The body that may change its receiver, as it is run on the receiver's part of the object. -/
def rewriting (sv : Services Ω) {c : Class} (refs : α → List Address) (body : Body Ω (Instance Ω c) α)
    (this : Instance Ω c) : Act Ω (Except Interrupt (Except Interrupt α × List Address) × Instance Ω c) := do
  let ended ← Body.run sv.host this body
  if let .ok x := ended.outcome then Act.retain (refs x)
  return (.ok (ended.outcome, ended.fresh), ended.receiver)

theorem rewriting_putBack (sv : Services Ω) {c : Class} (refs : α → List Address) (body : Body Ω (Instance Ω c) α)
    (hold : Access.Hold Ω c) : (do
      let (outcome, x) ← rewriting sv refs body hold.part
      modify fun b => { b with heap := b.heap.store hold.address (Upcast.putAlong hold.path hold.whole x.object) }
      Act.ofOutcome outcome : Act Ω (Except Interrupt α × List Address)).ensuring (Access.leave true hold.address) = (do
        let ended ← Body.run sv.host hold.part body
        putBack hold ended.receiver (yielded refs ended)
        return (ended.outcome, ended.fresh)) := by
  simp only [rewriting, bind_assoc]
  rw [ensuring_bind, (Body.total_run _ _ _).onFailure]
  congr 1
  funext ended b
  unfold yielded
  cases ended.outcome <;> rfl

theorem rewriting_grasp (sv : Services Ω) {c : Class} (refs : α → List Address) (body : Body Ω (Instance Ω c) α) :
    (do
      let h ← Act.ofExcept (Access.requireThis (← get) c)
      let (ended, fresh) ← Access.writeObject sv h c (rewriting sv refs body)
      (Act.ofOutcome ended).thenDrop fresh : Act Ω α) =
      Access.grasp sv c true >>= fun hold => (do
        let ended ← Body.run sv.host hold.part body
        putBack hold ended.receiver (yielded refs ended)
        (Act.ofOutcome ended.outcome).thenDrop ended.fresh) := by
  unfold Access.grasp Access.writeObject
  simp only [bind_assoc, Access.writing_eq, rewriting_putBack, pure_bind]

theorem runWriting_rewriting (sv : Services Ω) {c : Class} (refs : α → List Address) (held : List Address)
    (body : Body Ω (Instance Ω c) α) :
    runWriting sv refs held body = (do
      let h ← Act.ofExcept (Access.requireThis (← get) c)
      let (ended, fresh) ← Access.writeObject sv h c (rewriting sv refs body)
      (Act.ofOutcome ended).thenDrop fresh : Act Ω α).thenDrop held :=
  rfl

theorem runWriting_eq (sv : Services Ω) {c : Class} (refs : α → List Address) (held : List Address)
    (body : Body Ω (Instance Ω c) α) :
    runWriting sv refs held body = (do
      let hold ← (Access.grasp sv c true).orDrop held
      let ended ← Body.run sv.host hold.part body
      (do
        putBack hold ended.receiver (yielded refs ended)
        (Act.ofOutcome ended.outcome).thenDrop ended.fresh : Act Ω α).thenDrop held) := by
  rw [runWriting_rewriting, rewriting_grasp, thenDrop, ensuring_bind]
  rfl

/-- **A run of an entry begins, runs its native code once, and ends.** The beginning and the end do not depend on the
native code. -/
theorem run_withClosure (sv : Services Ω) (e : Entry Ω) (f : e.Closure) :
    (e.withClosure f).run sv = (do
      let s ← e.begin sv
      let ended ← e.runClosure sv f s
      e.finish sv s ended) := by
  cases e with
  | function params ret body =>
    unfold begin
    simp only [bind_assoc, pure_bind]
    rfl
  | method c params ret body =>
    unfold begin
    simp only [bind_assoc, pure_bind]
    change (do
      let xs ← arguments sv params fun b => Access.checkThis sv b c false
      Act.setResult (← Convert.toWire sv ret (← runReading sv ret.refs (NativeType.valuesRefs params xs) fun this => f this xs))) = _
    simp only [runReading_eq, bind_assoc]
    rfl
  | methodMut c params ret body =>
    unfold begin
    simp only [bind_assoc, pure_bind]
    change (do
      let xs ← arguments sv params fun b => Access.checkThis sv b c true
      Act.setResult (← Convert.toWire sv ret (← runWriting sv ret.refs (NativeType.valuesRefs params xs) (f () xs)))) = _
    simp only [runWriting_eq, bind_assoc]
    rfl
  | constructor c params body =>
    unfold begin
    simp only [bind_assoc, pure_bind]
    rfl

theorem run_phases (sv : Services Ω) (e : Entry Ω) : e.run sv = (do
    let s ← e.begin sv
    let ended ← e.runClosure sv e.closure s
    e.finish sv s ended) := by
  rw [← run_withClosure, withClosure_closure]

end Entry
end NativeBridge
