import NativeBridge.Engine.Basic
import NativeBridge.Proofs.Engine.Constructors
/-!
# The calls that operations come to

An operation of the engine, by tag or by name, comes to at most one call of a group (`Environment.tagCall`,
`Environment.memberCall`, `Environment.constructorCall`). Such a call is dispatched in a context of its own
(`Environment.entering`), and what it leaves in the object table is what its native code leaves there.
-/
namespace NativeBridge
variable {Ω : Type} [ObjectModel Ω]

open Act ObjectTable

namespace Environment

/-- A call of a group: with a receiver and arguments. -/
abbrev GroupCall := OverloadGroup × Option Handle × List Wire

/-- The call that the construction of an object makes. -/
def constructorCall (env : Environment Ω) (c : Class) : List Wire → Option GroupCall
  | [.pointer _, _] => none
  | args => ((env.registry.exposedClass? c).bind fun _ => env.registry.class? c).map (·.constructors, none, args)

/-- The call that a tag stands for. -/
def tagCall (env : Environment Ω) (tag : CallTag) (receiver : Option Handle) (args : List Wire) : Option GroupCall :=
  match env.registry.target tag with
  | .error _ => none
  | .ok (.constructor c) => env.constructorCall c args
  | .ok (.release _) => none
  | .ok target => (env.registry.group? target).map (·, receiver, args)

/-- The call of a member by name. -/
def memberCall (env : Environment Ω) (b : Boundary Ω) (h : Handle) (name : String) (kinds : List MemberKind)
    (args : List Wire) : Option GroupCall :=
  match env.memberTag b h name kinds with
  | .error _ => none
  | .ok (tag, kind) => env.tagCall tag (if kind.isStatic then none else some h) args

/-- The state in which the call of a group begins. -/
def entering (b : Boundary Ω) (receiver : Option Handle) (args : List Wire) : Boundary Ω :=
  { b with sinks := b.sinks ++ [none], call := .new args receiver b.sinks.length }

/-- Leaving a call that holds nothing any more gives up nothing. -/
theorem leaving_ok {α : Type} {act : Act Ω α} {call : CallContext} {b b' : Boundary Ω} {x : α} (h : act b = .ok x b')
    (hrefs : b'.call.refs = []) :
    act.ensuring (fun inner => { inner.drop inner.call.refs with call }) b = .ok x { b' with call } := by
  rw [Act.ensuring, h]
  dsimp only
  rw [hrefs, Boundary.drop, Holdings.drop, Heap.release_nil]

theorem leaving_error {α : Type} {act : Act Ω α} {call : CallContext} {b b' : Boundary Ω} {i : Interrupt}
    (h : act b = .error i b') : act.ensuring (fun inner => { inner.drop inner.call.refs with call }) b =
      .error i { b'.drop b'.call.refs with call } := by
  rw [Act.ensuring, h]

variable {env : Environment Ω}

theorem final_finish (services : Nat → Services Ω) (code : Code Ω) (b : Boundary Ω) :
    ((env.finish services code).final b).table = ((env.runCode services code).final b).table := by
  rw [← final_attempt (env.runCode services code)]
  exact final_bind_table keeps_report b

theorem final_runCode (services : Nat → Services Ω) (entry : Entry Ω) (b : Boundary Ω) :
    ((env.runCode services (.typed entry)).final b).table =
      ((entry.run (services (Wire.depthAll b.call.args))).final b).table := by
  have hget : (do entry.run (services (Wire.depthAll (← get).call.args)) : Act Ω Unit).final b =
      (entry.run (services (Wire.depthAll b.call.args))).final b :=
    final_bind_ok (show (get : Act Ω (Boundary Ω)) b = .ok b b from rfl)
  unfold runCode
  dsimp only
  split
  · rw [final_bind_table, final_outcome, hget]
    intro r
    split
    · exact .fail _
    · exact .ofOutcome _
  · rw [hget]

theorem final_callGroup (group : OverloadGroup) (receiver : Option Handle) (args : List Wire) (b : Boundary Ω) :
    ((env.callGroup group receiver args).final b).table =
      ((env.dispatch env.services group).final (entering b receiver args)).table := by
  change ((Act.inCall _ (env.dispatch env.services group)).final _).table = _
  rw [final_inCall]
  rfl

omit [ObjectModel Ω] in
theorem of_discarded {α : Type} {act : Act Ω α} {b b' : Boundary Ω} {i : Interrupt}
    (h : (do let _ ← act : Act Ω Unit) b = .error i b') : act b = .error i b' := by
  rcases Act.bind_eq_error h with h | ⟨_, _, -, h⟩
  · exact h
  · cases h

theorem final_aside {α : Type} (args : List Wire) (act : Act Ω α) (b : Boundary Ω) :
    ((aside args act).final b).table = (act.final (entering b none args)).table := by
  change ((act.inCall _).final _).table = _
  rw [final_inCall]
  rfl

end Environment
end NativeBridge
