import Mathlib.Order.Defs.Unbundled
import NativeBridge.Call.Access
/-!
# What an action does to the object table

`act.Relates R` says that, however `act` ends, the states before and after it are in the relation `R`, and `act.Keeps R`
says this of the object tables in them. For a reflexive and transitive `R` this holds of every action that is put
together from actions of which it holds. Of the
parts of a call only those that move an object out or wrap one touch the table at all.
-/
namespace NativeBridge
namespace Act
variable {Ω α β : Type}

/-- The state that an action leaves behind, however it ends. -/
def final (act : Act Ω α) (b : Boundary Ω) : Boundary Ω :=
  match act b with
  | .ok _ b' => b'
  | .error _ b' => b'

/-- What is observed of an action that came to a result. -/
def observed (f : α → Boundary Ω → Option β) : EStateM.Result Interrupt (Boundary Ω) α → Option β
  | .ok a b => f a b
  | .error _ _ => none

theorem observed_eq_some {f : α → Boundary Ω → Option β} {r : EStateM.Result Interrupt (Boundary Ω) α} {x : β}
    (h : observed f r = some x) : ∃ a b, r = .ok a b ∧ f a b = some x := by
  cases r with
  | ok a b => exact ⟨a, b, rfl, h⟩
  | error i b => cases h

/-- The error that an action ended with, if it did. -/
def errorOf : EStateM.Result Interrupt (Boundary Ω) α → Option Interrupt
  | .ok _ _ => none
  | .error i _ => some i

theorem errorOf_eq_some {r : EStateM.Result Interrupt (Boundary Ω) α} {i : Interrupt} (h : errorOf r = some i) :
    ∃ b, r = .error i b := by
  cases r with
  | ok a b => cases h
  | error i' b =>
    cases h
    exact ⟨b, rfl⟩

/-- The tables before and after the action are related by `R`. -/
def Keeps (R : ObjectTable → ObjectTable → Prop) (act : Act Ω α) : Prop :=
  ∀ b, R b.table (act.final b).table

theorem final_ok {act : Act Ω α} {b b' : Boundary Ω} {a : α} (h : act b = .ok a b') : act.final b = b' := by
  rw [final, h]

theorem final_error {act : Act Ω α} {b b' : Boundary Ω} {i : Interrupt} (h : act b = .error i b') :
    act.final b = b' := by
  rw [final, h]

theorem bind_ok {act : Act Ω α} {f : α → Act Ω β} {b b' : Boundary Ω} {a : α} (h : act b = .ok a b') :
    (act >>= f) b = f a b' := by
  change EStateM.bind act f b = f a b'
  rw [EStateM.bind, h]

theorem bind_eq_ok {act : Act Ω α} {f : α → Act Ω β} {b b'' : Boundary Ω} {y : β} (h : (act >>= f) b = .ok y b'') :
    ∃ x b', act b = .ok x b' ∧ f x b' = .ok y b'' := by
  change EStateM.bind act f b = .ok y b'' at h
  unfold EStateM.bind at h
  cases hb : act b with
  | ok x b' =>
    rw [hb] at h
    exact ⟨x, b', rfl, h⟩
  | error i b' =>
    rw [hb] at h
    cases h

theorem map_eq_ok {act : Act Ω α} {f : α → β} {b b' : Boundary Ω} {y : β} (h : (f <$> act) b = .ok y b') :
    ∃ x, f x = y := by
  change EStateM.map f act b = .ok y b' at h
  unfold EStateM.map at h
  cases hb : act b with
  | ok x b₁ =>
    rw [hb] at h
    cases h
    exact ⟨x, rfl⟩
  | error i b₁ =>
    rw [hb] at h
    cases h

theorem bind_error {act : Act Ω α} {f : α → Act Ω β} {b b' : Boundary Ω} {i : Interrupt}
    (h : act b = .error i b') : (act >>= f) b = .error i b' := by
  change EStateM.bind act f b = .error i b'
  rw [EStateM.bind, h]

theorem bind_eq_error {act : Act Ω α} {f : α → Act Ω β} {b b'' : Boundary Ω} {i : Interrupt}
    (h : (act >>= f) b = .error i b'') :
    act b = .error i b'' ∨ ∃ x b', act b = .ok x b' ∧ f x b' = .error i b'' := by
  cases hb : act b with
  | ok x b' =>
    rw [bind_ok hb] at h
    exact .inr ⟨x, b', rfl, h⟩
  | error j b' =>
    rw [bind_error hb] at h
    cases h
    exact .inl rfl

theorem ensuring_eq_error {act : Act Ω α} {after : Boundary Ω → Boundary Ω} {b b' : Boundary Ω} {i : Interrupt}
    (h : act.ensuring after b = .error i b') : ∃ b₁, act b = .error i b₁ ∧ b' = after b₁ := by
  unfold ensuring at h
  cases hb : act b with
  | ok a b₁ =>
    rw [hb] at h
    cases h
  | error j b₁ =>
    rw [hb] at h
    cases h
    exact ⟨b₁, rfl, rfl⟩

theorem onFailure_eq_error {act : Act Ω α} {after : Boundary Ω → Boundary Ω} {b b' : Boundary Ω} {i : Interrupt}
    (h : act.onFailure after b = .error i b') : ∃ b₁, act b = .error i b₁ ∧ b' = after b₁ := by
  unfold onFailure at h
  cases hb : act b with
  | ok a b₁ =>
    rw [hb] at h
    cases h
  | error j b₁ =>
    rw [hb] at h
    cases h
    exact ⟨b₁, rfl, rfl⟩

theorem ofExcept_eq_ok {x : Except CallError α} {b b' : Boundary Ω} {y : α} (h : ofExcept x b = .ok y b') :
    x = .ok y ∧ b' = b := by
  cases x with
  | ok z =>
    cases h
    exact ⟨rfl, rfl⟩
  | error e => cases h

theorem refusing_eq_ok {p : Prop} [Decidable p] {e : CallError} {f : Unit → Act Ω α} {b b' : Boundary Ω} {y : α}
    (h : (if p then Act.fail e >>= f else f ()) b = .ok y b') : ¬p ∧ f () b = .ok y b' := by
  by_cases hp : p
  · rw [if_pos hp] at h
    cases h
  · rw [if_neg hp] at h
    exact ⟨hp, h⟩

theorem ensuring_eq_ok {act : Act Ω α} {after : Boundary Ω → Boundary Ω} {b b' : Boundary Ω} {x : α}
    (h : act.ensuring after b = .ok x b') : ∃ b₁, act b = .ok x b₁ ∧ b' = after b₁ := by
  unfold ensuring at h
  cases hb : act b with
  | ok y b₁ =>
    rw [hb] at h
    cases h
    exact ⟨b₁, rfl, rfl⟩
  | error i b₁ =>
    rw [hb] at h
    cases h

theorem attempt_error {act : Act Ω α} {b b' : Boundary Ω} {e : CallError} (h : act b = .error (.error e) b') :
    act.attempt b = .ok (.error e) b' := by
  rw [attempt, h]

theorem attempt_cut {act : Act Ω α} {b b' : Boundary Ω} {i : Interrupt} (h : act b = .error i b')
    (hi : ∀ e, i ≠ .error e) : act.attempt b = .error i b' := by
  rw [attempt, h]
  cases i with
  | error e => exact absurd rfl (hi e)
  | _ => rfl

theorem attempt_eq_ok {act : Act Ω α} {b b' : Boundary Ω} {x : α} (h : act.attempt b = .ok (.ok x) b') :
    act b = .ok x b' := by
  unfold attempt at h
  cases hb : act b with
  | ok y b₁ =>
    rw [hb] at h
    cases h
    rfl
  | error i b₁ =>
    rw [hb] at h
    cases i <;> cases h

theorem atArgument_eq_ok {act : Act Ω α} {i : Nat} {b b' : Boundary Ω} {x : α} (h : act.atArgument i b = .ok x b') :
    act b = .ok x b' := by
  unfold atArgument at h
  cases hb : act b with
  | ok y b₁ =>
    rw [hb] at h
    exact h
  | error e b₁ =>
    rw [hb] at h
    cases e <;> cases h

theorem get_bind (f : Boundary Ω → Act Ω α) (b : Boundary Ω) : ((get : Act Ω (Boundary Ω)) >>= f) b = f b b := rfl

theorem final_bind_ok {act : Act Ω α} {f : α → Act Ω β} {b b' : Boundary Ω} {a : α} (h : act b = .ok a b') :
    (act >>= f).final b = (f a).final b' := by
  rw [final, bind_ok h, final]

theorem final_bind_error {act : Act Ω α} {f : α → Act Ω β} {b b' : Boundary Ω} {i : Interrupt}
    (h : act b = .error i b') : (act >>= f).final b = b' :=
  final_error (bind_error h)

theorem final_return (act : Act Ω α) (g : α → β) (b : Boundary Ω) :
    (do return g (← act) : Act Ω β).final b = act.final b := by
  cases h : act b with
  | ok a b' =>
    rw [final_bind_ok h, final_ok h]
    rfl
  | error i b' => rw [final_bind_error h, final_error h]

theorem final_ensuring (act : Act Ω α) (after : Boundary Ω → Boundary Ω) (b : Boundary Ω) :
    (act.ensuring after).final b = after (act.final b) := by
  unfold final ensuring
  cases act b <;> rfl

theorem final_attempt (act : Act Ω α) (b : Boundary Ω) : act.attempt.final b = act.final b := by
  unfold final attempt
  cases act b with
  | ok a b' => rfl
  | error i b' => cases i <;> rfl

theorem final_outcome (act : Act Ω α) (b : Boundary Ω) : act.outcome.final b = act.final b := by
  unfold final outcome
  cases act b <;> rfl

theorem final_atArgument (act : Act Ω α) (n : Nat) (b : Boundary Ω) :
    (act.atArgument n).final b = act.final b := by
  unfold final atArgument
  cases act b with
  | ok a b' => rfl
  | error i b' => cases i <;> rfl

theorem ofExcept_bind (x : Except CallError α) (f : α → Except CallError β) :
    (ofExcept (x >>= f) : Act Ω β) = ofExcept x >>= fun a => ofExcept (f a) := by
  cases x <;> rfl

theorem final_ofExcept (x : Except CallError α) (b : Boundary Ω) : (ofExcept x : Act Ω α).final b = b := by
  cases x <;> rfl

theorem orDrop_ok [ObjectModel Ω] {act : Act Ω α} {as : List Address} {b b' : Boundary Ω} {a : α}
    (h : act b = .ok a b') : act.orDrop as b = .ok a b' := by
  rw [orDrop, onFailure, h]

theorem orDrop_error [ObjectModel Ω] {act : Act Ω α} {as : List Address} {b b' : Boundary Ω} {i : Interrupt}
    (h : act b = .error i b') : act.orDrop as b = .error i (b'.drop as) := by
  rw [orDrop, onFailure, h]

theorem orDrop_eq_ok [ObjectModel Ω] {act : Act Ω α} {as : List Address} {b b' : Boundary Ω} {a : α}
    (h : act.orDrop as b = .ok a b') : act b = .ok a b' := by
  unfold orDrop onFailure at h
  cases hb : act b with
  | ok x b₁ =>
    rw [hb] at h
    exact h
  | error i b₁ =>
    rw [hb] at h
    cases h

theorem final_orDrop_table [ObjectModel Ω] (act : Act Ω α) (as : List Address) (b : Boundary Ω) :
    ((act.orDrop as).final b).table = (act.final b).table := by
  unfold final orDrop onFailure
  cases act b <;> rfl

theorem final_inCall [ObjectModel Ω] (context : CallContext) (act : Act Ω α) (b : Boundary Ω) :
    ((act.inCall context).final b).table = (act.final { b with call := context }).table := by
  change (Act.final (act.ensuring _) { b with call := context }).table = _
  rw [final_ensuring]
  rfl

/-! ## Before and after an action -/

section
variable {R : Boundary Ω → Boundary Ω → Prop} {act : Act Ω α} {after : Boundary Ω → Boundary Ω}

/-- However the action ends, the state before and the state after it are related by `R`. -/
def Relates (R : Boundary Ω → Boundary Ω → Prop) (act : Act Ω α) : Prop :=
  ∀ b, R b (act.final b)

theorem Relates.bind {f : α → Act Ω β} (hact : act.Relates R) (htrans : ∀ {b₁ b₂ b₃}, R b₁ b₂ → R b₂ b₃ → R b₁ b₃)
    (hf : ∀ a, (f a).Relates R) : (act >>= f).Relates R := by
  intro b
  have h := hact b
  cases hb : act b with
  | ok a b' =>
    rw [final_ok hb] at h
    rw [final_bind_ok hb]
    exact htrans h (hf a b')
  | error i b' =>
    rw [final_error hb] at h
    rw [final_bind_error hb]
    exact h

theorem Relates.ensuring (hact : act.Relates R) (hafter : ∀ b b', R b b' → R b (after b')) :
    (act.ensuring after).Relates R := fun b => by
  rw [final_ensuring]
  exact hafter b _ (hact b)

theorem Relates.onFailure (hact : act.Relates R) (hafter : ∀ b b', R b b' → R b (after b')) :
    (act.onFailure after).Relates R := by
  intro b
  have h := hact b
  unfold final Act.onFailure at *
  cases hb : act b with
  | ok a b' =>
    rw [hb] at h
    exact h
  | error i b' =>
    rw [hb] at h
    exact hafter b b' h

theorem Relates.attempt (hact : act.Relates R) : act.attempt.Relates R := fun b => by
  rw [final_attempt]
  exact hact b

theorem Relates.atArgument (hact : act.Relates R) (n : Nat) : (act.atArgument n).Relates R := fun b => by
  rw [final_atArgument]
  exact hact b

end

/-! ## Parts of an action -/

section
variable {R : ObjectTable → ObjectTable → Prop}

theorem Keeps.relates {act : Act Ω α} (hact : act.Keeps R) : act.Relates fun b b' => R b.table b'.table :=
  hact

theorem Keeps.map {act : Act Ω α} (f : α → β) (hact : act.Keeps R) : (f <$> act).Keeps R := by
  intro b
  have h := hact b
  change R _ (final (EStateM.map f act) b).table
  unfold final EStateM.map at *
  cases hb : act b <;> rw [hb] at h <;> exact h

theorem Keeps.ensuring {act : Act Ω α} {after : Boundary Ω → Boundary Ω} (hact : act.Keeps R)
    (hafter : ∀ b, (after b).table = b.table) : (act.ensuring after).Keeps R :=
  hact.relates.ensuring fun _ b' h => by rwa [hafter b']

theorem Keeps.onFailure {act : Act Ω α} {after : Boundary Ω → Boundary Ω} (hact : act.Keeps R)
    (hafter : ∀ b, (after b).table = b.table) : (act.onFailure after).Keeps R :=
  hact.relates.onFailure fun _ b' h => by rwa [hafter b']

theorem Keeps.attempt {act : Act Ω α} (hact : act.Keeps R) : act.attempt.Keeps R :=
  hact.relates.attempt

theorem Keeps.outcome {act : Act Ω α} (hact : act.Keeps R) : act.outcome.Keeps R := fun b => by
  rw [final_outcome]
  exact hact b

theorem Keeps.atArgument {act : Act Ω α} (hact : act.Keeps R) (n : Nat) : (act.atArgument n).Keeps R :=
  hact.relates.atArgument n

end

variable {R : ObjectTable → ObjectTable → Prop} [IsPreorder ObjectTable R]

theorem Keeps.of_eq {act : Act Ω α} (h : ∀ b, (act.final b).table = b.table) : act.Keeps R := fun b => by
  rw [h b]
  exact refl_of R _

theorem Keeps.pure (a : α) : (pure a : Act Ω α).Keeps R :=
  .of_eq fun _ => rfl

theorem Keeps.throw (i : Interrupt) : (throw i : Act Ω α).Keeps R :=
  .of_eq fun _ => rfl

theorem Keeps.fail (e : CallError) : (fail e : Act Ω α).Keeps R :=
  .of_eq fun _ => rfl

theorem Keeps.ofExcept (x : Except CallError α) : (ofExcept x : Act Ω α).Keeps R :=
  .of_eq fun b => by rw [final_ofExcept]

theorem Keeps.ofOutcome : ∀ x : Except Interrupt α, (ofOutcome x : Act Ω α).Keeps R
  | .ok a => .pure a
  | .error i => .throw i

theorem Keeps.get : (get : Act Ω (Boundary Ω)).Keeps R :=
  .of_eq fun _ => rfl

theorem Keeps.modify {f : Boundary Ω → Boundary Ω} (hf : ∀ b, (f b).table = b.table) :
    (modify f : Act Ω Unit).Keeps R :=
  .of_eq hf

theorem Keeps.bind {act : Act Ω α} {f : α → Act Ω β} (hact : act.Keeps R) (hf : ∀ a, (f a).Keeps R) :
    (act >>= f).Keeps R :=
  hact.relates.bind (trans_of R) hf

/-- A step that only goes on unless something is wrong. -/
theorem Keeps.refusing {p : Prop} [Decidable p] {e : CallError} {f : Unit → Act Ω α} (hf : (f ()).Keeps R) :
    (if p then Act.fail e >>= f else f ()).Keeps R := by
  split
  · exact .bind (.fail e) fun _ => hf
  · exact hf

/-- What follows an action without touching the table may be left out of account. -/
theorem final_bind_table {act : Act Ω α} {f : α → Act Ω β} (hf : ∀ a, (f a).Keeps Eq) (b : Boundary Ω) :
    ((act >>= f).final b).table = (act.final b).table := by
  cases h : act b with
  | ok a b' =>
    rw [final_bind_ok h, final_ok h]
    exact (hf a b').symm
  | error i b' => rw [final_bind_error h, final_error h]

/-! ## Failing without a trace -/

/-- Where the action fails, the table is as it was. -/
def FailsClean (act : Act Ω α) : Prop :=
  ∀ b i b', act b = .error i b' → b'.table = b.table

theorem Keeps.failsClean {act : Act Ω α} (hact : act.Keeps Eq) : act.FailsClean := by
  intro b i b' h
  have htable := hact b
  rw [final_error h] at htable
  exact htable.symm

theorem FailsClean.bind {act : Act Ω α} {f : α → Act Ω β} (hact : act.Keeps Eq) (hf : ∀ a, (f a).FailsClean) :
    (act >>= f).FailsClean := by
  intro b i b'' h
  rcases bind_eq_error h with h | ⟨a, b', ha, h⟩
  · exact hact.failsClean b i b'' h
  · have htable := hact b
    rw [final_ok ha] at htable
    rw [htable]
    exact hf a b' i b'' h

theorem FailsClean.thenDrop [ObjectModel Ω] {act : Act Ω α} (hact : act.FailsClean) (as : List Address) :
    (act.thenDrop as).FailsClean := by
  intro b i b' h
  obtain ⟨b₁, hb, rfl⟩ := ensuring_eq_error h
  exact hact b i b₁ hb

/-! ## Actions that leave the table alone -/

theorem Keeps.takeArg (n : Nat) : (takeArg n : Act Ω Wire).Keeps R :=
  .of_eq fun b => by
    unfold final Act.takeArg
    cases b.call.args[n]? <;> rfl

theorem Keeps.record (e : CallError) : (record e : Act Ω Unit).Keeps R :=
  .of_eq fun _ => rfl

theorem Keeps.takeError : (takeError : Act Ω (Option CallError)).Keeps R :=
  .of_eq fun _ => rfl

theorem Keeps.takeResult : (takeResult : Act Ω Wire).Keeps R :=
  .of_eq fun _ => rfl

variable [ObjectModel Ω]

omit [ObjectModel Ω] in
theorem Keeps.retain (as : List Address) : (retain as : Act Ω Unit).Keeps R :=
  .of_eq fun _ => rfl

theorem Keeps.drop (as : List Address) : (drop as : Act Ω Unit).Keeps R :=
  .of_eq fun _ => rfl

theorem Keeps.setResult (w : Wire) : (setResult w : Act Ω Unit).Keeps R :=
  .of_eq fun _ => rfl

theorem Keeps.newObject {c : Class} (x : Instance Ω c) : (newObject x : Act Ω Pointer).Keeps R :=
  .of_eq fun _ => rfl

omit [IsPreorder ObjectTable R] in
theorem Keeps.orDrop {act : Act Ω α} (hact : act.Keeps R) (as : List Address) : (act.orDrop as).Keeps R :=
  hact.onFailure fun _ => rfl

omit [IsPreorder ObjectTable R] in
theorem Keeps.thenDrop {act : Act Ω α} (hact : act.Keeps R) (as : List Address) : (act.thenDrop as).Keeps R :=
  hact.ensuring fun _ => rfl

omit [IsPreorder ObjectTable R] in
theorem Keeps.inCall {act : Act Ω α} (hact : act.Keeps R) (context : CallContext) :
    (act.inCall context).Keeps R := by
  intro b
  rw [final_inCall]
  exact hact { b with call := context }

end Act

/-! ## Bodies and access to objects -/

section
variable {Ω α : Type} [ObjectModel Ω] {R : ObjectTable → ObjectTable → Prop} [IsPreorder ObjectTable R]

open Act

omit [ObjectModel Ω] in
/-- A body never touches the object table. -/
theorem Body.keeps_run {ρ : Type} (host : HostBehaviour) (receiver : ρ) (body : Body Ω ρ α) :
    (Body.run host receiver body).Keeps R :=
  .of_eq fun _ => rfl

theorem Access.keeps_reading (a : Address) (path : List (Upcast Ω)) (c : Class) {use : Instance Ω c → Act Ω α}
    (huse : ∀ x, (use x).Keeps R) : (Access.reading a path c use).Keeps R := by
  unfold Access.reading
  refine .bind .get fun b => ?_
  dsimp only
  split
  · exact .fail _
  refine .bind (.modify fun _ => rfl) fun _ => .ensuring ?_ fun _ => rfl
  split
  · exact huse _
  · exact .fail _

theorem Access.keeps_writing (a : Address) (path : List (Upcast Ω)) (c : Class)
    {use : Instance Ω c → Act Ω (Except Interrupt α × Instance Ω c)} (huse : ∀ x, (use x).Keeps R) :
    (Access.writing a path c use).Keeps R := by
  unfold Access.writing
  refine .bind .get fun b => ?_
  dsimp only
  split
  · exact .fail _
  refine .bind (.modify fun _ => rfl) fun _ => .ensuring ?_ fun _ => rfl
  split
  · exact .fail _
  split
  · exact .fail _
  exact .bind (huse _) fun _ => .bind (.modify fun _ => rfl) fun _ => .ofOutcome _

theorem Access.keeps_readObject (sv : Services Ω) (h : Handle) (c : Class) {use : Instance Ω c → Act Ω α}
    (huse : ∀ x, (use x).Keeps R) : (Access.readObject sv h c use).Keeps R :=
  .bind .get fun _ => .bind (.ofExcept _) fun _ => keeps_reading _ _ _ huse

theorem Access.keeps_writeObject (sv : Services Ω) (h : Handle) (c : Class)
    {use : Instance Ω c → Act Ω (Except Interrupt α × Instance Ω c)} (huse : ∀ x, (use x).Keeps R) :
    (Access.writeObject sv h c use).Keeps R :=
  .bind .get fun _ => .bind (.ofExcept _) fun _ => keeps_writing _ _ _ huse

theorem Access.keeps_readPointer (sv : Services Ω) (p : Pointer) (c : Class) {use : Instance Ω c → Act Ω α}
    (huse : ∀ x, (use x).Keeps R) : (Access.readPointer sv p c use).Keeps R :=
  .bind (.ofExcept _) fun _ => .bind .get fun _ => .bind (.ofExcept _) fun _ => keeps_reading _ _ _ huse

omit [ObjectModel Ω] in
theorem Access.keeps_sharedPointer (p : Pointer) (c : Class) :
    (Access.sharedPointer p c : Act Ω Address).Keeps R := by
  have rest : (do
      let a ← Act.ofExcept (livePointer (← get) p c)
      Act.retain [a]
      return a : Act Ω Address).Keeps R :=
    .bind .get fun _ => .bind (.ofExcept _) fun _ => .bind (.retain _) fun _ => .pure _
  unfold Access.sharedPointer
  exact Keeps.refusing rest

omit [ObjectModel Ω] in
theorem Access.keeps_sharedObject (h : Handle) (c : Class) (allowConst : Bool) :
    (Access.sharedObject h c allowConst : Act Ω Address).Keeps R := by
  refine .bind .get fun b => .bind (.ofExcept _) fun w => ?_
  have rest : (do Act.retain [w.address]; return w.address : Act Ω Address).Keeps R :=
    .bind (.retain _) fun _ => .pure _
  exact Keeps.refusing (Keeps.refusing (Keeps.refusing rest))

end
end NativeBridge
