import NativeBridge.Proofs.Call.Congruence
import NativeBridge.Proofs.Call.PreCheck
import NativeBridge.Proofs.Call.Start
import NativeBridge.Proofs.Engine.Entries
/-!
# Conversions that agree

Two conversions that differ only in how they run constructors end in the same way or both with an error, if the
constructors do (`Act.Agrees`); under record bindings none of them recovers from an error.
-/
namespace NativeBridge
variable {Ω : Type} [ObjectModel Ω] {α β : Type}

open Act

/-! ## Agreement -/

namespace Act

/-- The call in progress has a sink, and `D` holds of each of its arguments with the parameter at its place. -/
structure Proper (D : NativeType → Wire → Prop) (params : List NativeType) (b : Boundary Ω) : Prop where
  sink : b.call.sink < b.sinks.length
  args : ∀ (i : Nat) (t : NativeType) (w : Wire), params[i]? = some t → b.call.args[i]? = some w → D t w

/-- A later state of the same call. -/
structure Follows (D : NativeType → Wire → Prop) (params : List NativeType) (b b' : Boundary Ω) : Prop where
  proper : Proper D params b'
  same : b'.call.sink = b.call.sink

/-- The two actions end in the same way in the same state, or both with an error. -/
def AgreeAt (D : NativeType → Wire → Prop) (params : List NativeType) (x y : Act Ω α) (b : Boundary Ω) : Prop :=
  (∃ a b', x b = .ok a b' ∧ y b = .ok a b' ∧ Follows D params b b') ∨
    ∃ e b₁ e' b₂, x b = .error (.error e) b₁ ∧ y b = .error (.error e') b₂ ∧ Follows D params b b₁ ∧ Follows D params b b₂

/-- The two actions agree in every call with such arguments. -/
def Agrees (D : NativeType → Wire → Prop) (params : List NativeType) (x y : Act Ω α) : Prop :=
  ∀ b, Proper D params b → AgreeAt D params x y b

omit [ObjectModel Ω]

variable {D : NativeType → Wire → Prop} {params : List NativeType}

theorem Proper.level {b b' : Boundary Ω} (hb : Proper D params b) (h : Level b b') : Follows D params b b' := by
  refine ⟨⟨?_, ?_⟩, by rw [h.1]⟩
  · rw [h.1, h.2]
    exact hb.sink
  · rw [h.1]
    exact hb.args

theorem Follows.trans {b b' b'' : Boundary Ω} (h : Follows D params b b') (h' : Follows D params b' b'') :
    Follows D params b b'' :=
  ⟨h'.proper, h'.same.trans h.same⟩

theorem Follows.level {b b' b'' : Boundary Ω} (h : Follows D params b b') (h' : Level b' b'') : Follows D params b b'' :=
  h.trans (h.proper.level h')

theorem Local.agrees {act : Act Ω α} (h : act.Local) (D : NativeType → Wire → Prop) (params : List NativeType) :
    Agrees D params act act := by
  intro b hb
  have hfollows := hb.level (h.level b)
  cases hact : act b with
  | ok a b' =>
    rw [final_ok hact] at hfollows
    exact .inl ⟨a, b', hact, hact, hfollows⟩
  | error i b' =>
    obtain ⟨e, rfl⟩ := h.fails b i b' hact
    rw [final_error hact] at hfollows
    exact .inr ⟨e, b', e, b', hact, hact, hfollows, hfollows⟩

theorem AgreeAt.bind {x y : Act Ω α} {f g : α → Act Ω β} {b : Boundary Ω} (hx : AgreeAt D params x y b)
    (hf : ∀ a, Agrees D params (f a) (g a)) : AgreeAt D params (x >>= f) (y >>= g) b := by
  rcases hx with ⟨a, b', hx, hy, hfollows⟩ | ⟨e, b₁, e', b₂, hx, hy, h₁, h₂⟩
  · rcases hf a b' hfollows.proper with ⟨c, b'', hx', hy', h⟩ | ⟨e, b₁, e', b₂, hx', hy', h₁, h₂⟩
    · exact .inl ⟨c, b'', (Act.bind_ok hx).trans hx', (Act.bind_ok hy).trans hy', hfollows.trans h⟩
    · exact .inr ⟨e, b₁, e', b₂, (Act.bind_ok hx).trans hx', (Act.bind_ok hy).trans hy', hfollows.trans h₁,
        hfollows.trans h₂⟩
  · exact .inr ⟨e, b₁, e', b₂, bind_error hx, bind_error hy, h₁, h₂⟩

theorem AgreeAt.ensuring {x y : Act Ω α} {after : Boundary Ω → Boundary Ω} {b : Boundary Ω}
    (hx : AgreeAt D params x y b) (hafter : ∀ b, Level b (after b)) :
    AgreeAt D params (x.ensuring after) (y.ensuring after) b := by
  unfold AgreeAt Act.ensuring
  rcases hx with ⟨a, b', hx, hy, h⟩ | ⟨e, b₁, e', b₂, hx, hy, h₁, h₂⟩
  · rw [hx, hy]
    exact .inl ⟨a, after b', rfl, rfl, h.level (hafter b')⟩
  · rw [hx, hy]
    exact .inr ⟨e, after b₁, e', after b₂, rfl, rfl, h₁.level (hafter b₁), h₂.level (hafter b₂)⟩

theorem AgreeAt.onFailure {x y : Act Ω α} {after : Boundary Ω → Boundary Ω} {b : Boundary Ω}
    (hx : AgreeAt D params x y b) (hafter : ∀ b, Level b (after b)) :
    AgreeAt D params (x.onFailure after) (y.onFailure after) b := by
  unfold AgreeAt Act.onFailure
  rcases hx with ⟨a, b', hx, hy, h⟩ | ⟨e, b₁, e', b₂, hx, hy, h₁, h₂⟩
  · rw [hx, hy]
    exact .inl ⟨a, b', rfl, rfl, h⟩
  · rw [hx, hy]
    exact .inr ⟨e, after b₁, e', after b₂, rfl, rfl, h₁.level (hafter b₁), h₂.level (hafter b₂)⟩

theorem AgreeAt.atArgument {x y : Act Ω α} {b : Boundary Ω} (hx : AgreeAt D params x y b) (i : Nat) :
    AgreeAt D params (x.atArgument i) (y.atArgument i) b := by
  unfold AgreeAt Act.atArgument
  rcases hx with ⟨a, b', hx, hy, h⟩ | ⟨e, b₁, e', b₂, hx, hy, h₁, h₂⟩
  · rw [hx, hy]
    exact .inl ⟨a, b', rfl, rfl, h⟩
  · rw [hx, hy]
    exact .inr ⟨e.atArgument i, b₁, e'.atArgument i, b₂, rfl, rfl, h₁, h₂⟩

theorem Agrees.takeArg (hundefined : ∀ t, D t .undefined) {i : Nat} {t : NativeType} (ht : params[i]? = some t)
    {f g : Wire → Act Ω α} (hf : ∀ w, D t w → Agrees D params (f w) (g w)) :
    Agrees D params (Act.takeArg i >>= f) (Act.takeArg i >>= g) := by
  intro b hb
  cases hw : b.call.args[i]? with
  | none =>
    have htake : ∃ e, (Act.takeArg i : Act Ω Wire) b = .error (.error e) b := by
      unfold Act.takeArg
      rw [hw]
      exact ⟨_, rfl⟩
    obtain ⟨e, htake⟩ := htake
    exact .inr ⟨e, b, e, b, bind_error htake, bind_error htake, ⟨hb, rfl⟩, ⟨hb, rfl⟩⟩
  | some w =>
    let b' : Boundary Ω := { b with call := { b.call with args := b.call.args.set i .undefined } }
    have htake : (Act.takeArg i : Act Ω Wire) b = .ok w b' := by
      unfold Act.takeArg
      rw [hw]
    have hproper : Proper D params b' := by
      refine ⟨hb.sink, fun j u v hu hv => ?_⟩
      rw [List.getElem?_set] at hv
      split at hv
      · split at hv
        · cases hv
          exact hundefined u
        · cases hv
      · exact hb.args j u v hu hv
    unfold AgreeAt
    rw [Act.bind_ok htake, Act.bind_ok htake]
    rcases hf w (hb.args i t w ht hw) b' hproper with ⟨c, b'', hx, hy, h⟩ | ⟨e, b₁, e', b₂, hx, hy, h₁, h₂⟩
    · exact .inl ⟨c, b'', hx, hy, h.proper, h.same⟩
    · exact .inr ⟨e, b₁, e', b₂, hx, hy, ⟨h₁.proper, h₁.same⟩, ⟨h₂.proper, h₂.same⟩⟩

variable (Ω params) in
theorem congruence_agrees (hD : Convert.Inward D) (hundefined : ∀ t, D t .undefined) :
    Act.Congruence.OfCalls D params fun {α} (x y : Act Ω α) => Agrees D params x y where
  inward := hD
  loc := fun h => h.agrees D params
  bind := fun hx hf b hb => (hx b hb).bind hf
  ensuring := fun hx hafter b hb => (hx b hb).ensuring hafter
  onFailure := fun hx hafter b hb => (hx b hb).onFailure hafter
  atArgument := fun i hx b hb => (hx b hb).atArgument i
  takeArg := fun ht hf => Agrees.takeArg hundefined ht hf

/-- A failure that is looked at and passed on. -/
theorem Agrees.recover [ObjectModel Ω] {x y : Act Ω α} {f g : Except CallError α → Act Ω β}
    (hx : Agrees D params x y) (as : List Address) (hok : ∀ a, Agrees D params (f (.ok a)) (g (.ok a)))
    (hf : ∀ e b, ∃ e' b', f (.error e) b = .error (.error e') b' ∧ Level b b')
    (hg : ∀ e b, ∃ e' b', g (.error e) b = .error (.error e') b' ∧ Level b b') :
    Agrees D params (x.attempt.orDrop as >>= f) (y.attempt.orDrop as >>= g) := by
  intro b hb
  rcases hx b hb with ⟨a, b', hx, hy, h⟩ | ⟨e, b₁, e', b₂, hx, hy, h₁, h₂⟩
  · have hx : x.attempt.orDrop as b = .ok (.ok a) b' := by rw [orDrop, onFailure, attempt, hx]
    have hy : y.attempt.orDrop as b = .ok (.ok a) b' := by rw [orDrop, onFailure, attempt, hy]
    rcases hok a b' h.proper with ⟨c, b'', hx', hy', h'⟩ | ⟨e, b₁, e', b₂, hx', hy', h₁, h₂⟩
    · exact .inl ⟨c, b'', (Act.bind_ok hx).trans hx', (Act.bind_ok hy).trans hy', h.trans h'⟩
    · exact .inr ⟨e, b₁, e', b₂, (Act.bind_ok hx).trans hx', (Act.bind_ok hy).trans hy', h.trans h₁, h.trans h₂⟩
  · have hx : x.attempt.orDrop as b = .ok (.error e) b₁ := by rw [orDrop, onFailure, attempt, hx]
    have hy : y.attempt.orDrop as b = .ok (.error e') b₂ := by rw [orDrop, onFailure, attempt, hy]
    obtain ⟨e₁, b₃, he₁, hl₁⟩ := hf e b₁
    obtain ⟨e₂, b₄, he₂, hl₂⟩ := hg e' b₂
    exact .inr ⟨e₁, b₃, e₂, b₄, (Act.bind_ok hx).trans he₁, (Act.bind_ok hy).trans he₂, h₁.level hl₁, h₂.level hl₂⟩

end Act

/-- The fields on which the record binding has a value of the named class rebuilt. -/
def Wire.fieldsFor? (name : String) : Wire → Option (List Wire)
  | .array ws => some ws
  | .record cls fields => if cls = name then some fields else none
  | _ => none

namespace Convert
variable {sv : Services Ω} {construct : Class → List Wire → Act Ω Pointer} {D : NativeType → Wire → Prop}
    {params : List NativeType} (hD : Inward D) (hundefined : ∀ t, D t .undefined)
include hD hundefined

/-- One constructor on the fields of a record, and no more if it fails. -/
theorem agrees_emit (c : Class) (fields : List Wire)
    (hconstruct : Agrees D params (sv.construct c fields) (construct c fields)) :
    Agrees D params (runImport sv c (.emit fields .done) none)
      (runImport (sv.constructing construct) c (.emit fields .done) none) := by
  have hR := (congruence_agrees Ω params hD hundefined).toCongruence
  have hmake : Agrees D params (do Act.retain (Wire.refsAll fields); Access.intoOwned c (← sv.construct c fields))
      (do Act.retain (Wire.refsAll fields); Access.intoOwned c (← construct c fields)) :=
    hR.bind (hR.loc (.retain _)) fun _ => hR.bind hconstruct fun p => hR.loc (Access.local_intoOwned c p)
  unfold runImport
  refine hmake.recover [] (fun x => ?_) (fun e b => ?_) fun e b => ?_
  · exact hR.bind (hR.loc (.drop _)) fun _ => hR.loc (.pure _)
  · exact ⟨e, b.drop [], rfl, .drop b []⟩
  · exact ⟨e, b.drop [], rfl, .drop b []⟩

/-- The import of a value object runs at most the constructor that its record or array asks for. -/
theorem agrees_importValue (hrecords : sv.RecordsOnly) (c : Class) (w : Wire)
    (hconstruct : ∀ fields, w.fieldsFor? c.name = some fields →
      Agrees D params (sv.construct c fields) (construct c fields)) :
    Agrees D params (importValue sv c w) (importValue (sv.constructing construct) c w) := by
  have hR := (congruence_agrees Ω params hD hundefined).toCongruence
  have hsame : (sv.constructing construct).binding c = sv.binding c := rfl
  unfold importValue
  rw [hsame]
  refine hR.thenDrop ?_ _
  cases hbinding : sv.binding c with
  | none => exact hR.loc (.fail _)
  | some binding =>
    obtain rfl := hrecords c binding hbinding
    refine hR.bind ?_ fun made => ?_
    · cases w with
      | array ws => exact agrees_emit hD hundefined c ws (hconstruct ws rfl)
      | record name fields =>
        change Agrees D params (runImport sv c (if name = c.name then _ else _) none)
          (runImport (sv.constructing construct) c (if name = c.name then _ else _) none)
        split
        · rename_i hname
          exact agrees_emit hD hundefined c fields (hconstruct fields (if_pos hname))
        · exact hR.orDrop (hR.loc (.fail _)) _
      | _ => exact hR.orDrop (hR.loc (.fail _)) _
    · cases made with
      | none => exact hR.loc (.fail _)
      | some x => exact hR.loc (.pure _)

end Convert
/-! ## Native code that does not panic -/

namespace Body
variable {ρ : Type}

/-- The body comes to a value, whatever it meets. -/
def Calm (host : HostBehaviour) (body : Body Ω ρ α) : Prop :=
  ∀ s, ∃ x, (body.exec host s).1 = .ok x

omit [ObjectModel Ω] in
theorem exec_sinks (host : HostBehaviour) :
    ∀ (body : Body Ω ρ α) (s : Stage Ω ρ), (body.exec host s).2.sinks.length = s.sinks.length
  | .done _, _ | .panic _, _ => rfl
  | .act change next, s => exec_sinks host (next (change s.scene)) { s with scene := change s.scene }
  | .call c args next, s => by
    unfold exec
    split
    · exact exec_sinks host (next _) _
    · refine (exec_sinks host (next _) _).trans ?_
      dsimp only
      split
      · exact List.length_modify _ _ _
      · rfl
    · rfl

end Body

/-- The native code of the entry does not panic. -/
def Entry.Calm (host : HostBehaviour) (e : Entry Ω) : Prop :=
  ∀ seen xs, (e.closure seen xs).Calm host

/-! ## Runs that agree -/

variable {D : NativeType → Wire → Prop} {params : List NativeType}

namespace Act

omit [ObjectModel Ω] in
theorem bind_at {x y : Act Ω α} {b b' : Boundary Ω} (h : x b = y b') (f : α → Act Ω β) : (x >>= f) b = (y >>= f) b' := by
  change EStateM.bind x f b = EStateM.bind y f b'
  rw [EStateM.bind, EStateM.bind, h]

omit [ObjectModel Ω] in
theorem Follows.loose {b b' : Boundary Ω} (h : Follows D params b b') : Follows D [] b b' :=
  ⟨⟨h.proper.sink, fun _ _ _ ht => nomatch ht⟩, h.same⟩

omit [ObjectModel Ω] in
theorem AgreeAt.loose {x y : Act Ω α} {b : Boundary Ω} (h : AgreeAt D params x y b) : AgreeAt D [] x y b := by
  rcases h with ⟨a, b', hx, hy, h⟩ | ⟨e, b₁, e', b₂, hx, hy, h₁, h₂⟩
  · exact .inl ⟨a, b', hx, hy, h.loose⟩
  · exact .inr ⟨e, b₁, e', b₂, hx, hy, h₁.loose, h₂.loose⟩

omit [ObjectModel Ω] in
theorem AgreeAt.after {x y x' y' : Act Ω α} {b b₁ : Boundary Ω} (h : AgreeAt D params x' y' b₁)
    (hfollows : Follows D params b b₁) (hx : x b = x' b₁) (hy : y b = y' b₁) : AgreeAt D params x y b := by
  unfold AgreeAt
  rw [hx, hy]
  rcases h with ⟨a, b', hx, hy, h⟩ | ⟨e, b₁, e', b₂, hx, hy, h₁, h₂⟩
  · exact .inl ⟨a, b', hx, hy, hfollows.trans h⟩
  · exact .inr ⟨e, b₁, e', b₂, hx, hy, hfollows.trans h₁, hfollows.trans h₂⟩

/-- A call within another agrees where what it runs does, for the sink is the same. -/
theorem AgreeAt.inCall {x y : Act Ω α} {b : Boundary Ω} (hb : Proper D params b) {args : List Wire}
    {D' : NativeType → Wire → Prop} (h : AgreeAt D' [] x y { b with call := .new args none b.call.sink }) :
    AgreeAt D params (x.inCall (.new args none b.call.sink)) (y.inCall (.new args none b.call.sink)) b := by
  have hback {b' : Boundary Ω} (h : Follows D' [] { b with call := .new args none b.call.sink } b') :
      Follows D params b { b'.drop b'.call.refs with call := b.call } := by
    refine ⟨⟨?_, hb.args⟩, rfl⟩
    have hsink := h.proper.sink
    rw [h.same] at hsink
    exact hsink
  unfold AgreeAt Act.inCall Act.ensuring
  rcases h with ⟨a, b', hx, hy, h⟩ | ⟨e, b₁, e', b₂, hx, hy, h₁, h₂⟩
  · rw [hx, hy]
    exact .inl ⟨a, _, rfl, rfl, hback h⟩
  · rw [hx, hy]
    exact .inr ⟨e, _, e', _, rfl, rfl, hback h₁, hback h₂⟩

end Act

namespace Access

theorem local_grasp (sv : Services Ω) (c : Class) (mutable : Bool) : (grasp sv c mutable).Local :=
  .bind .get fun _ => .bind (.ofExcept _) fun _ => .bind .get fun _ => .bind (.ofExcept _) fun _ =>
    local_seize _ _ _ _

end Access

namespace Entry
variable {sv : Services Ω} {construct : Class → List Wire → Act Ω Pointer}

theorem local_grasp (e : Entry Ω) : (e.grasp sv).Local := by
  cases e with
  | function params ret body | constructor c params body => exact .pure _
  | method c params ret body | methodMut c params ret body => exact Access.local_grasp _ _ _

theorem check_constructing (e : Entry Ω) : e.check (sv.constructing construct) = e.check sv := by
  cases e <;> rfl

theorem grasp_constructing (e : Entry Ω) : e.grasp (sv.constructing construct) = e.grasp sv := by
  cases e <;> rfl

theorem finish_constructing (e : Entry Ω) (s : e.Start) (ended : Body.Ended e.Place e.Yield) :
    e.finish (sv.constructing construct) s ended = e.finish sv s ended := by
  cases e with
  | constructor c params body => rfl
  | function params ret body | method c params ret body | methodMut c params ret body =>
    unfold finish leaveResult
    simp only [Convert.toWire_constructing]

/-- Two runs of an entry that come to its native code in the same way go on in the same way. -/
theorem run_begun {e : Entry Ω} {s : e.Start} {b b₁ : Boundary Ω} (h : e.begin sv b = .ok s b₁)
    (h' : e.begin (sv.constructing construct) b = .ok s b₁) : e.run sv b = e.run (sv.constructing construct) b := by
  rw [run_phases, run_phases, Act.bind_ok h, Act.bind_ok h']
  simp only [finish_constructing]
  rfl

theorem run_error {e : Entry Ω} {i : Interrupt} {b b₁ : Boundary Ω} (h : e.begin sv b = .error i b₁) :
    e.run sv b = .error i b₁ := by
  rw [run_phases]
  exact bind_error h

/-- Native code that does not panic, on its own. -/
theorem agrees_runFree (refs : α → List Address) (held : List Address) {body : Body Ω Unit α}
    (hcalm : body.Calm sv.host) : Agrees D params (runFree sv refs held body) (runFree sv refs held body) := by
  intro b hb
  obtain ⟨x, hx⟩ := hcalm ⟨⟨(), b.heap, b.program, []⟩, b.sinks, b.journal⟩
  have hsinks := body.exec_sinks sv.host ⟨⟨(), b.heap, b.program, []⟩, b.sinks, b.journal⟩
  cases hexec : body.exec sv.host ⟨⟨(), b.heap, b.program, []⟩, b.sinks, b.journal⟩ with
  | mk outcome s =>
    rw [hexec] at hx hsinks
    dsimp only at hx hsinks
    subst hx
    let b₁ : Boundary Ω :=
      { b with heap := s.scene.heap, program := s.scene.program, sinks := s.sinks, journal := s.journal }
    have hrun : Body.run sv.host () body b = .ok ⟨.ok x, s.scene.receiver, s.scene.fresh⟩ b₁ := by
      unfold Body.run
      dsimp only
      rw [hexec]
    have hfollows : Follows D params b b₁ := ⟨⟨hsinks.symm ▸ hb.sink, hb.args⟩, rfl⟩
    have hrest : (do
        Act.retain (refs x)
        return x : Act Ω α).Local := .bind (.retain _) fun _ => .pure _
    exact ((hrest.thenDrop _).agrees D params b₁ hfollows.proper).after hfollows (Act.bind_ok hrun) (Act.bind_ok hrun)

theorem agrees_setResult (w : Wire) : Agrees D params (Act.setResult w : Act Ω Unit) (Act.setResult w) :=
  fun _ hb => .inl ⟨(), _, rfl, rfl, ⟨hb.sink, hb.args⟩, rfl⟩

variable (hD : Convert.Inward D) (hundefined : ∀ t, D t .undefined)
include hD hundefined

theorem agrees_begin {e : Entry Ω}
    (himport : ∀ c w, D (.object c) w →
      Agrees D e.params (Convert.importValue sv c w) (Convert.importValue (sv.constructing construct) c w)) :
    Agrees D e.params (e.begin sv) (e.begin (sv.constructing construct)) := by
  have hR := congruence_agrees Ω e.params hD hundefined
  unfold begin
  rw [check_constructing, grasp_constructing]
  exact hR.bind (related_arguments hR construct himport _) fun xs =>
    hR.bind (hR.orDrop (hR.loc e.local_grasp) _) fun r => hR.loc (.pure _)

/-- A constructor that does not panic. -/
theorem agrees_constructor {c : Class} {e : Entry Ω} (he : e.Serves c .constructor) (hcalm : e.Calm sv.host)
    (himport : ∀ c w, D (.object c) w →
      Agrees D e.params (Convert.importValue sv c w) (Convert.importValue (sv.constructing construct) c w)) :
    Agrees D e.params (e.run sv) (e.run (sv.constructing construct)) := by
  have hR := congruence_agrees Ω e.params hD hundefined
  cases e with
  | constructor k params body =>
    exact hR.bind (related_arguments hR construct himport _) fun xs =>
      hR.bind (agrees_runFree _ _ (hcalm () xs)) fun x => hR.bind (hR.loc (.newObject x)) fun p =>
        agrees_setResult _
  | function params ret body | method c params ret body | methodMut c params ret body => cases he

end Entry

end NativeBridge
