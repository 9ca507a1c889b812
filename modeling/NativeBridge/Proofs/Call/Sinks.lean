import NativeBridge.Proofs.Call.Congruence
import NativeBridge.Proofs.Call.Start
/-!
# The error sink of a call

Conversions touch the sink of the call in progress only where they run constructors: from the boundary a conversion that
runs none keeps what the sink holds, and one that runs some leaves it empty (`Act.Coupled`); to the boundary none is run
(`Convert.fixes_toWire`). A body leaves there the first error of the callbacks that were scoped to the call
(`Body.exec_firstError`).
-/
namespace NativeBridge
variable {Ω : Type} [ObjectModel Ω] {α β : Type}

open Act

/-! ## Conversions to the boundary -/

section
variable {γ : Type} {P : Boundary Ω → γ}

omit [ObjectModel Ω] in
theorem Act.fixes_ofOutcome : ∀ x : Except Interrupt α, (ofOutcome x : Act Ω α).Fixes P
  | .ok _ => fun _ => rfl
  | .error _ => fun _ => rfl

variable (hP : ∀ b b' : Boundary Ω, Level b b' → P b' = P b)
include hP

theorem Act.Fixes.orDrop {act : Act Ω α} (h : act.Fixes P) (as : List Address) : (act.orDrop as).Fixes P :=
  h.onFailure fun b => hP b _ (.drop b as)

theorem Act.Fixes.thenDrop {act : Act Ω α} (h : act.Fixes P) (as : List Address) : (act.thenDrop as).Fixes P :=
  h.ensuring fun b => hP b _ (.drop b as)

namespace Convert
variable {sv : Services Ω} {fieldsOf : FieldsOf Ω}

theorem fixes_wrap (p : Pointer) (owned : Bool) (flags : TypeFlags) :
    (do return .object (← Act.wrap p owned flags) : Act Ω Wire).Fixes P :=
  fun b => hP b _ ⟨rfl, rfl, Nat.le_of_eq (Holdings.length_wrap b.toHoldings p owned flags).symm⟩

theorem fixes_wrapObject {c : Class} (x : Instance Ω c) : (wrapObject x).Fixes P :=
  .bind ((Local.newObject x).fixes hP) fun p => fixes_wrap hP p true .none

theorem fixes_wrapBorrowed (c : Class) (a : Address) (flags : TypeFlags) :
    (wrapBorrowed c a flags : Act Ω Wire).Fixes P := by
  refine .bind (fun _ => rfl) fun b => ?_
  split
  · exact fixes_wrap hP _ _ _
  · exact fun _ => rfl

theorem fixes_listToWire (refs : α → List Address) {convert : α → Act Ω Wire} (h : ∀ x, (convert x).Fixes P) :
    ∀ xs : List α, (listToWire refs convert xs).Fixes P
  | [] => fun _ => rfl
  | x :: xs =>
    .bind (.orDrop hP (h x) _) fun _ => .bind (.orDrop hP (fixes_listToWire refs h xs) _) fun _ => fun _ => rfl

variable (hfields : ∀ exporter o, (fieldsOf exporter o).Fixes P)
include hfields

theorem fixes_objectToWire {c : Class} (x : Instance Ω c) : (objectToWire sv fieldsOf x).Fixes P := by
  unfold objectToWire
  split
  · exact fixes_wrapObject hP x
  · split
    · refine .thenDrop hP (.bind (hfields _ _) fun fields => .thenDrop hP ?_ _) _
      exact .bind ((Local.ofExcept _).fixes hP) fun _ => .bind ((Local.retain _).fixes hP) fun _ => fun _ => rfl
    · split
      · exact fixes_wrapObject hP x
      · exact .orDrop hP ((Local.fail _).fixes hP) _

theorem fixes_toWireWith : ∀ (t : NativeType) (x : t.Value Ω), (toWireWith sv fieldsOf t x).Fixes P
  | .unit, _ | .bool, _ | .char, _ | .float _, _ | .text, _ | .staticText, _ | .any, _ | .callback, _ | .pointer, _ =>
    fun _ => rfl
  | .int k, x => by
    unfold toWireWith
    split
    · exact fun _ => rfl
    · exact (Local.fail _).fixes hP
  | .vector t, xs | .array t _, xs =>
    .bind (fixes_listToWire hP t.refs (fixes_toWireWith t) _) fun _ => fun _ => rfl
  | .optional t, x => by
    cases x with
    | none => exact fun _ => rfl
    | some x => exact fixes_toWireWith t x
  | .object _, x => fixes_objectToWire hP hfields x
  | .handle .unique _, x => fixes_wrapObject hP x
  | .handle .shared _, _ | .handle .constShared _, _ => fixes_wrap hP _ _ _
  | .handle .borrowed c, a => fixes_wrapBorrowed hP c a .none
  | .handle .constBorrowed c, a => fixes_wrapBorrowed hP c a .const
  | .result t, x => by
    cases x with
    | error _ => exact (Local.fail _).fixes hP
    | ok x => exact fixes_toWireWith t x

theorem fixes_runExport (c : Class) : ∀ (script : ExportScript Ω) (fields : Option (List Wire)),
    (runExport sv fieldsOf c script fields).Fixes P
  | .done (.ok ()), some _ => fun _ => rfl
  | .done (.ok ()), none => (Local.fail _).fixes hP
  | .done (.error _), _ => .orDrop hP ((Local.fail _).fixes hP) _
  | .emit _ next, some fields => fixes_runExport c (next _) (some fields)
  | .emit xs next, none => by
    unfold runExport
    refine .bind (.attempt (.bind ((Local.retain _).fixes hP) fun _ => ?_)) fun made => ?_
    · exact fixes_listToWire hP _ (fun x : Typed Ω => fixes_toWireWith hP hfields x.type x.value) xs
    cases made with
    | ok fields => exact fixes_runExport c (next (.ok ())) (some fields)
    | error e => exact fixes_runExport c (next (.error e)) none

omit hfields in
theorem fixes_fieldsAt (sv : Services Ω) : ∀ depth exporter o, (fieldsAt sv depth exporter o).Fixes P
  | 0, _, _ => fun _ => rfl
  | depth + 1, exporter, o => fixes_runExport hP (fixes_fieldsAt sv depth) _ (exporter.script o) none

omit hfields in
/-- A conversion to the boundary runs no constructors. -/
theorem fixes_toWire (sv : Services Ω) (t : NativeType) (x : t.Value Ω) : (toWire sv t x).Fixes P :=
  fixes_toWireWith hP (fun exporter o => fixes_fieldsAt hP sv (exporter.depth o) exporter o) t x

end Convert
end

/-! ## What the sink holds -/

/-- The sink of the call in progress, and all sinks. -/
def Boundary.errors (b : Boundary Ω) : SinkId × List (Option CallError) :=
  (b.call.sink, b.sinks)

omit [ObjectModel Ω] in
theorem errors_level (b b' : Boundary Ω) (h : Level b b') : b'.errors = b.errors := by
  unfold Boundary.errors
  rw [h.1, h.2]

namespace Entry

omit [ObjectModel Ω] in
theorem fixes_harvest {ρ : Type} (refs : α → List Address) (ended : Body.Ended ρ α) :
    (harvest refs ended : Act Ω α).Fixes Boundary.errors :=
  .bind (fixes_ofOutcome _) fun _ => fun _ => rfl

theorem fixes_settle (e : Entry Ω) (s : e.Start) (ended : Body.Ended e.Place e.Yield) :
    (settle e s ended).Fixes Boundary.errors := by
  cases e with
  | function params ret body => exact (fixes_harvest ret.refs ended).thenDrop errors_level _
  | method c params ret body =>
    refine .thenDrop errors_level (.ensuring (.thenDrop errors_level (fixes_harvest ret.refs ended) _) ?_) _
    exact fun _ => rfl
  | methodMut c params ret body =>
    have hback : Fixes Boundary.errors (putBack s.receiver ended.receiver (yielded ret.refs ended)) :=
      .ensuring (fun _ => rfl) fun _ => rfl
    exact .thenDrop errors_level (hback.bind fun _ => .thenDrop errors_level (fixes_ofOutcome ended.outcome) _) _
  | constructor c params body => exact (fixes_harvest Instance.refs ended).thenDrop errors_level _

theorem fixes_leaveResult (sv : Services Ω) : ∀ (e : Entry Ω) (x : e.Yield), (leaveResult sv e x).Fixes Boundary.errors
  | .function _ ret _, x | .method _ _ ret _, x | .methodMut _ _ ret _, x =>
    .bind (Convert.fixes_toWire errors_level sv ret x) fun _ => fun _ => rfl
  | .constructor _ _ _, _ => fun _ => rfl

/-- After its native code an entry touches no sink. -/
theorem fixes_finish (sv : Services Ω) (e : Entry Ω) (s : e.Start) (ended : Body.Ended e.Place e.Yield) :
    (e.finish sv s ended).Fixes Boundary.errors :=
  .bind (fixes_settle e s ended) fun _ => fixes_leaveResult sv e _

end Entry

/-- Whether an interruption of native code cuts its call short instead of being reported by it. -/
def Interrupt.escapes (catching : Bool) : Interrupt → Bool
  | .error _ => false
  | .panic _ => !catching
  | .nesting => true

/-- The sink of the call in progress is `k`, and this is in it. -/
def Boundary.Holds (b : Boundary Ω) (k : SinkId) (held : Option CallError) : Prop :=
  b.call.sink = k ∧ b.sinks[k]? = some held

omit [ObjectModel Ω] in
theorem Boundary.Holds.level {b b' : Boundary Ω} {k : SinkId} {held : Option CallError} (hb : b.Holds k held)
    (h : Level b b') : b'.Holds k held := by
  unfold Boundary.Holds
  rw [h.1, h.2]
  exact hb

theorem recordIn_held {sinks : List (Option CallError)} {k : SinkId} {e : CallError} (hk : sinks[k]? = some (some e))
    (sink : SinkId) (e' : CallError) : (recordIn sinks sink e')[k]? = some (some e) := by
  unfold recordIn
  rw [List.getElem?_modify, hk]
  change some (if sink = k then some e else some e) = _
  rw [ite_self]

theorem recordIn_self {sinks : List (Option CallError)} {k : SinkId} (hk : sinks[k]? = some none) (e : CallError) :
    (recordIn sinks k e)[k]? = some (some e) := by
  unfold recordIn
  rw [List.getElem?_modify_eq, hk]
  rfl

theorem recordIn_other {sinks : List (Option CallError)} {k sink : SinkId} (h : sink ≠ k) (e : CallError) :
    (recordIn sinks sink e)[k]? = sinks[k]? := by
  unfold recordIn
  rw [List.getElem?_modify]
  cases sinks[k]? with
  | none => rfl
  | some held => exact congrArg some (if_neg h)

namespace Act
variable {catching : Bool} {k : SinkId} {held : Option CallError} {b : Boundary Ω}

/-- Unless the call is cut short with the action, its sink holds this when the action has ended. -/
def Leaves (catching : Bool) (k : SinkId) (held : Option CallError) : EStateM.Result Interrupt (Boundary Ω) α → Prop
  | .ok _ b => b.Holds k held
  | .error i b => i.escapes catching = false → b.Holds k held

omit [ObjectModel Ω]

theorem Leaves.final {act : Act Ω α} (h : (act.final b).Holds k held) : Leaves catching k held (act b) := by
  unfold Act.final at h
  cases hb : act b with
  | ok a b' =>
    rw [hb] at h
    exact h
  | error i b' =>
    rw [hb] at h
    exact fun _ => h

theorem Fixes.leaves {act : Act Ω α} (hact : act.Fixes Boundary.errors) (hb : b.Holds k held) :
    Leaves catching k held (act b) := by
  obtain ⟨hsink, hsinks⟩ := Prod.mk.inj (hact b)
  refine .final ⟨hsink.trans hb.1, ?_⟩
  rw [hsinks]
  exact hb.2

theorem Leaves.bind {act : Act Ω α} {f : α → Act Ω β} (h : Leaves catching k held (act b))
    (hf : ∀ a b', act b = .ok a b' → b'.Holds k held → Leaves catching k held (f a b')) :
    Leaves catching k held ((act >>= f) b) := by
  cases hb : act b with
  | ok a b' =>
    rw [hb] at h
    rw [Act.bind_ok hb]
    exact hf a b' hb h
  | error i b' =>
    rw [hb] at h
    rw [bind_error hb]
    exact h

theorem Leaves.ensuring {act : Act Ω α} {after : Boundary Ω → Boundary Ω} (h : Leaves catching k held (act b))
    (hafter : ∀ b, b.Holds k held → (after b).Holds k held) : Leaves catching k held (act.ensuring after b) := by
  unfold Act.ensuring
  cases hb : act b with
  | ok a b' =>
    rw [hb] at h
    exact hafter b' h
  | error i b' =>
    rw [hb] at h
    exact fun hi => hafter b' (h hi)

theorem Leaves.onFailure {act : Act Ω α} {after : Boundary Ω → Boundary Ω} (h : Leaves catching k held (act b))
    (hafter : ∀ b, b.Holds k held → (after b).Holds k held) : Leaves catching k held (act.onFailure after b) := by
  unfold Act.onFailure
  cases hb : act b with
  | ok a b' =>
    rw [hb] at h
    exact h
  | error i b' =>
    rw [hb] at h
    exact fun hi => hafter b' (h hi)

theorem Leaves.attempt {act : Act Ω α} (h : Leaves catching k held (act b)) : Leaves catching k held (act.attempt b) := by
  unfold Act.attempt
  cases hb : act b with
  | ok a b' =>
    rw [hb] at h
    exact h
  | error i b' =>
    rw [hb] at h
    cases i with
    | error e => exact h rfl
    | _ => exact h

theorem Leaves.atArgument {act : Act Ω α} (h : Leaves catching k held (act b)) (i : Nat) :
    Leaves catching k held (act.atArgument i b) := by
  unfold Act.atArgument
  cases hb : act b with
  | ok a b' =>
    rw [hb] at h
    exact h
  | error i b' =>
    rw [hb] at h
    cases i with
    | error e => exact h
    | _ => exact h

/-- An action that is cut short other than by an error cuts its call short. -/
def Surfaces (catching : Bool) (act : Act Ω α) : Prop :=
  ∀ b i b', act b = .error i b' → (∃ e, i = .error e) ∨ i.escapes catching = true

theorem Local.surfaces {act : Act Ω α} (h : act.Local) : act.Surfaces catching :=
  fun b i b' hi => .inl (h.fails b i b' hi)

namespace Surfaces

theorem bind {act : Act Ω α} {f : α → Act Ω β} (hact : act.Surfaces catching) (hf : ∀ a, (f a).Surfaces catching) :
    (act >>= f).Surfaces catching := fun b i b' hi => by
  rcases bind_eq_error hi with hi | ⟨a, b₁, -, hi⟩
  · exact hact b i b' hi
  · exact hf a b₁ i b' hi

theorem ensuring {act : Act Ω α} {after : Boundary Ω → Boundary Ω} (h : act.Surfaces catching) :
    (act.ensuring after).Surfaces catching := fun b i b' hi => by
  obtain ⟨b₁, hi, -⟩ := ensuring_eq_error hi
  exact h b i b₁ hi

theorem attempt {act : Act Ω α} (h : act.Surfaces catching) : act.attempt.Surfaces catching := fun b i b' hi => by
  unfold Act.attempt at hi
  cases hb : act b with
  | ok a b₁ =>
    rw [hb] at hi
    cases hi
  | error j b₁ =>
    rw [hb] at hi
    cases j with
    | error e => cases hi
    | panic p =>
      cases hi
      exact h b (.panic p) b' hb
    | nesting => exact .inr (by cases hi; rfl)

theorem congruence (catching : Bool) :
    Congruence (Ω := Ω) (fun _ _ => True) fun {α} (x _ : Act Ω α) => x.Surfaces catching where
  inward := ⟨fun _ _ _ _ _ => trivial, fun _ _ _ _ _ _ => trivial, fun _ _ _ => trivial, fun _ _ _ => trivial⟩
  loc := Local.surfaces
  bind := fun hx hf => hx.bind hf
  ensuring := fun hx _ => hx.ensuring
  onFailure := fun hx _ b i b' hi => by
    obtain ⟨b₁, hi, -⟩ := onFailure_eq_error hi
    exact hx b i b₁ hi

end Surfaces

/-! ## Conversions from the boundary -/

/-- The first action leaves an empty sink empty. An error in the sink it keeps there and ends like the second, or else
the second is cut short and the first leaves the sink empty. -/
structure Coupled (catching : Bool) (x y : Act Ω α) : Prop where
  empty : ∀ k b, b.Holds k none → Leaves catching k none (x b)
  held : ∀ k e b, b.Holds k (some e) → (y b = x b ∧ Leaves catching k (some e) (x b)) ∨
    ((∃ b', y b = .error .nesting b') ∧ Leaves catching k none (x b))

namespace Coupled

theorem refl {x : Act Ω α} (h : x.Fixes Boundary.errors) : Coupled catching x x :=
  ⟨fun _ _ hb => h.leaves hb, fun _ _ _ hb => .inl ⟨rfl, h.leaves hb⟩⟩

theorem bind {x y : Act Ω α} {f g : α → Act Ω β} (h : Coupled catching x y) (hf : ∀ a, Coupled catching (f a) (g a)) :
    Coupled catching (x >>= f) (y >>= g) := by
  refine ⟨fun k b hb => (h.empty k b hb).bind fun a b' _ hb' => (hf a).empty k b' hb', fun k e b hb => ?_⟩
  rcases h.held k e b hb with ⟨hsame, hleaves⟩ | ⟨⟨b', hcut⟩, hleaves⟩
  · cases hx : x b with
    | ok a b₁ =>
      rw [hx] at hsame hleaves
      rw [Act.bind_ok hx, Act.bind_ok hsame]
      exact (hf a).held k e b₁ hleaves
    | error i b₁ =>
      rw [hx] at hsame hleaves
      rw [bind_error hx, bind_error hsame]
      exact .inl ⟨rfl, hleaves⟩
  · exact .inr ⟨⟨b', bind_error hcut⟩, hleaves.bind fun a b₁ _ hb₁ => (hf a).empty k b₁ hb₁⟩

/-- What is done to both at their end keeps them coupled if it leaves the sinks alone and acts on the outcome only. -/
theorem lift {x y : Act Ω α} {f : Act Ω α → Act Ω β} (h : Coupled catching x y)
    (hcongr : ∀ {x y : Act Ω α} {b : Boundary Ω}, y b = x b → f y b = f x b)
    (hcut : ∀ {y : Act Ω α} {b b' : Boundary Ω}, y b = .error .nesting b' → ∃ b', f y b = .error .nesting b')
    (hleaves : ∀ {k : SinkId} {held : Option CallError} {b : Boundary Ω}, Leaves catching k held (x b) →
      Leaves catching k held (f x b)) : Coupled catching (f x) (f y) := by
  refine ⟨fun k b hb => hleaves (h.empty k b hb), fun k e b hb => ?_⟩
  rcases h.held k e b hb with ⟨hsame, hkept⟩ | ⟨⟨b', hy⟩, hkept⟩
  · exact .inl ⟨hcongr hsame, hleaves hkept⟩
  · exact .inr ⟨hcut hy, hleaves hkept⟩

theorem ensuring {x y : Act Ω α} {after : Boundary Ω → Boundary Ω} (h : Coupled catching x y)
    (hafter : ∀ b, Level b (after b)) :
    Coupled catching (x.ensuring after) (y.ensuring after) := by
  refine h.lift (f := (·.ensuring after)) (fun hsame => ?_) (fun {y b b'} hy => ⟨after b', ?_⟩)
    fun hx => hx.ensuring fun b hb => hb.level (hafter b)
  · rw [Act.ensuring, Act.ensuring, hsame]
  · rw [Act.ensuring, hy]

theorem onFailure {x y : Act Ω α} {after : Boundary Ω → Boundary Ω} (h : Coupled catching x y)
    (hafter : ∀ b, Level b (after b)) :
    Coupled catching (x.onFailure after) (y.onFailure after) := by
  refine h.lift (f := (·.onFailure after)) (fun hsame => ?_) (fun {y b b'} hy => ⟨after b', ?_⟩)
    fun hx => hx.onFailure fun b hb => hb.level (hafter b)
  · rw [Act.onFailure, Act.onFailure, hsame]
  · rw [Act.onFailure, hy]

theorem attempt {x y : Act Ω α} (h : Coupled catching x y) : Coupled catching x.attempt y.attempt := by
  refine h.lift (fun hsame => ?_) (fun {y b b'} hy => ⟨b', ?_⟩) Leaves.attempt
  · rw [Act.attempt, Act.attempt, hsame]
  · rw [Act.attempt, hy]

theorem atArgument {x y : Act Ω α} (h : Coupled catching x y) (i : Nat) :
    Coupled catching (x.atArgument i) (y.atArgument i) := by
  refine h.lift (f := (·.atArgument i)) (fun hsame => ?_) (fun {y b b'} hy => ⟨b', ?_⟩) fun hx => hx.atArgument i
  · rw [Act.atArgument, Act.atArgument, hsame]
  · rw [Act.atArgument, hy]

end Coupled

theorem fixes_takeArg (i : Nat) : (takeArg i : Act Ω Wire).Fixes Boundary.errors := fun b => by
  unfold Act.final Act.takeArg
  cases b.call.args[i]? <;> rfl

theorem congruence_coupled (catching : Bool) (params : List NativeType) :
    Congruence.OfCalls (Ω := Ω) (fun _ _ => True) params (Coupled catching) where
  inward := ⟨fun _ _ _ _ _ => trivial, fun _ _ _ _ _ _ => trivial, fun _ _ _ => trivial, fun _ _ _ => trivial⟩
  loc := fun h => .refl (h.fixes errors_level)
  bind := .bind
  ensuring := .ensuring
  onFailure := .onFailure
  atArgument := fun i h => h.atArgument i
  takeArg := fun _ h => .bind (.refl (fixes_takeArg _)) fun w => h w trivial

end Act

/-! ## Bodies -/

namespace Body
variable {ρ : Type}

/-- The first error of a callback that is scoped to the sink. -/
def firstError (host : HostBehaviour) (k : SinkId) : Body Ω ρ α → Stage Ω ρ → Option CallError
  | .done _, _ | .panic _, _ => none
  | .act change next, s =>
    let scene := change s.scene
    (next scene).firstError host k { s with scene }
  | .call c args next, s =>
    match host c.function args s.journal with
    | (.ok w, journal) =>
      let scene := { s.scene with heap := s.scene.heap.retain w.refs, fresh := w.refs ++ s.scene.fresh }
      (next (.ok w)).firstError host k { s with scene, journal }
    | (.error (.error e), journal) =>
      if c.sink = some k then some e
      else
        let sinks := match c.sink with
          | some sink => recordIn s.sinks sink e
          | none => s.sinks
        (next (.error e)).firstError host k { s with sinks, journal }
    | (.error _, _) => none

omit [ObjectModel Ω]

/-- An error in a sink stays there while a body runs. -/
theorem exec_held (host : HostBehaviour) {k : SinkId} {e : CallError} : ∀ (body : Body Ω ρ α) (s : Stage Ω ρ),
    s.sinks[k]? = some (some e) → (body.exec host s).2.sinks[k]? = some (some e)
  | .done _, _, h | .panic _, _, h => h
  | .act change next, s, h => exec_held host (next (change s.scene)) { s with scene := change s.scene } h
  | .call c args next, s, h => by
    unfold exec
    split
    · exact exec_held host (next _) _ h
    · refine exec_held host (next _) _ ?_
      dsimp only
      split
      · exact recordIn_held h _ _
      · exact h
    · exact h

/-- **A body leaves the first error of its callbacks in their sink.** -/
theorem exec_firstError (host : HostBehaviour) {k : SinkId} : ∀ (body : Body Ω ρ α) (s : Stage Ω ρ),
    s.sinks[k]? = some none → (body.exec host s).2.sinks[k]? = some (body.firstError host k s)
  | .done _, _, h | .panic _, _, h => h
  | .act change next, s, h => exec_firstError host (next (change s.scene)) { s with scene := change s.scene } h
  | .call c args next, s, h => by
    unfold exec firstError
    cases host c.function args s.journal with
    | mk answer journal =>
      rcases answer with (e | _ | _) | w
      · dsimp only
        by_cases hc : c.sink = some k
        · rw [if_pos hc, hc]
          exact exec_held host (next _) ⟨s.scene, recordIn s.sinks k e, journal⟩ (recordIn_self h e)
        · rw [if_neg hc]
          refine exec_firstError host (next _) ⟨s.scene, _, journal⟩ ?_
          dsimp only
          split
          · rename_i sink hsink
            rw [recordIn_other fun hk => hc (by rw [hsink, hk])]
            exact h
          · exact h
      · exact h
      · exact h
      · exact exec_firstError host (next (.ok w)) _ h

end Body
end NativeBridge
