import NativeBridge.Proofs.Engine.Consumed
import NativeBridge.Proofs.Engine.Dispatch
import NativeBridge.Proofs.Engine.Points
import NativeBridge.Proofs.Object.Handles
import NativeBridge.Proofs.Object.Lifetime
/-!
# Objects that nested constructors move out

A conversion that moves no object out itself may still run constructors, and these have parameters of their own. The
object table is then left alone exactly if none of them, at any depth, comes to move an object out
(`Environment.fromWire_table_iff`). What they come to is found by a probe: the conversion run with constructors that are
cut short where they would move something.
-/
namespace NativeBridge
variable {Ω : Type} [ObjectModel Ω] {α β : Type}

open Act ObjectTable

/-! ## Wrappers that are taken out -/

/-- The table with live wrappers taken out, one after another. -/
inductive ObjectTable.Sheds : ObjectTable → ObjectTable → Prop
  | refl (t : ObjectTable) : Sheds t t
  | remove {t t' : ObjectTable} {h : Handle} {w : Wrapper} : t.live? h = some w → Sheds (t.remove h w) t' → Sheds t t'

instance : IsPreorder ObjectTable Sheds where
  refl := .refl
  trans t₁ t₂ t₃ h₁ h₂ := by
    induction h₁ with
    | refl => exact h₂
    | remove hlive _ ih => exact .remove hlive (ih h₂)

theorem ObjectTable.Sheds.live? {t t' : ObjectTable} (h : t.Sheds t') {g : Handle} {v : Wrapper}
    (hg : t'.live? g = some v) : t.live? g = some v := by
  induction h with
  | refl => exact hg
  | remove hlive _ ih =>
    have hg := ih hg
    rw [live?_remove hlive] at hg
    split at hg
    · cases hg
    · exact hg

theorem ObjectTable.Sheds.eq_or_gone {t t' : ObjectTable} (h : t.Sheds t') :
    t' = t ∨ ∃ g v, t.live? g = some v ∧ t'.live? g = none := by
  cases h with
  | refl => exact .inl rfl
  | @remove _ _ g v hlive hrest =>
    refine .inr ⟨g, v, hlive, ?_⟩
    cases hg : t'.live? g with
    | none => rfl
    | some v' =>
      have hgone := hrest.live? hg
      rw [live?_remove hlive, if_pos rfl] at hgone
      cases hgone

theorem ObjectTable.Sheds.sound {t t' : ObjectTable} (h : t.Sheds t') (ht : t.Sound) : t'.Sound := by
  induction h with
  | refl => exact ht
  | remove hlive _ ih => exact ih (ht.remove hlive)

/-- A slot is as it was, or its wrapper has been taken out. -/
theorem ObjectTable.Sheds.slot {t t' : ObjectTable} (h : t.Sheds t') (i : Nat) : t'.slots[i]? = t.slots[i]? ∨
    ∃ g w, t.slots[i]? = some ⟨g, some w⟩ ∧ t'.slots[i]? = some ⟨g + 1, none⟩ := by
  induction h with
  | refl => exact .inl rfl
  | @remove t _ h w hlive _ ih =>
    have hset := sets_remove hlive i
    split at hset
    · rename_i hi
      subst hi
      refine .inr ⟨h.generation, w, live?_eq_some.mp hlive, ?_⟩
      rcases ih with hsame | ⟨g, v, hfilled, -⟩
      · exact hsame.trans hset
      · rw [hset] at hfilled
        cases hfilled
    · rwa [hset] at ih

/-- The handle of a new wrapper was not live before others were taken out, either. -/
theorem ObjectTable.Sheds.live?_allocate {t t' : ObjectTable} (h : t.Sheds t') (ht : t.Sound) (w : Wrapper) :
    t.live? (t'.allocate w).1 = none := by
  cases hv : t.live? (t'.allocate w).1 with
  | none => rfl
  | some v =>
    have hslot := (h.sound ht).allocate_slot w
    have hbefore := live?_eq_some.mp hv
    rcases h.slot (t'.allocate w).1.index with hsame | ⟨g, u, hfilled, hgone⟩
    · cases hslot _ (hsame.trans hbefore)
    · rw [hbefore] at hfilled
      cases hfilled
      exact absurd (congrArg Slot.generation (hslot _ hgone)) (add_one_ne_self _)

theorem Access.sheds_takeUnique (c : Class) (h : Handle) : (takeUnique c h : Act Ω (Instance Ω c)).Keeps Sheds :=
  keeps_takeUnique (fun _ _ _ hlive => .remove hlive (.refl _)) c h

/-! ## Probes -/

namespace Act

/-- The probe does what the action does where that leaves the object table alone, and is cut short where the action
changes it. -/
structure Probes (stop : Interrupt) (act probe : Act Ω α) : Prop where
  shrinks : act.Keeps Shrinks
  same : ∀ b, (act.final b).table = b.table → probe b = act b
  cut : ∀ b, (act.final b).table ≠ b.table → ∃ b', probe b = .error stop b'

namespace Probes
variable {stop : Interrupt}

omit [ObjectModel Ω]

theorem refl {act : Act Ω α} (hact : act.Keeps Eq) : Probes stop act act where
  shrinks := .of_eq fun b => (hact b).symm
  same := fun _ _ => rfl
  cut := fun b h => absurd (hact b).symm h

theorem bind {act probe : Act Ω α} {f g : α → Act Ω β} (hact : Probes stop act probe)
    (hf : ∀ a, Probes stop (f a) (g a)) : Probes stop (act >>= f) (probe >>= g) := by
  refine ⟨.bind hact.shrinks fun a => (hf a).shrinks, fun b hsame => ?_, fun b hchanged => ?_⟩
  · have hfirst : (act.final b).table = b.table := by
      rcases hact.shrinks b with h | h
      · exact h
      · have hless := lessens_bind h fun a => (hf a).shrinks
        rw [hsame] at hless
        exact absurd hless (Nat.lt_irrefl _)
    have heq := hact.same b hfirst
    cases hb : act b with
    | ok a b₁ =>
      rw [final_ok hb] at hfirst
      rw [final_bind_ok hb, ← hfirst] at hsame
      rw [Act.bind_ok hb, Act.bind_ok (heq.trans hb)]
      exact (hf a).same b₁ hsame
    | error i b₁ => rw [bind_error hb, bind_error (heq.trans hb)]
  · by_cases hfirst : (act.final b).table = b.table
    · have heq := hact.same b hfirst
      cases hb : act b with
      | ok a b₁ =>
        rw [final_ok hb] at hfirst
        rw [final_bind_ok hb, ← hfirst] at hchanged
        rw [Act.bind_ok (heq.trans hb)]
        exact (hf a).cut b₁ hchanged
      | error i b₁ =>
        rw [final_error hb] at hfirst
        rw [final_bind_error hb] at hchanged
        exact absurd hfirst hchanged
    · obtain ⟨b', hb'⟩ := hact.cut b hfirst
      exact ⟨b', bind_error hb'⟩

/-- What follows an action, depending on how it went, may follow its probe. -/
theorem followed {f : Act Ω α → Act Ω β} (hat : ∀ {x y : Act Ω α} {b}, x b = y b → f x b = f y b)
    (htable : ∀ (x : Act Ω α) b, ((f x).final b).table = (x.final b).table)
    (hcut : ∀ {x : Act Ω α} {b b'}, x b = .error stop b' → ∃ b'', f x b = .error stop b'')
    {act probe : Act Ω α} (h : Probes stop act probe) : Probes stop (f act) (f probe) where
  shrinks := fun b => by
    rw [htable]
    exact h.shrinks b
  same := fun b hb => hat (h.same b (htable act b ▸ hb))
  cut := fun b hb => by
    obtain ⟨b', hb'⟩ := h.cut b (htable act b ▸ hb)
    exact hcut hb'

theorem ensuring {act probe : Act Ω α} {after : Boundary Ω → Boundary Ω} (h : Probes stop act probe)
    (hafter : ∀ b, (after b).table = b.table) : Probes stop (act.ensuring after) (probe.ensuring after) := by
  refine h.followed (f := (·.ensuring after)) (fun hb => ?_) (fun x b => ?_) fun hb => ?_
  · rw [Act.ensuring, Act.ensuring, hb]
  · rw [final_ensuring, hafter]
  · exact ⟨_, by rw [Act.ensuring, hb]⟩

theorem onFailure {act probe : Act Ω α} {after : Boundary Ω → Boundary Ω} (h : Probes stop act probe)
    (hafter : ∀ b, (after b).table = b.table) : Probes stop (act.onFailure after) (probe.onFailure after) := by
  refine h.followed (f := (·.onFailure after)) (fun hb => ?_) (fun x b => ?_) fun hb => ?_
  · rw [Act.onFailure, Act.onFailure, hb]
  · unfold final Act.onFailure
    cases x b with
    | ok a b' => rfl
    | error i b' => exact hafter b'
  · exact ⟨_, by rw [Act.onFailure, hb]⟩

section
variable (hstop : stop.escapes false = true) {act probe : Act Ω α} (h : Probes stop act probe)
include hstop h

theorem attempt : Probes stop act.attempt probe.attempt := by
  refine h.followed (f := Act.attempt) (fun hb => ?_) (fun x b => by rw [final_attempt]) fun {x b b'} hb => ⟨b', ?_⟩
  · rw [Act.attempt, Act.attempt, hb]
  · rw [Act.attempt, hb]
    cases stop with
    | error e => cases hstop
    | panic p | nesting => rfl

theorem atArgument (i : Nat) : Probes stop (act.atArgument i) (probe.atArgument i) := by
  refine h.followed (f := (·.atArgument i)) (fun hb => ?_) (fun x b => by rw [final_atArgument])
    fun {x b b'} hb => ⟨b', ?_⟩
  · rw [Act.atArgument, Act.atArgument, hb]
  · rw [Act.atArgument, hb]
    cases stop with
    | error e => cases hstop
    | panic p | nesting => rfl

end

theorem compositional [ObjectModel Ω] : Compositional (fun t _ => t.movesOut = false)
    fun {α} (act probe : Act Ω α) => Probes stop act probe where
  inward := ⟨fun _ _ h _ _ => h, fun _ _ _ h _ _ => h, fun _ _ h => h, fun _ _ h => h⟩
  loc := fun _ hkeeps => .refl hkeeps
  move := fun h => nomatch h
  bind := .bind
  ensuring := fun h _ hafter => h.ensuring hafter
  onFailure := fun h _ hafter => h.onFailure hafter

end Probes

/-- The action was cut short by this. -/
def endsWith (stop : Interrupt) : EStateM.Result Interrupt (Boundary Ω) α → Bool
  | .error i _ => i = stop
  | .ok _ _ => false

/-- The probe was cut short where it stops, whichever way it is to stop. Two ways are tried, since an action may end in
either of them by itself. -/
def cutShort (probe : Interrupt → Act Ω α) (b : Boundary Ω) : Bool :=
  endsWith .nesting (probe .nesting b) && endsWith (.panic .other) (probe (.panic .other) b)

omit [ObjectModel Ω] in
theorem cutShort_eq_false {act : Act Ω α} {probe : Interrupt → Act Ω α}
    (h : ∀ stop : Interrupt, stop.escapes false = true → Probes stop act (probe stop)) (b : Boundary Ω) :
    cutShort probe b = false ↔ (act.final b).table = b.table := by
  have hnesting := h .nesting rfl
  have hpanic := h (.panic .other) rfl
  unfold cutShort
  by_cases hsame : (act.final b).table = b.table
  · rw [hnesting.same b hsame, hpanic.same b hsame]
    refine ⟨fun _ => hsame, fun _ => ?_⟩
    cases act b with
    | ok a b' => rfl
    | error i b' => cases i <;> simp [endsWith]
  · obtain ⟨b₁, hb₁⟩ := hnesting.cut b hsame
    obtain ⟨b₂, hb₂⟩ := hpanic.cut b hsame
    rw [hb₁, hb₂]
    exact ⟨fun hfalse => by simp [endsWith] at hfalse, fun hfalse => absurd hfalse hsame⟩

end Act

/-! ## Conversions with constructors that are probed -/

section
variable {stop : Interrupt} (hstop : stop.escapes false = true) {sv : Services Ω}
  {construct : Class → List Wire → Act Ω Pointer} (hconstruct : ∀ c args, Probes stop (sv.construct c args) (construct c args))
include hstop hconstruct

theorem Convert.probes_fromWire {t : NativeType} (ht : t.movesOut = false) (w : Wire) :
    Probes stop (fromWire sv t w) (fromWire (sv.constructing construct) t w) :=
  Probes.compositional.fromWire construct (fun c w _ =>
    Probes.compositional.importValue construct (.attempt hstop) hconstruct c w) t w ht

/-- Before the checks an entry converts only what moves no object out. -/
theorem Entry.probes_early : ∀ (ts : List NativeType) (i : Nat), (∀ t ∈ ts, t.isArgument = true) →
    Probes stop (early sv ts i) (early (sv.constructing construct) ts i)
  | [], _, _ => .refl (.pure _)
  | t :: ts, i, hts => by
    have htail := probes_early ts (i + 1) fun u hu => hts u (List.mem_cons_of_mem _ hu)
    rw [early_cons, early_cons]
    refine .bind ?_ fun x => .bind (htail.onFailure fun _ => rfl) fun _ => .refl (.pure _)
    unfold first
    split
    · exact .refl (.pure _)
    · rename_i hconsumes
      have ht : t.movesOut = false := by
        rw [NativeType.movesOut_eq_consumes (hts t List.mem_cons_self), Bool.eq_false_iff]
        exact hconsumes
      rw [map_eq_pure_bind, map_eq_pure_bind]
      exact .bind (.bind (.refl (.takeArg i)) fun w => .atArgument hstop (Convert.probes_fromWire hstop hconstruct ht w) i)
        fun _ => .refl (.pure _)

end

/-! ## Constructors that come to move objects out -/

/-- A call of the entry comes to move an object out: in a constructor that is run for the first pass over its arguments,
or in the second pass. -/
def Entry.comesToMove (sv : Services Ω) (probing : Interrupt → Services Ω) (e : Entry Ω) (b : Boundary Ω) : Bool :=
  cutShort (fun stop => early (probing stop) e.params 0) b ||
    match (do let _ ← early sv e.params 0; e.checks sv : Act Ω Unit) b with
    | .ok _ b₁ => !(moves b₁.call.args e.params 0).1.isEmpty
    | .error _ _ => false

def Code.comesToMove (sv : Services Ω) (probing : Interrupt → Services Ω) : Code Ω → Boundary Ω → Bool
  | .typed e, b => e.comesToMove sv probing b
  | .raw _, _ => false

namespace Environment

/-- Constructing the class comes to move an object out. -/
def constructorMoves (env : Environment Ω) (sv : Services Ω) (probing : Interrupt → Services Ω) (c : Class)
    (args : List Wire) (b : Boundary Ω) : Bool :=
  match (env.registry.class? c).filter (·.declared) with
  | none => false
  | some d =>
    let inner : Boundary Ω := { b with call := .new args none b.call.sink }
    match env.select d.constructors inner with
    | .ok entry => entry.code.comesToMove sv probing inner
    | .error _ => false

/-- The engine as conversions see it, with constructors that are cut short where they come to move an object out. -/
def probing (env : Environment Ω) : Nat → Interrupt → Services Ω
  | 0, _ => env.services 0
  | depth + 1, stop => (env.services (depth + 1)).constructing fun c args => do
    if env.constructorMoves (env.services depth) (env.probing depth) c args (← get) then throw stop
    (env.services (depth + 1)).construct c args

/-- The conversion runs a constructor that comes to move an object out. -/
def comesToMove (env : Environment Ω) (depth : Nat) (t : NativeType) (w : Wire) (b : Boundary Ω) : Bool :=
  cutShort (fun stop => Convert.fromWire (env.probing depth stop) t w) b

end Environment

theorem Entry.comesToMove_eq_false {sv : Services Ω} {probing : Interrupt → Services Ω} {e : Entry Ω}
    (hconstruct : ∀ c args, (sv.construct c args).Keeps Shrinks)
    (hprobes : ∀ stop : Interrupt, stop.escapes false = true →
      Probes stop (early sv e.params 0) (early (probing stop) e.params 0)) (b : Boundary Ω) :
    e.comesToMove sv probing b = false ↔ ((arguments sv e.params (e.check sv)).final b).table = b.table := by
  rw [arguments_table_iff hconstruct, ← cutShort_eq_false hprobes, comesToMove, Bool.or_eq_false_iff]
  refine and_congr_right fun _ => ?_
  constructor
  · rintro h b₁ ⟨⟨xs, hearly⟩, hcheck, hpre⟩
    rw [Act.bind_ok hearly, checks_ok hcheck hpre] at h
    simpa using h
  · intro h
    cases hrun : (do let _ ← early sv e.params 0; e.checks sv : Act Ω Unit) b with
    | error i b₁ => rfl
    | ok u b₁ =>
      obtain ⟨xs, b₂, hearly, hchecks⟩ := Act.bind_eq_ok hrun
      obtain rfl := checks_eq_ok hchecks
      have hclear : e.check sv b₁ = .ok () ∧ precheck b₁ e.params 0 = .ok () := by
        by_contra hclear
        obtain ⟨i, hi⟩ := checks_error hclear
        rw [hi] at hchecks
        cases hchecks
      simp [h b₁ ⟨⟨xs, hearly⟩, hclear⟩]

namespace Environment
variable {env : Environment Ω}

theorem final_finish_table (services : Nat → Services Ω) (code : Code Ω) (b : Boundary Ω) :
    ((env.finish services code).final b).table = ((code.run services).final b).table := by
  unfold finish
  rw [final_bind_table keeps_report, final_attempt, runCode_eq, catching]
  split
  · rw [final_bind_table, final_outcome]
    intro r
    split
    · exact .fail _
    · exact .ofOutcome _
  · rfl

/-- A nested constructor changes the object table exactly if it comes to move an object out. -/
theorem constructorMoves_eq_false (henv : env.Constructs fun t => t.isArgument = true) (depth : Nat)
    (probing : Interrupt → Services Ω)
    (hprobes : ∀ stop : Interrupt, stop.escapes false = true → ∀ ts : List NativeType, (∀ t ∈ ts, t.isArgument = true) →
      Probes stop (Entry.early (env.services depth) ts 0) (Entry.early (probing stop) ts 0))
    (c : Class) (args : List Wire) (b : Boundary Ω) :
    env.constructorMoves (env.services depth) probing c args b = false ↔
      (((env.services (depth + 1)).construct c args).final b).table = b.table := by
  have hconstruct := keeps_construct (henv.mono fun _ _ _ => Access.shrinks_takeUnique) depth
  change _ ↔ ((env.constructNested (fun _ => env.services depth) c args).final b).table = b.table
  unfold constructNested constructorMoves
  cases hd : (env.registry.class? c).filter (·.declared) with
  | none => exact ⟨fun _ => rfl, fun _ => rfl⟩
  | some d =>
    obtain ⟨hclass, -⟩ := Option.filter_eq_some_iff.mp hd
    let inner : Boundary Ω := { b with call := .new args none b.call.sink }
    change (match env.select d.constructors inner with
      | .ok entry => entry.code.comesToMove (env.services depth) probing inner
      | .error _ => false) = false ↔ ((Act.inCall (.new args none b.call.sink) _).final b).table = inner.table
    rw [final_inCall, final_bind_table fun w => keeps_constructed d.name w]
    change _ ↔ ((env.dispatch _ d.constructors).final inner).table = _
    rw [final, dispatch_eq, ← final]
    cases hselect : env.select d.constructors inner with
    | error x => exact ⟨fun _ => rfl, fun _ => rfl⟩
    | ok entry =>
      obtain ⟨n, ref, s, href, hentry⟩ := select_entry hselect
      obtain ⟨typed, hcode, hctor, hparams⟩ := henv c d n ref s entry hclass href hentry
      change entry.code.comesToMove _ _ _ = false ↔ ((env.finish _ entry.code).final inner).table = _
      rw [final_finish_table, hcode]
      cases typed with
      | constructor k params body =>
        have hmoves := Entry.comesToMove_eq_false (e := .constructor k params body) hconstruct
          (fun stop hstop => hprobes stop hstop params hparams) inner
        have hrun : (((Entry.constructor k params body).run (env.services depth)).final inner).table =
            ((Entry.arguments (env.services depth) params fun _ => .ok ()).final inner).table :=
          final_bind_table (fun _ => .bind (Entry.keeps_runFree _ _ _) fun x => .bind (.newObject x) fun _ => .setResult _) inner
        change Entry.comesToMove _ _ _ _ = false ↔ (((Entry.constructor k params body).run _).final inner).table = _
        rw [hmoves, hrun]
        rfl
      | _ => cases hctor

theorem probing_eq (env : Environment Ω) (depth : Nat) (stop : Interrupt) :
    env.probing depth stop = (env.services depth).constructing (env.probing depth stop).construct := by
  cases depth <;> rfl

/-- A constructor that is probed is cut short exactly where it would change the object table. -/
theorem probes_construct (henv : env.Constructs fun t => t.isArgument = true) {stop : Interrupt} :
    ∀ depth, stop.escapes false = true → ∀ c args,
      Probes stop ((env.services depth).construct c args) ((env.probing depth stop).construct c args)
  | 0, _, _, _ => .refl (.orDrop (.throw _) _)
  | depth + 1, _, c, args => by
    have hprobes (stop : Interrupt) (hstop : stop.escapes false = true) (ts : List NativeType)
        (hts : ∀ t ∈ ts, t.isArgument = true) :
        Probes stop (Entry.early (env.services depth) ts 0) (Entry.early (env.probing depth stop) ts 0) := by
      rw [probing_eq]
      exact Entry.probes_early hstop (probes_construct henv depth hstop) ts 0 hts
    have hmoves := constructorMoves_eq_false henv depth (env.probing depth) hprobes c args
    have hrun (b : Boundary Ω) : (env.probing (depth + 1) stop).construct c args b =
        (do if env.constructorMoves (env.services depth) (env.probing depth) c args b then throw stop
            (env.services (depth + 1)).construct c args : Act Ω Pointer) b := rfl
    refine ⟨keeps_construct (henv.mono fun _ _ _ => Access.shrinks_takeUnique) (depth + 1) c args,
      fun b hsame => ?_, fun b hchanged => ⟨b, ?_⟩⟩
    · rw [hrun, (hmoves b).mpr hsame]
      rfl
    · rw [hrun, Bool.eq_true_of_not_eq_false fun h => hchanged ((hmoves b).mp h)]
      rfl

/-- **What a conversion that moves no object out itself does to the object table.** At most it takes live wrappers out.
It leaves the table alone exactly if no constructor that it runs, at any depth, comes to move an object out. So it does
whenever its type takes no object by value, and whenever the engine has no constructor that takes a unique handle. -/
theorem fromWire_table_iff (henv : env.Constructs fun t => t.isArgument = true) (depth : Nat) {t : NativeType}
    (ht : t.isArgument = true) (hconsumes : t.consumes = false) (w : Wire) (b : Boundary Ω) :
    b.table.Sheds ((Convert.fromWire (env.services depth) t w).final b).table ∧
    (((Convert.fromWire (env.services depth) t w).final b).table = b.table ↔ env.comesToMove depth t w b = false) ∧
    (t.byHandle = true ∨ (env.Constructs fun t => t.consumes = false) →
      ((Convert.fromWire (env.services depth) t w).final b).table = b.table) := by
  have hmoves : t.movesOut = false := (NativeType.movesOut_eq_consumes ht).trans hconsumes
  have hkeeps {R : ObjectTable → ObjectTable → Prop} [IsPreorder ObjectTable R] {sv : Services Ω}
      (hconstruct : ∀ c args, (sv.construct c args).Keeps R) : (Convert.fromWire sv t w).Keeps R :=
    Convert.keeps_fromWire hconstruct t w fun h => nomatch hmoves.symm.trans h
  refine ⟨?_, ?_, fun hquiet => ?_⟩
  · exact hkeeps (keeps_construct (henv.mono fun _ _ _ => Access.sheds_takeUnique) depth) b
  · refine (cutShort_eq_false (fun stop hstop => ?_) b).symm
    rw [probing_eq]
    exact Convert.probes_fromWire hstop (probes_construct henv depth hstop) hmoves w
  · rcases hquiet with hhandle | hquiet
    · exact congrArg Prod.fst (Convert.recounts_fromWire hhandle hconsumes w b)
    · have hnothing : env.Constructs fun t => t.movesOut = false :=
        (henv.and hquiet).mono fun t h => (NativeType.movesOut_eq_consumes h.1).trans h.2
      have hconstruct := keeps_construct (R := Eq) (hnothing.mono fun t h hmoves => nomatch h.symm.trans hmoves) depth
      exact (hkeeps hconstruct b).symm

/-! ## A point that is made of another -/

open Catalog

theorem constructs_opened {r : Registry (Upcast Specimen) (Code Specimen)} {signatures : List (Signature (Code Specimen))}
    {overloads : List (Nat × EntryRef)} {allowed : NativeType → Prop}
    (h : ∀ s ∈ signatures, ∀ e ∈ s.entries, ∃ entry : Entry Specimen, e.code = .typed entry ∧
      entry.isConstructor = true ∧ ∀ t ∈ entry.params, allowed t) : (opened r signatures overloads).Constructs allowed := by
  intro c d n ref s e _ _ he
  obtain ⟨hs, he⟩ := SignatureTable.entry?_eq_some.mp (Registry.entry_eq_ok.mp he)
  exact h s (List.mem_of_getElem? hs) e (List.mem_of_getElem? he)

/-- A point that is made by moving another in. -/
def pointOfUnique : Entry Specimen :=
  .constructor Species.point.cls [.handle .unique Species.point.cls] fun (p, _) => .done p

def absorbing : Environment Specimen :=
  pointEngine .none [pointOfUnique]

theorem absorbing_eq : absorbing =
    opened (pointRegistry .none [pointOfUnique]) [pointSignature .none pointOfUnique] [(1, ⟨0, 0⟩)] :=
  pointEngine_eq rfl rfl rfl rfl rfl

/-- A call on the only point, of which the receiver is also what an argument is to be made of. -/
def callOnPoint : Boundary Specimen where
  heap := ⟨[⟨.point ⟨1, 2⟩, 1, 0, false⟩]⟩
  table := ⟨[⟨0, some ⟨Species.point.cls, 0, .owned, .none⟩⟩], [], [(⟨0, false⟩, ⟨0, 0⟩)]⟩
  sinks := [none]
  call := .new [.array [.object ⟨0, 0⟩]] (some ⟨0, 0⟩) 0
  program := ⟨none, []⟩
  pointers := []
  journal := []

/-- A point by value is rebuilt from an array that holds the receiver, and the receiver is gone. -/
theorem receiver_absorbed : NativeType.consumes (.object Species.point.cls) = false ∧
    callOnPoint.call.receiver = some ⟨0, 0⟩ ∧ callOnPoint.table.contains ⟨0, 0⟩ = true ∧
    ((Convert.fromWire (absorbing.services 1) (.object Species.point.cls) (.array [.object ⟨0, 0⟩])).final
      callOnPoint).table.live? ⟨0, 0⟩ = none := by
  have hconstructs : absorbing.Constructs fun t => t.isArgument = true := by
    rw [absorbing_eq]
    refine constructs_opened fun s hs e he => ?_
    rw [List.mem_singleton.mp hs] at he
    rw [List.mem_singleton.mp he]
    exact ⟨pointOfUnique, rfl, rfl, by decide⟩
  obtain ⟨hsheds, hiff, -⟩ := fromWire_table_iff hconstructs 1 (t := .object Species.point.cls) rfl rfl
    (.array [.object ⟨0, 0⟩]) callOnPoint
  have hcomes : absorbing.comesToMove 1 (.object Species.point.cls) (.array [.object ⟨0, 0⟩]) callOnPoint = true := by
    rw [absorbing_eq]
    generalize pointRegistry .none [pointOfUnique] = r
    change cutShort (fun stop => Convert.importValue ((opened r _ _).probing 1 stop) Species.point.cls
      (.array [.object ⟨0, 0⟩])) callOnPoint = true
    cbv
  refine ⟨rfl, rfl, by decide, ?_⟩
  rcases hsheds.eq_or_gone with hsame | ⟨h, v, hlive, hgone⟩
  · rw [hiff.mp hsame] at hcomes
    cases hcomes
  · -- the receiver's is the only wrapper
    have hmem : h ∈ [⟨0, 0⟩] := mem_handles.mpr ⟨v, hlive⟩
    rwa [List.mem_singleton.mp hmem] at hgone

end Environment
end NativeBridge
