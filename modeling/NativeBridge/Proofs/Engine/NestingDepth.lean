import NativeBridge.Proofs.Engine.Checks
import NativeBridge.Proofs.Engine.Leaks
import NativeBridge.Proofs.Engine.NestedMoves
/-!
# How deep constructors nest

A conversion calls a binding, the binding a constructor, and the constructor's arguments are converted again. Under
record bindings the constructor is given the parts of the value that is converted, so constructors nest no deeper than
the value does, whichever classes are made of which: without any bound on the nesting there is exactly one way in which
constructors can run, every conversion with it comes to an end, and the engine's bound is never met
(`Environment.imports_end`).
-/
namespace NativeBridge
variable {Ω : Type} [ObjectModel Ω] {α β : Type}

open Act

/-! ## Actions that coincide -/

/-- The arguments of the call in progress nest at most `n` deep. -/
def Boundary.Shallow (n : Nat) (b : Boundary Ω) : Prop :=
  ∀ w ∈ b.call.args, w.depth ≤ n

namespace Act

/-- The two actions end in the same way, in a call with such arguments, and not because anything nests too deeply. -/
structure CoincideAt (n : Nat) (x y : Act Ω α) (b : Boundary Ω) : Prop where
  same : y b = x b
  shallow : (x.final b).Shallow n
  ends : ∀ b', x b ≠ .error .nesting b'

/-- The two actions coincide in every call whose arguments nest at most `n` deep. -/
def Coincide (n : Nat) (x y : Act Ω α) : Prop :=
  ∀ b, b.Shallow n → CoincideAt n x y b

omit [ObjectModel Ω]
variable {n : Nat} {x y : Act Ω α} {b : Boundary Ω}

theorem Level.shallow {b' : Boundary Ω} (h : Level b b') (hb : b.Shallow n) : b'.Shallow n := by
  unfold Boundary.Shallow
  rw [h.1]
  exact hb

theorem Local.coincide {act : Act Ω α} (h : act.Local) (n : Nat) : Coincide n act act := by
  refine fun b hb => ⟨rfl, (h.level b).shallow hb, fun b' hnesting => ?_⟩
  obtain ⟨e, he⟩ := h.fails b _ b' hnesting
  cases he

theorem CoincideAt.bind {f g : α → Act Ω β} (hx : CoincideAt n x y b) (hf : ∀ a, Coincide n (f a) (g a)) :
    CoincideAt n (x >>= f) (y >>= g) b := by
  obtain ⟨hsame, hshallow, hends⟩ := hx
  cases hb : x b with
  | ok a b₁ =>
    rw [final_ok hb] at hshallow
    obtain ⟨hsame', hshallow', hends'⟩ := hf a b₁ hshallow
    refine ⟨?_, ?_, fun b' h => hends' b' ((Act.bind_ok hb).symm.trans h)⟩
    · rw [Act.bind_ok hb, Act.bind_ok (hsame.trans hb), hsame']
    · rw [final_bind_ok hb]
      exact hshallow'
  | error i b₁ =>
    rw [final_error hb] at hshallow
    refine ⟨?_, ?_, fun b' h => ?_⟩
    · rw [bind_error hb, bind_error (hsame.trans hb)]
    · rw [final_bind_error hb]
      exact hshallow
    · rw [bind_error hb] at h
      cases h
      exact hends _ hb

/-- What follows an action, depending on how it went, may follow the other. -/
theorem Coincide.followed {f : Act Ω α → Act Ω β} (hat : ∀ {x y : Act Ω α} {b}, x b = y b → f x b = f y b)
    (hlevel : ∀ (x : Act Ω α) b, Level (x.final b) ((f x).final b))
    (hends : ∀ {x : Act Ω α} {b b'}, f x b = .error .nesting b' → ∃ b'', x b = .error .nesting b'')
    (h : Coincide n x y) : Coincide n (f x) (f y) := by
  intro b hb
  obtain ⟨hsame, hshallow, hnot⟩ := h b hb
  refine ⟨hat hsame, (hlevel x b).shallow hshallow, fun b' hnesting => ?_⟩
  obtain ⟨b'', hnesting⟩ := hends hnesting
  exact hnot b'' hnesting

theorem Coincide.ensuring {after : Boundary Ω → Boundary Ω} (h : Coincide n x y) (hafter : ∀ b, Level b (after b)) :
    Coincide n (x.ensuring after) (y.ensuring after) := by
  refine h.followed (f := (·.ensuring after)) (fun hb => ?_) (fun x b => ?_) fun hb => ?_
  · rw [Act.ensuring, Act.ensuring, hb]
  · rw [final_ensuring]
    exact hafter _
  · obtain ⟨b₁, hb, -⟩ := ensuring_eq_error hb
    exact ⟨b₁, hb⟩

theorem Coincide.onFailure {after : Boundary Ω → Boundary Ω} (h : Coincide n x y) (hafter : ∀ b, Level b (after b)) :
    Coincide n (x.onFailure after) (y.onFailure after) := by
  refine h.followed (f := (·.onFailure after)) (fun hb => ?_) (fun x b => ?_) fun hb => ?_
  · rw [Act.onFailure, Act.onFailure, hb]
  · unfold final Act.onFailure
    cases x b with
    | ok a b' => exact .refl b'
    | error i b' => exact hafter b'
  · obtain ⟨b₁, hb, -⟩ := onFailure_eq_error hb
    exact ⟨b₁, hb⟩

theorem Coincide.attempt (h : Coincide n x y) : Coincide n x.attempt y.attempt := by
  refine h.followed (f := Act.attempt) (fun hb => ?_) (fun x b => ?_) fun {x b b'} hb => ?_
  · rw [Act.attempt, Act.attempt, hb]
  · rw [final_attempt]
    exact .refl _
  · unfold Act.attempt at hb
    cases hx : x b with
    | ok a b₁ =>
      rw [hx] at hb
      cases hb
    | error i b₁ =>
      rw [hx] at hb
      cases i with
      | nesting => exact ⟨b₁, rfl⟩
      | _ => cases hb

theorem Coincide.atArgument (h : Coincide n x y) (i : Nat) : Coincide n (x.atArgument i) (y.atArgument i) := by
  refine h.followed (f := (·.atArgument i)) (fun hb => ?_) (fun x b => ?_) fun {x b b'} hb => ?_
  · rw [Act.atArgument, Act.atArgument, hb]
  · rw [final_atArgument]
    exact .refl _
  · unfold Act.atArgument at hb
    cases hx : x b with
    | ok a b₁ =>
      rw [hx] at hb
      cases hb
    | error j b₁ =>
      rw [hx] at hb
      cases j with
      | nesting => exact ⟨b₁, rfl⟩
      | _ => cases hb

theorem Coincide.takeArg {i : Nat} {f g : Wire → Act Ω α} (hf : ∀ w, w.depth ≤ n → Coincide n (f w) (g w)) :
    Coincide n (Act.takeArg i >>= f) (Act.takeArg i >>= g) := by
  intro b hb
  cases hw : b.call.args[i]? with
  | none =>
    have htake : ∃ e, (Act.takeArg i : Act Ω Wire) b = .error (.error e) b := by
      unfold Act.takeArg
      rw [hw]
      exact ⟨_, rfl⟩
    obtain ⟨e, htake⟩ := htake
    refine ⟨?_, ?_, fun b' h => ?_⟩
    · rw [bind_error htake, bind_error htake]
    · rw [final_bind_error htake]
      exact hb
    · rw [bind_error htake] at h
      cases h
  | some w =>
    let b₁ : Boundary Ω := { b with call := { b.call with args := b.call.args.set i .undefined } }
    have htake : (Act.takeArg i : Act Ω Wire) b = .ok w b₁ := by
      unfold Act.takeArg
      rw [hw]
    have hshallow : b₁.Shallow n := fun v hv => by
      rcases List.mem_or_eq_of_mem_set hv with hv | rfl
      · exact hb v hv
      · exact Nat.zero_le n
    obtain ⟨hsame, hshallow', hends⟩ := hf w (hb w (List.mem_of_getElem? hw)) b₁ hshallow
    refine ⟨?_, ?_, fun b' h => hends b' ((Act.bind_ok htake).symm.trans h)⟩
    · rw [Act.bind_ok htake, Act.bind_ok htake, hsame]
    · rw [final_bind_ok htake]
      exact hshallow'

end Act

theorem Convert.inward_depth (n : Nat) : Convert.Inward fun _ w => w.depth ≤ n where
  vector := fun _ ws h w hw => (Environment.depth_le_of_mem hw).trans (Nat.le_of_succ_le (by rwa [Wire.depth] at h))
  array := fun _ _ ws h w hw => (Environment.depth_le_of_mem hw).trans (Nat.le_of_succ_le (by rwa [Wire.depth] at h))
  optional := fun _ _ h => h
  result := fun _ _ h => h

variable (Ω) in
omit [ObjectModel Ω] in
/-- Conversions of what nests at most `n` deep, in a call whose arguments nest at most `m` deep. -/
theorem Act.congruence_coincide (m n : Nat) :
    Act.Congruence (fun _ w => w.depth ≤ n) fun {α} (x y : Act Ω α) => Coincide m x y where
  inward := Convert.inward_depth n
  loc := fun h => h.coincide m
  bind := fun hx hf b hb => (hx b hb).bind hf
  ensuring := .ensuring
  onFailure := .onFailure

variable (Ω) in
omit [ObjectModel Ω] in
theorem Act.congruence_coincide_calls (n : Nat) (params : List NativeType) :
    Act.Congruence.OfCalls (fun _ w => w.depth ≤ n) params fun {α} (x y : Act Ω α) => Coincide n x y where
  toCongruence := congruence_coincide Ω n n
  atArgument := fun i h => h.atArgument i
  takeArg := fun _ hf => .takeArg hf

/-! ## Native code that comes to an end -/

/-- Every function of the host comes to an end. -/
def HostBehaviour.Ends (host : HostBehaviour) : Prop :=
  ∀ f ws journal, (host f ws journal).1 ≠ .error .nesting

omit [ObjectModel Ω] in
theorem Body.exec_ends {ρ : Type} {host : HostBehaviour} (hhost : host.Ends) :
    ∀ (body : Body Ω ρ α) (s : Stage Ω ρ), (body.exec host s).1 ≠ .error .nesting
  | .done _, _ | .panic _, _ => nofun
  | .act _ next, s => exec_ends hhost (next _) _
  | .call c args next, s => by
    have hanswer := hhost c.function args s.journal
    unfold exec
    split
    · exact exec_ends hhost (next _) _
    · exact exec_ends hhost (next _) _
    · rename_i i journal _ h
      rw [h] at hanswer
      rintro hnesting
      cases hnesting
      exact hanswer rfl

namespace Entry
variable {n : Nat} {sv : Services Ω} {construct : Class → List Wire → Act Ω Pointer}

omit [ObjectModel Ω] in
theorem coincide_harvest {ρ : Type} (refs : α → List Address) {ended : Body.Ended ρ α} (h : ended.outcome ≠ .error .nesting) :
    Coincide n (harvest refs ended : Act Ω α) (harvest refs ended) := by
  unfold harvest
  cases hended : ended.outcome with
  | ok x => exact ((Local.pure x).bind fun x => .bind (.retain _) fun _ => .pure _).coincide n
  | error i =>
    rw [hended] at h
    exact fun b hb => ⟨rfl, hb, fun b' hnesting => by cases hnesting; exact h rfl⟩

theorem coincide_runFree (hhost : sv.host.Ends) (refs : α → List Address) (held : List Address) (body : Body Ω Unit α) :
    Coincide n (runFree sv refs held body) (runFree sv refs held body) := by
  intro b hb
  have hends := body.exec_ends hhost ⟨⟨(), b.heap, b.program, []⟩, b.sinks, b.journal⟩
  cases hexec : body.exec sv.host ⟨⟨(), b.heap, b.program, []⟩, b.sinks, b.journal⟩ with
  | mk outcome s =>
    rw [hexec] at hends
    let b₁ : Boundary Ω :=
      { b with heap := s.scene.heap, program := s.scene.program, sinks := s.sinks, journal := s.journal }
    have hrun : Body.run sv.host () body b = .ok ⟨outcome, s.scene.receiver, s.scene.fresh⟩ b₁ := by
      unfold Body.run
      dsimp only
      rw [hexec]
    let ended : Body.Ended Unit α := ⟨outcome, s.scene.receiver, s.scene.fresh⟩
    have hharvest : Coincide n (harvest refs ended : Act Ω α) (harvest refs ended) := coincide_harvest refs hends
    obtain ⟨-, hshallow, hends⟩ := (congruence_coincide Ω n 0).thenDrop hharvest (s.scene.fresh ++ held) b₁ hb
    refine ⟨rfl, ?_, fun b' h => hends b' ((Act.bind_ok hrun).symm.trans h)⟩
    unfold runFree
    rw [final_bind_ok hrun]
    exact hshallow

theorem coincide_setResult (w : Wire) : Coincide n (Act.setResult w : Act Ω Unit) (Act.setResult w) :=
  fun _ hb => ⟨rfl, hb, nofun⟩

/-- A constructor that is run on values whose import coincides. -/
theorem coincide_constructor {e : Entry Ω} (he : e.isConstructor = true) (hhost : sv.host.Ends)
    (himport : ∀ c w, w.depth ≤ n →
      Coincide n (Convert.importValue sv c w) (Convert.importValue (sv.constructing construct) c w)) :
    Coincide n (e.run sv) (e.run (sv.constructing construct)) := by
  cases e with
  | constructor k params body =>
    have hR := congruence_coincide_calls Ω n params
    exact hR.bind (related_arguments hR construct himport _) fun xs =>
      hR.bind (coincide_runFree hhost _ _ _) fun x => hR.bind (hR.loc (.newObject x)) fun p =>
        coincide_setResult _
  | function params ret body | method c params ret body | methodMut c params ret body => cases he

end Entry

theorem HostBinding.emits_record {name : String} {w : Wire} {fields : List Wire}
    (h : (HostBinding.record.read name w).Emits fields) : w.fieldsFor? name = some fields := by
  cases w with
  | array ws =>
    cases h with
    | first => rfl
    | later h => cases h
  | record cls ws =>
    change (if cls = name then _ else _ : ImportScript).Emits fields at h
    split at h
    · rename_i hcls
      cases h with
      | first => exact if_pos hcls
      | later h => cases h
    · cases h
  | _ => cases h

/-! ## Constructors without a bound -/

namespace Environment
variable {env : Environment Ω}

/-- The way in which constructors run when those that are nested more than `depth` deep run in the way `deeper`. -/
def constructOver (env : Environment Ω) (deeper : Class → List Wire → Act Ω Pointer) :
    Nat → Class → List Wire → Act Ω Pointer
  | 0 => deeper
  | depth + 1 => env.constructNested fun _ => env.servicesWith (env.constructOver deeper depth)

/-- What the engine does with constructors that are nested more deeply than they may be. -/
def tooDeep (_ : Class) (args : List Wire) : Act Ω Pointer :=
  (throw .nesting : Act Ω Pointer).orDrop (Wire.refsAll args)

theorem services_over (env : Environment Ω) : ∀ n, env.services n = env.servicesWith (env.constructOver tooDeep n)
  | 0 => rfl
  | n + 1 => by
    unfold services constructOver
    rw [services_over env n]

/-- The two ways of running constructors are the same on fields that nest less than `n` deep, and come to an end there. -/
structure SameBelow (n : Nat) (k k' : Class → List Wire → Act Ω Pointer) : Prop where
  same : ∀ c fields, Wire.depthAll fields < n → k' c fields = k c fields
  ends : ∀ c fields, Wire.depthAll fields < n → ∀ b b', k c fields b ≠ .error .nesting b'
  call : ∀ c fields, Wire.depthAll fields < n → (k c fields).Fixes (·.call)

variable {n : Nat} {k k' : Class → List Wire → Act Ω Pointer}

omit [ObjectModel Ω] in
theorem SameBelow.coincide (h : SameBelow n k k') {c : Class} {fields : List Wire} (hfields : Wire.depthAll fields < n)
    (m : Nat) : Coincide m (k c fields) (k' c fields) := fun b hb => by
  refine ⟨by rw [h.same c fields hfields], ?_, h.ends c fields hfields b⟩
  have hcall : ((k c fields).final b).call = b.call := h.call c fields hfields b
  unfold Boundary.Shallow
  rw [hcall]
  exact hb

section
variable (hrecords : env.RecordBindings)
include hrecords

theorem SameBelow.importValue (h : SameBelow n k k') (m : Nat) (c : Class) (w : Wire) (hw : w.depth ≤ n) :
    Coincide m (Convert.importValue (env.servicesWith k) c w) (Convert.importValue (env.servicesWith k') c w) := by
  refine (congruence_coincide Ω m n).compositional.importValue_emitting k' .attempt c w fun binding fields hread hemits => ?_
  obtain rfl := hrecords c binding hread
  have hdepth := depth_fieldsFor (HostBinding.emits_record hemits)
  exact h.coincide (by omega) m

theorem SameBelow.fromWire (h : SameBelow n k k') (m : Nat) (t : NativeType) (w : Wire) (hw : w.depth ≤ n) :
    Coincide m (Convert.fromWire (env.servicesWith k) t w) (Convert.fromWire (env.servicesWith k') t w) :=
  Convert.related_fromWire (congruence_coincide Ω m n) k' (fun c w hw => h.importValue hrecords m c w hw) t w hw

end

section
variable {services : Nat → Services Ω} {b : Boundary Ω}

theorem finish_ends {code : Code Ω} (h : ∀ b', code.run services b ≠ .error .nesting b') (b' : Boundary Ω) :
    env.finish services code b ≠ .error .nesting b' := by
  intro hnesting
  have hfinishes := env.finishes services code b
  generalize env.finish services code b = r at hfinishes hnesting
  cases hfinishes with
  | ran | caught =>
    obtain ⟨e, he⟩ := report_error hnesting
    cases he
  | escaped hrun =>
    cases hnesting
    exact h b' hrun

end

/-! ## One level of nesting -/

theorem inCall_at {x y : Act Ω α} {context : CallContext} {b : Boundary Ω}
    (h : x { b with call := context } = y { b with call := context }) : x.inCall context b = y.inCall context b := by
  unfold Act.inCall Act.ensuring
  rw [h]

section
variable (henv : env.Constructs fun _ => True) (hrecords : env.RecordBindings) (hhost : env.program.host.Ends)
include henv hrecords hhost

/-- The call of a constructor whose arguments nest at most `n` deep asks for constructors on what nests less. -/
theorem SameBelow.dispatch (h : SameBelow n k k') {c : Class} {d : ClassDescriptor (Upcast Ω)}
    (hd : env.registry.class? c = some d) {b : Boundary Ω} (hb : b.Shallow n) :
    env.dispatch (fun _ => env.servicesWith k') d.constructors b = env.dispatch (fun _ => env.servicesWith k) d.constructors b ∧
      ∀ b', env.dispatch (fun _ => env.servicesWith k) d.constructors b ≠ .error .nesting b' := by
  cases hselect : env.select d.constructors b with
  | error e =>
    rw [dispatch_refused hselect, dispatch_refused hselect]
    refine ⟨rfl, fun b' h => ?_⟩
    cases h
  | ok e =>
    obtain ⟨m, ref, s, href, he⟩ := select_entry hselect
    obtain ⟨entry, hcode, hctor, -⟩ := henv c d m ref s e hd href he
    rw [dispatch_selected hselect hcode, dispatch_selected hselect hcode]
    have hrun : Coincide n (entry.run (env.servicesWith k)) (entry.run (env.servicesWith k')) :=
      Entry.coincide_constructor hctor hhost fun c w hw => h.importValue hrecords n c w hw
    obtain ⟨hsame, -, hends⟩ := hrun b hb
    exact ⟨finish_at hsame rfl, finish_ends hends⟩

theorem SameBelow.nested (h : SameBelow n k k') :
    SameBelow (n + 1) (env.constructNested fun _ => env.servicesWith k)
      (env.constructNested fun _ => env.servicesWith k') := by
  have hcases (c : Class) (fields : List Wire) (hdepth : Wire.depthAll fields < n + 1) (b : Boundary Ω) :
      env.constructNested (fun _ => env.servicesWith k') c fields b =
        env.constructNested (fun _ => env.servicesWith k) c fields b ∧
      ∀ b', env.constructNested (fun _ => env.servicesWith k) c fields b ≠ .error .nesting b' := by
    unfold constructNested
    cases hd : (env.registry.class? c).filter (·.declared) with
    | none =>
      refine ⟨rfl, fun b' h => ?_⟩
      cases h
    | some d =>
      obtain ⟨hd, -⟩ := Option.filter_eq_some_iff.mp hd
      let b₀ : Boundary Ω := { b with call := .new fields none b.call.sink }
      have hshallow : b₀.Shallow n := fun w hw => (depth_le_of_mem hw).trans (Nat.le_of_lt_succ hdepth)
      obtain ⟨hsame, hends⟩ := h.dispatch henv hrecords hhost hd hshallow
      dsimp only
      rw [get_bind, get_bind]
      refine ⟨inCall_at (Act.bind_at hsame _), fun b' h => ?_⟩
      obtain ⟨b₁, h, -⟩ := ensuring_eq_error h
      obtain h | ⟨w, b₂, -, h⟩ := bind_eq_error h
      · exact hends b₁ h
      · obtain ⟨e, he⟩ := (local_constructed d.name w).fails _ _ _ h
        cases he
  exact ⟨fun c fields hdepth => funext fun b => (hcases c fields hdepth b).1,
    fun c fields hdepth b => (hcases c fields hdepth b).2, fun c fields _ => env.fixes_constructNested _ c fields⟩

end

/-! ## Any number of levels -/

/-- The constructors nested in one that is run in this way are run in this way, too. -/
def Unbounded (env : Environment Ω) (k : Class → List Wire → Act Ω Pointer) : Prop :=
  k = env.constructNested fun _ => env.servicesWith k

/-- Each constructor is run with as many levels of nesting as its own fields have. -/
def constructFreely (env : Environment Ω) (c : Class) (fields : List Wire) : Act Ω Pointer :=
  env.constructOver tooDeep (Wire.depthAll fields + 1) c fields

omit [ObjectModel Ω] in
theorem sameBelow_zero (k k' : Class → List Wire → Act Ω Pointer) : SameBelow 0 k k' :=
  ⟨fun _ _ h => absurd h (Nat.not_lt_zero _), fun _ _ h => absurd h (Nat.not_lt_zero _),
    fun _ _ h => absurd h (Nat.not_lt_zero _)⟩

section
variable (henv : env.Constructs fun _ => True) (hrecords : env.RecordBindings) (hhost : env.program.host.Ends)
include henv hrecords hhost

theorem sameBelow_over (deeper deeper' : Class → List Wire → Act Ω Pointer) :
    ∀ n m, n ≤ m → SameBelow n (env.constructOver deeper n) (env.constructOver deeper' m)
  | 0, _, _ => sameBelow_zero _ _
  | n + 1, m + 1, h =>
    (sameBelow_over deeper deeper' n m (Nat.le_of_succ_le_succ h)).nested henv hrecords hhost

theorem sameBelow_freely (deeper : Class → List Wire → Act Ω Pointer) (n : Nat) :
    SameBelow n (env.constructOver deeper n) env.constructFreely := by
  have hends := sameBelow_over henv hrecords hhost deeper deeper n n (Nat.le_refl n)
  refine ⟨fun c fields h => ?_, hends.ends, hends.call⟩
  have hless := sameBelow_over henv hrecords hhost tooDeep deeper (Wire.depthAll fields + 1) n h
  exact (hless.same c fields (Nat.lt_succ_self _)).symm

theorem unbounded_freely : env.Unbounded env.constructFreely := by
  funext c fields
  have h := (sameBelow_freely henv hrecords hhost tooDeep (Wire.depthAll fields)).nested henv hrecords hhost
  exact (h.same c fields (Nat.lt_succ_self _)).symm

theorem Unbounded.sameBelow (hk : env.Unbounded k) (hk' : env.Unbounded k') : ∀ n, SameBelow n k k'
  | 0 => sameBelow_zero _ _
  | n + 1 => by
    have h := (sameBelow hk hk' n).nested henv hrecords hhost
    rwa [← hk, ← hk'] at h

theorem Unbounded.eq_freely (hk : env.Unbounded k) : k = env.constructFreely := by
  funext c fields
  have h := (unbounded_freely henv hrecords hhost).sameBelow henv hrecords hhost hk (Wire.depthAll fields + 1)
  exact h.same c fields (Nat.lt_succ_self _)

/-- **The import of values comes to an end.** There is exactly one way in which constructors can run without a bound on
how deep they nest. No conversion with it is cut short, and however the constructors were run that are nested in one
another more deeply than arrays and records are in the value, the conversion were the same: none are. The engine's
conversion is this one. -/
theorem imports_end : ∃ k, env.Unbounded k ∧ (∀ k', env.Unbounded k' → k' = k) ∧ ∀ (t : NativeType) (w : Wire),
    (∀ b b', Convert.fromWire (env.servicesWith k) t w b ≠ .error .nesting b') ∧
    (∀ deeper n, w.depth ≤ n →
      Convert.fromWire (env.servicesWith (env.constructOver deeper n)) t w = Convert.fromWire (env.servicesWith k) t w) ∧
    env.fromWire t w = aside [w] (Entry.arg (env.servicesWith k) t 0) ∧
    ∀ b b', env.fromWire t w b ≠ .error .nesting b' := by
  refine ⟨env.constructFreely, unbounded_freely henv hrecords hhost, fun k' hk' => hk'.eq_freely henv hrecords hhost,
    fun t w => ?_⟩
  have hshallow (b : Boundary Ω) : b.Shallow (Wire.depthAll b.call.args) := fun _ hw => depth_le_of_mem hw
  have hfree := (unbounded_freely henv hrecords hhost).sameBelow henv hrecords hhost (unbounded_freely henv hrecords hhost)
  have hcoincide (b : Boundary Ω) := (hfree w.depth).fromWire hrecords _ t w (Nat.le_refl _) b (hshallow b)
  have hsame (deeper : Class → List Wire → Act Ω Pointer) (n : Nat) (hn : w.depth ≤ n) :
      Convert.fromWire (env.servicesWith (env.constructOver deeper n)) t w =
        Convert.fromWire (env.servicesWith env.constructFreely) t w := funext fun b =>
    ((sameBelow_freely henv hrecords hhost deeper n).fromWire hrecords _ t w hn b (hshallow b)).same.symm
  have hengine : env.fromWire t w = aside [w] (Entry.arg (env.servicesWith env.constructFreely) t 0) := by
    funext b
    rw [fromWire, aside_arg, aside_arg, services_over, hsame tooDeep w.depth (Nat.le_refl _)]
  refine ⟨fun b => (hcoincide b).ends, hsame, hengine, fun b b' h => ?_⟩
  rw [hengine, aside_arg] at h
  obtain ⟨b₁, h, -⟩ := ensuring_eq_error h
  have hfirst : Coincide 0 _ _ := ((hfree w.depth).fromWire hrecords 0 t w (Nat.le_refl _)).atArgument 0
  exact (hfirst (entering b none [.undefined]) fun v hv => (List.mem_singleton.mp hv ▸ Nat.zero_le 0)).ends b₁ h

end

/-! ## Points that are made of points -/

open Catalog

/-- The point that a conversion gives. -/
def pointOf : EStateM.Result Interrupt (Boundary Specimen) (Instance Specimen Species.point.cls) → Option Point
  | .ok x _ => some x.object.asPoint
  | .error _ _ => none

theorem points_constructs : points.Constructs fun _ => True := by
  rw [points_eq]
  refine constructs_opened fun s hs e he => ?_
  rcases List.mem_cons.mp hs with rfl | hs
  · rw [List.mem_singleton.mp he]
    exact ⟨pointOfPoint, rfl, rfl, fun _ _ => trivial⟩
  · rw [List.mem_singleton.mp hs] at he
    rw [List.mem_singleton.mp he]
    exact ⟨pointOfXY, rfl, rfl, fun _ _ => trivial⟩

/-- A point that is read as the copy of one read from its coordinates: the constructor from a point asks for another
point, and with the coordinates this ends. -/
theorem points_imports_end : ∃ k, points.Unbounded k ∧
    pointOf (Convert.fromWire (points.servicesWith k) (.object Species.point.cls) (.array [.array [.int 1, .int 2]])
      .empty) = some ⟨1, 2⟩ := by
  have hrecords : points.RecordBindings := by
    rw [points_eq]
    exact recordBindings_opened
  have hhost : points.program.host.Ends := by
    rw [points_eq]
    exact fun _ _ _ => nofun
  obtain ⟨k, hk, -, himport⟩ := imports_end points_constructs hrecords hhost
  obtain ⟨-, hsame, -, -⟩ := himport (.object Species.point.cls) (.array [.array [.int 1, .int 2]])
  refine ⟨k, hk, ?_⟩
  rw [← hsame tooDeep 2 (Nat.le_refl 2), ← services_over, points_eq]
  generalize pointRegistry .none [pointOfPoint, pointOfXY] = r
  change pointOf (Convert.importValue ((opened r _ _).services 2) Species.point.cls
    (.array [.array [.int 1, .int 2]]) .empty) = _
  cbv

end Environment
end NativeBridge
