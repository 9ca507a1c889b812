import NativeBridge.Proofs.Call.Sinks
import NativeBridge.Proofs.Engine.Dispatch
import NativeBridge.Proofs.Engine.Points
/-!
# The first error of a call

A call reports the first error that its native code's callbacks left in its sink, whatever the native code makes of it.
Constructors that are run for a conversion share that sink, and each of them takes out of it what it holds when it is
over. So a typed entry, all of whose conversions from the boundary are over when its native code starts, loses no error;
native code that converts arguments on its own loses it to the next conversion that runs a constructor
(`Environment.first_error`).
-/
namespace NativeBridge
variable {Ω : Type} [ObjectModel Ω] {α β : Type}

open Act

omit [ObjectModel Ω] in
theorem Act.attempt_ne_error (act : Act Ω α) (e : CallError) (b b' : Boundary Ω) : act.attempt b ≠ .error (.error e) b' := by
  unfold Act.attempt
  cases act b with
  | ok a b₁ => exact fun h => nomatch h
  | error j b₁ => cases j <;> exact fun h => nomatch h

/-! ## Native code with free access to its call -/

/-- Native code that goes on with whatever its callbacks and conversions give. It may record errors of its own, but takes
none out of a sink. -/
inductive Native (Ω : Type) [ObjectModel Ω] where
  | done
  | fail (e : CallError)
  | panic (p : Panic)
  /-- Change what is not a sink, and go on with the state that this gives. -/
  | act (change : Boundary Ω → Boundary Ω) (apart : ∀ b, (change b).errors = b.errors) (next : Boundary Ω → Native Ω)
  | record (e : CallError) (next : Native Ω)
  | call (callback : Callback) (args : List Wire) (next : Except CallError Wire → Native Ω)
  /-- Convert a value, running constructors that nest at most `depth` deep. -/
  | convert (depth : Nat) (t : NativeType) (w : Wire) (next : Except CallError (t.Value Ω) → Native Ω)

namespace Native

def run (services : Nat → Services Ω) : Native Ω → Act Ω Unit
  | .done => pure ()
  | .fail e => Act.fail e
  | .panic p => throw (.panic p)
  | .act change _ next => do
    modify change
    (next (← get)).run services
  | .record e next => do
    Act.record e
    next.run services
  | .call c args next => do (next (← c.invoke (services 0).host args)).run services
  | .convert depth t w next => do (next (← (Convert.fromWire (services depth) t w).attempt)).run services

/-- Take an argument and convert it. -/
def arg (i : Nat) (t : NativeType) (next : Except CallError (t.Value Ω) → Native Ω) : Native Ω :=
  .act id (fun _ => rfl) fun b =>
    match b.call.args[i]? with
    | none => next (.error (.mismatch ("argument " ++ toString i) (toString b.call.args.length ++ " argument(s)")))
    | some w =>
      .act (fun b => { b with call := { b.call with args := b.call.args.set i .undefined } }) (fun _ => rfl) fun _ =>
        .convert (Wire.depthAll b.call.args) t w fun r => next (r.mapError (·.atArgument i))

/-- The run comes from one point to another. -/
inductive Reaches (services : Nat → Services Ω) : Native Ω → Boundary Ω → Native Ω → Boundary Ω → Prop
  | refl (n b) : Reaches services n b n b
  | act {change apart next b n' b'} : Reaches services (next (change b)) (change b) n' b' →
      Reaches services (.act change apart next) b n' b'
  | record {e next b n' b'} : Reaches services next { b with sinks := recordIn b.sinks b.call.sink e } n' b' →
      Reaches services (.record e next) b n' b'
  | call {c args next b r b₁ n' b'} : c.invoke (services 0).host args b = .ok r b₁ →
      Reaches services (next r) b₁ n' b' → Reaches services (.call c args next) b n' b'
  | convert {depth t w next b r b₁ n' b'} : (Convert.fromWire (services depth) t w).attempt b = .ok r b₁ →
      Reaches services (next r) b₁ n' b' → Reaches services (.convert depth t w next) b n' b'

theorem Reaches.run {services : Nat → Services Ω} {n n' : Native Ω} {b b' : Boundary Ω}
    (h : Reaches services n b n' b') : n.run services b = n'.run services b' := by
  induction h with
  | refl => rfl
  | act _ ih => exact ih
  | record _ ih => exact ih
  | call hr _ ih => exact (Act.bind_ok hr).trans ih
  | convert hr _ ih => exact (Act.bind_ok hr).trans ih

end Native

/-! ## Callbacks -/

namespace Callback
variable {host : HostBehaviour} {c : Callback} {args : List Wire} {b b' : Boundary Ω} {k : SinkId} {e : CallError}

theorem final_invoke (host : HostBehaviour) (c : Callback) (args : List Wire) (b : Boundary Ω) :
    ((c.invoke host args).final b).errors = (b.call.sink,
      ((Body.invoke c args : Body Ω Unit _).exec host ⟨⟨(), b.heap, b.program, []⟩, b.sinks, b.journal⟩).2.sinks) := by
  unfold invoke
  rw [final_bind_ok (show Body.run host () (Body.invoke c args) b = .ok _ _ from rfl)]
  refine (Fixes.ensuring ?_ ?_ : Fixes Boundary.errors _) _
  · refine .bind (fixes_ofOutcome _) fun r => ?_
    cases r <;> exact fun _ => rfl
  · exact fun _ => rfl

theorem held_invoke (host : HostBehaviour) (c : Callback) (args : List Wire) (hb : b.Holds k (some e)) :
    ((c.invoke host args).final b).Holds k (some e) := by
  obtain ⟨hsink, hsinks⟩ := Prod.mk.inj (final_invoke host c args b)
  refine ⟨hsink.trans hb.1, ?_⟩
  rw [hsinks]
  exact Body.exec_held host _ _ hb.2

/-- The error of a callback that is scoped to the call is in the sink, if none was there. -/
theorem held_of_fails (hc : c.sink = some k) (hb : b.Holds k none)
    (hfails : c.invoke host args b = .ok (.error e) b') : b'.Holds k (some e) := by
  obtain ⟨hsink, hsinks⟩ := Prod.mk.inj (final_invoke host c args b)
  rw [final_ok hfails] at hsink hsinks
  refine ⟨hsink.trans hb.1, ?_⟩
  rw [hsinks, Body.exec_firstError host _ _ hb.2]
  have hanswer : (host c.function args b.journal).1 = .error (.error e) := by
    unfold invoke at hfails
    obtain ⟨ended, b₁, hended, hfails⟩ := Act.bind_eq_ok hfails
    obtain ⟨b₂, hfails, -⟩ := ensuring_eq_ok hfails
    obtain ⟨r, b₃, hr, hfails⟩ := Act.bind_eq_ok hfails
    cases hended
    unfold Body.invoke Body.exec at hr
    cases hhost : host c.function args b.journal with
    | mk answer journal =>
      rw [hhost] at hr
      rcases answer with (e' | _ | _) | w
      · cases hr
        cases hfails
        rfl
      · cases hr
      · cases hr
      · cases hr
        cases hfails
  unfold Body.invoke Body.firstError
  cases hhost : host c.function args b.journal with
  | mk answer journal =>
    rw [hhost] at hanswer
    dsimp only at hanswer
    subst hanswer
    exact congrArg some (if_pos hc)

end Callback

/-! ## Constructors that are run for a conversion -/

/-- The sink of the call in progress, and the number of sinks. -/
def Boundary.extent (b : Boundary Ω) : SinkId × Nat :=
  (b.call.sink, b.sinks.length)

omit [ObjectModel Ω] in
theorem extent_level (b b' : Boundary Ω) (h : Level b b') : b'.extent = b.extent := by
  unfold Boundary.extent
  rw [h.1, h.2]

omit [ObjectModel Ω] in
theorem Act.Fixes.extent {act : Act Ω α} (h : act.Fixes Boundary.errors) : act.Fixes Boundary.extent := fun b => by
  obtain ⟨hsink, hsinks⟩ := Prod.mk.inj (h b)
  exact Prod.ext hsink (congrArg List.length hsinks)

omit [ObjectModel Ω] in
theorem Body.fixes_run {ρ : Type} (host : HostBehaviour) (receiver : ρ) (body : Body Ω ρ α) :
    (Body.run host receiver body).Fixes Boundary.extent := fun b =>
  Prod.ext rfl (body.exec_sinks host ⟨⟨receiver, b.heap, b.program, []⟩, b.sinks, b.journal⟩)

theorem Entry.fixes_run {sv : Services Ω} (hconstruct : ∀ c args, (sv.construct c args).Fixes Boundary.extent)
    (e : Entry Ω) : (e.run sv).Fixes Boundary.extent := by
  have hR : Act.Congruence.OfCalls (fun _ _ => True) e.params fun {α} (x _ : Act Ω α) => x.Fixes Boundary.extent :=
    { congruence_fixes extent_level with
      atArgument := fun i h => h.atArgument i
      takeArg := fun _ h => .bind (fixes_takeArg _).extent fun w => h w trivial }
  have hbegin : (e.begin sv).Fixes Boundary.extent := by
    refine .bind (related_arguments hR sv.construct (fun c w _ => ?_) _) fun xs => ?_
    · exact Convert.related_importValue hR.toCongruence sv.construct .attempt hconstruct c w
    · exact .bind (.orDrop extent_level ((local_grasp e).fixes extent_level) _) fun _ => fun _ => rfl
  rw [run_phases]
  exact hbegin.bind fun s => .bind (Body.fixes_run _ _ _) fun ended => (fixes_finish sv e s ended).extent

theorem Callback.fixes_invoke (host : HostBehaviour) (c : Callback) (args : List Wire) :
    (c.invoke host args : Act Ω _).Fixes Boundary.extent := fun b => by
  obtain ⟨hsink, hsinks⟩ := Prod.mk.inj (final_invoke host c args b)
  refine Prod.ext hsink ((congrArg List.length hsinks).trans ?_)
  exact Body.exec_sinks host _ _

namespace Environment
variable {env : Environment Ω} {services : Nat → Services Ω} {code : Code Ω} {b b' : Boundary Ω} {k : SinkId} {e : CallError}

/-- The call fails with this error, unless it is cut short. -/
def Reports (catching : Bool) (e : CallError) : EStateM.Result Interrupt (Boundary Ω) α → Prop
  | .ok _ _ => False
  | .error i _ => i = .error e ∨ i.escapes catching = true

/-- What is in the sink when the native code of a call is over is what the call reports. -/
theorem finish_held (h : Leaves (env.config.isOn .catchNativePanics) k (some e) (code.run services b)) :
    Reports (env.config.isOn .catchNativePanics) e (env.finish services code b) := by
  have hfinishes := env.finishes services code b
  generalize env.finish services code b = r at hfinishes ⊢
  cases hfinishes with
  | ran hrun =>
    rw [hrun] at h
    rw [report_held h]
    exact .inl rfl
  | @caught i b' hrun hi x =>
    rw [hrun] at h
    have hheld : ({ b' with sinks := recordIn b'.sinks b'.call.sink x } : Boundary Ω).Holds k (some e) :=
      ⟨(h hi).1, recordIn_held (h hi).2 _ x⟩
    rw [report_held hheld]
    exact .inl rfl
  | escaped _ hi => exact .inr hi

omit [ObjectModel Ω] in
theorem leaves_report {catching : Bool} (hsink : b.call.sink = k) (hk : k < b.sinks.length) :
    Leaves catching k none (report b) := by
  have hempty (r : Wire) : ({ b with sinks := b.sinks.set b.call.sink none, call := { b.call with result := r } } :
      Boundary Ω).Holds k none := by
    refine ⟨hsink, ?_⟩
    rw [hsink]
    exact List.getElem?_set_self hk
  rw [report_eq]
  cases b.errorIn b.call.sink with
  | some e => exact fun _ => hempty b.call.result
  | none => exact hempty .undefined

/-- A call empties its sink when it is over. -/
theorem leaves_finish (hcode : (code.run services).Fixes Boundary.extent) (hsink : b.call.sink = k)
    (hk : k < b.sinks.length) : Leaves (env.config.isOn .catchNativePanics) k none (env.finish services code b) := by
  obtain ⟨hsink', hlength⟩ := Prod.mk.inj (hcode b)
  have hfinishes := env.finishes services code b
  generalize env.finish services code b = r at hfinishes ⊢
  cases hfinishes with
  | ran hrun =>
    rw [final_ok hrun] at hsink' hlength
    exact leaves_report (hsink'.trans hsink) (hlength ▸ hk)
  | @caught i b' hrun hi x =>
    rw [final_error hrun] at hsink' hlength
    refine leaves_report (b := { b' with sinks := recordIn b'.sinks b'.call.sink x }) (hsink'.trans hsink) ?_
    exact (List.length_modify _ _ _).trans hlength ▸ hk
  | escaped _ hi => exact fun hfalse => nomatch hi.symm.trans hfalse

omit [ObjectModel Ω] in
theorem fixes_extent_report : (report : Act Ω Wire).Fixes Boundary.extent := fun b => by
  unfold Act.final
  rw [report_eq]
  cases b.errorIn b.call.sink <;> exact Prod.ext rfl List.length_set

theorem fixes_finish (hcode : (code.run services).Fixes Boundary.extent) :
    (env.finish services code).Fixes Boundary.extent := fun b => by
  have hextent := hcode b
  unfold Act.final
  have hfinishes := env.finishes services code b
  generalize env.finish services code b = r at hfinishes ⊢
  cases hfinishes with
  | @ran b' hrun =>
    rw [final_ok hrun] at hextent
    exact (fixes_extent_report b').trans hextent
  | @caught i b' hrun hi x =>
    rw [final_error hrun] at hextent
    refine (fixes_extent_report { b' with sinks := recordIn b'.sinks b'.call.sink x }).trans (Eq.trans ?_ hextent)
    exact Prod.ext rfl (List.length_modify _ _ _)
  | escaped hrun =>
    rw [final_error hrun] at hextent
    exact hextent

section
variable (henv : env.Constructs fun _ => True)
include henv

/-- What runs when a class is constructed leaves the call and the number of sinks as they are. -/
theorem fixes_selected {d : ClassDescriptor (Upcast Ω)} {c : Class} (hd : env.registry.class? c = some d) {sv : Services Ω}
    (hconstruct : ∀ c args, (sv.construct c args).Fixes Boundary.extent) {entry : SignatureEntry (Code Ω)}
    (hselect : env.select d.constructors b = .ok entry) : (entry.code.run fun _ => sv).Fixes Boundary.extent := by
  obtain ⟨n, ref, s, href, hentry⟩ := select_entry hselect
  obtain ⟨typed, hcode, -, -⟩ := henv c d n ref s entry hd href hentry
  rw [hcode]
  exact .bind (fun _ => rfl) fun _ => typed.fixes_run hconstruct

theorem fixes_extent_construct : ∀ depth c args, ((env.services depth).construct c args).Fixes Boundary.extent
  | 0, _, _ => fun _ => rfl
  | depth + 1, c, args => by
    change (env.constructNested (fun _ => env.services depth) c args).Fixes Boundary.extent
    unfold constructNested
    split
    · exact fun _ => rfl
    rename_i d hd
    obtain ⟨hd, -⟩ := Option.filter_eq_some_iff.mp hd
    have hinner : (do constructed d.name (← env.dispatch (fun _ => env.services depth) d.constructors) :
        Act Ω Pointer).Fixes Boundary.extent := by
      refine .bind (fun b => ?_) fun w => (local_constructed d.name w).fixes extent_level
      unfold Act.final
      rw [dispatch_eq]
      cases hselect : env.select d.constructors b with
      | error x => rfl
      | ok entry => exact fixes_finish (fixes_selected henv hd (fixes_extent_construct depth) hselect) b
    refine .bind (fun _ => rfl) fun b b' => ?_
    change Boundary.extent (Act.final (Act.ensuring _ _) _) = _
    rw [final_ensuring]
    exact Prod.ext rfl (Prod.mk.inj (hinner { b' with call := .new args none b.call.sink })).2

end

/-- Refuse as the constructor of a class does. Where its native code would run, be cut short instead. -/
def stopAtCode (env : Environment Ω) (c : Class) (args : List Wire) : Act Ω Pointer :=
  match (env.registry.class? c).filter (·.declared) with
  | none => (Act.fail (.unknownEntry c.qualified)).orDrop (Wire.refsAll args)
  | some d => do
    let sink := (← get).call.sink
    Act.inCall (.new args none sink) do
      let _ ← Act.ofExcept (env.select d.constructors (← get))
      throw .nesting

/-- The engine as conversions see it, with no native code of a constructor ever run. -/
def barred (env : Environment Ω) : Nat → Services Ω
  | 0 => env.services 0
  | depth + 1 => (env.services (depth + 1)).constructing env.stopAtCode

theorem barred_eq (env : Environment Ω) :
    ∀ depth, env.barred depth = (env.services depth).constructing (env.barred depth).construct
  | 0 => rfl
  | _ + 1 => rfl

/-- Two actions stay coupled when each is run in a call of its own that shares the sink. -/
theorem coupled_inCall {catching : Bool} {x y : Act Ω α} (h : Coupled catching x y) (args : List Wire) :
    Coupled catching (do
      let sink := (← get).call.sink
      Act.inCall (.new args none sink) x) (do
      let sink := (← get).call.sink
      Act.inCall (.new args none sink) y) := by
  let inner (b : Boundary Ω) : Boundary Ω := { b with call := .new args none b.call.sink }
  let restore (b b' : Boundary Ω) : Boundary Ω := { b'.drop b'.call.refs with call := b.call }
  have hrestore {b b' : Boundary Ω} {k : SinkId} {held : Option CallError} (hb : b.call.sink = k) (hb' : b'.Holds k held) :
      (restore b b').Holds k held := ⟨hb, hb'.2⟩
  refine ⟨fun k b hb => (h.empty k (inner b) hb).ensuring fun b' => hrestore hb.1, fun k e b hb => ?_⟩
  change ((y.ensuring (restore b)) (inner b) = (x.ensuring (restore b)) (inner b) ∧ _) ∨
    ((∃ b', (y.ensuring (restore b)) (inner b) = .error .nesting b') ∧ _)
  rcases h.held k e (inner b) hb with ⟨hsame, hleaves⟩ | ⟨⟨b', hcut⟩, hleaves⟩
  · refine .inl ⟨?_, hleaves.ensuring fun b' => hrestore hb.1⟩
    rw [Act.ensuring, Act.ensuring, hsame]
  · refine .inr ⟨⟨restore b b', ?_⟩, hleaves.ensuring fun b' => hrestore hb.1⟩
    rw [Act.ensuring, hcut]

/-- An error in the sink is taken out of it exactly by a constructor whose native code runs. -/
theorem coupled_construct (henv : env.Constructs fun _ => True) : ∀ depth c args,
    Coupled (env.config.isOn .catchNativePanics) ((env.services depth).construct c args)
      ((env.barred depth).construct c args)
  | 0, _, _ => .refl fun _ => rfl
  | depth + 1, c, args => by
    change Coupled _ (env.constructNested (fun _ => env.services depth) c args) (env.stopAtCode c args)
    unfold constructNested stopAtCode
    cases hd : (env.registry.class? c).filter (·.declared) with
    | none => exact .refl (Fixes.orDrop errors_level ((Local.fail _).fixes errors_level) _)
    | some d =>
    obtain ⟨hd, -⟩ := Option.filter_eq_some_iff.mp hd
    -- either both refuse the call alike, or the second is cut short where the first runs the code and reports
    have hrun {b : Boundary Ω} {k : SinkId} {held : Option CallError} {entry : SignatureEntry (Code Ω)}
        (hb : b.Holds k held) (hselect : env.select d.constructors b = .ok entry) :
        Leaves (env.config.isOn .catchNativePanics) k none
          ((do constructed d.name (← env.dispatch (fun _ => env.services depth) d.constructors) : Act Ω Pointer) b) := by
      refine .bind ?_ fun w b' _ hb' => ((local_constructed d.name w).fixes errors_level).leaves hb'
      rw [dispatch_eq, hselect]
      exact leaves_finish (fixes_selected henv hd (fixes_extent_construct henv depth) hselect) hb.1
        (List.getElem?_eq_some_iff.mp hb.2).1
    have hrefuse {b : Boundary Ω} {x : CallError} (hselect : env.select d.constructors b = .error x) :
        (do constructed d.name (← env.dispatch (fun _ => env.services depth) d.constructors) : Act Ω Pointer) b =
          .error (.error x) b :=
      bind_error (dispatch_refused hselect)
    refine coupled_inCall ⟨fun k b hb => ?_, fun k e b hb => ?_⟩ args
    · cases hselect : env.select d.constructors b with
      | error x =>
        rw [hrefuse hselect]
        exact fun _ => hb
      | ok entry => exact hrun hb hselect
    · have hstop : (do
          let _ ← Act.ofExcept (env.select d.constructors (← get))
          throw .nesting : Act Ω Pointer) b = (do
          let _ ← Act.ofExcept (env.select d.constructors b)
          throw .nesting : Act Ω Pointer) b := rfl
      rw [hstop]
      cases hselect : env.select d.constructors b with
      | error x =>
        rw [hrefuse hselect]
        exact .inl ⟨rfl, fun _ => hb⟩
      | ok entry => exact .inr ⟨⟨b, rfl⟩, hrun hb hselect⟩

/-- The same holds of the conversions that run constructors. -/
theorem coupled_fromWire (henv : env.Constructs fun _ => True) (depth : Nat) (t : NativeType) (w : Wire) :
    Coupled (env.config.isOn .catchNativePanics) (Convert.fromWire (env.services depth) t w)
      (Convert.fromWire (env.barred depth) t w) := by
  have hR := (congruence_coupled (Ω := Ω) (env.config.isOn .catchNativePanics) []).toCongruence
  rw [barred_eq]
  exact Convert.related_fromWire hR _ (fun c w _ =>
    Convert.related_importValue hR _ .attempt (coupled_construct henv depth) c w) t w trivial

theorem surfaces_finish (services : Nat → Services Ω) (code : Code Ω) :
    (env.finish services code).Surfaces (env.config.isOn .catchNativePanics) := by
  intro b i b' hi
  have hfinishes := env.finishes services code b
  generalize env.finish services code b = r at hfinishes hi
  cases hfinishes with
  | ran | caught => exact .inl (report_error hi)
  | escaped _ hj =>
    cases hi
    exact .inr hj

theorem surfaces_construct (env : Environment Ω) : ∀ depth c args,
    ((env.services depth).construct c args).Surfaces (env.config.isOn .catchNativePanics)
  | 0, _, _ => fun b i b' hi => by
    cases hi
    exact .inr rfl
  | depth + 1, c, args => by
    change (env.constructNested (fun _ => env.services depth) c args).Surfaces _
    unfold constructNested
    split
    · exact Local.surfaces (.onFailure (.fail _) fun b => .drop b _)
    rename_i d hd
    have hdispatch : (env.dispatch (fun _ => env.services depth) d.constructors).Surfaces
        (env.config.isOn .catchNativePanics) := fun b i b' hi => by
      rw [dispatch_eq] at hi
      cases hselect : env.select d.constructors b with
      | error x =>
        rw [hselect] at hi
        cases hi
        exact .inl ⟨x, rfl⟩
      | ok entry =>
        rw [hselect] at hi
        exact surfaces_finish _ entry.code b i b' hi
    refine .bind Local.get.surfaces fun b => ?_
    intro b' i b₁ hi
    exact (hdispatch.bind fun w => (local_constructed d.name w).surfaces).ensuring _ i b₁ hi

theorem surfaces_fromWire (env : Environment Ω) (depth : Nat) (t : NativeType) (w : Wire) :
    (Convert.fromWire (env.services depth) t w).Surfaces (env.config.isOn .catchNativePanics) :=
  have hR := Surfaces.congruence (Ω := Ω) (env.config.isOn .catchNativePanics)
  Convert.related_fromWire hR (env.services depth).construct (fun c w _ =>
    Convert.related_importValue hR (env.services depth).construct .attempt (env.surfaces_construct depth) c w) t w trivial

/-- The action was cut short for want of depth. -/
def isNested : EStateM.Result Interrupt (Boundary Ω) α → Bool
  | .error .nesting _ => true
  | _ => false

/-- A conversion runs the native code of a constructor. -/
def runsConstructor (env : Environment Ω) (depth : Nat) (t : NativeType) (w : Wire) (b : Boundary Ω) : Bool :=
  isNested (Convert.fromWire (env.barred depth) t w b)

end Environment

/-! ## Errors that wait to be reported -/

namespace Native
variable {env : Environment Ω} {k : SinkId} {e : CallError}

theorem Reaches.extent (henv : env.Constructs fun _ => True) {n n' : Native Ω} {b b' : Boundary Ω}
    (h : Reaches env.services n b n' b') : b'.extent = b.extent := by
  induction h with
  | refl => rfl
  | act _ ih =>
    rename_i change apart next b n' b' _
    obtain ⟨hsink, hsinks⟩ := Prod.mk.inj (apart b)
    exact ih.trans (Prod.ext hsink (congrArg List.length hsinks))
  | record _ ih => exact ih.trans (Prod.ext rfl (List.length_modify _ _ _))
  | call hr _ ih =>
    rename_i c args next b r b₁ n' b' _
    have hinvoke := Callback.fixes_invoke (Ω := Ω) (env.services 0).host c args b
    rw [final_ok hr] at hinvoke
    exact ih.trans hinvoke
  | convert hr _ ih =>
    rename_i depth t w next b r b₁ n' b' _
    have hconvert := Convert.fixes_fromWire extent_level (Environment.fixes_extent_construct henv depth) t w b
    rw [← final_attempt, final_ok hr] at hconvert
    exact ih.trans hconvert

/-- What is left to run, and on what, after the next conversion that runs the native code of a constructor. -/
def pastConstructor (env : Environment Ω) : Native Ω → Boundary Ω → Option (Native Ω × Boundary Ω)
  | .done, _ | .fail _, _ | .panic _, _ => none
  | .act change _ next, b => (next (change b)).pastConstructor env (change b)
  | .record e next, b => next.pastConstructor env { b with sinks := recordIn b.sinks b.call.sink e }
  | .call c args next, b =>
    match c.invoke env.program.host args b with
    | .ok r b => (next r).pastConstructor env b
    | .error _ _ => none
  | .convert depth t w next, b =>
    match (Convert.fromWire (env.services depth) t w).attempt b with
    | .ok r b' => if env.runsConstructor depth t w b then some (next r, b') else (next r).pastConstructor env b'
    | .error _ _ => none

theorem pastConstructor_convert {depth : Nat} {t : NativeType} {w : Wire} {next : Except CallError (t.Value Ω) → Native Ω}
    {b b' : Boundary Ω} {r : Except CallError (t.Value Ω)}
    (hr : (Convert.fromWire (env.services depth) t w).attempt b = .ok r b')
    (hruns : env.runsConstructor depth t w b = true) :
    (Native.convert depth t w next).pastConstructor env b = some (next r, b') := by
  unfold pastConstructor
  rw [hr]
  exact if_pos hruns

theorem pastConstructor_arg {i : Nat} {t : NativeType} {w : Wire} {next : Except CallError (t.Value Ω) → Native Ω}
    {b b' : Boundary Ω} {r : Except CallError (t.Value Ω)} (hw : b.call.args[i]? = some w)
    (hr : (Convert.fromWire (env.services (Wire.depthAll b.call.args)) t w).attempt
      { b with call := { b.call with args := b.call.args.set i .undefined } } = .ok r b')
    (hruns : env.runsConstructor (Wire.depthAll b.call.args) t w
      { b with call := { b.call with args := b.call.args.set i .undefined } } = true) :
    (arg i t next).pastConstructor env b = some (next (r.mapError (·.atArgument i)), b') := by
  change (match b.call.args[i]? with | none => _ | some w => _ : Native Ω).pastConstructor env b = _
  rw [hw]
  exact pastConstructor_convert hr hruns

/-- **An error stays in the sink until a conversion runs the native code of a constructor**, which empties it. -/
theorem pending (henv : env.Constructs fun _ => True) : ∀ (n : Native Ω) (b : Boundary Ω), b.Holds k (some e) →
    match n.pastConstructor env b with
    | none => Leaves (env.config.isOn .catchNativePanics) k (some e) (n.run env.services b)
    | some (n', b') => b'.Holds k none ∧ n.run env.services b = n'.run env.services b'
  | .done, _, hb => hb
  | .fail _, _, hb | .panic _, _, hb => fun _ => hb
  | .act change apart next, b, hb => by
    refine pending henv (next (change b)) (change b) ?_
    obtain ⟨hsink, hsinks⟩ := Prod.mk.inj (apart b)
    exact ⟨hsink.trans hb.1, hsinks ▸ hb.2⟩
  | .record x next, b, hb =>
    pending henv next { b with sinks := recordIn b.sinks b.call.sink x } ⟨hb.1, recordIn_held hb.2 _ x⟩
  | .call c args next, b, hb => by
    have hheld := Callback.held_invoke env.program.host c args hb
    have hrun : (Native.call c args next).run env.services b =
        (c.invoke env.program.host args >>= fun r => (next r).run env.services) b := rfl
    rw [hrun]
    unfold pastConstructor
    cases hinvoke : c.invoke env.program.host args b with
    | ok r b' =>
      rw [final_ok hinvoke] at hheld
      rw [Act.bind_ok hinvoke]
      exact pending henv (next r) b' hheld
    | error i b' =>
      rw [final_error hinvoke] at hheld
      dsimp only
      rw [bind_error hinvoke]
      exact fun _ => hheld
  | .convert depth t w next, b, hb => by
    have hrun : (Native.convert depth t w next).run env.services b =
        ((Convert.fromWire (env.services depth) t w).attempt >>= fun r => (next r).run env.services) b := rfl
    rw [hrun]
    unfold pastConstructor
    rcases (Environment.coupled_fromWire henv depth t w).held k e b hb with ⟨hsame, hleaves⟩ | ⟨⟨b₁, hcut⟩, hleaves⟩
    · have hattempt := hleaves.attempt
      cases hr : (Convert.fromWire (env.services depth) t w).attempt b with
      | ok r b' =>
        rw [hr] at hattempt
        have hquiet : env.runsConstructor depth t w b = false := by
          unfold Environment.runsConstructor
          rw [hsame]
          unfold Act.attempt at hr
          cases hx : Convert.fromWire (env.services depth) t w b with
          | ok x b'' => rfl
          | error i b'' =>
            cases i with
            | nesting =>
              rw [hx] at hr
              cases hr
            | _ => rfl
        rw [Act.bind_ok hr]
        dsimp only
        rw [hquiet]
        exact pending henv (next r) b' hattempt
      | error i b' =>
        rw [hr] at hattempt
        dsimp only
        rw [bind_error hr]
        exact hattempt
    · have hattempt := hleaves.attempt
      cases hr : (Convert.fromWire (env.services depth) t w).attempt b with
      | ok r b' =>
        rw [hr] at hattempt
        have hruns : env.runsConstructor depth t w b = true := by
          unfold Environment.runsConstructor
          rw [hcut]
          rfl
        rw [Act.bind_ok hr]
        dsimp only
        rw [hruns]
        exact ⟨hattempt, rfl⟩
      | error i b' =>
        rw [hr] at hattempt
        dsimp only
        rw [bind_error hr]
        refine fun hi => ?_
        obtain ⟨x, rfl⟩ | hescapes := (env.surfaces_fromWire depth t w).attempt b i b' hr
        · exact absurd hr (attempt_ne_error _ _ _ _)
        · exact nomatch hi.symm.trans hescapes

end Native

namespace Entry
variable {env : Environment Ω} {catching : Bool} {k : SinkId} {x : CallError} {entry : Entry Ω} {s : entry.Start}
  {b b₁ : Boundary Ω}

/-- The first error of the callbacks that are scoped to the sink while the entry's native code runs. -/
def firstError (host : HostBehaviour) (k : SinkId) (entry : Entry Ω) (s : entry.Start) (b : Boundary Ω) : Option CallError :=
  (entry.closure (entry.seen s.receiver) s.args).firstError host k
    ⟨⟨entry.place s.receiver, b.heap, b.program, []⟩, b.sinks, b.journal⟩

/-- The constructors that are run for the arguments leave no error behind. -/
theorem begin_empty (henv : env.Constructs fun _ => True) (depth : Nat) (hb : b.Holds k none)
    (hbegin : entry.begin (env.services depth) b = .ok s b₁) : b₁.Holds k none := by
  have hR := congruence_coupled (Ω := Ω) (env.config.isOn .catchNativePanics) entry.params
  have harguments := related_arguments hR (env.barred depth).construct (fun c w _ =>
    Convert.related_importValue hR.toCongruence _ .attempt (Environment.coupled_construct henv depth) c w)
    (entry.check (env.services depth))
  have hleaves : Leaves (env.config.isOn .catchNativePanics) k none (entry.begin (env.services depth) b) := by
    refine (harguments.empty k b hb).bind fun xs b' _ hb' => ?_
    have hgrasp : Fixes Boundary.errors (do
        let r ← (entry.grasp (env.services depth)).orDrop (NativeType.valuesRefs entry.params xs)
        return ⟨r, xs⟩ : Act Ω entry.Start) :=
      .bind (.orDrop errors_level ((local_grasp entry).fixes errors_level) _) fun _ => fun _ => rfl
    exact hgrasp.leaves hb'
  rw [hbegin] at hleaves
  exact hleaves

theorem run_held {sv : Services Ω} (hbegin : entry.begin sv b = .ok s b₁) (hb₁ : b₁.Holds k none)
    (hfirst : entry.firstError sv.host k s b₁ = some x) : Leaves catching k (some x) (entry.run sv b) := by
  rw [run_phases, Act.bind_ok hbegin]
  have hclosure : Leaves catching k (some x) (entry.runClosure sv entry.closure s b₁) := by
    refine ⟨hb₁.1, ?_⟩
    rw [← hfirst]
    exact Body.exec_firstError sv.host _ _ hb₁.2
  exact hclosure.bind fun ended b₂ _ hb₂ => (fixes_finish sv entry s ended).leaves hb₂

end Entry

namespace Environment
variable {env : Environment Ω} {group : OverloadGroup} {receiver : Option Handle} {args : List Wire} {b : Boundary Ω}

/-- The state in which the caller of a group finds itself again. -/
def leaving (b inner : Boundary Ω) : Boundary Ω :=
  { inner.drop inner.call.refs with call := b.call }

omit [ObjectModel Ω] in
theorem holds_entering (b : Boundary Ω) (receiver : Option Handle) (args : List Wire) :
    (entering b receiver args).Holds b.sinks.length none :=
  ⟨rfl, List.getElem?_concat_length⟩

theorem callGroup_selected {entry : SignatureEntry (Code Ω)}
    (hselect : env.select group (entering b receiver args) = .ok entry) :
    env.callGroup group receiver args b =
      (env.finish env.services entry.code).ensuring (leaving b) (entering b receiver args) := by
  rw [callGroup_at, Act.ensuring, Act.ensuring, dispatch_eq, hselect]
  rfl

omit [ObjectModel Ω] in
theorem reports_ensuring {catching : Bool} {e : CallError} {act : Act Ω α} {after : Boundary Ω → Boundary Ω}
    (h : Reports catching e (act b)) : Reports catching e (act.ensuring after b) := by
  unfold Act.ensuring
  cases hb : act b with
  | ok a b' =>
    rw [hb] at h
    exact h
  | error i b' =>
    rw [hb] at h
    exact h

omit [ObjectModel Ω] in
theorem errorIn_of_holds {b : Boundary Ω} {k : SinkId} (h : b.Holds k none) : b.errorIn k = none := by
  rw [Boundary.errorIn, h.2]
  rfl

/-- **Which errors of callbacks a call reports.** An error of a callback while the native code of a typed entry runs is
what the call reports. Native code with free access to its call reports the error of a callback, if it is the first one,
unless it later converts a value for which the native code of a constructor runs: then nothing is left of the error, and
the call goes on from there with an empty sink. -/
theorem first_error (henv : env.Constructs fun _ => True) (group : OverloadGroup) (receiver : Option Handle)
    (args : List Wire) (b : Boundary Ω) :
    (∀ entry s b₁ e, env.Starts env.services group (entering b receiver args) entry s b₁ →
      entry.firstError env.program.host b.sinks.length s b₁ = some e →
      Reports (env.config.isOn .catchNativePanics) e (env.callGroup group receiver args b)) ∧
    ∀ entry n, env.select group (entering b receiver args) = .ok entry → entry.code = .raw (Native.run · n) →
      ∀ c ws next b₁ e b₂, n.Reaches env.services (entering b receiver args) (.call c ws next) b₁ →
        c.sink = some b.sinks.length → b₁.errorIn b.sinks.length = none →
        c.invoke env.program.host ws b₁ = .ok (.error e) b₂ →
        match (next (.error e)).pastConstructor env b₂ with
        | none => Reports (env.config.isOn .catchNativePanics) e (env.callGroup group receiver args b)
        | some (n', b') => b'.errorIn b.sinks.length = none ∧ env.callGroup group receiver args b =
            (env.finish env.services (.raw (Native.run · n'))).ensuring (leaving b) b' := by
  refine ⟨fun entry s b₁ e hstarts hfirst => ?_, fun entry n hselect hcode c ws next b₁ e b₂ hreach hsink hempty hfails => ?_⟩
  · obtain ⟨selected, hselect, hcode, hbegin⟩ := hstarts
    rw [callGroup_selected hselect, hcode]
    refine reports_ensuring (finish_held (k := b.sinks.length) ?_)
    refine Entry.run_held hbegin (Entry.begin_empty henv _ (holds_entering b receiver args) hbegin) ?_
    rw [services_host]
    exact hfirst
  · rw [callGroup_selected hselect, hcode]
    have hempty : b₁.Holds b.sinks.length none := by
      obtain ⟨hcall, hlength⟩ := Prod.mk.inj (hreach.extent henv)
      have hlt : b.sinks.length < b₁.sinks.length := by
        rw [hlength]
        exact (List.getElem?_eq_some_iff.mp (holds_entering b receiver args).2).1
      refine ⟨hcall, ?_⟩
      rw [Boundary.errorIn, List.getElem?_eq_getElem hlt] at hempty
      rw [List.getElem?_eq_getElem hlt]
      exact congrArg some hempty
    have hheld := Callback.held_of_fails hsink hempty hfails
    have hrun : n.run env.services (entering b receiver args) = (next (.error e)).run env.services b₂ :=
      hreach.run.trans (Act.bind_ok hfails)
    have hpending := Native.pending henv (next (.error e)) b₂ hheld
    cases hpast : (next (.error e)).pastConstructor env b₂ with
    | none =>
      rw [hpast] at hpending
      refine reports_ensuring (finish_held (k := b.sinks.length) ?_)
      change Leaves _ _ _ (n.run env.services (entering b receiver args))
      rw [hrun]
      exact hpending
    | some past =>
      rw [hpast] at hpending
      refine ⟨errorIn_of_holds hpending.1, ?_⟩
      rw [Act.ensuring, Act.ensuring]
      have hfinish : env.finish env.services (.raw (Native.run · n)) (entering b receiver args) =
          env.finish env.services (.raw (Native.run · past.1)) past.2 := finish_at (hrun.trans hpending.2) rfl
      rw [hfinish]

/-! ## A callback that fails before a point is read -/

open Catalog

/-- A program whose host fails on every call. -/
def failing : NativeProgram Specimen where
  exporter := (bare Specimen).program.exporter
  host _ _ journal := (.error (.error (.native "host failed")), journal)

/-- Call back, and make nothing of what that gives. -/
def asks : Entry Specimen :=
  .function [.callback] .unit fun (c, _) => do
    let _ ← Body.invoke c []

/-- Call back, then read a point, and make nothing of either. -/
def asksThenReads : Native Specimen :=
  .arg 0 .callback fun
    | .error e => .fail e
    | .ok c => .call c [] fun _ => .arg 1 (.object Species.point.cls) fun _ => .done

def declareAsking : Except RegistrationError (Registry (Upcast Specimen) (Code Specimen)) := do
  let r ← declarePoints .none [pointOfXY]
  let (_, r) ← r.declareFunction "asks" .none asks.shape ⟨1⟩ (.typed asks)
  let (_, r) ← r.declareFunction "reads" .none (.function [.callback, .object Species.point.cls] .unit) ⟨2⟩
    (.raw (Native.run · asksThenReads))
  return r

/-- The engine of both, and of points made from coordinates. -/
def askingEngine : Environment Specimen :=
  match declareAsking >>= (start · .new failing) with
  | .ok env => env
  | .error _ => bare Specimen

def askingGroup : OverloadGroup :=
  ⟨"asks", .global, [(1, ⟨1, 0⟩)], true⟩

def readingGroup : OverloadGroup :=
  ⟨"reads", .global, [(2, ⟨2, 0⟩)], true⟩

/-- A callback as the host passes it. -/
def callbackArg : Wire :=
  .function ⟨⟨"f", 0⟩, none⟩

/-- A point as the host passes it. -/
def pointArg : Wire :=
  .record "Point" [.int 1, .int 2]

theorem askingEngine_program : askingEngine.program = failing := by cbv

theorem askingEngine_catching : askingEngine.config.isOn .catchNativePanics = true := by cbv

theorem askingEngine_constructs : askingEngine.Constructs fun _ => True := by
  have hclasses : askingEngine.registry.classes = [(pointClass [(2, ⟨0, 0⟩)]).markReady] := by cbv
  have hentry : (askingEngine.registry.entry ⟨0, 0⟩).map (·.2.code) = .ok (.typed pointOfXY) := by cbv
  intro c d n ref s e hd href he
  obtain ⟨hmem, -⟩ := Registry.class?_mem hd
  rw [hclasses] at hmem
  rw [List.mem_singleton.mp hmem] at href
  obtain rfl : ref = ⟨0, 0⟩ := by
    rcases n with _ | _ | _ | n <;> cases href
    rfl
  rw [he] at hentry
  exact ⟨pointOfXY, Except.ok.inj hentry, rfl, fun _ _ => trivial⟩

/-- The failed callback after which the reading function has come to read its point. -/
def afterCallback : Boundary Specimen :=
  ((⟨⟨"f", 0⟩, some 0⟩ : Callback).invoke failing.host [] : Act Specimen _).final
    ((Act.takeArg 0).final (entering .empty none [callbackArg, pointArg]))

theorem reads_pastConstructor : ∃ b, (Native.arg 1 (.object Species.point.cls) fun _ => .done).pastConstructor askingEngine
    afterCallback = some (.done, b) := by
  have hdepth : Wire.depthAll afterCallback.call.args = 1 := by cbv
  let taken : Boundary Specimen :=
    { afterCallback with call := { afterCallback.call with args := afterCallback.call.args.set 1 .undefined } }
  have hruns : askingEngine.runsConstructor 1 (.object Species.point.cls) pointArg taken = true := by
    change isNested (Convert.importValue (askingEngine.barred 1) Species.point.cls pointArg taken) = true
    cbv
  have hconverts : Act.observed (fun _ _ => some ())
      ((Convert.fromWire (askingEngine.services 1) (.object Species.point.cls) pointArg).attempt taken) = some () := by cbv
  obtain ⟨r, b, hr, -⟩ := Act.observed_eq_some hconverts
  rw [← hdepth] at hr hruns
  exact ⟨b, Native.pastConstructor_arg rfl hr hruns⟩

/-- The failed callback is reported by the function that only calls back. The one that reads a point afterwards goes on
with an empty sink. -/
theorem asking_reports :
    Reports true (.native "host failed") (askingEngine.callGroup askingGroup none [callbackArg] .empty) ∧
    ∃ b, b.errorIn 0 = none ∧ askingEngine.callGroup readingGroup none [callbackArg, pointArg] .empty =
      (askingEngine.finish askingEngine.services (.raw (Native.run · .done))).ensuring (leaving .empty) b := by
  obtain ⟨htyped, -⟩ := first_error askingEngine_constructs askingGroup none [callbackArg] .empty
  obtain ⟨-, hraw⟩ := first_error askingEngine_constructs readingGroup none [callbackArg, pointArg] .empty
  refine ⟨?_, ?_⟩
  · have hselect : askingEngine.select askingGroup (entering .empty none [callbackArg]) =
        .ok ⟨"asks", TypeFlags.none.union .static, ⟨1⟩, .typed asks⟩ := by cbv
    have hfirst : Act.observed (fun s b => asks.firstError failing.host 0 s b)
        (asks.begin (askingEngine.services 0) (entering .empty none [callbackArg])) = some (.native "host failed") := by
      cbv
    obtain ⟨s, b, hbegin, hfirst⟩ := Act.observed_eq_some hfirst
    rw [askingEngine_catching, askingEngine_program] at htyped
    exact htyped asks s b _ ⟨_, hselect, rfl, hbegin⟩ hfirst
  · have hselect : askingEngine.select readingGroup (entering .empty none [callbackArg, pointArg]) =
        .ok ⟨"reads", TypeFlags.none.union .static, ⟨2⟩, .raw (Native.run · asksThenReads)⟩ := by cbv
    have hfails : (⟨⟨"f", 0⟩, some 0⟩ : Callback).invoke askingEngine.program.host []
        ((Act.takeArg 0).final (entering .empty none [callbackArg, pointArg])) =
          .ok (.error (.native "host failed")) afterCallback := by
      rw [askingEngine_program]
      rfl
    have hlost := hraw _ asksThenReads hselect rfl ⟨⟨"f", 0⟩, some 0⟩ [] (fun _ => .arg 1 (.object Species.point.cls) fun _ => .done)
      _ _ _ (.act (.act (.convert rfl (.refl _ _)))) rfl rfl hfails
    obtain ⟨b, hpast⟩ := reads_pastConstructor
    rw [hpast] at hlost
    exact ⟨b, hlost⟩

end Environment
end NativeBridge
