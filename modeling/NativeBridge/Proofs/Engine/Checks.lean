import NativeBridge.Proofs.Engine.Dispatch
import NativeBridge.Proofs.Engine.Points
/-!
# Checked and unchecked calls

Two engines that differ in nothing but where they check arguments, and in which overloads stand beside those that a call
comes to, start the same native code on the same arguments in the same state and end in the same way, or both fail
without having started any (`Environment.checks_agree`).
-/
namespace NativeBridge
variable {Ω : Type} [ObjectModel Ω] {α β : Type}

open Act

/-! ## Engines that are alike -/

/-- What a call depends on of the entry that it is sent to: its name, whether a const receiver is refused, and what
runs. -/
def SignatureEntry.brief {Code : Type} (e : SignatureEntry Code) : String × Bool × Code :=
  (e.name, e.flags.contains .method && !e.flags.contains .const, e.code)

namespace Environment

/-- The calls with `n` arguments of a group of one engine and of a group of another come to the same code. -/
def Meets (env env' : Environment Ω) (group group' : OverloadGroup) (n : Nat) : Prop :=
  (env.overload? group n).map (·.brief) = (env'.overload? group' n).map (·.brief)

/-- The two engines construct objects of class `c` from `n` arguments with the same code. -/
def MeetsAt (env env' : Environment Ω) (c : Class) (n : Nat) : Prop :=
  ∀ d d', env.registry.class? c = some d → env'.registry.class? c = some d' →
    env.Meets env' d.constructors d'.constructors n

/-- The entry constructs the objects of class `c` from `n` arguments. -/
def Makes (env : Environment Ω) (c : Class) (n : Nat) (entry : Entry Ω) : Prop :=
  ∃ d e, env.registry.class? c = some d ∧ env.overload? d.constructors n = some e ∧ e.code = .typed entry

/-- The conversion of a value to a type may run the constructor of a class on these fields. -/
inductive Asks (env : Environment Ω) : NativeType → Wire → Class → List Wire → Prop
  | vector {t ws w c fields} : w ∈ ws → Asks env t w c fields → Asks env (.vector t) (.array ws) c fields
  | array {t n ws w c fields} : w ∈ ws → Asks env t w c fields → Asks env (.array t n) (.array ws) c fields
  | optional {t w c fields} : Asks env t w c fields → Asks env (.optional t) w c fields
  | result {t w c fields} : Asks env t w c fields → Asks env (.result t) w c fields
  | object {c w fields} : w.fieldsFor? c.name = some fields → Asks env (.object c) w c fields
  | field {c w fields entry} {i : Nat} {t v c' fields'} : w.fieldsFor? c.name = some fields →
      env.Makes c fields.length entry → entry.params[i]? = some t → fields[i]? = some v →
      Asks env t v c' fields' → Asks env (.object c) w c' fields'

/-- The conversion of the arguments of a call may run the constructor of a class on these fields. -/
def AsksFor (env : Environment Ω) (group : OverloadGroup) (args : List Wire) (c : Class) (fields : List Wire) : Prop :=
  ∃ e entry, env.overload? group args.length = some e ∧ e.code = .typed entry ∧
    ∃ (i : Nat) (t : NativeType) (w : Wire), entry.params[i]? = some t ∧ args[i]? = some w ∧ env.Asks t w c fields

/-- Every constructor is a typed one of its class. -/
def TypedConstructors (env : Environment Ω) : Prop :=
  ∀ c d, env.registry.class? c = some d → d.constructors.Leads env.registry.signatures (Entry.Serves c .constructor)

/-- Two engines that differ at most in where arguments are checked and in what their groups hold. -/
structure Alike (env env' : Environment Ω) : Prop where
  program : env'.program = env.program
  bindings : env'.bindings = env.bindings
  catching : env'.config.isOn .catchNativePanics = env.config.isOn .catchNativePanics
  fallback : env'.config.isOn .valueTypeFallback = env.config.isOn .valueTypeFallback
  exposed : ∀ c, (env'.registry.exposedClass? c).isSome = (env.registry.exposedClass? c).isSome
  upcasts : env'.registry.upcastPath? = env.registry.upcastPath?
  classes : ∀ c, (env'.registry.class? c).map (fun d => (d.name, d.declared, d.valueType)) =
    (env.registry.class? c).map fun d => (d.name, d.declared, d.valueType)

variable {env env' : Environment Ω}

theorem Alike.class_cases (h : env.Alike env') (c : Class) :
    (env.registry.class? c = none ∧ env'.registry.class? c = none) ∨
      ∃ d d', env.registry.class? c = some d ∧ env'.registry.class? c = some d' ∧ d'.name = d.name ∧
        d'.declared = d.declared ∧ d'.valueType = d.valueType := by
  have hclass := h.classes c
  cases hd : env.registry.class? c with
  | none =>
    rw [hd] at hclass
    exact .inl ⟨rfl, Option.map_eq_none_iff.mp hclass⟩
  | some d =>
    rw [hd] at hclass
    obtain ⟨d', hd', hsame⟩ := Option.map_eq_some_iff.mp hclass
    obtain ⟨hname, hrest⟩ := Prod.mk.inj hsame
    obtain ⟨hdeclared, hvalue⟩ := Prod.mk.inj hrest
    exact .inr ⟨d, d', rfl, hd', hname, hdeclared, hvalue⟩

/-- Conversions differ at most in how they run constructors. -/
theorem Alike.services (h : env.Alike env') :
    ∀ n, env'.services n = (env.services n).constructing ((env'.services n).construct) := by
  have hwith (k k' : Class → List Wire → Act Ω Pointer) :
      env'.servicesWith k = (env.servicesWith k').constructing k := by
    unfold servicesWith Services.constructing
    rw [Services.mk.injEq]
    refine ⟨funext fun c => ?_, h.upcasts, funext fun c => ?_, ?_, funext fun c => ?_, rfl, ?_⟩
    · dsimp only
      rcases h.class_cases c with ⟨hd, hd'⟩ | ⟨d, d', hd, hd', hname, -⟩ <;> rw [hd, hd']
      rw [Option.map_some, Option.map_some, hname]
    · dsimp only
      rcases h.class_cases c with ⟨hd, hd'⟩ | ⟨d, d', hd, hd', -, -, hvalue⟩ <;> rw [hd, hd']
      dsimp only
      rw [hvalue, h.program]
    · rw [h.bindings]
    · rw [h.fallback, h.exposed]
    · rw [h.program]
  intro n
  cases n <;> exact hwith _ _

variable {services services' : Nat → Services Ω} {entry : Entry Ω} {b b' : Boundary Ω} {group group' : OverloadGroup}

/-- All bindings are the record binding. -/
def RecordBindings (env : Environment Ω) : Prop :=
  ∀ c binding, env.bindings.lookup c = some binding → binding = .record

theorem RecordBindings.recordsOnly (h : env.RecordBindings) (n : Nat) : (env.services n).RecordsOnly := by
  cases n <;> exact h

theorem Alike.recordBindings (halike : env.Alike env') (h : env.RecordBindings) : env'.RecordBindings := by
  unfold RecordBindings
  rw [halike.bindings]
  exact h

theorem checkConst_brief {e e' : SignatureEntry (Code Ω)} (h : e'.brief = e.brief) (b : Boundary Ω) :
    checkConst b e'.name e'.flags = checkConst b e.name e.flags := by
  obtain ⟨hname, hrest⟩ := Prod.mk.inj h
  obtain ⟨hflags, -⟩ := Prod.mk.inj hrest
  unfold checkConst
  rw [hname, hflags]

/-- Two calls on the same arguments start the same native code, unless both fail before. -/
theorem Alike.start_or_fail (halike : env.Alike env') (hrecords : env.RecordBindings)
    (services services' : Nat → Services Ω) (hmeets : env.Meets env' group group' b.call.args.length)
    {serves serves' : Entry Ω → Prop}
    (hgroup : group.Leads env.registry.signatures serves) (hgroup' : group'.Leads env'.registry.signatures serves')
    {n : Nat} (hn : services (Wire.depthAll b.call.args) = env.services n)
    (hn' : services' (Wire.depthAll b.call.args) = env'.services n) {D : NativeType → Wire → Prop}
    (hbegin : ∀ e entry, env.overload? group b.call.args.length = some e → e.code = .typed entry →
      AgreeAt D entry.params (entry.begin (env.services n)) (entry.begin (env'.services n)) b)
    (hsink : b.call.sink < b.sinks.length) :
    (∃ e e' entry s b₁, env.select group b = .ok e ∧ env'.select group' b = .ok e' ∧ e.code = .typed entry ∧
      e'.code = .typed entry ∧ serves entry ∧ entry.begin (env.services n) b = .ok s b₁ ∧
      entry.begin (env'.services n) b = .ok s b₁) ∨
    (env.Fails services group b ∧ env'.Fails services' group' b) := by
  unfold Meets at hmeets
  cases he : env.overload? group b.call.args.length with
  | none =>
    rw [he] at hmeets
    have he' := Option.map_eq_none_iff.mp hmeets.symm
    have hnone {env : Environment Ω} {group : OverloadGroup} (h : env.overload? group b.call.args.length = none) :
        ∃ x, env.select group b = .error x := by
      cases hselect : env.select group b with
      | error x => exact ⟨x, rfl⟩
      | ok e =>
        rw [select_overload hselect] at h
        cases h
    obtain ⟨x, hx⟩ := hnone he
    obtain ⟨x', hx'⟩ := hnone he'
    exact .inr ⟨fails_of_select hx hsink, fails_of_select hx' hsink⟩
  | some e =>
    rw [he] at hmeets
    obtain ⟨e', he', hbrief⟩ := Option.map_eq_some_iff.mp hmeets.symm
    obtain ⟨ref, s, href, hentry⟩ := overload?_eq_some.mp he
    obtain ⟨_, _, entry, hentry', hcode, -, -, hserves⟩ := hgroup _ ref href
    rw [hentry] at hentry'
    cases hentry'
    have hcode' : e'.code = .typed entry := by
      rw [← hcode]
      exact (Prod.mk.inj (Prod.mk.inj hbrief).2).2
    rcases hbegin e entry he hcode with ⟨s, b₁, hx, hy, -⟩ | ⟨x, b₁, y, b₂, hx, hy, h₁, h₂⟩
    · have hselect := select_begun hgroup (hrecords.recordsOnly n) he hcode hx
      have hselect' := select_begun hgroup' ((halike.recordBindings hrecords).recordsOnly n) he' hcode' hy
      rw [checkConst_brief hbrief] at hselect'
      cases hcheck : checkConst b e.name e.flags with
      | error x =>
        rw [hcheck] at hselect hselect'
        exact .inr ⟨fails_of_select hselect hsink, fails_of_select hselect' hsink⟩
      | ok _ =>
        rw [hcheck] at hselect hselect'
        exact .inl ⟨e, e', entry, s, b₁, hselect, hselect', hcode, hcode', hserves, hx, hy⟩
    · rw [← hn] at hx
      rw [← hn'] at hy
      exact .inr ⟨fails_of_begin he hcode hx hsink h₁, fails_of_begin he' hcode' hy hsink h₂⟩

omit [ObjectModel Ω] in
theorem agrees_report {D : NativeType → Wire → Prop} {params : List NativeType} :
    Agrees D params (report : Act Ω Wire) report := by
  intro b hb
  let b₁ : Boundary Ω := { b with sinks := b.sinks.set b.call.sink none }
  have hfollows : Follows D params b b₁ := by
    refine ⟨⟨?_, hb.args⟩, rfl⟩
    change b.call.sink < (b.sinks.set b.call.sink none).length
    rw [List.length_set]
    exact hb.sink
  have hreport := report_eq b
  cases hheld : b.errorIn b.call.sink with
  | some e =>
    rw [hheld] at hreport
    exact .inr ⟨e, b₁, e, b₁, hreport, hreport, hfollows, hfollows⟩
  | none =>
    rw [hheld] at hreport
    refine .inl ⟨b₁.call.result, { b₁ with call := { b₁.call with result := .undefined } }, hreport, hreport, ?_⟩
    exact ⟨⟨hfollows.proper.sink, hb.args⟩, rfl⟩

theorem agrees_finish {D : NativeType → Wire → Prop} {params : List NativeType}
    (h : AgreeAt D params (entry.run (services (Wire.depthAll b.call.args)))
      (entry.run (services' (Wire.depthAll b.call.args))) b) :
    AgreeAt D params (env.finish services (.typed entry)) (env'.finish services' (.typed entry)) b := by
  rcases h with ⟨_, b₁, hx, hy, h⟩ | ⟨x, b₁, y, b₂, hx, hy, h₁, h₂⟩
  · exact (agrees_report b₁ h.proper).after h (finish_ok hx) (finish_ok hy)
  · have hlater {b' b'' : Boundary Ω} (h : Follows D params b b') (hcall : b''.call = b'.call)
        (hlength : b''.sinks.length = b'.sinks.length) : Follows D params b b'' := by
      refine ⟨⟨?_, ?_⟩, by rw [hcall, h.same]⟩
      · rw [hcall, hlength]
        exact h.proper.sink
      · rw [hcall]
        exact h.proper.args
    obtain ⟨x', b₁', hx, hcall₁, hlength₁⟩ := finish_error env hx h₁.proper.sink
    obtain ⟨y', b₂', hy, hcall₂, hlength₂⟩ := finish_error env' hy h₂.proper.sink
    exact .inr ⟨x', b₁', y', b₂', hx, hy, hlater h₁ hcall₁ hlength₁, hlater h₂ hcall₂ hlength₂⟩

/-! ## Constructors within conversions -/

theorem Asks.not_undefined {t : NativeType} {c : Class} {fields : List Wire} : ¬env.Asks t .undefined c fields := by
  generalize hw : Wire.undefined = w
  intro h
  induction h with
  | vector _ _ _ => cases hw
  | array _ _ _ => cases hw
  | optional _ ih => exact ih hw
  | result _ ih => exact ih hw
  | object h =>
    subst hw
    cases h
  | field h _ _ _ _ _ =>
    subst hw
    cases h

/-- A conversion of a value that nests at most `n` deep, for which the two engines run the same constructors. -/
def Fits (env env' : Environment Ω) (n : Nat) (t : NativeType) (w : Wire) : Prop :=
  w.depth ≤ n ∧ ∀ c fields, env.Asks t w c fields → env.MeetsAt env' c fields.length

theorem depth_le_of_mem : ∀ {ws : List Wire} {w : Wire}, w ∈ ws → w.depth ≤ Wire.depthAll ws
  | v :: vs, w, h => by
    rw [Wire.depthAll]
    rcases List.mem_cons.mp h with rfl | h
    · exact Nat.le_max_left _ _
    · exact (depth_le_of_mem h).trans (Nat.le_max_right _ _)

theorem fits_inward (n : Nat) : Convert.Inward (env.Fits env' n) where
  vector := fun t ws h w hw => by
    have hdepth := h.1
    rw [Wire.depth] at hdepth
    exact ⟨(depth_le_of_mem hw).trans (Nat.le_of_succ_le hdepth), fun c fields hasks => h.2 c fields (.vector hw hasks)⟩
  array := fun t _ ws h w hw => by
    have hdepth := h.1
    rw [Wire.depth] at hdepth
    exact ⟨(depth_le_of_mem hw).trans (Nat.le_of_succ_le hdepth), fun c fields hasks => h.2 c fields (.array hw hasks)⟩
  optional := fun _ _ h => ⟨h.1, fun c fields hasks => h.2 c fields (.optional hasks)⟩
  result := fun _ _ h => ⟨h.1, fun c fields hasks => h.2 c fields (.result hasks)⟩

theorem fits_undefined (n : Nat) (t : NativeType) : env.Fits env' n t .undefined :=
  ⟨Nat.zero_le n, fun _ _ h => (h.not_undefined).elim⟩

theorem depth_fieldsFor {name : String} {w : Wire} {fields : List Wire} (h : w.fieldsFor? name = some fields) :
    w.depth = Wire.depthAll fields + 1 := by
  cases w with
  | array ws =>
    cases h
    rw [Wire.depth]
  | record cls ws =>
    change (if cls = name then some ws else none) = some fields at h
    split at h
    · cases h
      rw [Wire.depth]
    · cases h
  | _ => cases h

/-- What the nested call of a constructor does in the two engines, if conversions that nest less deep agree. -/
theorem Alike.agrees_nested (halike : env.Alike env') (hrecords : env.RecordBindings)
    (htyped : env.TypedConstructors) (htyped' : env'.TypedConstructors)
    (hcalm : ∀ c n entry, env.Makes c n entry → entry.Calm env.program.host) {n : Nat} {c : Class} {fields : List Wire}
    {d d' : ClassDescriptor (Upcast Ω)} (hd : env.registry.class? c = some d) (hd' : env'.registry.class? c = some d')
    (hname : d'.name = d.name) (hmeets : env.MeetsAt env' c fields.length)
    (hfits : ∀ entry, env.Makes c fields.length entry → ∀ (i : Nat) (t : NativeType) (v : Wire),
      entry.params[i]? = some t → fields[i]? = some v → env.Fits env' n t v)
    (himport : ∀ params c w, env.Fits env' n (.object c) w → Agrees (env.Fits env' n) params
      (Convert.importValue (env.services n) c w) (Convert.importValue (env'.services n) c w))
    {b : Boundary Ω} (hsink : b.call.sink < b.sinks.length) :
    AgreeAt (env.Fits env' n) []
      (do constructed d.name (← env.dispatch (fun _ => env.services n) d.constructors))
      (do constructed d'.name (← env'.dispatch (fun _ => env'.services n) d'.constructors))
      { b with call := .new fields none b.call.sink } := by
  let b₀ : Boundary Ω := { b with call := .new fields none b.call.sink }
  have hproper {entry : Entry Ω} (hmakes : env.Makes c fields.length entry) :
      Proper (env.Fits env' n) entry.params b₀ := ⟨hsink, hfits entry hmakes⟩
  have himport (params : List NativeType) : ∀ c w, env.Fits env' n (.object c) w → Agrees (env.Fits env' n) params
      (Convert.importValue (env.services n) c w)
      (Convert.importValue ((env.services n).constructing (env'.services n).construct) c w) := by
    rw [← halike.services]
    exact himport params
  have hbegin (e : SignatureEntry (Code Ω)) (entry : Entry Ω)
      (he : env.overload? d.constructors fields.length = some e) (hcode : e.code = .typed entry) :
      AgreeAt (env.Fits env' n) entry.params (entry.begin (env.services n)) (entry.begin (env'.services n)) b₀ := by
    rw [halike.services]
    exact Entry.agrees_begin (fits_inward n) (fits_undefined n) (himport _) b₀ (hproper ⟨d, e, hd, he, hcode⟩)
  rcases halike.start_or_fail (b := b₀) hrecords (fun _ => env.services n) (fun _ => env'.services n)
      (hmeets d d' hd hd') (htyped c d hd) (htyped' c d' hd') rfl rfl hbegin hsink with
    ⟨e, e', entry, s, b₁, hselect, hselect', hcode, hcode', hserves, -, -⟩ | ⟨hfails, hfails'⟩
  · have hmakes : env.Makes c fields.length entry := ⟨d, e, hd, select_overload hselect, hcode⟩
    have hrun : AgreeAt (env.Fits env' n) entry.params (entry.run (env.services n)) (entry.run (env'.services n)) b₀ := by
      rw [halike.services]
      have hcalm := hcalm c _ entry hmakes
      rw [← services_host env n] at hcalm
      exact Entry.agrees_constructor (fits_inward n) (fits_undefined n) hserves hcalm
        (himport _) b₀ (hproper hmakes)
    have hdispatch : AgreeAt (env.Fits env' n) entry.params (env.dispatch (fun _ => env.services n) d.constructors)
        (env'.dispatch (fun _ => env'.services n) d'.constructors) b₀ := by
      refine (agrees_finish hrun).after ⟨hproper hmakes, rfl⟩ (dispatch_selected hselect hcode)
        (dispatch_selected hselect' hcode')
    rw [hname]
    exact hdispatch.loose.bind fun w => (local_constructed d.name w).agrees _ _
  · obtain ⟨x, b₁, hx, hsame, hsink₁⟩ := hfails.fails
    obtain ⟨y, b₂, hy, hsame', hsink₂⟩ := hfails'.fails
    have hfollows {b' : Boundary Ω} (hsame : b'.call.sink = b₀.call.sink) (hsink : b₀.call.sink < b'.sinks.length) :
        Follows (env.Fits env' n) [] b₀ b' := ⟨⟨hsame ▸ hsink, fun _ _ _ h => nomatch h⟩, hsame⟩
    exact .inr ⟨x, b₁, y, b₂, bind_error hx, bind_error hy, hfollows hsame hsink₁, hfollows hsame' hsink₂⟩

/-- A constructor that both engines run in the same way, on fields for whose conversion they do, too. -/
theorem Alike.agrees_construct (halike : env.Alike env') (hrecords : env.RecordBindings)
    (htyped : env.TypedConstructors) (htyped' : env'.TypedConstructors)
    (hcalm : ∀ c n entry, env.Makes c n entry → entry.Calm env.program.host) :
    ∀ n (c : Class) (fields : List Wire), Wire.depthAll fields + 1 ≤ n → env.MeetsAt env' c fields.length →
      (∀ entry (i : Nat) t v, env.Makes c fields.length entry → entry.params[i]? = some t → fields[i]? = some v →
        ∀ c' fields', env.Asks t v c' fields' → env.MeetsAt env' c' fields'.length) →
      ∀ (D : NativeType → Wire → Prop) (params : List NativeType),
        Agrees D params ((env.services n).construct c fields) ((env'.services n).construct c fields)
  | 0, _, _, hdepth, _, _ => absurd hdepth (Nat.not_succ_le_zero _)
  | n + 1, c, fields, hdepth, hmeets, hasks => by
    intro D params
    change Agrees D params (env.constructNested (fun _ => env.services n) c fields)
      (env'.constructNested (fun _ => env'.services n) c fields)
    have hdepth : Wire.depthAll fields ≤ n := Nat.le_of_succ_le_succ hdepth
    have himport (params : List NativeType) (c : Class) (w : Wire) (hw : env.Fits env' n (.object c) w) :
        Agrees (env.Fits env' n) params (Convert.importValue (env.services n) c w)
          (Convert.importValue (env'.services n) c w) := by
      rw [halike.services]
      refine Convert.agrees_importValue (fits_inward n) (fits_undefined n) (hrecords.recordsOnly n) c w fun fields h => ?_
      refine halike.agrees_construct hrecords htyped htyped' hcalm n c fields ?_ (hw.2 c fields (.object h))
        (fun entry i t v hmakes ht hv c' fields' hasks => hw.2 c' fields' (.field h hmakes ht hv hasks)) _ _
      rw [← depth_fieldsFor h]
      exact hw.1
    have hunknown : Agrees D params ((Act.fail (.unknownEntry c.qualified)).orDrop (Wire.refsAll fields) : Act Ω Pointer)
        ((Act.fail (.unknownEntry c.qualified)).orDrop (Wire.refsAll fields)) := by
      refine Local.agrees ?_ D params
      exact .onFailure (.fail _) fun b => .drop b _
    unfold constructNested
    rcases halike.class_cases c with ⟨hd, hd'⟩ | ⟨d, d', hd, hd', hname, hdeclared, -⟩
    · rw [hd, hd']
      exact hunknown
    rw [hd, hd', Option.filter_some, Option.filter_some, hdeclared]
    by_cases hdecl : d.declared = true
    · rw [if_pos hdecl, if_pos hdecl]
      intro b hb
      have hinner := halike.agrees_nested hrecords htyped htyped' hcalm hd hd' hname hmeets
        (fun entry hmakes i t v ht hv => ⟨(depth_le_of_mem (List.mem_of_getElem? hv)).trans hdepth,
          hasks entry i t v hmakes ht hv⟩) himport hb.sink
      exact (AgreeAt.inCall hb hinner).after ⟨hb, rfl⟩ (get_bind _ b) (get_bind _ b)
    · rw [if_neg hdecl, if_neg hdecl]
      exact hunknown

/-! ## Calls of engines that are alike -/

/-- The engine with its arguments checked on every call, or only where arity leaves a choice. -/
def checking (env : Environment Ω) (on : Bool) : Environment Ω :=
  { env with config := env.config.set .strictTypeChecks on.toNat }

theorem alike_checking (env : Environment Ω) (on : Bool) : env.Alike (env.checking on) where
  program := rfl
  bindings := rfl
  catching := rfl
  fallback := rfl
  exposed := fun _ => rfl
  upcasts := rfl
  classes := fun _ => rfl

/-- The two calls start the same native code on the same receiver, arguments and state and end in the same way, or
both fail with an error without having started any. -/
def CallsAgree (env env' : Environment Ω) (group group' : OverloadGroup) (receiver : Option Handle) (args : List Wire)
    (b : Boundary Ω) : Prop :=
  (∃ entry s b₁, env.Starts env.services group (entering b receiver args) entry s b₁ ∧
    env'.Starts env'.services group' (entering b receiver args) entry s b₁ ∧
    env.callGroup group receiver args b = env'.callGroup group' receiver args b) ∨
  (env.Fails env.services group (entering b receiver args) ∧ env'.Fails env'.services group' (entering b receiver args) ∧
    ∃ x b₁ y b₂, env.callGroup group receiver args b = .error (.error x) b₁ ∧
      env'.callGroup group' receiver args b = .error (.error y) b₂)

/-- Calls agree that come to the same code, on arguments that ask for constructors of the same code. -/
theorem Alike.agrees (halike : env.Alike env') (hrecords : env.RecordBindings)
    (htyped : env.TypedConstructors) (htyped' : env'.TypedConstructors)
    (hcalm : ∀ c n entry, env.Makes c n entry → entry.Calm env.program.host) {serves serves' : Entry Ω → Prop}
    (hgroup : group.Leads env.registry.signatures serves) (hgroup' : group'.Leads env'.registry.signatures serves')
    {args : List Wire} (hmeets : env.Meets env' group group' args.length)
    (hasks : ∀ c fields, env.AsksFor group args c fields → env.MeetsAt env' c fields.length)
    (receiver : Option Handle) (b : Boundary Ω) : env.CallsAgree env' group group' receiver args b := by
  let n := Wire.depthAll args
  let b₀ : Boundary Ω := entering b receiver args
  have hsink : b₀.call.sink < b₀.sinks.length := by
    change b.sinks.length < (b.sinks ++ [none]).length
    rw [List.length_append]
    exact Nat.lt_succ_self _
  have hbegin (e : SignatureEntry (Code Ω)) (entry : Entry Ω) (he : env.overload? group args.length = some e)
      (hcode : e.code = .typed entry) :
      AgreeAt (env.Fits env' n) entry.params (entry.begin (env.services n)) (entry.begin (env'.services n)) b₀ := by
    have hproper : Proper (env.Fits env' n) entry.params b₀ := by
      refine ⟨hsink, fun i t w ht hw => ⟨depth_le_of_mem (List.mem_of_getElem? hw), fun c fields h => ?_⟩⟩
      exact hasks c fields ⟨e, entry, he, hcode, i, t, w, ht, hw, h⟩
    rw [halike.services]
    refine Entry.agrees_begin (fits_inward n) (fits_undefined n) (fun c w hw => ?_) b₀ hproper
    refine Convert.agrees_importValue (fits_inward n) (fits_undefined n) (hrecords.recordsOnly n) c w fun fields h => ?_
    refine halike.agrees_construct hrecords htyped htyped' hcalm n c fields ?_ (hw.2 c fields (.object h))
      (fun entry i t v hmakes ht hv c' fields' hasks => hw.2 c' fields' (.field h hmakes ht hv hasks)) _ _
    rw [← depth_fieldsFor h]
    exact hw.1
  rcases halike.start_or_fail (b := b₀) hrecords env.services env'.services hmeets hgroup hgroup' rfl rfl hbegin
      hsink with
    ⟨e, e', entry, s, b₁, hselect, hselect', hcode, hcode', -, hx, hy⟩ | ⟨hfails, hfails'⟩
  · refine .inl ⟨entry, s, b₁, ⟨e, hselect, hcode, hx⟩, ⟨e', hselect', hcode', hy⟩, ?_⟩
    have hrun : entry.run (env.services n) b₀ = entry.run (env'.services n) b₀ := by
      rw [halike.services] at hy ⊢
      exact Entry.run_begun hx hy
    have hdispatch : env.dispatch env.services group b₀ = env'.dispatch env'.services group' b₀ := by
      rw [dispatch_selected hselect hcode, dispatch_selected hselect' hcode']
      exact finish_at hrun halike.catching
    rw [callGroup_at, callGroup_at, ensuring, ensuring, hdispatch]
  · obtain ⟨x, b₁, hx, -⟩ := hfails.fails
    obtain ⟨y, b₂, hy, -⟩ := hfails'.fails
    have hcall {env : Environment Ω} {group : OverloadGroup} {x : CallError} {b₁ : Boundary Ω}
        (h : env.dispatch env.services group b₀ = .error (.error x) b₁) :
        ∃ b₂, env.callGroup group receiver args b = .error (.error x) b₂ :=
      ⟨_, by rw [callGroup_at, ensuring, h]⟩
    obtain ⟨b₃, hx⟩ := hcall hx
    obtain ⟨b₄, hy⟩ := hcall hy
    exact .inr ⟨hfails, hfails', x, b₃, y, b₄, hx, hy⟩

/-- **Checked calls agree with unchecked ones.** A call starts the same native code on the same receiver, arguments and
state and ends in the same way with arguments checked on every call as without, or fails before in both. The same holds
of an engine in which the code is declared with or without checks of its own and beside whatever other overloads, as
long as the constructors that the conversion of the arguments asks for have the same code there. -/
theorem checks_agree (hrecords : env.RecordBindings) (htyped : env.TypedConstructors)
    (hcalm : ∀ c n entry, env.Makes c n entry → entry.Calm env.program.host) {serves : Entry Ω → Prop}
    (hgroup : group.Leads env.registry.signatures serves) (receiver : Option Handle) (args : List Wire)
    (b : Boundary Ω) :
    (∀ on, env.CallsAgree (env.checking on) group group receiver args b) ∧
    ∀ env' group', env.Alike env' → env'.TypedConstructors → group'.Leads env'.registry.signatures serves →
      env.Meets env' group group' args.length →
      (∀ c fields, env.AsksFor group args c fields → env.MeetsAt env' c fields.length) →
      env.CallsAgree env' group group' receiver args b := by
  refine ⟨fun on => ?_, fun env' group' halike htyped' hgroup' hmeets hasks => ?_⟩
  · refine (env.alike_checking on).agrees hrecords htyped htyped hcalm hgroup hgroup rfl (fun c fields _ => ?_) receiver b
    intro d d' hd hd'
    have hsame : d = d' := Option.some.inj (hd.symm.trans hd')
    rw [hsame]
    rfl
  · exact halike.agrees hrecords htyped htyped' hcalm hgroup hgroup' hmeets hasks receiver b

/-! ## Points -/

open Catalog

section
variable {r r' : Registry (Upcast Specimen) (Code Specimen)} {signatures signatures' : List (Signature (Code Specimen))}
    {overloads overloads' : List (Nat × EntryRef)}

theorem alike_opened : (opened r signatures overloads).Alike (opened r' signatures' overloads') where
  program := rfl
  bindings := rfl
  catching := rfl
  fallback := rfl
  exposed := fun _ => rfl
  upcasts := rfl
  classes := fun c => by
    unfold Registry.class? opened
    rw [List.find?_cons, List.find?_cons]
    by_cases hc : Species.point.cls = c
    · rw [show (decide ((pointClass overloads').markReady.cls = c)) = true from decide_eq_true hc,
        show (decide ((pointClass overloads).markReady.cls = c)) = true from decide_eq_true hc]
      rfl
    · rw [show (decide ((pointClass overloads').markReady.cls = c)) = false from decide_eq_false hc,
        show (decide ((pointClass overloads).markReady.cls = c)) = false from decide_eq_false hc]

theorem recordBindings_opened : (opened r signatures overloads).RecordBindings := by
  intro c binding h
  change List.lookup c [(Species.point.cls, HostBinding.record)] = some binding at h
  rw [List.lookup_cons] at h
  split at h
  · cases h
    rfl
  · cases h

theorem typedConstructors_opened (h : (pointGroup overloads).Leads ⟨signatures⟩ (Entry.Serves Species.point.cls .constructor)) :
    (opened r signatures overloads).TypedConstructors := by
  intro c d hd
  obtain ⟨rfl, rfl⟩ := class?_opened hd
  exact h

theorem calm_opened {host : HostBehaviour} (h : ∀ s ∈ signatures, ∀ e ∈ s.entries, ∀ entry, e.code = .typed entry → entry.Calm host)
    {c : Class} {n : Nat} {entry : Entry Specimen} (hmakes : (opened r signatures overloads).Makes c n entry) :
    entry.Calm host := by
  obtain ⟨d, e, -, he, hcode⟩ := hmakes
  obtain ⟨ref, s, -, hentry⟩ := overload?_eq_some.mp he
  obtain ⟨hs, hi⟩ := SignatureTable.entry?_eq_some.mp hentry
  exact h s (List.mem_of_getElem? hs) e (List.mem_of_getElem? hi) entry hcode

end

/-- Points are made from points only. -/
def copies : Environment Specimen :=
  pointEngine .none [pointOfPoint]

/-- Points are made from points or from coordinates. -/
def points : Environment Specimen :=
  pointEngine .none [pointOfPoint, pointOfXY]

/-- Points are made from points, from coordinates or from nothing, of checked arguments. -/
def strictPoints : Environment Specimen :=
  pointEngine .strict [pointOfPoint, pointOfXY, pointOfNothing]

theorem copies_eq : copies =
    opened (pointRegistry .none [pointOfPoint]) [pointSignature .none pointOfPoint] [(1, ⟨0, 0⟩)] :=
  pointEngine_eq rfl rfl rfl rfl rfl

theorem points_eq : points = opened (pointRegistry .none [pointOfPoint, pointOfXY])
    [pointSignature .none pointOfPoint, pointSignature .none pointOfXY] [(1, ⟨0, 0⟩), (2, ⟨1, 0⟩)] :=
  pointEngine_eq rfl rfl rfl rfl rfl

theorem strictPoints_eq : strictPoints = opened (pointRegistry .strict [pointOfPoint, pointOfXY, pointOfNothing])
    [pointSignature .strict pointOfPoint, pointSignature .strict pointOfXY, pointSignature .strict pointOfNothing]
    [(0, ⟨2, 0⟩), (1, ⟨0, 0⟩), (2, ⟨1, 0⟩)] :=
  pointEngine_eq rfl rfl rfl rfl rfl

/-- The point that a call of a constructor leaves. -/
def pointAt : EStateM.Result Interrupt (Boundary Specimen) Wire → Option Point
  | .ok (.pointer p) b => (b.heap.cells[p.address]?).map (·.object.asPoint)
  | _ => none

theorem pointAt_points : pointAt (points.callGroup (pointGroup [(1, ⟨0, 0⟩), (2, ⟨1, 0⟩)]) none
    [.array [.int 1, .int 2]] .empty) = some ⟨1, 2⟩ := by
  rw [points_eq]
  generalize pointRegistry .none [pointOfPoint, pointOfXY] = r
  cbv

/-- A point's copy is not made alone as it is beside the constructor from coordinates: from an array of these it is
made only there. -/
theorem copies_not_agree : copies.Alike points ∧
    copies.Meets points (pointGroup [(1, ⟨0, 0⟩)]) (pointGroup [(1, ⟨0, 0⟩), (2, ⟨1, 0⟩)]) 1 ∧
    ¬copies.CallsAgree points (pointGroup [(1, ⟨0, 0⟩)]) (pointGroup [(1, ⟨0, 0⟩), (2, ⟨1, 0⟩)]) none
      [.array [.int 1, .int 2]] .empty := by
  refine ⟨?_, ?_, ?_⟩
  · rw [copies_eq, points_eq]
    exact alike_opened
  · rw [copies_eq, points_eq]
    rfl
  · have hmade := pointAt_points
    have hnone : pointAt (copies.callGroup (pointGroup [(1, ⟨0, 0⟩)]) none [.array [.int 1, .int 2]] .empty) = none := by
      rw [copies_eq]
      generalize pointRegistry .none [pointOfPoint] = r
      cbv
    rintro (⟨entry, s, b₁, -, -, hsame⟩ | ⟨-, -, x, b₁, y, b₂, -, hfails⟩)
    · rw [hsame, hmade] at hnone
      cases hnone
    · rw [hfails] at hmade
      cases hmade

theorem calm_points {host : HostBehaviour} {flags : TypeFlags} {e : Entry Specimen}
    (he : e ∈ [pointOfPoint, pointOfXY, pointOfNothing]) {s : Signature (Code Specimen)} (hs : s = pointSignature flags e) :
    ∀ e' ∈ s.entries, ∀ entry, e'.code = .typed entry → entry.Calm host := by
  subst hs
  intro e' he' entry hcode
  rw [List.mem_singleton.mp he'] at hcode
  cases hcode
  simp only [List.mem_cons, List.not_mem_nil, or_false] at he
  rcases he with rfl | rfl | rfl <;> exact fun _ _ s => ⟨_, rfl⟩

/-- A point is made from an array of its coordinates with and without checks, and beside whatever else makes points. -/
theorem points_agree :
    (∀ on, points.CallsAgree (points.checking on) (pointGroup [(1, ⟨0, 0⟩), (2, ⟨1, 0⟩)])
      (pointGroup [(1, ⟨0, 0⟩), (2, ⟨1, 0⟩)]) none [.array [.int 1, .int 2]] .empty) ∧
    points.CallsAgree strictPoints (pointGroup [(1, ⟨0, 0⟩), (2, ⟨1, 0⟩)])
      (pointGroup [(0, ⟨2, 0⟩), (1, ⟨0, 0⟩), (2, ⟨1, 0⟩)]) none [.array [.int 1, .int 2]] .empty := by
  have hleads : (pointGroup [(1, ⟨0, 0⟩), (2, ⟨1, 0⟩)]).Leads
      ⟨[pointSignature .none pointOfPoint, pointSignature .none pointOfXY]⟩
      (Entry.Serves Species.point.cls .constructor) := by
    rintro (_ | _ | _ | n) ref h <;> cases h
    · exact ⟨_, _, pointOfPoint, rfl, rfl, rfl, rfl, rfl⟩
    · exact ⟨_, _, pointOfXY, rfl, rfl, rfl, rfl, rfl⟩
  have hleads' : (pointGroup [(0, ⟨2, 0⟩), (1, ⟨0, 0⟩), (2, ⟨1, 0⟩)]).Leads
      ⟨[pointSignature .strict pointOfPoint, pointSignature .strict pointOfXY, pointSignature .strict pointOfNothing]⟩
      (Entry.Serves Species.point.cls .constructor) := by
    rintro (_ | _ | _ | n) ref h <;> cases h
    · exact ⟨_, _, pointOfNothing, rfl, rfl, rfl, rfl, rfl⟩
    · exact ⟨_, _, pointOfPoint, rfl, rfl, rfl, rfl, rfl⟩
    · exact ⟨_, _, pointOfXY, rfl, rfl, rfl, rfl, rfl⟩
  have hcalm : ∀ c n entry, points.Makes c n entry → entry.Calm points.program.host := by
    intro c n entry hmakes
    rw [points_eq] at hmakes
    refine calm_opened (fun s hs => ?_) hmakes
    simp only [List.mem_cons, List.not_mem_nil, or_false] at hs
    rcases hs with hs | hs
    · exact calm_points (by simp) hs
    · exact calm_points (by simp) hs
  have hmeets (n : Nat) (hn : n = 1 ∨ n = 2) : points.Meets strictPoints (pointGroup [(1, ⟨0, 0⟩), (2, ⟨1, 0⟩)])
      (pointGroup [(0, ⟨2, 0⟩), (1, ⟨0, 0⟩), (2, ⟨1, 0⟩)]) n := by
    rw [points_eq, strictPoints_eq]
    rcases hn with rfl | rfl <;> rfl
  have hasks : ∀ c fields, points.AsksFor (pointGroup [(1, ⟨0, 0⟩), (2, ⟨1, 0⟩)]) [.array [.int 1, .int 2]] c fields →
      points.MeetsAt strictPoints c fields.length := by
    rintro c fields ⟨e, entry, he, hcode, i, t, w, ht, hw, hasks⟩
    have hxy {entry : Entry Specimen} (hmakes : points.Makes Species.point.cls 2 entry) : entry = pointOfXY := by
      obtain ⟨d, e, hd, he, hcode⟩ := hmakes
      rw [points_eq] at hd he
      obtain ⟨-, rfl⟩ := class?_opened hd
      cases he
      cases hcode
      rfl
    rw [points_eq] at he
    cases he
    cases hcode
    rcases i with _ | i <;> cases ht
    cases hw
    cases hasks with
    | object h =>
      cases h
      intro d d' hd hd'
      rw [points_eq] at hd
      rw [strictPoints_eq] at hd'
      obtain ⟨-, rfl⟩ := class?_opened hd
      obtain ⟨-, rfl⟩ := class?_opened hd'
      exact hmeets 2 (.inr rfl)
    | field h hmakes ht hv hasks =>
      -- No coordinate is imported.
      cases h
      obtain rfl := hxy hmakes
      rename_i i _ _
      rcases i with _ | _ | i <;> cases ht <;> cases hasks
  have htyped : points.TypedConstructors := by
    rw [points_eq]
    exact typedConstructors_opened hleads
  have htyped' : strictPoints.TypedConstructors := by
    rw [strictPoints_eq]
    exact typedConstructors_opened hleads'
  have hrecords : points.RecordBindings := by
    rw [points_eq]
    exact recordBindings_opened
  have halike : points.Alike strictPoints := by
    rw [points_eq, strictPoints_eq]
    exact alike_opened
  have hgroup : (pointGroup [(1, ⟨0, 0⟩), (2, ⟨1, 0⟩)]).Leads points.registry.signatures
      (Entry.Serves Species.point.cls .constructor) := by
    rw [points_eq]
    exact hleads
  have hgroup' : (pointGroup [(0, ⟨2, 0⟩), (1, ⟨0, 0⟩), (2, ⟨1, 0⟩)]).Leads strictPoints.registry.signatures
      (Entry.Serves Species.point.cls .constructor) := by
    rw [strictPoints_eq]
    exact hleads'
  obtain ⟨hchecking, hother⟩ := checks_agree hrecords htyped hcalm hgroup none [.array [.int 1, .int 2]] .empty
  exact ⟨hchecking, hother strictPoints _ halike htyped' hgroup' (hmeets 1 (.inl rfl)) hasks⟩

end Environment
end NativeBridge
