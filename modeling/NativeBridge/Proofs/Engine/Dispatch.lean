import NativeBridge.Proofs.Call.Agreement
import NativeBridge.Proofs.Call.Sinks
import NativeBridge.Proofs.Engine.Gated
/-!
# What a dispatch comes to

A call of a group is sent to the overload for the number of its arguments. A check before it refuses no arguments that
can be converted (`Environment.select_begun`), so it fails before its native code runs exactly where it fails without the
check; and what it reports is the first error that its run left behind, or else the run's result.
-/
namespace NativeBridge
variable {Ω : Type} [ObjectModel Ω] {α β : Type}

open Act

/-! ## What was converted was not refused -/

namespace Entry

theorem refused_token {ts ts' : List NativeType} (h : ts.map NativeType.token = ts'.map NativeType.token) :
    ∀ (ws : List Wire) (i j : Nat),
      Signature.firstRefused ts ws i = none → Signature.firstRefused ts' ws j = none := by
  induction ts generalizing ts' with
  | nil =>
    obtain rfl := List.map_eq_nil_iff.mp h.symm
    exact fun _ _ _ _ => rfl
  | cons t ts ih =>
    cases ts' with
    | nil => cases h
    | cons t' ts' =>
      obtain ⟨htoken, hrest⟩ := List.cons.inj h
      intro ws i j
      cases ws with
      | nil => exact fun _ => rfl
      | cons w ws =>
        have haccepts : t.accepts w = t'.accepts w := by
          rw [← NativeType.accepts_token t, htoken, NativeType.accepts_token]
        unfold Signature.firstRefused
        rw [haccepts]
        split
        · exact ih hrest ws (i + 1) (j + 1)
        · intro hnone
          cases hnone

theorem firstRefused_eq_none : ∀ {ts : List NativeType} {ws : List Wire} (i : Nat),
    (∀ (j : Nat) (t : NativeType), ts[j]? = some t → ∃ w, ws[j]? = some w ∧ t.accepts w = true) → Signature.firstRefused ts ws i = none
  | [], _, _, _ => rfl
  | t :: ts, [], _, h => by
    obtain ⟨w, hw, -⟩ := h 0 t rfl
    cases hw
  | t :: ts, w :: ws, i, h => by
    obtain ⟨v, hv, haccepts⟩ := h 0 t rfl
    obtain rfl : w = v := Option.some.inj hv
    rw [Signature.firstRefused, if_pos haccepts]
    exact firstRefused_eq_none (i + 1) fun j u hu => h (j + 1) u hu

/-- Arguments that were converted are not refused. -/
theorem Converts.not_refused {sv : Services Ω} (hrecords : sv.RecordsOnly) {ts : List NativeType}
    {xs : NativeType.Values Ω ts} {b b' : Boundary Ω} (h : Converts sv ts xs b b') :
    Signature.firstRefused ts b.call.args 0 = none := by
  refine firstRefused_eq_none 0 fun j t ht => ?_
  obtain ⟨x, c, c', w, hw, hok⟩ := h.arg ht
  exact ⟨w, hw, Convert.accepts_of_fromWire hrecords t w hok⟩

end Entry

/-- Native code as the action that it is. -/
def Code.run (services : Nat → Services Ω) : Code Ω → Act Ω Unit
  | .typed entry => do entry.run (services (Wire.depthAll (← get).call.args))
  | .raw run => run services

namespace Environment

/-- The entry that the calls of a group with `n` arguments are sent to. -/
def overload? (env : Environment Ω) (group : OverloadGroup) (n : Nat) : Option (SignatureEntry (Code Ω)) :=
  (group.overload? n).bind fun ref => (env.registry.signatures.entry? ref).map (·.2)


variable {env env' : Environment Ω}

/-! ## What comes through -/

theorem overload?_eq_some {group : OverloadGroup} {n : Nat} {e : SignatureEntry (Code Ω)} :
    env.overload? group n = some e ↔
      ∃ ref s, group.overload? n = some ref ∧ env.registry.signatures.entry? ref = some (s, e) := by
  unfold overload?
  rw [Option.bind_eq_some_iff]
  constructor
  · rintro ⟨ref, href, he⟩
    obtain ⟨⟨s, e'⟩, hentry, rfl⟩ := Option.map_eq_some_iff.mp he
    exact ⟨ref, s, href, hentry⟩
  · rintro ⟨ref, s, href, he⟩
    exact ⟨ref, href, by rw [he, Option.map_some]⟩

theorem select_overload {group : OverloadGroup} {b : Boundary Ω} {e : SignatureEntry (Code Ω)}
    (h : env.select group b = .ok e) : env.overload? group b.call.args.length = some e :=
  overload?_eq_some.mpr (select_ok h)

/-- A call whose arguments its entry accepts is not refused for them. -/
theorem select_accepted {group : OverloadGroup} {serves : Entry Ω → Prop}
    (hgroup : group.Leads env.registry.signatures serves) {b : Boundary Ω} {e : SignatureEntry (Code Ω)} {entry : Entry Ω}
    (he : env.overload? group b.call.args.length = some e) (hcode : e.code = .typed entry)
    (haccepts : Signature.firstRefused entry.params b.call.args 0 = none) :
    env.select group b = (checkConst b e.name e.flags).map fun _ => e := by
  obtain ⟨ref, signature, href, hentry⟩ := overload?_eq_some.mp he
  have hchecked : signature.checkArgs b.call.args = .ok () := by
    obtain ⟨signature', e', entry', hentry', hcode', hlength, htokens, -⟩ := hgroup _ ref href
    rw [hentry] at hentry'
    cases hentry'
    rw [hcode] at hcode'
    cases hcode'
    unfold Signature.checkArgs
    rw [if_neg (not_not.mpr hlength.symm), Entry.refused_token htokens.symm _ 0 0 haccepts]
  have hregistered := Registry.entry_eq_ok.mpr hentry
  unfold select
  rw [OverloadGroup.resolve_ok.mpr href]
  change (do
    let found ← env.registry.entry ref
    _ : Except CallError _) = _
  rw [hregistered]
  change (do
    if signature.key.strict || env.config.isOn .strictTypeChecks || !group.isSingle then
      signature.checkArgs b.call.args
    checkConst b e.name e.flags
    pure e : Except CallError _) = _
  rw [hchecked]
  split <;> cases checkConst b e.name e.flags <;> rfl

/-- A call whose arguments can be converted is not refused for them. -/
theorem select_begun {group : OverloadGroup} {serves : Entry Ω → Prop}
    (hgroup : group.Leads env.registry.signatures serves) {n : Nat} (hrecords : (env.services n).RecordsOnly)
    {b b₁ : Boundary Ω} {e : SignatureEntry (Code Ω)} {entry : Entry Ω} {s : entry.Start}
    (he : env.overload? group b.call.args.length = some e) (hcode : e.code = .typed entry)
    (hbegin : entry.begin (env.services n) b = .ok s b₁) :
    env.select group b = (checkConst b e.name e.flags).map fun _ => e := by
  obtain ⟨xs, b₂, hargs, hbegin⟩ := Act.bind_eq_ok hbegin
  obtain ⟨-, hconverts⟩ := Entry.arguments_ok hargs
  exact select_accepted hgroup he hcode (hconverts.not_refused hrecords)

/-! ## What becomes of a run -/

variable {services services' : Nat → Services Ω} {entry : Entry Ω} {b b' : Boundary Ω}

/-- Report the first error of a call, or else its result. -/
def report : Act Ω Wire := do
  match ← Act.takeError with
  | some e => Act.fail e
  | none => Act.takeResult

omit [ObjectModel Ω] in
theorem report_eq (b : Boundary Ω) : report b =
    match b.errorIn b.call.sink with
    | some e => .error (.error e) { b with sinks := b.sinks.set b.call.sink none }
    | none => .ok b.call.result
        { b with sinks := b.sinks.set b.call.sink none, call := { b.call with result := .undefined } } := by
  have htake : (Act.takeError : Act Ω (Option CallError)) b =
      .ok (b.errorIn b.call.sink) { b with sinks := b.sinks.set b.call.sink none } := rfl
  unfold report
  rw [Act.bind_ok htake]
  cases b.errorIn b.call.sink <;> rfl

omit [ObjectModel Ω] in
theorem report_error {i : Interrupt} (h : report b = .error i b') : ∃ e, i = .error e := by
  rw [report_eq] at h
  cases he : b.errorIn b.call.sink with
  | some e =>
    rw [he] at h
    cases h
    exact ⟨e, rfl⟩
  | none =>
    rw [he] at h
    cases h

section
variable {code code' : Code Ω} {i : Interrupt}

/-- A run whose panics are errors where the configuration says so. -/
def catching (env : Environment Ω) (act : Act Ω Unit) : Act Ω Unit :=
  if env.config.isOn .catchNativePanics then (do
    match ← act.outcome with
    | .error (.panic p) => Act.fail (.native (panicMessage p))
    | r => Act.ofOutcome r)
  else act

/-- What becomes of a run in a call: its error is recorded, and the first error of the call or else its result is
reported. -/
def concluding (env : Environment Ω) (act : Act Ω Unit) : Act Ω Wire := do
  if let .error e := ← (env.catching act).attempt then Act.record e
  report

theorem runCode_eq (env : Environment Ω) (services : Nat → Services Ω) (code : Code Ω) :
    env.runCode services code = env.catching (code.run services) := by
  cases code <;> rfl

theorem finish_eq (env : Environment Ω) (services : Nat → Services Ω) (code : Code Ω) :
    env.finish services code = env.concluding (code.run services) := by
  unfold finish concluding
  rw [runCode_eq]
  rfl

/-- What a call comes to depends on its run only. -/
theorem concluding_at {act act' : Act Ω Unit} (h : act b = act' b')
    (hcatch : env'.config.isOn .catchNativePanics = env.config.isOn .catchNativePanics) :
    env.concluding act b = env'.concluding act' b' := by
  have hcatching : env.catching act b = env'.catching act' b' := by
    unfold catching
    rw [hcatch]
    split
    · refine Act.bind_at ?_ _
      unfold Act.outcome
      rw [h]
    · exact h
  refine Act.bind_at ?_ _
  unfold Act.attempt
  rw [hcatching]

/-- What a call comes to depends on the run of its native code only. -/
theorem finish_at (h : code.run services b = code'.run services' b')
    (hcatch : env'.config.isOn .catchNativePanics = env.config.isOn .catchNativePanics) :
    env.finish services code b = env'.finish services' code' b' := by
  rw [finish_eq, finish_eq, concluding_at h hcatch]

theorem finish_ok (h : code.run services b = .ok () b') : env.finish services code b = report b' := by
  have hrun : env.runCode services code b = .ok () b' := by
    rw [runCode_eq, catching]
    split
    · exact Act.bind_ok (show (code.run services).outcome b = .ok (.ok ()) b' by rw [Act.outcome, h])
    · exact h
  exact Act.bind_ok (show (env.runCode services code).attempt b = .ok (.ok ()) b' by rw [Act.attempt, hrun])

theorem finish_caught (h : code.run services b = .error i b')
    (hi : i.escapes (env.config.isOn .catchNativePanics) = false) :
    ∃ e, env.finish services code b = (do Act.record e; report : Act Ω Wire) b' := by
  have hrun : ∃ e, env.runCode services code b = .error (.error e) b' := by
    have houtcome : (code.run services).outcome b = .ok (.error i) b' := by rw [Act.outcome, h]
    rw [runCode_eq, catching]
    split
    · rename_i hcatch
      rw [hcatch] at hi
      cases i with
      | error e => exact ⟨e, Act.bind_ok houtcome⟩
      | panic p => exact ⟨.native (panicMessage p), Act.bind_ok houtcome⟩
      | nesting => cases hi
    · rename_i hcatch
      rw [Bool.not_eq_true] at hcatch
      rw [hcatch] at hi
      cases i with
      | error e => exact ⟨e, h⟩
      | panic p => cases hi
      | nesting => cases hi
  obtain ⟨e, hrun⟩ := hrun
  exact ⟨e, Act.bind_ok (show (env.runCode services code).attempt b = .ok (.error e) b' by rw [Act.attempt, hrun])⟩

theorem finish_escaped (h : code.run services b = .error i b')
    (hi : i.escapes (env.config.isOn .catchNativePanics) = true) : env.finish services code b = .error i b' := by
  have hrun : env.runCode services code b = .error i b' := by
    have houtcome : (code.run services).outcome b = .ok (.error i) b' := by rw [Act.outcome, h]
    rw [runCode_eq, catching]
    split
    · rename_i hcatch
      rw [hcatch] at hi
      cases i with
      | error e => cases hi
      | panic p => cases hi
      | nesting => exact Act.bind_ok houtcome
    · exact h
  have hattempt : (env.runCode services code).attempt b = .error i b' := by
    cases i with
    | error e => cases hi
    | _ => rw [Act.attempt, hrun]
  exact bind_error hattempt

/-- How a call finishes, from how its native code ends. -/
inductive Finishes (env : Environment Ω) (services : Nat → Services Ω) (code : Code Ω) (b : Boundary Ω) :
    EStateM.Result Interrupt (Boundary Ω) Wire → Prop
  | ran {b' : Boundary Ω} (hrun : code.run services b = .ok () b') : Finishes env services code b (report b')
  | caught {i : Interrupt} {b' : Boundary Ω} (hrun : code.run services b = .error i b')
      (hi : i.escapes (env.config.isOn .catchNativePanics) = false) (x : CallError) :
      Finishes env services code b (report { b' with sinks := recordIn b'.sinks b'.call.sink x })
  | escaped {i : Interrupt} {b' : Boundary Ω} (hrun : code.run services b = .error i b')
      (hi : i.escapes (env.config.isOn .catchNativePanics) = true) : Finishes env services code b (.error i b')

theorem finishes (env : Environment Ω) (services : Nat → Services Ω) (code : Code Ω) (b : Boundary Ω) :
    env.Finishes services code b (env.finish services code b) := by
  cases hrun : code.run services b with
  | ok _ b' =>
    rw [finish_ok hrun]
    exact .ran hrun
  | error i b' =>
    cases hi : i.escapes (env.config.isOn .catchNativePanics) with
    | false =>
      obtain ⟨x, hfinish⟩ := finish_caught hrun hi
      rw [hfinish]
      exact .caught hrun hi x
    | true =>
      rw [finish_escaped hrun hi]
      exact .escaped hrun hi

omit [ObjectModel Ω] in
theorem report_held {k : SinkId} {e : CallError} (hb : b.Holds k (some e)) :
    report b = .error (.error e) { b with sinks := b.sinks.set k none } := by
  have herror : b.errorIn k = some e := by
    unfold Boundary.errorIn
    rw [hb.2]
    rfl
  rw [report_eq, hb.1, herror]

end

omit [ObjectModel Ω] in
/-- A recorded error is in the sink of the call, or one that was there before. -/
theorem holds_recorded (hsink : b.call.sink < b.sinks.length) (x : CallError) :
    ∃ y, ({ b with sinks := recordIn b.sinks b.call.sink x } : Boundary Ω).Holds b.call.sink (some y) := by
  cases hheld : b.sinks.get ⟨b.call.sink, hsink⟩ with
  | none => exact ⟨x, rfl, recordIn_self (List.getElem?_eq_some_iff.mpr ⟨hsink, hheld⟩) x⟩
  | some y => exact ⟨y, rfl, recordIn_held (List.getElem?_eq_some_iff.mpr ⟨hsink, hheld⟩) _ x⟩

theorem finish_error (env : Environment Ω) {x : CallError}
    (h : entry.run (services (Wire.depthAll b.call.args)) b = .error (.error x) b')
    (hsink : b'.call.sink < b'.sinks.length) :
    ∃ y b₂, env.finish services (.typed entry) b = .error (.error y) b₂ ∧ b₂.call = b'.call ∧
      b₂.sinks.length = b'.sinks.length := by
  obtain ⟨x, hfinish⟩ : ∃ x, env.finish services (.typed entry) b =
      report { b' with sinks := recordIn b'.sinks b'.call.sink x } := finish_caught h rfl
  obtain ⟨y, hy⟩ := holds_recorded hsink x
  refine ⟨y, _, hfinish.trans (report_held hy), rfl, ?_⟩
  rw [List.length_set]
  exact List.length_modify _ _ _

theorem local_constructed (name : String) (w : Wire) : (constructed name w : Act Ω Pointer).Local := by
  cases w with
  | pointer p => exact .pure _
  | _ => exact Convert.local_refuse _ _

theorem callGroup_at (env : Environment Ω) (group : OverloadGroup) (receiver : Option Handle) (args : List Wire)
    (b : Boundary Ω) : env.callGroup group receiver args b =
      (env.dispatch env.services group).ensuring
        (fun inner => { inner.drop inner.call.refs with call := b.call }) (entering b receiver args) := rfl

/-! ## Calls that agree -/

/-- The call in progress starts the native code of an entry. -/
def Starts (env : Environment Ω) (services : Nat → Services Ω) (group : OverloadGroup) (b : Boundary Ω)
    (entry : Entry Ω) (s : entry.Start) (b₁ : Boundary Ω) : Prop :=
  ∃ e, env.select group b = .ok e ∧ e.code = .typed entry ∧
    entry.begin (services (Wire.depthAll b.call.args)) b = .ok s b₁

/-- The call in progress fails without having started any native code. -/
structure Fails (env : Environment Ω) (services : Nat → Services Ω) (group : OverloadGroup) (b : Boundary Ω) : Prop where
  stops : ∀ entry s b₁, ¬env.Starts services group b entry s b₁
  fails : ∃ x b₁, env.dispatch services group b = .error (.error x) b₁ ∧ b₁.call.sink = b.call.sink ∧
    b.call.sink < b₁.sinks.length

variable {group group' : OverloadGroup}

theorem dispatch_refused {x : CallError} (h : env.select group b = .error x) :
    env.dispatch services group b = .error (.error x) b := by
  rw [dispatch_eq, h]
  rfl

theorem fails_of_select {x : CallError} (h : env.select group b = .error x) (hsink : b.call.sink < b.sinks.length) :
    env.Fails services group b := by
  refine ⟨fun entry s b₁ hstarts => ?_, x, b, dispatch_refused h, rfl, hsink⟩
  obtain ⟨e, he, -⟩ := hstarts
  rw [h] at he
  cases he

theorem dispatch_selected {e : SignatureEntry (Code Ω)} (h : env.select group b = .ok e) (hcode : e.code = .typed entry) :
    env.dispatch services group b = env.finish services (.typed entry) b := by
  rw [dispatch_eq, h]
  change env.finish services e.code b = _
  rw [hcode]

theorem fails_of_begin {D : NativeType → Wire → Prop} {e : SignatureEntry (Code Ω)} {x : CallError}
    (he : env.overload? group b.call.args.length = some e) (hcode : e.code = .typed entry)
    (hbegin : entry.begin (services (Wire.depthAll b.call.args)) b = .error (.error x) b')
    (hb : b.call.sink < b.sinks.length) (hfollows : Follows D entry.params b b') : env.Fails services group b := by
  cases hselect : env.select group b with
  | error y => exact fails_of_select hselect hb
  | ok e' =>
    have hsame := select_overload hselect
    rw [he] at hsame
    cases hsame
    refine ⟨fun other s b₁ hstarts => ?_, ?_⟩
    · obtain ⟨e₁, he₁, hcode₁, hbegin₁⟩ := hstarts
      rw [hselect] at he₁
      cases he₁
      rw [hcode] at hcode₁
      cases hcode₁
      rw [hbegin] at hbegin₁
      cases hbegin₁
    · obtain ⟨y, b₂, hfinish, hcall, hlength⟩ := finish_error env (Entry.run_error hbegin) hfollows.proper.sink
      refine ⟨y, b₂, ?_, ?_, ?_⟩
      · rw [dispatch_selected hselect hcode]
        exact hfinish
      · rw [hcall, hfollows.same]
      · rw [hlength, ← hfollows.same]
        exact hfollows.proper.sink

end Environment
end NativeBridge
