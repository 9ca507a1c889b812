import NativeBridge.Proofs.Call.SentArguments
import NativeBridge.Proofs.Engine.Checks
import NativeBridge.Proofs.Engine.Gated
/-!
# Constructors that rebuild

An object of a value type is read back by running a constructor on the components that it was sent by. If the constructor
rebuilds the object (`Environment.Rebuilds`) and the components stand for what they were sent as, a record of them stands
for the object (`Environment.standing_record`). Native code is asked for no more than that it leaves alone what it has no
reference to (`Body.Spares`).
-/
namespace NativeBridge
variable {Ω : Type} [ObjectModel Ω] {α : Type}

open Act

/-! ## Bodies that rebuild -/

/-- Run now, the body makes `x`, and no error is left for the call in progress. -/
def Body.Remakes (host : HostBehaviour) (body : Body Ω Unit α) (x : α) (b : Boundary Ω) : Prop :=
  ∀ ended b', Body.run host () body b = .ok ended b' → ended.outcome = .ok x ∧ (b.Clear → b'.Clear)

/-- Whenever it is run, the body leaves alone what was made after `old` and a wrapper alone holds. Native code does: it
holds no reference to such an object. -/
def Body.Spares (host : HostBehaviour) (body : Body Ω Unit α) (old : Address) : Prop :=
  ∀ b ended b', Body.run host () body b = .ok ended b' →
    ∀ a o, old ≤ a → b.Sole a o → b'.Sole a o ∧ a ∉ ended.fresh

omit [ObjectModel Ω] in
theorem Body.remakes_done (host : HostBehaviour) (x : α) (b : Boundary Ω) :
    (Body.done x : Body Ω Unit α).Remakes host x b := by
  intro ended b' h
  cases h
  exact ⟨rfl, id⟩

theorem Body.spares_done (host : HostBehaviour) (x : α) (old : Address) :
    (Body.done x : Body Ω Unit α).Spares host old := by
  intro b ended b' h a o _ ho
  cases h
  exact ⟨ho, List.not_mem_nil⟩

omit [ObjectModel Ω] in
/-- A run of a body ends, and leaves the table and the call alone. -/
theorem Body.run_ok (host : HostBehaviour) (body : Body Ω Unit α) (b : Boundary Ω) :
    ∃ ended b', Body.run host () body b = .ok ended b' ∧ b'.table = b.table ∧ b'.call = b.call :=
  ⟨_, _, rfl, rfl, rfl⟩

theorem Act.setResult_undefined {b : Boundary Ω} (hb : b.call.result = .undefined) (w : Wire) :
    setResult w b = .ok () { b with call := { b.call with result := w } } := by
  have hold : b.call.result.refs = [] := by rw [hb]; rfl
  change EStateM.Result.ok () (Boundary.drop { b with call := { b.call with result := w } } b.call.result.refs) = _
  rw [hold]
  unfold Boundary.drop Holdings.drop
  rw [Heap.release_nil]

theorem Wire.refsAll_replicate : ∀ n, Wire.refsAll (List.replicate n .undefined) = []
  | 0 => rfl
  | n + 1 => Wire.refsAll_replicate n

namespace Entry
variable {sv : Nat → Services Ω} {old : Address} {once : Prop} {s : Holdings Ω} {n : Nat} {ps : List Convert.Sent}
  {xs : List (Typed Ω)} {lo hi : Address}

theorem recovers_runFree {sv : Services Ω} {body : Body Ω Unit α} {x : α} {b : Boundary Ω}
    (hremakes : body.Remakes sv.host x b) (hspares : body.Spares sv.host old) {refs : α → List Address}
    (hx : ∀ a ∈ refs x, a < old) {held : List Address} (hheld : ∀ a ∈ held, a < old) (R : Address → Prop) :
    (runFree sv refs held body).Recovers old once R b x := by
  obtain ⟨ended, b₁, hrun, htable, hcall⟩ := Body.run_ok sv.host body b
  obtain ⟨hended, hclear⟩ := hremakes ended b₁ hrun
  have hspared := hspares b ended b₁ hrun
  have hharvest : harvest refs ended b₁ = .ok x (b₁.retain (refs x)) := by
    unfold harvest
    rw [hended]
    rfl
  refine ⟨(b₁.retain (refs x)).drop (ended.fresh ++ held), ?_, fun a _ => ⟨fun g w hw _ _ => ?_, fun hold o ho => ?_⟩,
    fun g w hw => ?_, fun _ => htable, hcall, fun hb => (hclear hb).of_eq rfl rfl⟩
  · refine (Act.bind_ok hrun).trans ?_
    rw [Act.thenDrop, Act.ensuring, hharvest]
  · change b₁.table.live? g = some w
    rwa [htable]
  · obtain ⟨ho₁, hfresh⟩ := hspared a o hold ho
    have hkept : b₁.toHoldings.Keeps old (b₁.toHoldings.retain (refs x)) a :=
      Holdings.keeps_retain fun hold ha => absurd (hx a ha) (Nat.not_lt.mpr hold)
    have hretained := hkept.sole hold o ho₁
    refine (Holdings.keeps_drop fun hold _ _ ha => ?_).sole hold o hretained
    rcases List.mem_append.mp ha with ha | ha
    · exact hfresh ha
    · exact absurd (hheld a ha) (Nat.not_lt.mpr hold)
  · change b₁.table.live? g = some w at hw
    rwa [htable] at hw

/-- A constructor that rebuilds an object from its arguments puts it into the cell of the next address, which it leaves
as its result. -/
theorem run_rebuilding {c : Class} {x : Instance Ω c}
    {body : NativeType.Values Ω (xs.map (·.type)) → Body Ω Unit (Instance Ω c)}
    (hremakes : ∀ b b', arguments (sv n) (xs.map (·.type)) (fun _ => .ok ()) b = .ok (valuesOf xs) b' →
      (body (valuesOf xs)).Remakes (sv n).host x b')
    (hspares : (body (valuesOf xs)).Spares (sv n).host old) (hx : ∀ a ∈ x.refs, a < old)
    (h : Convert.Row (StandsFor sv old once s) lo hi ps xs) (hn : Wire.depthAll (ps.map Convert.Sent.wire) ≤ n)
    {w : Wire} {b : Boundary Ω} (hb : Convert.Lasts old s ⟨w, lo, hi⟩ b.toHoldings)
    (hreceiver : b.call.receiver = none) (hclear : b.Clear) (hargs : b.call.args = ps.map Convert.Sent.wire)
    (hresult : b.call.result = .undefined) :
    ∃ b₁ : Boundary Ω, (b.withArgs (List.replicate ps.length .undefined)).Reads old once (Convert.Sent.mk w lo hi).Covers b₁ ∧
      (Entry.constructor c (xs.map (·.type)) body).run (sv n) b = .ok () { b₁ with
        heap := (b₁.heap.alloc x.object).2
        call := { b₁.call with result := .pointer ⟨c, b₁.heap.cells.length, false⟩ } } := by
  obtain ⟨b₁, harguments, h₁⟩ := arguments_ok_standing h hn hb hreceiver hclear hargs
  have hrecovers : (runFree (sv n) Instance.refs (NativeType.valuesRefs _ (valuesOf xs)) (body (valuesOf xs))).Recovers old
      once (Convert.Sent.mk w lo hi).Covers b₁ x :=
    recovers_runFree (hremakes b b₁ harguments) hspares hx (refs_values h.each).2 _
  obtain ⟨b₂, hfree, h₂⟩ := hrecovers
  refine ⟨b₂, h₁.trans h₂, ?_⟩
  have hundefined : b₂.call.result = .undefined := by
    rw [h₂.call, h₁.call]
    exact hresult
  have hset := Act.setResult_undefined
    (b := { b₂ with heap := (b₂.heap.alloc x.object).2 }) hundefined (.pointer ⟨c, b₂.heap.cells.length, false⟩)
  exact (Act.bind_ok harguments).trans ((Act.bind_ok hfree).trans ((Act.bind_ok rfl).trans hset))

end Entry

namespace Environment
variable {env : Environment Ω}

/-- The object is exported as one tuple, from which the constructor of that many arguments makes it again: whenever its
arguments are converted to these. -/
structure Rebuilds (env : Environment Ω) (old : Address) (c : Class) (x : Instance Ω c)
    (xs : List (NativeBridge.Typed Ω)) : Prop where
  declared : ∃ d, env.registry.class? c = some d ∧ d.declared = true ∧ d.valueType = true
  exported : ∃ answer : Except CallError Unit → Except CallError Unit,
    (env.program.exporter c).script x.object = .emit xs fun r => .done (answer r)
  rebuilt : ∃ body, env.Makes c xs.length (.constructor c (xs.map (·.type)) body) ∧
    (∀ n b b', Entry.arguments (env.services n) (xs.map (·.type)) (fun _ => .ok ()) b = .ok (Entry.valuesOf xs) b' →
      (body (Entry.valuesOf xs)).Remakes env.program.host x b') ∧
    (body (Entry.valuesOf xs)).Spares env.program.host old

theorem Rebuilds.of_class {old : Address} {c : Class} {x : Instance Ω c} {xs : List (NativeBridge.Typed Ω)}
    {body : NativeType.Values Ω (xs.map (·.type)) → Body Ω Unit (Instance Ω c)}
    {f : Except CallError Unit → Except CallError Unit}
    (hmakes : (do
      let d ← env.registry.class? c
      let e ← env.overload? d.constructors xs.length
      return (d.declared, d.valueType, e.code)) =
        some (true, true, .typed (.constructor c (xs.map (·.type)) body)))
    (hexported : (env.program.exporter c).script x.object = .emit xs fun r => .done (f r))
    (hremakes : ∀ b, (body (Entry.valuesOf xs)).Remakes env.program.host x b)
    (hspares : (body (Entry.valuesOf xs)).Spares env.program.host old) : env.Rebuilds old c x xs := by
  obtain ⟨d, hd, hmakes⟩ := Option.bind_eq_some_iff.mp hmakes
  obtain ⟨e, he, hmakes⟩ := Option.bind_eq_some_iff.mp hmakes
  obtain ⟨hdeclared, hmakes⟩ := Prod.mk.inj (Option.some.inj hmakes)
  obtain ⟨hvalue, hcode⟩ := Prod.mk.inj hmakes
  exact ⟨⟨d, hd, hdeclared, hvalue⟩, ⟨f, hexported⟩, ⟨body, ⟨d, e, hd, he, hcode⟩, fun _ _ b' _ => hremakes b', hspares⟩⟩

omit [ObjectModel Ω] in
theorem report_clear {b : Boundary Ω} (hb : b.Clear) :
    report b = .ok b.call.result { b with call := { b.call with result := .undefined } } := by
  have hsinks : b.sinks.set b.call.sink none = b.sinks := by
    refine List.ext_getElem? fun i => ?_
    rw [List.getElem?_set]
    split
    · rename_i hi
      subst hi
      unfold Boundary.Clear Boundary.errorIn at hb
      split
      · rename_i hlt
        rw [List.getElem?_eq_getElem hlt] at hb ⊢
        exact congrArg some hb.symm
      · rename_i hlt
        rw [List.getElem?_eq_none (Nat.not_lt.mp hlt)]
    · rfl
  rw [report_eq, hb, hsinks]

/-! ## From the host -/

section
variable (henv : env.Built) {old : Address} {once : Prop} {c : Class} {x : Instance Ω c}
  {xs : List (NativeBridge.Typed Ω)} {ps : List Convert.Sent} {lo hi : Address} {w : Wire} {s : Holdings Ω} {n : Nat}
  (hx : env.Rebuilds old c x xs) (hrefs : ∀ a ∈ x.refs, a < old)
  (h : Convert.Row (Entry.StandsFor env.services old once s) lo hi ps xs)

include henv hx hrefs h

/-- A call of the constructors of a class is sent to the one that rebuilds the object. -/
theorem dispatch_rebuilding (hn : Wire.depthAll (ps.map Convert.Sent.wire) ≤ n) {d : ClassDescriptor (Upcast Ω)}
    (hd : env.registry.class? c = some d) {b : Boundary Ω} (hb : Convert.Lasts old s ⟨w, lo, hi⟩ b.toHoldings)
    (hreceiver : b.call.receiver = none) (hclear : b.Clear) (hargs : b.call.args = ps.map Convert.Sent.wire)
    (hresult : b.call.result = .undefined) :
    ∃ b₁ : Boundary Ω,
      (b.withArgs (List.replicate ps.length .undefined)).Reads old once (Convert.Sent.mk w lo hi).Covers b₁ ∧
        env.dispatch (fun _ => env.services n) d.constructors b = .ok (.pointer ⟨c, b₁.heap.cells.length, false⟩) { b₁ with
          heap := (b₁.heap.alloc x.object).2
          call := { b₁.call with result := .undefined } } := by
  obtain ⟨body, ⟨d', e, hd', he, hcode⟩, hremakes, hspares⟩ := hx.rebuilt
  rw [hd] at hd'
  cases hd'
  have hselect : env.select d.constructors b = .ok e := by
    have hlength : b.call.args.length = xs.length := by rw [hargs, List.length_map, h.each.length_eq]
    have haccepted : Signature.firstRefused (xs.map (·.type)) b.call.args 0 = none :=
      hargs ▸ Entry.accepts_standing h.each 0
    rw [select_accepted (henv.settles.classes d (Registry.class?_mem hd).1).constructors (by rw [hlength]; exact he) hcode
      haccepted]
    have hconst : checkConst b e.name e.flags = .ok () := by
      unfold checkConst
      rw [hreceiver]
      split <;> rfl
    rw [hconst]
    rfl
  rw [← services_host env n] at hremakes hspares
  obtain ⟨b₁, h₁, hrun⟩ := Entry.run_rebuilding (hremakes n) hspares hrefs h hn hb hreceiver hclear hargs hresult
  refine ⟨b₁, h₁, ?_⟩
  let b₂ : Boundary Ω := { b₁ with
    heap := (b₁.heap.alloc x.object).2
    call := { b₁.call with result := .pointer ⟨c, b₁.heap.cells.length, false⟩ } }
  have hcoderun : (Code.typed (.constructor c (xs.map (·.type)) body)).run (fun _ => env.services n) b = .ok () b₂ := hrun
  have hclear₂ : b₂.Clear := h₁.clear hclear
  rw [dispatch_eq, hselect]
  change env.finish _ e.code b = _
  rw [hcode, finish_ok hcoderun, report_clear hclear₂]

/-- The constructor of a class is run on what stands for its arguments, in a call of its own. -/
theorem constructNested_ok (hn : Wire.depthAll (ps.map Convert.Sent.wire) ≤ n) {b : Boundary Ω}
    (hb : Convert.Lasts old s ⟨w, lo, hi⟩ b.toHoldings) (hclear : b.Clear) :
    ∃ b₁ : Boundary Ω, b.Reads old once (Convert.Sent.mk w lo hi).Covers b₁ ∧
      env.constructNested (fun _ => env.services n) c (ps.map Convert.Sent.wire) b =
        .ok ⟨c, b₁.heap.cells.length, false⟩ { b₁ with heap := (b₁.heap.alloc x.object).2 } := by
  obtain ⟨d, hd, hdeclared, -⟩ := hx.declared
  -- The constructor shares the sink of the call that it is run in, which must be clear for its result to be taken.
  let b₀ : Boundary Ω := { b with call := .new (ps.map Convert.Sent.wire) none b.call.sink }
  obtain ⟨b₁, h₁, hdispatch⟩ := dispatch_rebuilding henv hx hrefs h hn hd (b := b₀) hb rfl hclear rfl rfl
  let b₃ : Boundary Ω := { b₁ with
    heap := (b₁.heap.alloc x.object).2
    call := { b₁.call with result := .undefined } }
  have hinner : (do constructed d.name (← env.dispatch (fun _ => env.services n) d.constructors) : Act Ω Pointer) b₀ =
      .ok ⟨c, b₁.heap.cells.length, false⟩ b₃ := (Act.bind_ok hdispatch).trans rfl
  -- Its arguments have been taken and so has its result: leaving the call gives up nothing.
  have hrefs₃ : b₃.call.refs = [] := by
    change Wire.refsAll b₁.call.args ++ [] = []
    rw [h₁.call, List.append_nil]
    exact Wire.refsAll_replicate ps.length
  have hsink : b₁.call.sink = b.call.sink := by
    rw [h₁.call]
    rfl
  have hclear₁ : b₁.Clear := h₁.clear hclear
  refine ⟨{ b₁ with call := b.call }, ⟨h₁.keeps, h₁.fewer, h₁.table, rfl, fun _ => ?_⟩, ?_⟩
  · unfold Boundary.Clear
    rw [← hsink]
    exact hclear₁
  · unfold constructNested
    rw [hd, Option.filter_some, hdeclared]
    exact leaving_ok hinner hrefs₃

theorem recovers_construct (hn : Wire.depthAll (ps.map Convert.Sent.wire) ≤ n) {b : Boundary Ω}
    (hb : Convert.Lasts old s ⟨w, lo, hi⟩ b.toHoldings) (hclear : b.Clear) :
    (do
      Act.retain (Wire.refsAll (ps.map Convert.Sent.wire))
      let p ← (env.services (n + 1)).construct c (ps.map Convert.Sent.wire)
      Access.intoOwned c p : Act Ω (Instance Ω c)).Recovers old once (Convert.Sent.mk w lo hi).Covers b x := by
  have hold := (Entry.refs_values h.each).1
  have h₀ (R : Address → Prop) : b.Reads old once R (b.retain (Wire.refsAll (ps.map Convert.Sent.wire))) :=
    b.reads_retain hold
  have hb₀ := Convert.lasts_of_reads (h₀ fun _ => False) hb fun _ ha => ha.elim
  obtain ⟨b₁, h₁, hconstruct⟩ := constructNested_ok henv hx hrefs h hn hb₀ ((h₀ fun _ => False).clear hclear)
  let heap : Heap Ω := (b₁.heap.alloc x.object).2
  have hcell : heap.cells[b₁.heap.cells.length]? = some ⟨x.object, 1, 0, false⟩ := List.getElem?_concat_length
  have howned : Access.intoOwned c ⟨c, b₁.heap.cells.length, false⟩ { b₁ with heap } =
      .ok x { b₁ with heap := heap.vacate b₁.heap.cells.length } := Access.intoOwned_ok hcell
  exact ⟨_, (Act.bind_ok rfl).trans ((Act.bind_ok hconstruct).trans howned),
    ((h₀ _).trans h₁).trans (.of_heap fun _ _ => Holdings.keeps_alloc_vacate hrefs)⟩

/-- **A record of what stands for the components of an object stands for the object.** -/
theorem standing_record (hbound : env.bindings.lookup c = some .record) (hnew : old ≤ lo) :
    Convert.Standing env.services old once s ⟨.record c.name (ps.map Convert.Sent.wire), lo, hi⟩ (.object c) x where
  accepted := rfl
  refs := ⟨(Entry.refs_values h.each).1, hrefs⟩
  new := hnew
  foreseen ht := absurd ht Bool.false_ne_true
  reads n b hn hb _ hclear := by
    rw [Wire.depth] at hn
    obtain ⟨m, rfl⟩ : ∃ m, n = m + 1 := ⟨n - 1, by omega⟩
    have hmade := recovers_construct henv hx hrefs h (by omega : Wire.depthAll (ps.map Convert.Sent.wire) ≤ m) hb hclear
    have himport : (Convert.runImport (env.services (m + 1)) c (.emit (ps.map Convert.Sent.wire) .done) none).Recovers old
        once (Convert.Sent.mk (.record c.name (ps.map Convert.Sent.wire)) lo hi).Covers b (some x) := by
      unfold Convert.runImport
      refine (hmade.attempt.orDrop _).bind fun b₁ _ => ?_
      exact (recovers_drop b₁ [] fun _ ha => absurd ha List.not_mem_nil).bind fun b₂ _ => .pure b₂ (some x)
    have hread : HostBinding.record.read c.name (.record c.name (ps.map Convert.Sent.wire)) =
        .emit (ps.map Convert.Sent.wire) .done := if_pos rfl
    have hbinding : (env.services (m + 1)).binding c = some .record := hbound
    change (Convert.importValue (env.services (m + 1)) c (.record c.name (ps.map Convert.Sent.wire))).Recovers old once
      _ b x
    unfold Convert.importValue
    rw [hbinding]
    refine Recovers.thenDrop ?_ (Entry.refs_values h.each).1
    rw [← hread] at himport
    exact himport.bind fun b₁ _ => .pure b₁ x

end

end Environment
end NativeBridge
