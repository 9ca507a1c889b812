import NativeBridge.Proofs.Call.Unique
import NativeBridge.Proofs.Engine.FirstError
import NativeBridge.Proofs.Engine.Growth
import NativeBridge.Proofs.Engine.Identity
import NativeBridge.Proofs.Engine.Leaks
import NativeBridge.Proofs.Engine.NestedMoves
import NativeBridge.Proofs.Engine.ValueTypes
import NativeBridge.Proofs.Object.Identity
import NativeBridge.Proofs.Registry.Resemblance
import NativeBridge.Proofs.Registry.Tags
/-!
# Construction by the host and import

A host makes an object by asking for one, and by handing over a value that is converted to one. Two ways lead to the same
constructor: the first runs it in a call of its own and wraps what it has left, the second runs it in the call in progress
and moves the object out of its cell. They concur (`Environment.Built.construct_concurs_import`), since a constructor that
comes to an end leaves the only reference to an object in a new cell, for which there is no wrapper yet
(`Environment.dispatch_made`). Only what becomes of the fields differs: an import keeps the value that it was given until
it is over, and with it the objects that the value holds alone (`Environment.onePointTwice_discords`).
-/
namespace NativeBridge
variable {Ω : Type} [ObjectModel Ω] {α β : Type}

open Act ObjectTable

theorem Wrapper.bound_owned (c : Class) (a : Address) : bound ⟨c, a, false⟩ true .none = ⟨c, a, .owned, .none⟩ := by
  have hflags : (TypeFlags.none.diff .ownership).union Ownership.owned.flags = .none := by decide
  exact congrArg (mk c a .owned) hflags

/-- An interrupt at argument `n`, if it has no place yet. -/
def Interrupt.atArgument (n : Nat) : Interrupt → Interrupt
  | .error e => .error (e.atArgument n)
  | i => i

omit [ObjectModel Ω] in
theorem Act.atArgument_error {act : Act Ω α} {b b' : Boundary Ω} {i : Interrupt} (h : act b = .error i b') (n : Nat) :
    act.atArgument n b = .error (i.atArgument n) b' := by
  rw [Act.atArgument, h]
  cases i <;> rfl

/-! ## Arguments that have been taken -/

namespace Entry
variable {env : Environment Ω} {n : Nat}

/-- No argument that was taken is there again. -/
def Empties (b b' : Boundary Ω) : Prop :=
  ∀ i : Nat, b.call.args[i]? = some .undefined → b'.call.args[i]? = some .undefined

/-- As far as native values are there, the arguments at their positions have been taken. -/
def HalfTaken (b : Boundary Ω) : (ts : List NativeType) → Nat → NativeType.PartialValues Ω ts → Prop
  | [], _, _ => True
  | _ :: ts, i, (some _, xs) => b.call.args[i]? = some .undefined ∧ HalfTaken b ts (i + 1) xs
  | _ :: ts, i, (none, xs) => HalfTaken b ts (i + 1) xs

omit [ObjectModel Ω] in
theorem Empties.trans {b b' b'' : Boundary Ω} (h : Empties b b') (h' : Empties b' b'') : Empties b b'' :=
  fun i hi => h' i (h i hi)

theorem HalfTaken.later {b b' : Boundary Ω} (h : Empties b b') : ∀ (ts : List NativeType) (i : Nat)
    (xs : NativeType.PartialValues Ω ts), HalfTaken b ts i xs → HalfTaken b' ts i xs
  | [], _, _, _ => trivial
  | _ :: ts, i, (some _, xs), hx => ⟨h i hx.1, later h ts (i + 1) xs hx.2⟩
  | _ :: ts, i, (none, xs), hx => later h ts (i + 1) xs hx

theorem arg_taken {t : NativeType} {i : Nat} {b b' : Boundary Ω} {x : t.Value Ω}
    (h : arg (env.services n) t i b = .ok x b') : Empties b b' ∧ b'.call.args[i]? = some .undefined := by
  cases hw : b.call.args[i]? with
  | none =>
    obtain ⟨w, b₁, htake, -⟩ := Act.bind_eq_ok h
    unfold takeArg at htake
    rw [hw] at htake
    cases htake
  | some w =>
    rw [arg_eq hw] at h
    have hcall := Convert.fixes_fromWire (fun _ _ h => h.call) (env.fixes_construct n) t w
      { b with call := { b.call with args := b.call.args.set i .undefined } }
    rw [final_ok (atArgument_eq_ok h)] at hcall
    have hself : b'.call.args[i]? = some .undefined := by
      rw [hcall]
      exact List.getElem?_set_self (List.getElem?_eq_some_iff.mp hw).1
    refine ⟨fun j hj => ?_, hself⟩
    by_cases hji : j = i
    · rw [hji, hself]
    · rw [hcall]
      exact (List.getElem?_set_ne (Ne.symm hji)).trans hj

theorem early_taken : ∀ {ts : List NativeType} {i : Nat} {b b' : Boundary Ω} {xs : NativeType.PartialValues Ω ts},
    early (env.services n) ts i b = .ok xs b' → Empties b b' ∧ HalfTaken b' ts i xs
  | [], _, _, _, _, h => by
    cases h
    exact ⟨fun _ => id, trivial⟩
  | t :: ts, i, b, b', xs, h => by
    rw [early_cons] at h
    obtain ⟨x, b₁, hx, h⟩ := Act.bind_eq_ok h
    obtain ⟨ys, b₂, hys, h⟩ := Act.bind_eq_ok h
    cases h
    obtain ⟨hempties, hhalf⟩ := early_taken (Act.orDrop_eq_ok hys)
    unfold first at hx
    split at hx
    · cases hx
      exact ⟨hempties, hhalf⟩
    · rw [map_eq_pure_bind] at hx
      obtain ⟨v, b₃, hv, hx⟩ := Act.bind_eq_ok hx
      cases hx
      obtain ⟨htaken, hself⟩ := arg_taken hv
      exact ⟨htaken.trans hempties, hempties i hself, hhalf⟩

theorem late_taken : ∀ {ts : List NativeType} {i : Nat} {b b' : Boundary Ω} {xs : NativeType.PartialValues Ω ts}
    {ys : NativeType.Values Ω ts}, late (env.services n) ts xs i b = .ok ys b' → HalfTaken b ts i xs →
    Empties b b' ∧ ∀ j, i ≤ j → j < i + ts.length → b'.call.args[j]? = some .undefined
  | [], _, _, _, _, _, h, _ => by
    cases h
    exact ⟨fun _ => id, fun j hij hj => by simp at hj; omega⟩
  | t :: ts, i, b, b', (some x, xs), ys, h, hhalf => by
    rw [late_some] at h
    obtain ⟨zs, b₁, hzs, h⟩ := Act.bind_eq_ok h
    cases h
    obtain ⟨hempties, hrest⟩ := late_taken (Act.orDrop_eq_ok hzs) hhalf.2
    refine ⟨hempties, fun j hij hj => ?_⟩
    rw [List.length_cons] at hj
    rcases Nat.eq_or_lt_of_le hij with rfl | hlt
    · exact hempties _ hhalf.1
    · exact hrest j hlt (by omega)
  | t :: ts, i, b, b', (none, xs), ys, h, hhalf => by
    rw [late_none] at h
    obtain ⟨x, b₁, hx, h⟩ := Act.bind_eq_ok h
    obtain ⟨zs, b₂, hzs, h⟩ := Act.bind_eq_ok h
    cases h
    obtain ⟨htaken, hself⟩ := arg_taken (Act.orDrop_eq_ok hx)
    obtain ⟨hempties, hrest⟩ := late_taken (Act.orDrop_eq_ok hzs) (HalfTaken.later htaken ts (i + 1) xs hhalf)
    refine ⟨htaken.trans hempties, fun j hij hj => ?_⟩
    rw [List.length_cons] at hj
    rcases Nat.eq_or_lt_of_le hij with rfl | hlt
    · exact hempties _ hself
    · exact hrest j hlt (by omega)

theorem arguments_taken {ts : List NativeType} {check : Boundary Ω → Except CallError Unit} {b b' : Boundary Ω}
    {xs : NativeType.Values Ω ts} (h : arguments (env.services n) ts check b = .ok xs b') (j : Nat) (hj : j < ts.length) :
    b'.call.args[j]? = some .undefined := by
  obtain ⟨ys, b₁, hys, hrest⟩ := Act.bind_eq_ok h
  obtain ⟨_, b₂, hchecks, hlate⟩ := Act.bind_eq_ok hrest
  have hchecks := Act.orDrop_eq_ok hchecks
  rw [get_bind] at hchecks
  obtain ⟨_, b₃, hcheck, hpre⟩ := Act.bind_eq_ok hchecks
  obtain ⟨-, rfl⟩ := Act.ofExcept_eq_ok hcheck
  rw [get_bind] at hpre
  obtain ⟨-, rfl⟩ := Act.ofExcept_eq_ok hpre
  exact (late_taken hlate (early_taken hys).2).2 j (Nat.zero_le j) (by omega)

/-- Taking arguments leaves the number of arguments and the result as they are. -/
theorem fixes_arguments (env : Environment Ω) (n : Nat) (ts : List NativeType) (check : Boundary Ω → Except CallError Unit) :
    (arguments (env.services n) ts check).Fixes fun b => (b.call.args.length, b.call.result) := by
  have hP (b b' : Boundary Ω) (h : Level b b') :
      (b'.call.args.length, b'.call.result) = (b.call.args.length, b.call.result) := by rw [h.call]
  have htake (i : Nat) : (Act.takeArg i : Act Ω Wire).Fixes fun b => (b.call.args.length, b.call.result) := fun b => by
    unfold final Act.takeArg
    cases b.call.args[i]? with
    | none => rfl
    | some w => exact Prod.ext List.length_set rfl
  have hR : Act.Congruence.OfCalls (fun _ _ => True) ts fun {α} (x _ : Act Ω α) =>
      x.Fixes fun b => (b.call.args.length, b.call.result) :=
    { congruence_fixes hP with
      atArgument := fun i h => h.atArgument i
      takeArg := fun _ h => .bind (htake _) fun w => h w trivial }
  refine related_arguments hR (env.services n).construct (fun c w _ => ?_) check
  exact Convert.related_importValue hR.toCongruence (env.services n).construct .attempt (fun c args b =>
    congrArg (fun call : CallContext => (call.args.length, call.result)) (env.fixes_construct n c args b)) c w

theorem fixes_runFree (sv : Services Ω) (refs : α → List Address) (held : List Address) (body : Body Ω Unit α) :
    (runFree sv refs held body).Fixes (·.call) := by
  refine .bind (fun _ => rfl) fun ended => .ensuring (.bind (fixes_ofOutcome _) fun _ => ?_) fun _ => rfl
  exact fun _ => rfl

/-- A constructor that comes to an end has taken its arguments, and its object is in a new cell, to which its result is the
only reference. -/
theorem constructor_made {c : Class} {params : List NativeType}
    {body : NativeType.Values Ω params → Body Ω Unit (Instance Ω c)} {b b' : Boundary Ω}
    (hconstruct : ∀ c args, ((env.services n).construct c args).Grows)
    (hkeeps : (Entry.constructor c params body).KeepsCells (env.services n).host)
    (hlength : b.call.args.length = params.length) (hresult : b.call.result = .undefined)
    (h : (Entry.constructor c params body).run (env.services n) b = .ok () b') :
    ∃ (x : Instance Ω c) (a : Address), b.heap.cells.length ≤ a ∧ b'.heap.cells[a]? = some ⟨x.object, 1, 0, false⟩ ∧
      b'.call.result = .pointer ⟨c, a, false⟩ ∧ ∀ w ∈ b'.call.args, w = .undefined := by
  obtain ⟨xs, b₁, hargs, h⟩ := Act.bind_eq_ok h
  obtain ⟨x, b₂, hfree, h⟩ := Act.bind_eq_ok h
  obtain ⟨p, b₃, hnew, h⟩ := Act.bind_eq_ok h
  cases hnew
  have hbody : (body xs).KeepsCells (env.services n).host := hkeeps () xs
  have hgrows := grows_arguments hconstruct params (fun _ => .ok ()) b
  have hgrows₁ := grows_runFree Instance.refs (NativeType.valuesRefs params xs) hbody b₁
  rw [final_ok hargs] at hgrows
  rw [final_ok hfree] at hgrows₁
  have hfixed := fixes_arguments env n params (fun _ => .ok ()) b
  rw [final_ok hargs] at hfixed
  obtain ⟨hcount, hresult₁⟩ := Prod.mk.inj hfixed
  have hcall : b₂.call = b₁.call := by
    have hfixes := fixes_runFree (env.services n) Instance.refs (NativeType.valuesRefs params xs) (body xs) b₁
    rwa [final_ok hfree] at hfixes
  have hundefined : b₂.call.result = .undefined := by rw [hcall, hresult₁, hresult]
  have hset := Act.setResult_undefined (b := { b₂ with heap := (b₂.heap.alloc x.object).2 }) hundefined
    (.pointer ⟨c, b₂.heap.cells.length, false⟩)
  cases hset.symm.trans h
  refine ⟨x, b₂.heap.cells.length, hgrows.trans hgrows₁, List.getElem?_concat_length, rfl, fun w hw => ?_⟩
  obtain ⟨j, hj⟩ := List.mem_iff_getElem?.mp hw
  change b₂.call.args[j]? = some w at hj
  rw [hcall] at hj
  have htaken := arguments_taken hargs j (by
    rw [← hlength, ← hcount]
    exact (List.getElem?_eq_some_iff.mp hj).1)
  rw [hj] at htaken
  exact Option.some.inj htaken

end Entry

namespace Environment
variable {env : Environment Ω} {services : Nat → Services Ω} {b b' : Boundary Ω} {w : Wire}

theorem run_typed (services : Nat → Services Ω) (entry : Entry Ω) (b : Boundary Ω) :
    (Code.typed entry).run services b = entry.run (services (Wire.depthAll b.call.args)) b :=
  rfl

omit [ObjectModel Ω] in
theorem report_eq_ok (h : report b = .ok w b') : w = b.call.result ∧
    b' = { b with sinks := b.sinks.set b.call.sink none, call := { b.call with result := .undefined } } := by
  rw [report_eq] at h
  cases he : b.errorIn b.call.sink with
  | some e =>
    rw [he] at h
    cases h
  | none =>
    rw [he] at h
    cases h
    exact ⟨rfl, rfl⟩

/-- A call comes to a result only if its native code does. -/
theorem finish_eq_ok {code : Code Ω} (hcode : ((code.run services).final b).extent = b.extent)
    (hsink : b.call.sink < b.sinks.length) (h : env.finish services code b = .ok w b') :
    ∃ b₁, code.run services b = .ok () b₁ ∧ report b₁ = .ok w b' := by
  have hfinishes := env.finishes services code b
  generalize env.finish services code b = r at hfinishes h
  cases hfinishes with
  | @ran b₁ hrun => exact ⟨b₁, hrun, h⟩
  | @caught i b₁ hrun hi x =>
    rw [final_error hrun] at hcode
    obtain ⟨hsame, hlength⟩ := Prod.mk.inj hcode
    obtain ⟨y, hy⟩ := holds_recorded (b := b₁) (by rw [hsame, hlength]; exact hsink) x
    cases (report_held hy).symm.trans h
  | escaped => cases h

/-- A declared class is exposed. -/
theorem Built.exposes (henv : env.Built) {c : Class} {d : ClassDescriptor (Upcast Ω)}
    (hd : env.registry.class? c = some d) (hdeclared : d.declared = true) : (env.registry.exposedClass? c).isSome = true := by
  obtain ⟨r, hr, hfinal⟩ := henv.registry
  obtain ⟨x, hx⟩ := Registry.closed_finalize hr.reached.wellFormed hfinal
  obtain ⟨d₀, hd₀, hdeclared₀⟩ := (Registry.isDeclared_finalize hx.classes c).mp ⟨d, hd, hdeclared⟩
  have hshown := hx.exposedClass? c
  rw [show r.class? c = some d₀ from hd₀, Option.bind_some, if_pos hdeclared₀] at hshown
  obtain ⟨e, he, -⟩ := Option.map_eq_some_iff.mp hshown
  rw [he]
  rfl

section
variable (henv : env.Built) {c : Class} {d : ClassDescriptor (Upcast Ω)} (hd : env.registry.class? c = some d)
include henv hd

/-- The services of a constructor are those for the depth of its own arguments. -/
theorem dispatch_depth (b : Boundary Ω) : env.dispatch env.services d.constructors b =
    env.dispatch (fun _ => env.services (Wire.depthAll b.call.args)) d.constructors b := by
  cases hselect : env.select d.constructors b with
  | error e => rw [dispatch_refused hselect, dispatch_refused hselect]
  | ok e =>
    obtain ⟨m, ref, s, href, he⟩ := select_entry hselect
    obtain ⟨entry, hcode, -⟩ := henv.constructs c d m ref s e hd href he
    rw [dispatch_selected hselect hcode, dispatch_selected hselect hcode]
    refine finish_at ?_ rfl
    rw [run_typed, run_typed]

variable (hkeeps : ∀ c n entry, env.Makes c n entry → entry.KeepsCells env.program.host)
include hkeeps

/-- **What a constructor comes to**: the only reference to an object in a new cell. -/
theorem dispatch_made {n : Nat} (hsink : b.call.sink < b.sinks.length) (hresult : b.call.result = .undefined)
    (h : env.dispatch (fun _ => env.services n) d.constructors b = .ok w b') :
    ∃ (x : Instance Ω c) (a : Address), w = .pointer ⟨c, a, false⟩ ∧ b.heap.cells.length ≤ a ∧
      b'.heap.cells[a]? = some ⟨x.object, 1, 0, false⟩ ∧ b'.call.refs = [] := by
  cases hselect : env.select d.constructors b with
  | error e =>
    rw [dispatch_refused hselect] at h
    cases h
  | ok e =>
    obtain ⟨hmem, rfl⟩ := Registry.class?_mem hd
    obtain ⟨ref, s, href, he⟩ := select_ok hselect
    obtain ⟨s', e', entry, he', hcode, hlength, htokens, hserves⟩ := (henv.settles.classes d hmem).constructors _ ref href
    rw [he] at he'
    cases he'
    have hparams : b.call.args.length = entry.params.length := by
      rw [← hlength, ← List.length_map NativeType.token, htokens, List.length_map]
    have hentry := hkeeps d.cls _ entry ⟨d, e, hd, select_overload hselect, hcode⟩
    rw [← services_host env n] at hentry
    rw [dispatch_selected hselect hcode] at h
    have hextent := entry.fixes_run (fixes_extent_construct henv.constructs n) b
    unfold Act.final at hextent
    rw [← run_typed fun _ => env.services n] at hextent
    obtain ⟨b₁, hrun, hreport⟩ := finish_eq_ok hextent hsink h
    rw [run_typed] at hrun
    obtain ⟨rfl, rfl⟩ := report_eq_ok hreport
    cases entry with
    | constructor k params body =>
      obtain rfl : k = d.cls := hserves
      obtain ⟨x, a, hnew, hcell, hmade, hargs⟩ := Entry.constructor_made (grows_construct henv.constructs hkeeps n) hentry
        hparams hresult hrun
      refine ⟨x, a, hmade, hnew, hcell, ?_⟩
      have hundefined : b₁.call.args = List.replicate b₁.call.args.length .undefined :=
        List.eq_replicate_iff.mpr ⟨rfl, hargs⟩
      change Wire.refsAll b₁.call.args ++ [] = []
      rw [hundefined, Wire.refsAll_replicate]
      rfl
    | _ => cases hserves

end

/-! ## Construction and import -/

/-- A constructor run on its own arguments, in a call of its own. -/
def constructing (env : Environment Ω) (d : ClassDescriptor (Upcast Ω)) (fs : List Wire) (b : Boundary Ω) :
    EStateM.Result Interrupt (Boundary Ω) Wire :=
  env.dispatch (fun _ => env.services (Wire.depthAll fs)) d.constructors (entering b none fs)

section
variable (henv : env.Built) {c : Class} {d : ClassDescriptor (Upcast Ω)} (hd : env.registry.class? c = some d)
  {fs : List Wire} {p : Pointer} {i : Interrupt} {b₁ : Boundary Ω}
include henv hd

theorem callGroup_ok (h : env.constructing d fs b = .ok w b₁) (hrefs : b₁.call.refs = []) :
    env.callGroup d.constructors none fs b = .ok w { b₁ with call := b.call } := by
  rw [callGroup_at]
  exact leaving_ok ((dispatch_depth henv hd (entering b none fs)).trans h) hrefs

theorem callGroup_error (h : env.constructing d fs b = .error i b₁) :
    env.callGroup d.constructors none fs b = .error i { b₁.drop b₁.call.refs with call := b.call } := by
  rw [callGroup_at]
  exact leaving_error ((dispatch_depth henv hd (entering b none fs)).trans h)

variable (hdeclared : d.declared = true) (hfs : ∀ p flags, fs ≠ [.pointer p, flags])
include hdeclared hfs

/-- Construction wraps what the constructor has left. -/
theorem construct_eq : env.construct c fs = (do
    let w ← env.callGroup d.constructors none fs
    let p ← constructed d.name w
    return .object (← Act.wrap p true .none)) := by
  obtain ⟨e, he⟩ := Option.isSome_iff_exists.mp (henv.exposes hd hdeclared)
  unfold construct
  split
  · exact absurd rfl (hfs _ _)
  · rw [he, Option.bind_some, hd]

theorem construct_ok (h : env.constructing d fs b = .ok (.pointer p) b₁) (hrefs : b₁.call.refs = []) :
    env.construct c fs b = .ok (.object (b₁.toHoldings.wrap p true .none).1)
      { b₁ with toHoldings := (b₁.toHoldings.wrap p true .none).2, call := b.call } := by
  rw [construct_eq henv hd hdeclared hfs, Act.bind_ok (callGroup_ok henv hd h hrefs)]
  rfl

theorem construct_error (h : env.constructing d fs b = .error i b₁) :
    ∃ b₂, env.construct c fs b = .error i b₂ ∧ b₂.table = b₁.table := by
  rw [construct_eq henv hd hdeclared hfs, Act.bind_error (callGroup_error henv hd h)]
  exact ⟨_, rfl, rfl⟩

end

section
variable {c : Class} {d : ClassDescriptor (Upcast Ω)} (hd : env.registry.class? c = some d) (hdeclared : d.declared = true)
  {fs : List Wire} {p : Pointer} {i : Interrupt} {b₁ : Boundary Ω}
include hd hdeclared

/-- The constructor that an import runs is the one that construction runs while another copy of the fields is kept. -/
theorem nested_at (b : Boundary Ω) : (env.services (Wire.depthAll fs + 1)).construct c fs
      ((entering b none [.undefined]).retain (Wire.refsAll fs)) =
    ((do constructed d.name (← env.dispatch (fun _ => env.services (Wire.depthAll fs)) d.constructors)).ensuring
      fun inner => { inner.drop inner.call.refs with call := (entering b none [.undefined]).call })
      (entering (b.retain (Wire.refsAll fs)) none fs) := by
  change env.constructNested (fun _ => env.services (Wire.depthAll fs)) c fs _ = _
  unfold constructNested
  rw [hd, Option.filter_some, if_pos hdeclared]
  rfl

theorem nested_ok (h : env.constructing d fs (b.retain (Wire.refsAll fs)) = .ok (.pointer p) b₁)
    (hrefs : b₁.call.refs = []) : (env.services (Wire.depthAll fs + 1)).construct c fs
      ((entering b none [.undefined]).retain (Wire.refsAll fs)) =
        .ok p { b₁ with call := (entering b none [.undefined]).call } := by
  rw [nested_at hd hdeclared]
  exact leaving_ok (Act.bind_ok h) hrefs

theorem nested_error (h : env.constructing d fs (b.retain (Wire.refsAll fs)) = .error i b₁) :
    ∃ b₂, (env.services (Wire.depthAll fs + 1)).construct c fs
      ((entering b none [.undefined]).retain (Wire.refsAll fs)) = .error i b₂ ∧ b₂.table = b₁.table := by
  rw [nested_at hd hdeclared]
  exact ⟨_, leaving_error (Act.bind_error h), rfl⟩

end

variable {c : Class} {fs : List Wire}

theorem fromWire_error {t : NativeType} {i : Interrupt} {b₁ : Boundary Ω}
    (h : Convert.fromWire (env.services w.depth) t w (entering b none [.undefined]) = .error i b₁) :
    ∃ b₂, env.fromWire t w b = .error (i.atArgument 0) b₂ ∧ b₂.table = b₁.table := by
  rw [fromWire, aside_arg]
  exact ⟨_, leaving_error (Act.atArgument_error h 0), rfl⟩

/-- The forms in which the host hands over the fields of an object of class `c`. -/
def Lists (c : Class) (fs : List Wire) (w : Wire) : Prop :=
  w = .array fs ∨ w = .record c.name fs

theorem Lists.depth (h : Lists c fs w) : w.depth = Wire.depthAll fs + 1 := by
  rcases h with rfl | rfl <;> rw [Wire.depth]

theorem Lists.read (h : Lists c fs w) : HostBinding.record.read c.name w = .emit fs .done := by
  rcases h with rfl | rfl
  · rfl
  · exact if_pos rfl

theorem Lists.imported (h : Lists c fs w) (sv : Services Ω) :
    Convert.fromWire sv (.object c) w = Convert.importValue sv c w := by
  rcases h with rfl | rfl <;> rfl

/-- What construction and import of the same fields come to, from the state `b`. -/
inductive Concurs (c : Class) (b : Boundary Ω) :
    EStateM.Result Interrupt (Boundary Ω) Wire → EStateM.Result Interrupt (Boundary Ω) (Instance Ω c) → Prop where
  /-- The import gives the object to which construction gives a new handle, of an owned wrapper that is not const. -/
  | made {h : Handle} {x : Instance Ω c} {a : Address} {b₁ b₂ : Boundary Ω} (hfresh : b.table.live? h = none)
      (hcell : b₁.heap.cells[a]? = some ⟨x.object, 1, 0, false⟩)
      (hentered : b₁.table = b₂.table.enter ⟨c, a, .owned, .none⟩)
      (hlive : ∀ g, b₁.table.live? g = if g = h then some ⟨c, a, .owned, .none⟩ else b₂.table.live? g) :
      Concurs c b (.ok (.object h) b₁) (.ok x b₂)
  /-- Both fail in the same way. The import gives a mismatch the position of its own argument, unless it has one. -/
  | failed {i : Interrupt} {b₁ b₂ : Boundary Ω} (htable : b₁.table = b₂.table) :
      Concurs c b (.error i b₁) (.error (i.atArgument 0) b₂)

section
variable (henv : env.Built) (hkeeps : ∀ c n entry, env.Makes c n entry → entry.KeepsCells env.program.host)
  {d : ClassDescriptor (Upcast Ω)} (hd : env.registry.class? c = some d) (hdeclared : d.declared = true)
  (hbound : env.bindings.lookup c = some .record) (hfs : ∀ p flags, fs ≠ [.pointer p, flags]) (hw : Lists c fs w)
  (hb : b.Ready)
include henv hkeeps hd hdeclared hbound hfs hw hb

theorem concurs_copied :
    Concurs c b (env.construct c fs (b.retain (Wire.refsAll fs))) (env.fromWire (.object c) w b) := by
  have hbinding : (env.services (Wire.depthAll fs + 1)).binding c = some .record := hbound
  have hlength : (entering (b.retain (Wire.refsAll fs)) none fs).heap.cells.length = b.heap.cells.length :=
    Heap.length_retain _ _
  cases hrun : env.constructing d fs (b.retain (Wire.refsAll fs)) with
  | error i b₁ =>
    obtain ⟨b₂, hconstruct, htable⟩ := construct_error henv hd hdeclared hfs hrun
    obtain ⟨b₃, hnested, htable₁⟩ := nested_error hd hdeclared hrun
    obtain ⟨b₄, himport, htable₂⟩ := Convert.importValue_fails hbinding hw.read hnested
    rw [← hw.imported, ← hw.depth] at himport
    obtain ⟨b₅, hfrom, htable₃⟩ := fromWire_error himport
    rw [hconstruct, hfrom]
    exact .failed (by rw [htable, htable₃, htable₂, htable₁])
  | ok v b₁ =>
    obtain ⟨x, a, rfl, hnew, hcell, hrefs⟩ := dispatch_made henv hd hkeeps (b := entering (b.retain (Wire.refsAll fs)) none fs)
      (by simp [entering, CallContext.new, Boundary.retain]) rfl hrun
    rw [hlength] at hnew
    have hnested := nested_ok hd hdeclared hrun hrefs
    have hsheds := keeps_construct (henv.constructs.mono fun _ _ _ c h => Access.sheds_takeUnique c h)
      (Wire.depthAll fs + 1) c fs ((entering b none [.undefined]).retain (Wire.refsAll fs))
    rw [final_ok hnested] at hsheds
    have hsound : b₁.table.Sound := hsheds.sound hb.sound
    -- a wrapper that is left is for an object that was there before
    have hwrap : b₁.toHoldings.wrap ⟨c, a, false⟩ true .none = b₁.toHoldings.wrapNew ⟨c, a, .owned, .none⟩ := by
      rw [← Wrapper.bound_owned]
      refine Holdings.wrap_unknown hsound fun g u hu haddress => ?_
      have hlt := hb.address_lt (hsheds.live? hu)
      rw [haddress] at hlt
      exact absurd hlt (Nat.not_lt.mpr hnew)
    have hconstruct := construct_ok henv hd hdeclared hfs hrun hrefs
    rw [hwrap, Holdings.wrapNew_eq] at hconstruct
    have himport := Convert.importValue_emit hbinding hw.read hnested (Access.intoOwned_ok hcell)
    rw [← hw.imported, ← hw.depth] at himport
    rw [hconstruct, fromWire_eq_ok himport rfl]
    exact .made (hsheds.live?_allocate hb.sound _) hcell rfl (hsound.live?_enter _)

/-- **Construction and import concur**, if native code takes no cell away. An import keeps the value whose fields it hands
to the constructor, so construction is run while another copy of the fields is kept. That changes nothing if no field
holds a strong raw pointer. -/
theorem Built.construct_concurs_import :
    Concurs c b (env.construct c fs (b.retain (Wire.refsAll fs))) (env.fromWire (.object c) w b) ∧
    (Wire.refsAll fs = [] → Concurs c b (env.construct c fs b) (env.fromWire (.object c) w b)) := by
  have hcopied := concurs_copied henv hkeeps hd hdeclared hbound hfs hw hb
  refine ⟨hcopied, fun hrefs => ?_⟩
  rwa [hrefs] at hcopied

end

/-! ## A pointer that outlives its object -/

open Catalog

theorem shapeEngine_codes : shapeEngine.registry.signatures.signatures.flatMap (fun s => s.entries.map (·.code)) =
    [.typed pointOfXY, .typed polyOfPoints] := by cbv

theorem shapeEngine_keepsCells {c : Class} {n : Nat} {entry : Entry Specimen} (h : shapeEngine.Makes c n entry) :
    entry.KeepsCells shapeEngine.program.host := by
  obtain ⟨d, e, -, he, hcode⟩ := h
  obtain ⟨ref, -, he⟩ := Option.bind_eq_some_iff.mp he
  obtain ⟨⟨s, e'⟩, hentry, rfl⟩ := Option.map_eq_some_iff.mp he
  obtain ⟨s', hs, hmap⟩ := Option.bind_eq_some_iff.mp hentry
  obtain ⟨e'', he'', hpair⟩ := Option.map_eq_some_iff.mp hmap
  cases hpair
  have hmem : Code.typed entry ∈ shapeEngine.registry.signatures.signatures.flatMap (fun s => s.entries.map (·.code)) :=
    List.mem_flatMap.mpr ⟨s, List.mem_of_getElem? hs, List.mem_map.mpr ⟨e', List.mem_of_getElem? he'', hcode⟩⟩
  rw [shapeEngine_codes] at hmem
  rcases List.mem_pair.mp hmem with h | h <;> cases h <;> exact fun _ _ _ => Nat.le_refl _

/-- A list of two pointers to one point, of which only the first keeps it alive. -/
def onePointTwice : List Wire :=
  [.array [.pointer ⟨Species.point.cls, 0, false⟩, .pointer ⟨Species.point.cls, 0, true⟩]]

/-- A point to which there is one strong reference. -/
def onePoint : Boundary Specimen :=
  { (Boundary.empty : Boundary Specimen) with heap := ⟨[⟨.point ⟨1, 2⟩, 1, 0, false⟩]⟩ }

theorem onePoint_ready : onePoint.Ready where
  sound := ObjectTable.sound_empty
  typed _ _ hw := nomatch hw

theorem shapeEngine_declares : ∃ d, shapeEngine.registry.class? Species.poly.cls = some d ∧ d.declared = true := by
  have hdeclared : (shapeEngine.registry.class? Species.poly.cls).map (·.declared) = some true := by cbv
  exact Option.map_eq_some_iff.mp hdeclared

theorem shapeEngine_binds : shapeEngine.bindings.lookup Species.poly.cls = some .record := by
  rw [shapeEngine_bindings]
  cbv

theorem onePointTwice_ne (p : Pointer) (flags : Wire) : onePointTwice ≠ [.pointer p, flags] :=
  nofun

/-- A polygon with twice the same corner: it is imported, and constructed in the same way if another copy of the
pointers is kept. -/
theorem onePointTwice_concurs : ∃ h a x b₁ b₂,
    shapeEngine.construct Species.poly.cls onePointTwice (onePoint.retain (Wire.refsAll onePointTwice)) =
      .ok (.object h) b₁ ∧
    shapeEngine.fromWire (.object Species.poly.cls) (.array onePointTwice) onePoint = .ok x b₂ ∧
    x.object = .poly [⟨1, 2⟩, ⟨1, 2⟩] ∧ b₁.table = b₂.table.enter ⟨Species.poly.cls, a, .owned, .none⟩ := by
  obtain ⟨d, hd, hdeclared⟩ := shapeEngine_declares
  obtain ⟨hconcurs, -⟩ := Built.construct_concurs_import shapeEngine_built (fun _ _ _ => shapeEngine_keepsCells) hd hdeclared
    shapeEngine_binds onePointTwice_ne (.inl rfl) onePoint_ready
  have hcorners : observed (fun x _ => some x.object)
      (shapeEngine.fromWire (.object Species.poly.cls) (.array onePointTwice) onePoint) =
        some (.poly [⟨1, 2⟩, ⟨1, 2⟩]) := by
    cbv
  generalize shapeEngine.construct _ _ _ = made at hconcurs ⊢
  generalize shapeEngine.fromWire _ _ _ = imported at hconcurs hcorners ⊢
  cases hconcurs with
  | made _ _ hentered _ => exact ⟨_, _, _, _, _, rfl, rfl, Option.some.inj hcorners, hentered⟩
  | failed => cases hcorners

/-- If no copy of the pointers is kept, the polygon is still imported but not constructed: once the first pointer has been
converted, the point is gone. -/
theorem onePointTwice_discords : shapeEngine.Built ∧
    (∃ d, shapeEngine.registry.class? Species.poly.cls = some d ∧ d.declared = true) ∧
    shapeEngine.bindings.lookup Species.poly.cls = some .record ∧ (∀ p flags, onePointTwice ≠ [.pointer p, flags]) ∧
    onePoint.Ready ∧
    (∃ b₁, shapeEngine.construct Species.poly.cls onePointTwice onePoint =
      .error (.error (.typeMismatch "Point" "dangling Point" (some 0))) b₁) ∧
    ∃ x b₂, shapeEngine.fromWire (.object Species.poly.cls) (.array onePointTwice) onePoint = .ok x b₂ := by
  have herror : errorOf (shapeEngine.construct Species.poly.cls onePointTwice onePoint) =
      some (.error (.typeMismatch "Point" "dangling Point" (some 0))) := by
    unfold construct
    cbv
  have hcorners : observed (fun x _ => some x.object)
      (shapeEngine.fromWire (.object Species.poly.cls) (.array onePointTwice) onePoint) =
        some (.poly [⟨1, 2⟩, ⟨1, 2⟩]) := by
    cbv
  obtain ⟨x, b₂, himported, -⟩ := observed_eq_some hcorners
  exact ⟨shapeEngine_built, shapeEngine_declares, shapeEngine_binds, onePointTwice_ne, onePoint_ready,
    errorOf_eq_some herror, x, b₂, himported⟩

end Environment
end NativeBridge
