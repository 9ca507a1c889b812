import NativeBridge.Proofs.Call.Congruence
import NativeBridge.Proofs.Call.Start
import NativeBridge.Proofs.Engine.Calls
import NativeBridge.Proofs.Engine.Entries
import NativeBridge.Proofs.Registry.PathSearch
/-!
# What native code is started with

A call sends its arguments to one overload, converts them one after another, each from the state that the one before it
has left (`Entry.Converts`), takes hold of the receiver, and only then runs native code. So native code that is started
has been given as many arguments as it has parameters, each the conversion of its own, and, if it is a method, the part
of a live receiver that the receiver's class is or has above it, which is not const where the method may change it
(`Entry.begin_ok`).
-/
namespace NativeBridge
variable {Ω : Type} [ObjectModel Ω] {α β : Type}

open Act

/-! ## The call in progress during a conversion -/

theorem Act.fixes_inCall (context : CallContext) (act : Act Ω α) : (act.inCall context).Fixes (·.call) := by
  intro b
  change (Act.final (act.ensuring _) { b with call := context }).call = _
  rw [final_ensuring]

namespace Environment

theorem fixes_constructNested (env : Environment Ω) (services : Nat → Services Ω) (c : Class) (args : List Wire) :
    (env.constructNested services c args).Fixes (·.call) := by
  unfold constructNested
  split
  · exact fun _ => rfl
  · exact .bind (fun _ => rfl) fun _ => fixes_inCall _ _

theorem fixes_construct (env : Environment Ω) : ∀ depth c args, ((env.services depth).construct c args).Fixes (·.call)
  | 0, _, _ => fun _ => rfl
  | depth + 1, c, args => env.fixes_constructNested (fun _ => env.services depth) c args

end Environment

/-! ## The arguments -/

namespace Entry

/-- Two states of one call. -/
def SameCall (b b' : Boundary Ω) : Prop :=
  b'.call.receiver = b.call.receiver ∧ b'.call.sink = b.call.sink

omit [ObjectModel Ω] in
theorem SameCall.trans {b b' b'' : Boundary Ω} (h : SameCall b b') (h' : SameCall b' b'') : SameCall b b'' :=
  ⟨h'.1.trans h.1, h'.2.trans h.2⟩

/-- From `b` to `b'` the argument at a position is taken out of its call and converted to a native value. -/
def ConvertsArg (sv : Services Ω) (args : List Wire) (t : NativeType) (i : Nat) (x : t.Value Ω) (b b' : Boundary Ω) : Prop :=
  ∃ w, args[i]? = some w ∧
    Convert.fromWire sv t w { b with call := { b.call with args := b.call.args.set i .undefined } } = .ok x b'

/-- From `b` to `b'` the arguments from a position on whose types are picked are converted to native values, each its own
and one after another. -/
def ConvertsArgs (sv : Services Ω) (args : List Wire) (pick : NativeType → Bool) :
    (ts : List NativeType) → Nat → NativeType.Values Ω ts → Boundary Ω → Boundary Ω → Prop
  | [], _, _, b, b' => b' = b
  | t :: ts, i, (x, xs), b, b' =>
    if pick t then ∃ b₁, ConvertsArg sv args t i x b b₁ ∧ ConvertsArgs sv args pick ts (i + 1) xs b₁ b'
    else ConvertsArgs sv args pick ts (i + 1) xs b b'

/-- From `b` to `b'` the arguments of the call in progress are converted to native values: first those that move no object
out, and from the state that they have left on the others. -/
def Converts (sv : Services Ω) (ts : List NativeType) (xs : NativeType.Values Ω ts) (b b' : Boundary Ω) : Prop :=
  ∃ b₁, ConvertsArgs sv b.call.args (fun t => !t.consumes) ts 0 xs b b₁ ∧
    ConvertsArgs sv b.call.args (fun t => t.consumes) ts 0 xs b₁ b'

theorem ConvertsArgs.arg {sv : Services Ω} {args : List Wire} {pick : NativeType → Bool} :
    ∀ {ts : List NativeType} {i : Nat} {xs : NativeType.Values Ω ts} {b b' : Boundary Ω},
      ConvertsArgs sv args pick ts i xs b b' → ∀ j t, ts[j]? = some t → pick t = true →
        ∃ x c c', ConvertsArg sv args t (i + j) x c c'
  | t :: ts, i, (x, xs), b, b', h, j, u, hu, hpick => by
    unfold ConvertsArgs at h
    cases j with
    | zero =>
      obtain rfl : t = u := Option.some.inj hu
      rw [if_pos hpick] at h
      obtain ⟨b₁, hx, -⟩ := h
      exact ⟨x, b, b₁, hx⟩
    | succ j =>
      rw [Nat.add_comm j 1, ← Nat.add_assoc]
      split at h
      · obtain ⟨b₁, -, hxs⟩ := h
        exact hxs.arg j u hu hpick
      · exact h.arg j u hu hpick

/-- Each argument that was converted is there, and is one that its parameter's type converts. -/
theorem Converts.arg {sv : Services Ω} {ts : List NativeType} {xs : NativeType.Values Ω ts} {b b' : Boundary Ω}
    (h : Converts sv ts xs b b') {j : Nat} {t : NativeType} (ht : ts[j]? = some t) :
    ∃ x c c', ConvertsArg sv b.call.args t j x c c' := by
  obtain ⟨b₁, hearly, hlate⟩ := h
  rw [← Nat.zero_add j]
  cases hconsumes : t.consumes with
  | false => exact hearly.arg j t ht (by rw [hconsumes]; rfl)
  | true => exact hlate.arg j t ht hconsumes

/-- The values that are there already are among all of them. -/
def Completes : (ts : List NativeType) → NativeType.PartialValues Ω ts → NativeType.Values Ω ts → Prop
  | [], _, _ => True
  | _ :: ts, (some x, xs), (y, ys) => y = x ∧ Completes ts xs ys
  | _ :: ts, (none, xs), (_, ys) => Completes ts xs ys

/-- Where a value is still to come, its argument has not been taken yet. -/
def Untaken (args : List Wire) (b : Boundary Ω) : (ts : List NativeType) → Nat → NativeType.PartialValues Ω ts → Prop
  | [], _, _ => True
  | _ :: ts, i, (some _, xs) => Untaken args b ts (i + 1) xs
  | _ :: ts, i, (none, xs) => b.call.args[i]? = args[i]? ∧ Untaken args b ts (i + 1) xs

theorem Untaken.later {args : List Wire} {b b' : Boundary Ω} : ∀ {ts : List NativeType} {i : Nat}
    {xs : NativeType.PartialValues Ω ts}, (∀ j, i ≤ j → b'.call.args[j]? = b.call.args[j]?) →
    Untaken args b ts i xs → Untaken args b' ts i xs
  | [], _, _, _, _ => trivial
  | _ :: ts, i, (some _, xs), h, hx => by
    have hrest : Untaken args b ts (i + 1) xs := hx
    have hlater : Untaken args b' ts (i + 1) xs := hrest.later fun j hj => h j (by omega)
    exact hlater
  | _ :: _, i, (none, _), h, hx => ⟨(h i (Nat.le_refl i)).trans hx.1, hx.2.later fun j hj => h j (by omega)⟩

variable {env : Environment Ω} {n : Nat} {args : List Wire}

/-- An argument is converted once it has been taken. -/
theorem arg_ok {t : NativeType} {i : Nat} {b b' : Boundary Ω} {x : t.Value Ω}
    (h : arg (env.services n) t i b = .ok x b') (hargs : b.call.args[i]? = args[i]?) :
    ConvertsArg (env.services n) args t i x b b' ∧ SameCall b b' ∧ ∀ j, j ≠ i → b'.call.args[j]? = b.call.args[j]? := by
  cases hw : b.call.args[i]? with
  | none =>
    obtain ⟨w, b₁, htake, -⟩ := Act.bind_eq_ok h
    unfold takeArg at htake
    rw [hw] at htake
    cases htake
  | some w =>
    rw [arg_eq hw] at h
    have hok := atArgument_eq_ok h
    have hcall := Convert.fixes_fromWire (fun _ _ h => h.1) (env.fixes_construct n) t w
      { b with call := { b.call with args := b.call.args.set i .undefined } }
    rw [final_ok hok] at hcall
    refine ⟨⟨w, hargs ▸ hw, hok⟩, ?_, fun j hj => ?_⟩
    · rw [SameCall, hcall]
      exact ⟨rfl, rfl⟩
    · rw [hcall]
      exact List.getElem?_set_ne (Ne.symm hj)

/-- The first pass converts the arguments that move no object out, and takes no others. -/
theorem early_ok : ∀ {ts : List NativeType} {i : Nat} {b b' : Boundary Ω} {xs : NativeType.PartialValues Ω ts},
    early (env.services n) ts i b = .ok xs b' → (∀ j, i ≤ j → b.call.args[j]? = args[j]?) →
    SameCall b b' ∧ (∀ j, j < i → b'.call.args[j]? = b.call.args[j]?) ∧ Untaken args b' ts i xs ∧
      ∀ ys, Completes ts xs ys → ConvertsArgs (env.services n) args (fun t => !t.consumes) ts i ys b b'
  | [], _, _, _, _, h, _ => by
    cases h
    exact ⟨⟨rfl, rfl⟩, fun _ _ => rfl, trivial, fun _ _ => rfl⟩
  | t :: ts, i, b, b', xs, h, hargs => by
    rw [early_cons] at h
    obtain ⟨x, b₁, hx, h⟩ := Act.bind_eq_ok h
    obtain ⟨ys, b₂, hys, h⟩ := Act.bind_eq_ok h
    cases h
    have hrest := Act.orDrop_eq_ok hys
    unfold first at hx
    split at hx
    · rename_i hconsumes
      cases hx
      obtain ⟨hsame, hbefore, huntaken, hconverts⟩ := early_ok hrest fun j hj => hargs j (by omega)
      refine ⟨hsame, fun j hj => hbefore j (by omega), ⟨?_, huntaken⟩, fun zs hzs => ?_⟩
      · exact (hbefore i (by omega)).trans (hargs i (Nat.le_refl i))
      · rw [ConvertsArgs, if_neg (by rw [hconsumes]; exact Bool.false_ne_true)]
        exact hconverts zs.2 hzs
    · rename_i hconsumes
      rw [map_eq_pure_bind] at hx
      obtain ⟨v, b₃, hv, hx⟩ := Act.bind_eq_ok hx
      cases hx
      obtain ⟨hconvert, hsame₁, hother⟩ := arg_ok hv (hargs i (Nat.le_refl i))
      obtain ⟨hsame, hbefore, huntaken, hconverts⟩ := early_ok hrest fun j hj =>
        (hother j (by omega)).trans (hargs j (by omega))
      refine ⟨hsame₁.trans hsame, fun j hj => (hbefore j (by omega)).trans (hother j (by omega)), huntaken, ?_⟩
      rintro ⟨z, zs⟩ ⟨rfl, hzs⟩
      rw [ConvertsArgs, if_pos (by rw [Bool.not_eq_true] at hconsumes; rw [hconsumes]; rfl)]
      exact ⟨b₁, hconvert, hconverts zs hzs⟩

/-- The second pass converts the others. -/
theorem late_ok : ∀ {ts : List NativeType} {i : Nat} {b b' : Boundary Ω} {xs : NativeType.PartialValues Ω ts}
    {ys : NativeType.Values Ω ts}, late (env.services n) ts xs i b = .ok ys b' → Awaits ts xs → Untaken args b ts i xs →
    SameCall b b' ∧ Completes ts xs ys ∧ ConvertsArgs (env.services n) args (fun t => t.consumes) ts i ys b b'
  | [], _, _, _, _, _, h, _, _ => by
    cases h
    exact ⟨⟨rfl, rfl⟩, trivial, rfl⟩
  | t :: ts, i, b, b', (some x, xs), ys, h, ⟨ht, hawaits⟩, huntaken => by
    have ht : t.consumes = false := ht.symm
    rw [late_some] at h
    obtain ⟨zs, b₁, hzs, h⟩ := Act.bind_eq_ok h
    cases h
    obtain ⟨hsame, hcompletes, hconverts⟩ := late_ok (Act.orDrop_eq_ok hzs) hawaits huntaken
    refine ⟨hsame, ⟨rfl, hcompletes⟩, ?_⟩
    rw [ConvertsArgs, if_neg (by rw [ht]; exact Bool.false_ne_true)]
    exact hconverts
  | t :: ts, i, b, b', (none, xs), ys, h, ⟨ht, hawaits⟩, huntaken => by
    rw [late_none] at h
    obtain ⟨x, b₁, hx, h⟩ := Act.bind_eq_ok h
    obtain ⟨zs, b₂, hzs, h⟩ := Act.bind_eq_ok h
    cases h
    obtain ⟨hconvert, hsame₁, hother⟩ := arg_ok (Act.orDrop_eq_ok hx) huntaken.1
    obtain ⟨hsame, hcompletes, hconverts⟩ := late_ok (Act.orDrop_eq_ok hzs) hawaits
      (huntaken.2.later fun j hj => hother j (by omega))
    refine ⟨hsame₁.trans hsame, hcompletes, ?_⟩
    have ht : t.consumes = true := ht.symm
    rw [ConvertsArgs, if_pos ht]
    exact ⟨b₁, hconvert, hconverts⟩

/-- The arguments that native code is given are the conversions of those of the call. -/
theorem arguments_ok {ts : List NativeType} {check : Boundary Ω → Except CallError Unit} {b b' : Boundary Ω}
    {xs : NativeType.Values Ω ts} (h : arguments (env.services n) ts check b = .ok xs b') :
    SameCall b b' ∧ Converts (env.services n) ts xs b b' := by
  obtain ⟨ys, b₁, hys, hrest⟩ := Act.bind_eq_ok h
  obtain ⟨_, b₂, hchecks, hlate⟩ := Act.bind_eq_ok hrest
  have hargs (j : Nat) (_ : 0 ≤ j) : b.call.args[j]? = b.call.args[j]? := rfl
  obtain ⟨hsame₁, -, huntaken, hconverts₁⟩ := early_ok hys hargs
  have hchecks := Act.orDrop_eq_ok hchecks
  rw [get_bind] at hchecks
  obtain ⟨_, b₃, hcheck, hpre⟩ := Act.bind_eq_ok hchecks
  obtain ⟨-, rfl⟩ := Act.ofExcept_eq_ok hcheck
  rw [get_bind] at hpre
  obtain ⟨-, rfl⟩ := Act.ofExcept_eq_ok hpre
  obtain ⟨hsame₂, hcompletes, hconverts₂⟩ := late_ok hlate (awaits_early hys) huntaken
  exact ⟨hsame₁.trans hsame₂, _, hconverts₁ xs hcompletes, hconverts₂⟩

end Entry

/-! ## The receiver -/

namespace Environment

/-- An engine that was started on typed declarations, with whatever value bindings since. -/
inductive Built : Environment Ω → Prop
  | start {r : Registry (Upcast Ω) (Code Ω)} {config : EngineConfig} {program : NativeProgram Ω} {env : Environment Ω} :
      r.ReachedTyped → Environment.start r config program = .ok env → Built env
  | bind {env : Environment Ω} (c : Class) (binding : HostBinding) : Built env → Built (env.bind c binding)
  | unbind {env : Environment Ω} (c : Class) : Built env → Built (env.unbind c)

variable {env : Environment Ω}

theorem start_ok {r : Registry (Upcast Ω) (Code Ω)} {config : EngineConfig} {program : NativeProgram Ω}
    (h : Environment.start r config program = .ok env) : r.finalize = .ok env.registry := by
  unfold Environment.start at h
  cases hlong : overlong? r config.maxArity with
  | some e =>
    rw [hlong] at h
    cases h
  | none =>
    rw [hlong] at h
    obtain ⟨registry, hregistry, h⟩ := NativeBridge.bind_ok h
    cases h
    exact hregistry

/-- Typed declarations that can be closed start an engine. -/
theorem starts_built {declared : Except RegistrationError (Registry (Upcast Ω) (Code Ω))} {config : EngineConfig}
    {program : NativeProgram Ω} (hreached : ∀ r, declared = .ok r → r.ReachedTyped)
    (hstarts : (declared >>= fun r => (Environment.start r config program).map fun _ => ()) = .ok ())
    (henv : ∀ env', declared >>= (Environment.start · config program) = .ok env' → env = env') : env.Built := by
  obtain ⟨r, hr, hstarts⟩ := NativeBridge.bind_ok hstarts
  cases hstart : Environment.start r config program with
  | error e =>
    rw [hstart] at hstarts
    cases hstarts
  | ok env' =>
    rw [henv env' (hr ▸ hstart)]
    exact .start (hreached r hr) hstart

/-- The registry of an engine is a closed one of typed declarations. -/
theorem Built.registry (henv : env.Built) : ∃ r : Registry (Upcast Ω) (Code Ω), r.ReachedTyped ∧
    r.finalize = .ok env.registry := by
  induction henv with
  | start hr h => exact ⟨_, hr, start_ok h⟩
  | bind c binding _ ih => exact ih
  | unbind c _ ih => exact ih

theorem Built.settles (henv : env.Built) : env.registry.Settles := by
  obtain ⟨r, hr, hfinal⟩ := henv.registry
  exact hr.settles.finalize hfinal

theorem Built.constructs (henv : env.Built) : env.Constructs fun _ => True := by
  intro c d n ref s e hd href he
  obtain ⟨hmem, rfl⟩ := Registry.class?_mem hd
  obtain ⟨s', e', entry, he', hcode, -, -, hserves⟩ :=
    (henv.settles.classes d hmem).constructors n ref (OverloadGroup.resolve_ok.mp href)
  rw [Registry.entry_eq_ok.mp he] at he'
  cases he'
  refine ⟨entry, hcode, ?_, fun _ _ => trivial⟩
  cases entry with
  | constructor c params body => rfl
  | _ => cases hserves

/-- A class is another or has it among its ancestors. -/
def IsA (env : Environment Ω) (c a : Class) : Prop :=
  c = a ∨ ∃ h, env.registry.hierarchy? = some h ∧ a ∈ h.ancestors c

theorem Built.isA (henv : env.Built) {c a : Class} {p : List (Upcast Ω)} (h : env.registry.upcastPath? c a = some p) :
    env.IsA c a := by
  obtain ⟨r, hr, hfinal⟩ := henv.registry
  obtain ⟨hierarchy, hbuild, -, hexposure⟩ := Registry.finalize_ok hfinal
  unfold Registry.upcastPath? at h
  split at h
  · rename_i hca
    exact .inl hca
  · rename_i hne
    have hhierarchy : env.registry.hierarchy? = some hierarchy := by
      unfold Registry.hierarchy?
      rw [hexposure]
      rfl
    rw [hhierarchy, Option.bind_some, Hierarchy.upcastPath?, if_neg hne] at h
    refine .inr ⟨hierarchy, hhierarchy, (Hierarchy.mem_ancestors (Hierarchy.build_sound hbuild)).mpr ?_⟩
    obtain ⟨before, after, hsplit, -⟩ := List.lookup_eq_some_iff.mp h
    have hmem : (a, p) ∈ hierarchy.paths c := by
      rw [hsplit]
      exact List.mem_append_right _ List.mem_cons_self
    unfold Hierarchy.paths at hmem
    split at hmem
    · obtain ⟨-, q, hq, habove⟩ := Hierarchy.pathsFrom_sound _ _ _ hmem
      rw [List.mem_singleton.mp hq] at habove
      exact habove
    · cases hmem

/-- The receiver of a call, as it is when it is taken hold of: its handle is live, its object is there and of a class
that is `c` or has it above, what is seen is the part of class `c` at the end of the upcast path, and where it may be
changed the wrapper is not const. -/
structure Grants (env : Environment Ω) (b : Boundary Ω) (c : Class) (mutable : Bool) (h : Handle) (w : Wrapper)
    (hold : Access.Hold Ω c) : Prop where
  receiver : b.call.receiver = some h
  live : b.table.get h = .ok w
  alive : w.isAlive b.heap = true
  isA : env.IsA w.cls c
  path : env.registry.upcastPath? w.cls c = some hold.path
  whole : (b.heap.cells[w.address]?).map (·.object) = some hold.whole
  part : Upcast.viewAlong hold.path hold.whole = some hold.part.object
  mutable : mutable = true → w.isConst = false

end Environment

theorem Access.locate_ok {sv : Services Ω} {b : Boundary Ω} {h : Handle} {c : Class} {mutable : Bool} {a : Address}
    {p : List (Upcast Ω)} (hok : locate sv b h c mutable = .ok (a, p)) :
    ∃ w, b.table.get h = .ok w ∧ (mutable = true → w.isConst = false) ∧ path sv c w.cls = .ok p ∧
      w.isAlive b.heap = true ∧ w.address = a := by
  unfold locate at hok
  obtain ⟨w, hw, hok⟩ := NativeBridge.bind_ok hok
  obtain ⟨hconst, hok⟩ := guard_ok hok
  obtain ⟨p', hp, hok⟩ := NativeBridge.bind_ok hok
  split at hok
  · rename_i halive
    cases hok
    refine ⟨w, hw, fun hm => ?_, hp, halive, rfl⟩
    rw [hm, Bool.true_and, Bool.not_eq_true] at hconst
    exact hconst
  · cases hok

theorem Environment.path_ok {env : Environment Ω} {n : Nat} {c source : Class} {p : List (Upcast Ω)}
    (h : Access.path (env.services n) c source = .ok p) : env.registry.upcastPath? source c = some p := by
  unfold Access.path at h
  split at h
  · rename_i hsame
    cases h
    rw [Registry.upcastPath?, if_pos hsame]
  · rw [Environment.services_upcastPath] at h
    cases hp : env.registry.upcastPath? source c with
    | none =>
      rw [hp] at h
      cases h
    | some q =>
      rw [hp] at h
      cases h
      rfl

theorem Access.grasp_ok {env : Environment Ω} (henv : env.Built) {n : Nat} {c : Class} {mutable : Bool}
    {b b' : Boundary Ω} {hold : Access.Hold Ω c} (h : Access.grasp (env.services n) c mutable b = .ok hold b') :
    ∃ handle w, env.Grants b c mutable handle w hold := by
  unfold Access.grasp at h
  rw [get_bind] at h
  obtain ⟨handle, b₁, hthis, hlocate⟩ := Act.bind_eq_ok h
  obtain ⟨hthis, rfl⟩ := Act.ofExcept_eq_ok hthis
  rw [get_bind] at hlocate
  obtain ⟨⟨a, p⟩, b₂, hlocate, hseize⟩ := Act.bind_eq_ok hlocate
  obtain ⟨hlocate, rfl⟩ := Act.ofExcept_eq_ok hlocate
  obtain ⟨w, hlive, hconst, hpath, halive, rfl⟩ := locate_ok hlocate
  obtain ⟨locked, -, hpart, -⟩ := seize_ok hseize
  unfold partAt at hpart
  obtain ⟨cell, hcell, hpart⟩ := Option.bind_eq_some_iff.mp hpart
  obtain ⟨x, hx, rfl⟩ := Option.map_eq_some_iff.mp hpart
  obtain ⟨o, hview, hx⟩ := Option.bind_eq_some_iff.mp hx
  have hregistry := Environment.path_ok hpath
  refine ⟨handle, w, ?_, hlive, halive, henv.isA hregistry, hregistry, ?_, ?_, hconst⟩
  · unfold requireThis at hthis
    split at hthis
    · rename_i hreceiver
      cases hthis
      exact hreceiver
    · cases hthis
  · rw [hcell]
    rfl
  · unfold Instance.of? at hx
    split at hx
    · cases hx
      exact hview
    · cases hx

namespace Entry

/-- What native code needs of its receiver in the state in which that is taken hold of. -/
def Gate (env : Environment Ω) (b : Boundary Ω) : (e : Entry Ω) → e.Receiver → Prop
  | .function _ _ _, _ => True
  | .method c _ _ _, hold => ∃ h w, env.Grants b c false h w hold
  | .methodMut c _ _ _, hold => ∃ h w, env.Grants b c true h w hold
  | .constructor _ _ _, _ => True

/-- What a call in progress in `b` has passed when the native code of its entry is started with `s` in `b'`: the arguments
are as many as the parameters, each is converted to its own, and from the state that this has led to the receiver is taken
hold of, which is what the entry needs. -/
structure Passed (env : Environment Ω) (sv : Services Ω) (e : Entry Ω) (b : Boundary Ω) (s : e.Start) (b' : Boundary Ω) :
    Prop where
  arity : b.call.args.length = e.params.length
  gate : ∃ b₁, Converts sv e.params s.args b b₁ ∧ SameCall b b₁ ∧ e.Gate env b₁ s.receiver ∧
    e.grasp sv b₁ = .ok s.receiver b'

theorem begin_ok {env : Environment Ω} (henv : env.Built) {n : Nat} {e : Entry Ω} {b b' : Boundary Ω} {s : e.Start}
    (harity : b.call.args.length = e.params.length) (h : e.begin (env.services n) b = .ok s b') :
    e.Passed env (env.services n) b s b' := by
  unfold begin at h
  obtain ⟨xs, b₁, hargs, h⟩ := Act.bind_eq_ok h
  obtain ⟨r, b₂, hgrasp, h⟩ := Act.bind_eq_ok h
  cases h
  obtain ⟨hsame, hconverts⟩ := arguments_ok hargs
  have hgrasp := Act.orDrop_eq_ok hgrasp
  refine ⟨harity, b₁, hconverts, hsame, ?_, hgrasp⟩
  cases e with
  | function params ret body => trivial
  | method c params ret body => exact Access.grasp_ok henv hgrasp
  | methodMut c params ret body => exact Access.grasp_ok henv hgrasp
  | constructor c params body => trivial

end Entry

/-! ## Calls -/

namespace Environment
variable {env : Environment Ω}

/-- What a call by tag makes of the result of its dispatch: a constructor's object is wrapped. -/
def takeOver (env : Environment Ω) (tag : CallTag) (w : Wire) : Act Ω Wire :=
  match env.registry.target tag with
  | .ok (.constructor c) => do
    let p ← constructed (((env.registry.class? c).map (·.name)).getD "") w
    return .object (← Act.wrap p true .none)
  | _ => pure w

/-- A call by tag dispatches once. -/
theorem call_eq {tag : CallTag} {receiver this : Option Handle} {args passed : List Wire} {group : OverloadGroup}
    (hcall : env.tagCall tag receiver args = some (group, this, passed)) :
    env.call tag receiver args = env.callGroup group this passed >>= env.takeOver tag := by
  unfold tagCall at hcall
  unfold call takeOver
  cases htarget : env.registry.target tag with
  | error e =>
    rw [htarget] at hcall
    cases hcall
  | ok target =>
    rw [htarget] at hcall
    cases target with
    | release c => cases hcall
    | member c i | function i =>
      obtain ⟨g, hgroup, hcall⟩ := Option.map_eq_some_iff.mp hcall
      cases hcall
      dsimp only
      rw [hgroup]
      exact (bind_pure _).symm
    | constructor c =>
      dsimp only at hcall ⊢
      unfold constructorCall at hcall
      split at hcall
      · cases hcall
      · rename_i hraw
        obtain ⟨d, hd, hcall⟩ := Option.map_eq_some_iff.mp hcall
        cases hcall
        have hclass : env.registry.class? c = some d := by
          obtain ⟨_, -, hd⟩ := Option.bind_eq_some_iff.mp hd
          exact hd
        rw [construct.eq_2 env c args hraw, hd, hclass]
        rfl

/-- What an entry must be to stand behind a target. -/
def Suits (env : Environment Ω) (e : Entry Ω) : TagTarget → Prop
  | .constructor c => e.Serves c .constructor
  | .member c i => ∀ d m, env.registry.class? c = some d → d.members[i]? = some m → e.Serves c m.key.kind
  | .function _ => e.IsFree
  | .release _ => False

/-- The group behind a call by tag leads to entries that suit the tag's target. -/
theorem leads_tagCall (hr : env.registry.Settles) {tag : CallTag} {receiver this : Option Handle}
    {args passed : List Wire} {group : OverloadGroup}
    (hcall : env.tagCall tag receiver args = some (group, this, passed)) :
    ∃ target, env.registry.target tag = .ok target ∧
      group.Leads env.registry.signatures fun e => env.Suits e target := by
  unfold tagCall at hcall
  cases htarget : env.registry.target tag with
  | error e =>
    rw [htarget] at hcall
    cases hcall
  | ok target =>
    rw [htarget] at hcall
    refine ⟨target, rfl, ?_⟩
    cases target with
    | release c => cases hcall
    | function i =>
      obtain ⟨g, hgroup, hcall⟩ := Option.map_eq_some_iff.mp hcall
      cases hcall
      exact hr.functions group (List.mem_of_getElem? hgroup)
    | member c i =>
      obtain ⟨g, hgroup, hcall⟩ := Option.map_eq_some_iff.mp hcall
      cases hcall
      obtain ⟨d, hd, hgroup⟩ := Option.bind_eq_some_iff.mp hgroup
      obtain ⟨m, hm, rfl⟩ := Option.map_eq_some_iff.mp hgroup
      obtain ⟨hmem, rfl⟩ := Registry.class?_mem hd
      intro n ref h
      obtain ⟨s, e, entry, he, hcode, hlength, htokens, hserves⟩ :=
        (hr.classes d hmem).members m (List.mem_of_getElem? hm) n ref h
      refine ⟨s, e, entry, he, hcode, hlength, htokens, fun d' m' hd' hm' => ?_⟩
      rw [hd] at hd'
      cases hd'
      rw [hm] at hm'
      cases hm'
      exact hserves
    | constructor c =>
      dsimp only at hcall
      unfold constructorCall at hcall
      split at hcall
      · cases hcall
      · obtain ⟨d, hd, hcall⟩ := Option.map_eq_some_iff.mp hcall
        cases hcall
        obtain ⟨_, -, hd⟩ := Option.bind_eq_some_iff.mp hd
        obtain ⟨hmem, rfl⟩ := Registry.class?_mem hd
        exact (hr.classes d hmem).constructors

/-- What a call that was let through has passed. -/
theorem select_ok {group : OverloadGroup} {b : Boundary Ω} {e : SignatureEntry (Code Ω)}
    (h : env.select group b = .ok e) :
    ∃ ref s, group.overload? b.call.args.length = some ref ∧ env.registry.signatures.entry? ref = some (s, e) := by
  unfold select at h
  obtain ⟨ref, href, h⟩ := NativeBridge.bind_ok h
  obtain ⟨⟨s, e'⟩, he, h⟩ := NativeBridge.bind_ok h
  have hsame : e' = e := by
    dsimp only at h
    split at h
    · obtain ⟨-, -, h⟩ := NativeBridge.bind_ok h
      obtain ⟨-, -, h⟩ := NativeBridge.bind_ok h
      cases h
      rfl
    · obtain ⟨-, -, h⟩ := NativeBridge.bind_ok h
      cases h
      rfl
  subst hsame
  exact ⟨ref, s, OverloadGroup.resolve_ok.mp href, Registry.entry_eq_ok.mp he⟩

end Environment
end NativeBridge
