import NativeBridge.Proofs.Call.RoundTrip
import NativeBridge.Proofs.Call.Unique
import NativeBridge.Proofs.Engine.Leaks
import NativeBridge.Proofs.Object.Identity
/-!
# Handles keep the identity of objects

A pointer is passed to the host as a shared or a borrowed handle, const or not, or by being wrapped anew
(`Environment.Passes`). In whichever way it is passed, the host gets the handle that it knows the object by
(`Environment.KnownBy`): the one of the wrapper for the object and the constness, until that wrapper is discarded
(`Environment.identity_kept`). An object that is passed on its own gets a handle of its own, from which it is taken back.
-/
namespace NativeBridge
variable {Ω : Type} [ObjectModel Ω]

open Act Ledger

namespace Environment
variable {env : Environment Ω} {b b' : Boundary Ω} {p : Pointer} {k : Bool} {act : Act Ω Wire}

/-! ## Ways to pass an object -/

/-- The actions that pass a pointer to the host, as const or not: conversions of shared and borrowed handles, and the
construction that wraps a raw pointer anew, each in the call in progress or in a call of its own. -/
inductive Passes (env : Environment Ω) : Pointer → Bool → Act Ω Wire → Prop where
  | shared (sv : Services Ω) (c : Class) (a : Address) :
    Passes env ⟨c, a, false⟩ false (Convert.toWire sv (.handle .shared c) a)
  | borrowed (sv : Services Ω) (c : Class) (a : Address) :
    Passes env ⟨c, a, true⟩ false (Convert.toWire sv (.handle .borrowed c) a)
  | constShared (sv : Services Ω) (c : Class) (a : Address) :
    Passes env ⟨c, a, false⟩ true (Convert.toWire sv (.handle .constShared c) a)
  | constBorrowed (sv : Services Ω) (c : Class) (a : Address) :
    Passes env ⟨c, a, true⟩ true (Convert.toWire sv (.handle .constBorrowed c) a)
  | anew {c : Class} {p : Pointer} {flags : Wire} {bits : Int64} (hpath : (env.registry.upcastPath? p.cls c).isSome)
    (hbits : flags.asInt? = some bits) :
    Passes env p ((TypeFlags.ofWord bits.toUInt64).contains .const) (env.construct c [.pointer p, flags])
  | aside {p : Pointer} {k : Bool} {act : Act Ω Wire} (h : Passes env p k act) : Passes env p k (aside [] act)

/-- The action binds the pointer to a wrapper of the constness `k`, and gives its handle. -/
def Binds (p : Pointer) (k : Bool) (act : Act Ω Wire) (b : Boundary Ω) : Prop :=
  ∃ owned flags b', flags.contains .const = k ∧ act b = .ok (.object (b.toHoldings.wrap p owned flags).1) b' ∧
    b'.toHoldings = (b.toHoldings.wrap p owned flags).2 ∧ b'.call = b.call

theorem binds_anew {c : Class} {flags : Wire} {bits : Int64} (hpath : (env.registry.upcastPath? p.cls c).isSome)
    (hbits : flags.asInt? = some bits) (b : Boundary Ω) :
    Binds p ((TypeFlags.ofWord bits.toUInt64).contains .const) (env.construct c [.pointer p, flags]) b := by
  have hrefs : flags.refs = [] := by
    cases flags <;> first | rfl | cases hbits
  let owned := !(TypeFlags.ofWord bits.toUInt64).contains .shared && (!p.weak && b.heap.strong p.address == 1)
  have hrewrapping : env.rewrapping c p flags b = .ok (TypeFlags.ofWord bits.toUInt64, owned) b := by
    unfold rewrapping
    rw [if_neg (by rw [Option.isNone_eq_false_iff.mpr hpath]; exact Bool.false_ne_true), hbits]
    rfl
  have hthen : ((env.rewrapping c p flags).thenDrop flags.refs) b =
      .ok (TypeFlags.ofWord bits.toUInt64, owned) b := by
    rw [Act.thenDrop, Act.ensuring, hrewrapping, hrefs]
    change EStateM.Result.ok _ { b with toHoldings := b.toHoldings.drop [] } = _
    rw [Holdings.drop, Heap.release_nil]
  have hrewrap : env.rewrap c p flags b =
      (do return .object (← Act.wrap p owned (TypeFlags.ofWord bits.toUInt64)) : Act Ω Wire) b := by
    rw [rewrap_eq, Act.bind_ok (orDrop_ok hthen)]
  exact ⟨owned, TypeFlags.ofWord bits.toUInt64, _, rfl, hrewrap, rfl, rfl⟩

theorem Binds.aside (h : Binds p k act (entering b none [])) : Binds p k (aside [] act) b := by
  obtain ⟨owned, flags, b', hconst, hact, hheld, hcall⟩ := h
  have hrefs : b'.call.refs = [] := by
    rw [hcall]
    rfl
  exact ⟨owned, flags, _, hconst, aside_eq_ok hact hrefs, hheld, rfl⟩

/-- **What passing a pointer comes to**: it is bound to a wrapper, unless a borrowed handle has outlived its object. -/
theorem Passes.binds (h : env.Passes p k act) (b : Boundary Ω) : Binds p k act b ∨
    (b.heap.isAlive p.address = false ∧ ∃ b', act b = .ok .null b' ∧ b'.call = b.call) := by
  have hborrowed (c : Class) (a : Address) (flags : TypeFlags) (b : Boundary Ω) :
      Binds ⟨c, a, true⟩ (flags.contains .const) (Convert.wrapBorrowed c a flags) b ∨
        (b.heap.isAlive a = false ∧ ∃ b', Convert.wrapBorrowed c a flags b = .ok .null b' ∧ b'.call = b.call) := by
    unfold Convert.wrapBorrowed
    unfold Binds
    rw [get_bind]
    cases halive : b.heap.isAlive a with
    | true => exact .inl ⟨false, flags, _, rfl, rfl, rfl, rfl⟩
    | false => exact .inr ⟨rfl, b, rfl, rfl⟩
  induction h generalizing b with
  | shared sv c a => exact .inl ⟨false, .none, _, rfl, rfl, rfl, rfl⟩
  | constShared sv c a => exact .inl ⟨false, .const, _, rfl, rfl, rfl, rfl⟩
  | borrowed sv c a => exact hborrowed c a .none b
  | constBorrowed sv c a => exact hborrowed c a .const b
  | anew hpath hbits => exact .inl (binds_anew hpath hbits b)
  | aside h ih =>
    rcases ih (entering b none []) with hbinds | ⟨hdead, b', hnull, hcall⟩
    · exact .inl hbinds.aside
    · exact .inr ⟨hdead, _, aside_eq_ok hnull (by rw [hcall]; rfl), rfl⟩

theorem Passes.binds_of_alive (h : env.Passes p k act) (halive : b.heap.isAlive p.address = true) : Binds p k act b :=
  (h.binds b).resolve_right fun hdead => by
    rw [halive] at hdead
    cases hdead.1

theorem Passes.binds_of_ok (h : env.Passes p k act) {g : Handle} (hact : act b = .ok (.object g) b') : Binds p k act b :=
  (h.binds b).resolve_right fun ⟨_, _, hnull, _⟩ => by
    rw [hact] at hnull
    cases hnull

/-! ## The handle of an object -/

/-- The actions that take a shared handle to an object of class `c` back from the host, one that may be const or not. -/
inductive Takes (env : Environment Ω) (c : Class) (h : Handle) : Bool → Act Ω Address → Prop where
  | shared (sv : Services Ω) : Takes env c h false (Convert.fromWire sv (.handle .shared c) (.object h))
  | constShared (sv : Services Ω) : Takes env c h true (Convert.fromWire sv (.handle .constShared c) (.object h))
  | hostShared : Takes env c h false (env.fromWire (.handle .shared c) (.object h))
  | hostConstShared : Takes env c h true (env.fromWire (.handle .constShared c) (.object h))

theorem fromWire_eq_ok {t : NativeType} {w : Wire} {x : t.Value Ω}
    (h : Convert.fromWire (env.services w.depth) t w (entering b none [.undefined]) = .ok x b')
    (hrefs : b'.call.refs = []) : env.fromWire t w b = .ok x { b' with call := b.call } := by
  rw [fromWire, aside_arg]
  exact leaving_ok (by rw [Act.atArgument, h]) hrefs

theorem Takes.ok {c : Class} {h : Handle} {allowConst : Bool} {act : Act Ω Address} (hact : env.Takes c h allowConst act)
    {v : Wrapper} (hv : b.table.live? h = some v) (halive : v.isAlive b.heap = true) (hcls : v.cls = c)
    (hconst : v.isConst = true → allowConst = true) : ∃ b', act b = .ok v.address b' := by
  cases hact with
  | shared sv | constShared sv => exact ⟨_, Access.sharedObject_eq hv halive hcls hconst⟩
  | hostShared | hostConstShared =>
    exact ⟨_, fromWire_eq_ok (Access.sharedObject_eq (b := entering b none [.undefined]) hv halive hcls hconst) rfl⟩

/-- The host knows the object at `a`, of class `c`, by the handle `h`, and may write it unless `k` says that it is
const. -/
structure KnownBy (env : Environment Ω) (c : Class) (a : Address) (k : Bool) (h : Handle) (b : Boundary Ω) : Prop where
  live : ∃ v, b.table.live? h = some v ∧ v.cls = c ∧ v.address = a ∧ v.isConst = k
  /-- In whichever way the object is passed, the host gets this handle. -/
  given : ∀ p act, env.Passes p k act → p.address = a → ∃ b', act b = .ok (.object h) b'
  /-- What else is passed has another handle. -/
  apart : ∀ p k' act g b', env.Passes p k' act → act b = .ok (.object g) b' → p.address ≠ a ∨ k' ≠ k → g ≠ h
  /-- A handle that is taken back is one to the object. -/
  taken : ∀ allowConst act, env.Takes c h allowConst act → (k = true → allowConst = true) → ∃ b', act b = .ok a b'

/-- **A live wrapper whose object is there is what the object is known by.** -/
theorem knownBy (env : Environment Ω) (hs : b.table.Sound) {h : Handle} {v : Wrapper} (hv : b.table.live? h = some v)
    (halive : b.heap.isAlive v.address = true) : env.KnownBy v.cls v.address v.isConst h b where
  live := ⟨v, hv, rfl, rfl, rfl⟩
  given p act hact hp := by
    obtain ⟨owned, flags, b', hconst, hact, -⟩ := hact.binds_of_alive (hp ▸ halive)
    have hkey : v.key = ⟨p.address, flags.contains .const⟩ := by rw [Wrapper.key, hp, hconst]
    rw [Holdings.wrap_known hs hv halive hkey] at hact
    exact ⟨b', hact⟩
  apart p k' act g b' hact hg hother := by
    obtain ⟨owned, flags, b₁, hconst, hact, -⟩ := hact.binds_of_ok hg
    rw [hg] at hact
    cases hact
    refine Holdings.wrap_ne hs hv fun hkey => ?_
    obtain ⟨haddress, hkey⟩ := IdentityKey.mk.inj hkey
    rcases hother with hne | hne
    · exact hne haddress.symm
    · exact hne (hconst.symm.trans hkey.symm)
  taken allowConst act hact hconst :=
    hact.ok hv (by rw [Wrapper.isAlive, halive, Bool.or_true]) rfl hconst

/-! ## Objects that are passed on their own -/

/-- An object that nobody else refers to is wrapped under a new handle, from which it can be moved out again. -/
theorem wrapObject_alone {c : Class} (x : Instance Ω c) (hb : b.Ready) :
    ∃ g b₁ v, Convert.wrapObject x b = .ok (.object g) b₁ ∧ b₁.call = b.call ∧ b.table.live? g = none ∧
      b₁.heap.object? v.address = some x.object ∧
      (∀ receiver, receiver ≠ some g → Access.Movable receiver b₁.toHoldings c g v) ∧
      ∀ y, (b₁.toHoldings.moveOut g v).table.live? y = b.table.live? y := by
  let p : Pointer := ⟨c, b.heap.cells.length, false⟩
  let v : Wrapper := .bound p true .none
  let s₁ : Holdings Ω := ⟨(b.heap.alloc x.object).2, b.table⟩
  have hwrap : s₁.wrap p true .none = s₁.wrapNew v := by
    refine Holdings.wrap_unknown hb.sound fun h w hw haddress => ?_
    exact Nat.ne_of_lt (hb.address_lt hw) haddress
  have hcell : s₁.heap.cells[b.heap.cells.length]? = some ⟨x.object, 1, 0, false⟩ := List.getElem?_concat_length ..
  have hlive (y : Handle) := hb.sound.live?_enter v y
  have hfresh := hb.sound.live?_allocate v
  refine ⟨(b.table.allocate v).1, { b with toHoldings := (s₁.wrapNew v).2 }, v, ?_, rfl, hfresh, ?_,
    fun receiver hreceiver => ⟨(hlive _).trans (if_pos rfl), rfl, hreceiver, Wrapper.isConst_bound p true .none, rfl,
      Heap.strong_of_cell hcell⟩,
    fun y => ?_⟩
  · change EStateM.Result.ok (Wire.object (s₁.wrap p true .none).1)
      { b with toHoldings := (s₁.wrap p true .none).2 } = _
    rw [hwrap]
    rfl
  · change s₁.heap.cells[b.heap.cells.length]?.map _ = _
    rw [hcell]
    rfl
  · refine (ObjectTable.live?_remove ((hlive _).trans (if_pos rfl)) y).trans ?_
    split
    · rename_i hy
      rw [hy, hfresh]
    · rename_i hy
      exact (hlive y).trans (if_neg hy)

/-- What is passed on its own is taken back, and the live wrappers are the ones that there were: in calls whose receiver
is not the new handle, and in calls of their own. -/
theorem unique_returns (env : Environment Ω) {c : Class} (x : Instance Ω c) (hb : b.Ready) :
    (∃ g b₁, (∀ sv, Convert.toWire sv (.handle .unique c) x b = .ok (.object g) b₁) ∧ b.table.live? g = none ∧
      (b.call.receiver ≠ some g → ∃ b₂, (∀ sv, Convert.fromWire sv (.handle .unique c) (.object g) b₁ = .ok x b₂) ∧
        ∀ y, b₂.table.live? y = b.table.live? y)) ∧
    ∃ g b₁ b₂, env.toWire (.handle .unique c) x b = .ok (.object g) b₁ ∧ b.table.live? g = none ∧
      env.fromWire (.handle .unique c) (.object g) b₁ = .ok x b₂ ∧ ∀ y, b₂.table.live? y = b.table.live? y := by
  constructor
  · obtain ⟨g, b₁, v, hwrap, hcall, hfresh, hobject, hmovable, hlive⟩ := wrapObject_alone x hb
    refine ⟨g, b₁, fun _ => hwrap, hfresh, fun hreceiver => ?_⟩
    have htaken := Access.takeUnique_eq_ok.mpr ⟨v, hmovable _ (hcall ▸ hreceiver), hobject, rfl⟩
    exact ⟨_, fun _ => htaken, hlive⟩
  · obtain ⟨g, b₁, v, hwrap, hcall, hfresh, hobject, hmovable, hlive⟩ :=
      wrapObject_alone (b := entering b none []) x hb
    have hsent : env.toWire (.handle .unique c) x b = .ok (.object g) { b₁ with call := b.call } :=
      aside_eq_ok hwrap (by rw [hcall]; rfl)
    have htaken := Access.takeUnique_eq_ok (b := entering { b₁ with call := b.call } none [.undefined]) (x := x)
      |>.mpr ⟨v, hmovable none nofun, hobject, rfl⟩
    exact ⟨g, _, _, hsent, hfresh, fromWire_eq_ok htaken rfl, hlive⟩

/-! ## From the first handle on -/

/-- A pointer whose reference native code holds is passed by an event of typed native code. -/
theorem Binds.reached {es : List (Event Ω)} (hb : b.toHoldings.Alike (typedRun es).toHoldings)
    (hheld : covers (typedRun es).held p.refs = true) (hclass : (typedRun es).heap.classAt? p.address = some p.cls)
    {owned : Bool} {flags : TypeFlags} (hwrap : b'.toHoldings = (b.toHoldings.wrap p owned flags).2) :
    b'.toHoldings.Alike (typedRun (es ++ [.wrap p owned flags])).toHoldings := by
  have hsuits : (typedRun es).suits (.wrap p owned flags) = true := decide_eq_true hclass
  have henabled : (typedRun es).enabled (.wrap p owned flags) = true := hheld
  rw [typedRun_append, typedStep, if_pos hsuits, step, if_pos henabled, hwrap]
  exact (hb.wrap p owned flags).2

/-- **An object stays known by its handle** for as long as the handle is not discarded, if the wrapper is strong. -/
theorem knownBy_later (env : Environment Ω) {g h : Handle} {hs : List Handle} {u v : Wrapper} {c : Class}
    (hleads : b.toHoldings.Leads hs b'.toHoldings) (hg : g ∈ hs) (hu : b.table.live? g = some u)
    (hstrong : u.ownership.isStrong = true) (hcls : u.cls = c) (hh : h ∈ hs) (hv : b.table.live? h = some v)
    (hsame : v.address = u.address) : env.KnownBy c u.address v.isConst h b' := by
  obtain ⟨u', hu', hcontinues, halive⟩ := hleads.live hg hu
  obtain ⟨v', hv', hcontinues', -⟩ := hleads.live hh hv
  have hready := hleads.ready
  have haddress : v'.address = u'.address := hcontinues'.address.trans (hsame.trans hcontinues.address.symm)
  -- both wrappers are recorded under the class of the object
  have hclass : v'.cls = u'.cls := by
    have htyped := hready.typed h v' hv'
    rw [haddress, hready.typed g u' hu', Option.some.injEq] at htyped
    exact htyped.symm
  have hknown := knownBy env hready.sound hv' (by rw [haddress, hcontinues.address, halive hstrong])
  rwa [hclass, hcontinues.cls, hcls, haddress, hcontinues.address, hcontinues'.const] at hknown

/-- **Handles keep the identity of objects.** In every state of typed native code, whoever is using the objects then:
when an object to which native code holds a reference is passed to the host without being const, the host gets a live
handle `h` that is not const, and until `h` is discarded the object is known by it, in whichever way it is passed. Passed
as const the object has one other handle `h'`, which is const, until `h` or `h'` is discarded. What is passed besides
has other handles, and what is taken back from `h` or `h'` is the object. An object that is passed on its own gets a new
handle, from which it is taken back and no wrapper is left of it. -/
theorem identity_kept (env : Environment Ω) (es : List (Event Ω)) (b : Boundary Ω)
    (hb : b.toHoldings.Alike (typedRun es).toHoldings) :
    (∀ p act, env.Passes p false act → p.weak = false → p.address ∈ (typedRun es).held →
      (typedRun es).heap.classAt? p.address = some p.cls →
      ∃ h b₁, act b = .ok (.object h) b₁ ∧
        (∃ owned flags, b₁.toHoldings.Alike (typedRun (es ++ [.wrap p owned flags])).toHoldings) ∧
        ∀ b₂, b₁.toHoldings.Leads [h] b₂.toHoldings → env.KnownBy p.cls p.address false h b₂ ∧
          ∀ p' act', env.Passes p' true act' → p'.address = p.address →
            ∃ h' b₃, act' b₂ = .ok (.object h') b₃ ∧ h' ≠ h ∧
              ∀ b₄, b₃.toHoldings.Leads [h, h'] b₄.toHoldings → env.KnownBy p.cls p.address true h' b₄) ∧
    ∀ c (x : Instance Ω c),
      (∃ g b₁, (∀ sv, Convert.toWire sv (.handle .unique c) x b = .ok (.object g) b₁) ∧ b.table.live? g = none ∧
        (b.call.receiver ≠ some g → ∃ b₂, (∀ sv, Convert.fromWire sv (.handle .unique c) (.object g) b₁ = .ok x b₂) ∧
          ∀ y, b₂.table.live? y = b.table.live? y)) ∧
      ∃ g b₁ b₂, env.toWire (.handle .unique c) x b = .ok (.object g) b₁ ∧ b.table.live? g = none ∧
        env.fromWire (.handle .unique c) (.object g) b₁ = .ok x b₂ ∧ ∀ y, b₂.table.live? y = b.table.live? y := by
  have hready : b.Ready := hb.ready (coherent_typedRun es).toReady
  refine ⟨fun p act hact hstrong hheld hclass => ?_, fun c x => unique_returns env x hready⟩
  have hcovers : covers (typedRun es).held p.refs = true := by
    rw [Pointer.refs, hstrong]
    simpa [covers, List.count_pos_iff] using hheld
  have halive : b.heap.isAlive p.address = true := by
    rw [Heap.isAlive_of_tally hb.tally, Heap.isAlive_iff]
    exact (balanced_typedRun es).counts.alive (List.mem_append_left _ hheld)
  obtain ⟨owned, flags, b₁, hconst, hgiven, hwrap, -⟩ := hact.binds_of_alive halive
  have hreached := Binds.reached hb hcovers hclass hwrap
  obtain ⟨-, v, hv, hvstrong, hcls, haddress, hvconst⟩ :=
    Convert.wrap_ok hready hstrong (Heap.classAt?_of_tally hb.tally _ ▸ hclass) owned flags
  rw [← hwrap] at hv
  generalize (b.toHoldings.wrap p owned flags).1 = h at hgiven hv
  refine ⟨h, b₁, hgiven, ⟨owned, flags, hreached⟩, fun b₂ hleads => ⟨?_, fun p' act' hact' haddress' => ?_⟩⟩
  · have hknown := knownBy_later env hleads List.mem_cons_self hv hvstrong hcls List.mem_cons_self hv rfl
    rwa [haddress, hvconst, hconst] at hknown
  · obtain ⟨v₂, hv₂, hcontinues, halive₂⟩ := hleads.live List.mem_cons_self hv
    have hstrong₂ := hcontinues.isStrong hvstrong
    have hsound₂ := hleads.ready.sound
    have haddress₂ : v₂.address = p.address := hcontinues.address.trans haddress
    obtain ⟨owned', flags', b₃, hconst', hgiven', hwrap', -⟩ :=
      hact'.binds_of_alive (by rw [haddress', ← haddress, halive₂ hvstrong])
    obtain ⟨v', hv', hkey'⟩ := Holdings.wrap_live hsound₂ p' owned' flags'
    have hkept : (b₂.toHoldings.wrap p' owned' flags').2.table.live? h = some v₂ :=
      Holdings.live_wrap hsound₂ hv₂ hstrong₂
    rw [← hwrap'] at hv' hkept
    rw [Wrapper.key_bound, hconst', haddress'] at hkey'
    obtain ⟨hv'address, hv'const⟩ := IdentityKey.mk.inj hkey'
    refine ⟨_, b₃, hgiven', Holdings.wrap_ne hsound₂ hv₂ fun hkey => ?_, fun b₄ hleads' => ?_⟩
    · -- the wrappers differ in their constness
      have hne := congrArg IdentityKey.const hkey
      rw [hconst', Wrapper.key, hcontinues.const, hvconst, hconst] at hne
      cases hne
    · have hknown := knownBy_later env hleads' List.mem_cons_self hkept hstrong₂ (hcontinues.cls.trans hcls)
        (List.mem_cons_of_mem _ List.mem_cons_self) hv' (hv'address.trans haddress₂.symm)
      rwa [haddress₂, hv'const] at hknown

open Catalog in
/-- A node that native code shares with the host is known to it by the handle, and by another one where it is const. -/
theorem node_identity_kept :
    let b : Boundary Specimen :=
      { (Boundary.empty : Boundary Specimen) with toHoldings := (typedRun [.make (.node "a")]).toHoldings }
    ∃ h b₁ h' b₂, (bare Specimen).toWire (.handle .shared Species.node.cls) 0 b = .ok (.object h) b₁ ∧
      (bare Specimen).KnownBy Species.node.cls 0 false h b₁ ∧
      (bare Specimen).toWire (.handle .constBorrowed Species.node.cls) 0 b₁ = .ok (.object h') b₂ ∧ h' ≠ h := by
  intro b
  obtain ⟨hshared, -⟩ := identity_kept (bare Specimen) [.make (.node "a")] b (.refl _)
  obtain ⟨h, b₁, hto, ⟨owned, flags, hreached⟩, hlater⟩ :=
    hshared nodePointer _ (.aside (.shared ((bare Specimen).services 0) Species.node.cls 0)) rfl (List.mem_singleton_self 0)
      rfl
  obtain ⟨hknown, hconst⟩ := hlater b₁ (.refl hreached _)
  obtain ⟨h', b₂, hto', hne, -⟩ :=
    hconst _ _ (.aside (.constBorrowed ((bare Specimen).services 0) Species.node.cls 0)) rfl
  exact ⟨h, b₁, h', b₂, hto, hknown, hto', hne⟩

end Environment
end NativeBridge
