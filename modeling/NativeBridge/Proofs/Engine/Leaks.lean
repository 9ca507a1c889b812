import NativeBridge.Proofs.Call.Constness
import NativeBridge.Proofs.Engine.Orphans
import NativeBridge.Proofs.Object.Ledger
/-!
# Getting rid of const

A host that holds an object only through const wrappers has a value with such a wrapper converted and converted back.
It can come to hold a wrapper that is not const exactly if the value was converted to raw pointers, which do not know of
the constness of the wrapper that they were taken from and may be wrapped anew with any flags.
-/
namespace NativeBridge
variable {Ω : Type} [ObjectModel Ω]

open Act ObjectTable Holdings

/-- Converting raw pointers back wraps nothing. -/
theorem NativeType.wraps_of_bearsPointer : ∀ {t : NativeType}, t.bearsPointer = true → t.wraps = false
  | .pointer, _ => rfl
  | .vector t, h => wraps_of_bearsPointer (t := t) h
  | .array t _, h => wraps_of_bearsPointer (t := t) h
  | .optional t, h => wraps_of_bearsPointer (t := t) h
  | .result t, h => wraps_of_bearsPointer (t := t) h

namespace Environment
variable {env : Environment Ω}

/-! ## Conversions for the host -/

theorem final_aside_holdings {α : Type} (args : List Wire) (act : Act Ω α) (b : Boundary Ω) :
    ((aside args act).final b).toHoldings =
      (act.final (entering b none args)).toHoldings.drop (act.final (entering b none args)).call.refs := by
  change (Act.final (act.ensuring _) (entering b none args)).toHoldings = _
  rw [final_ensuring]
  rfl

theorem aside_ok {α : Type} {args : List Wire} {act : Act Ω α} {b b' : Boundary Ω} {x : α}
    (h : aside args act b = .ok x b') : ∃ b₁, act (entering b none args) = .ok x b₁ := by
  obtain ⟨b₁, hb₁, -⟩ := ensuring_eq_ok (show act.ensuring _ (entering b none args) = .ok x b' from h)
  exact ⟨b₁, hb₁⟩

theorem aside_eq_ok {α : Type} {args : List Wire} {act : Act Ω α} {b b' : Boundary Ω} {x : α}
    (h : act (entering b none args) = .ok x b') (hrefs : b'.call.refs = []) :
    aside args act b = .ok x { b' with call := b.call } := by
  change act.ensuring _ (entering b none args) = _
  exact leaving_ok h hrefs

theorem aside_arg (sv : Services Ω) (t : NativeType) (w : Wire) (b : Boundary Ω) :
    aside [w] (Entry.arg sv t 0) b = ((Convert.fromWire sv t w).atArgument 0).ensuring
      (fun inner => { inner.drop inner.call.refs with call := b.call }) (entering b none [.undefined]) := by
  change (Entry.arg sv t 0).ensuring _ (entering b none [w]) = _
  unfold Act.ensuring
  rw [Entry.arg_eq (show (entering b none [w]).call.args[0]? = some w from rfl)]
  rfl

section
variable {P : Holdings Ω → Prop} (hdrop : ∀ s as, P s → P (s.drop as))
include hdrop

/-- What an action secures at the beginning of a call of its own it secures when it is run aside. -/
theorem secures_aside {α : Type} {Q : α → Prop} {act : Act Ω α} {args : List Wire}
    (hact : ∀ b, P b.toHoldings → P (act.final (entering b none args)).toHoldings ∧
      ∀ x b', act (entering b none args) = .ok x b' → Q x) : (aside args act).Secures P Q := by
  intro b hb
  obtain ⟨hfinal, hvalue⟩ := hact b hb
  rw [final_aside_holdings]
  refine ⟨hdrop _ _ hfinal, fun x b' hx => ?_⟩
  obtain ⟨b₁, hb₁⟩ := aside_ok hx
  exact hvalue x b₁ hb₁

theorem secures_fromWire (env : Environment Ω) {t : NativeType} {w : Wire} {Q : t.Value Ω → Prop}
    (hconvert : (Convert.fromWire (env.services w.depth) t w).Secures P Q) : (env.fromWire t w).Secures P Q := by
  refine secures_aside hdrop fun b hb => ?_
  unfold final
  rw [Entry.arg_eq (show (entering b none [w]).call.args[0]? = some w from rfl)]
  exact hconvert.atArgument 0 _ hb

theorem secures_toWire (env : Environment Ω) {t : NativeType} {x : t.Value Ω} {Q : Wire → Prop}
    (hconvert : (Convert.toWire (env.services 0) t x).Secures P Q) : (env.toWire t x).Secures P Q :=
  secures_aside hdrop fun _ hb => hconvert _ hb

end

/-! ## Pointers that are wrapped anew -/

/-- How a pointer is to be wrapped: the flags, and whether the wrapper owns the object. -/
def rewrapping (env : Environment Ω) (c : Class) (p : Pointer) (flags : Wire) : Act Ω (TypeFlags × Bool) := do
  if (env.registry.upcastPath? p.cls c).isNone then
    Act.fail (.mismatch (env.expectedName c) p.cls.name)
  let some bits := flags.asInt?
    | Act.fail ((CallError.mismatch "int" flags.typeName).atArgument 1)
  let flags := TypeFlags.ofWord bits.toUInt64
  let sole := !p.weak && (← get).heap.strong p.address == 1
  return (flags, !flags.contains .shared && sole)

theorem rewrap_eq (c : Class) (p : Pointer) (flags : Wire) :
    env.rewrap c p flags = ((env.rewrapping c p flags).thenDrop flags.refs).orDrop p.refs >>= fun r =>
      (do return .object (← Act.wrap p r.2 r.1) : Act Ω Wire) := rfl

/-- An object other than the pointer's stays as it is. -/
theorem guarded_rewrap (env : Environment Ω) {a : Address} {p : Pointer} (hp : p.address ≠ a) (c : Class) (flags : Wire) :
    (env.rewrap c p flags).Secures (Guarded a) fun _ => True := by
  have hrewrapping : (env.rewrapping c p flags).Secures (Guarded a) fun _ => True := by
    unfold rewrapping
    refine Secures.refusing ?_
    cases flags.asInt? with
    | none => exact .fail _
    | some bits => exact fun b hb => ⟨hb, fun _ _ _ => trivial⟩
  rw [rewrap_eq]
  exact .bind (.orDrop (.thenDrop hrewrapping (fun _ as hs => hs.drop as) _) (fun _ as hs => hs.drop as) _)
    fun r _ => (Convert.secures_wrap fun ha => absurd ha hp).mono fun _ _ => trivial

theorem rewrap_self (p : Pointer) (b : Boundary Ω) :
    env.rewrap p.cls p (.int 0) b = .ok (.object (b.toHoldings.wrap p (!p.weak && b.heap.strong p.address == 1) .none).1)
      { b with toHoldings := (b.toHoldings.wrap p (!p.weak && b.heap.strong p.address == 1) .none).2 } := by
  have hrewrapping : env.rewrapping p.cls p (.int 0) b =
      .ok (.none, !p.weak && b.heap.strong p.address == 1) b := by
    unfold rewrapping
    rw [if_neg (by simp [Registry.upcastPath?])]
    rfl
  have hthen : ((env.rewrapping p.cls p (.int 0)).thenDrop (Wire.int 0).refs) b =
      .ok (.none, !p.weak && b.heap.strong p.address == 1) b := by
    rw [Act.thenDrop, Act.ensuring, hrewrapping]
    change EStateM.Result.ok _ { b with toHoldings := b.toHoldings.drop [] } = _
    rw [Holdings.drop, Heap.release_nil]
  rw [rewrap_eq, Act.bind_ok (orDrop_ok hthen)]
  rfl

/-- The object at `a` is read only, and stays so whichever pointer in the value is wrapped anew. -/
structure StaysConst (env : Environment Ω) (a : Address) (v : Wire) (b : Boundary Ω) : Prop where
  readOnly : b.table.ReadOnly a
  rewrapped : ∀ p ∈ v.pointers, ∀ c flags u b', env.construct c [.pointer p, flags] b = .ok u b' → b'.table.ReadOnly a

theorem staysConst_of_spares {a : Address} {v : Wire} {b : Boundary Ω} (hb : b.toHoldings.Guarded a) (hv : v.Spares a) :
    env.StaysConst a v b where
  readOnly := hb.readOnly
  rewrapped p hp c flags u b' hu := by
    have hfinal := (guarded_rewrap env (hv p hp) c flags b hb).1
    rw [final_ok (show env.rewrap c p flags b = .ok u b' from hu)] at hfinal
    exact hfinal.readOnly

/-- A pointer to the object may be wrapped without any flag. -/
theorem not_staysConst {a : Address} {v : Wire} {b : Boundary Ω} (hb : b.table.Sound)
    (ha : a ∈ v.pointers.map (·.address)) : ¬ env.StaysConst a v b := by
  intro hstays
  obtain ⟨p, hp, hpa⟩ := List.mem_map.mp ha
  have hreadOnly := hstays.rewrapped p hp p.cls (.int 0) _ _ (rewrap_self p b)
  obtain ⟨u, hu, hkey⟩ := wrap_live hb p (!p.weak && b.heap.strong p.address == 1) .none
  rw [Wrapper.key_bound, Wrapper.key, IdentityKey.mk.injEq] at hkey
  have hconst := hreadOnly _ u hu (hkey.1.trans hpa)
  rw [hkey.2] at hconst
  cases hconst

/-- **Which types let a host get rid of const.** A value with a handle to an object that is read only, converted to `t`
and back, leaves the object read only exactly if `t` is not made of raw pointers. -/
theorem staysConst_iff (henv : env.Constructs fun _ => True) {t : NativeType} {v v' : Wire} {x : t.Value Ω}
    {b b₁ b₂ : Boundary Ω} {h : Handle} {w : Wrapper} (hservices : (env.services 0).Discreet w.address)
    (hsound : b.table.Sound) (hw : b.table.live? h = some w) (hconst : b.table.ReadOnly w.address)
    (hh : h ∈ v.handles) (hv : v.Spares w.address) (hfrom : env.fromWire t v b = .ok x b₁)
    (hthere : w.address < b₁.heap.cells.length) (hto : env.toWire t x b₁ = .ok v' b₂) :
    env.StaysConst w.address v' b₂ ↔ t.bearsPointer = false := by
  have hguards : b.table.Guards h w.address := ⟨hsound, hconst, fun u hu => by
    rw [hw] at hu
    cases hu
    rfl⟩
  have hconstruct := keeps_construct (R := KeepsGuard h w.address)
    (henv.mono fun _ _ _ c g => Convert.keeps_guard_takeUnique c g) v.depth
  obtain ⟨hfinal, hpasses⟩ := secures_fromWire (fun _ _ hs => hs) env
    (Convert.secures_fromWire hconstruct t v) b hguards
  rw [final_ok hfrom] at hfinal
  specialize hpasses x b₁ hfrom
  -- the first conversion decides what the native value grants, the second one hands out no more than that
  cases ht : t.bearsPointer with
  | false =>
    obtain ⟨hback, hspares⟩ := secures_toWire (fun _ as hs => hs.drop as) env
      (Convert.secures_toWire hservices t x (hpasses.spared ht hv)) b₁ ⟨hfinal.sound, hfinal.readOnly, hthere⟩
    rw [final_ok hto] at hback
    exact iff_of_true (staysConst_of_spares hback (hspares v' b₂ hto)) rfl
  | true =>
    have hback : (env.toWire t x).Keeps (KeepsGuard h w.address) := fun b => by
      rw [toWire, final_aside]
      exact Convert.keeps_toWireWith _ _ t x (NativeType.wraps_of_bearsPointer ht) (entering b none [])
    have hkept := hback b₁ hfinal
    rw [final_ok hto] at hkept
    -- the pointers come back as they are, and the one to the object is among them
    have hpointers := (secures_toWire (fun _ _ hs => hs) env
      (Convert.pointers_toWireWith t x ht) b₁ trivial).2 v' b₂ hto
    have hleak := hpasses.leaked ht hh
    rw [← hpointers] at hleak
    exact iff_of_false (not_staysConst hkept.sound hleak) Bool.true_eq_false.mp

open Catalog

/-- A node that native code holds. -/
def heldNode : Ledger Specimen := Ledger.run [.make (.node "a")]

/-- A pointer to it. -/
def nodePointer : Pointer := ⟨Species.node.cls, 0, false⟩

/-- The host has a const wrapper of the node. -/
def constNode : Boundary Specimen :=
  { (Boundary.empty : Boundary Specimen) with toHoldings := (heldNode.wrap nodePointer false .const).2 }

theorem constNode_sound : constNode.table.Sound :=
  sound_wrap (Ledger.balanced_run _).sound nodePointer false .const

theorem constNode_readOnly : constNode.table.ReadOnly 0 := by
  intro g v hg _
  change (heldNode.wrap nodePointer false .const).2.table.live? g = some v at hg
  rcases live_of_wrap (Ledger.balanced_run _).sound hg with hnew | hkey
  · cases hnew
  · exact (IdentityKey.mk.inj hkey).2

theorem grants_wideFields (n : Int64) : ∀ y ∈ wideFields n, y.type.grants y.value = [] := by
  intro y hy
  unfold wideFields at hy
  split at hy
  · have hmem := List.mem_of_mem_take hy
    -- the optional number is one or none
    generalize (if n = 8 then some 7 else none : Option Int32) = seven at hmem
    cases seven <;> fin_cases hmem <;> rfl
  · fin_cases hy <;> rfl

/-- What the objects of the catalog export gives nobody access to another object. -/
theorem exportScript_emits (o : Specimen) (a : Address) : (exportScript o).Emits fun y => a ∉ y.type.grants y.value := by
  have hnone {xs : List (NativeBridge.Typed Specimen)} (hxs : ∀ y ∈ xs, y.type.grants y.value = [])
      (y : NativeBridge.Typed Specimen) (hy : y ∈ xs) : a ∉ y.type.grants y.value := by
    rw [hxs y hy]
    exact List.not_mem_nil
  cases o with
  | mute | node _ | tree _ | sprite _ => trivial
  | wide n => exact ⟨hnone (grants_wideFields n), fun _ => trivial⟩
  | twice v =>
    refine ⟨hnone fun y hy => ?_, fun r => ?_⟩
    · fin_cases hy
      rfl
    · cases r with
      | error e => trivial
      | ok _ =>
        refine ⟨hnone fun y hy => ?_, fun _ => trivial⟩
        fin_cases hy <;> rfl
  | poly ps =>
    refine ⟨hnone fun y hy => ?_, fun _ => trivial⟩
    fin_cases hy
    exact List.flatMap_eq_nil_iff.mpr fun _ _ => rfl
  | point p | rect r | huge v | kin k =>
    refine ⟨hnone fun y hy => ?_, fun _ => trivial⟩
    fin_cases hy <;> rfl

theorem nodeEngine_discreet (a : Address) : (nodeEngine.services 0).Discreet a where
  exports c x hx o := by
    rw [services_exporter, nodeEngine_program] at hx
    split at hx
    · split at hx
      · cases hx
        exact exportScript_emits o a
      · cases hx
    · cases hx
  binds c binding hbinding name fields w hw hfields := by
    rw [services_binding, nodeEngine_bindings, List.lookup_cons] at hbinding
    split at hbinding
    · cases hbinding
      cases hw
      exact Wire.spares_array.mpr hfields
    · cases hbinding

/-- The node's wrapper is converted to a raw pointer and back. -/
theorem constNode_not_staysConst : ∃ x b₁ v' b₂, nodeEngine.fromWire .pointer (.object ⟨0, 0⟩) constNode = .ok x b₁ ∧
    nodeEngine.toWire .pointer x b₁ = .ok v' b₂ ∧ ¬ nodeEngine.StaysConst 0 v' b₂ := by
  have hlive : constNode.table.live? ⟨0, 0⟩ = some (.bound nodePointer false .const) := rfl
  have hfrom : nodeEngine.fromWire .pointer (.object ⟨0, 0⟩) constNode =
      .ok nodePointer ((nodeEngine.fromWire .pointer (.object ⟨0, 0⟩)).final constNode) := rfl
  have hthere : 0 < ((nodeEngine.fromWire .pointer (.object ⟨0, 0⟩)).final constNode).heap.cells.length := by
    rw [fromWire, final_aside_holdings, Holdings.drop, Heap.length_release]
    exact Nat.one_pos
  have hto : nodeEngine.toWire .pointer nodePointer
      ((nodeEngine.fromWire .pointer (.object ⟨0, 0⟩)).final constNode) = .ok (.pointer nodePointer)
        ((nodeEngine.toWire .pointer nodePointer).final
          ((nodeEngine.fromWire .pointer (.object ⟨0, 0⟩)).final constNode)) := rfl
  refine ⟨_, _, _, _, hfrom, hto, fun hstays => ?_⟩
  have hspares := (staysConst_iff nodeEngine_built.constructs (nodeEngine_discreet 0) constNode_sound hlive
    constNode_readOnly (List.mem_singleton_self _) (Wire.spares_of_nil rfl _) hfrom hthere hto).mp hstays
  cases hspares

end Environment
end NativeBridge
