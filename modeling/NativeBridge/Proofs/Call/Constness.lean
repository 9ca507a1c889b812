import NativeBridge.Proofs.Call.Moves
import NativeBridge.Proofs.Object.References
/-!
# What conversions make of constness

While all wrappers of an object are const (`ObjectTable.ReadOnly`), what a boundary value is converted to grants mutable
access to the object only if its type is, down to its items, the type of raw pointers
(`Convert.secures_fromWire`): every other way out of a wrapper asks whether it is const. And what is converted back
gives the host such access only if the native value granted it (`Convert.secures_toWireWith`).
-/
namespace NativeBridge

/-! ## Pointers and handles in values -/

namespace Wire

mutual

/-- The raw pointers in a value. -/
def pointers : Wire → List Pointer
  | .array items => pointersAll items
  | .record _ fields => pointersAll fields
  | .pointer p => [p]
  | _ => []

def pointersAll : List Wire → List Pointer
  | [] => []
  | w :: ws => w.pointers ++ pointersAll ws

end

mutual

/-- The handles in a value. -/
def handles : Wire → List Handle
  | .array items => handlesAll items
  | .record _ fields => handlesAll fields
  | .object h => [h]
  | _ => []

def handlesAll : List Wire → List Handle
  | [] => []
  | w :: ws => w.handles ++ handlesAll ws

end

/-- No raw pointer in the value is to the object at `a`. -/
def Spares (w : Wire) (a : Address) : Prop :=
  ∀ p ∈ w.pointers, p.address ≠ a

theorem pointersAll_eq : ∀ ws : List Wire, pointersAll ws = ws.flatMap pointers
  | [] => rfl
  | w :: ws => by rw [pointersAll, pointersAll_eq ws, List.flatMap_cons]

theorem spares_array {ws : List Wire} {a : Address} : (Wire.array ws).Spares a ↔ ∀ w ∈ ws, w.Spares a := by
  simp only [Spares, pointers, pointersAll_eq, List.mem_flatMap]
  exact ⟨fun h w hw p hp => h p ⟨w, hw, hp⟩, fun h p ⟨w, hw, hp⟩ => h w hw p hp⟩

/-- A value without pointers spares every object. -/
theorem spares_of_nil {w : Wire} (h : w.pointers = []) (a : Address) : w.Spares a := by
  rw [Spares, h]
  exact fun p hp => nomatch hp

theorem handles_of_isNullish {w : Wire} (h : w.isNullish = true) : w.handles = [] := by
  cases w with
  | undefined | null => rfl
  | _ => cases h

end Wire

namespace NativeType

/-- Whether the values of the type are raw pointers, or hold some. -/
def bearsPointer : NativeType → Bool
  | .pointer => true
  | .vector t => t.bearsPointer
  | .array t _ => t.bearsPointer
  | .optional t => t.bearsPointer
  | .result t => t.bearsPointer
  | _ => false

variable {Ω : Type} [ObjectModel Ω]

/-- The objects to which a native value gives the host mutable access when it is converted back. An object that is passed
by value is a new one then. -/
def grants : (t : NativeType) → t.Value Ω → List Address
  | .any, w => (Wire.pointers w).map (·.address)
  | .pointer, p => [Pointer.address p]
  | .vector t, xs => List.flatMap t.grants xs
  | .array t _, xs => List.flatMap t.grants (Vector.toList xs)
  | .optional t, x => match x with
    | none => []
    | some x => t.grants x
  | .result t, x => match x with
    | .error _ => []
    | .ok x => t.grants x
  | .handle .shared _, a => [a]
  | .handle .borrowed _, a => [a]
  | .handle .constShared _, _ => []
  | .handle .constBorrowed _, _ => []
  | .handle .unique _, _ => []
  | .object _, _ => []
  | .unit, _ => []
  | .bool, _ => []
  | .char, _ => []
  | .int _, _ => []
  | .float _, _ => []
  | .text, _ => []
  | .staticText, _ => []
  | .callback, _ => []

/-- How a conversion of `w` to `x` treats the object at `a` that is behind the handle `h`. -/
structure Passes (h : Handle) (a : Address) (t : NativeType) (w : Wire) (x : t.Value Ω) : Prop where
  spared : t.bearsPointer = false → w.Spares a → a ∉ t.grants x
  leaked : t.bearsPointer = true → h ∈ w.handles → a ∈ t.grants x

theorem Passes.spare {h : Handle} {a : Address} {t : NativeType} {w : Wire} {x : t.Value Ω}
    (ht : t.bearsPointer = false) (hx : w.Spares a → a ∉ t.grants x) : Passes h a t w x :=
  ⟨fun _ => hx, fun htrue => absurd (ht.symm.trans htrue) Bool.false_ne_true⟩

theorem Passes.leak {h : Handle} {a : Address} {t : NativeType} {w : Wire} {x : t.Value Ω}
    (ht : t.bearsPointer = true) (hx : h ∈ w.handles → a ∈ t.grants x) : Passes h a t w x :=
  ⟨fun hfalse => absurd (hfalse.symm.trans ht) Bool.false_ne_true, fun _ => hx⟩

theorem passes_list {h : Handle} {a : Address} {t : NativeType} {ws : List Wire} {xs : List (t.Value Ω)}
    (hpasses : List.Forall₂ (Passes h a t) ws xs) :
    (t.bearsPointer = false → (∀ w ∈ ws, w.Spares a) → a ∉ xs.flatMap t.grants) ∧
      (t.bearsPointer = true → h ∈ Wire.handlesAll ws → a ∈ xs.flatMap t.grants) := by
  induction hpasses with
  | nil => simp [Wire.handlesAll]
  | cons hx _ ih =>
    refine ⟨fun ht hspares => ?_, fun ht hh => ?_⟩
    · rw [List.flatMap_cons, List.mem_append, not_or]
      exact ⟨hx.spared ht (hspares _ List.mem_cons_self),
        ih.1 ht fun w hw => hspares w (List.mem_cons_of_mem _ hw)⟩
    · rw [Wire.handlesAll, List.mem_append] at hh
      rw [List.flatMap_cons, List.mem_append]
      exact hh.imp (hx.leaked ht) (ih.2 ht)

end NativeType

/-! ## Tables in which an object is read only -/

namespace ObjectTable

/-- All live wrappers of the object at `a` are const. -/
def ReadOnly (t : ObjectTable) (a : Address) : Prop :=
  ∀ g v, t.live? g = some v → v.address = a → v.isConst = true

/-- The table is sound, the object at `a` is read only, and `h` is a handle to it if it is live. -/
structure Guards (h : Handle) (a : Address) (t : ObjectTable) : Prop where
  sound : t.Sound
  readOnly : t.ReadOnly a
  names : ∀ v, t.live? h = some v → v.address = a

theorem Guards.remove {h g : Handle} {a : Address} {t : ObjectTable} {v : Wrapper} (ht : t.Guards h a)
    (hv : t.live? g = some v) : (t.remove g v).Guards h a := by
  have hlive {g' : Handle} {v' : Wrapper} (hv' : (t.remove g v).live? g' = some v') : t.live? g' = some v' := by
    rw [live?_remove hv] at hv'
    split at hv'
    · cases hv'
    · exact hv'
  exact ⟨ht.sound.remove hv, fun g' v' hv' => ht.readOnly g' v' (hlive hv'), fun v' hv' => ht.names v' (hlive hv')⟩

/-- The relation of tables that keep what is guarded. -/
def KeepsGuard (h : Handle) (a : Address) (t t' : ObjectTable) : Prop :=
  t.Guards h a → t'.Guards h a

instance (h : Handle) (a : Address) : IsPreorder ObjectTable (KeepsGuard h a) where
  refl _ := id
  trans _ _ _ h₁ h₂ := h₂ ∘ h₁

end ObjectTable

namespace Act
variable {Ω α β : Type}

/-- From a state with `P` the action leads to one with `P`, however it ends, and its value satisfies `Q`. -/
def Secures (P : Holdings Ω → Prop) (Q : α → Prop) (act : Act Ω α) : Prop :=
  ∀ b, P b.toHoldings → P (act.final b).toHoldings ∧ ∀ x b', act b = .ok x b' → Q x

variable {P : Holdings Ω → Prop} {Q : α → Prop} {Q' : β → Prop}

theorem Secures.pure {x : α} (hx : Q x) : (pure x : Act Ω α).Secures P Q := by
  refine fun b hb => ⟨hb, fun y b' hy => ?_⟩
  cases hy
  exact hx

theorem Secures.throw (i : Interrupt) : (throw i : Act Ω α).Secures P Q :=
  fun _ hb => ⟨hb, fun _ _ hy => nomatch hy⟩

theorem Secures.fail (e : CallError) : (fail e : Act Ω α).Secures P Q :=
  .throw _

theorem Secures.ofExcept {x : Except CallError α} (hx : ∀ y, x = .ok y → Q y) : (ofExcept x : Act Ω α).Secures P Q := by
  cases x with
  | ok y => exact .pure (hx y rfl)
  | error e => exact .fail e

theorem Secures.mono {R : α → Prop} {act : Act Ω α} (hact : act.Secures P Q) (h : ∀ x, Q x → R x) :
    act.Secures P R :=
  fun b hb => ⟨(hact b hb).1, fun x b' hx => h x ((hact b hb).2 x b' hx)⟩

theorem Secures.bind {act : Act Ω α} {f : α → Act Ω β} (hact : act.Secures P Q)
    (hf : ∀ x, Q x → (f x).Secures P Q') : (act >>= f).Secures P Q' := by
  intro b hb
  obtain ⟨hfinal, hvalue⟩ := hact b hb
  cases h : act b with
  | ok x b' =>
    rw [final_ok h] at hfinal
    rw [final_bind_ok h, bind_ok h]
    exact hf x (hvalue x b' h) b' hfinal
  | error i b' =>
    rw [final_error h] at hfinal
    rw [final_bind_error h, bind_error h]
    exact ⟨hfinal, fun _ _ hy => nomatch hy⟩

/-- A step that only goes on unless something is wrong. -/
theorem Secures.refusing {p : Prop} [Decidable p] {e : CallError} {f : Unit → Act Ω α} (hf : (f ()).Secures P Q) :
    (if p then Act.fail e >>= f else f ()).Secures P Q := by
  split
  · exact fun b hb => ⟨hb, fun _ _ hy => nomatch hy⟩
  · exact hf

theorem Secures.attempt {act : Act Ω α} (hact : act.Secures P Q) :
    act.attempt.Secures P fun r => ∀ x, r = .ok x → Q x := by
  intro b hb
  obtain ⟨hfinal, hvalue⟩ := hact b hb
  rw [final_attempt]
  refine ⟨hfinal, fun r b' hr x hx => ?_⟩
  subst hx
  exact hvalue x b' (attempt_eq_ok hr)

theorem Secures.atArgument {act : Act Ω α} (hact : act.Secures P Q) (n : Nat) : (act.atArgument n).Secures P Q := by
  intro b hb
  obtain ⟨hfinal, hvalue⟩ := hact b hb
  rw [final_atArgument]
  exact ⟨hfinal, fun x b' hx => hvalue x b' (atArgument_eq_ok hx)⟩

variable [ObjectModel Ω]

theorem Secures.orDrop {act : Act Ω α} (hact : act.Secures P Q) (hdrop : ∀ s as, P s → P (s.drop as))
    (as : List Address) : (act.orDrop as).Secures P Q := by
  intro b hb
  obtain ⟨hfinal, hvalue⟩ := hact b hb
  refine ⟨?_, fun x b' hx => hvalue x b' (orDrop_eq_ok hx)⟩
  cases h : act b with
  | ok x b' =>
    rw [final_ok h] at hfinal
    rwa [final_ok (orDrop_ok h)]
  | error i b' =>
    rw [final_error h] at hfinal
    rw [final_error (orDrop_error h)]
    exact hdrop _ _ hfinal

theorem Secures.thenDrop {act : Act Ω α} (hact : act.Secures P Q) (hdrop : ∀ s as, P s → P (s.drop as))
    (as : List Address) : (act.thenDrop as).Secures P Q := by
  intro b hb
  obtain ⟨hfinal, hvalue⟩ := hact b hb
  rw [Act.thenDrop, final_ensuring]
  refine ⟨hdrop _ _ hfinal, fun x b' hx => ?_⟩
  obtain ⟨b₁, hb₁, -⟩ := ensuring_eq_ok hx
  exact hvalue x b₁ hb₁

end Act

/-! ## From the boundary -/

namespace Convert
variable {Ω : Type} [ObjectModel Ω] {sv : Services Ω} {h : Handle} {a : Address}

open Act ObjectTable NativeType

omit [ObjectModel Ω] in
/-- An action that keeps what is guarded, and whose value satisfies `Q` if it starts from there. -/
theorem secures_guarded {α : Type} {Q : α → Prop} {act : Act Ω α} (hkeeps : act.Keeps (KeepsGuard h a))
    (hvalue : ∀ b x b', b.table.Guards h a → act b = .ok x b' → Q x) :
    act.Secures (fun s => s.table.Guards h a) Q :=
  fun b hb => ⟨hkeeps b hb, fun x b' hx => hvalue b x b' hb hx⟩

theorem keeps_guard_takeUnique (c : Class) (g : Handle) :
    (Access.takeUnique c g : Act Ω (Instance Ω c)).Keeps (KeepsGuard h a) :=
  Access.keeps_takeUnique (fun _ _ _ hw ht => ht.remove hw) c g

theorem secures_listFromWire {α : Type} {T : ObjectTable → Prop} {Q : Wire → α → Prop} (refs : α → List Address)
    {convert : Wire → Act Ω α} (hconvert : ∀ w, (convert w).Secures (fun s => T s.table) (Q w)) :
    ∀ ws, (listFromWire refs convert ws).Secures (fun s => T s.table) (List.Forall₂ Q ws)
  | [] => .pure .nil
  | w :: ws =>
    .bind ((hconvert w).orDrop (fun _ _ => id) _) fun _ hx =>
      .bind ((secures_listFromWire refs hconvert ws).orDrop (fun _ _ => id) _) fun _ hxs => .pure (.cons hx hxs)

theorem secures_refuse {α : Type} {T : ObjectTable → Prop} {Q : α → Prop} (expected : String) (w : Wire) :
    (refuse expected w : Act Ω α).Secures (fun s => T s.table) Q :=
  .thenDrop (.fail _) (fun _ _ => id) _

omit [ObjectModel Ω] in
theorem sharedObject_ok {g : Handle} {c : Class} {allowConst : Bool} {b b' : Boundary Ω} {x : Address}
    (hx : Access.sharedObject g c allowConst b = .ok x b') :
    ∃ v, b.table.live? g = some v ∧ (v.isConst = true → allowConst = true) ∧ x = v.address := by
  unfold Access.sharedObject at hx
  rw [get_bind] at hx
  obtain ⟨v, b₁, hv, hx⟩ := Act.bind_eq_ok hx
  obtain ⟨hv, rfl⟩ := ofExcept_eq_ok hv
  obtain ⟨hconst, hx⟩ := refusing_eq_ok hx
  obtain ⟨-, hx⟩ := refusing_eq_ok hx
  obtain ⟨-, hx⟩ := refusing_eq_ok hx
  cases hx
  refine ⟨v, get_eq_ok.mp hv, fun hv => ?_, rfl⟩
  rw [hv] at hconst
  simpa using hconst

omit [ObjectModel Ω] in
theorem sharedPointer_ok {p : Pointer} {c : Class} {b b' : Boundary Ω} {x : Address}
    (hx : Access.sharedPointer p c b = .ok x b') : x = p.address := by
  unfold Access.sharedPointer at hx
  obtain ⟨-, hx⟩ := refusing_eq_ok hx
  change (Act.ofExcept (Access.livePointer b p c) >>= fun y => (do Act.retain [y]; return y : Act Ω Address)) b =
    .ok x b' at hx
  obtain ⟨y, b₁, hy, hrest⟩ := Act.bind_eq_ok hx
  obtain ⟨hy, rfl⟩ := ofExcept_eq_ok hy
  cases hrest
  unfold Access.livePointer at hy
  split at hy
  · cases hy
    rfl
  · cases hy

/-- A shared handle that may be written is not one to an object that is read only, unless it comes from a raw pointer. -/
theorem sharedFromWire_ne {c : Class} {w : Wire} {b b' : Boundary Ω} {x : Address} (hguards : b.table.Guards h a)
    (hw : w.Spares a) (hx : sharedFromWire c false w b = .ok x b') : x ≠ a := by
  cases w with
  | object g =>
    obtain ⟨v, hv, hconst, rfl⟩ := sharedObject_ok (show Access.sharedObject g c false b = .ok x b' from hx)
    intro ha
    cases hconst (hguards.readOnly g v hv ha)
  | pointer p =>
    obtain ⟨b₁, hx, -⟩ := ensuring_eq_ok (show (Access.sharedPointer p c).ensuring _ b = .ok x b' from hx)
    rw [sharedPointer_ok hx]
    exact hw p (by simp [Wire.pointers])
  | _ => cases hx

/-- A raw pointer made of a handle is to the object of the handle. -/
theorem secures_pointer (w : Wire) :
    (fromWire sv .pointer w).Secures (fun s => s.table.Guards h a) (Passes h a .pointer w) := by
  cases w with
  | pointer p => exact .pure (.leak rfl fun hh => absurd hh List.not_mem_nil)
  | object g =>
    have hkeeps : (fromWire sv .pointer (.object g) : Act Ω Pointer).Keeps (KeepsGuard h a) :=
      .bind .get fun _ => .bind (.ofExcept _) fun _ => .bind (.ofExcept _) fun _ => .bind (.retain _) fun _ => .pure _
    refine secures_guarded hkeeps fun b x b' hguards hx => .leak rfl fun hh => ?_
    change (Act.ofExcept (b.toHoldings.cell g) >>= fun y => Act.ofExcept (b.table.get g) >>= fun u =>
      (do Act.retain [y]; return ⟨u.cls, y, false⟩ : Act Ω Pointer)) b = .ok x b' at hx
    obtain ⟨y, b₁, hy, hget⟩ := Act.bind_eq_ok hx
    obtain ⟨hy, rfl⟩ := ofExcept_eq_ok hy
    obtain ⟨v, hv, rfl⟩ := Holdings.cell_ok hy
    obtain ⟨u, b₂, hu, hrest⟩ := Act.bind_eq_ok hget
    obtain ⟨-, rfl⟩ := ofExcept_eq_ok hu
    cases hrest
    obtain rfl : h = g := by simpa [Wire.handles] using hh
    simp [grants, hguards.names v hv]
  | _ => exact secures_refuse _ _

variable (hconstruct : ∀ c args, (sv.construct c args).Keeps (KeepsGuard h a))
include hconstruct

/-- **Constness is kept by every type that bears no raw pointer, and lost by every one that does.** -/
theorem secures_fromWire : ∀ (t : NativeType) (w : Wire),
    (fromWire sv t w).Secures (fun s => s.table.Guards h a) (Passes h a t w)
  | .vector t, w => by
    cases w with
    | array ws =>
      refine (secures_listFromWire t.refs (secures_fromWire t) ws).mono fun xs hxs => ?_
      obtain ⟨hspared, hleaked⟩ := passes_list hxs
      exact ⟨fun ht hw => hspared ht (Wire.spares_array.mp hw), hleaked⟩
    | _ => exact secures_refuse _ _
  | .array t n, w => by
    cases w with
    | array ws =>
      unfold fromWire
      dsimp only
      split
      · refine .bind (secures_listFromWire t.refs (secures_fromWire t) ws) fun xs hxs => ?_
        obtain ⟨hspared, hleaked⟩ := passes_list hxs
        split
        · exact .pure ⟨fun ht hw => hspared ht (Wire.spares_array.mp hw), hleaked⟩
        · exact .orDrop (.fail _) (fun _ _ => id) _
      · exact .orDrop (.fail _) (fun _ _ => id) _
    | _ => exact secures_refuse _ _
  | .optional t, w => by
    unfold fromWire
    split
    · rename_i hnull
      refine .pure ⟨fun _ _ => List.not_mem_nil, fun _ hh => ?_⟩
      rw [Wire.handles_of_isNullish hnull] at hh
      cases hh
    · exact .bind (secures_fromWire t w) fun x hx => .pure ⟨hx.spared, hx.leaked⟩
  | .result t, w => .bind (secures_fromWire t w) fun x hx => .pure ⟨hx.spared, hx.leaked⟩
  | .pointer, w => secures_pointer w
  | .any, w => by
    refine .pure (.spare rfl fun hw ha => ?_)
    obtain ⟨p, hp, hpa⟩ := List.mem_map.mp ha
    exact hw p hp hpa
  | .handle .shared c, w =>
    secures_guarded (keeps_sharedFromWire c false w) fun _ x _ hguards hx =>
      .spare rfl fun hw ha => sharedFromWire_ne hguards hw hx (List.mem_singleton.mp ha).symm
  | .handle .borrowed c, w => by
    refine secures_guarded (keeps_downgrade (keeps_sharedFromWire c false w)) fun b x b' hguards hx =>
      .spare rfl fun hw ha => ?_
    obtain ⟨y, b₁, hy, hx⟩ := Act.bind_eq_ok (show downgrade (sharedFromWire c false w) b = .ok x b' from hx)
    cases hx
    exact sharedFromWire_ne hguards hw hy (List.mem_singleton.mp ha).symm
  | .handle .unique c, w | .handle .constShared c, w | .handle .constBorrowed c, w | .object c, w | .unit, w | .bool, w
  | .char, w | .int k, w | .float k, w | .text, w | .staticText, w | .callback, w =>
    secures_guarded (keeps_fromWire hconstruct _ w fun _ => keeps_guard_takeUnique) fun _ x _ _ _ =>
      .spare rfl fun _ => List.not_mem_nil

end Convert

/-! ## To the boundary -/

/-- The object at `a` is there and read only. -/
structure Holdings.Guarded {Ω : Type} (a : Address) (s : Holdings Ω) : Prop where
  sound : s.table.Sound
  readOnly : s.table.ReadOnly a
  there : a < s.heap.cells.length

section
variable {Ω : Type} [ObjectModel Ω]

/-- All values that the script emits satisfy `Q`, whatever becomes of them. -/
def ExportScript.Emits (Q : Typed Ω → Prop) : ExportScript Ω → Prop
  | .done _ => True
  | .emit xs next => (∀ x ∈ xs, Q x) ∧ ∀ r, (next r).Emits Q

/-- Value types give no mutable access to the object at `a` away: no object exports a reference to it that may be
written, and no host binding makes up a pointer to it. -/
structure Services.Discreet (sv : Services Ω) (a : Address) : Prop where
  exports : ∀ c exporter, sv.exporter c = some exporter → ∀ o,
    (exporter.script o).Emits fun y => a ∉ y.type.grants y.value
  binds : ∀ c binding, sv.binding c = some binding → ∀ name fields w, binding.construct name fields = .ok w →
    (∀ v ∈ fields, v.Spares a) → w.Spares a

end

namespace Holdings.Guarded
variable {Ω : Type} [ObjectModel Ω] {s : Holdings Ω} {a : Address}

theorem drop (hs : s.Guarded a) (as : List Address) : (s.drop as).Guarded a :=
  ⟨hs.sound, hs.readOnly, by rw [Holdings.drop, Heap.length_release]; exact hs.there⟩

omit [ObjectModel Ω] in
theorem retain (hs : s.Guarded a) (as : List Address) : (s.retain as).Guarded a :=
  ⟨hs.sound, hs.readOnly, by rw [Holdings.retain, Heap.length_retain]; exact hs.there⟩

/-- A pointer to the object may be wrapped as const. -/
theorem wrap (hs : s.Guarded a) {p : Pointer} {owned : Bool} {flags : TypeFlags}
    (hp : p.address = a → flags.contains .const = true) : (s.wrap p owned flags).2.Guarded a where
  sound := sound_wrap hs.sound p owned flags
  readOnly g v hg hv := by
    rcases live_of_wrap hs.sound hg with hold | hkey
    · exact hs.readOnly g v hold hv
    · rw [Wrapper.key_bound, Wrapper.key, IdentityKey.mk.injEq] at hkey
      rw [hkey.2]
      exact hp (hkey.1.symm.trans hv)
  there := by
    rcases wrap_heap hs.sound p owned flags with heq | heq
    · rw [heq]
      exact hs.there
    · rw [heq, Heap.length_release]
      exact hs.there

end Holdings.Guarded

namespace Convert
variable {Ω : Type} [ObjectModel Ω] {sv : Services Ω} {a : Address}

open Act ObjectTable NativeType Holdings

theorem secures_wrap {p : Pointer} {owned : Bool} {flags : TypeFlags}
    (hp : p.address = a → flags.contains .const = true) :
    (do return .object (← Act.wrap p owned flags) : Act Ω Wire).Secures (Guarded a) (·.Spares a) := by
  refine .bind (Q := fun _ => True) ?_ fun h _ => .pure (Wire.spares_of_nil rfl a)
  exact fun b hb => ⟨hb.wrap hp, fun _ _ _ => trivial⟩

theorem secures_wrapObject {c : Class} (x : Instance Ω c) : (wrapObject x).Secures (Guarded a) (·.Spares a) := by
  refine .bind (Q := fun p => p.address ≠ a) ?_ fun p hp => secures_wrap fun ha => absurd ha hp
  refine fun b hb => ⟨⟨hb.sound, hb.readOnly, ?_⟩, fun p b' hp => ?_⟩
  · have hlt := hb.there
    change a < (b.heap.cells ++ [_]).length
    rw [List.length_append]
    exact Nat.lt_add_right _ hlt
  · cases hp
    exact Nat.ne_of_gt hb.there

theorem secures_wrapBorrowed (c : Class) {x : Address} {flags : TypeFlags} (hx : x = a → flags.contains .const = true) :
    (wrapBorrowed c x flags : Act Ω Wire).Secures (Guarded a) (·.Spares a) := by
  refine .bind (Q := fun _ => True) (fun b hb => ⟨hb, fun _ _ _ => trivial⟩) fun b _ => ?_
  split
  · exact secures_wrap hx
  · exact .pure (Wire.spares_of_nil rfl a)

theorem secures_listToWire {α : Type} {P : Holdings Ω → Prop} {Q : α → Wire → Prop} (refs : α → List Address)
    {convert : α → Act Ω Wire} (hdrop : ∀ s as, P s → P (s.drop as)) :
    ∀ xs, (∀ x ∈ xs, (convert x).Secures P (Q x)) → (listToWire refs convert xs).Secures P (List.Forall₂ Q xs)
  | [], _ => .pure .nil
  | x :: xs, h =>
    .bind ((h x List.mem_cons_self).orDrop hdrop _) fun _ hw =>
      .bind ((secures_listToWire refs hdrop xs fun y hy => h y (List.mem_cons_of_mem x hy)).orDrop hdrop _)
        fun _ hws => .pure (.cons hw hws)

theorem secures_allToWire {α : Type} (refs : α → List Address) {convert : α → Act Ω Wire} (xs : List α)
    (h : ∀ x ∈ xs, (convert x).Secures (Guarded a) (·.Spares a)) :
    (listToWire refs convert xs).Secures (Guarded a) fun ws => ∀ w ∈ ws, w.Spares a := by
  refine (secures_listToWire refs (fun _ as hs => hs.drop as) xs h).mono fun ws hws => ?_
  induction hws with
  | nil => exact fun _ hw => nomatch hw
  | cons hw _ ih => exact List.forall_mem_cons.mpr ⟨hw, ih fun x hx => h x (List.mem_cons_of_mem _ hx)⟩

variable (hsv : sv.Discreet a)
include hsv

theorem secures_objectToWire {fieldsOf : FieldsOf Ω}
    (hfields : ∀ c exporter, sv.exporter c = some exporter → ∀ o,
      (fieldsOf exporter o).Secures (Guarded a) fun ws => ∀ w ∈ ws, w.Spares a) {c : Class} (x : Instance Ω c) :
    (objectToWire sv fieldsOf x).Secures (Guarded a) (·.Spares a) := by
  unfold objectToWire
  split
  · exact secures_wrapObject x
  rename_i exporter hexporter
  split
  · rename_i binding hbinding
    refine .thenDrop (.bind (hfields c exporter hexporter _) fun ws hws => ?_) (fun _ as hs => hs.drop as) _
    refine .thenDrop (.bind (Q := (·.Spares a)) (.ofExcept fun w hw => hsv.binds c binding hbinding _ _ w hw hws)
      fun w hw => ?_) (fun _ as hs => hs.drop as) _
    exact .bind (Q := fun _ => True) (fun b hb => ⟨hb.retain _, fun _ _ _ => trivial⟩) fun _ _ => .pure hw
  · split
    · exact secures_wrapObject x
    · exact .orDrop (.fail _) (fun _ as hs => hs.drop as) _

/-- A native value that does not grant mutable access to an object is converted back to a boundary value that does not
either. -/
theorem secures_toWireWith {fieldsOf : FieldsOf Ω}
    (hfields : ∀ c exporter, sv.exporter c = some exporter → ∀ o,
      (fieldsOf exporter o).Secures (Guarded a) fun ws => ∀ w ∈ ws, w.Spares a) :
    ∀ (t : NativeType) (x : t.Value Ω), a ∉ t.grants x →
      (toWireWith sv fieldsOf t x).Secures (Guarded a) (·.Spares a)
  | .unit, _, _ | .bool, _, _ | .char, _, _ | .float _, _, _ | .text, _, _ | .staticText, _, _ | .callback, _, _ =>
    .pure (Wire.spares_of_nil rfl a)
  | .int k, x, _ => by
    unfold toWireWith
    split
    · exact .pure (Wire.spares_of_nil rfl a)
    · exact .fail _
  | .any, w, ha => .pure fun p hp hpa => ha (List.mem_map.mpr ⟨p, hp, hpa⟩)
  | .pointer, p, ha => .pure fun q hq hqa => ha (by
      rw [Wire.pointers, List.mem_singleton] at hq
      rw [← hqa, hq]
      exact List.mem_singleton_self _)
  | .vector t, xs, ha =>
    .bind (secures_allToWire t.refs xs fun x hx => secures_toWireWith hfields t x fun hxa =>
      ha (List.mem_flatMap.mpr ⟨x, hx, hxa⟩)) fun ws hws => .pure (Wire.spares_array.mpr hws)
  | .array t _, xs, ha =>
    .bind (secures_allToWire t.refs (Vector.toList xs) fun x hx => secures_toWireWith hfields t x fun hxa =>
      ha (List.mem_flatMap.mpr ⟨x, hx, hxa⟩)) fun ws hws => .pure (Wire.spares_array.mpr hws)
  | .optional t, x, ha => by
    cases x with
    | none => exact .pure (Wire.spares_of_nil rfl a)
    | some x => exact secures_toWireWith hfields t x ha
  | .result t, x, ha => by
    cases x with
    | error message => exact .fail _
    | ok x => exact secures_toWireWith hfields t x ha
  | .object _, x, _ => secures_objectToWire hsv hfields x
  | .handle .unique _, x, _ => secures_wrapObject x
  | .handle .shared c, x, ha => secures_wrap fun hx => absurd (List.mem_singleton.mpr hx.symm) ha
  | .handle .borrowed c, x, ha => secures_wrapBorrowed c fun hx => absurd (List.mem_singleton.mpr hx.symm) ha
  | .handle .constShared c, x, _ => secures_wrap fun _ => by decide
  | .handle .constBorrowed c, x, _ => secures_wrapBorrowed c fun _ => by decide

theorem secures_runExport {fieldsOf : FieldsOf Ω}
    (hfields : ∀ c exporter, sv.exporter c = some exporter → ∀ o,
      (fieldsOf exporter o).Secures (Guarded a) fun ws => ∀ w ∈ ws, w.Spares a) (c : Class) :
    ∀ (script : ExportScript Ω) (done : Option (List Wire)),
      script.Emits (fun y => a ∉ y.type.grants y.value) → (∀ ws, done = some ws → ∀ w ∈ ws, w.Spares a) →
      (runExport sv fieldsOf c script done).Secures (Guarded a) fun ws => ∀ w ∈ ws, w.Spares a
  | .done (.ok ()), some fields, _, hdone => .pure (hdone fields rfl)
  | .done (.ok ()), none, _, _ => .fail _
  | .done (.error e), fields, _, _ => .orDrop (.fail _) (fun _ as hs => hs.drop as) _
  | .emit _ next, some fields, hemits, hdone => secures_runExport hfields c (next _) (some fields) (hemits.2 _) hdone
  | .emit xs next, none, hemits, _ => by
    unfold runExport
    have htyped : (typedToWire sv fieldsOf xs).Secures (Guarded a) fun ws => ∀ w ∈ ws, w.Spares a :=
      secures_allToWire _ xs fun x hx => secures_toWireWith hsv hfields x.type x.value (hemits.1 x hx)
    have hmake : (do Act.retain (xs.flatMap fun x => x.type.refs x.value); typedToWire sv fieldsOf xs :
        Act Ω (List Wire)).Secures (Guarded a) fun ws => ∀ w ∈ ws, w.Spares a :=
      .bind (Q := fun _ => True) (fun b hb => ⟨hb.retain _, fun _ _ _ => trivial⟩) fun _ _ => htyped
    refine .bind hmake.attempt fun made hmade => ?_
    cases made with
    | ok fields =>
      refine secures_runExport hfields c (next (.ok ())) (some fields) (hemits.2 _) fun ws hws => ?_
      cases hws
      exact hmade fields rfl
    | error e => exact secures_runExport hfields c (next (.error e)) none (hemits.2 _) fun ws hws => nomatch hws

theorem secures_fieldsAt : ∀ (depth : Nat) c exporter, sv.exporter c = some exporter → ∀ o,
    (fieldsAt sv depth exporter o).Secures (Guarded a) fun ws => ∀ w ∈ ws, w.Spares a
  | 0, _, _, _, _ => .throw _
  | depth + 1, c, exporter, hexporter, o =>
    secures_runExport hsv (secures_fieldsAt depth) _ _ none (hsv.exports c exporter hexporter o) fun _ hws => nomatch hws

theorem secures_toWire (t : NativeType) (x : t.Value Ω) (hx : a ∉ t.grants x) :
    (toWire sv t x).Secures (Guarded a) (·.Spares a) :=
  secures_toWireWith hsv (fun c exporter hexporter o => secures_fieldsAt hsv _ c exporter hexporter o) t x hx

omit hsv

theorem pointers_of_forall₂ {t : NativeType} {xs : List (t.Value Ω)} {ws : List Wire}
    (h : List.Forall₂ (fun x w => w.pointers.map (·.address) = t.grants x) xs ws) :
    (Wire.array ws).pointers.map (·.address) = xs.flatMap t.grants := by
  rw [Wire.pointers, Wire.pointersAll_eq]
  induction h with
  | nil => rfl
  | cons hw _ ih => rw [List.flatMap_cons, List.map_append, hw, ih, List.flatMap_cons]

/-- **A native value of raw pointers is converted back to just these pointers.** -/
theorem pointers_toWireWith {fieldsOf : FieldsOf Ω} : ∀ (t : NativeType) (x : t.Value Ω), t.bearsPointer = true →
    (toWireWith sv fieldsOf t x).Secures (fun _ => True) fun w => w.pointers.map (·.address) = t.grants x
  | .pointer, p, _ => .pure rfl
  | .vector t, xs, ht =>
    .bind (secures_listToWire t.refs (fun _ _ _ => trivial) xs fun x _ => pointers_toWireWith t x ht)
      fun _ hws => .pure (pointers_of_forall₂ hws)
  | .array t _, xs, ht =>
    .bind (secures_listToWire t.refs (fun _ _ _ => trivial) (Vector.toList xs) fun x _ => pointers_toWireWith t x ht)
      fun _ hws => .pure (pointers_of_forall₂ hws)
  | .optional t, x, ht => by
    cases x with
    | none => exact .pure rfl
    | some x => exact pointers_toWireWith t x ht
  | .result t, x, ht => by
    cases x with
    | error message => exact .fail _
    | ok x => exact pointers_toWireWith t x ht

end Convert
end NativeBridge
