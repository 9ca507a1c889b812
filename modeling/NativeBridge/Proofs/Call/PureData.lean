import Mathlib.Data.List.Forall2
import NativeBridge.Catalog.Specimen
import NativeBridge.Proofs.Engine.Constructors
import NativeBridge.Proofs.Object.References
/-!
# Pure data

Numbers, characters, texts, the empty value and what vectors, arrays and options make of them cross the boundary as they
are: their conversions read nothing of the state and change nothing (`toWire_eq_pure`, `fromWire_eq_ok`). What is sent
comes back as it was, and what came is sent back as it was, up to the two spellings of no value (`data_roundTrips`).
-/
namespace NativeBridge

/-! ## Words -/

namespace IntKind

/-- A word stands for an integer that its type can hold. -/
theorem toInt_mem (k : IntKind) (x : k.Word) : k.low ≤ k.toInt x ∧ k.toInt x ≤ k.high := by
  cases k with
  | int8 => exact ⟨Int8.le_toInt x, Int.le_sub_one_of_lt (Int8.toInt_lt x)⟩
  | int16 => exact ⟨Int16.le_toInt x, Int.le_sub_one_of_lt (Int16.toInt_lt x)⟩
  | int32 => exact ⟨Int32.le_toInt x, Int.le_sub_one_of_lt (Int32.toInt_lt x)⟩
  | int64 | intSize => exact ⟨Int64.le_toInt x, Int.le_sub_one_of_lt (Int64.toInt_lt x)⟩
  | uint8 => exact ⟨Int.natCast_nonneg _, Int.le_sub_one_of_lt (Int.ofNat_lt.2 (UInt8.toNat_lt x))⟩
  | uint16 => exact ⟨Int.natCast_nonneg _, Int.le_sub_one_of_lt (Int.ofNat_lt.2 (UInt16.toNat_lt x))⟩
  | uint32 => exact ⟨Int.natCast_nonneg _, Int.le_sub_one_of_lt (Int.ofNat_lt.2 (UInt32.toNat_lt x))⟩
  | uint64 | uintSize =>
    exact ⟨Int.natCast_nonneg _, Int.le_sub_one_of_lt (Int.ofNat_lt.2 (UInt64.toNat_lt x))⟩

theorem toInt_ofInt (k : IntKind) {n : Int} (hlow : k.low ≤ n) (hhigh : n ≤ k.high) : k.toInt (k.ofInt n) = n := by
  cases k with
  | int8 => exact Int8.toInt_ofInt_of_le hlow (Int.lt_of_le_sub_one hhigh)
  | int16 => exact Int16.toInt_ofInt_of_le hlow (Int.lt_of_le_sub_one hhigh)
  | int32 => exact Int32.toInt_ofInt_of_le hlow (Int.lt_of_le_sub_one hhigh)
  | int64 | intSize => exact Int64.toInt_ofInt_of_le hlow (Int.lt_of_le_sub_one hhigh)
  | uint8 =>
    have hnonneg : 0 ≤ n := hlow
    have hlt : n < 2 ^ 8 := Int.lt_of_le_sub_one hhigh
    simp only [ofInt, toInt, UInt8.ofInt, UInt8.toNat_ofNat']
    omega
  | uint16 =>
    have hnonneg : 0 ≤ n := hlow
    have hlt : n < 2 ^ 16 := Int.lt_of_le_sub_one hhigh
    simp only [ofInt, toInt, UInt16.ofInt, UInt16.toNat_ofNat']
    omega
  | uint32 =>
    have hnonneg : 0 ≤ n := hlow
    have hlt : n < 2 ^ 32 := Int.lt_of_le_sub_one hhigh
    simp only [ofInt, toInt, UInt32.ofInt, UInt32.toNat_ofNat']
    omega
  | uint64 | uintSize =>
    have hnonneg : 0 ≤ n := hlow
    have hlt : n < 2 ^ 64 := Int.lt_of_le_sub_one hhigh
    simp only [ofInt, toInt, UInt64.ofInt, UInt64.toNat_ofNat']
    omega

theorem toInt_inj {k : IntKind} {x y : k.Word} (h : k.toInt x = k.toInt y) : x = y := by
  cases k with
  | int8 => exact Int8.toInt_inj.1 h
  | int16 => exact Int16.toInt_inj.1 h
  | int32 => exact Int32.toInt_inj.1 h
  | int64 | intSize => exact Int64.toInt_inj.1 h
  | uint8 => exact UInt8.toNat_inj.1 (Int.ofNat.inj h)
  | uint16 => exact UInt16.toNat_inj.1 (Int.ofNat.inj h)
  | uint32 => exact UInt32.toNat_inj.1 (Int.ofNat.inj h)
  | uint64 | uintSize => exact UInt64.toNat_inj.1 (Int.ofNat.inj h)

/-- The word that is read from an integer is the one that stands for it. -/
theorem ofInt?_eq_some {k : IntKind} {n : Int} {x : k.Word} : k.ofInt? n = some x ↔ k.toInt x = n := by
  unfold ofInt?
  constructor
  · intro h
    split at h
    · rename_i hn
      cases h
      exact toInt_ofInt k hn.1 hn.2
    · cases h
  · rintro rfl
    have hx := toInt_mem k x
    rw [if_pos hx, toInt_inj (toInt_ofInt k hx.1 hx.2)]

theorem int64_low_le (k : IntKind) : int64.low ≤ k.low := by
  cases k <;> decide

end IntKind

/-! ## Types of pure data -/

namespace NativeType

/-- Some value of the type is sent as `null` or `undefined`. -/
def nullable : NativeType → Bool
  | .unit => true
  | .optional _ => true
  | _ => false

/-- The types of pure data. An option is of a type whose values are never sent as no value. -/
inductive IsData : NativeType → Prop
  | unit : IsData .unit
  | bool : IsData .bool
  | char : IsData .char
  | int (k : IntKind) : IsData (.int k)
  | double : IsData (.float .double)
  | text : IsData .text
  | vector {t : NativeType} : IsData t → IsData (.vector t)
  | array {t : NativeType} (n : Nat) : IsData t → IsData (.array t n)
  | optional {t : NativeType} : IsData t → t.nullable = false → IsData (.optional t)

/-- No part of the type is a floating-point number. -/
def floatFree : NativeType → Bool
  | .float _ => false
  | .vector t => t.floatFree
  | .array t _ => t.floatFree
  | .optional t => t.floatFree
  | _ => true

/-- The value with `null` for no value at the places of options, and `undefined` at those of the empty type. -/
def normal : NativeType → Wire → Wire
  | .unit, .null => .undefined
  | .vector t, .array ws => .array (ws.map t.normal)
  | .array t _, .array ws => .array (ws.map t.normal)
  | .optional t, w => if w.isNullish then .null else t.normal w
  | _, w => w

variable {Ω : Type} [ObjectModel Ω]

/-- Some integer in the value is above the greatest that crosses the boundary. -/
def Oversized : (t : NativeType) → t.Value Ω → Prop
  | .int k, x => IntKind.int64.high < k.toInt x
  | .vector t, xs => ∃ x ∈ (xs : List (t.Value Ω)), t.Oversized x
  | .array t _, xs => ∃ x ∈ Vector.toList xs, t.Oversized x
  | .optional t, x => ∃ y : t.Value Ω, x = some y ∧ t.Oversized y
  | _, _ => False

/-- Pure data keeps no object alive. -/
theorem IsData.refs {t : NativeType} (ht : t.IsData) : ∀ x : t.Value Ω, t.refs x = [] := by
  induction ht with
  | vector _ ih => exact fun xs => List.flatMap_eq_nil_iff.2 fun x _ => ih x
  | array n _ ih => exact fun xs => List.flatMap_eq_nil_iff.2 fun x _ => ih x
  | optional _ _ ih =>
    intro x
    cases x with
    | none => rfl
    | some x => exact ih x
  | _ => exact fun _ => rfl

end NativeType

namespace Convert
variable {Ω α : Type} [ObjectModel Ω] {sv : Services Ω} {fieldsOf : FieldsOf Ω}

/-! ## Lists -/

theorem fail_orDrop_nil (e : CallError) : (Act.fail e : Act Ω α).orDrop [] = Act.fail e := by
  funext b
  change EStateM.Result.error _ { b with heap := b.heap.release [] } = _
  rw [Heap.release_nil]
  rfl

theorem listToWire_eq_pure {refs : α → List Address} {convert : α → Act Ω Wire} {xs : List α} {ws : List Wire}
    (h : List.Forall₂ (fun x w => convert x = pure w) xs ws) : listToWire refs convert xs = pure ws := by
  induction h with
  | nil => rfl
  | cons hw _ ih =>
    rw [listToWire, hw, ih]
    rfl

/-- What a conversion that changes nothing says of each item holds item by item. -/
theorem listFromWire_eq_ok {P : Wire → α → Prop} {refs : α → List Address} {convert : Wire → Act Ω α}
    (hconvert : ∀ w b x b', convert w b = .ok x b' → b' = b ∧ P w x) :
    ∀ {ws : List Wire} {b b' : Boundary Ω} {xs : List α}, listFromWire refs convert ws b = .ok xs b' →
      b' = b ∧ List.Forall₂ P ws xs
  | [], b, b', xs, h => by
    cases h
    exact ⟨rfl, .nil⟩
  | w :: ws, b, b', xs, h => by
    obtain ⟨x, b₁, hx, htail⟩ := Act.bind_eq_ok h
    obtain ⟨rest, b₂, hrest, hcons⟩ := Act.bind_eq_ok htail
    obtain ⟨rfl, hPx⟩ := hconvert _ _ _ _ (Act.orDrop_eq_ok hx)
    obtain ⟨rfl, hPrest⟩ := listFromWire_eq_ok hconvert (Act.orDrop_eq_ok hrest)
    cases hcons
    exact ⟨rfl, .cons hPx hPrest⟩

/-- The conversion of a list fails with that of an item, if the items convert or fail without a trace. -/
theorem listToWire_eq_fail {refs : α → List Address} {convert : α → Act Ω Wire} (hrefs : ∀ x, refs x = []) :
    ∀ {xs : List α}, (∀ x ∈ xs, (∃ w, convert x = pure w ∧ w.refs = []) ∨ ∃ e, convert x = Act.fail e) →
      (∃ x ∈ xs, ∃ e, convert x = Act.fail e) → ∃ e, listToWire refs convert xs = Act.fail e
  | x :: xs, hall, hsome => by
    have hrest : xs.flatMap refs = [] := List.flatMap_eq_nil_iff.2 fun y _ => hrefs y
    rw [listToWire, hrest]
    rcases hall x List.mem_cons_self with ⟨w, hw, hnone⟩ | ⟨e, he⟩
    · have hlater : ∃ y ∈ xs, ∃ e, convert y = Act.fail e := by
        obtain ⟨y, hy, e, he⟩ := hsome
        rcases List.mem_cons.1 hy with rfl | hy
        · rw [hw] at he
          cases congrFun he .empty
        · exact ⟨y, hy, e, he⟩
      obtain ⟨e, he⟩ := listToWire_eq_fail hrefs (fun y hy => hall y (List.mem_cons_of_mem _ hy)) hlater
      have hfails : (listToWire refs convert xs).orDrop w.refs = Act.fail e := by rw [he, hnone, fail_orDrop_nil]
      refine ⟨e, ?_⟩
      rw [hw]
      change (listToWire refs convert xs).orDrop w.refs >>= _ = Act.fail e
      rw [hfails]
      rfl
    · refine ⟨e, ?_⟩
      rw [he, fail_orDrop_nil]
      rfl

/-- Items that are sent and read back one by one are so as a list. -/
theorem items_eq_pure (refs : α → List Address) {out : α → Act Ω Wire} {back : Wire → Act Ω α} : ∀ {xs : List α},
    (∀ x ∈ xs, ∃ w, out x = pure w ∧ back w = pure x ∧ w.refs = []) →
      ∃ ws, listToWire refs out xs = pure ws ∧ listFromWire refs back ws = pure xs ∧ Wire.refsAll ws = [] ∧
        ws.length = xs.length
  | [], _ => ⟨[], rfl, rfl, rfl, rfl⟩
  | x :: xs, h => by
    obtain ⟨w, hout, hback, hrefs⟩ := h x List.mem_cons_self
    obtain ⟨ws, houts, hbacks, hnone, hlength⟩ :=
      items_eq_pure refs fun y hy => h y (List.mem_cons_of_mem _ hy)
    refine ⟨w :: ws, ?_, ?_, by rw [Wire.refsAll, hrefs, hnone, List.nil_append], by simp [hlength]⟩
    · rw [listToWire, hout, houts]
      rfl
    · rw [listFromWire, hback, hbacks]
      rfl

/-! ## Conversions -/

theorem items_eq_fit {t : NativeType} (ih : ∀ x : t.Value Ω, ¬ t.Oversized x → ∃ w,
      toWireWith sv fieldsOf t x = pure w ∧ fromWire sv t w = pure x ∧ w.refs = [] ∧
      (t.nullable = false → w.isNullish = false)) {xs : List (t.Value Ω)}
    (hxs : ¬ ∃ x ∈ xs, t.Oversized x) : ∃ ws, listToWire t.refs (toWireWith sv fieldsOf t) xs = pure ws ∧
      listFromWire t.refs (fromWire sv t) ws = pure xs ∧ Wire.refsAll ws = [] ∧ ws.length = xs.length := by
  refine items_eq_pure t.refs fun x hx => ?_
  obtain ⟨w, hto, hfrom, hrefs, -⟩ := ih x fun hbig => hxs ⟨x, hx, hbig⟩
  exact ⟨w, hto, hfrom, hrefs⟩

/-- **What fits is sent without touching the state**, as a value that keeps nothing alive and from which any conversion
reads it back. -/
theorem toWire_eq_pure (sv : Services Ω) (fieldsOf : FieldsOf Ω) {t : NativeType} (ht : t.IsData) :
    ∀ x : t.Value Ω, ¬ t.Oversized x → ∃ w, toWireWith sv fieldsOf t x = pure w ∧ fromWire sv t w = pure x ∧
      w.refs = [] ∧ (t.nullable = false → w.isNullish = false) := by
  induction ht with
  | unit => exact fun _ _ => ⟨.undefined, rfl, rfl, rfl, fun h => by cases h⟩
  | bool => exact fun x _ => ⟨.bool x, rfl, rfl, rfl, fun _ => rfl⟩
  | double => exact fun x _ => ⟨.float x, rfl, rfl, rfl, fun _ => rfl⟩
  | text => exact fun x _ => ⟨.text x, rfl, rfl, rfl, fun _ => rfl⟩
  | char =>
    intro c _
    refine ⟨.text (Char.toString c), rfl, ?_, rfl, fun _ => rfl⟩
    have hlist : (Char.toString c).toList = [c] := String.toList_singleton c
    unfold fromWire
    dsimp only
    rw [hlist]
  | int k =>
    intro x hx
    have hhigh : k.toInt x ≤ IntKind.int64.high := Int.not_lt.1 hx
    have hlow : IntKind.int64.low ≤ k.toInt x := Int.le_trans (IntKind.int64_low_le k) (IntKind.toInt_mem k x).1
    have hword : (Int64.ofInt (k.toInt x)).toInt = k.toInt x := IntKind.toInt_ofInt .int64 hlow hhigh
    refine ⟨.int (Int64.ofInt (k.toInt x)), by rw [toWireWith, if_pos hhigh], ?_, rfl, fun _ => rfl⟩
    unfold fromWire
    dsimp only
    rw [hword, IntKind.ofInt?_eq_some.2 rfl]
  | @vector t ht ih =>
    intro xs hxs
    obtain ⟨ws, hto, hfrom, hrefs, -⟩ := items_eq_fit ih hxs
    refine ⟨.array ws, ?_, hfrom, hrefs, fun _ => rfl⟩
    rw [toWireWith, hto]
    rfl
  | @array t n ht ih =>
    intro xs hxs
    obtain ⟨ws, hto, hfrom, hrefs, hlength⟩ := items_eq_fit ih hxs
    have hn : (Vector.toList xs).length = n := Vector.length_toList
    refine ⟨.array ws, ?_, ?_, hrefs, fun _ => rfl⟩
    · rw [toWireWith, hto]
      rfl
    · unfold fromWire
      dsimp only
      rw [if_pos (hlength.trans hn), hfrom]
      change (if h : (Vector.toList xs).length = n then _ else _) = _
      rw [dif_pos hn]
      rfl
  | @optional t ht hnull ih =>
    intro x hx
    cases x with
    | none => exact ⟨.null, rfl, rfl, rfl, fun h => by cases h⟩
    | some x =>
      obtain ⟨w, hto, hfrom, hrefs, hnullish⟩ := ih x fun hx' => hx ⟨x, rfl, hx'⟩
      refine ⟨w, hto, ?_, hrefs, fun h => by cases h⟩
      rw [fromWire, hnullish hnull, hfrom]
      rfl

theorem items_eq_fail {t : NativeType} (ht : t.IsData)
    (ih : ∀ x : t.Value Ω, t.Oversized x → ∃ e, toWireWith sv fieldsOf t x = Act.fail e) {xs : List (t.Value Ω)}
    (hxs : ∃ x ∈ xs, t.Oversized x) : ∃ e, listToWire t.refs (toWireWith sv fieldsOf t) xs = Act.fail e := by
  obtain ⟨x, hx, hbig⟩ := hxs
  refine listToWire_eq_fail ht.refs (fun y _ => ?_) ⟨x, hx, ih x hbig⟩
  by_cases hy : t.Oversized y
  · exact .inr (ih y hy)
  · obtain ⟨w, hto, -, hrefs, -⟩ := toWire_eq_pure sv fieldsOf ht y hy
    exact .inl ⟨w, hto, hrefs⟩

/-- **What does not fit is refused without touching the state.** -/
theorem toWire_eq_fail (sv : Services Ω) (fieldsOf : FieldsOf Ω) {t : NativeType} (ht : t.IsData) :
    ∀ x : t.Value Ω, t.Oversized x → ∃ e, toWireWith sv fieldsOf t x = Act.fail e := by
  induction ht with
  | int k =>
    intro x hx
    exact ⟨_, by rw [toWireWith, if_neg (Int.not_le.2 hx)]⟩
  | @vector t ht ih =>
    intro xs hxs
    obtain ⟨e, he⟩ := items_eq_fail ht ih hxs
    refine ⟨e, ?_⟩
    rw [toWireWith, he]
    rfl
  | @array t n ht ih =>
    intro xs hxs
    obtain ⟨e, he⟩ := items_eq_fail ht ih hxs
    refine ⟨e, ?_⟩
    rw [toWireWith, he]
    rfl
  | optional ht hnull ih =>
    rintro x ⟨y, rfl, hy⟩
    exact ih y hy
  | _ => exact fun _ h => absurd h id

theorem normal_items {t : NativeType} {ws : List Wire} {xs : List (t.Value Ω)}
    (h : List.Forall₂ (fun w x => toWireWith sv fieldsOf t x = pure (t.normal w)) ws xs) :
    List.Forall₂ (fun x w => toWireWith sv fieldsOf t x = pure w) xs (ws.map t.normal) :=
  List.forall₂_map_right_iff.2 h.flip

/-- **What is read without a floating-point number is sent as it came**, in its normal form. -/
theorem fromWire_eq_ok (fieldsOf : FieldsOf Ω) {t : NativeType} (ht : t.IsData) (hfloat : t.floatFree = true) :
    ∀ (w : Wire) (b : Boundary Ω) (x : t.Value Ω) (b' : Boundary Ω), fromWire sv t w b = .ok x b' →
      b' = b ∧ toWireWith sv fieldsOf t x = pure (t.normal w) := by
  induction ht with
  | unit =>
    intro w b x b' h
    cases w <;> cases h <;> exact ⟨rfl, rfl⟩
  | bool =>
    intro w b x b' h
    cases w <;> cases h
    exact ⟨rfl, rfl⟩
  | char =>
    intro w b c b' h
    cases w with
    | text s =>
      unfold fromWire at h
      dsimp only at h
      rcases hlist : s.toList with _ | ⟨d, _ | ⟨e, ds⟩⟩ <;> rw [hlist] at h <;> cases h
      have hs : Char.toString c = s := String.toList_inj.1 ((String.toList_singleton c).trans hlist.symm)
      exact ⟨rfl, by rw [toWireWith, hs]; rfl⟩
    | _ => cases h
  | int k =>
    intro w b x b' h
    cases w with
    | int n =>
      unfold fromWire at h
      dsimp only at h
      cases hy : k.ofInt? n.toInt with
      | none =>
        rw [hy] at h
        cases h
      | some y =>
        rw [hy] at h
        cases h
        have hword : k.toInt x = n.toInt := IntKind.ofInt?_eq_some.1 hy
        have hhigh : k.toInt x ≤ IntKind.int64.high := by
          rw [hword]
          exact (IntKind.toInt_mem .int64 n).2
        refine ⟨rfl, ?_⟩
        rw [toWireWith, if_pos hhigh, hword, Int64.ofInt_toInt]
        rfl
    | _ => cases h
  | double => cases hfloat
  | text =>
    intro w b x b' h
    cases w <;> cases h
    exact ⟨rfl, rfl⟩
  | @vector t ht ih =>
    intro w b xs b' h
    cases w with
    | array ws =>
      obtain ⟨hb, hitems⟩ := listFromWire_eq_ok (ih hfloat) h
      refine ⟨hb, ?_⟩
      rw [toWireWith, listToWire_eq_pure (normal_items hitems)]
      rfl
    | _ => cases h
  | @array t n ht ih =>
    intro w b xs b' h
    cases w with
    | array ws =>
      unfold fromWire at h
      dsimp only at h
      split at h
      · obtain ⟨ys, b₁, hys, hsized⟩ := Act.bind_eq_ok h
        obtain ⟨rfl, hitems⟩ := listFromWire_eq_ok (ih hfloat) hys
        split at hsized
        · cases hsized
          refine ⟨rfl, ?_⟩
          rw [toWireWith, Vector.toList_mk, listToWire_eq_pure (normal_items hitems)]
          rfl
        · cases hsized
      · cases h
    | _ => cases h
  | @optional t ht hnull ih =>
    intro w b x b' h
    unfold fromWire at h
    split at h
    · rename_i hw
      cases h
      exact ⟨rfl, by rw [NativeType.normal, if_pos hw]; rfl⟩
    · rename_i hw
      obtain ⟨y, b₁, hy, hsome⟩ := Act.bind_eq_ok h
      obtain ⟨rfl, hto⟩ := ih hfloat w b y b₁ hy
      cases hsome
      exact ⟨rfl, by rw [NativeType.normal, if_neg hw, ← hto]; rfl⟩

/-! ## The object table -/

theorem movesOut_eq_false {t : NativeType} (ht : t.IsData) : t.movesOut = false := by
  induction ht with
  | vector _ ih | array _ _ ih | optional _ _ ih => exact ih
  | _ => rfl

/-- Reading pure data asks nothing of the engine. -/
theorem fromWire_services {t : NativeType} (ht : t.IsData) (sv' : Services Ω) :
    ∀ w, fromWire sv t w = fromWire sv' t w := by
  induction ht with
  | @vector t _ ih =>
    intro w
    cases w <;> simp only [fromWire, funext ih]
  | @array t n _ ih =>
    intro w
    cases w <;> simp only [fromWire, funext ih]
  | @optional t _ _ ih =>
    intro w
    simp only [fromWire, funext ih]
  | int k | bool | char | double | text =>
    intro w
    cases w <;> rfl
  | unit =>
    intro w
    rfl

theorem fromWire_table {t : NativeType} (ht : t.IsData) (w : Wire) (b : Boundary Ω) :
    ((fromWire sv t w).final b).table = b.table := by
  rw [fromWire_services ht { sv with construct := fun _ _ => Act.fail (.native "") }]
  exact (keeps_fromWire (R := Eq) (fun _ _ => .fail _) t w
    (fun hmoves => by rw [movesOut_eq_false ht] at hmoves; cases hmoves) b).symm

/-! ## Round trips -/

theorem toWire_ok_iff {t : NativeType} (ht : t.IsData) (x : t.Value Ω) (b : Boundary Ω) :
    (∃ w b', toWireWith sv fieldsOf t x b = .ok w b') ↔ ¬ t.Oversized x := by
  constructor
  · rintro ⟨w, b', hw⟩ hbig
    obtain ⟨e, he⟩ := toWire_eq_fail sv fieldsOf ht x hbig
    rw [he] at hw
    cases hw
  · intro hfits
    obtain ⟨w, hw, -⟩ := toWire_eq_pure sv fieldsOf ht x hfits
    exact ⟨w, b, by rw [hw]; rfl⟩

/-- The values of which type is not nullable are never sent as no value, and only these. -/
theorem nullable_eq_false_iff {t : NativeType} (ht : t.IsData) : t.nullable = false ↔
    ∀ (x : t.Value Ω) (b : Boundary Ω) (w : Wire) (b' : Boundary Ω),
      toWireWith sv fieldsOf t x b = .ok w b' → w.isNullish = false := by
  constructor
  · intro hnull x b w b' hw
    have hfits := (toWire_ok_iff ht x b).1 ⟨w, b', hw⟩
    obtain ⟨w', hto, -, -, hnullish⟩ := toWire_eq_pure sv fieldsOf ht x hfits
    rw [hto] at hw
    cases hw
    exact hnullish hnull
  · intro hsent
    cases ht with
    | unit => cases hsent () .empty .undefined .empty rfl
    | optional => cases hsent none .empty .null .empty rfl
    | _ => rfl

/-- **Pure data round-trips.** A value is sent exactly if no integer in it is above the greatest that crosses the
boundary, and what was sent is read back as it was, in any state. What is read is sent back in its normal form: `null`
where an option was read from `undefined`, `undefined` where the empty value was read from `null`, and else as it came.
Whether a conversion succeeds or fails, the object table is left alone. An option is of a type none of whose values is
sent as no value. -/
theorem data_roundTrips (sv : Services Ω) {t : NativeType} (ht : t.IsData) :
    (∀ (x : t.Value Ω) (b : Boundary Ω), (∃ w b', toWire sv t x b = .ok w b') ↔ ¬ t.Oversized x) ∧
    (∀ (x : t.Value Ω) (b : Boundary Ω) (w : Wire) (b' : Boundary Ω), toWire sv t x b = .ok w b' →
      ∀ b₁, fromWire sv t w b₁ = .ok x b₁) ∧
    (t.floatFree = true → ∀ (w : Wire) (b : Boundary Ω) (x : t.Value Ω) (b' : Boundary Ω),
      fromWire sv t w b = .ok x b' → ∀ b₁, toWire sv t x b₁ = .ok (t.normal w) b₁) ∧
    (∀ (x : t.Value Ω) (b : Boundary Ω), ((toWire sv t x).final b).table = b.table) ∧
    (∀ (w : Wire) (b : Boundary Ω), ((fromWire sv t w).final b).table = b.table) ∧
    (t.nullable = false ↔ ∀ (x : t.Value Ω) (b : Boundary Ω) (w : Wire) (b' : Boundary Ω),
      toWire sv t x b = .ok w b' → w.isNullish = false) := by
  refine ⟨toWire_ok_iff ht, fun x b w b' hw b₁ => ?_, fun hfloat w b x b' hx b₁ => ?_, fun x b => ?_,
    fromWire_table ht, nullable_eq_false_iff ht⟩
  · have hfits := (toWire_ok_iff ht x b).1 ⟨w, b', hw⟩
    obtain ⟨w', hto, hfrom, -⟩ := toWire_eq_pure sv (fields sv) ht x hfits
    rw [toWire, hto] at hw
    cases hw
    rw [hfrom]
    rfl
  · obtain ⟨-, hto⟩ := fromWire_eq_ok (fields sv) ht hfloat w b x b' hx
    rw [toWire, hto]
    rfl
  · by_cases hbig : t.Oversized x
    · obtain ⟨e, he⟩ := toWire_eq_fail sv (fields sv) ht x hbig
      rw [toWire, he]
      rfl
    · obtain ⟨w, hto, -⟩ := toWire_eq_pure sv (fields sv) ht x hbig
      rw [toWire, hto]
      rfl

open Catalog Environment in
/-- A list with a gap and the least and the greatest of two unsigned words comes back; one with a word beyond the
boundary is not sent; a gap that was read as `undefined` is sent as `null`. -/
theorem data_roundTrips_words :
    let sv := (bare Specimen).services 0
    let t : NativeType := .vector (.optional (.array (.int .uint64) 2))
    let words : t.Value Specimen := [none, some #v[0, 9223372036854775807]]
    let sent : Wire := .array [.null, .array [.int 0, .int 9223372036854775807]]
    toWire sv t words .empty = .ok sent .empty ∧ fromWire sv t sent .empty = .ok words .empty ∧
      (¬ ∃ w b', toWire sv t [some #v[0, 9223372036854775808]] .empty = .ok w b') ∧
      toWire sv t words .empty = .ok (t.normal (.array [.undefined, .array [.int 0, .int 9223372036854775807]])) .empty := by
  intro sv t words sent
  have ht : t.IsData := .vector (.optional (.array 2 (.int .uint64)) rfl)
  obtain ⟨hok, hback, hforth, -⟩ := data_roundTrips sv ht
  have hsent : toWire sv t words .empty = .ok sent .empty := by rfl
  have hread : fromWire sv t (.array [.undefined, .array [.int 0, .int 9223372036854775807]]) .empty =
      .ok words .empty := by rfl
  refine ⟨hsent, hback words .empty sent .empty hsent .empty, ?_, hforth rfl _ _ _ _ hread .empty⟩
  rw [hok]
  refine not_not.2 ⟨_, List.mem_cons_self, _, rfl, 9223372036854775808, ?_, ?_⟩
  · decide
  · change IntKind.int64.high < IntKind.uint64.toInt 9223372036854775808
    decide

end Convert
end NativeBridge
