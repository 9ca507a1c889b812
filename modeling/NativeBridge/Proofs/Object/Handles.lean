import Mathlib.Data.List.Nodup
import Mathlib.Data.List.Perm.Subperm
import NativeBridge.Proofs.Object.Sound
import NativeBridge.Proofs.Object.References
/-!
# The live handles and what they hold

`handles` lists the live handles, each once. The strong wrappers of an object are its holders
(`ObjectTable.holders`); there are at most two, one for each constness. Releasing handles one after another releases
exactly those, and `clear` is that for all of them (`Holdings.clear_eq`).
-/
namespace NativeBridge

/-- The strong reference of the wrapper in a slot, if there is one. -/
def Slot.refs (slot : Slot) : List Address :=
  slot.wrapper.elim [] Wrapper.refs

namespace Wrapper

/-- The wrapper keeps the object at `a` alive. -/
def holds (w : Wrapper) (a : Address) : Bool :=
  w.ownership.isStrong && w.address == a

theorem refs_of_isStrong {w : Wrapper} (h : w.ownership.isStrong = true) : w.refs = [w.address] := by
  rw [refs, h]
  rfl

theorem refs_of_borrowed {w : Wrapper} (h : w.ownership = .borrowed) : w.refs = [] := by
  rw [refs, h]
  rfl

theorem count_refs (w : Wrapper) (a : Address) : w.refs.count a = if w.holds a then 1 else 0 := by
  unfold refs holds
  cases w.ownership.isStrong with
  | false => rfl
  | true =>
    rw [if_pos rfl, Bool.true_and, List.count_cons, List.count_nil, Nat.zero_add]

theorem refs_bound (p : Pointer) (owned : Bool) (flags : TypeFlags) : (bound p owned flags).refs = p.refs := by
  rw [refs, isStrong_bound, Pointer.refs]
  cases p.weak <;> rfl

end Wrapper

namespace ObjectTable
variable {t : ObjectTable}

/-- The strong references of all live wrappers. -/
def refs (t : ObjectTable) : List Address :=
  t.slots.flatMap Slot.refs

theorem count_refs_enter (ht : t.Sound) (w : Wrapper) (a : Address) :
    (t.enter w).refs.count a = t.refs.count a + w.refs.count a := by
  rcases ht.allocate_cases w with ⟨i, free, g, -, hslot, heq⟩ | ⟨-, heq⟩
  · have hset := count_flatMap_set Slot.refs a ⟨g, some w⟩ hslot
    rw [enter, heq]
    exact hset
  · rw [enter, heq, refs, List.flatMap_append, List.flatMap_singleton, List.count_append]
    rfl

section
variable {h : Handle} {w : Wrapper} (hw : t.live? h = some w)
include hw

theorem count_refs_remove (a : Address) : (t.remove h w).refs.count a + w.refs.count a = t.refs.count a := by
  have hset := count_flatMap_set Slot.refs a ⟨h.generation + 1, none⟩ (live?_eq_some.mp hw)
  rw [remove_eq hw]
  exact hset

theorem count_refs_setWrapper (v : Wrapper) (a : Address) :
    (t.setWrapper h v).refs.count a + w.refs.count a = t.refs.count a + v.refs.count a :=
  count_flatMap_set Slot.refs a ⟨h.generation, some v⟩ (live?_eq_some.mp hw)

end

/-! ## The live handles -/

theorem mem_handles {h : Handle} : h ∈ t.handles ↔ ∃ w, t.live? h = some w := by
  simp only [handles, List.mem_filterMap, Prod.exists, List.mem_zipIdx_iff_getElem?, Option.map_eq_some_iff]
  constructor
  · rintro ⟨slot, i, hslot, w, hw, rfl⟩
    refine ⟨w, live?_eq_some.mpr ?_⟩
    rw [hslot, ← hw]
  · rintro ⟨w, hw⟩
    exact ⟨_, _, live?_eq_some.mp hw, w, rfl, rfl⟩

theorem nodup_handles (t : ObjectTable) : t.handles.Nodup := by
  have hsorted : t.slots.zipIdx.Pairwise (fun x y => x.2 < y.2) := by
    rw [← List.pairwise_map (R := (· < ·)), List.zipIdx_map_snd]
    exact List.pairwise_lt_range'
  refine List.pairwise_filterMap.mpr (hsorted.imp ?_)
  rintro ⟨slot, i⟩ ⟨slot', i'⟩ hlt h hh h' hh' heq
  rw [Option.map_eq_some_iff] at hh hh'
  obtain ⟨-, -, rfl⟩ := hh
  obtain ⟨-, -, rfl⟩ := hh'
  exact Nat.ne_of_lt hlt (congrArg Handle.index heq)

/-- The wrappers that the live handles name are the wrappers in the slots. -/
theorem live?_handles (t : ObjectTable) : t.handles.filterMap t.live? = t.slots.filterMap (·.wrapper) := by
  have hcongr : ∀ x ∈ t.slots.zipIdx,
      ((x.1.wrapper.map fun _ => (⟨x.2, x.1.generation⟩ : Handle)).bind t.live?) = x.1.wrapper := by
    rintro ⟨slot, i⟩ hx
    have hslot := List.mem_zipIdx_iff_getElem?.mp hx
    cases hw : slot.wrapper with
    | none => rfl
    | some w =>
      refine live?_eq_some.mpr ?_
      rw [hslot, ← hw]
  have hfst : t.slots.zipIdx.filterMap (fun x => x.1.wrapper) = (t.slots.zipIdx.map (·.1)).filterMap (·.wrapper) :=
    (List.filterMap_map ..).symm
  rw [handles, List.filterMap_filterMap, List.filterMap_congr hcongr, hfst, List.zipIdx_map_fst]

/-! ## Holders -/

/-- The handles of the wrappers that keep an object alive. -/
def holders (t : ObjectTable) (a : Address) : List Handle :=
  t.handles.filter fun h => (t.live? h).any (·.holds a)

theorem mem_holders {h : Handle} {a : Address} :
    h ∈ t.holders a ↔ ∃ w, t.live? h = some w ∧ w.ownership.isStrong = true ∧ w.address = a := by
  rw [holders, List.mem_filter, mem_handles, Option.any_eq_true]
  constructor
  · rintro ⟨-, w, hw, hholds⟩
    rw [Wrapper.holds, Bool.and_eq_true, beq_iff_eq] at hholds
    exact ⟨w, hw, hholds⟩
  · rintro ⟨w, hw, hholds⟩
    refine ⟨⟨w, hw⟩, w, hw, ?_⟩
    rwa [Wrapper.holds, Bool.and_eq_true, beq_iff_eq]

theorem length_holders (t : ObjectTable) (a : Address) : (t.holders a).length = t.refs.count a := by
  have hslots : ∀ slots : List Slot, (slots.flatMap Slot.refs).count a =
      (slots.filterMap (·.wrapper)).countP (·.holds a) := by
    intro slots
    induction slots with
    | nil => rfl
    | cons slot slots ih =>
      rw [List.flatMap_cons, List.count_append, ih, Slot.refs]
      cases hw : slot.wrapper with
      | none => simp [hw]
      | some w => simp [hw, List.countP_cons, Wrapper.count_refs, Nat.add_comm]
  rw [refs, hslots, ← live?_handles, List.countP_filterMap, holders, ← List.countP_eq_length_filter]
  refine List.countP_congr fun h _ => ?_
  cases t.live? h <;> rfl

/-- **An object has at most one holder for each constness.** -/
theorem Sound.holders_inj (ht : t.Sound) {a : Address} {g h : Handle} (hg : g ∈ t.holders a) (hh : h ∈ t.holders a)
    (hconst : (t.live? g).any (·.isConst) = (t.live? h).any (·.isConst)) : g = h := by
  obtain ⟨v, hv, -, hva⟩ := mem_holders.mp hg
  obtain ⟨w, hw, -, hwa⟩ := mem_holders.mp hh
  rw [hv, hw] at hconst
  refine ht.eq_of_key hv hw ?_
  rw [Wrapper.key, Wrapper.key, hva, hwa]
  exact congrArg _ hconst

theorem Sound.length_holders_le (ht : t.Sound) (a : Address) : (t.holders a).length ≤ 2 := by
  have hnodup : ((t.holders a).map fun h => (t.live? h).any (·.isConst)).Nodup :=
    ((nodup_handles t).filter _).map_on fun g hg h hh => ht.holders_inj hg hh
  have hsub : ((t.holders a).map fun h => (t.live? h).any (·.isConst)) ⊆ [true, false] := by
    intro b _
    cases b <;> simp
  rw [← List.length_map fun h => (t.live? h).any (·.isConst)]
  exact (List.Nodup.subperm hnodup hsub).length_le

end ObjectTable

/-! ## Releasing handles one after another -/

namespace Holdings
variable {Ω : Type} [ObjectModel Ω] {s : Holdings Ω} {h : Handle}

/-- Release a handle if it is live. -/
def letGo (s : Holdings Ω) (h : Handle) : Holdings Ω :=
  (s.release h).toOption.getD s

theorem letGo_live {v : Wrapper} (hv : s.table.live? h = some v) :
    s.letGo h = { table := s.table.remove h v, heap := s.heap.release v.refs } := by
  rw [letGo, release_eq hv]
  rfl

theorem letGo_dead (hv : s.table.live? h = none) : s.letGo h = s := by
  rw [letGo, release_dead hv]
  rfl

theorem live?_letGo (s : Holdings Ω) (h g : Handle) :
    (s.letGo h).table.live? g = if g = h then none else s.table.live? g := by
  cases hv : s.table.live? h with
  | some v =>
    rw [letGo_live hv]
    exact ObjectTable.live?_remove hv g
  | none =>
    rw [letGo_dead hv]
    split
    · rename_i hg
      rw [hg, hv]
    · rfl

theorem sound_letGo (hs : s.table.Sound) (h : Handle) : (s.letGo h).table.Sound := by
  cases hv : s.table.live? h with
  | some v =>
    rw [letGo_live hv]
    exact hs.remove hv
  | none => rwa [letGo_dead hv]

theorem sound_letGo_all (hs : s.table.Sound) (hs' : List Handle) : (hs'.foldl letGo s).table.Sound := by
  induction hs' generalizing s with
  | nil => exact hs
  | cons h hs' ih => exact ih (sound_letGo hs h)

theorem live?_letGo_all (s : Holdings Ω) (hs : List Handle) (g : Handle) :
    (hs.foldl letGo s).table.live? g = if g ∈ hs then none else s.table.live? g := by
  induction hs generalizing s with
  | nil => simp
  | cons h hs ih =>
    rw [List.foldl_cons, ih, live?_letGo]
    by_cases hg : g = h
    · simp [hg]
    · simp [hg]

theorem live?_letGo_handles (s : Holdings Ω) (g : Handle) :
    (s.table.handles.foldl letGo s).table.live? g = none := by
  rw [live?_letGo_all]
  split
  · rfl
  · rename_i hg
    cases hv : s.table.live? g with
    | none => rfl
    | some v => exact absurd (ObjectTable.mem_handles.mpr ⟨v, hv⟩) hg

/-- **Clearing is releasing every live handle**: nothing is left in the identity map. -/
theorem clear_eq (hs : s.table.Sound) : s.clear = s.table.handles.foldl letGo s := by
  have hsound := sound_letGo_all hs s.table.handles
  have hidentity : (s.table.handles.foldl letGo s).table.identity = [] := by
    refine List.eq_nil_iff_forall_not_mem.mpr ?_
    rintro ⟨k, h⟩ hmem
    cases hk : (s.table.handles.foldl letGo s).table.identity.lookup k with
    | none =>
      have hne := List.lookup_eq_none_iff.mp hk _ hmem
      rw [bne_self_eq_false] at hne
      cases hne
    | some g =>
      obtain ⟨w, hw, -⟩ := (hsound.lookup k g).mp hk
      rw [live?_letGo_handles] at hw
      cases hw
  change { s.table.handles.foldl letGo s with
    table := { (s.table.handles.foldl letGo s).table with identity := [] } } = _
  rw [← hidentity]

end Holdings
end NativeBridge
