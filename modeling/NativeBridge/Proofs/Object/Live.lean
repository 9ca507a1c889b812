import Mathlib.Order.Defs.Unbundled
import NativeBridge.Object.Table
/-!
# Live wrappers

Emptying the slot of a live handle leaves one live wrapper fewer, and no handle names a wrapper that it did not name
before. `Shrinks` and `Within` are what a whole run can keep of this.
-/
namespace NativeBridge
namespace ObjectTable

theorem live?_eq_some {t : ObjectTable} {h : Handle} {w : Wrapper} :
    t.live? h = some w ↔ t.slots[h.index]? = some ⟨h.generation, some w⟩ := by
  unfold live?
  cases t.slots[h.index]? with
  | none => simp
  | some slot =>
    obtain ⟨generation, wrapper⟩ := slot
    by_cases hg : generation = h.generation <;> simp [hg]

theorem contains_eq_true {t : ObjectTable} {h : Handle} : t.contains h = true ↔ ∃ w, t.live? h = some w := by
  rw [contains, Option.isSome_iff_exists]

theorem get_eq_ok {t : ObjectTable} {h : Handle} {w : Wrapper} : t.get h = .ok w ↔ t.live? h = some w := by
  unfold get
  split <;> simp_all

theorem live?_forget (t : ObjectTable) (k : IdentityKey) (h : Handle) : (t.forget k).live? h = t.live? h := rfl

/-! ## Fewer live wrappers -/

/-- The table as it was, or one with fewer live wrappers. -/
def Shrinks (t t' : ObjectTable) : Prop :=
  t' = t ∨ t'.liveCount < t.liveCount

theorem Shrinks.le {t t' : ObjectTable} (h : t.Shrinks t') : t'.liveCount ≤ t.liveCount := by
  rcases h with rfl | h
  · exact Nat.le_refl _
  · exact Nat.le_of_lt h

instance : IsPreorder ObjectTable Shrinks where
  refl _ := .inl rfl
  trans t₁ t₂ t₃ h₁ h₂ := by
    rcases h₁ with rfl | h₁
    · exact h₂
    · exact .inr (Nat.lt_of_le_of_lt h₂.le h₁)

theorem liveCount_discard {t : ObjectTable} {h : Handle} (hlive : t.contains h = true) :
    (t.discard h).liveCount < t.liveCount := by
  obtain ⟨w, hw⟩ := contains_eq_true.mp hlive
  have hslot := live?_eq_some.mp hw
  obtain ⟨hlt, hget⟩ := List.getElem?_eq_some_iff.mp hslot
  have hpos : 0 < t.slots.countP (·.wrapper.isSome) :=
    List.countP_pos_iff.mpr ⟨_, List.mem_of_getElem? hslot, rfl⟩
  unfold discard liveCount
  rw [if_pos hlive, ← List.countP_eq_length_filter, ← List.countP_eq_length_filter, List.countP_set hlt, hget]
  simp only [Option.isSome_some, Option.isSome_none, if_true, Bool.false_eq_true, if_false]
  omega

/-! ## No new live wrappers -/

/-- Every handle that is live in `t'` is live in `t`. -/
def Within (t t' : ObjectTable) : Prop :=
  ∀ h, t'.contains h = true → t.contains h = true

instance : IsPreorder ObjectTable Within where
  refl _ _ := id
  trans _ _ _ h₁ h₂ := fun h hlive => h₁ h (h₂ h hlive)

theorem within_discard (t : ObjectTable) (h : Handle) : t.Within (t.discard h) := by
  intro g hg
  unfold discard at hg
  split at hg
  · obtain ⟨w, hw⟩ := contains_eq_true.mp hg
    have hslot := live?_eq_some.mp hw
    rw [List.getElem?_set] at hslot
    split at hslot
    · simp at hslot
    · exact contains_eq_true.mpr ⟨w, live?_eq_some.mpr hslot⟩
  · exact hg

end ObjectTable

/-! ## Objects behind handles -/

namespace Holdings
variable {Ω : Type} {s : Holdings Ω}

theorem cell_live {h : Handle} {v : Wrapper} (hv : s.table.live? h = some v) :
    s.cell h = if v.isAlive s.heap then .ok v.address else .error (.useAfterFree h) := by
  rw [cell, ObjectTable.get_eq_ok.mpr hv]
  rfl

theorem cell_ok {h : Handle} {a : Address} (ha : s.cell h = .ok a) :
    ∃ v, s.table.live? h = some v ∧ a = v.address := by
  cases hv : s.table.live? h with
  | none =>
    rw [cell, ObjectTable.get, hv] at ha
    cases ha
  | some v =>
    rw [cell_live hv] at ha
    split at ha
    · cases ha
      exact ⟨v, rfl, rfl⟩
    · cases ha

variable [ObjectModel Ω]

theorem takeCell_table (s : Holdings Ω) (c : Class) (a : Address) : (s.takeCell c a).2.table = s.table := by
  unfold takeCell
  split
  · rfl
  split
  · rfl
  split <;> rfl

theorem intoOwned_table (s : Holdings Ω) (c : Class) (p : Pointer) : (s.intoOwned c p).2.table = s.table := by
  unfold intoOwned
  split
  · rfl
  · exact takeCell_table s c p.address

end Holdings
end NativeBridge
