import Mathlib.Data.List.Perm.Subperm
import NativeBridge.Catalog.Specimen
import NativeBridge.Proofs.Object.Ledger
/-!
# The life of a handle

What an event does to the table is one of six things (`Ledger.Turns`), so there are few things that can happen to a live
wrapper (`Ledger.Fate`): it stays as it is, is promoted, or is discarded, which is what the events that end its life do
and no others (`Ledger.mem_discarded_iff`). Each discard steps the generation of the slot once (`ObjectTable.Ages`), so a
handle is live again only after a multiple of 2^32 discards of its slot. Together they say that a handle names one object
as long as its wrapper is not discarded, and none afterwards until the generations come round (`Ledger.NamesOne`).
-/
namespace NativeBridge

/-! ## Generations -/

theorem add_ofNat_eq_self (g : UInt32) (n : Nat) : g + UInt32.ofNat n = g ↔ UInt32.size ∣ n := by
  have hlt := g.toNat_lt
  rw [← UInt32.toNat_inj, UInt32.toNat_add, UInt32.toNat_ofNat', UInt32.size]
  omega

theorem add_one_ne_self (g : UInt32) : g + 1 ≠ g := by
  intro h
  have hdvd := (add_ofNat_eq_self g 1).mp h
  rw [UInt32.size] at hdvd
  omega

/-- The same object under the same constness, held as before or, if it was borrowed, shared by now. -/
structure Wrapper.Continues (v' v : Wrapper) : Prop where
  cls : v'.cls = v.cls
  address : v'.address = v.address
  const : v'.isConst = v.isConst
  ownership : v'.ownership = v.ownership ∨ v.ownership = .borrowed ∧ v'.ownership = .shared

namespace Wrapper.Continues

protected theorem refl (v : Wrapper) : v.Continues v :=
  ⟨rfl, rfl, rfl, .inl rfl⟩

protected theorem trans {v v' v'' : Wrapper} (h' : v''.Continues v') (h : v'.Continues v) : v''.Continues v where
  cls := h'.cls.trans h.cls
  address := h'.address.trans h.address
  const := h'.const.trans h.const
  ownership := by
    rcases h'.ownership with heq | ⟨hborrowed, hshared⟩
    · rw [heq]
      exact h.ownership
    · rcases h.ownership with heq | ⟨-, hshared'⟩
      · exact .inr ⟨heq ▸ hborrowed, hshared⟩
      · rw [hborrowed] at hshared'
        cases hshared'

end Wrapper.Continues

namespace ObjectTable

/-- From `t` to `t'` the wrappers of the handles `ds` were discarded: the generation of a slot went up by the number of
them that are in it. -/
def Ages (t t' : ObjectTable) (ds : List Handle) : Prop :=
  ∀ i slot, t.slots[i]? = some slot → ∃ slot', t'.slots[i]? = some slot' ∧
    slot'.generation = slot.generation + UInt32.ofNat (ds.countP (·.index = i))

theorem ages_refl (t : ObjectTable) : t.Ages t [] :=
  fun _ slot hslot => ⟨slot, hslot, (UInt32.add_zero _).symm⟩

theorem Ages.trans {t t' t'' : ObjectTable} {ds ds' : List Handle} (h : t.Ages t' ds) (h' : t'.Ages t'' ds') :
    t.Ages t'' (ds ++ ds') := by
  intro i slot hslot
  obtain ⟨slot', hslot', hgen⟩ := h i slot hslot
  obtain ⟨slot'', hslot'', hgen'⟩ := h' i slot' hslot'
  refine ⟨slot'', hslot'', ?_⟩
  rw [hgen', hgen, List.countP_append, UInt32.ofNat_add, UInt32.add_assoc]

/-- Setting a slot ages it by the difference of the generations. -/
theorem Sets.ages {t t' : ObjectTable} {i : Nat} {slot : Slot} {ds : List Handle} (hs : t.Sets t' i slot)
    (hi : ∀ old, t.slots[i]? = some old →
      slot.generation = old.generation + UInt32.ofNat (ds.countP (·.index = i)))
    (hds : ∀ h ∈ ds, h.index = i) : t.Ages t' ds := by
  intro j old hold
  rw [hs j]
  by_cases hj : j = i
  · rw [if_pos hj]
    exact ⟨slot, rfl, hj ▸ hi old (hj ▸ hold)⟩
  · have hnone : ds.countP (·.index = j) = 0 := by
      refine List.countP_eq_zero.mpr fun h hh hindex => hj ?_
      rw [← of_decide_eq_true hindex, hds h hh]
    rw [if_neg hj, hnone]
    exact ⟨old, hold, (UInt32.add_zero _).symm⟩

theorem Sound.ages_enter {t : ObjectTable} (ht : t.Sound) (w : Wrapper) : t.Ages (t.enter w) [] := by
  refine (ht.sets_enter w).ages (fun old hold => ?_) (fun _ hh => nomatch hh)
  rw [ht.allocate_slot w old hold]
  exact (UInt32.add_zero _).symm

section
variable {t : ObjectTable} {h : Handle} {v : Wrapper} (hv : t.live? h = some v)
include hv

theorem ages_remove : t.Ages (t.remove h v) [h] := by
  refine (sets_remove hv).ages (fun old hold => ?_) (fun g hg => by rw [List.mem_singleton.mp hg])
  rw [live?_eq_some.mp hv, Option.some.injEq] at hold
  rw [← hold]
  simp

theorem ages_setWrapper (v' : Wrapper) : t.Ages (t.setWrapper h v') [] := by
  refine (sets_setWrapper hv v').ages (fun old hold => ?_) (fun _ hh => nomatch hh)
  rw [live?_eq_some.mp hv, Option.some.injEq] at hold
  rw [← hold]
  exact (UInt32.add_zero _).symm

/-- The handle that is given out next is not the one just released, even if it is for the same slot. -/
theorem Sound.allocate_ne (ht : t.Sound) (v' : Wrapper) : ((t.remove h v).allocate v').1 ≠ h := by
  intro heq
  have hslot := (ht.remove hv).allocate_slot v' ⟨h.generation + 1, none⟩ (by
    rw [sets_remove hv, heq, if_pos rfl])
  rw [heq, Slot.mk.injEq] at hslot
  exact add_one_ne_self _ hslot.1

end

end ObjectTable

namespace Holdings
variable {Ω : Type} [ObjectModel Ω] {s : Holdings Ω}

theorem ages_letGo_all {hs : List Handle} (hnodup : hs.Nodup) (hlive : ∀ h ∈ hs, s.table.contains h = true) :
    s.table.Ages (hs.foldl letGo s).table hs := by
  induction hs generalizing s with
  | nil => exact ObjectTable.ages_refl _
  | cons h hs ih =>
    rw [List.nodup_cons] at hnodup
    obtain ⟨v, hv⟩ := ObjectTable.contains_eq_true.mp (hlive h List.mem_cons_self)
    have hone : s.table.Ages (s.letGo h).table [h] := by
      rw [letGo_live hv]
      exact ObjectTable.ages_remove hv
    refine hone.trans (ih hnodup.2 fun g hg => ?_)
    have hne : g ≠ h := fun heq => hnodup.1 (heq ▸ hg)
    rw [ObjectTable.contains, live?_letGo, if_neg hne]
    exact hlive g (List.mem_cons_of_mem h hg)

end Holdings

namespace Ledger
variable {Ω : Type} [ObjectModel Ω] {w : Ledger Ω}

/-! ## What an event does to the table -/

/-- The handles whose wrappers an event discards: they are live before it and not after. -/
def discarded (w : Ledger Ω) (e : Event Ω) : List Handle :=
  w.table.handles.filter fun h => !(w.step e).table.contains h

/-- The handles discarded by some events, one after another. -/
def discards (w : Ledger Ω) : List (Event Ω) → List Handle
  | [] => []
  | e :: es => w.discarded e ++ (w.step e).discards es

/-- What an event turns the table into, and which handles it discards. -/
inductive Turns (w : Ledger Ω) : Event Ω → List Handle → ObjectTable → Prop where
  | same (e : Event Ω) : Turns w e [] w.table
  | entered (p : Pointer) (owned : Bool) (flags : TypeFlags) :
    Turns w (.wrap p owned flags) [] (w.table.enter (.bound p owned flags))
  | promoted {h : Handle} {v : Wrapper} (p : Pointer) (owned : Bool) (flags : TypeFlags)
    (hv : w.table.live? h = some v) (hkey : v.key = (Wrapper.bound p owned flags).key)
    (hborrowed : v.ownership = .borrowed) (hstrong : p.weak = false) :
    Turns w (.wrap p owned flags) [] (w.table.setWrapper h v.promoted)
  | replaced {h : Handle} {v : Wrapper} (p : Pointer) (owned : Bool) (flags : TypeFlags)
    (hv : w.table.live? h = some v) (hkey : v.key = (Wrapper.bound p owned flags).key)
    (hborrowed : v.ownership = .borrowed) (hdead : w.heap.isAlive v.address = false) :
    Turns w (.wrap p owned flags) [h] ((w.table.remove h v).enter (.bound p owned flags))
  | released {h : Handle} {v : Wrapper} (hv : w.table.live? h = some v) :
    Turns w (.release h) [h] (w.table.remove h v)
  | taken {h : Handle} {v : Wrapper} (hv : w.table.live? h = some v)
    (htake : ∃ s, w.toHoldings.takeUnique h = .ok (v.address, s)) :
    Turns w (.takeUnique h) [h] (w.table.remove h v)
  | cleared : Turns w .clear w.table.handles (w.table.handles.foldl Holdings.letGo w.toHoldings).table

theorem turns_advance (hw : w.table.Sound) (e : Event Ω) : ∃ ds, w.Turns e ds (w.advance e).table := by
  cases e with
  | make | reuse | clone | drop | store => exact ⟨[], .same _⟩
  | unwrap c a =>
    have htable : (w.advance (.unwrap c a)).table = w.table := by
      have hcell := Holdings.takeCell_table w.toHoldings c a
      rw [advance]
      split
      · rename_i heq
        rwa [heq] at hcell
      · rename_i heq
        rwa [heq] at hcell
    rw [htable]
    exact ⟨[], .same _⟩
  | wrap p owned flags =>
    have hwraps := Holdings.wraps hw p owned flags
    rw [advance]
    generalize w.wrap p owned flags = r at hwraps ⊢
    cases hwraps with
    | fresh hnew => exact ⟨[], .entered p owned flags⟩
    | kept hv hkey halive hstrong => exact ⟨[], .same _⟩
    | promoted hv hkey halive hborrowed hstrong => exact ⟨[], .promoted p owned flags hv hkey hborrowed hstrong⟩
    | replaced hv hkey hdead hborrowed => exact ⟨_, .replaced p owned flags hv hkey hborrowed hdead⟩
  | release h =>
    cases hv : w.table.live? h with
    | none =>
      rw [advance, Holdings.letGo_dead hv]
      exact ⟨[], .same _⟩
    | some v =>
      rw [advance, Holdings.letGo_live hv]
      exact ⟨[h], .released hv⟩
  | takeUnique h =>
    rw [advance]
    split
    · rename_i a s heq
      obtain ⟨v, hv, -, -, -, rfl, rfl⟩ := Holdings.takeUnique_ok heq
      exact ⟨[h], .taken hv ⟨_, heq⟩⟩
    · exact ⟨[], .same _⟩
  | clear =>
    rw [advance, Holdings.clear_eq hw]
    exact ⟨_, .cleared⟩

theorem turns (hw : w.table.Sound) (e : Event Ω) : ∃ ds, w.Turns e ds (w.step e).table := by
  rw [step]
  split
  · exact turns_advance hw e
  · exact ⟨[], .same e⟩

/-- What becomes of a live wrapper in an event: `some` wrapper, or it is discarded. -/
inductive Fate (w : Ledger Ω) (h : Handle) (v : Wrapper) : Event Ω → Option Wrapper → Prop where
  | kept (e : Event Ω) : Fate w h v e (some v)
  /-- The object of a borrowed wrapper arrives with a strong reference. -/
  | promoted (p : Pointer) (owned : Bool) (flags : TypeFlags) (hkey : v.key = (Wrapper.bound p owned flags).key)
    (hborrowed : v.ownership = .borrowed) (hstrong : p.weak = false) :
    Fate w h v (.wrap p owned flags) (some v.promoted)
  /-- The object of a borrowed wrapper is dead, and a pointer is wrapped under its key. -/
  | replaced (p : Pointer) (owned : Bool) (flags : TypeFlags) (hkey : v.key = (Wrapper.bound p owned flags).key)
    (hborrowed : v.ownership = .borrowed) (hdead : w.heap.isAlive v.address = false) :
    Fate w h v (.wrap p owned flags) none
  | released : Fate w h v (.release h) none
  | taken (htake : ∃ s, w.toHoldings.takeUnique h = .ok (v.address, s)) : Fate w h v (.takeUnique h) none
  | cleared : Fate w h v .clear none

theorem ne_of_live {t : ObjectTable} {g h : Handle} {v : Wrapper} (hg : t.live? g = none) (hh : t.live? h = some v) :
    h ≠ g := by
  rintro rfl
  rw [hg] at hh
  cases hh

theorem fate_remove {e : Event Ω} {g h : Handle} {u v : Wrapper} (hu : w.table.live? g = some u)
    (hlive : w.table.live? h = some v) (hgone : h = g → v = u → Fate w h v e none) :
    Fate w h v e ((w.table.remove g u).live? h) ∧ (h ∈ [g] ↔ (w.table.remove g u).live? h = none) := by
  rw [ObjectTable.live?_remove hu]
  by_cases hg : h = g
  · rw [if_pos hg]
    have hsame : v = u := by
      rw [hg, hu, Option.some.injEq] at hlive
      exact hlive.symm
    exact ⟨hgone hg hsame, by simp [hg]⟩
  · rw [if_neg hg, hlive]
    exact ⟨.kept _, by simp [hg]⟩

section
variable {e : Event Ω} {ds : List Handle} {t : ObjectTable} (ht : w.Turns e ds t)
include ht

theorem Turns.nodup : ds.Nodup := by
  cases ht with
  | cleared => exact ObjectTable.nodup_handles _
  | same | entered | promoted => exact .nil
  | replaced | released | taken => exact List.nodup_singleton _

theorem Turns.mem {h : Handle} (hh : h ∈ ds) : ∃ v, w.table.live? h = some v := by
  cases ht with
  | cleared => exact ObjectTable.mem_handles.mp hh
  | same | entered | promoted => cases hh
  | replaced p owned flags hv | released hv | taken hv htake =>
    rw [List.mem_singleton.mp hh]
    exact ⟨_, hv⟩

variable (hw : w.table.Sound)
include hw

theorem Turns.ages : w.table.Ages t ds := by
  cases ht with
  | same => exact ObjectTable.ages_refl _
  | entered p owned flags => exact hw.ages_enter _
  | promoted p owned flags hv => exact ObjectTable.ages_setWrapper hv _
  | replaced p owned flags hv => exact (ObjectTable.ages_remove hv).trans ((hw.remove hv).ages_enter _)
  | released hv | taken hv => exact ObjectTable.ages_remove hv
  | cleared =>
    exact Holdings.ages_letGo_all (ObjectTable.nodup_handles _)
      fun h hh => ObjectTable.contains_eq_true.mpr (ObjectTable.mem_handles.mp hh)

/-- **A live wrapper stays, is promoted or is discarded**, and it is discarded if its handle is listed. -/
theorem Turns.fate {h : Handle} {v : Wrapper} (hlive : w.table.live? h = some v) :
    Fate w h v e (t.live? h) ∧ (h ∈ ds ↔ t.live? h = none) := by
  cases ht with
  | same =>
    rw [hlive]
    exact ⟨.kept _, by simp⟩
  | entered p owned flags =>
    rw [hw.live?_enter, if_neg (ne_of_live (hw.live?_allocate _) hlive), hlive]
    exact ⟨.kept _, by simp⟩
  | @promoted g u p owned flags hu hkey hborrowed hstrong =>
    rw [ObjectTable.live?_setWrapper hu]
    by_cases hg : h = g
    · rw [if_pos hg]
      rw [hg, hu, Option.some.injEq] at hlive
      subst hlive
      exact ⟨.promoted p owned flags hkey hborrowed hstrong, by simp⟩
    · rw [if_neg hg, hlive]
      exact ⟨.kept _, by simp⟩
  | @replaced g u p owned flags hu hkey hborrowed hdead =>
    have hsound := hw.remove hu
    rw [hsound.live?_enter, ObjectTable.live?_remove hu]
    by_cases hg : h = g
    -- the new wrapper may be in the same slot, but the slot's generation is another one
    · rw [if_neg (hg ▸ (hw.allocate_ne hu _).symm), if_pos hg]
      rw [hg, hu, Option.some.injEq] at hlive
      subst hlive
      exact ⟨.replaced p owned flags hkey hborrowed hdead, by simp [hg]⟩
    · have hremove : (w.table.remove g u).live? h = some v := by
        rw [ObjectTable.live?_remove hu, if_neg hg, hlive]
      rw [if_neg (ne_of_live (hsound.live?_allocate _) hremove), if_neg hg, hlive]
      exact ⟨.kept _, by simp [hg]⟩
  | released hu => exact fate_remove hu hlive fun hg _ => hg ▸ .released
  | taken hu htake => exact fate_remove hu hlive fun hg hv => hg ▸ .taken (hg ▸ hv ▸ htake)
  | cleared =>
    rw [Holdings.live?_letGo_handles]
    exact ⟨.cleared, by simp [ObjectTable.mem_handles, hlive]⟩

end

theorem fate (hw : w.table.Sound) {h : Handle} {v : Wrapper} (hlive : w.table.live? h = some v) (e : Event Ω) :
    Fate w h v e ((w.step e).table.live? h) := by
  obtain ⟨ds, ht⟩ := turns hw e
  exact (ht.fate hw hlive).1

/-! ## Discards along a run -/

theorem mem_discarded {e : Event Ω} {h : Handle} :
    h ∈ w.discarded e ↔ (∃ v, w.table.live? h = some v) ∧ (w.step e).table.live? h = none := by
  rw [discarded, List.mem_filter, ObjectTable.mem_handles, Bool.not_eq_true', ObjectTable.contains,
    Option.isSome_eq_false_iff, Option.isNone_iff_eq_none]

/-- The discarded handles are those whose slots an event ages. -/
theorem ages_step (hw : w.table.Sound) (e : Event Ω) : w.table.Ages (w.step e).table (w.discarded e) := by
  obtain ⟨ds, ht⟩ := turns hw e
  have hnodup : (w.discarded e).Nodup := (ObjectTable.nodup_handles _).filter _
  -- what `Turns` lists is what is gone after the event, up to the order
  have hperm : (w.discarded e).Perm ds := by
    refine (List.perm_ext_iff_of_nodup hnodup ht.nodup).mpr fun h => ?_
    rw [mem_discarded]
    constructor
    · rintro ⟨⟨v, hv⟩, hnone⟩
      exact (ht.fate hw hv).2.mpr hnone
    · intro hh
      obtain ⟨v, hv⟩ := ht.mem hh
      exact ⟨⟨v, hv⟩, (ht.fate hw hv).2.mp hh⟩
  intro i slot hslot
  rw [hperm.countP_eq]
  exact ht.ages hw i slot hslot

theorem ages_after (hw : w.Balanced) (es : List (Event Ω)) : w.table.Ages (w.after es).table (w.discards es) := by
  induction es generalizing w with
  | nil => exact ObjectTable.ages_refl _
  | cons e es ih => exact (ages_step hw.sound e).trans (ih (hw.step e))

theorem after_append (w : Ledger Ω) (es es' : List (Event Ω)) : w.after (es ++ es') = (w.after es).after es' :=
  List.foldl_append

theorem discards_append (w : Ledger Ω) (es es' : List (Event Ω)) :
    w.discards (es ++ es') = w.discards es ++ (w.after es).discards es' := by
  induction es generalizing w with
  | nil => rfl
  | cons e es ih =>
    rw [List.cons_append, discards, ih, discards, List.append_assoc]
    rfl

theorem Fate.continues {h : Handle} {v v' : Wrapper} {e : Event Ω} (hf : Fate w h v e (some v')) : v'.Continues v := by
  cases hf with
  | kept => exact .refl v
  | promoted p owned flags hkey hborrowed hstrong =>
    exact ⟨rfl, rfl, Wrapper.isConst_promoted v, .inr ⟨hborrowed, rfl⟩⟩

/-- **A wrapper lives until it is discarded**, and goes on for the same object. -/
theorem live_after (hw : w.Balanced) {h : Handle} {v : Wrapper} (hlive : w.table.live? h = some v)
    {es : List (Event Ω)} (hnot : h ∉ w.discards es) :
    ∃ v', (w.after es).table.live? h = some v' ∧ v'.Continues v := by
  induction es generalizing w v with
  | nil => exact ⟨v, hlive, .refl v⟩
  | cons e es ih =>
    rw [discards, List.mem_append, not_or] at hnot
    have hfate := fate hw.sound hlive e
    cases hv : (w.step e).table.live? h with
    | none => exact absurd (mem_discarded.mpr ⟨⟨v, hlive⟩, hv⟩) hnot.1
    | some u =>
      rw [hv] at hfate
      obtain ⟨v', hv', hcontinues⟩ := ih (hw.step e) hv hnot.2
      exact ⟨v', hv', hcontinues.trans hfate.continues⟩

/-- **A handle is live again** when its slot is occupied after a multiple of 2^32 discards. -/
theorem contains_after (hw : w.Balanced) {h : Handle} {v : Wrapper} (hlive : w.table.live? h = some v)
    (es : List (Event Ω)) :
    (w.after es).table.contains h = true ↔ (∃ g u, (w.after es).table.slots[h.index]? = some ⟨g, some u⟩) ∧
      UInt32.size ∣ (w.discards es).countP (·.index = h.index) := by
  obtain ⟨slot, hslot, hgen⟩ := ages_after hw es _ _ (ObjectTable.live?_eq_some.mp hlive)
  rw [ObjectTable.contains_eq_true, ← add_ofNat_eq_self h.generation, ← hgen]
  constructor
  · rintro ⟨u, hu⟩
    have hu := ObjectTable.live?_eq_some.mp hu
    refine ⟨⟨_, u, hu⟩, ?_⟩
    rw [hslot, Option.some.injEq] at hu
    rw [hu]
  · rintro ⟨⟨g, u, hu⟩, heq⟩
    refine ⟨u, ObjectTable.live?_eq_some.mpr ?_⟩
    rw [hslot, Option.some.injEq] at hu
    rw [hslot, ← heq, hu]

/-! ## Dead handles -/

/-- A dead handle can be used for nothing, and using it changes nothing. -/
structure Dead (w : Ledger Ω) (h : Handle) : Prop where
  get : w.table.get h = .error (.useAfterFree h)
  cell : w.cell h = .error (.useAfterFree h)
  release : w.toHoldings.release h = .error (.useAfterFree h)
  uniqueCell : w.uniqueCell h = .error (.useAfterFree h)
  takeUnique : w.toHoldings.takeUnique h = .error (.useAfterFree h)
  step_release : w.step (.release h) = w
  step_takeUnique : w.step (.takeUnique h) = w

theorem dead {h : Handle} (hnone : w.table.live? h = none) : w.Dead h := by
  have hget : w.table.get h = .error (.useAfterFree h) := by rw [ObjectTable.get, hnone]
  have hunique : w.uniqueCell h = .error (.useAfterFree h) := by
    rw [Holdings.uniqueCell, hget]
    rfl
  have htake : w.toHoldings.takeUnique h = .error (.useAfterFree h) := by
    rw [Holdings.takeUnique, hunique]
    rfl
  refine ⟨hget, ?_, Holdings.release_dead hnone, hunique, htake, ?_, ?_⟩
  · rw [Holdings.cell, hget]
    rfl
  · change { w with toHoldings := w.letGo h } = w
    rw [Holdings.letGo_dead hnone]
  · change w.advance (.takeUnique h) = w
    rw [advance, htake]

/-! ## Handles given out -/

/-- An operation on the object at `a`: wrapping a pointer to it, releasing one of its wrappers or moving it out, or
clearing the table. -/
def ActsOn (w : Ledger Ω) (a : Address) : Event Ω → Prop
  | .wrap p _ _ => p.address = a
  | .release h | .takeUnique h => ∃ v, w.table.live? h = some v ∧ v.address = a
  | .clear => True
  | _ => False

/-- What ends the life of a handle `h` with the wrapper `v`: its release, its object being moved out, a clearing of the
table, or a wrap under its key when it is borrowed and its object is dead. -/
def Ends (w : Ledger Ω) (h : Handle) (v : Wrapper) : Event Ω → Prop
  | .release g => g = h
  | .takeUnique g => g = h ∧ ∃ s, w.toHoldings.takeUnique h = .ok (v.address, s)
  | .clear => True
  | .wrap p owned flags => w.enabled (.wrap p owned flags) = true ∧ v.ownership = .borrowed ∧
      w.heap.isAlive v.address = false ∧ v.key = (Wrapper.bound p owned flags).key
  | _ => False

/-- Wrapping the pointer makes a wrapper, for which the handle is given out. -/
structure Issues (w : Ledger Ω) (p : Pointer) (owned : Bool) (flags : TypeFlags) (h : Handle) : Prop where
  enabled : w.enabled (.wrap p owned flags) = true
  handle : (w.wrap p owned flags).1 = h
  new : w.table.live? h = none

/-- What it means that a handle names one object for its whole life and is dead afterwards, where `w` is the ledger when
it is given out and `first` its wrapper then. -/
structure NamesOne (w : Ledger Ω) (h : Handle) (first : Wrapper) : Prop where
  issued : w.table.get h = .ok first
  /-- As long as it is not discarded, its wrapper is for the same object, whose ownership changes at most once. -/
  same : ∀ es es', h ∉ w.discards (es ++ es') → ∃ v v', (w.after es).table.get h = .ok v ∧ v.Continues first ∧
    (w.after (es ++ es')).table.get h = .ok v' ∧ v'.Continues v
  /-- Operations on other objects leave the wrapper alone. -/
  others : ∀ es v e, (w.after es).table.get h = .ok v → ¬ (w.after es).ActsOn v.address e →
    ((w.after es).step e).table.get h = .ok v
  /-- The operations that discard it are those that end its life. -/
  ends : ∀ es v e, (w.after es).table.get h = .ok v → (h ∈ (w.after es).discarded e ↔ (w.after es).Ends h v e)
  /-- It is dead right after them. -/
  ended : ∀ es v e, (w.after es).table.get h = .ok v → (w.after es).Ends h v e → ((w.after es).step e).Dead h
  /-- The handle is live again when its slot has come round. -/
  later : ∀ es, (w.after es).table.contains h = true ↔
    (∃ g v, (w.after es).table.slots[h.index]? = some ⟨g, some v⟩) ∧
      UInt32.size ∣ (w.discards es).countP (·.index = h.index)
  dead : ∀ es, (w.after es).table.contains h = false → (w.after es).Dead h

theorem Fate.others {h : Handle} {v : Wrapper} {e : Event Ω} {r : Option Wrapper} (hf : Fate w h v e r)
    (hlive : w.table.live? h = some v) (hnot : ¬ w.ActsOn v.address e) : r = some v := by
  cases hf with
  | kept => rfl
  | promoted p owned flags hkey => exact absurd (congrArg IdentityKey.address hkey).symm hnot
  | replaced p owned flags hkey => exact absurd (congrArg IdentityKey.address hkey).symm hnot
  | released | taken => exact absurd ⟨v, hlive, rfl⟩ hnot
  | cleared => exact absurd trivial hnot

theorem step_disabled {e : Event Ω} (h : ¬ w.enabled e = true) : w.step e = w := by
  rw [step, if_neg h]

/-- What ends the life of a handle leaves it dead. -/
theorem Ends.gone (hw : w.table.Sound) {h : Handle} {v : Wrapper} {e : Event Ω} (hlive : w.table.live? h = some v)
    (hends : w.Ends h v e) : (w.step e).table.live? h = none := by
  cases e with
  | make | reuse | clone | drop | store | unwrap => exact hends.elim
  | wrap p owned flags =>
    obtain ⟨henabled, hborrowed, hdead, hkey⟩ := hends
    rw [step, if_pos henabled, advance]
    have hwraps := Holdings.wraps hw p owned flags
    generalize w.wrap p owned flags = r at hwraps ⊢
    -- the wrapper that is found under the key is the one of the handle
    have hfound {g : Handle} {u : Wrapper} (hu : w.table.live? g = some u)
        (hkey' : u.key = (Wrapper.bound p owned flags).key) : g = h ∧ u = v := by
      obtain rfl := hw.eq_of_key hu hlive (hkey'.trans hkey.symm)
      rw [hu, Option.some.injEq] at hlive
      exact ⟨rfl, hlive⟩
    cases hwraps with
    | fresh hnew =>
      have hlookup := (hw.lookup _ _).mpr ⟨v, hlive, hkey⟩
      rw [hnew] at hlookup
      cases hlookup
    | kept hu hkey' halive =>
      obtain ⟨rfl, rfl⟩ := hfound hu hkey'
      rw [Wrapper.isAlive, hborrowed, hdead] at halive
      cases halive
    | promoted hu hkey' halive =>
      obtain ⟨rfl, rfl⟩ := hfound hu hkey'
      rw [hdead] at halive
      cases halive
    | replaced hu hkey' =>
      obtain ⟨rfl, rfl⟩ := hfound hu hkey'
      change ((w.table.remove _ _).enter _).live? _ = none
      rw [(hw.remove hu).live?_enter, if_neg (hw.allocate_ne hu _).symm, ObjectTable.live?_remove hu, if_pos rfl]
  | release g =>
    obtain rfl : g = h := hends
    change (w.letGo g).table.live? g = none
    rw [Holdings.live?_letGo, if_pos rfl]
  | takeUnique g =>
    obtain ⟨rfl, s, htake⟩ := hends
    obtain ⟨u, hu, -, -, -, -, rfl⟩ := Holdings.takeUnique_ok htake
    change (w.advance (.takeUnique g)).table.live? g = none
    rw [advance, htake]
    exact (ObjectTable.live?_remove hu g).trans (if_pos rfl)
  | clear =>
    change w.toHoldings.clear.table.live? h = none
    rw [Holdings.clear_eq hw]
    exact Holdings.live?_letGo_handles _ h

/-- **A live handle is discarded by what ends its life, and by nothing else.** -/
theorem mem_discarded_iff (hw : w.table.Sound) {h : Handle} {v : Wrapper} {e : Event Ω}
    (hlive : w.table.live? h = some v) : h ∈ w.discarded e ↔ w.Ends h v e := by
  rw [mem_discarded]
  constructor
  · rintro ⟨-, hnone⟩
    have henabled : w.enabled e = true := by
      by_contra hnot
      rw [step_disabled hnot, hlive] at hnone
      cases hnone
    have hfate := fate hw hlive e
    rw [hnone] at hfate
    cases hfate with
    | replaced p owned flags hkey hborrowed hdead => exact ⟨henabled, hborrowed, hdead, hkey⟩
    | released => exact rfl
    | taken htake => exact ⟨rfl, htake⟩
    | cleared => exact trivial
  · intro hends
    exact ⟨⟨v, hlive⟩, hends.gone hw hlive⟩

/-- A live wrapper's handle names one object from then on. -/
theorem Balanced.namesOne (hw : w.Balanced) {h : Handle} {first : Wrapper} (hlive : w.table.live? h = some first) :
    w.NamesOne h first where
  issued := ObjectTable.get_eq_ok.mpr hlive
  same es es' hnot := by
    rw [discards_append, List.mem_append, not_or] at hnot
    obtain ⟨v, hv, hcontinues⟩ := live_after hw hlive hnot.1
    obtain ⟨v', hv', hcontinues'⟩ := live_after (hw.after es) hv hnot.2
    rw [after_append]
    exact ⟨v, v', ObjectTable.get_eq_ok.mpr hv, hcontinues, ObjectTable.get_eq_ok.mpr hv', hcontinues'⟩
  others es v e hv hnot := by
    have hlive := ObjectTable.get_eq_ok.mp hv
    exact ObjectTable.get_eq_ok.mpr ((fate (hw.after es).sound hlive e).others hlive hnot)
  ends es v e hv := mem_discarded_iff (hw.after es).sound (ObjectTable.get_eq_ok.mp hv)
  ended es v e hv hends := Ledger.dead (hends.gone (hw.after es).sound (ObjectTable.get_eq_ok.mp hv))
  later es := contains_after hw hlive es
  dead es hnone := Ledger.dead (by rwa [ObjectTable.contains, Option.isSome_eq_false_iff, Option.isNone_iff_eq_none] at hnone)

/-- A wrap that gives out a new handle binds it to a new wrapper for the pointer. -/
theorem Issues.live (hw : w.table.Sound) {p : Pointer} {owned : Bool} {flags : TypeFlags} {h : Handle}
    (hissued : w.Issues p owned flags h) :
    (w.step (.wrap p owned flags)).table.live? h = some (.bound p owned flags) := by
  obtain ⟨henabled, rfl, hnew⟩ := hissued
  rw [step, if_pos henabled, advance]
  have hwraps := Holdings.wraps hw p owned flags
  generalize w.wrap p owned flags = r at hwraps hnew ⊢
  cases hwraps with
  | fresh => exact (hw.live?_enter _ _).trans (if_pos rfl)
  | kept hv | promoted hv =>
    rw [hv] at hnew
    cases hnew
  | replaced hv => exact ((hw.remove hv).live?_enter _ _).trans (if_pos rfl)

/-- **A handle names one object for its whole life and is dead afterwards**: from the wrap that gives it out until it is
discarded it is bound to a wrapper of the same class, object and constness, which may at most change once from borrowed
to shared; its release, its object being moved out, a clearing and a wrap in its place once its borrowed object is dead
each discard it, and nothing else does; afterwards it is live exactly if its slot is occupied and has been discarded a
multiple of 2^32 times; and while it is not live, every use of it fails and changes nothing. -/
theorem issued_names_one (es : List (Event Ω)) (p : Pointer) (owned : Bool) (flags : TypeFlags) (h : Handle)
    (hissued : (run es).Issues p owned flags h) :
    ((run es).step (.wrap p owned flags)).NamesOne h (.bound p owned flags) :=
  ((balanced_run es).step _).namesOne (hissued.live (balanced_run es).sound)

/-- A new node is wrapped for the first time; when its handle has been released, it is dead. -/
theorem new_node_names_one :
    let w : Ledger Catalog.Specimen := run [.make (.node "a")]
    let p : Pointer := ⟨Catalog.Species.node.cls, 0, false⟩
    w.Issues p true .none ⟨0, 0⟩ ∧ ((w.step (.wrap p true .none)).step (.release ⟨0, 0⟩)).Dead ⟨0, 0⟩ := by
  have hissued : (run [.make (.node "a")] : Ledger Catalog.Specimen).Issues ⟨Catalog.Species.node.cls, 0, false⟩ true
      .none ⟨0, 0⟩ := ⟨rfl, rfl, rfl⟩
  have hnames := issued_names_one _ _ _ _ _ hissued
  exact ⟨hissued, hnames.ended [] _ (.release ⟨0, 0⟩) hnames.issued rfl⟩

end Ledger
end NativeBridge
