import NativeBridge.Proofs.Object.Ledger
import NativeBridge.Proofs.Object.Undisturbed
/-!
# Runs of typed native code

A pointer of typed native code carries the class of its object, and a write puts an object of the same class into a
cell. In every state that such code reaches (`Ledger.typedRun`) the holdings are coherent (`Holdings.Coherent`): the
parts of the table agree, each wrapper is recorded under the class of its object, and every strong count is right.
Moving an object out keeps them so (`Holdings.Coherent.moveOut`).
-/
namespace NativeBridge
variable {Ω : Type} [ObjectModel Ω]

namespace Heap
variable {h h' : Heap Ω} {a : Address}

omit [ObjectModel Ω] in
theorem contents_vacate (h : Heap Ω) (a : Address) : (h.vacate a).contents = h.contents :=
  contents_modify h a fun _ => rfl

theorem classAt?_of_contents (hcontents : h'.contents = h.contents) (a : Address) : h'.classAt? a = h.classAt? a := by
  rw [classAt?_eq_contents, classAt?_eq_contents, hcontents]

theorem classAt?_set {c : Cell Ω} (hc : h.cells[a]? = some c) (d : Cell Ω) (b : Address) :
    (Heap.mk (h.cells.set a d)).classAt? b =
      if b = a then some (ObjectModel.classOf d.object) else h.classAt? b := by
  obtain ⟨hlt, -⟩ := List.getElem?_eq_some_iff.mp hc
  unfold classAt?
  rw [List.getElem?_set]
  by_cases hb : a = b
  · rw [if_pos hb, if_pos hlt, if_pos hb.symm]
    rfl
  · rw [if_neg hb, if_neg (Ne.symm hb)]

theorem classAt?_store {o : Ω} (ho : h.classAt? a = some (ObjectModel.classOf o)) (b : Address) :
    (h.store a o).classAt? b = h.classAt? b := by
  unfold store
  split
  · rename_i c hc
    have hretained := contents_retain h (ObjectModel.refs o)
    have hcell := retain_cell hc (ObjectModel.refs o)
    rw [classAt?_of_contents (contents_release _ _), modify_eq hcell, classAt?_set hcell]
    split
    · rename_i hb
      rw [hb, ho]
    · exact classAt?_of_contents hretained b
  · rfl

omit [ObjectModel Ω] in
theorem strong_vacate (h : Heap Ω) (a b : Address) : (h.vacate a).strong b = if b = a then 0 else h.strong b := by
  unfold vacate strong
  by_cases hb : b = a
  · rw [if_pos hb, hb, modify, List.getElem?_modify_eq]
    cases h.cells[a]? <;> rfl
  · rw [if_neg hb, modify_other h _ (Ne.symm hb)]

/-- A reference that is counted and given up again leaves no trace. -/
theorem release_retain (halive : 0 < h.strong a) : (h.retain [a]).release [a] = h := by
  obtain ⟨c, hc, hstrong⟩ := cell_of_strong halive
  have hcell := retain_cell hc [a]
  rw [List.count_singleton_self] at hcell
  rw [release_cons hcell (n := c.strong) rfl, if_neg (by omega), List.append_nil, release_nil]
  change Heap.mk ((h.modify a fun c => { c with strong := c.strong + 1 }).cells.set a c) = h
  rw [modify_eq hc, List.set_set]
  obtain ⟨hlt, hget⟩ := List.getElem?_eq_some_iff.mp hc
  rw [← hget, List.set_getElem_self]

end Heap

namespace Holdings
variable {s s' : Holdings Ω} {xs : List Address} {h : Handle} {v : Wrapper}

/-- The parts of the table agree, the wrappers are typed, and every strong count is right. -/
structure Coherent (s : Holdings Ω) : Prop extends s.Ready where
  counts : ∃ xs, s.Counts xs

/-- The holdings without a wrapper and the object that it alone kept. -/
def moveOut (s : Holdings Ω) (h : Handle) (v : Wrapper) : Holdings Ω :=
  { table := s.table.remove h v, heap := s.heap.vacate v.address }

theorem Ready.kept (hs : s.Ready) (hcontents : s.heap.contents <+: s'.heap.contents) (htable : s'.table = s.table) :
    s'.Ready :=
  (Undisturbed.of_table hcontents htable).ready hs

theorem Ready.fewer (hs : s.Ready) (hsound : s'.table.Sound)
    (hlive : ∀ g w, s'.table.live? g = some w → s.table.live? g = some w)
    (hclass : ∀ a, s'.heap.classAt? a = s.heap.classAt? a) : s'.Ready where
  sound := hsound
  typed g w hw := (hclass w.address).trans (hs.typed g w (hlive g w hw))

theorem Ready.remove (hs : s.Ready) (hv : s.table.live? h = some v) {heap : Heap Ω}
    (hcontents : heap.contents = s.heap.contents) : Ready { table := s.table.remove h v, heap } := by
  refine hs.fewer (hs.sound.remove hv) (fun g w hw => ?_) (Heap.classAt?_of_contents hcontents)
  rw [ObjectTable.live?_remove hv] at hw
  split at hw
  · cases hw
  · exact hw

theorem Ready.letGo (hs : s.Ready) (h : Handle) : (s.letGo h).Ready := by
  cases hv : s.table.live? h with
  | none => rwa [letGo_dead hv]
  | some v =>
    rw [letGo_live hv]
    exact hs.remove hv (Heap.contents_release _ _)

theorem Ready.letGo_all (hs : s.Ready) (gs : List Handle) : (gs.foldl Holdings.letGo s).Ready := by
  induction gs generalizing s with
  | nil => exact hs
  | cons g gs ih => exact ih (hs.letGo g)

theorem contents_takeCell (s : Holdings Ω) (c : Class) (a : Address) :
    (s.takeCell c a).2.heap.contents = s.heap.contents := by
  unfold takeCell
  split
  · rfl
  split
  · exact Heap.contents_release _ _
  split
  · exact Heap.contents_vacate _ _
  · exact Heap.contents_release _ _

/-- **Moving an object out keeps the holdings coherent**: its references pass to whoever has it now. -/
theorem Coherent.moveOut (hs : s.Coherent) (hv : s.table.live? h = some v) (hstrong : v.ownership.isStrong = true)
    (hsole : s.heap.strong v.address = 1) : (s.moveOut h v).Coherent where
  toReady := hs.remove hv (Heap.contents_vacate _ _)
  counts := by
    obtain ⟨xs, hx⟩ := hs.counts
    obtain ⟨cell, hcell, hcount⟩ := Heap.cell_of_strong (by omega : 0 < s.heap.strong v.address)
    have hmoved : s.heap.Counts (xs ++ (s.table.remove h v).refs ++ [v.address]) := hx.perm fun b => by
      have hremove := ObjectTable.count_refs_remove hv b
      rw [Wrapper.refs_of_isStrong hstrong] at hremove
      simp only [List.count_append]
      omega
    refine ⟨xs ++ ObjectModel.refs cell.object, (hmoved.vacate hcell (hcount.trans hsole)).perm fun b => ?_⟩
    simp only [Holdings.moveOut, List.count_append]
    omega

/-- An object that is solely held by a wrapper has no other strong wrapper. -/
theorem Coherent.sole (hs : s.Coherent) (hv : s.table.live? h = some v) (hstrong : v.ownership.isStrong = true)
    (hsole : s.heap.strong v.address = 1) {g : Handle} {w : Wrapper} (hw : s.table.live? g = some w) (hne : g ≠ h)
    (haddress : w.address = v.address) : w.ownership = .borrowed := by
  obtain ⟨xs, hx⟩ := hs.counts
  have hcount := hx v.address
  have hone : (s.table.holders v.address).length ≤ 1 := by
    rw [List.count_append, ← ObjectTable.length_holders, hsole] at hcount
    omega
  -- two strong wrappers would be two holders
  refine Wrapper.eq_borrowed (Bool.eq_false_iff.mpr fun hw' => ?_)
  have hnodup : [g, h].Nodup := by simpa using hne
  have hsub : [g, h] ⊆ s.table.holders v.address := by
    simp only [List.cons_subset, List.nil_subset, and_true]
    exact ⟨ObjectTable.mem_holders.mpr ⟨w, hw, hw', haddress⟩, ObjectTable.mem_holders.mpr ⟨v, hv, hstrong, rfl⟩⟩
  have htwo := (hnodup.subperm hsub).length_le
  rw [List.length_cons, List.length_singleton] at htwo
  omega

end Holdings

/-! ## Typed runs -/

namespace Ledger
variable {w : Ledger Ω}

/-- A pointer carries the class of its object, and an object is replaced by one of its class. -/
def suits (w : Ledger Ω) : Event Ω → Bool
  | .store a o => w.heap.classAt? a = some (ObjectModel.classOf o)
  | .wrap p _ _ => w.heap.classAt? p.address = some p.cls
  | _ => true

/-- One step of typed native code: what is not typed does not happen. -/
def typedStep (w : Ledger Ω) (e : Event Ω) : Ledger Ω :=
  if w.suits e then w.step e else w

/-- The ledger that some events of typed native code lead to from the empty one. -/
def typedRun (es : List (Event Ω)) : Ledger Ω :=
  es.foldl typedStep empty

theorem ready_advance (hw : w.Ready) {e : Event Ω} (he : w.enabled e = true) (hsuits : w.suits e = true) :
    (w.advance e).Ready := by
  cases e with
  | make o => exact hw.kept (by rw [Ledger.advance, Heap.contents_alloc]; exact List.prefix_append _ _) rfl
  | reuse a o =>
    simp only [enabled, Bool.and_eq_true, decide_eq_true_eq, Bool.not_eq_true', List.all_eq_true] at he
    obtain ⟨⟨⟨-, hlt⟩, -⟩, hfree⟩ := he
    refine ⟨hw.sound, fun g v hv => ?_⟩
    have hne : v.address ≠ a := by
      have hg := hfree g (ObjectTable.mem_handles.mpr ⟨v, hv⟩)
      rw [show w.table.live? g = some v from hv] at hg
      exact of_decide_eq_true hg
    rw [Ledger.advance, Heap.classAt?_set (List.getElem?_eq_getElem hlt), if_neg hne]
    exact hw.typed g v hv
  | clone a => exact hw.kept (Heap.contents_retain w.heap [a] ▸ List.prefix_rfl) rfl
  | drop a => exact hw.kept (Heap.contents_release w.heap [a] ▸ List.prefix_rfl) rfl
  | store a o => exact hw.fewer hw.sound (fun _ _ hv => hv) (Heap.classAt?_store (of_decide_eq_true hsuits))
  | unwrap c a =>
    have hcell : (w.takeCell c a).2.Ready :=
      hw.kept (Holdings.contents_takeCell w.toHoldings c a ▸ List.prefix_rfl) (Holdings.takeCell_table w.toHoldings c a)
    rw [Ledger.advance]
    split
    · rename_i heq
      rwa [heq] at hcell
    · rename_i heq
      rwa [heq] at hcell
  | wrap p owned flags => exact (hw.wrap (of_decide_eq_true hsuits) owned flags).ready hw
  | release h => exact hw.letGo h
  | takeUnique h =>
    rw [Ledger.advance]
    split
    · rename_i a s heq
      obtain ⟨v, hv, -, -, -, -, rfl⟩ := Holdings.takeUnique_ok heq
      exact hw.remove hv ((Heap.contents_release _ _).trans (Heap.contents_retain _ _))
    · exact hw
  | clear =>
    rw [Ledger.advance, Holdings.clear_eq hw.sound]
    exact hw.letGo_all _

theorem ready_typedStep (hw : w.Ready) (e : Event Ω) : (w.typedStep e).Ready := by
  rw [typedStep, step]
  split
  · rename_i hsuits
    split
    · rename_i he
      exact ready_advance hw he hsuits
    · exact hw
  · exact hw

theorem balanced_typedStep (hw : w.Balanced) (e : Event Ω) : (w.typedStep e).Balanced := by
  rw [typedStep]
  split
  · exact hw.step e
  · exact hw

/-- **Every state of typed native code is coherent.** -/
theorem coherent_typedRun (es : List (Event Ω)) : (typedRun es).Coherent := by
  have hrun : ∀ w : Ledger Ω, w.Ready → w.Balanced → (es.foldl typedStep w).Coherent := by
    induction es with
    | nil => exact fun w hready hbalanced => ⟨hready, w.held, hbalanced.counts⟩
    | cons e es ih => exact fun w hready hbalanced => ih _ (ready_typedStep hready e) (balanced_typedStep hbalanced e)
  exact hrun empty Holdings.ready_empty balanced_empty

end Ledger
end NativeBridge
