import Mathlib.Data.List.Basic
import NativeBridge.Object.Heap
/-!
# Counting references

The references to an object are the ones held outside the heap and those held by living objects. `Heap.Counts xs` says
that the count of every cell is right when `xs` lists the ones outside. Each operation on the heap keeps the counts right
for the list it should: a reference counted joins the list, one given up leaves it, and what an object holds is passed on
when the object is put into a cell, is moved out or dies (`Counts.release`).
-/
namespace NativeBridge

/-- Replacing one element replaces its share of a concatenation. -/
theorem count_flatMap_set {α : Type} (f : α → List Address) (a : Address) (d : α) :
    ∀ {l : List α} {i : Nat} {c : α}, l[i]? = some c →
      ((l.set i d).flatMap f).count a + (f c).count a = (l.flatMap f).count a + (f d).count a
  | [], _, _, h => by simp at h
  | e :: l, 0, c, h => by
    rw [List.getElem?_cons_zero, Option.some.injEq] at h
    subst h
    simp only [List.set_cons_zero, List.flatMap_cons, List.count_append]
    omega
  | e :: l, i + 1, c, h => by
    have ih := count_flatMap_set f a d (l := l) (i := i) h
    simp only [List.set_cons_succ, List.flatMap_cons, List.count_append]
    omega

theorem count_cons_address (a : Address) (as : List Address) (b : Address) :
    (a :: as).count b = as.count b + if b = a then 1 else 0 := by
  simp only [List.count_cons, beq_iff_eq, eq_comm (a := b)]

variable {Ω : Type} [ObjectModel Ω]

/-- The references that the object in a cell holds, as long as it is alive. -/
def Cell.refs (c : Cell Ω) : List Address :=
  if 0 < c.strong then ObjectModel.refs c.object else []

namespace Heap

/-- The references that living objects hold. -/
def refs (h : Heap Ω) : List Address :=
  h.cells.flatMap Cell.refs

/-- Every strong count is right, where `xs` are the references held outside the heap. -/
def Counts (h : Heap Ω) (xs : List Address) : Prop :=
  ∀ a, h.strong a = xs.count a + h.refs.count a

section
omit [ObjectModel Ω]
variable {h : Heap Ω} {a : Address} {c : Cell Ω}

/-- What is done to a cell leaves the others alone. -/
theorem modify_other (h : Heap Ω) (f : Cell Ω → Cell Ω) {b : Address} (hne : b ≠ a) :
    (h.modify b f).cells[a]? = h.cells[a]? := by
  rw [modify, List.getElem?_modify]
  simp only [if_neg hne, Option.map_eq_map, Option.map_id']

theorem strong_of_cell (hc : h.cells[a]? = some c) : h.strong a = c.strong := by
  rw [strong, hc]
  rfl

theorem cell_of_strong (hpos : 0 < h.strong a) : ∃ c, h.cells[a]? = some c ∧ c.strong = h.strong a := by
  cases hc : h.cells[a]? with
  | none =>
    rw [strong, hc] at hpos
    exact absurd hpos (Nat.lt_irrefl 0)
  | some c => exact ⟨c, rfl, (strong_of_cell hc).symm⟩

theorem isAlive_iff : h.isAlive a = true ↔ 0 < h.strong a := by
  unfold isAlive live? strong
  cases h.cells[a]? with
  | none => simp
  | some c =>
    by_cases hc : 0 < c.strong
    · simp [hc]
    · simp [hc]

theorem not_isAlive_iff : h.isAlive a = false ↔ h.strong a = 0 := by
  rw [← Bool.not_eq_true, isAlive_iff]
  omega

theorem strong_set (hc : h.cells[a]? = some c) (d : Cell Ω) (b : Address) :
    (Heap.mk (h.cells.set a d)).strong b = if b = a then d.strong else h.strong b := by
  obtain ⟨hlt, -⟩ := List.getElem?_eq_some_iff.mp hc
  unfold strong
  rw [List.getElem?_set]
  by_cases hb : a = b
  · rw [if_pos hb, if_pos hlt, if_pos hb.symm]
    rfl
  · rw [if_neg hb, if_neg (Ne.symm hb)]

theorem modify_eq (hc : h.cells[a]? = some c) (f : Cell Ω → Cell Ω) : h.modify a f = ⟨h.cells.set a (f c)⟩ := by
  rw [modify, List.modify_eq_set_getElem?, hc]
  rfl

end

variable {h : Heap Ω} {a : Address} {c : Cell Ω} {xs : List Address}

theorem count_refs_set (hc : h.cells[a]? = some c) (d : Cell Ω) (b : Address) :
    (Heap.mk (h.cells.set a d)).refs.count b + c.refs.count b = h.refs.count b + d.refs.count b :=
  count_flatMap_set Cell.refs b d hc

/-- **Setting a cell**: its count changes by what the outside gains, less what its object gains. -/
theorem Counts.set (hx : h.Counts xs) (hc : h.cells[a]? = some c) (d : Cell Ω) {ys : List Address}
    (hy : ∀ b, ys.count b + d.refs.count b + (if b = a then c.strong else 0) =
      xs.count b + c.refs.count b + (if b = a then d.strong else 0)) :
    Counts (Heap.mk (h.cells.set a d)) ys := by
  intro b
  have hcount := hx b
  have hrefs := count_refs_set hc d b
  have hyb := hy b
  rw [strong_set hc]
  by_cases hb : b = a
  · rw [if_pos hb, if_pos hb] at hyb
    rw [hb, strong_of_cell hc, ← hb] at hcount
    rw [if_pos hb]
    omega
  · rw [if_neg hb, if_neg hb] at hyb
    rw [if_neg hb]
    omega

theorem Counts.perm {ys : List Address} (hx : h.Counts xs) (hy : ∀ b, ys.count b = xs.count b) : h.Counts ys := by
  intro b
  rw [hy b]
  exact hx b

/-- An address that is listed has a cell, and it is alive. -/
theorem Counts.alive (hx : h.Counts xs) (ha : a ∈ xs) : 0 < h.strong a := by
  have hpos := List.count_pos_iff.mpr ha
  have hcount := hx a
  omega

/-! ## References given up -/

theorem release_nil (h : Heap Ω) : h.release [] = h := by
  rw [Heap.release]

/-- A dead object has no reference to give up. -/
theorem release_dead {rest : List Address} (hdead : h.strong a = 0) : h.release (a :: rest) = h.release rest := by
  rw [Heap.release]
  split
  · rfl
  · rename_i c hc
    rw [strong_of_cell hc] at hdead
    split
    · rfl
    · omega

theorem release_cons {rest : List Address} {n : Nat} (hc : h.cells[a]? = some c) (hs : c.strong = n + 1) :
    h.release (a :: rest) =
      Heap.release ⟨h.cells.set a { c with strong := n }⟩ ((if n = 0 then ObjectModel.refs c.object else []) ++ rest) := by
  rw [Heap.release]
  split
  · rename_i hnone
    rw [hc] at hnone
    cases hnone
  · rename_i c' hc'
    rw [hc, Option.some.injEq] at hc'
    subst hc'
    split
    · omega
    · rename_i m hm
      obtain rfl : n = m := by omega
      rfl

/-- **Giving up references** takes them off the list, however many objects die of it. -/
theorem Counts.release {h : Heap Ω} {as xs : List Address} (hx : h.Counts (xs ++ as)) : (h.release as).Counts xs := by
  -- `as` is what is still to be given up: the references of an object that dies join it
  induction h, as using Heap.release.induct with
  | case1 h =>
    rw [release_nil]
    rwa [List.append_nil] at hx
  | case2 h a rest hc ih =>
    have hpos := hx.alive (a := a) (by simp)
    rw [Heap.strong, hc] at hpos
    exact absurd hpos (Nat.lt_irrefl 0)
  | case3 h a rest c hc hs ih =>
    have hpos := hx.alive (a := a) (by simp)
    rw [strong_of_cell hc, hs] at hpos
    exact absurd hpos (Nat.lt_irrefl 0)
  | case4 h a rest c hc n hs inner ih =>
    rw [release_cons hc hs]
    refine ih (hx.set hc _ fun b => ?_)
    have hrefs : c.refs = ObjectModel.refs c.object := if_pos (by omega)
    -- the object either keeps its references or has passed them on
    have hinner : inner ++ Cell.refs { c with strong := n } = ObjectModel.refs c.object := by
      by_cases hn : n = 0
      · rw [Cell.refs, if_neg (by simp [hn]), List.append_nil]
        exact if_pos hn
      · rw [Cell.refs, if_pos (by simp; omega)]
        exact congrArg (· ++ _) (if_neg hn)
    have hcount := congrArg (List.count b) hinner
    rw [List.count_append] at hcount
    rw [hrefs, hs]
    simp only [List.count_append, count_cons_address]
    split <;> omega

/-- The object survives if that was not the last reference. -/
theorem release_one (hone : 1 < h.strong a) (b : Address) :
    (h.release [a]).strong b = if b = a then h.strong a - 1 else h.strong b := by
  obtain ⟨c, hc, hstrong⟩ := cell_of_strong (by omega : 0 < h.strong a)
  rw [release_cons hc (n := h.strong a - 1) (by omega), if_neg (by omega), List.append_nil, release_nil, strong_set hc]

theorem length_release (h : Heap Ω) (as : List Address) : (h.release as).cells.length = h.cells.length := by
  induction h, as using Heap.release.induct with
  | case1 h => rw [release_nil]
  | case2 h a rest hc ih => rwa [release_dead (by rw [Heap.strong, hc]; rfl)]
  | case3 h a rest c hc hs ih => rwa [release_dead (by rw [strong_of_cell hc, hs])]
  | case4 h a rest c hc n hs inner ih =>
    rw [release_cons hc hs]
    exact ih.trans (List.length_set ..)

/-! ## References counted -/

omit [ObjectModel Ω] in
theorem retain_cons (h : Heap Ω) (a : Address) (as : List Address) :
    h.retain (a :: as) = (h.modify a fun c => { c with strong := c.strong + 1 }).retain as := rfl

omit [ObjectModel Ω] in
theorem length_retain (h : Heap Ω) (as : List Address) : (h.retain as).cells.length = h.cells.length := by
  induction as generalizing h with
  | nil => rfl
  | cons a as ih =>
    rw [retain_cons, ih]
    exact List.length_modify ..

omit [ObjectModel Ω] in
theorem length_beginRead? {h h' : Heap Ω} {a : Address} (hbegin : h.beginRead? a = some h') :
    h'.cells.length = h.cells.length := by
  unfold beginRead? at hbegin
  split at hbegin
  · split at hbegin
    · cases hbegin
    · cases hbegin
      exact List.length_modify ..
  · cases hbegin

omit [ObjectModel Ω] in
theorem length_beginWrite? {h h' : Heap Ω} {a : Address} (hbegin : h.beginWrite? a = some h') :
    h'.cells.length = h.cells.length := by
  unfold beginWrite? at hbegin
  split at hbegin
  · split at hbegin
    · cases hbegin
    · cases hbegin
      exact List.length_modify ..
  · cases hbegin

theorem Counts.retain {as : List Address} (hx : h.Counts xs) (halive : ∀ a ∈ as, 0 < h.strong a) :
    (h.retain as).Counts (xs ++ as) := by
  induction as generalizing h xs with
  | nil => rwa [List.append_nil]
  | cons a as ih =>
    have hpos := halive a List.mem_cons_self
    obtain ⟨c, hc, hstrong⟩ := cell_of_strong hpos
    have hrefs : Cell.refs { c with strong := c.strong + 1 } = c.refs := by
      rw [Cell.refs, if_pos (Nat.succ_pos _), Cell.refs, if_pos (by omega)]
    have hone : Counts (Heap.mk (h.cells.set a { c with strong := c.strong + 1 })) (xs ++ [a]) := by
      refine hx.set hc _ fun b => ?_
      rw [hrefs]
      simp only [List.count_append, count_cons_address, List.count_nil]
      split <;> omega
    rw [retain_cons, modify_eq hc, ← List.singleton_append, ← List.append_assoc]
    refine ih hone fun b hb => ?_
    rw [strong_set hc]
    split
    · exact Nat.succ_pos _
    · exact halive b (List.mem_cons_of_mem a hb)

omit [ObjectModel Ω] in
theorem retain_cell (hc : h.cells[a]? = some c) (as : List Address) :
    (h.retain as).cells[a]? = some { c with strong := c.strong + as.count a } := by
  induction as generalizing h c with
  | nil => exact hc
  | cons b as ih =>
    rw [retain_cons]
    by_cases hb : b = a
    · have hset : (h.modify b fun c => { c with strong := c.strong + 1 }).cells[a]? =
          some { c with strong := c.strong + 1 } := by
        rw [hb, modify, List.getElem?_modify_eq, hc]
        rfl
      rw [ih hset, hb, List.count_cons_self, Nat.add_right_comm, Nat.add_assoc]
    · rw [ih ((modify_other h _ hb).trans hc), List.count_cons_of_ne hb]

/-! ## Objects put into cells and moved out -/

/-- A new object takes its references off the list, and its cell joins it. -/
theorem Counts.alloc {o : Ω} (hx : h.Counts (xs ++ ObjectModel.refs o)) :
    (h.alloc o).2.Counts (xs ++ [h.cells.length]) := by
  intro b
  have hcount := hx b
  have hrefs : (h.alloc o).2.refs = h.refs ++ ObjectModel.refs o := by
    have hnew : Cell.refs (⟨o, 1, 0, false⟩ : Cell Ω) = ObjectModel.refs o := if_pos Nat.one_pos
    rw [Heap.refs, Heap.alloc, List.flatMap_append, List.flatMap_singleton, hnew, Heap.refs]
  have hstrong : (h.alloc o).2.strong b = h.strong b + if b = h.cells.length then 1 else 0 := by
    rw [Heap.strong, Heap.strong, Heap.alloc]
    rcases Nat.lt_trichotomy b h.cells.length with hb | hb | hb
    · rw [List.getElem?_append_left hb, if_neg (Nat.ne_of_lt hb)]
      rfl
    · rw [hb, List.getElem?_concat_length, if_pos rfl, List.getElem?_eq_none (Nat.le_refl _)]
      rfl
    · rw [List.getElem?_eq_none (by simp; exact hb), List.getElem?_eq_none (Nat.le_of_lt hb),
        if_neg (Nat.ne_of_gt hb)]
      rfl
  rw [hrefs, hstrong]
  rw [List.count_append] at hcount
  simp only [List.count_append, count_cons_address, List.count_nil]
  omega

/-- A new object may take the place of one to which no reference is left. -/
theorem Counts.replace {o : Ω} (hx : h.Counts (xs ++ ObjectModel.refs o)) (hc : h.cells[a]? = some c)
    (hdead : c.strong = 0) : Counts (Heap.mk (h.cells.set a ⟨o, 1, 0, false⟩)) (xs ++ [a]) := by
  refine hx.set hc _ fun b => ?_
  have hnew : Cell.refs (⟨o, 1, 0, false⟩ : Cell Ω) = ObjectModel.refs o := if_pos Nat.one_pos
  have hold : c.refs = [] := if_neg (by omega)
  rw [hnew, hold, hdead]
  simp only [List.count_append, count_cons_address, List.count_nil]
  split <;> omega

/-- An object that is moved out keeps its references; the only one to its cell is gone. -/
theorem Counts.vacate (hx : h.Counts (xs ++ [a])) (hc : h.cells[a]? = some c) (hsole : c.strong = 1) :
    (h.vacate a).Counts (xs ++ ObjectModel.refs c.object) := by
  rw [Heap.vacate, modify_eq hc]
  refine hx.set hc _ fun b => ?_
  have hold : c.refs = ObjectModel.refs c.object := if_pos (by omega)
  have hnew : Cell.refs { c with strong := 0 } = [] := if_neg (Nat.lt_irrefl 0)
  rw [hnew, hold, hsole]
  simp only [List.count_append, count_cons_address, List.count_nil]
  split <;> omega

/-- Writing an object does not change the list. -/
theorem Counts.store {o : Ω} (hx : h.Counts xs) (ha : 0 < h.strong a)
    (ho : ∀ b ∈ ObjectModel.refs o, 0 < h.strong b) : (h.store a o).Counts xs := by
  obtain ⟨c, hc, hstrong⟩ := cell_of_strong ha
  have hcell := retain_cell hc (ObjectModel.refs o)
  rw [Heap.store, hc]
  refine Counts.release ?_
  rw [modify_eq hcell]
  refine (hx.retain ho).set hcell _ fun b => ?_
  have hold : Cell.refs { c with strong := c.strong + (ObjectModel.refs o).count a } = ObjectModel.refs c.object :=
    if_pos (Nat.lt_of_lt_of_le (by omega) (Nat.le_add_right ..))
  have hnew : Cell.refs { c with object := o, strong := c.strong + (ObjectModel.refs o).count a } =
      ObjectModel.refs o := if_pos (Nat.lt_of_lt_of_le (by omega) (Nat.le_add_right ..))
  rw [hold, hnew]
  simp only [List.count_append]
  omega

end Heap
end NativeBridge
