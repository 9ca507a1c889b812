import NativeBridge.Proofs.Object.Live
/-!
# The parts of the object table agree

A table is sound if its free list holds the empty slots, its identity map holds the live wrappers under their keys, and
the flags of every wrapper say how it holds its object (`ObjectTable.Sound`). Three changes make up all operations: a
wrapper is entered, removed, or promoted in its place. Each sets one slot (`ObjectTable.Sets`), and each keeps the table
sound.
-/
namespace NativeBridge

/-! ## Flags and keys -/

theorem inter_ownership (f : TypeFlags) (o : Ownership) :
    ((f.diff .ownership).union o.flags).inter .ownership = o.flags := by
  obtain ⟨⟨⟨f⟩⟩⟩ := f
  cases o <;> revert f <;> decide +kernel

theorem contains_const (f : TypeFlags) (o : Ownership) :
    ((f.diff .ownership).union o.flags).contains .const = f.contains .const := by
  obtain ⟨⟨⟨f⟩⟩⟩ := f
  cases o <;> revert f <;> decide +kernel

namespace Wrapper

/-- The wrapper that a pointer is bound to if there is none yet. -/
def bound (p : Pointer) (owned : Bool) (flags : TypeFlags) : Wrapper :=
  let ownership := Ownership.ofPointer p owned
  ⟨p.cls, p.address, ownership, (flags.diff .ownership).union ownership.flags⟩

/-- A borrowed wrapper whose object has arrived with a strong reference. -/
def promoted (w : Wrapper) : Wrapper :=
  { w with ownership := .shared, flags := (w.flags.diff .ownership).union .shared }

/-- The flags say how the wrapper holds its object. -/
def Tagged (w : Wrapper) : Prop :=
  w.flags.inter .ownership = w.ownership.flags

theorem isConst_bound (p : Pointer) (owned : Bool) (flags : TypeFlags) :
    (bound p owned flags).isConst = flags.contains .const :=
  contains_const flags _

theorem key_bound (p : Pointer) (owned : Bool) (flags : TypeFlags) :
    (bound p owned flags).key = ⟨p.address, flags.contains .const⟩ := by
  rw [key, isConst_bound]
  rfl

theorem tagged_bound (p : Pointer) (owned : Bool) (flags : TypeFlags) : (bound p owned flags).Tagged :=
  inter_ownership flags _

theorem isConst_promoted (w : Wrapper) : w.promoted.isConst = w.isConst :=
  contains_const w.flags .shared

theorem key_promoted (w : Wrapper) : w.promoted.key = w.key := by
  rw [key, isConst_promoted]
  rfl

theorem tagged_promoted (w : Wrapper) : w.promoted.Tagged :=
  inter_ownership w.flags .shared

theorem isStrong_bound (p : Pointer) (owned : Bool) (flags : TypeFlags) :
    (bound p owned flags).ownership.isStrong = !p.weak := by
  unfold bound Ownership.ofPointer
  cases p.weak <;> cases owned <;> rfl

theorem eq_borrowed {w : Wrapper} (h : w.ownership.isStrong = false) : w.ownership = .borrowed := by
  cases ho : w.ownership with
  | borrowed => rfl
  | owned | shared =>
    rw [ho] at h
    cases h

end Wrapper

namespace ObjectTable

/-! ## Setting a slot -/

/-- `t'` is `t` with slot `i` set. -/
def Sets (t t' : ObjectTable) (i : Nat) (slot : Slot) : Prop :=
  ∀ j, t'.slots[j]? = if j = i then some slot else t.slots[j]?

theorem sets_of_lt {t t' : ObjectTable} {i : Nat} {slot : Slot} (hlt : i < t.slots.length)
    (hslots : t'.slots = t.slots.set i slot) : t.Sets t' i slot := by
  intro j
  rw [hslots, List.getElem?_set]
  by_cases hj : i = j
  · rw [if_pos hj, if_pos hlt, if_pos hj.symm]
  · rw [if_neg hj, if_neg (Ne.symm hj)]

theorem Sets.live? {t t' : ObjectTable} {i : Nat} {slot : Slot} (hs : t.Sets t' i slot) (g : Handle) :
    t'.live? g =
      if g.index = i then (if slot.generation = g.generation then slot.wrapper else none) else t.live? g := by
  unfold ObjectTable.live?
  rw [hs g.index]
  by_cases hi : g.index = i
  · rw [if_pos hi, if_pos hi]
  · rw [if_neg hi, if_neg hi]

theorem index_lt {t : ObjectTable} {h : Handle} {w : Wrapper} (hw : t.live? h = some w) : h.index < t.slots.length :=
  (List.getElem?_eq_some_iff.mp (live?_eq_some.mp hw)).1

/-- Two live handles to one slot are equal. -/
theorem eq_of_index {t : ObjectTable} {g h : Handle} {v w : Wrapper} (hv : t.live? g = some v)
    (hw : t.live? h = some w) (hi : g.index = h.index) : g = h := by
  have hv := live?_eq_some.mp hv
  rw [hi, live?_eq_some.mp hw, Option.some.injEq, Slot.mk.injEq] at hv
  obtain ⟨i, gen⟩ := g
  obtain ⟨j, gen'⟩ := h
  rw [Handle.mk.injEq]
  exact ⟨hi, hv.1.symm⟩

/-- The slot of a live handle is emptied. -/
theorem Sets.live?_emptied {t t' : ObjectTable} {h : Handle} {w : Wrapper} {gen : UInt32} (hw : t.live? h = some w)
    (hs : t.Sets t' h.index ⟨gen, none⟩) (g : Handle) : t'.live? g = if g = h then none else t.live? g := by
  rw [hs.live?, ite_self]
  by_cases hgh : g = h
  · rw [if_pos (congrArg Handle.index hgh), if_pos hgh]
  · rw [if_neg hgh]
    split
    · rename_i hi
      cases hv : t.live? g with
      | none => rfl
      | some v => exact absurd (eq_of_index hv hw hi) hgh
    · rfl

/-- A slot of which no other handle is live gets a wrapper. -/
theorem Sets.live?_filled {t t' : ObjectTable} {h : Handle} {w : Wrapper} (hs : t.Sets t' h.index ⟨h.generation, some w⟩)
    (hother : ∀ g v, t.live? g = some v → g.index = h.index → g = h) (g : Handle) :
    t'.live? g = if g = h then some w else t.live? g := by
  rw [hs.live?]
  by_cases hgh : g = h
  · rw [if_pos hgh, hgh, if_pos rfl, if_pos rfl]
  · rw [if_neg hgh]
    split
    · rename_i hi
      rw [if_neg]
      · cases hv : t.live? g with
        | none => rfl
        | some v => exact absurd (hother g v hv hi) hgh
      · intro hgen
        obtain ⟨i, gen⟩ := g
        obtain ⟨j, gen'⟩ := h
        exact hgh (Handle.mk.injEq .. ▸ ⟨hi, hgen.symm⟩)
    · rfl

/-! ## Soundness -/

/-- The parts of the table agree. -/
structure Sound (t : ObjectTable) : Prop where
  free_nodup : t.free.Nodup
  mem_free : ∀ i, i ∈ t.free ↔ ∃ g, t.slots[i]? = some ⟨g, none⟩
  keys_nodup : (t.identity.map (·.1)).Nodup
  lookup : ∀ k h, t.identity.lookup k = some h ↔ ∃ w, t.live? h = some w ∧ w.key = k
  tagged : ∀ h w, t.live? h = some w → w.Tagged

theorem sound_empty : empty.Sound where
  free_nodup := .nil
  mem_free i := by simp [empty]
  keys_nodup := .nil
  lookup k h := by simp [empty, live?]
  tagged h w hw := by simp [empty, live?] at hw

/-- There is one live wrapper for each key. -/
theorem Sound.eq_of_key {t : ObjectTable} (ht : t.Sound) {g h : Handle} {v w : Wrapper} (hv : t.live? g = some v)
    (hw : t.live? h = some w) (hk : v.key = w.key) : g = h := by
  have hg := (ht.lookup w.key g).mpr ⟨v, hv, hk⟩
  rw [(ht.lookup w.key h).mpr ⟨w, hw, rfl⟩] at hg
  exact (Option.some.inj hg).symm

/-! ## Entering -/

/-- Enter a wrapper under its key. -/
def enter (t : ObjectTable) (w : Wrapper) : ObjectTable :=
  { (t.allocate w).2 with identity := (w.key, (t.allocate w).1) :: (t.allocate w).2.identity }

/-- A wrapper is entered into the slot freed last, or into a new one. -/
theorem Sound.allocate_cases {t : ObjectTable} (ht : t.Sound) (w : Wrapper) :
    (∃ i free g, t.free = i :: free ∧ t.slots[i]? = some ⟨g, none⟩ ∧
      t.allocate w = (⟨i, g⟩, ⟨t.slots.set i ⟨g, some w⟩, free, t.identity⟩)) ∨
    (t.free = [] ∧ t.allocate w = (⟨t.slots.length, 0⟩, ⟨t.slots ++ [⟨0, some w⟩], [], t.identity⟩)) := by
  cases hfree : t.free with
  | nil => exact .inr ⟨rfl, by rw [allocate, hfree]⟩
  | cons i free =>
    obtain ⟨g, hslot⟩ := (ht.mem_free i).mp (by rw [hfree]; exact List.mem_cons_self)
    refine .inl ⟨i, free, g, rfl, hslot, ?_⟩
    rw [allocate, hfree]
    dsimp only
    rw [hslot, Option.map_some, Option.getD_some]

theorem Sound.sets_enter {t : ObjectTable} (ht : t.Sound) (w : Wrapper) :
    t.Sets (t.enter w) (t.allocate w).1.index ⟨(t.allocate w).1.generation, some w⟩ := by
  rcases ht.allocate_cases w with ⟨i, free, g, -, hslot, heq⟩ | ⟨-, heq⟩
  · rw [enter, heq]
    exact sets_of_lt (List.getElem?_eq_some_iff.mp hslot).1 rfl
  · rw [enter, heq]
    intro j
    dsimp only
    rw [List.getElem?_append]
    by_cases hj : j = t.slots.length
    · rw [if_pos hj, if_neg (by omega), hj, Nat.sub_self]
      rfl
    · rw [if_neg hj]
      split
      · rfl
      · rw [List.getElem?_eq_none (by simp; omega), List.getElem?_eq_none (by omega)]

theorem identity_allocate (t : ObjectTable) (w : Wrapper) : (t.allocate w).2.identity = t.identity := by
  unfold allocate
  split <;> rfl

/-- The slot of a new wrapper was empty, or there was none. -/
theorem Sound.allocate_slot {t : ObjectTable} (ht : t.Sound) (w : Wrapper) :
    ∀ slot, t.slots[(t.allocate w).1.index]? = some slot → slot = ⟨(t.allocate w).1.generation, none⟩ := by
  intro slot hs
  rcases ht.allocate_cases w with ⟨i, free, g, -, hslot, heq⟩ | ⟨-, heq⟩
  · rw [heq, hslot] at hs
    rw [heq, ← Option.some.inj hs]
  · rw [heq, List.getElem?_eq_none (Nat.le_refl _)] at hs
    cases hs

theorem Sound.allocate_free {t : ObjectTable} (ht : t.Sound) (w : Wrapper) {g : Handle} {v : Wrapper}
    (hv : t.live? g = some v) : g.index ≠ (t.allocate w).1.index := by
  intro hi
  have hslot := live?_eq_some.mp hv
  rw [hi] at hslot
  have hempty := ht.allocate_slot w _ hslot
  rw [Slot.mk.injEq] at hempty
  cases hempty.2

/-- The handle of a new wrapper was not live before. -/
theorem Sound.live?_allocate {t : ObjectTable} (ht : t.Sound) (w : Wrapper) : t.live? (t.allocate w).1 = none := by
  cases hv : t.live? (t.allocate w).1 with
  | none => rfl
  | some v => exact absurd rfl (ht.allocate_free w hv)

theorem Sound.live?_enter {t : ObjectTable} (ht : t.Sound) (w : Wrapper) (g : Handle) :
    (t.enter w).live? g = if g = (t.allocate w).1 then some w else t.live? g :=
  (ht.sets_enter w).live?_filled (fun _ _ hv hi => absurd hi (ht.allocate_free w hv)) g

theorem Sound.enter {t : ObjectTable} (ht : t.Sound) {w : Wrapper} (hnew : t.identity.lookup w.key = none)
    (hw : w.Tagged) : (t.enter w).Sound where
  free_nodup := by
    rcases ht.allocate_cases w with ⟨i, free, g, hfree, -, heq⟩ | ⟨-, heq⟩
    · have h := ht.free_nodup
      rw [hfree] at h
      rw [ObjectTable.enter, heq]
      exact h.of_cons
    · rw [ObjectTable.enter, heq]
      exact .nil
  mem_free j := by
    rw [ht.sets_enter w j]
    rcases ht.allocate_cases w with ⟨i, free, g, hfree, hslot, heq⟩ | ⟨hfree, heq⟩
    · have hmem := ht.mem_free j
      have hnodup := ht.free_nodup
      rw [hfree, List.nodup_cons] at hnodup
      rw [hfree, List.mem_cons] at hmem
      rw [ObjectTable.enter, heq]
      by_cases hj : j = i
      · subst hj
        simp [hnodup.1]
      · simpa [hj] using hmem
    · have hmem := ht.mem_free j
      rw [hfree] at hmem
      rw [ObjectTable.enter, heq]
      by_cases hj : j = t.slots.length
      · simp [hj]
      · simpa [hj] using hmem
  keys_nodup := by
    rw [ObjectTable.enter, identity_allocate, List.map_cons, List.nodup_cons]
    refine ⟨fun hk => ?_, ht.keys_nodup⟩
    obtain ⟨e, he, hek⟩ := List.mem_map.mp hk
    have hne := List.lookup_eq_none_iff.mp hnew e he
    rw [hek, bne_self_eq_false] at hne
    cases hne
  lookup k h := by
    rw [ht.live?_enter w h, ObjectTable.enter, identity_allocate, List.lookup_cons]
    by_cases hk : k = w.key
    · rw [hk, beq_self_eq_true]
      constructor
      · intro heq
        rw [if_pos (Option.some.inj heq).symm]
        exact ⟨w, rfl, rfl⟩
      · rintro ⟨v, hv, hkey⟩
        split at hv
        · rename_i hh
          rw [hh]
        · rw [(ht.lookup w.key h).mpr ⟨v, hv, hkey⟩] at hnew
          cases hnew
    · rw [beq_eq_false_iff_ne.mpr hk]
      refine (ht.lookup k h).trans ⟨?_, ?_⟩
      · rintro ⟨v, hv, hkey⟩
        refine ⟨v, ?_, hkey⟩
        rw [if_neg, hv]
        rintro rfl
        rw [ht.live?_allocate w] at hv
        cases hv
      · rintro ⟨v, hv, hkey⟩
        split at hv
        · rw [← Option.some.inj hv] at hkey
          exact absurd hkey.symm hk
        · exact ⟨v, hv, hkey⟩
  tagged h v hv := by
    rw [ht.live?_enter w h] at hv
    split at hv
    · rw [← Option.some.inj hv]
      exact hw
    · exact ht.tagged h v hv

/-! ## Removing -/

/-- Remove the wrapper of a live handle. -/
def remove (t : ObjectTable) (h : Handle) (w : Wrapper) : ObjectTable :=
  (t.forget w.key).discard h

theorem lookup_forget (t : ObjectTable) (k k' : IdentityKey) :
    (t.forget k').identity.lookup k = if k = k' then none else t.identity.lookup k := by
  unfold forget
  dsimp only
  induction t.identity with
  | nil => split <;> rfl
  | cons e es ih =>
    obtain ⟨x, h⟩ := e
    by_cases hx : x = k'
    · rw [List.filter_cons_of_neg (by simpa using hx), ih, List.lookup_cons]
      by_cases hk : k = k'
      · rw [if_pos hk, if_pos hk]
      · rw [if_neg hk, if_neg hk, beq_eq_false_iff_ne.mpr (by rwa [hx])]
    · rw [List.filter_cons_of_pos (by simpa using hx), List.lookup_cons, List.lookup_cons, ih]
      by_cases hkx : k = x
      · rw [hkx, beq_self_eq_true]
        dsimp only
        rw [if_neg hx]
      · rw [beq_eq_false_iff_ne.mpr hkx]

section
variable {t : ObjectTable} {h : Handle} {w : Wrapper} (hw : t.live? h = some w)
include hw

theorem remove_eq : t.remove h w =
    ⟨t.slots.set h.index ⟨h.generation + 1, none⟩, h.index :: t.free, t.identity.filter (·.1 ≠ w.key)⟩ := by
  rw [remove, discard, if_pos]
  · rfl
  · exact contains_eq_true.mpr ⟨w, hw⟩

theorem sets_remove : t.Sets (t.remove h w) h.index ⟨h.generation + 1, none⟩ := by
  rw [remove_eq hw]
  exact sets_of_lt (index_lt hw) rfl

theorem live?_remove (g : Handle) : (t.remove h w).live? g = if g = h then none else t.live? g :=
  (sets_remove hw).live?_emptied hw g

theorem Sound.remove (ht : t.Sound) : (t.remove h w).Sound where
  free_nodup := by
    rw [remove_eq hw, List.nodup_cons]
    refine ⟨fun hi => ?_, ht.free_nodup⟩
    obtain ⟨g, hg⟩ := (ht.mem_free _).mp hi
    rw [live?_eq_some.mp hw] at hg
    cases hg
  mem_free j := by
    rw [sets_remove hw j, remove_eq hw, List.mem_cons]
    by_cases hj : j = h.index
    · simp [hj]
    · simpa [hj] using ht.mem_free j
  keys_nodup := by
    rw [remove_eq hw]
    exact (ht.keys_nodup.sublist (List.filter_sublist.map _))
  lookup k g := by
    have hid : (t.remove h w).identity = (t.forget w.key).identity := by
      rw [remove_eq hw]
      rfl
    rw [live?_remove hw g, hid, lookup_forget]
    by_cases hk : k = w.key
    · rw [if_pos hk]
      refine ⟨fun heq => (nomatch heq), ?_⟩
      rintro ⟨v, hv, hkey⟩
      split at hv
      · cases hv
      · rename_i hg
        exact absurd (ht.eq_of_key hv hw (hkey.trans hk)) hg
    · rw [if_neg hk, ht.lookup k g]
      refine exists_congr fun v => and_congr_left fun hkey => ?_
      by_cases hg : g = h
      · rw [if_pos hg, hg, hw, Option.some.injEq]
        refine ⟨fun heq => ?_, fun heq => nomatch heq⟩
        rw [heq] at hk
        exact absurd hkey.symm hk
      · rw [if_neg hg]
  tagged g v hv := by
    rw [live?_remove hw g] at hv
    split at hv
    · cases hv
    · exact ht.tagged g v hv

theorem Sound.lookup_remove (ht : t.Sound) : (t.remove h w).identity.lookup w.key = none := by
  cases hg : (t.remove h w).identity.lookup w.key with
  | none => rfl
  | some g =>
    obtain ⟨v, hv, hkey⟩ := (ht.remove hw).lookup _ _ |>.mp hg
    rw [live?_remove hw g] at hv
    split at hv
    · cases hv
    · rename_i hgh
      exact absurd (ht.eq_of_key hv hw hkey) hgh

/-! ## Promoting -/

theorem sets_setWrapper (v : Wrapper) : t.Sets (t.setWrapper h v) h.index ⟨h.generation, some v⟩ :=
  sets_of_lt (index_lt hw) rfl

theorem live?_setWrapper (v : Wrapper) (g : Handle) :
    (t.setWrapper h v).live? g = if g = h then some v else t.live? g :=
  (sets_setWrapper hw v).live?_filled (fun _ _ hu hi => eq_of_index hu hw hi) g

/-- A wrapper may be replaced by one with its key. -/
theorem Sound.setWrapper (ht : t.Sound) {v : Wrapper} (hkey : v.key = w.key) (hv : v.Tagged) :
    (t.setWrapper h v).Sound where
  free_nodup := ht.free_nodup
  mem_free j := by
    rw [sets_setWrapper hw v j]
    change j ∈ t.free ↔ _
    rw [ht.mem_free j]
    by_cases hj : j = h.index
    · rw [hj, live?_eq_some.mp hw]
      simp
    · rw [if_neg hj]
  keys_nodup := ht.keys_nodup
  lookup k g := by
    rw [live?_setWrapper hw v g]
    refine (ht.lookup k g).trans ?_
    by_cases hg : g = h
    · rw [if_pos hg, hg, hw]
      simp [hkey]
    · rw [if_neg hg]
  tagged g u hu := by
    rw [live?_setWrapper hw v g] at hu
    split at hu
    · rw [← Option.some.inj hu]
      exact hv
    · exact ht.tagged g u hu

end

end ObjectTable

/-! ## Operations -/

namespace Holdings
variable {Ω : Type} [ObjectModel Ω] {s : Holdings Ω} {p : Pointer} {owned : Bool} {flags : TypeFlags}

omit [ObjectModel Ω] in
theorem wrapNew_eq (s : Holdings Ω) (w : Wrapper) :
    s.wrapNew w = ((s.table.allocate w).1, { s with table := s.table.enter w }) := rfl

/-- What wrapping a pointer comes to. -/
inductive Wraps (s : Holdings Ω) (p : Pointer) (owned : Bool) (flags : TypeFlags) : Handle × Holdings Ω → Prop where
  /-- There is no wrapper yet. -/
  | fresh (hnew : s.table.identity.lookup (Wrapper.bound p owned flags).key = none) :
    Wraps s p owned flags (s.wrapNew (.bound p owned flags))
  /-- There is one, and it holds the object as well as the pointer does: the pointer is given up. -/
  | kept {h : Handle} {v : Wrapper} (hv : s.table.live? h = some v) (hkey : v.key = (Wrapper.bound p owned flags).key)
    (halive : v.isAlive s.heap = true) (hstrong : p.weak = true ∨ v.ownership.isStrong = true) :
    Wraps s p owned flags (h, s.drop p.refs)
  /-- There is a borrowed one, and the pointer is strong: its reference passes to the wrapper. -/
  | promoted {h : Handle} {v : Wrapper} (hv : s.table.live? h = some v)
    (hkey : v.key = (Wrapper.bound p owned flags).key) (halive : s.heap.isAlive v.address = true)
    (hborrowed : v.ownership = .borrowed) (hstrong : p.weak = false) :
    Wraps s p owned flags (h, { s with table := s.table.setWrapper h v.promoted })
  /-- There is a borrowed one, and its object is gone: it makes way for a new one. -/
  | replaced {h : Handle} {v : Wrapper} (hv : s.table.live? h = some v)
    (hkey : v.key = (Wrapper.bound p owned flags).key) (hdead : s.heap.isAlive v.address = false)
    (hborrowed : v.ownership = .borrowed) :
    Wraps s p owned flags
      (({ s with table := s.table.remove h v } : Holdings Ω).wrapNew (.bound p owned flags))

theorem discard_forget {h : Handle} {v : Wrapper} (hv : s.table.live? h = some v) :
    ({ s with table := s.table.forget v.key } : Holdings Ω).discard h =
      { table := s.table.remove h v, heap := s.heap.release v.refs } := by
  rw [discard, ObjectTable.live?_forget, hv]
  rfl

/-- In a sound table, these are the ways in which a pointer is wrapped. -/
theorem wraps (hs : s.table.Sound) (p : Pointer) (owned : Bool) (flags : TypeFlags) :
    s.Wraps p owned flags (s.wrap p owned flags) := by
  unfold wrap
  dsimp only
  split
  · rename_i hnew
    exact .fresh hnew
  rename_i h hlookup
  obtain ⟨v, hv, hkey⟩ := (hs.lookup (Wrapper.bound p owned flags).key h).mp hlookup
  have hstrength : (Ownership.ofPointer p owned).isStrong = !p.weak := Wrapper.isStrong_bound p owned flags
  rw [hv, hstrength]
  dsimp only
  split
  · rename_i halive
    split
    · rename_i hpromote
      rw [Bool.and_eq_true, Bool.not_eq_true', Bool.not_eq_true'] at hpromote
      have halive : s.heap.isAlive v.address = true := by
        rwa [Wrapper.isAlive, hpromote.2, Bool.false_or] at halive
      exact .promoted hv hkey halive (Wrapper.eq_borrowed hpromote.2) hpromote.1
    · rename_i hkeep
      refine .kept hv hkey halive ?_
      cases hweak : p.weak with
      | true => exact .inl rfl
      | false =>
        rw [hweak, Bool.not_false, Bool.true_and, Bool.not_eq_true', Bool.not_eq_false] at hkeep
        exact .inr hkeep
  · rename_i hdead
    rw [Wrapper.isAlive, Bool.or_eq_true, not_or, Bool.not_eq_true, Bool.not_eq_true] at hdead
    have hrefs : v.refs = [] := by rw [Wrapper.refs, hdead.1]; rfl
    have hdiscard : ({ s with table := s.table.forget (Wrapper.bound p owned flags).key } : Holdings Ω).discard h =
        { s with table := s.table.remove h v } := by
      rw [← hkey, discard_forget hv, hrefs, Heap.release]
    change Wraps s p owned flags
      ((({ s with table := s.table.forget (Wrapper.bound p owned flags).key } : Holdings Ω).discard h).wrapNew
        (.bound p owned flags))
    rw [hdiscard]
    exact .replaced hv hkey hdead.2 (Wrapper.eq_borrowed hdead.1)

theorem sound_wrap (hs : s.table.Sound) (p : Pointer) (owned : Bool) (flags : TypeFlags) :
    (s.wrap p owned flags).2.table.Sound := by
  have htagged := Wrapper.tagged_bound p owned flags
  have hwraps := wraps hs p owned flags
  generalize s.wrap p owned flags = r at hwraps ⊢
  cases hwraps with
  | fresh hnew => exact hs.enter hnew htagged
  | kept hv hkey halive hstrong => exact hs
  | promoted hv hkey halive hborrowed hstrong =>
    exact hs.setWrapper hv (Wrapper.key_promoted _) (Wrapper.tagged_promoted _)
  | replaced hv hkey hdead hborrowed =>
    refine (hs.remove hv).enter ?_ htagged
    rw [← hkey]
    exact hs.lookup_remove hv

/-- The handle that is given for a pointer names a wrapper with the pointer's key. -/
theorem wrap_live (hs : s.table.Sound) (p : Pointer) (owned : Bool) (flags : TypeFlags) :
    ∃ v, (s.wrap p owned flags).2.table.live? (s.wrap p owned flags).1 = some v ∧
      v.key = (Wrapper.bound p owned flags).key := by
  have hwraps := wraps hs p owned flags
  generalize s.wrap p owned flags = r at hwraps ⊢
  cases hwraps with
  | fresh hnew => exact ⟨_, (hs.live?_enter _ _).trans (if_pos rfl), rfl⟩
  | kept hv hkey => exact ⟨_, hv, hkey⟩
  | promoted hv hkey =>
    exact ⟨_, (ObjectTable.live?_setWrapper hv _ _).trans (if_pos rfl), (Wrapper.key_promoted _).trans hkey⟩
  | replaced hv => exact ⟨_, ((hs.remove hv).live?_enter _ _).trans (if_pos rfl), rfl⟩

/-- Every other wrapper was there before. -/
theorem live_of_wrap (hs : s.table.Sound) {g : Handle} {v : Wrapper}
    (hg : (s.wrap p owned flags).2.table.live? g = some v) :
    s.table.live? g = some v ∨ v.key = (Wrapper.bound p owned flags).key := by
  have hwraps := wraps hs p owned flags
  generalize s.wrap p owned flags = r at hwraps hg
  cases hwraps with
  | fresh hnew =>
    rw [wrapNew_eq, hs.live?_enter] at hg
    split at hg
    · exact .inr (by rw [← Option.some.inj hg])
    · exact .inl hg
  | kept => exact .inl hg
  | promoted hv hkey =>
    rw [ObjectTable.live?_setWrapper hv] at hg
    split at hg
    · exact .inr (by rw [← Option.some.inj hg, Wrapper.key_promoted, hkey])
    · exact .inl hg
  | replaced hv =>
    rw [wrapNew_eq, (hs.remove hv).live?_enter, ObjectTable.live?_remove hv] at hg
    split at hg
    · exact .inr (by rw [← Option.some.inj hg])
    · split at hg
      · cases hg
      · exact .inl hg

theorem wrap_heap (hs : s.table.Sound) (p : Pointer) (owned : Bool) (flags : TypeFlags) :
    (s.wrap p owned flags).2.heap = s.heap ∨ (s.wrap p owned flags).2.heap = s.heap.release p.refs := by
  have hwraps := wraps hs p owned flags
  generalize s.wrap p owned flags = r at hwraps ⊢
  cases hwraps with
  | kept => exact .inr rfl
  | fresh | promoted | replaced => exact .inl rfl

/-! ### Releasing -/

theorem release_eq {h : Handle} {v : Wrapper} (hv : s.table.live? h = some v) :
    s.release h = .ok { table := s.table.remove h v, heap := s.heap.release v.refs } := by
  have hget : s.table.get h = .ok v := by rw [ObjectTable.get, hv]
  rw [release, hget]
  exact congrArg Except.ok (discard_forget hv)

theorem release_dead {h : Handle} (hv : s.table.live? h = none) : s.release h = .error (.useAfterFree h) := by
  have hget : s.table.get h = .error (.useAfterFree h) := by rw [ObjectTable.get, hv]
  rw [release, hget]
  rfl

omit [ObjectModel Ω] in
theorem uniqueCell_ok {h : Handle} {a : Address} (ha : s.uniqueCell h = .ok a) :
    ∃ v, s.table.live? h = some v ∧ v.isConst = false ∧ v.ownership.isStrong = true ∧ s.heap.strong v.address = 1 ∧
      a = v.address := by
  unfold uniqueCell ObjectTable.get at ha
  cases hv : s.table.live? h with
  | none =>
    rw [hv] at ha
    cases ha
  | some v =>
    rw [hv] at ha
    change (if v.isConst = true then _ else _) = _ at ha
    split at ha
    · cases ha
    rename_i hconst
    change (if (v.ownership.isStrong && s.heap.strong v.address == 1) = true then _ else _) = _ at ha
    split at ha
    · rename_i hsole
      rw [Bool.and_eq_true, beq_iff_eq] at hsole
      cases ha
      exact ⟨v, rfl, Bool.not_eq_true _ ▸ hconst, hsole.1, hsole.2, rfl⟩
    · cases ha

theorem takeUnique_ok {h : Handle} {a : Address} {s' : Holdings Ω} (hs' : s.takeUnique h = .ok (a, s')) :
    ∃ v, s.table.live? h = some v ∧ v.isConst = false ∧ v.ownership.isStrong = true ∧ s.heap.strong v.address = 1 ∧
      a = v.address ∧ s' = { table := s.table.remove h v, heap := (s.heap.retain [a]).release v.refs } := by
  unfold takeUnique at hs'
  cases ha : s.uniqueCell h with
  | error e =>
    rw [ha] at hs'
    cases hs'
  | ok a' =>
    obtain ⟨v, hv, hconst, hstrong, hsole, rfl⟩ := uniqueCell_ok ha
    rw [ha] at hs'
    change (do let s ← (s.retain [v.address]).release h; return (v.address, s)) = Except.ok (a, s') at hs'
    rw [release_eq (s := s.retain [v.address]) hv] at hs'
    cases hs'
    exact ⟨v, hv, hconst, hstrong, hsole, rfl, rfl⟩

end Holdings
end NativeBridge
