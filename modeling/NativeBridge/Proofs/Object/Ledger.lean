import Mathlib.Data.List.Basic
import NativeBridge.Proofs.Object.Handles
/-!
# Who keeps what alive

A ledger is a heap and a table together with the strong references that native code holds beside them. Its runs are all
sequences of table operations with native code making, cloning, dropping, writing and moving out objects in between
(`Event`, `Ledger.run`). What every run keeps is that the table is sound and that every strong count is the number of
references there are (`Ledger.Balanced`); from it follow how the parts of the table agree in every state and who keeps an
object alive.
-/
namespace NativeBridge

/-- A heap and a table, with the strong references held outside of both. -/
structure Ledger (Ω : Type) extends Holdings Ω where
  held : List Address

/-- What can happen to a ledger. -/
inductive Event (Ω : Type) where
  /-- Native code puts an object into a new cell. -/
  | make (o : Ω)
  /-- The same in the place of an object to which there is no reference any more. -/
  | reuse (a : Address) (o : Ω)
  /-- A strong reference is cloned, or a weak one upgraded. -/
  | clone (a : Address)
  | drop (a : Address)
  /-- Native code replaces an object in its cell. -/
  | store (a : Address) (o : Ω)
  /-- Native code tries to move an object of a class out of its cell, for which it gives up a reference. -/
  | unwrap (c : Class) (a : Address)
  | wrap (p : Pointer) (owned : Bool) (flags : TypeFlags)
  | release (h : Handle)
  | takeUnique (h : Handle)
  | clear

namespace Ledger
variable {Ω : Type} [ObjectModel Ω]

def empty : Ledger Ω := { toHoldings := .empty, held := [] }

/-- The references `as` are among the ones held, each as often as it is listed. -/
def covers (held as : List Address) : Bool :=
  as.all fun a => decide (as.count a ≤ held.count a)

/-- Native code gives away only references that it holds, clones and writes only what is alive, and an address is used
again only once its object is dead and no wrapper has it. -/
def enabled (w : Ledger Ω) : Event Ω → Bool
  | .make o => covers w.held (ObjectModel.refs o)
  | .reuse a o => covers w.held (ObjectModel.refs o) && decide (a < w.heap.cells.length) && !w.heap.isAlive a &&
      w.table.handles.all fun h => (w.table.live? h).all (·.address ≠ a)
  | .clone a => w.heap.isAlive a
  | .drop a | .unwrap _ a => covers w.held [a]
  | .store a o => w.heap.isAlive a && (ObjectModel.refs o).all w.heap.isAlive
  | .wrap p _ _ => covers w.held p.refs
  | .release _ | .takeUnique _ | .clear => true

/-- The ledger after an event. A wrapped pointer takes its reference with it, and an object that is moved out leaves its
references to native code. -/
def advance (w : Ledger Ω) : Event Ω → Ledger Ω
  | .make o =>
    { w with heap := (w.heap.alloc o).2, held := w.held.diff (ObjectModel.refs o) ++ [(w.heap.alloc o).1] }
  | .reuse a o =>
    { w with heap := ⟨w.heap.cells.set a ⟨o, 1, 0, false⟩⟩, held := w.held.diff (ObjectModel.refs o) ++ [a] }
  | .clone a => { toHoldings := w.toHoldings.retain [a], held := w.held ++ [a] }
  | .drop a => { toHoldings := w.toHoldings.drop [a], held := w.held.diff [a] }
  | .store a o => { w with heap := w.heap.store a o }
  | .unwrap c a =>
    match w.takeCell c a with
    | (.ok x, s) => { toHoldings := s, held := w.held.diff [a] ++ x.refs }
    | (.error _, s) => { toHoldings := s, held := w.held.diff [a] }
  | .wrap p owned flags => { toHoldings := (w.wrap p owned flags).2, held := w.held.diff p.refs }
  | .release h => { w with toHoldings := w.letGo h }
  | .takeUnique h =>
    match w.toHoldings.takeUnique h with
    | .ok (a, s) => { toHoldings := s, held := w.held ++ [a] }
    | .error _ => w
  | .clear => { w with toHoldings := w.toHoldings.clear }

/-- One step: what is not enabled does not happen. -/
def step (w : Ledger Ω) (e : Event Ω) : Ledger Ω :=
  if w.enabled e then w.advance e else w

/-- The ledger after some events, one after another. -/
def after (w : Ledger Ω) (es : List (Event Ω)) : Ledger Ω :=
  es.foldl step w

/-- The ledger that some events lead to from the empty one. -/
def run (es : List (Event Ω)) : Ledger Ω :=
  empty.after es

end Ledger

/-! ## Counts of holdings -/

namespace Holdings
variable {Ω : Type} [ObjectModel Ω] {s : Holdings Ω} {xs : List Address}

/-- Every strong count is right, where `xs` are the references held outside. -/
def Counts (s : Holdings Ω) (xs : List Address) : Prop :=
  s.heap.Counts (xs ++ s.table.refs)

omit [ObjectModel Ω] in
theorem not_mem_holders {t : ObjectTable} {h : Handle} (hweak : ∀ v, t.live? h = some v → v.ownership = .borrowed)
    (a : Address) : h ∉ t.holders a := by
  intro ha
  obtain ⟨v, hv, hstrong, -⟩ := ObjectTable.mem_holders.mp ha
  rw [hweak v hv] at hstrong
  cases hstrong

/-- **Wrapping a pointer** either passes its reference to a wrapper that held none, or gives it up. -/
theorem wrap_cases (hs : s.table.Sound) (p : Pointer) (owned : Bool) (flags : TypeFlags) {r : Handle × Holdings Ω}
    (hr : s.wrap p owned flags = r) :
    (r.2.heap = s.heap ∧ (∀ b, r.2.table.refs.count b = s.table.refs.count b + p.refs.count b) ∧
      (∀ a, r.1 ∉ s.table.holders a) ∧
      ∃ v, r.2.table.live? r.1 = some v ∧ v.address = p.address ∧ v.ownership.isStrong = !p.weak) ∨
    (r.2 = s.drop p.refs ∧
      ∃ v, s.table.live? r.1 = some v ∧ v.address = p.address ∧ (p.weak = true ∨ v.ownership.isStrong = true)) := by
  have hwraps := wraps hs p owned flags
  have hbound := Wrapper.refs_bound p owned flags
  have hstrength := Wrapper.isStrong_bound p owned flags
  rw [hr] at hwraps
  cases hwraps with
  | fresh hnew =>
    refine .inl ⟨rfl, fun b => ?_, not_mem_holders ?_, .bound p owned flags, ?_, rfl, hstrength⟩
    · rw [← hbound]
      exact ObjectTable.count_refs_enter hs _ b
    · intro v hv
      rw [wrapNew_eq, hs.live?_allocate] at hv
      cases hv
    · rw [wrapNew_eq, hs.live?_enter, if_pos rfl]
  | @kept h v hv hkey halive hstrong => exact .inr ⟨rfl, v, hv, congrArg IdentityKey.address hkey, hstrong⟩
  | @promoted h v hv hkey halive hborrowed hstrong =>
    have haddress : v.address = p.address := congrArg IdentityKey.address hkey
    refine .inl ⟨rfl, fun b => ?_, not_mem_holders ?_, v.promoted, ?_, haddress, ?_⟩
    · have hset := ObjectTable.count_refs_setWrapper hv v.promoted b
      have hpromoted : v.promoted.refs = p.refs := by
        rw [Pointer.refs, hstrong, ← haddress]
        rfl
      rwa [Wrapper.refs_of_borrowed hborrowed, hpromoted, List.count_nil] at hset
    · intro v' hv'
      rw [hv, Option.some.injEq] at hv'
      rw [← hv', hborrowed]
    · rw [ObjectTable.live?_setWrapper hv, if_pos rfl]
    · rw [hstrong]
      rfl
  | @replaced h v hv hkey hdead hborrowed =>
    have hsound := hs.remove hv
    refine .inl ⟨rfl, fun b => ?_, not_mem_holders ?_, .bound p owned flags, ?_, rfl, hstrength⟩
    · have hremove := ObjectTable.count_refs_remove hv b
      have henter := ObjectTable.count_refs_enter hsound (.bound p owned flags) b
      rw [Wrapper.refs_of_borrowed hborrowed, List.count_nil, Nat.add_zero] at hremove
      rw [hbound, hremove] at henter
      exact henter
    · -- the new handle was not live before, unless it is the one removed
      intro v' hv'
      have hnew := hsound.live?_allocate (.bound p owned flags)
      rw [ObjectTable.live?_remove hv] at hnew
      split at hnew
      · rename_i heq
        rw [wrapNew_eq, heq, hv, Option.some.injEq] at hv'
        rw [← hv', hborrowed]
      · rw [wrapNew_eq, hnew] at hv'
        cases hv'
    · rw [wrapNew_eq, hsound.live?_enter, if_pos rfl]

theorem counts_wrap (hs : s.table.Sound) {p : Pointer} (hx : s.Counts (xs ++ p.refs)) (owned : Bool)
    (flags : TypeFlags) : (s.wrap p owned flags).2.Counts xs := by
  rcases wrap_cases hs p owned flags rfl with ⟨hheap, hrefs, -⟩ | ⟨heq, -⟩
  · rw [Counts, hheap]
    refine hx.perm fun b => ?_
    have hcount := hrefs b
    simp only [List.count_append]
    omega
  · rw [heq]
    refine Heap.Counts.release (hx.perm fun b => ?_)
    simp only [drop, List.count_append]
    omega

theorem counts_letGo (hx : s.Counts xs) (h : Handle) : (s.letGo h).Counts xs := by
  cases hv : s.table.live? h with
  | none => rwa [letGo_dead hv]
  | some v =>
    rw [letGo_live hv]
    refine Heap.Counts.release (Heap.Counts.perm hx fun b => ?_)
    have hremove := ObjectTable.count_refs_remove hv b
    simp only [List.count_append]
    omega

theorem counts_letGo_all (hx : s.Counts xs) (hs : List Handle) : (hs.foldl letGo s).Counts xs := by
  induction hs generalizing s with
  | nil => exact hx
  | cons h hs ih => exact ih (counts_letGo hx h)

theorem counts_takeUnique (hx : s.Counts xs) {h : Handle} {a : Address} {s' : Holdings Ω}
    (hs' : s.takeUnique h = .ok (a, s')) : s'.Counts (xs ++ [a]) := by
  obtain ⟨v, hv, -, hstrong, hsole, rfl, rfl⟩ := takeUnique_ok hs'
  have hretain : (s.heap.retain [v.address]).Counts (xs ++ s.table.refs ++ [v.address]) := by
    refine Heap.Counts.retain hx fun b hb => ?_
    rw [List.mem_singleton.mp hb, hsole]
    exact Nat.one_pos
  refine Heap.Counts.release (hretain.perm fun b => ?_)
  have hremove := ObjectTable.count_refs_remove hv b
  simp only [List.count_append]
  omega

theorem counts_takeCell {c : Class} {a : Address} (hx : s.Counts (xs ++ [a])) :
    (∃ x s', s.takeCell c a = (.ok x, s') ∧ s'.Counts (xs ++ x.refs) ∧ s'.table = s.table) ∨
      (∃ e, s.takeCell c a = (.error e, s.drop [a]) ∧ (s.drop [a]).Counts xs) := by
  have hpos : 0 < s.heap.strong a := hx.alive (by simp)
  have hmoved : s.heap.Counts (xs ++ s.table.refs ++ [a]) := hx.perm fun b => by
    simp only [List.count_append]
    omega
  obtain ⟨cell, hcell, hstrong⟩ := Heap.cell_of_strong hpos
  unfold takeCell
  rw [hcell]
  dsimp only
  split
  · exact .inr ⟨_, rfl, hmoved.release⟩
  rename_i x hx'
  split
  · rename_i hsole
    refine .inl ⟨x, _, rfl, ?_, rfl⟩
    have hobject : x.refs = ObjectModel.refs cell.object := by
      unfold Instance.of? at hx'
      split at hx'
      · cases hx'
        rfl
      · cases hx'
    refine (hmoved.vacate hcell hsole).perm fun b => ?_
    rw [hobject]
    simp only [List.count_append]
    omega
  · exact .inr ⟨_, rfl, hmoved.release⟩

end Holdings

namespace Ledger
variable {Ω : Type} [ObjectModel Ω] {w : Ledger Ω}

/-! ## The invariant -/

/-- The table is sound, and every strong count is the number of references there are. -/
structure Balanced (w : Ledger Ω) : Prop where
  sound : w.table.Sound
  counts : w.Counts w.held

theorem count_diff {held as : List Address} (h : covers held as = true) (b : Address) :
    (held.diff as).count b + as.count b = held.count b := by
  have hle : ∀ a ∈ as, as.count a ≤ held.count a := fun a ha => of_decide_eq_true (List.all_eq_true.mp h a ha)
  have hperm := (List.subperm_append_diff_self_of_count_le hle).count_eq b
  rw [List.count_append] at hperm
  omega

theorem balanced_empty : (empty : Ledger Ω).Balanced where
  sound := ObjectTable.sound_empty
  counts _ := rfl

/-- What is given away is no longer held. -/
theorem Balanced.give (hw : w.Balanced) {as : List Address} (h : covers w.held as = true) :
    w.Counts (w.held.diff as ++ as) :=
  hw.counts.perm fun b => by
    have hdiff := count_diff h b
    simp only [List.count_append]
    omega

/-- **One event keeps a ledger balanced.** -/
theorem Balanced.advance (hw : w.Balanced) {e : Event Ω} (he : w.enabled e = true) : (w.advance e).Balanced := by
  cases e with
  | make o =>
    refine ⟨hw.sound, ?_⟩
    -- the references in the object were held by native code
    have hgive : w.heap.Counts (w.held.diff (ObjectModel.refs o) ++ w.table.refs ++ ObjectModel.refs o) :=
      (hw.give he).perm fun b => by simp only [List.count_append]; omega
    exact hgive.alloc.perm fun b => by simp only [Ledger.advance, Heap.alloc, List.count_append]; omega
  | reuse a o =>
    simp only [enabled, Bool.and_eq_true, decide_eq_true_eq, Bool.not_eq_true'] at he
    obtain ⟨⟨⟨hcovers, hlt⟩, hdead⟩, -⟩ := he
    refine ⟨hw.sound, ?_⟩
    have hgive : w.heap.Counts (w.held.diff (ObjectModel.refs o) ++ w.table.refs ++ ObjectModel.refs o) :=
      (hw.give hcovers).perm fun b => by simp only [List.count_append]; omega
    have hcell := List.getElem?_eq_getElem hlt
    have hzero := Heap.not_isAlive_iff.mp hdead
    rw [Heap.strong_of_cell hcell] at hzero
    exact (hgive.replace hcell hzero).perm fun b => by simp only [Ledger.advance, List.count_append]; omega
  | clone a =>
    refine ⟨hw.sound, ?_⟩
    have halive : ∀ b ∈ [a], 0 < w.heap.strong b := by
      intro b hb
      rw [List.mem_singleton.mp hb]
      exact Heap.isAlive_iff.mp he
    have hretain := Heap.Counts.retain hw.counts halive
    exact hretain.perm fun b => by simp only [Ledger.advance, Holdings.retain, List.count_append]; omega
  | drop a =>
    refine ⟨hw.sound, ?_⟩
    exact Heap.Counts.release ((hw.give he).perm fun b => by
      simp only [Ledger.advance, Holdings.drop, List.count_append]; omega)
  | store a o =>
    rw [enabled, Bool.and_eq_true, List.all_eq_true] at he
    exact ⟨hw.sound, Heap.Counts.store hw.counts (Heap.isAlive_iff.mp he.1)
      fun b hb => Heap.isAlive_iff.mp (he.2 b hb)⟩
  | unwrap c a =>
    rcases Holdings.counts_takeCell (c := c) (hw.give he) with ⟨x, s', heq, hcounts, htable⟩ | ⟨e, heq, hcounts⟩
    · rw [Ledger.advance, heq]
      exact ⟨by rw [htable]; exact hw.sound, hcounts⟩
    · rw [Ledger.advance, heq]
      exact ⟨hw.sound, hcounts⟩
  | wrap p owned flags =>
    exact ⟨Holdings.sound_wrap hw.sound p owned flags, Holdings.counts_wrap hw.sound (hw.give he) owned flags⟩
  | release h => exact ⟨Holdings.sound_letGo hw.sound h, Holdings.counts_letGo hw.counts h⟩
  | takeUnique h =>
    rw [Ledger.advance]
    split
    · rename_i a s heq
      refine ⟨?_, Holdings.counts_takeUnique hw.counts heq⟩
      obtain ⟨v, hv, -, -, -, -, rfl⟩ := Holdings.takeUnique_ok heq
      exact hw.sound.remove hv
    · exact hw
  | clear =>
    rw [Ledger.advance, Holdings.clear_eq hw.sound]
    exact ⟨Holdings.sound_letGo_all hw.sound _, Holdings.counts_letGo_all hw.counts _⟩

theorem Balanced.step (hw : w.Balanced) (e : Event Ω) : (w.step e).Balanced := by
  rw [Ledger.step]
  split
  · rename_i he
    exact hw.advance he
  · exact hw

theorem Balanced.after (hw : w.Balanced) (es : List (Event Ω)) : (w.after es).Balanced := by
  induction es generalizing w with
  | nil => exact hw
  | cons e es ih => exact ih (hw.step e)

theorem balanced_run (es : List (Event Ω)) : (run es).Balanced :=
  balanced_empty.after es

/-! ## The table in every state -/

theorem Balanced.alive (hw : w.Balanced) {h : Handle} {v : Wrapper} (hv : w.table.live? h = some v)
    (hstrong : v.ownership.isStrong = true) : w.heap.isAlive v.address = true := by
  have hremove := ObjectTable.count_refs_remove hv v.address
  rw [Wrapper.refs_of_isStrong hstrong, List.count_singleton_self] at hremove
  refine Heap.isAlive_iff.mpr (hw.counts.alive (List.mem_append_right _ (List.count_pos_iff.mp ?_)))
  omega

/-- A handle is still live, and still the one of its key, when others before it have been released. -/
theorem lookup_letGo_all {s : Holdings Ω} (hs : s.table.Sound) {pre post : List Handle} {h : Handle}
    (hsplit : s.table.handles = pre ++ h :: post) :
    ∃ v, (pre.foldl Holdings.letGo s).table.live? h = some v ∧
      (pre.foldl Holdings.letGo s).table.identity.lookup v.key = some h := by
  have hmem : h ∈ s.table.handles := by rw [hsplit]; simp
  have hnodup := ObjectTable.nodup_handles s.table
  rw [hsplit, List.nodup_append] at hnodup
  have hpre : h ∉ pre := fun hin => hnodup.2.2 h hin h List.mem_cons_self rfl
  obtain ⟨v, hv⟩ := ObjectTable.mem_handles.mp hmem
  have hlive : (pre.foldl Holdings.letGo s).table.live? h = some v := by
    rw [Holdings.live?_letGo_all, if_neg hpre, hv]
  exact ⟨v, hlive, ((Holdings.sound_letGo_all hs pre).lookup _ _).mpr ⟨v, hlive, rfl⟩⟩

/-- **The parts of the table agree in every state**: the identity map has one entry for each live wrapper, under the
wrapper's key; the free list has each empty slot once; the flags of a wrapper say how it holds its object, which is
alive if it holds it strongly. So there is one live wrapper for each object and constness, and releasing a live handle
succeeds and finds the entry of just that handle; so does each release of a clearing. -/
theorem table_agrees (es : List (Event Ω)) :
    (run es).table.Sound ∧
    (∀ h v, (run es).table.live? h = some v → v.ownership.isStrong = true →
      (run es).heap.isAlive v.address = true) ∧
    (∀ g h v v', (run es).table.live? g = some v → (run es).table.live? h = some v' →
      v.address = v'.address → v.isConst = v'.isConst → g = h) ∧
    (∀ h v, (run es).table.live? h = some v →
      (run es).table.identity.lookup v.key = some h ∧ ∃ s, (run es).toHoldings.release h = .ok s) ∧
    (run es).toHoldings.clear = (run es).table.handles.foldl Holdings.letGo (run es).toHoldings ∧
    ∀ pre h post, (run es).table.handles = pre ++ h :: post →
      ∃ v, (pre.foldl Holdings.letGo (run es).toHoldings).table.live? h = some v ∧
        (pre.foldl Holdings.letGo (run es).toHoldings).table.identity.lookup v.key = some h := by
  have hw : (run es).Balanced := balanced_run es
  refine ⟨hw.sound, fun h v hv => hw.alive hv, fun g h v v' hv hv' haddress hconst => ?_, fun h v hv => ?_,
    Holdings.clear_eq hw.sound, fun pre h post hsplit => lookup_letGo_all hw.sound hsplit⟩
  · refine hw.sound.eq_of_key hv hv' ?_
    rw [Wrapper.key, Wrapper.key, haddress, hconst]
  · exact ⟨(hw.sound.lookup _ _).mpr ⟨v, hv, rfl⟩, _, Holdings.release_eq hv⟩

/-! ## References in every state -/

/-- Who keeps the objects of a ledger alive. -/
structure Accounted (w : Ledger Ω) : Prop where
  /-- A strong count is the number of references that native code and living objects hold, and of strong wrappers. -/
  strong : ∀ a, w.heap.strong a = w.held.count a + w.heap.refs.count a + (w.table.holders a).length
  /-- There are at most two strong wrappers, one for each constness. -/
  holders : ∀ a, (w.table.holders a).Nodup ∧ (w.table.holders a).length ≤ 2 ∧
    ∀ g ∈ w.table.holders a, ∀ h ∈ w.table.holders a,
      (w.table.live? g).any (·.isConst) = (w.table.live? h).any (·.isConst) → g = h
  /-- The object of a strong wrapper is there. -/
  owned : ∀ h v, w.table.live? h = some v → v.ownership.isStrong = true →
    h ∈ w.table.holders v.address ∧ w.cell h = .ok v.address
  /-- A borrowed wrapper keeps nothing alive, and its object is there as long as it is alive. -/
  borrowed : ∀ h v, w.table.live? h = some v → v.ownership = .borrowed →
    (∀ a, h ∉ w.table.holders a) ∧
      w.cell h = if w.heap.isAlive v.address then .ok v.address else .error (.useAfterFree h)
  /-- An object is gone once nobody holds it. -/
  gone : ∀ a, w.heap.isAlive a = false ↔ a ∉ w.held ∧ a ∉ w.heap.refs ∧ w.table.holders a = []

theorem Balanced.strong (hw : w.Balanced) (a : Address) :
    w.heap.strong a = w.held.count a + w.heap.refs.count a + (w.table.holders a).length := by
  have hcount := hw.counts a
  rw [List.count_append] at hcount
  rw [ObjectTable.length_holders]
  omega

theorem Balanced.accounted (hw : w.Balanced) : w.Accounted where
  strong := hw.strong
  holders a := ⟨(ObjectTable.nodup_handles _).filter _, hw.sound.length_holders_le a,
    fun _ hg _ hh => hw.sound.holders_inj hg hh⟩
  owned h v hv hstrong := by
    refine ⟨ObjectTable.mem_holders.mpr ⟨v, hv, hstrong, rfl⟩, ?_⟩
    rw [Holdings.cell_live hv, Wrapper.isAlive, hstrong]
    rfl
  borrowed h v hv hborrowed := by
    refine ⟨fun a ha => ?_, ?_⟩
    · obtain ⟨v', hv', hstrong, -⟩ := ObjectTable.mem_holders.mp ha
      rw [hv, Option.some.injEq] at hv'
      rw [← hv', hborrowed] at hstrong
      cases hstrong
    · rw [Holdings.cell_live hv, Wrapper.isAlive, hborrowed]
      rfl
  gone a := by
    rw [Heap.not_isAlive_iff, hw.strong a, ← List.count_eq_zero, ← List.count_eq_zero, ← List.length_eq_zero_iff]
    omega

/-- What becomes of the reference of a strong pointer that is wrapped: a wrapper that was not strong before keeps it,
or it is given up because the wrapper was strong already. -/
def Consumed (s : Holdings Ω) (p : Pointer) (r : Handle × Holdings Ω) : Prop :=
  (r.1 ∉ s.table.holders p.address ∧ r.1 ∈ r.2.table.holders p.address ∧ r.2.heap = s.heap ∧
    ∀ b, (r.2.table.holders b).length = (s.table.holders b).length + if b = p.address then 1 else 0) ∨
  (r.1 ∈ s.table.holders p.address ∧ r.2.table = s.table ∧
    ∀ b, r.2.heap.strong b = if b = p.address then s.heap.strong b - 1 else s.heap.strong b)

theorem Balanced.consumed (hw : w.Balanced) {p : Pointer} {owned : Bool} {flags : TypeFlags} (hstrong : p.weak = false)
    (hheld : w.enabled (.wrap p owned flags) = true) : Consumed w.toHoldings p (w.wrap p owned flags) := by
  have hrefs : p.refs = [p.address] := by
    rw [Pointer.refs, hstrong]
    rfl
  rcases Holdings.wrap_cases hw.sound p owned flags rfl with
    ⟨hheap, hcount, hnew, v, hv, haddress, hkept⟩ | ⟨heq, v, hv, haddress, hkept⟩
  · refine .inl ⟨hnew _, ObjectTable.mem_holders.mpr ⟨v, hv, ?_, haddress⟩, hheap, fun b => ?_⟩
    · rw [hkept, hstrong]
      rfl
    · rw [ObjectTable.length_holders, ObjectTable.length_holders, hcount b, hrefs, count_cons_address, List.count_nil,
        Nat.zero_add]
  · have hholds : v.ownership.isStrong = true := hkept.resolve_left (by rw [hstrong]; exact Bool.false_ne_true)
    have hmem := ObjectTable.mem_holders.mpr ⟨v, hv, hholds, haddress⟩
    refine .inr ⟨hmem, by rw [heq]; rfl, fun b => ?_⟩
    -- the pointer and the wrapper each hold the object
    have hone : 1 < w.heap.strong p.address := by
      have hgiven := count_diff hheld p.address
      rw [hrefs, List.count_singleton_self] at hgiven
      have hpos := List.length_pos_iff_exists_mem.mpr ⟨_, hmem⟩
      have hcount := hw.strong p.address
      omega
    rw [heq, hrefs]
    refine (Heap.release_one hone b).trans ?_
    by_cases hb : b = p.address
    · rw [if_pos hb, if_pos hb, hb]
    · rw [if_neg hb, if_neg hb]

theorem wrap_weak {s : Holdings Ω} (hs : s.table.Sound) {p : Pointer} (hweak : p.weak = true) (owned : Bool)
    (flags : TypeFlags) : (s.wrap p owned flags).2.heap = s.heap ∧
      ∀ b, ((s.wrap p owned flags).2.table.holders b).length = (s.table.holders b).length := by
  have hrefs : p.refs = [] := by
    rw [Pointer.refs, hweak]
    rfl
  rcases Holdings.wrap_cases hs p owned flags rfl with ⟨hheap, hcount, -⟩ | ⟨heq, -⟩
  · refine ⟨hheap, fun b => ?_⟩
    rw [ObjectTable.length_holders, ObjectTable.length_holders, hcount b, hrefs]
    rfl
  · rw [heq, hrefs]
    exact ⟨Heap.release_nil _, fun b => rfl⟩

theorem Balanced.cleared (hw : w.Balanced) : (∀ h, w.toHoldings.clear.table.live? h = none) ∧
    ∀ a, w.toHoldings.clear.heap.strong a = w.held.count a + w.toHoldings.clear.heap.refs.count a := by
  have hnone : ∀ h, w.toHoldings.clear.table.live? h = none := fun h => by
    rw [Holdings.clear_eq hw.sound]
    exact Holdings.live?_letGo_handles w.toHoldings h
  have hbalanced := (hw.advance (e := .clear) rfl).strong
  refine ⟨hnone, fun a => (hbalanced a).trans ?_⟩
  have hholders : (w.advance .clear).table.holders a = [] := by
    refine List.eq_nil_iff_forall_not_mem.mpr fun h hh => ?_
    obtain ⟨v, hv, -⟩ := ObjectTable.mem_holders.mp hh
    rw [show (w.advance .clear).table.live? h = none from hnone h] at hv
    cases hv
  rw [hholders]
  rfl

/-- **References are accounted for in every state**: an object is kept alive by the references that native code and
living objects hold and by its strong wrappers, of which there are at most two, and by nothing else. Wrapping a pointer
uses up its reference, if it has one; and once the table is cleared it keeps nothing alive. -/
theorem accounts (es : List (Event Ω)) :
    (run es).Accounted ∧
    (∀ p owned flags, p.weak = false → (run es).enabled (.wrap p owned flags) = true →
      Consumed (run es).toHoldings p ((run es).wrap p owned flags)) ∧
    (∀ p owned flags, p.weak = true →
      ((run es).wrap p owned flags).2.heap = (run es).heap ∧
        ∀ b, (((run es).wrap p owned flags).2.table.holders b).length = ((run es).table.holders b).length) ∧
    (∀ h, (run es).toHoldings.clear.table.live? h = none) ∧
    ∀ a, (run es).toHoldings.clear.heap.strong a =
      (run es).held.count a + (run es).toHoldings.clear.heap.refs.count a := by
  have hw : (run es).Balanced := balanced_run es
  exact ⟨hw.accounted, fun _ _ _ hstrong hheld => hw.consumed hstrong hheld,
    fun _ owned flags hweak => wrap_weak hw.sound hweak owned flags, hw.cleared⟩

end Ledger
end NativeBridge
