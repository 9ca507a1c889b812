import NativeBridge.Proofs.Object.Lifetime
import NativeBridge.Proofs.Object.Typed
/-!
# One handle for each object and constness

A pointer is wrapped under its address and its constness. As long as a wrapper for the two is live and its object is
there, wrapping a pointer to the object gives the wrapper's handle again (`Holdings.wrap_known`), and nothing else does
(`Holdings.wrap_ne`). Who is using the objects at the moment does not matter for that (`Holdings.Alike`), and what typed
native code does later on does not change it until the handle is discarded (`Holdings.Leads`).
-/
namespace NativeBridge
variable {Ω : Type} [ObjectModel Ω]

/-! ## Whoever is using the objects -/

namespace Heap
variable {h h' : Heap Ω}

/-- The object of each cell and the number of references to it. -/
def tally (h : Heap Ω) : List (Ω × Nat) :=
  h.cells.map fun c => (c.object, c.strong)

section
omit [ObjectModel Ω]

theorem tally_getElem? (h : Heap Ω) (a : Address) :
    h.tally[a]? = h.cells[a]?.map fun c => (c.object, c.strong) :=
  List.getElem?_map

theorem strong_eq_tally (h : Heap Ω) (a : Address) : h.strong a = (h.tally[a]?.map (·.2)).getD 0 := by
  rw [strong, tally_getElem?, Option.map_map]
  rfl

theorem strong_of_tally (heq : h.tally = h'.tally) (a : Address) : h.strong a = h'.strong a := by
  rw [strong_eq_tally, strong_eq_tally, heq]

theorem isAlive_of_tally (heq : h.tally = h'.tally) (a : Address) : h.isAlive a = h'.isAlive a := by
  rw [Bool.eq_iff_iff, isAlive_iff, isAlive_iff, strong_of_tally heq]

end

theorem classAt?_of_tally (heq : h.tally = h'.tally) (a : Address) : h.classAt? a = h'.classAt? a := by
  have hclass (h : Heap Ω) : h.classAt? a = h.tally[a]?.map fun x => ObjectModel.classOf x.1 := by
    rw [classAt?, tally_getElem?, Option.map_map]
    rfl
  rw [hclass, hclass, heq]

/-- Giving up references does the same, whoever is using the objects. -/
theorem tally_release (h : Heap Ω) (as : List Address) :
    ∀ h' : Heap Ω, h.tally = h'.tally → (h.release as).tally = (h'.release as).tally := by
  induction h, as using Heap.release.induct with
  | case1 h =>
    intro h' heq
    rw [release_nil, release_nil]
    exact heq
  | case2 h a rest hc ih =>
    intro h' heq
    have hdead : h.strong a = 0 := by rw [strong, hc]; rfl
    rw [release_dead hdead, release_dead ((strong_of_tally heq a).symm.trans hdead)]
    exact ih h' heq
  | case3 h a rest c hc hs ih =>
    intro h' heq
    have hdead : h.strong a = 0 := (strong_of_cell hc).trans hs
    rw [release_dead hdead, release_dead ((strong_of_tally heq a).symm.trans hdead)]
    exact ih h' heq
  | case4 h a rest c hc n hs inner ih =>
    intro h' heq
    have hcell : h.tally[a]? = h'.tally[a]? := by rw [heq]
    rw [tally_getElem?, tally_getElem?, hc, Option.map_some, eq_comm, Option.map_eq_some_iff] at hcell
    obtain ⟨c', hc', hcell⟩ := hcell
    obtain ⟨hobject, hstrong⟩ := Prod.mk.inj hcell
    rw [release_cons hc hs, release_cons hc' (hstrong.trans hs), hobject]
    refine ih _ ?_
    rw [tally, tally, List.map_set, List.map_set]
    exact congrArg (List.set · a (c.object, n)) heq

end Heap

namespace Holdings
variable {s s' s'' : Holdings Ω} {p : Pointer} {owned : Bool} {flags : TypeFlags}

/-- The same wrappers, objects and references, whoever is using the objects. -/
structure Alike (s s' : Holdings Ω) : Prop where
  table : s.table = s'.table
  tally : s.heap.tally = s'.heap.tally

omit [ObjectModel Ω] in
protected theorem Alike.refl (s : Holdings Ω) : s.Alike s :=
  ⟨rfl, rfl⟩

theorem Alike.ready (h : s.Alike s') (hs : s'.Ready) : s.Ready where
  sound := h.table ▸ hs.sound
  typed g w hw := by
    rw [Heap.classAt?_of_tally h.tally]
    exact hs.typed g w (h.table ▸ hw)

/-- A pointer is wrapped in the same way, whoever is using the objects. -/
theorem Alike.wrap (h : s.Alike s') (p : Pointer) (owned : Bool) (flags : TypeFlags) :
    (s.wrap p owned flags).1 = (s'.wrap p owned flags).1 ∧
      (s.wrap p owned flags).2.Alike (s'.wrap p owned flags).2 := by
  obtain ⟨heap, table⟩ := s
  obtain ⟨heap', table'⟩ := s'
  obtain ⟨rfl, htally⟩ := h
  have halive (v : Wrapper) : v.isAlive heap = v.isAlive heap' := by
    rw [Wrapper.isAlive, Wrapper.isAlive, Heap.isAlive_of_tally htally]
  unfold Holdings.wrap
  dsimp only
  split
  · exact ⟨rfl, rfl, htally⟩
  split
  · rename_i v hv
    rw [halive]
    split
    · split
      · exact ⟨rfl, rfl, htally⟩
      · exact ⟨rfl, rfl, Heap.tally_release _ _ _ htally⟩
    · rw [discard, discard, ObjectTable.live?_forget, hv]
      exact ⟨rfl, rfl, Heap.tally_release _ _ _ htally⟩
  · exact ⟨rfl, rfl, htally⟩

/-! ## Wrapping an object again -/

/-- **An object that has a live wrapper is known by its handle.** -/
theorem wrap_known (hs : s.table.Sound) {h : Handle} {v : Wrapper} (hv : s.table.live? h = some v)
    (halive : s.heap.isAlive v.address = true) (hkey : v.key = ⟨p.address, flags.contains .const⟩) :
    (s.wrap p owned flags).1 = h := by
  have hwraps := wraps hs p owned flags
  rw [← Wrapper.key_bound p owned flags] at hkey
  generalize s.wrap p owned flags = r at hwraps ⊢
  cases hwraps with
  | fresh hnew =>
    rw [(hs.lookup _ h).mpr ⟨v, hv, hkey⟩] at hnew
    cases hnew
  | kept hv' hkey' | promoted hv' hkey' => exact hs.eq_of_key hv' hv (hkey'.trans hkey.symm)
  | @replaced h' v' hv' hkey' hdead =>
    obtain rfl := hs.eq_of_key hv' hv (hkey'.trans hkey.symm)
    obtain rfl := Option.some.inj (hv.symm.trans hv')
    rw [halive] at hdead
    cases hdead

/-- A wrapper is for a cell that is there. -/
theorem Ready.address_lt (hs : s.Ready) {h : Handle} {v : Wrapper} (hv : s.table.live? h = some v) :
    v.address < s.heap.cells.length := by
  obtain ⟨_, hcell, -⟩ := Option.map_eq_some_iff.mp (hs.typed h v hv)
  exact (List.getElem?_eq_some_iff.mp hcell).1

/-- An object that no wrapper is for is wrapped anew. -/
theorem wrap_unknown (hs : s.table.Sound) (hnew : ∀ h v, s.table.live? h = some v → v.address ≠ p.address) :
    s.wrap p owned flags = s.wrapNew (.bound p owned flags) := by
  have hother {h : Handle} {v : Wrapper} (hv : s.table.live? h = some v) (hkey : v.key = (Wrapper.bound p owned flags).key) :
      False :=
    hnew h v hv (congrArg IdentityKey.address hkey)
  have hwraps := wraps hs p owned flags
  generalize s.wrap p owned flags = r at hwraps ⊢
  cases hwraps with
  | fresh => rfl
  | kept hv hkey | promoted hv hkey | replaced hv hkey => exact (hother hv hkey).elim

/-- A pointer to another object, or of another constness, gets another handle. -/
theorem wrap_ne (hs : s.table.Sound) {h : Handle} {v : Wrapper} (hv : s.table.live? h = some v)
    (hkey : v.key ≠ ⟨p.address, flags.contains .const⟩) : (s.wrap p owned flags).1 ≠ h := by
  have hwraps := wraps hs p owned flags
  rw [← Wrapper.key_bound p owned flags] at hkey
  generalize s.wrap p owned flags = r at hwraps ⊢
  cases hwraps with
  | fresh hnew => exact (Ledger.ne_of_live (hs.live?_allocate _) hv).symm
  | kept hv' hkey' | promoted hv' hkey' =>
    rintro rfl
    obtain rfl := Option.some.inj (hv.symm.trans hv')
    exact hkey hkey'
  | @replaced h' v' hv' hkey' =>
    have hne : h ≠ h' := by
      rintro rfl
      obtain rfl := Option.some.inj (hv.symm.trans hv')
      exact hkey hkey'
    have hkept : (s.table.remove h' v').live? h = some v := by
      rw [ObjectTable.live?_remove hv', if_neg hne, hv]
    exact (Ledger.ne_of_live ((hs.remove hv').live?_allocate _) hkept).symm

end Holdings

/-! ## What typed native code does later on -/

theorem Wrapper.Continues.isStrong {v v' : Wrapper} (h : v'.Continues v) (hstrong : v.ownership.isStrong = true) :
    v'.ownership.isStrong = true := by
  rcases h.ownership with heq | ⟨-, hshared⟩
  · rwa [heq]
  · rw [hshared]
    rfl

namespace Ledger
variable {w : Ledger Ω}

/-- Each of the events is one of typed native code when it comes. -/
def Typed (w : Ledger Ω) : List (Event Ω) → Prop
  | [] => True
  | e :: es => w.suits e = true ∧ (w.step e).Typed es

theorem ready_after (hw : w.Ready) {es : List (Event Ω)} (hes : w.Typed es) : (w.after es).Ready := by
  induction es generalizing w with
  | nil => exact hw
  | cons e es ih =>
    refine ih ?_ hes.2
    have hready := ready_typedStep hw e
    rwa [typedStep, if_pos hes.1] at hready

theorem typedRun_append (es : List (Event Ω)) (e : Event Ω) : typedRun (es ++ [e]) = (typedRun es).typedStep e :=
  List.foldl_append

theorem balanced_typedRun (es : List (Event Ω)) : (typedRun es).Balanced := by
  have hrun : ∀ w : Ledger Ω, w.Balanced → (es.foldl typedStep w).Balanced := by
    induction es with
    | nil => exact fun w hw => hw
    | cons e es ih => exact fun w hw => ih _ (balanced_typedStep hw e)
  exact hrun empty balanced_empty

end Ledger

namespace Holdings
variable {s s' : Holdings Ω} {hs : List Handle}

open Ledger

/-- Typed native code that has come to `s` may come to `s'` later, and none of the handles has been discarded on the
way. -/
def Leads (s : Holdings Ω) (hs : List Handle) (s' : Holdings Ω) : Prop :=
  ∃ es es', s.Alike (typedRun es).toHoldings ∧ (typedRun es).Typed es' ∧
    (∀ h ∈ hs, h ∉ (typedRun es).discards es') ∧ s'.Alike ((typedRun es).after es').toHoldings

theorem Leads.refl {es : List (Event Ω)} (h : s.Alike (typedRun es).toHoldings) (hs : List Handle) : s.Leads hs s :=
  ⟨es, [], h, trivial, fun _ _ => List.not_mem_nil, h⟩

theorem Leads.ready (h : s.Leads hs s') : s'.Ready := by
  obtain ⟨es, es', -, htyped, -, hs'⟩ := h
  exact hs'.ready (ready_after (coherent_typedRun es).toReady htyped)

/-- The wrapper of a handle that is not discarded goes on, and if it is strong its object is there. -/
theorem Leads.live (h : s.Leads hs s') {g : Handle} (hg : g ∈ hs) {v : Wrapper} (hv : s.table.live? g = some v) :
    ∃ v', s'.table.live? g = some v' ∧ v'.Continues v ∧
      (v.ownership.isStrong = true → s'.heap.isAlive v.address = true) := by
  obtain ⟨es, es', halike, htyped, hnot, halike'⟩ := h
  have hbalanced := balanced_typedRun es
  obtain ⟨v', hv', hcontinues⟩ := live_after hbalanced (halike.table ▸ hv) (hnot g hg)
  refine ⟨v', halike'.table ▸ hv', hcontinues, fun hstrong => ?_⟩
  rw [Heap.isAlive_of_tally halike'.tally, ← hcontinues.address]
  exact (hbalanced.after es').alive hv' (hcontinues.isStrong hstrong)

end Holdings
end NativeBridge
