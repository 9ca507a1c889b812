import NativeBridge.Catalog.Specimen
import NativeBridge.Proofs.Call.Moves
import NativeBridge.Proofs.Object.Typed
/-!
# Moving out a solely held object

An object of class `c` can be moved out of a handle if its wrapper is live, of just that class, not the receiver's, not
const, and holds the only strong reference (`Access.Movable`). That is what the check asks for, and in every state that
typed native code reaches the move then succeeds: it hands out the object itself and discards that one wrapper, and
otherwise it fails as the check does and leaves everything as it was (`Access.takeUnique_foretold`).
-/
namespace NativeBridge
variable {Ω : Type} [ObjectModel Ω]

open Act ObjectTable

namespace Heap

/-- The object in a cell, alive or not. -/
def object? (h : Heap Ω) (a : Address) : Option Ω :=
  h.cells[a]?.map (·.object)

end Heap

namespace Holdings
variable {s : Holdings Ω}

/-- The wrapper of `h` is gone with the object `o` that it alone kept, and nothing else has changed. -/
structure Departed (s s' : Holdings Ω) (h : Handle) (v : Wrapper) (o : Ω) : Prop where
  /-- The object is the one that was in the wrapper's cell. -/
  object : s.heap.object? v.address = some o
  /-- The slot of the handle is empty, and its generation is stepped. -/
  table : s'.table = s.table.remove h v
  discarded : s'.table.live? h = none
  /-- Every other wrapper and every other object is as it was. -/
  others : ∀ g, g ≠ h → s'.table.live? g = s.table.live? g
  cells : ∀ a, a ≠ v.address → s'.heap.cells[a]? = s.heap.cells[a]?
  /-- No reference to the object is alive. -/
  dead : s'.heap.isAlive v.address = false
  /-- A wrapper that is left for it is borrowed, and its object cannot be reached. -/
  borrowed : ∀ g w, s'.table.live? g = some w → w.address = v.address →
    w.ownership = .borrowed ∧ s'.cell g = .error (.useAfterFree g)

theorem takeCell_of_sole {c : Class} {a : Address} {x : Instance Ω c} (hx : s.heap.object? a = some x.object)
    (hsole : s.heap.strong a = 1) : s.takeCell c a = (.ok x, { s with heap := s.heap.vacate a }) := by
  obtain ⟨cell, hcell, hobject⟩ := Option.map_eq_some_iff.mp hx
  have hinstance : Instance.of? c cell.object = some x := by
    rw [hobject]
    exact dif_pos x.isOf
  rw [takeCell, hcell]
  dsimp only
  rw [hinstance]
  dsimp only
  rw [if_pos ((Heap.strong_of_cell hcell).symm.trans hsole)]

theorem departed_moveOut (hs : s.Coherent) {h : Handle} {v : Wrapper} {o : Ω} (hv : s.table.live? h = some v)
    (hstrong : v.ownership.isStrong = true) (hsole : s.heap.strong v.address = 1)
    (ho : s.heap.object? v.address = some o) : s.Departed (s.moveOut h v) h v o := by
  have hlive (g : Handle) : (s.moveOut h v).table.live? g = if g = h then none else s.table.live? g :=
    ObjectTable.live?_remove hv g
  have hdead : (s.moveOut h v).heap.isAlive v.address = false := by
    rw [Heap.not_isAlive_iff, moveOut, Heap.strong_vacate, if_pos rfl]
  refine ⟨ho, rfl, (hlive h).trans (if_pos rfl), fun g hg => (hlive g).trans (if_neg hg),
    fun a ha => Heap.modify_other s.heap _ (Ne.symm ha), hdead, fun g w hw haddress => ?_⟩
  have hborrowed : w.ownership = .borrowed := by
    rw [hlive] at hw
    split at hw
    · cases hw
    · rename_i hne
      exact hs.sole hv hstrong hsole hw hne haddress
  refine ⟨hborrowed, ?_⟩
  have halive : w.isAlive (s.moveOut h v).heap = false := by
    rw [Wrapper.isAlive, haddress, hdead, hborrowed]
    rfl
  rw [cell_live hw, halive]
  rfl

end Holdings

namespace Access
variable {b b' : Boundary Ω} {c : Class} {h : Handle}

/-- An object is moved out of a pointer that is the only reference to it. -/
theorem intoOwned_ok {a : Address} {x : Instance Ω c} {weak : Nat} {writing : Bool}
    (hcell : b.heap.cells[a]? = some ⟨x.object, 1, weak, writing⟩) :
    intoOwned c ⟨c, a, false⟩ b = .ok x { b with heap := b.heap.vacate a } := by
  have htaken : b.toHoldings.intoOwned c ⟨c, a, false⟩ = (.ok x, { b.toHoldings with heap := b.heap.vacate a }) := by
    rw [Holdings.intoOwned, if_neg Bool.false_ne_true]
    exact Holdings.takeCell_of_sole (congrArg (Option.map Cell.object) hcell) (Heap.strong_of_cell hcell)
  unfold intoOwned
  rw [get_bind, htaken]
  rfl

/-- The wrapper `v` of `h` is one that an object of class `c` can be moved out of, in a call with the given receiver. -/
structure Movable (receiver : Option Handle) (s : Holdings Ω) (c : Class) (h : Handle) (v : Wrapper) : Prop where
  live : s.table.live? h = some v
  cls : v.cls = c
  receiver : receiver ≠ some h
  const : v.isConst = false
  strong : v.ownership.isStrong = true
  sole : s.heap.strong v.address = 1

section
variable {receiver : Option Handle} {s : Holdings Ω} {v : Wrapper}

omit [ObjectModel Ω] in
theorem Movable.uniqueCell (hv : Movable receiver s c h v) : s.uniqueCell h = .ok v.address := by
  rw [Holdings.uniqueCell, get_eq_ok.mpr hv.live]
  change (if v.isConst = true then _ else _) = _
  rw [if_neg (by rw [hv.const]; exact Bool.false_ne_true)]
  rw [hv.strong, hv.sole]
  rfl

theorem Movable.takeUnique (hv : Movable receiver s c h v) :
    s.takeUnique h = .ok (v.address, { s with table := s.table.remove h v }) := by
  rw [Holdings.takeUnique, hv.uniqueCell]
  change (do let s ← (s.retain [v.address]).release h; return (v.address, s)) = _
  rw [Holdings.release_eq (s := s.retain [v.address]) hv.live, Wrapper.refs_of_isStrong hv.strong]
  refine congrArg (fun heap => Except.ok (v.address, (⟨heap, s.table.remove h v⟩ : Holdings Ω))) ?_
  exact Heap.release_retain (by rw [hv.sole]; exact Nat.one_pos)

theorem Movable.object (hs : s.Coherent) (hv : Movable receiver s c h v) :
    ∃ x : Instance Ω c, s.heap.object? v.address = some x.object := by
  have hclass := hs.typed h v hv.live
  rw [Heap.classAt?, Option.map_eq_some_iff, hv.cls] at hclass
  obtain ⟨cell, hcell, hclass⟩ := hclass
  exact ⟨⟨cell.object, hclass⟩, by rw [Heap.object?, hcell]; rfl⟩

end

omit [ObjectModel Ω] in
/-- **What the check asks for.** -/
theorem checkUnique_eq_ok : checkUnique b c h = .ok () ↔ ∃ v, Movable b.call.receiver b.toHoldings c h v := by
  constructor
  · intro hcheck
    unfold checkUnique at hcheck
    obtain ⟨v, hv, hcheck⟩ := NativeBridge.bind_ok hcheck
    obtain ⟨hcls, hcheck⟩ := guard_ok hcheck
    obtain ⟨hreceiver, hcheck⟩ := guard_ok hcheck
    obtain ⟨a, ha, -⟩ := NativeBridge.bind_ok hcheck
    obtain ⟨v', hv', hconst, hstrong, hsole, -⟩ := Holdings.uniqueCell_ok ha
    obtain rfl : v' = v := Option.some.inj (hv'.symm.trans (get_eq_ok.mp hv))
    exact ⟨v', hv', Decidable.not_not.mp hcls, hreceiver, hconst, hstrong, hsole⟩
  · rintro ⟨v, hv⟩
    have hcell := hv.uniqueCell
    unfold checkUnique
    rw [get_eq_ok.mpr hv.live]
    change (if v.cls ≠ c then _ else if b.call.receiver = some h then _ else _) = _
    rw [if_neg (not_not.mpr hv.cls), if_neg hv.receiver, hcell]
    rfl

/-- What is left of a move once its check has passed is the taking of the object out of its cell. -/
theorem Movable.takeUnique_eq {v : Wrapper} (hv : Movable b.call.receiver b.toHoldings c h v) : Access.takeUnique c h b =
    let r := ({ b.toHoldings with table := b.table.remove h v } : Holdings Ω).takeCell c v.address
    Act.ofExcept r.1 { b with toHoldings := r.2 } := by
  unfold Access.takeUnique
  rw [get_bind, checkUnique_eq_ok.mpr ⟨v, hv⟩]
  change (Act.ofExcept (b.toHoldings.takeUnique h) >>= _) b = _
  rw [hv.takeUnique]
  rfl

/-- **What a move comes to**: the object of a movable wrapper is handed out, and nothing but that wrapper and its cell is
changed. -/
theorem takeUnique_eq_ok {x : Instance Ω c} :
    takeUnique c h b = .ok x b' ↔ ∃ v, Movable b.call.receiver b.toHoldings c h v ∧
      b.heap.object? v.address = some x.object ∧ b' = { b with toHoldings := b.toHoldings.moveOut h v } := by
  cases hcheck : checkUnique b c h with
  | error e =>
    rw [takeUnique_refused hcheck]
    constructor
    · rintro ⟨⟩
    · rintro ⟨v, hv, -⟩
      rw [checkUnique_eq_ok.mpr ⟨v, hv⟩] at hcheck
      cases hcheck
  | ok _ =>
    obtain ⟨v, hv⟩ := checkUnique_eq_ok.mp hcheck
    obtain ⟨cell, hcell, -⟩ := Heap.cell_of_strong (by rw [hv.sole]; exact Nat.one_pos : 0 < b.heap.strong v.address)
    have hobject : b.heap.object? v.address = some cell.object := by
      rw [Heap.object?, hcell]
      rfl
    have huniq {v' : Wrapper} (hv' : Movable b.call.receiver b.toHoldings c h v') : v' = v :=
      Option.some.inj (hv'.live.symm.trans hv.live)
    rw [hv.takeUnique_eq]
    by_cases hclass : ObjectModel.classOf cell.object = c
    · have htaken := Holdings.takeCell_of_sole (s := { b.toHoldings with table := b.table.remove h v })
        (x := ⟨cell.object, hclass⟩) hobject hv.sole
      dsimp only
      rw [htaken]
      constructor
      · rintro ⟨⟩
        exact ⟨v, hv, hobject, rfl⟩
      · rintro ⟨v', hv', ho, rfl⟩
        obtain rfl := huniq hv'
        rw [hobject, Option.some.injEq] at ho
        obtain ⟨o, ho'⟩ := x
        obtain rfl : cell.object = o := ho
        rfl
    · rw [Holdings.takeCell]
      dsimp only
      rw [hcell]
      dsimp only
      rw [Instance.of?, dif_neg hclass]
      constructor
      · rintro ⟨⟩
      · rintro ⟨v', hv', ho, -⟩
        obtain rfl := huniq hv'
        rw [hobject, Option.some.injEq] at ho
        rw [ho] at hclass
        exact absurd x.isOf hclass

theorem takeUnique_movable (hb : b.toHoldings.Coherent) {v : Wrapper} (hv : Movable b.call.receiver b.toHoldings c h v) :
    ∃ x, takeUnique c h b = .ok x { b with toHoldings := b.toHoldings.moveOut h v } ∧
      b.toHoldings.Departed (b.toHoldings.moveOut h v) h v x.object := by
  obtain ⟨x, hx⟩ := hv.object hb
  exact ⟨x, takeUnique_eq_ok.mpr ⟨v, hv, hx, rfl⟩, Holdings.departed_moveOut hb hv.live hv.strong hv.sole hx⟩

/-- **The check foretells the move.** In every state that typed native code reaches and for every call in it, the move
fails just when the check does, with the same error and leaving everything as it was; otherwise it hands out the object
of the wrapper, and the wrapper is all that is gone: what is left for the object are borrowed wrappers and pointers
that no longer reach it. Once the wrapper is released, moving the object out of its cell cannot fail any more. -/
theorem takeUnique_foretold (es : List (Event Ω)) (b₀ : Boundary Ω) (c : Class) (h : Handle) :
    let b : Boundary Ω := { b₀ with toHoldings := (Ledger.typedRun es).toHoldings }
    (∀ e, checkUnique b c h = .error e → takeUnique c h b = .error (.error e) b) ∧
    (checkUnique b c h = .ok () → ∃ v x b', b.table.live? h = some v ∧ takeUnique c h b = .ok x b' ∧
      b' = { b with toHoldings := b'.toHoldings } ∧ b.toHoldings.Departed b'.toHoldings h v x.object ∧
      ∀ (p : Pointer) (d : Class), p.address = v.address →
        livePointer b' p d = .error (.mismatch d.name ("dangling " ++ p.cls.name))) ∧
    (∀ i b', takeUnique c h b = .error i b' → ∃ e, checkUnique b c h = .error e ∧ i = .error e ∧ b' = b) ∧
    ∀ a s, checkUnique b c h = .ok () → b.toHoldings.takeUnique h = .ok (a, s) →
      ∃ x, s.takeCell c a = (.ok x, { s with heap := s.heap.vacate a }) := by
  intro b
  have hb : b.toHoldings.Coherent := Ledger.coherent_typedRun es
  have hrefused : ∀ e, checkUnique b c h = .error e → takeUnique c h b = .error (.error e) b :=
    fun _ => takeUnique_refused
  have htaken : checkUnique b c h = .ok () → ∃ v, Movable b.call.receiver b.toHoldings c h v ∧ ∃ x,
      takeUnique c h b = .ok x { b with toHoldings := b.toHoldings.moveOut h v } ∧
      b.toHoldings.Departed (b.toHoldings.moveOut h v) h v x.object := by
    intro hcheck
    obtain ⟨v, hv⟩ := checkUnique_eq_ok.mp hcheck
    exact ⟨v, hv, takeUnique_movable hb hv⟩
  refine ⟨hrefused, fun hcheck => ?_, fun i b' hfail => ?_, fun a s hcheck htake => ?_⟩
  · obtain ⟨v, hv, x, hx, hdeparted⟩ := htaken hcheck
    refine ⟨v, x, _, hv.live, hx, rfl, hdeparted, fun p d hp => ?_⟩
    rw [livePointer, if_neg]
    rw [hp]
    exact Bool.eq_false_iff.mp hdeparted.dead
  · cases hcheck : checkUnique b c h with
    | error e =>
      rw [hrefused e hcheck] at hfail
      cases hfail
      exact ⟨e, rfl, rfl, rfl⟩
    | ok _ =>
      obtain ⟨v, -, x, hx, -⟩ := htaken hcheck
      rw [hx] at hfail
      cases hfail
  · obtain ⟨v, hv⟩ := checkUnique_eq_ok.mp hcheck
    obtain ⟨x, hx⟩ := hv.object hb
    rw [hv.takeUnique] at htake
    cases htake
    exact ⟨x, Holdings.takeCell_of_sole hx hv.sole⟩

open Catalog in
/-- A node that is wrapped once is moved out, and its wrapper is gone. -/
theorem takeUnique_node :
    let es : List (Event Specimen) := [.make (.node "a"), .wrap ⟨Species.node.cls, 0, false⟩ true .none]
    let b : Boundary Specimen := { (Boundary.empty : Boundary Specimen) with toHoldings := (Ledger.typedRun es).toHoldings }
    ∃ x b', takeUnique Species.node.cls ⟨0, 0⟩ b = .ok x b' ∧ b'.table.live? ⟨0, 0⟩ = none := by
  intro es b
  have hcheck : checkUnique b Species.node.cls ⟨0, 0⟩ = .ok () := rfl
  obtain ⟨-, htaken, -⟩ := takeUnique_foretold es (Boundary.empty : Boundary Specimen) Species.node.cls ⟨0, 0⟩
  obtain ⟨v, x, b', -, hx, -, hdeparted, -⟩ := htaken hcheck
  exact ⟨x, b', hx, hdeparted.discarded⟩

end Access
end NativeBridge
