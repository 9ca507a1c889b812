import NativeBridge.Proofs.Call.Agreement
import NativeBridge.Proofs.Call.Unique
import NativeBridge.Proofs.Object.Sole
/-!
# Steps that read values back

Reading back what was sent touches the cells that were made for it, and no others that were made since some moment and
that a wrapper alone holds (`Boundary.Reads`). So do the steps that it is made of (`Act.Recovers`): an object is copied
out of its wrapper (`Access.recovers_copy`), or shared with it (`Access.recovers_share`).
-/
namespace NativeBridge
variable {Ω : Type} [ObjectModel Ω] {α β : Type} {old : Address} {once : Prop} {R R' : Address → Prop}

open Act

namespace Boundary
variable {b b' b'' : Boundary Ω} {as : List Address}

/-- No error is recorded for the call in progress. -/
def Clear (b : Boundary Ω) : Prop :=
  b.errorIn b.call.sink = none

/-- What reading values back does. Objects that were made after `old` and are held by a wrapper alone are left alone
outside `R`, no wrapper is made, and only if values may be read once only one is gone. -/
structure Reads (old : Address) (once : Prop) (R : Address → Prop) (b b' : Boundary Ω) : Prop where
  keeps : ∀ a, ¬R a → b.toHoldings.Keeps old b'.toHoldings a
  fewer : ∀ h w, b'.table.live? h = some w → b.table.live? h = some w
  table : ¬once → b'.table = b.table
  call : b'.call = b.call
  clear : b.Clear → b'.Clear

omit [ObjectModel Ω] in
theorem Clear.of_eq (hb : b.Clear) (hcall : b'.call = b.call) (hsinks : b'.sinks = b.sinks) : b'.Clear := by
  unfold Clear errorIn
  rw [hcall, hsinks]
  exact hb

theorem Reads.refl (b : Boundary Ω) : b.Reads old once R b :=
  ⟨fun _ _ => .refl .., fun _ _ => id, fun _ => rfl, rfl, id⟩

theorem Reads.trans (h : b.Reads old once R b') (h' : b'.Reads old once R b'') : b.Reads old once R b'' where
  keeps a ha := (h.keeps a ha).trans (h'.keeps a ha)
  fewer g w hw := h.fewer g w (h'.fewer g w hw)
  table honce := (h'.table honce).trans (h.table honce)
  call := h'.call.trans h.call
  clear hb := h'.clear (h.clear hb)

theorem Reads.mono (h : b.Reads old once R b') (hR : ∀ a, R a → R' a) : b.Reads old once R' b' :=
  { h with keeps := fun a ha => h.keeps a fun hr => ha (hR a hr) }

theorem Reads.of_heap {heap : Heap Ω} (h : ∀ a, ¬R a → b.toHoldings.Keeps old { b.toHoldings with heap } a) :
    b.Reads old once R { b with heap } :=
  ⟨h, fun _ _ => id, fun _ => rfl, rfl, id⟩

theorem reads_retain (b : Boundary Ω) (has : ∀ a ∈ as, a < old) : b.Reads old once R (b.retain as) :=
  .of_heap fun _ _ => Holdings.keeps_retain fun hold ha => absurd (has _ ha) (Nat.not_lt.mpr hold)

theorem reads_drop (b : Boundary Ω) (has : ∀ a ∈ as, a < old) : b.Reads old once R (b.drop as) :=
  .of_heap fun _ _ => Holdings.keeps_drop fun hold _ _ ha => absurd (has _ ha) (Nat.not_lt.mpr hold)

end Boundary

namespace Act
variable {act : Act Ω α} {f : α → Act Ω β} {b : Boundary Ω} {x : α} {y : β} {as : List Address}

/-- The action gives `x` and does no more than reading values back does. -/
def Recovers (act : Act Ω α) (old : Address) (once : Prop) (R : Address → Prop) (b : Boundary Ω) (x : α) : Prop :=
  ∃ b', act b = .ok x b' ∧ b.Reads old once R b'

theorem Recovers.pure (b : Boundary Ω) (x : α) : (pure x : Act Ω α).Recovers old once R b x :=
  ⟨b, rfl, .refl b⟩

theorem Recovers.modify {f : Boundary Ω → Boundary Ω} (h : b.Reads old once R (f b)) :
    (modify f : Act Ω Unit).Recovers old once R b () :=
  ⟨f b, rfl, h⟩

theorem Recovers.mono (h : act.Recovers old once R b x) (hR : ∀ a, R a → R' a) : act.Recovers old once R' b x := by
  obtain ⟨b', hact, hreads⟩ := h
  exact ⟨b', hact, hreads.mono hR⟩

theorem Recovers.bind (h : act.Recovers old once R b x)
    (hf : ∀ b', b.Reads old once R b' → (f x).Recovers old once R b' y) : (act >>= f).Recovers old once R b y := by
  obtain ⟨b', hact, hreads⟩ := h
  obtain ⟨b'', hf, hreads'⟩ := hf b' hreads
  exact ⟨b'', (Act.bind_ok hact).trans hf, hreads.trans hreads'⟩

theorem Recovers.ensuring {after : Boundary Ω → Boundary Ω} (h : act.Recovers old once R b x)
    (hafter : ∀ b' : Boundary Ω, b'.Reads old once R (after b')) : (act.ensuring after).Recovers old once R b x := by
  obtain ⟨b', hact, hreads⟩ := h
  exact ⟨after b', by rw [Act.ensuring, hact], hreads.trans (hafter b')⟩

theorem Recovers.atArgument (h : act.Recovers old once R b x) (i : Nat) :
    (act.atArgument i).Recovers old once R b x := by
  obtain ⟨b', hact, hreads⟩ := h
  exact ⟨b', by rw [Act.atArgument, hact], hreads⟩

theorem Recovers.attempt (h : act.Recovers old once R b x) : act.attempt.Recovers old once R b (.ok x) := by
  obtain ⟨b', hact, hreads⟩ := h
  exact ⟨b', by rw [Act.attempt, hact], hreads⟩

theorem Recovers.orDrop (h : act.Recovers old once R b x) (as : List Address) :
    (act.orDrop as).Recovers old once R b x := by
  obtain ⟨b', hact, hreads⟩ := h
  exact ⟨b', orDrop_ok hact, hreads⟩

theorem Recovers.thenDrop (h : act.Recovers old once R b x) (has : ∀ a ∈ as, a < old) :
    (act.thenDrop as).Recovers old once R b x :=
  h.ensuring fun b' => b'.reads_drop has

theorem recovers_drop (b : Boundary Ω) (as : List Address) (has : ∀ a ∈ as, a < old) :
    (drop as : Act Ω Unit).Recovers old once R b () :=
  .modify (b.reads_drop has)

theorem recovers_retain (b : Boundary Ω) (has : ∀ a ∈ as, a < old) :
    (retain as : Act Ω Unit).Recovers old once R b () :=
  .modify (b.reads_retain has)

end Act

namespace Access

/-- An object that nobody is using is copied, and only its cell is touched. -/
theorem recovers_copy (sv : Services Ω) {b : Boundary Ω} {h : Handle} {w : Wrapper} {c : Class} {x : Instance Ω c}
    (hw : b.table.live? h = some w) (hstrong : w.ownership.isStrong = true) (hcls : w.cls = c)
    (hcell : b.heap.cells[w.address]? = some ⟨x.object, 1, 0, false⟩) (hx : ∀ a ∈ x.refs, a < old) (hR : R w.address) :
    (readObject sv h c Convert.copyOf).Recovers old once R b x := by
  have hother {a : Address} (ha : ¬R a) : w.address ≠ a := fun heq => ha (heq ▸ hR)
  have hlocate : locate sv b h c false = .ok (w.address, []) := by
    have hget : b.table.get h = .ok w := ObjectTable.get_eq_ok.mpr hw
    have halive : w.isAlive b.heap = true := by rw [Wrapper.isAlive, hstrong, Bool.true_or]
    unfold locate
    rw [hget]
    change (do
      let p ← path sv c w.cls
      if w.isAlive b.heap then return (w.address, p)
      throw (.useAfterFree h) : Except CallError _) = _
    rw [path, if_pos hcls]
    change (if w.isAlive b.heap then _ else _) = _
    rw [if_pos halive]
    rfl
  have hpart : partAt b.heap w.address [] c = some ⟨w.address, [], x.object, x⟩ := by
    have hof : Instance.of? c x.object = some x := by
      unfold Instance.of?
      rw [dif_pos x.isOf]
    unfold partAt
    rw [hcell, Option.bind_some, Upcast.viewAlong, Option.bind_some, hof, Option.map_some]
  have hbegin : begin? false b.heap w.address =
      some (b.heap.modify w.address fun c => { c with readers := c.readers + 1 }) := by
    change b.heap.beginRead? w.address = _
    unfold Heap.beginRead?
    rw [hcell]
    rfl
  have hseize : (seize false w.address [] c).Recovers old once R b ⟨w.address, [], x.object, x⟩ := by
    unfold seize
    rw [Act.Recovers, get_bind, hbegin, hpart]
    refine Recovers.bind (.modify (.of_heap fun a ha => ?_)) fun b' _ => .pure b' _
    have hreading : b.toHoldings.Keeps old
        { b.toHoldings with heap := b.heap.modify w.address fun c => { c with readers := c.readers + 1 } } a :=
      Holdings.keeps_modify (hother ha) fun _ => rfl
    exact hreading.trans (Holdings.keeps_retain fun _ hmem => hother ha (List.mem_singleton.mp hmem).symm)
  unfold readObject
  rw [Act.Recovers, get_bind, hlocate]
  change (reading w.address [] c Convert.copyOf).Recovers old once R b x
  rw [reading_eq]
  refine hseize.bind fun b₁ _ => Recovers.ensuring ?_ fun b₂ => .of_heap fun a ha => ?_
  · exact (recovers_retain b₁ hx).bind fun b' _ => .pure b' _
  · have hread : b₂.toHoldings.Keeps old { b₂.toHoldings with heap := b₂.heap.endRead w.address } a :=
      Holdings.keeps_modify (hother ha) fun _ => rfl
    exact hread.trans (Holdings.keeps_drop fun _ _ _ hmem => hother ha (List.mem_singleton.mp hmem).symm)

section
omit [ObjectModel Ω]
variable {b : Boundary Ω} {h : Handle} {w : Wrapper} {c : Class} {allowConst : Bool}

/-- A live wrapper of the class gives a shared handle to its object, if it may be const. -/
theorem sharedObject_eq (hw : b.table.live? h = some w) (halive : w.isAlive b.heap = true) (hcls : w.cls = c)
    (hconst : w.isConst = true → allowConst = true) :
    sharedObject h c allowConst b = .ok w.address (b.retain [w.address]) := by
  have hallowed : ¬(w.isConst && !allowConst) = true := by
    cases hc : w.isConst with
    | false => exact Bool.false_ne_true
    | true =>
      rw [hconst hc]
      exact Bool.false_ne_true
  unfold sharedObject
  rw [get_bind, ObjectTable.get_eq_ok.mpr hw]
  change (if (w.isConst && !allowConst) = true then _ else _ : Act Ω Address) b = _
  rw [if_neg hallowed, if_neg (not_not.mpr hcls)]
  change (if (!w.isAlive b.heap) = true then _ else _ : Act Ω Address) b = _
  rw [if_neg (by rw [halive]; exact Bool.false_ne_true)]
  rfl

end

theorem recovers_share {b : Boundary Ω} {h : Handle} {w : Wrapper} {c : Class} {allowConst : Bool}
    (hw : b.table.live? h = some w) (hstrong : w.ownership.isStrong = true) (hcls : w.cls = c)
    (hconst : w.isConst = true → allowConst = true) (hlt : w.address < old) :
    (sharedObject h c allowConst : Act Ω Address).Recovers old once R b w.address := by
  have halive : w.isAlive b.heap = true := by rw [Wrapper.isAlive, hstrong, Bool.true_or]
  refine ⟨_, sharedObject_eq hw halive hcls hconst, b.reads_retain fun a ha => ?_⟩
  rwa [List.mem_singleton.mp ha]

end Access

end NativeBridge
