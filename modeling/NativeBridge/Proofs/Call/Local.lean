import NativeBridge.Call.Convert
import NativeBridge.Proofs.Call.Hold
import NativeBridge.Proofs.Object.Undisturbed
/-!
# Actions that stay within the objects

An action is local if it leaves the call in progress and all sinks alone and can only fail with an error
(`Act.Local`). Everything that a conversion from the boundary does itself is local: reading an object, sharing it, and
moving it out of its wrapper or its cell.
-/
namespace NativeBridge
variable {Ω : Type} [ObjectModel Ω] {α β : Type}

namespace Act

/-- The two states are at the same point of the same call: only objects and wrappers differ, and no cell is gone. -/
structure Level (b b' : Boundary Ω) : Prop where
  call : b'.call = b.call
  sinks : b'.sinks = b.sinks
  cells : b.heap.cells.length ≤ b'.heap.cells.length

namespace Level
variable {b b' b'' : Boundary Ω}

omit [ObjectModel Ω] in
theorem refl (b : Boundary Ω) : Level b b :=
  ⟨rfl, rfl, Nat.le_refl _⟩

omit [ObjectModel Ω] in
theorem trans (h : Level b b') (h' : Level b' b'') : Level b b'' :=
  ⟨h'.call.trans h.call, h'.sinks.trans h.sinks, Nat.le_trans h.cells h'.cells⟩

omit [ObjectModel Ω] in
theorem retain (b : Boundary Ω) (as : List Address) : Level b (b.retain as) :=
  ⟨rfl, rfl, Nat.le_of_eq (Heap.length_retain b.heap as).symm⟩

theorem drop (b : Boundary Ω) (as : List Address) : Level b (b.drop as) :=
  ⟨rfl, rfl, Nat.le_of_eq (Heap.length_release b.heap as).symm⟩

end Level

/-- The action leaves the call in progress and all sinks alone, and can only fail with an error. -/
structure Local (act : Act Ω α) : Prop where
  level : ∀ b, Level b (act.final b)
  fails : ∀ b i b', act b = .error i b' → ∃ e, i = .error e

namespace Local

omit [ObjectModel Ω]

theorem relates {act : Act Ω α} (hact : act.Local) : act.Relates Level :=
  hact.level

theorem pure (a : α) : (pure a : Act Ω α).Local :=
  ⟨.refl, fun _ _ _ h => nomatch h⟩

theorem fail (e : CallError) : (Act.fail e : Act Ω α).Local := by
  refine ⟨.refl, fun b i b' h => ?_⟩
  cases h
  exact ⟨e, rfl⟩

theorem ofExcept : ∀ x : Except CallError α, (ofExcept x : Act Ω α).Local
  | .ok a => pure a
  | .error e => fail e

theorem get : (get : Act Ω (Boundary Ω)).Local :=
  ⟨.refl, fun _ _ _ h => nomatch h⟩

theorem modify {f : Boundary Ω → Boundary Ω} (hf : ∀ b, Level b (f b)) : (modify f : Act Ω Unit).Local :=
  ⟨hf, fun _ _ _ h => nomatch h⟩

theorem bind {act : Act Ω α} {f : α → Act Ω β} (hact : act.Local) (hf : ∀ a, (f a).Local) : (act >>= f).Local := by
  refine ⟨hact.relates.bind .trans fun a => (hf a).relates, fun b i b' h => ?_⟩
  rcases bind_eq_error h with h | ⟨a, b₁, -, h⟩
  · exact hact.fails b i b' h
  · exact (hf a).fails b₁ i b' h

theorem refusing {p : Prop} [Decidable p] {e : CallError} {f : Unit → Act Ω α} (hf : (f ()).Local) :
    (if p then Act.fail e >>= f else f ()).Local := by
  split
  · exact bind (fail e) fun _ => hf
  · exact hf

theorem ensuring {act : Act Ω α} {after : Boundary Ω → Boundary Ω} (hact : act.Local)
    (hafter : ∀ b, Level b (after b)) : (act.ensuring after).Local := by
  refine ⟨hact.relates.ensuring fun _ b' hlevel => hlevel.trans (hafter b'), fun b i b' h => ?_⟩
  obtain ⟨b₁, h, -⟩ := ensuring_eq_error h
  exact hact.fails b i b₁ h

theorem onFailure {act : Act Ω α} {after : Boundary Ω → Boundary Ω} (hact : act.Local)
    (hafter : ∀ b, Level b (after b)) : (act.onFailure after).Local := by
  refine ⟨hact.relates.onFailure fun _ b' hlevel => hlevel.trans (hafter b'), fun b i b' h => ?_⟩
  obtain ⟨b₁, h, -⟩ := onFailure_eq_error h
  exact hact.fails b i b₁ h

/-- An action is local that goes on in each state like a local one does from a state level with it. -/
theorem of_step {act : Act Ω α}
    (h : ∀ b, ∃ (rest : Act Ω α) (b₁ : Boundary Ω), act b = rest b₁ ∧ Level b b₁ ∧ rest.Local) : act.Local := by
  refine ⟨fun b => ?_, fun b i b' hb => ?_⟩
  · obtain ⟨rest, b₁, hact, hlevel, hrest⟩ := h b
    rw [final, hact]
    exact hlevel.trans (hrest.level b₁)
  · obtain ⟨rest, b₁, hact, -, hrest⟩ := h b
    rw [hact] at hb
    exact hrest.fails b₁ i b' hb

theorem retain (as : List Address) : (retain as : Act Ω Unit).Local :=
  modify fun b => .retain b as

variable [ObjectModel Ω]

theorem drop (as : List Address) : (drop as : Act Ω Unit).Local :=
  modify fun b => .drop b as

theorem thenDrop {act : Act Ω α} (hact : act.Local) (as : List Address) : (act.thenDrop as).Local :=
  hact.ensuring fun b => .drop b as

theorem newObject {c : Class} (x : Instance Ω c) : (newObject x).Local :=
  ⟨fun b => ⟨rfl, rfl, (List.prefix_append b.heap.cells _).length_le⟩, fun _ _ _ h => nomatch h⟩

end Local
end Act

open Act

/-! ## Parts of a conversion that stay within the objects -/

theorem Access.level_leave (mutable : Bool) (a : Address) (b : Boundary Ω) : Level b (leave mutable a b) := by
  refine ⟨rfl, rfl, Nat.le_of_eq ?_⟩
  unfold leave
  rw [Heap.length_release]
  cases mutable <;> exact (List.length_modify ..).symm

theorem Access.local_seize (mutable : Bool) (a : Address) (path : List (Upcast Ω)) (c : Class) :
    (seize mutable a path c).Local := by
  refine .of_step fun b => ?_
  unfold seize
  rw [get_bind]
  cases hlocked : begin? mutable b.heap a with
  | none => exact ⟨Act.fail _, b, rfl, .refl b, .fail _⟩
  | some locked =>
    have hlength : locked.cells.length = b.heap.cells.length := by
      cases mutable with
      | false => exact Heap.length_beginRead? hlocked
      | true => exact Heap.length_beginWrite? hlocked
    have hlevel : Level b { b with heap := locked.retain [a] } :=
      ⟨rfl, rfl, Nat.le_of_eq ((Heap.length_retain locked [a]).trans hlength).symm⟩
    cases hpart : partAt b.heap a path c with
    | some hold => exact ⟨Pure.pure hold, _, rfl, hlevel, .pure hold⟩
    | none =>
      exact ⟨(Act.fail (.mismatch c.qualified (b.heap.classNameAt a))).onFailure (leave mutable a), _, rfl, hlevel,
        .onFailure (.fail _) (level_leave mutable a)⟩

theorem Access.local_reading (a : Address) (path : List (Upcast Ω)) (c : Class) {use : Instance Ω c → Act Ω α}
    (huse : ∀ x, (use x).Local) : (Access.reading a path c use).Local := by
  rw [reading_eq]
  exact .bind (local_seize false a path c) fun hold => .ensuring (huse hold.part) (level_leave false hold.address)

omit [ObjectModel Ω] in
theorem Access.local_sharedPointer (p : Pointer) (c : Class) : (Access.sharedPointer p c : Act Ω Address).Local := by
  have rest : (do
      let a ← Act.ofExcept (livePointer (← get) p c)
      Act.retain [a]
      return a : Act Ω Address).Local :=
    .bind .get fun _ => .bind (.ofExcept _) fun _ => .bind (.retain _) fun _ => .pure _
  unfold Access.sharedPointer
  exact Local.refusing rest

omit [ObjectModel Ω] in
theorem Access.local_sharedObject (h : Handle) (c : Class) (allowConst : Bool) :
    (Access.sharedObject h c allowConst : Act Ω Address).Local := by
  refine .bind .get fun b => .bind (.ofExcept _) fun w => ?_
  have rest : (do Act.retain [w.address]; return w.address : Act Ω Address).Local :=
    .bind (.retain _) fun _ => .pure _
  exact Local.refusing (Local.refusing (Local.refusing rest))

theorem Access.local_takeUnique (c : Class) (h : Handle) : (Access.takeUnique c h : Act Ω (Instance Ω c)).Local := by
  refine .of_step fun b => ?_
  unfold takeUnique
  rw [get_bind]
  cases hcheck : checkUnique b c h with
  | error e => exact ⟨Act.fail e, b, rfl, .refl b, .fail e⟩
  | ok _ =>
    cases htake : b.toHoldings.takeUnique h with
    | error e =>
      refine ⟨Act.fail e, b, ?_, .refl b, .fail e⟩
      rw [Act.bind_ok (show (Act.ofExcept (.ok ()) : Act Ω Unit) b = .ok () b from rfl)]
      rfl
    | ok r =>
      refine ⟨Act.ofExcept (r.2.takeCell c r.1).1, { b with toHoldings := (r.2.takeCell c r.1).2 }, rfl,
        ⟨rfl, rfl, ?_⟩, .ofExcept _⟩
      obtain ⟨v, -, -, -, -, -, hs⟩ := Holdings.takeUnique_ok htake
      have hheap : r.2.heap.cells.length = b.heap.cells.length := by
        rw [hs, Heap.length_release, Heap.length_retain]
      exact Nat.le_of_eq ((Holdings.length_takeCell r.2 c r.1).trans hheap).symm

theorem Access.local_intoOwned (c : Class) (p : Pointer) : (Access.intoOwned c p : Act Ω (Instance Ω c)).Local := by
  refine .of_step fun b => ⟨Act.ofExcept (b.toHoldings.intoOwned c p).1,
    { b with toHoldings := (b.toHoldings.intoOwned c p).2 }, rfl, ⟨rfl, rfl, ?_⟩, .ofExcept _⟩
  unfold Holdings.intoOwned
  split
  · exact Nat.le_refl _
  · exact Nat.le_of_eq (Holdings.length_takeCell _ c p.address).symm

namespace Convert

theorem local_copyOf {c : Class} (x : Instance Ω c) : (copyOf x).Local :=
  .bind (.retain _) fun _ => .pure _

theorem local_refuse (expected : String) (w : Wire) : (refuse expected w : Act Ω α).Local :=
  .thenDrop (.fail _) _

theorem local_sharedFromWire (c : Class) (allowConst : Bool) (w : Wire) :
    (sharedFromWire c allowConst w : Act Ω Address).Local := by
  unfold sharedFromWire
  split
  · exact Access.local_sharedObject _ _ _
  · exact .thenDrop (Access.local_sharedPointer _ _) _
  · exact local_refuse _ _

theorem local_downgrade {act : Act Ω Address} (hact : act.Local) : (downgrade act).Local :=
  .bind hact fun _ => .bind (.drop _) fun _ => .pure _

end Convert
end NativeBridge
