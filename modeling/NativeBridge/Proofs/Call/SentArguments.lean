import NativeBridge.Proofs.Call.RoundTrip
/-!
# Values that come back as the arguments of a call

The arguments of a call are converted in two passes: the objects that are passed on their own are moved out last. What
was sent for the values of a tuple stands for these in both (`Entry.early_ok_standing`, `Entry.late_ok_standing`), so the
call is given the values again (`Entry.arguments_ok_standing`).
-/
namespace NativeBridge
variable {Ω : Type} [ObjectModel Ω] {old : Address} {once : Prop} {R : Address → Prop}

open Act

/-- The boundary with other arguments of the call in progress. -/
def Boundary.withArgs (b : Boundary Ω) (args : List Wire) : Boundary Ω :=
  { b with call := { b.call with args } }

theorem Boundary.reads_withArgs (b : Boundary Ω) {args : List Wire} (h : b.call.args = args) :
    (b.withArgs args).Reads old once R b := by
  have hself : b.withArgs args = b := by
    unfold withArgs
    rw [← h]
  rw [hself]
  exact .refl b

theorem Boundary.Reads.withArgs {b b' : Boundary Ω} (h : b.Reads old once R b') (args : List Wire) :
    (b.withArgs args).Reads old once R (b'.withArgs args) := by
  refine ⟨h.keeps, h.fewer, h.table, ?_, h.clear⟩
  unfold Boundary.withArgs
  rw [h.call]

namespace Entry

/-- The values of a tuple. -/
def valuesOf : (xs : List (Typed Ω)) → NativeType.Values Ω (xs.map (·.type))
  | [] => ()
  | x :: xs => (x.value, valuesOf xs)

/-- The values of a tuple that are there before objects are moved out. -/
def earlyOf : (xs : List (Typed Ω)) → NativeType.PartialValues Ω (xs.map (·.type))
  | [] => ()
  | x :: xs => (if x.type.consumes then none else some x.value, earlyOf xs)

/-- What is left of the arguments then. -/
def leftOf : List (Typed Ω) → List Wire → List Wire
  | x :: xs, w :: ws => (if x.type.consumes then w else .undefined) :: leftOf xs ws
  | _, _ => []

open NativeBridge.Convert

/-- What was sent stands for a value of a tuple. -/
abbrev StandsFor (sv : Nat → Services Ω) (old : Address) (once : Prop) (s : Holdings Ω) (p : Sent) (x : Typed Ω) : Prop :=
  Standing sv old once s p x.type x.value

/-- What is to be moved out is there still. -/
def LateLast (old : Address) (s : Holdings Ω) (ps : List Sent) (xs : List (Typed Ω)) (s' : Holdings Ω) : Prop :=
  ∀ q ∈ ps.zip xs, q.2.type.consumes = true → Lasts old s q.1 s'

variable {sv : Nat → Services Ω} {s : Holdings Ω} {n : Nat} {b b' : Boundary Ω} {done ws : List Wire} {p : Sent}
  {ps : List Sent} {x : Typed Ω} {xs : List (Typed Ω)} {lo hi : Address}

theorem LateLast.tail (h : LateLast old s (p :: ps) (x :: xs) b.toHoldings) : LateLast old s ps xs b.toHoldings :=
  fun q hq => h q (List.mem_cons_of_mem _ hq)

/-- Reading what was sent before leaves it there. -/
theorem lateLast_of_reads (hreads : b.Reads old once p.Covers b') (h : LateLast old s ps xs b.toHoldings)
    (hnew : old ≤ p.lo) (hbefore : ∀ q ∈ ps, p.hi ≤ q.lo) : LateLast old s ps xs b'.toHoldings :=
  fun q hq ht => lasts_of_head hreads (h q hq ht) hnew (hbefore q.1 (List.of_mem_zip hq).1)

theorem new_items (h : List.Forall₂ (StandsFor sv old once s) ps xs) : ∀ p ∈ ps, old ≤ p.lo := by
  induction h with
  | nil => exact fun _ hp => nomatch hp
  | cons hp _ ih => exact List.forall_mem_cons.mpr ⟨hp.new, ih⟩

theorem valuesRefs_valuesOf : ∀ xs : List (Typed Ω),
    NativeType.valuesRefs _ (valuesOf xs) = xs.flatMap fun x => x.type.refs x.value
  | [] => rfl
  | x :: xs => congrArg (x.type.refs x.value ++ ·) (valuesRefs_valuesOf xs)

theorem refs_values (h : List.Forall₂ (StandsFor sv old once s) ps xs) :
    (∀ a ∈ Wire.refsAll (ps.map Sent.wire), a < old) ∧ ∀ a ∈ NativeType.valuesRefs _ (valuesOf xs), a < old := by
  rw [valuesRefs_valuesOf]
  exact refs_sent h fun _ _ hp => hp.refs

theorem accepts_standing (h : List.Forall₂ (StandsFor sv old once s) ps xs) :
    ∀ i, Signature.firstRefused (xs.map (·.type)) (ps.map Sent.wire) i = none := by
  induction h with
  | nil => exact fun _ => rfl
  | cons hp _ ih =>
    intro i
    rw [List.map_cons, List.map_cons, Signature.firstRefused, if_pos hp.accepted]
    exact ih (i + 1)

theorem recovers_arg {t : NativeType} {v : t.Value Ω} (h : Standing sv old once s p t v) (hn : p.wire.depth ≤ n)
    (hb : Lasts old s p b.toHoldings) (hreceiver : b.call.receiver = none) (hclear : b.Clear)
    (hargs : b.call.args = done ++ p.wire :: ws) :
    ∃ b', arg (sv n) t done.length b = .ok v b' ∧
      (b.withArgs (done ++ .undefined :: ws)).Reads old once p.Covers b' := by
  have hw : b.call.args[done.length]? = some p.wire := by simp [hargs]
  have hset : b.call.args.set done.length .undefined = done ++ .undefined :: ws := by
    rw [hargs, List.set_append_right _ _ (Nat.le_refl _), Nat.sub_self, List.set_cons_zero]
  rw [arg_eq hw, hset]
  exact (h.reads n (b.withArgs (done ++ .undefined :: ws)) hn hb hreceiver hclear).atArgument _

/-- The arguments that leave the table alone are read; what is to be moved out is there still. -/
theorem early_ok_standing (h : List.Forall₂ (StandsFor sv old once s) ps xs)
    (hapart : ps.Pairwise fun p q => p.hi ≤ q.lo) (hn : Wire.depthAll (ps.map Sent.wire) ≤ n)
    (hb : ∀ p ∈ ps, Lasts old s p b.toHoldings) (hreceiver : b.call.receiver = none) (hclear : b.Clear)
    (hargs : b.call.args = done ++ ps.map Sent.wire) :
    ∃ b', early (sv n) (xs.map (·.type)) done.length b = .ok (earlyOf xs) b' ∧
      (b.withArgs (done ++ leftOf xs (ps.map Sent.wire))).Reads old once (Covered ps) b' ∧
      LateLast old s ps xs b'.toHoldings := by
  induction h generalizing b done with
  | nil =>
    exact ⟨b, rfl, b.reads_withArgs hargs, fun _ hq => nomatch hq⟩
  | @cons p x ps xs hp hps ih =>
    rw [List.map_cons, Wire.depthAll] at hn
    obtain ⟨hbefore, hapart⟩ := List.pairwise_cons.mp hapart
    change ∃ b', early (sv n) (x.type :: xs.map (·.type)) done.length b =
      .ok (if x.type.consumes then none else some x.value, earlyOf xs) b' ∧ _
    -- The rest begins one argument further, whether this one is taken or left.
    have hrest {b₁ : Boundary Ω} {w' : Wire} (hb₁ : ∀ q ∈ ps, Lasts old s q b₁.toHoldings)
        (hreceiver₁ : b₁.call.receiver = none) (hclear₁ : b₁.Clear)
        (hargs₁ : b₁.call.args = done ++ w' :: ps.map Sent.wire) :
        ∃ b', early (sv n) (xs.map (·.type)) (done.length + 1) b₁ = .ok (earlyOf xs) b' ∧
          (b₁.withArgs (done ++ w' :: leftOf xs (ps.map Sent.wire))).Reads old once (Covered ps) b' ∧
          LateLast old s ps xs b'.toHoldings := by
      have hargs₂ : b₁.call.args = (done ++ [w']) ++ ps.map Sent.wire := by
        rw [hargs₁, List.append_assoc, List.singleton_append]
      have hearly := ih hapart (by omega) hb₁ hreceiver₁ hclear₁ hargs₂
      rwa [List.length_append, List.length_singleton, List.append_assoc, List.singleton_append] at hearly
    rw [early_cons, List.map_cons, leftOf]
    unfold first
    by_cases ht : x.type.consumes = true
    · rw [if_pos ht, if_pos ht, if_pos ht]
      obtain ⟨b', hearly, hreads, hlate⟩ := hrest (fun q hq => hb q (List.mem_cons_of_mem p hq)) hreceiver hclear hargs
      refine ⟨b', (Act.bind_ok rfl).trans (Act.bind_ok (orDrop_ok hearly)),
        reads_tail hreads, fun q hq => ?_⟩
      rcases List.mem_cons.mp hq with rfl | hq
      · exact fun _ => lasts_of_tail hreads (hb p List.mem_cons_self) (new_items hps) hbefore
      · exact hlate q hq
    · rw [if_neg ht, if_neg ht, if_neg ht]
      obtain ⟨b₁, harg, h₁⟩ :=
        recovers_arg (n := n) hp (by omega) (hb p List.mem_cons_self) hreceiver hclear hargs
      have hargs₁ : b₁.call.args = done ++ .undefined :: ps.map Sent.wire := by
        rw [h₁.call]
        rfl
      have hlasts (q : Sent) (hq : q ∈ ps) : Lasts old s q b₁.toHoldings :=
        lasts_of_head h₁ (hb q (List.mem_cons_of_mem p hq)) hp.new (hbefore q hq)
      obtain ⟨b', hearly, hreads, hlate⟩ := hrest hlasts (h₁.call ▸ hreceiver) (h₁.clear hclear) hargs₁
      have hfirst : (some <$> arg (sv n) x.type done.length : Act Ω _) b = .ok (some x.value) b₁ := by
        rw [map_eq_pure_bind]
        exact Act.bind_ok harg
      refine ⟨b', (Act.bind_ok hfirst).trans (Act.bind_ok (orDrop_ok hearly)),
        ((reads_head h₁).withArgs _).trans (reads_tail hreads), fun q hq => ?_⟩
      rcases List.mem_cons.mp hq with rfl | hq
      · exact fun h => absurd h ht
      · exact hlate q hq

theorem precheck_standing (h : List.Forall₂ (StandsFor sv old once s) ps xs)
    (hb : LateLast old s ps xs b.toHoldings) (hreceiver : b.call.receiver = none)
    (hargs : b.call.args = done ++ leftOf xs (ps.map Sent.wire)) :
    precheck b (xs.map (·.type)) done.length = .ok () := by
  induction h generalizing done with
  | nil => rfl
  | @cons p x ps xs hp _ ih =>
    have hargs' : b.call.args =
        (done ++ [if x.type.consumes then p.wire else .undefined]) ++ leftOf xs (ps.map Sent.wire) := by
      rw [hargs, List.map_cons, leftOf, List.append_assoc, List.singleton_append]
    have hrest := ih hb.tail hargs'
    rw [List.length_append, List.length_singleton] at hrest
    rw [List.map_cons, precheck, hrest]
    split
    · rename_i ht
      have hget : b.call.args[done.length]? = some p.wire := by simp [hargs, leftOf, ht]
      rw [hget]
      dsimp only
      rw [hp.foreseen ht b (hb (p, x) List.mem_cons_self ht) hreceiver]
    · rfl

/-- The other arguments are moved out. -/
theorem late_ok_standing (h : List.Forall₂ (StandsFor sv old once s) ps xs)
    (hapart : ps.Pairwise fun p q => p.hi ≤ q.lo) (hn : Wire.depthAll (ps.map Sent.wire) ≤ n)
    (hb : LateLast old s ps xs b.toHoldings) (hreceiver : b.call.receiver = none) (hclear : b.Clear)
    (hargs : b.call.args = done ++ leftOf xs (ps.map Sent.wire)) :
    ∃ b', late (sv n) (xs.map (·.type)) (earlyOf xs) done.length b = .ok (valuesOf xs) b' ∧
      (b.withArgs (done ++ List.replicate ps.length .undefined)).Reads old once (Covered ps) b' := by
  induction h generalizing b done with
  | nil =>
    exact ⟨b, rfl, b.reads_withArgs hargs⟩
  | @cons p x ps xs hp hps ih =>
    rw [List.map_cons, Wire.depthAll] at hn
    obtain ⟨hbefore, hapart⟩ := List.pairwise_cons.mp hapart
    change ∃ b', late (sv n) (x.type :: xs.map (·.type)) (if x.type.consumes then none else some x.value, earlyOf xs)
      done.length b = .ok (x.value, valuesOf xs) b' ∧ _
    rw [List.length_cons, List.replicate_succ]
    -- Either way the argument is gone by then, and the rest follows.
    have hstep {b₁ : Boundary Ω}
        (h₁ : (b.withArgs (done ++ .undefined :: leftOf xs (ps.map Sent.wire))).Reads old once p.Covers b₁) :
        ∃ b', lateRest (sv n) x.type (xs.map (·.type)) (earlyOf xs) done.length x.value b₁ =
            .ok (x.value, valuesOf xs) b' ∧
          (b.withArgs (done ++ .undefined :: List.replicate ps.length .undefined)).Reads old once
            (Covered (p :: ps)) b' := by
      have hargs₁ : b₁.call.args = (done ++ [.undefined]) ++ leftOf xs (ps.map Sent.wire) := by
        rw [h₁.call, List.append_assoc, List.singleton_append]
        rfl
      have hlate : LateLast old s ps xs b₁.toHoldings :=
        lateLast_of_reads h₁ hb.tail hp.new hbefore
      obtain ⟨b', hrest, hreads⟩ := ih hapart (by omega) hlate (h₁.call ▸ hreceiver) (h₁.clear hclear) hargs₁
      rw [List.length_append, List.length_singleton] at hrest
      rw [List.append_assoc, List.singleton_append] at hreads
      exact ⟨b', Act.bind_ok (orDrop_ok hrest), ((reads_head h₁).withArgs _).trans (reads_tail hreads)⟩
    rw [List.map_cons, leftOf] at hargs
    by_cases ht : x.type.consumes = true
    · rw [if_pos ht] at hargs
      obtain ⟨b₁, harg, h₁⟩ :=
        recovers_arg (n := n) hp (by omega) (hb (p, x) List.mem_cons_self ht) hreceiver hclear hargs
      obtain ⟨b', hrest, hreads⟩ := hstep h₁
      rw [if_pos ht, late_none]
      exact ⟨b', (Act.bind_ok (orDrop_ok harg)).trans hrest, hreads⟩
    · rw [if_neg ht] at hargs
      rw [if_neg ht, late_some]
      exact hstep (b.reads_withArgs hargs)

/-- **What stands for the values of a tuple is converted to these**, and gone from the call then. -/
theorem arguments_ok_standing (h : Row (StandsFor sv old once s) lo hi ps xs)
    (hn : Wire.depthAll (ps.map Sent.wire) ≤ n) {w : Wire} (hb : Lasts old s ⟨w, lo, hi⟩ b.toHoldings)
    (hreceiver : b.call.receiver = none) (hclear : b.Clear) (hargs : b.call.args = ps.map Sent.wire) :
    ∃ b', arguments (sv n) (xs.map (·.type)) (fun _ => .ok ()) b = .ok (valuesOf xs) b' ∧
      (b.withArgs (List.replicate ps.length .undefined)).Reads old once (Sent.mk w lo hi).Covers b' := by
  obtain ⟨b₁, hearly, h₁, hlast⟩ := early_ok_standing h.each h.apart hn (h.lasts hb) hreceiver hclear
    (show b.call.args = [] ++ ps.map Sent.wire from hargs)
  have hargs₁ : b₁.call.args = [] ++ leftOf xs (ps.map Sent.wire) := by
    rw [h₁.call]
    rfl
  have hreceiver₁ : b₁.call.receiver = none := h₁.call ▸ hreceiver
  have hcheck := precheck_standing h.each hlast hreceiver₁ hargs₁
  obtain ⟨b₂, hlate, h₂⟩ := late_ok_standing h.each h.apart hn hlast hreceiver₁ (h₁.clear hclear) hargs₁
  refine ⟨b₂, ?_, ((h₁.withArgs _).trans h₂).mono (h.covers w)⟩
  have hchecks : (do
      Act.ofExcept (.ok ())
      Act.ofExcept (precheck (← get) (xs.map (·.type)) 0) : Act Ω Unit) b₁ = .ok () b₁ := by
    change (Act.ofExcept (precheck b₁ (xs.map (·.type)) 0) : Act Ω Unit) b₁ = _
    rw [show precheck b₁ (xs.map (·.type)) 0 = .ok () from hcheck]
    rfl
  exact (Act.bind_ok hearly).trans ((Act.bind_ok (orDrop_ok hchecks)).trans hlate)

end Entry

end NativeBridge
