import NativeBridge.Proofs.Registry.Exposed
import NativeBridge.Proofs.Registry.UpcastChains
/-!
# The order of finalization

Every class has one place in the order in which classes are finalized, and all classes above it come before it
(`postorder_ordered`, `Ordered.above`). The steps that `postorder` allows are enough: from a class to one of its
superclasses the number of ancestors falls.
-/
namespace NativeBridge.Hierarchy
variable {Upcast : Type} {h : Hierarchy Upcast}

/-- No class comes twice, and each comes after its direct superclasses. -/
structure Ordered (h : Hierarchy Upcast) (order : List Class) : Prop where
  nodup : order.Nodup
  after : ∀ pre c post, order = pre ++ c :: post → ∀ s ∈ h.supers c, s ∈ pre

theorem ordered_nil : h.Ordered [] :=
  ⟨List.nodup_nil, fun _ _ _ hsplit => by simp at hsplit⟩

theorem Ordered.concat {order : List Class} {c : Class} (ho : h.Ordered order) (hc : c ∉ order)
    (hs : ∀ s ∈ h.supers c, s ∈ order) : h.Ordered (order ++ [c]) := by
  refine ⟨?_, fun pre b post hsplit => ?_⟩
  · rw [← List.concat_eq_append]
    exact ho.nodup.concat hc
  · cases post using List.reverseRecOn with
    | nil =>
      obtain ⟨rfl, hb⟩ := List.append_inj' hsplit rfl
      cases hb
      exact hs
    | append_singleton post last =>
      rw [← List.cons_append, ← List.append_assoc] at hsplit
      obtain ⟨hrest, -⟩ := List.append_inj' hsplit rfl
      exact ho.after pre b post hrest

/-- What comes of visiting the classes `cs` after those in `done`. -/
structure Visits (h : Hierarchy Upcast) (cs done order : List Class) : Prop where
  ordered : h.Ordered order
  keeps : ∀ c ∈ done, c ∈ order
  visited : ∀ c ∈ cs, c ∈ order
  added : ∀ a ∈ order, a ∈ done ∨ ∃ c ∈ cs, a = c ∨ h.Above c a

theorem visits_foldl {visit : List Class → Class → List Class} : ∀ (cs done : List Class),
    (∀ c ∈ cs, ∀ done, h.Ordered done → h.Visits [c] done (visit done c)) → h.Ordered done →
      h.Visits cs done (cs.foldl visit done)
  | [], _, _, ho => ⟨ho, fun _ hc => hc, fun _ hc => (nomatch hc), fun _ ha => .inl ha⟩
  | c :: cs, done, hvisit, ho => by
    have hone := hvisit c List.mem_cons_self done ho
    have hrest := visits_foldl cs (visit done c) (fun b hb => hvisit b (List.mem_cons_of_mem _ hb)) hone.ordered
    refine ⟨hrest.ordered, fun a ha => hrest.keeps a (hone.keeps a ha), fun b hb => ?_, fun a ha => ?_⟩
    · rcases List.mem_cons.1 hb with rfl | hb
      · exact hrest.keeps b (hone.visited b (List.mem_singleton_self b))
      · exact hrest.visited b hb
    · rcases hrest.added a ha with ha | ⟨b, hb, hab⟩
      · rcases hone.added a ha with ha | ⟨b, hb, hab⟩
        · exact .inl ha
        · exact .inr ⟨b, List.mem_cons.2 (.inl (List.mem_singleton.1 hb)), hab⟩
      · exact .inr ⟨b, List.mem_cons_of_mem _ hb, hab⟩

/-- A visit that may go deeper than a class has ancestors. -/
theorem visits_visit (hh : h.Sound) : ∀ (depth : Nat) (c : Class) (done : List Class),
    (h.ancestors c).length < depth → h.Ordered done → h.Visits [c] done (h.visit depth done c)
  | 0, _, _, hlt, _ => absurd hlt (Nat.not_lt_zero _)
  | depth + 1, c, done, hlt, ho => by
    unfold visit
    split
    · rename_i hc
      refine ⟨ho, fun _ ha => ha, fun b hb => ?_, fun _ ha => .inl ha⟩
      rwa [List.mem_singleton.1 hb]
    · rename_i hc
      have hsupers : h.Visits (h.supers c) done ((h.supers c).foldl (h.visit depth) done) :=
        visits_foldl (h.supers c) done (fun s hs done hdone => visits_visit hh depth s done
          (Nat.lt_of_lt_of_le (length_ancestors_lt hh hs) (Nat.le_of_lt_succ hlt)) hdone) ho
      -- What the superclasses brought in lies above `c`, and no class lies above itself.
      have hnew : c ∉ (h.supers c).foldl (h.visit depth) done := fun hmem => by
        rcases hsupers.added c hmem with hd | ⟨s, hs, rfl | habove⟩
        · exact hc hd
        · exact hh.acyclic c (.single hs)
        · exact hh.acyclic c (.head hs habove)
      refine ⟨hsupers.ordered.concat hnew hsupers.visited, fun a ha => List.mem_append_left _ (hsupers.keeps a ha),
        fun b hb => List.mem_append_right _ hb, fun a ha => ?_⟩
      rcases List.mem_append.1 ha with ha | ha
      · rcases hsupers.added a ha with ha | ⟨s, hs, rfl | habove⟩
        · exact .inl ha
        · exact .inr ⟨c, List.mem_singleton_self c, .inr (.single hs)⟩
        · exact .inr ⟨c, List.mem_singleton_self c, .inr (.head hs habove)⟩
      · exact .inr ⟨c, List.mem_singleton_self c, .inl (List.mem_singleton.1 ha)⟩

theorem length_ancestors_le (hh : h.Sound) (c : Class) : (h.ancestors c).length ≤ h.nodes.length := by
  refine (List.subperm_of_subset (nodup_ancestors hh c) fun a ha => ?_).length_le
  obtain ⟨b, -, hb⟩ := Relation.TransGen.tail'_iff.1 ((mem_ancestors hh).1 ha)
  exact hh.superclass hb

/-- **The order of finalization** has every class once, after its direct superclasses. -/
theorem postorder_ordered (hh : h.Sound) (classes : List Class) : h.Ordered (h.postorder classes) :=
  (visits_foldl classes [] (fun c _ done hdone => visits_visit hh _ c done
    (Nat.lt_succ_of_le (length_ancestors_le hh c)) hdone) ordered_nil).ordered

/-- Not only the direct superclasses of a class come before it. -/
theorem Ordered.above {order pre post : List Class} {c a : Class} (ho : h.Ordered order)
    (hsplit : order = pre ++ c :: post) (ha : h.Above c a) : a ∈ pre := by
  induction ha using Relation.TransGen.head_induction_on generalizing pre post with
  | single hs => exact ho.after pre _ post hsplit a hs
  | @head b s hs _ ih =>
    obtain ⟨before, between, rfl⟩ := List.append_of_mem (ho.after pre _ post hsplit _ hs)
    have hsplit : order = before ++ s :: (between ++ b :: post) := by
      rw [hsplit, List.append_assoc]
      rfl
    exact List.mem_append_left _ (ih hsplit)

end NativeBridge.Hierarchy
