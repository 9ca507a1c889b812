import NativeBridge.Proofs.Registry.Acyclic
/-!
# The superclasses of a built hierarchy

Of descriptors for distinct classes, the graph keeps for each class its links in declaration order: the
position among the superclasses that an edge carries restores the order in which they were declared.
-/
namespace NativeBridge
namespace Hierarchy
variable {Upcast : Type}

/-- The edges of one descriptor. -/
def edgesOf (d : ClassDescriptor Upcast) : List (SuperEdge Upcast) :=
  d.supers.zipIdx.map fun (l, i) => ⟨d.cls, i, l⟩

theorem edges_ofClasses (classes : List (ClassDescriptor Upcast)) :
    (ofClasses classes).edges = classes.flatMap edgesOf :=
  rfl

theorem filter_edgesOf (d : ClassDescriptor Upcast) (c : Class) :
    (edgesOf d).filter (·.source = c) = if d.cls = c then edgesOf d else [] := by
  have hsource : ∀ e ∈ edgesOf d, e.source = d.cls := by
    intro e he
    obtain ⟨l, -, rfl⟩ := List.mem_map.1 he
    rfl
  split
  · rename_i hc
    exact List.filter_eq_self.2 fun e he => by simp [hsource e he, hc]
  · rename_i hc
    exact List.filter_eq_nil_iff.2 fun e he => by simp [hsource e he, hc]

theorem filter_edges_of_not_mem {c : Class} : ∀ {classes : List (ClassDescriptor Upcast)},
    c ∉ classes.map (·.cls) → (classes.flatMap edgesOf).filter (·.source = c) = []
  | [], _ => rfl
  | d :: classes, hc => by
    rw [List.map_cons, List.mem_cons, not_or] at hc
    rw [List.flatMap_cons, List.filter_append, filter_edgesOf, if_neg (fun h => hc.1 h.symm),
      filter_edges_of_not_mem hc.2]
    rfl

theorem filter_edges_of_mem {d : ClassDescriptor Upcast} : ∀ {classes : List (ClassDescriptor Upcast)},
    (classes.map (·.cls)).Nodup → d ∈ classes →
      (classes.flatMap edgesOf).filter (·.source = d.cls) = edgesOf d
  | e :: classes, hn, hd => by
    rw [List.map_cons, List.nodup_cons] at hn
    rw [List.flatMap_cons, List.filter_append, filter_edgesOf]
    rcases List.mem_cons.1 hd with rfl | hd
    · rw [if_pos rfl, filter_edges_of_not_mem hn.1, List.append_nil]
    · have he : e.cls ≠ d.cls := fun he => hn.1 (by rw [he]; exact List.mem_map_of_mem hd)
      rw [if_neg he, filter_edges_of_mem hn.2 hd, List.nil_append]

theorem pairwise_edgesOf (d : ClassDescriptor Upcast) :
    (edgesOf d).Pairwise fun e f => decide (e.order ≤ f.order) = true := by
  unfold edgesOf
  rw [List.pairwise_map, List.pairwise_iff_getElem]
  intro i j hi hj hij
  simp only [List.getElem_zipIdx]
  exact decide_eq_true (by omega)

theorem eq_of_order {d : ClassDescriptor Upcast} {e f : SuperEdge Upcast} (he : e ∈ edgesOf d)
    (hf : f ∈ edgesOf d) (ho : e.order = f.order) : e = f := by
  obtain ⟨⟨l, i⟩, hl, rfl⟩ := List.mem_map.1 he
  obtain ⟨⟨m, j⟩, hm, rfl⟩ := List.mem_map.1 hf
  simp only at ho
  subst ho
  have hl := List.mem_zipIdx_iff_getElem?.1 hl
  have hm := List.mem_zipIdx_iff_getElem?.1 hm
  simp only at hl hm
  rw [hl] at hm
  cases hm
  rfl

theorem pairwise_sort (es : List (SuperEdge Upcast)) :
    (es.mergeSort fun e f => e.order ≤ f.order).Pairwise fun e f => decide (e.order ≤ f.order) = true := by
  apply List.pairwise_mergeSort
  · intro d e f hde hef
    rw [decide_eq_true_eq] at hde hef ⊢
    exact Nat.le_trans hde hef
  · intro e f
    rw [Bool.or_eq_true, decide_eq_true_eq, decide_eq_true_eq]
    exact Nat.le_total _ _

theorem sort_edgesOf (d : ClassDescriptor Upcast) :
    (edgesOf d).reverse.mergeSort (fun e f => e.order ≤ f.order) = edgesOf d := by
  have hp : ((edgesOf d).reverse.mergeSort fun e f => e.order ≤ f.order).Perm (edgesOf d) :=
    (List.mergeSort_perm _ _).trans (List.reverse_perm _)
  refine List.Perm.eq_of_pairwise ?_ (pairwise_sort _) (pairwise_edgesOf d) hp
  intro e f he hf hef hfe
  rw [decide_eq_true_eq] at hef hfe
  exact eq_of_order (hp.mem_iff.1 he) hf (Nat.le_antisymm hef hfe)

/-- **The links of a class are those of its descriptor, in declaration order.** -/
theorem superLinks_of_mem {classes : List (ClassDescriptor Upcast)} (hn : (classes.map (·.cls)).Nodup)
    {d : ClassDescriptor Upcast} (hd : d ∈ classes) :
    (ofClasses classes).superLinks d.cls = d.supers := by
  unfold superLinks
  rw [edges_ofClasses, filter_edges_of_mem hn hd, sort_edgesOf]
  unfold edgesOf
  rw [List.map_map]
  exact List.zipIdx_map_fst 0 d.supers

theorem superLinks_of_not_mem {classes : List (ClassDescriptor Upcast)} {c : Class}
    (hc : c ∉ classes.map (·.cls)) : (ofClasses classes).superLinks c = [] := by
  unfold superLinks
  rw [edges_ofClasses, filter_edges_of_not_mem hc]
  simp

theorem supers_of_mem {classes : List (ClassDescriptor Upcast)} (hn : (classes.map (·.cls)).Nodup)
    {d : ClassDescriptor Upcast} (hd : d ∈ classes) :
    (ofClasses classes).supers d.cls = d.supers.map (·.cls) := by
  unfold supers
  rw [superLinks_of_mem hn hd]

end Hierarchy
end NativeBridge
