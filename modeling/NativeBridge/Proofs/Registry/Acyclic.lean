import Mathlib.Logic.Relation
import Mathlib.Order.WellFounded
import NativeBridge.Registry.Hierarchy
/-!
# A hierarchy that was built has no cycle

A graph without a culprit is well-founded: the forward searches leave no class with an edge to itself, and the
backward searches, taken in order, find for each class only predecessors that were found before. A hierarchy
that `build` accepts therefore has no class above itself.
-/
namespace NativeBridge
namespace Digraph

@[simp] theorem mem_successors {g : Digraph} {c a : Class} : a ∈ g.successors c ↔ (c, a) ∈ g.edges := by
  simp [successors]

@[simp] theorem mem_predecessors {g : Digraph} {c a : Class} : a ∈ g.predecessors c ↔ (a, c) ∈ g.edges := by
  simp [predecessors]

/-- What a forward search guarantees that starts with `unseen`, `stack` and `finished` and ends with `u` and
`f`. -/
structure Searched (g : Digraph) (unseen stack finished u f : List Class) : Prop where
  keeps : ∀ c ∈ finished, c ∈ f
  finishes : ∀ c ∈ stack, c ∈ f
  noLoop : ∀ c ∈ stack, c ∈ unseen → (c, c) ∉ g.edges
  found : ∀ c ∈ unseen, c ∈ u ∨ c ∈ f ∧ (c, c) ∉ g.edges

/-- **A forward search that ends has finished all that it has seen**, and met no edge from a class to itself. -/
theorem search_ok (g : Digraph) (unseen stack finished : List Class) : ∀ {u f : List Class},
    g.search unseen stack finished = .ok (u, f) → g.Searched unseen stack finished u f := by
  induction unseen, stack, finished using Digraph.search.induct g with
  | case1 unseen finished =>
    intro u f h
    rw [search] at h
    cases h
    exact ⟨fun _ hc => hc, by simp, by simp, fun _ hc => .inl hc⟩
  | case2 unseen finished c rest hc next =>
    rename_i hn
    intro u f h
    rw [search, if_pos hc, if_pos hn] at h
    cases h
  | case3 unseen finished c rest hc next hn =>
    rename_i unseen' ih
    intro u f h
    rw [search, if_pos hc, if_neg hn] at h
    have s := ih h
    have hloop : (c, c) ∉ g.edges := fun he => hn (mem_successors.2 he)
    have hcf : c ∈ f := s.finishes c (by simp)
    refine ⟨s.keeps, ?_, ?_, ?_⟩
    · intro d hd
      exact s.finishes d (List.mem_append_right _ hd)
    · intro d hd hu
      by_cases hdc : d = c
      · rw [hdc]
        exact hloop
      · exact s.noLoop d (List.mem_append_right _ hd) ((List.mem_erase_of_ne hdc).2 hu)
    · intro d hd
      by_cases hdc : d = c
      · rw [hdc]
        exact .inr ⟨hcf, hloop⟩
      · exact s.found d ((List.mem_erase_of_ne hdc).2 hd)
  | case4 unseen finished c rest hc ih =>
    intro u f h
    rw [search, if_neg hc] at h
    have s := ih h
    have hcf : c ∈ f := s.keeps c (by split <;> simp_all)
    refine ⟨?_, ?_, ?_, s.found⟩
    · intro d hd
      exact s.keeps d (by split <;> simp [hd])
    · intro d hd
      rcases List.mem_cons.1 hd with rfl | hd
      · exact hcf
      · exact s.finishes d hd
    · intro d hd hu
      rcases List.mem_cons.1 hd with rfl | hd
      · exact absurd hu hc
      · exact s.noLoop d hd hu

/-- The order of the forward searches holds every root, and no root has an edge to itself. -/
theorem finishOrder_ok (g : Digraph) : ∀ (roots unseen finished : List Class) {order : List Class},
    g.finishOrder roots unseen finished = .ok order →
      (∀ c ∈ finished, c ∈ order) ∧ ∀ c ∈ roots, c ∈ unseen → c ∈ order ∧ (c, c) ∉ g.edges
  | [], _, _, _, h => by
    cases h
    exact ⟨fun _ hc => hc, by simp⟩
  | c :: roots, unseen, finished, order, h => by
    unfold finishOrder at h
    split at h
    · rename_i hc
      split at h
      · cases h
      rename_i u f hs
      have s := search_ok g _ _ _ hs
      obtain ⟨h1, h2⟩ := finishOrder_ok g roots u f h
      refine ⟨fun d hd => h1 d (s.keeps d hd), fun d hd hu => ?_⟩
      rcases s.found d hu with hdu | ⟨hdf, hloop⟩
      · rcases List.mem_cons.1 hd with rfl | hd
        · exact ⟨h1 _ (s.finishes _ (by simp)), s.noLoop _ (by simp) hc⟩
        · exact h2 d hd hdu
      · exact ⟨h1 d hdf, hloop⟩
    · rename_i hc
      obtain ⟨h1, h2⟩ := finishOrder_ok g roots unseen finished h
      refine ⟨h1, fun d hd hu => ?_⟩
      rcases List.mem_cons.1 hd with rfl | hd
      · exact absurd hu hc
      · exact h2 d hd hu

/-- Backward searches that find nothing leave every class of the order with well-founded predecessors, given
that the classes found before have them. -/
theorem acc_of_backward (g : Digraph) : ∀ (order unseen : List Class), (∀ c ∈ unseen, (c, c) ∉ g.edges) →
    g.backward? order unseen = none → (∀ c, c ∉ unseen → Acc (fun a b => (a, b) ∈ g.edges) c) →
      ∀ c ∈ order, Acc (fun a b => (a, b) ∈ g.edges) c
  | [], _, _, _, _ => by simp
  | c :: order, unseen, hloop, h, hacc => by
    unfold backward? at h
    split at h
    · rename_i hmem
      split at h
      · cases h
      rename_i hnone
      -- a predecessor of `c` is neither `c` nor still unseen
      have hc : Acc (fun a b => (a, b) ∈ g.edges) c := by
        refine ⟨c, fun p hp => hacc p fun hu => ?_⟩
        have hpc : p ≠ c := fun he => hloop c hmem (by rw [he] at hp; exact hp)
        have := List.find?_eq_none.1 hnone p (mem_predecessors.2 hp)
        exact this (by simpa using (List.mem_erase_of_ne hpc).2 hu)
      have hacc' : ∀ d, d ∉ unseen.erase c → Acc (fun a b => (a, b) ∈ g.edges) d := by
        intro d hd
        by_cases hdc : d = c
        · rw [hdc]
          exact hc
        · exact hacc d fun hu => hd ((List.mem_erase_of_ne hdc).2 hu)
      have hloop' : ∀ d ∈ unseen.erase c, (d, d) ∉ g.edges := fun d hd => hloop d (List.mem_of_mem_erase hd)
      intro d hd
      rcases List.mem_cons.1 hd with rfl | hd
      · exact hc
      · exact acc_of_backward g order _ hloop' h hacc' d hd
    · rename_i hmem
      intro d hd
      rcases List.mem_cons.1 hd with rfl | hd
      · exact hacc _ hmem
      · exact acc_of_backward g order _ hloop h hacc d hd

/-- **A graph without a culprit has no cycle**, if every edge ends in a node of the graph. -/
theorem wellFounded_of_culprit {g : Digraph} (hn : ∀ e ∈ g.edges, e.2 ∈ g.nodes) (h : g.culprit? = none) :
    WellFounded fun a b => (a, b) ∈ g.edges := by
  unfold culprit? at h
  split at h
  · cases h
  rename_i order ho
  obtain ⟨-, hroots⟩ := finishOrder_ok g _ _ _ ho
  have hout : ∀ c, c ∉ g.nodes → Acc (fun a b => (a, b) ∈ g.edges) c :=
    fun c hc => ⟨c, fun p hp => absurd (hn _ hp) hc⟩
  have horder := acc_of_backward g order g.nodes (fun c hc => (hroots c hc hc).2) h hout
  refine ⟨fun c => ?_⟩
  by_cases hc : c ∈ g.nodes
  · exact horder c (hroots c hc hc).1
  · exact hout c hc

end Digraph

namespace Hierarchy
variable {Upcast : Type}

/-- `s` is a direct superclass of `c`. -/
def Super (h : Hierarchy Upcast) (c s : Class) : Prop :=
  s ∈ h.supers c

/-- `a` is a superclass of `c`, direct or not. -/
def Above (h : Hierarchy Upcast) (c a : Class) : Prop :=
  Relation.TransGen h.Super c a

theorem mem_superLinks {h : Hierarchy Upcast} {c : Class} {l : SuperLink Upcast} :
    l ∈ h.superLinks c ↔ ∃ e ∈ h.edges, e.source = c ∧ e.link = l := by
  simp [superLinks, and_assoc]

theorem super_iff {h : Hierarchy Upcast} {c s : Class} :
    h.Super c s ↔ (c, s) ∈ h.digraph.edges := by
  simp only [Super, supers, digraph, List.mem_map, mem_superLinks, Prod.mk.injEq]
  constructor
  · rintro ⟨l, ⟨e, he, hc, rfl⟩, hs⟩
    exact ⟨e, he, hc, hs⟩
  · rintro ⟨e, he, hc, hs⟩
    exact ⟨e.link, ⟨e, he, hc, rfl⟩, hs⟩

theorem build_ok {classes : List (ClassDescriptor Upcast)} {h : Hierarchy Upcast}
    (hb : build classes = .ok h) : h = ofClasses classes ∧ h.digraph.culprit? = none := by
  unfold build at hb
  simp only at hb
  split at hb
  · rename_i hc
    cases hb
    exact ⟨rfl, hc⟩
  · cases hb

/-! ## The nodes -/

theorem mem_distinct {c : Class} : ∀ {cs : List Class}, c ∈ distinct cs ↔ c ∈ cs
  | [] => by simp [distinct]
  | d :: cs => by
    unfold distinct
    split
    · rename_i hd
      rw [mem_distinct, List.mem_cons]
      exact ⟨.inr, fun h => h.elim (fun he => by rw [he]; exact hd) id⟩
    · rw [List.mem_cons, List.mem_cons, mem_distinct]

theorem nodup_distinct : ∀ (cs : List Class), (distinct cs).Nodup
  | [] => by simp [distinct]
  | d :: cs => by
    unfold distinct
    split
    · exact nodup_distinct cs
    · rename_i hd
      exact List.nodup_cons.2 ⟨fun h => hd (mem_distinct.1 h), nodup_distinct cs⟩

/-- The step that adds the target of an edge to the nodes. -/
def addTarget (ns : List Class) (e : SuperEdge Upcast) : List Class :=
  if e.link.cls ∈ ns then ns else ns ++ [e.link.cls]

theorem mem_addTarget {ns : List Class} {e : SuperEdge Upcast} {c : Class} :
    c ∈ addTarget ns e ↔ c ∈ ns ∨ c = e.link.cls := by
  unfold addTarget
  split
  · rename_i he
    exact ⟨.inl, fun h => h.elim id fun hc => by rw [hc]; exact he⟩
  · simp

theorem nodup_addTarget {ns : List Class} (e : SuperEdge Upcast) (hn : ns.Nodup) :
    (addTarget ns e).Nodup := by
  unfold addTarget
  split
  · exact hn
  · rename_i he
    rw [List.nodup_append]
    exact ⟨hn, by simp, fun a ha b hb => by rintro rfl; rw [List.mem_singleton.1 hb] at ha; exact he ha⟩

theorem mem_foldl_addTarget {c : Class} : ∀ (edges : List (SuperEdge Upcast)) (ns : List Class),
    c ∈ edges.foldl addTarget ns ↔ c ∈ ns ∨ ∃ e ∈ edges, c = e.link.cls
  | [], ns => by simp
  | e :: edges, ns => by
    rw [List.foldl_cons, mem_foldl_addTarget edges, mem_addTarget]
    simp [or_assoc]

theorem nodup_foldl_addTarget : ∀ (edges : List (SuperEdge Upcast)) {ns : List Class}, ns.Nodup →
    (edges.foldl addTarget ns).Nodup
  | [], _, hn => hn
  | e :: edges, _, hn => nodup_foldl_addTarget edges (nodup_addTarget e hn)

theorem nodes_ofClasses (classes : List (ClassDescriptor Upcast)) :
    (ofClasses classes).nodes = (ofClasses classes).edges.foldl addTarget (distinct (classes.map (·.cls))) :=
  rfl

theorem nodup_nodes (classes : List (ClassDescriptor Upcast)) : (ofClasses classes).nodes.Nodup := by
  rw [nodes_ofClasses]
  exact nodup_foldl_addTarget _ (nodup_distinct _)

theorem cls_mem_nodes {classes : List (ClassDescriptor Upcast)} {d : ClassDescriptor Upcast}
    (hd : d ∈ classes) : d.cls ∈ (ofClasses classes).nodes := by
  rw [nodes_ofClasses, mem_foldl_addTarget, mem_distinct]
  exact .inl (List.mem_map_of_mem hd)

theorem source_mem_nodes {classes : List (ClassDescriptor Upcast)} {e : SuperEdge Upcast}
    (he : e ∈ (ofClasses classes).edges) : e.source ∈ (ofClasses classes).nodes := by
  obtain ⟨d, hd, he⟩ := List.mem_flatMap.1 he
  obtain ⟨l, -, rfl⟩ := List.mem_map.1 he
  exact cls_mem_nodes hd

theorem target_mem_nodes {classes : List (ClassDescriptor Upcast)} {e : SuperEdge Upcast}
    (he : e ∈ (ofClasses classes).edges) : e.link.cls ∈ (ofClasses classes).nodes := by
  rw [nodes_ofClasses, mem_foldl_addTarget]
  exact .inr ⟨e, he, rfl⟩

/-! ## Hierarchies that were built -/

/-- What holds of every hierarchy that `build` returns. -/
structure Sound (h : Hierarchy Upcast) : Prop where
  nodup : h.nodes.Nodup
  subclass : ∀ {c s}, h.Super c s → c ∈ h.nodes
  superclass : ∀ {c s}, h.Super c s → s ∈ h.nodes
  acyclic : ∀ c, ¬ h.Above c c

/-- **A hierarchy that was built has no class above itself**, and its nodes hold both ends of every edge. -/
theorem build_sound {classes : List (ClassDescriptor Upcast)} {h : Hierarchy Upcast}
    (hb : build classes = .ok h) : h.Sound := by
  obtain ⟨rfl, hc⟩ := build_ok hb
  have htarget : ∀ e ∈ (ofClasses classes).digraph.edges, e.2 ∈ (ofClasses classes).digraph.nodes := by
    intro e he
    obtain ⟨e', he', rfl⟩ := List.mem_map.1 he
    exact target_mem_nodes he'
  have hwf := Digraph.wellFounded_of_culprit htarget hc
  refine ⟨nodup_nodes classes, ?_, ?_, ?_⟩
  · intro c s hs
    obtain ⟨e, he, hcs⟩ := List.mem_map.1 (super_iff.1 hs)
    cases hcs
    exact source_mem_nodes he
  · intro c s hs
    exact htarget _ (super_iff.1 hs)
  · intro c hcc
    have hsub : ∀ a b, (ofClasses classes).Super a b → (a, b) ∈ (ofClasses classes).digraph.edges :=
      fun _ _ => super_iff.1
    exact hwf.transGen.irrefl.irrefl c (Relation.TransGen.mono hsub _ _ hcc)

end Hierarchy
end NativeBridge
