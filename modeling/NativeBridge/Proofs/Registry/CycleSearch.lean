import NativeBridge.Proofs.Registry.Acyclic
/-!
# A hierarchy is built exactly if it has no cycle

A class that ends a forward search has an edge to itself (`search_error`). Where the searches end well, the order in which
they finish the classes need not be a topological one, but an edge that goes against it closes a cycle
(`finishOrder_returning`): the class that it leads to was still open, so it leads back. A backward search in that order
finds a second class only along such an edge, so the class that is named lies on a cycle (`culprit_on_cycle`), and one is
named exactly if there is a cycle (`culprit?_eq_none_iff`). For `build` this is `build_names_cycle`.
-/
namespace NativeBridge
namespace Digraph
variable {g : Digraph}

/-- There is an edge from one class to another. -/
def Edge (g : Digraph) (a b : Class) : Prop :=
  (a, b) ∈ g.edges

/-- No class leads back to itself. -/
def Acyclic (g : Digraph) : Prop :=
  ∀ c, ¬ Relation.TransGen g.Edge c c

/-- An edge that leads from a later class of the order to an earlier one closes a cycle. -/
def Returning (g : Digraph) (order : List Class) : Prop :=
  order.Pairwise fun a b => g.Edge b a → Relation.TransGen g.Edge a b

/-- A class that was seen and is not finished. -/
def Open (g : Digraph) (unseen finished : List Class) (c : Class) : Prop :=
  c ∈ g.nodes ∧ c ∉ unseen ∧ c ∉ finished

theorem split_append {α : Type} {p l above below : List α} {x : α} (h : p ++ l = above ++ x :: below) (hx : x ∉ p) :
    ∃ a, above = p ++ a ∧ l = a ++ x :: below := by
  rcases List.append_eq_append_iff.1 h with ⟨a, ha, hl⟩ | ⟨b, hp, hb⟩
  · exact ⟨a, ha, hl⟩
  · cases b with
    | nil => exact ⟨[], by simpa using hp.symm, by simpa using hb.symm⟩
    | cons y b =>
      rw [List.cons_append, List.cons.injEq] at hb
      rw [hp, hb.1] at hx
      simp at hx

/-- What holds at every step of a forward search. An open class is on the stack, it leads to everything above its first
place there, and its edges lead to what was seen or is still above it. A finished class whose edge leads to an open one is
reached from there: that class was below it when it was finished. -/
structure Searching (g : Digraph) (unseen stack finished : List Class) : Prop where
  nodup : unseen.Nodup
  known : ∀ c ∈ stack, c ∈ g.nodes
  returning : g.Returning finished
  back : ∀ c ∈ finished, ∀ s, g.Edge c s → s ∈ finished ∨ g.Open unseen finished s ∧ Relation.TransGen g.Edge s c
  apart : ∀ c ∈ finished, c ∉ unseen
  stacked : ∀ c, g.Open unseen finished c → c ∈ stack
  leads : ∀ above x below, stack = above ++ x :: below → x ∉ above → g.Open unseen finished x →
    ∀ y ∈ above, Relation.TransGen g.Edge x y
  pending : ∀ above x below, stack = above ++ x :: below → g.Open unseen finished x →
    ∀ s, g.Edge x s → s ∉ unseen ∨ s ∈ above

/-- An open class leads to the class on top of the stack. -/
theorem Searching.leads_top {unseen rest finished : List Class} {c x : Class}
    (hs : g.Searching unseen (c :: rest) finished) (hx : g.Open unseen finished x) (hxc : x ≠ c) :
    Relation.TransGen g.Edge x c := by
  obtain ⟨above, below, heq, hxa⟩ := List.eq_append_cons_of_mem (hs.stacked x hx)
  refine hs.leads above x below heq hxa hx c ?_
  cases above with
  | nil =>
    rw [List.nil_append, List.cons.injEq] at heq
    exact absurd heq.1.symm hxc
  | cons b above =>
    rw [List.cons_append, List.cons.injEq] at heq
    rw [heq.1]
    exact List.mem_cons_self

/-- A class is opened: its unseen successors are put above it. -/
theorem Searching.opening (hn : ∀ e ∈ g.edges, e.2 ∈ g.nodes) {unseen rest finished : List Class} {c : Class}
    (hs : g.Searching unseen (c :: rest) finished) (hc : c ∈ unseen) :
    g.Searching (unseen.erase c) ((g.successors c).filter (· ∈ unseen.erase c) ++ c :: rest) finished := by
  have hmem : ∀ d, d ∈ unseen.erase c ↔ d ≠ c ∧ d ∈ unseen := fun d => hs.nodup.mem_erase_iff
  have hpushed : ∀ d ∈ (g.successors c).filter (· ∈ unseen.erase c), g.Edge c d ∧ d ∈ unseen.erase c := fun d hd => by
    obtain ⟨hd, hu⟩ := List.mem_filter.1 hd
    exact ⟨mem_successors.1 hd, of_decide_eq_true hu⟩
  have hopen : ∀ d, g.Open (unseen.erase c) finished d → d = c ∨ g.Open unseen finished d := fun d hd => by
    by_cases hdc : d = c
    · exact .inl hdc
    · exact .inr ⟨hd.1, fun hu => hd.2.1 ((hmem d).2 ⟨hdc, hu⟩), hd.2.2⟩
  have hskip : ∀ d, g.Open (unseen.erase c) finished d → d ∉ (g.successors c).filter (· ∈ unseen.erase c) := fun d hd hp =>
    hd.2.1 (hpushed d hp).2
  refine ⟨hs.nodup.erase c, fun d hd => ?_, hs.returning, fun d hd s hds => ?_,
    fun d hd hu => hs.apart d hd ((hmem d).1 hu).2, fun d hd => ?_, fun above x below heq hx hox y hy => ?_,
    fun above x below heq hox s hxs => ?_⟩
  · rcases List.mem_append.1 hd with hd | hd
    · exact hn _ (hpushed d hd).1
    · exact hs.known d hd
  · rcases hs.back d hd s hds with hsf | ⟨hos, hsd⟩
    · exact .inl hsf
    · exact .inr ⟨⟨hos.1, fun hu => hos.2.1 ((hmem s).1 hu).2, hos.2.2⟩, hsd⟩
  · rcases hopen d hd with rfl | hd
    · exact List.mem_append_right _ List.mem_cons_self
    · exact List.mem_append_right _ (hs.stacked d hd)
  · obtain ⟨a, rfl, hrest⟩ := split_append heq (hskip x hox)
    have hxa : x ∉ a := fun h => hx (List.mem_append_right _ h)
    rcases hopen x hox with rfl | hox'
    · rcases List.mem_append.1 hy with hy | hy
      · exact .single (hpushed y hy).1
      · cases a with
        | nil => cases hy
        | cons b a =>
          rw [List.cons_append, List.cons.injEq] at hrest
          rw [hrest.1] at hxa
          exact absurd List.mem_cons_self hxa
    · rcases List.mem_append.1 hy with hy | hy
      · have hxc : x ≠ c := fun h => hox'.2.1 (h ▸ hc)
        exact (hs.leads_top hox' hxc).tail (hpushed y hy).1
      · exact hs.leads a x below hrest hxa hox' y hy
  · obtain ⟨a, rfl, hrest⟩ := split_append heq (hskip x hox)
    rcases hopen x hox with rfl | hox'
    · by_cases hsu : s ∈ unseen.erase x
      · exact .inr (List.mem_append_left _ (List.mem_filter.2 ⟨mem_successors.2 hxs, decide_eq_true hsu⟩))
      · exact .inl hsu
    · rcases hs.pending a x below hrest hox' s hxs with hsu | hsa
      · exact .inl fun hu => hsu ((hmem s).1 hu).2
      · exact .inr (List.mem_append_right _ hsa)

/-- The class on top of the stack leaves it and is finished, unless it was before. -/
theorem Searching.closing (hn : ∀ e ∈ g.edges, e.2 ∈ g.nodes) {unseen rest finished : List Class} {c : Class}
    (hs : g.Searching unseen (c :: rest) finished) (hc : c ∉ unseen) :
    g.Searching unseen rest (if c ∈ finished then finished else c :: finished) := by
  have hdone : ∀ d, d ∈ (if c ∈ finished then finished else c :: finished) ↔ d = c ∨ d ∈ finished := fun d => by
    by_cases hcf : c ∈ finished
    · rw [if_pos hcf]
      exact ⟨.inr, fun h => h.elim (fun hdc => hdc ▸ hcf) id⟩
    · rw [if_neg hcf, List.mem_cons]
  have hopen : ∀ d, g.Open unseen (if c ∈ finished then finished else c :: finished) d ↔
      d ≠ c ∧ g.Open unseen finished d := fun d => by
    unfold Open
    rw [hdone, not_or]
    exact ⟨fun h => ⟨h.2.2.1, h.1, h.2.1, h.2.2.2⟩, fun h => ⟨h.2.1, h.2.2.1, h.1, h.2.2.2⟩⟩
  have hbelow : ∀ above x below, rest = above ++ x :: below → c :: rest = (c :: above) ++ x :: below :=
    fun above x below heq => by rw [heq, List.cons_append]
  refine ⟨hs.nodup, fun d hd => hs.known d (List.mem_cons_of_mem _ hd), ?_, fun d hd s hds => ?_, fun d hd => ?_,
    fun d hd => ?_, fun above x below heq hx hox y hy => ?_, fun above x below heq hox s hxs => ?_⟩
  · by_cases hcf : c ∈ finished
    · rw [if_pos hcf]
      exact hs.returning
    · rw [if_neg hcf]
      refine List.pairwise_cons.2 ⟨fun y hy hyc => ?_, hs.returning⟩
      rcases hs.back y hy c hyc with hcf' | ⟨-, hcy⟩
      · exact absurd hcf' hcf
      · exact hcy
  · rw [hdone, hopen]
    by_cases hsc : s = c
    · exact .inl (.inl hsc)
    by_cases hdf : d ∈ finished
    · rcases hs.back d hdf s hds with hsf | ⟨hos, hsd⟩
      · exact .inl (.inr hsf)
      · exact .inr ⟨⟨hsc, hos⟩, hsd⟩
    · -- `d` is the class just finished; what it leads to and is not finished is below it
      obtain rfl : d = c := ((hdone d).1 hd).resolve_right hdf
      have hod : g.Open unseen finished d := ⟨hs.known d List.mem_cons_self, hc, hdf⟩
      have hsu : s ∉ unseen := (hs.pending [] d rest rfl hod s hds).resolve_right List.not_mem_nil
      by_cases hsf : s ∈ finished
      · exact .inl (.inr hsf)
      · have hos : g.Open unseen finished s := ⟨hn _ hds, hsu, hsf⟩
        exact .inr ⟨⟨hsc, hos⟩, hs.leads_top hos hsc⟩
  · rcases (hdone d).1 hd with rfl | hd
    · exact hc
    · exact hs.apart d hd
  · obtain ⟨hdc, hd⟩ := (hopen d).1 hd
    exact (List.mem_cons.1 (hs.stacked d hd)).resolve_left hdc
  · obtain ⟨hxc, hox⟩ := (hopen x).1 hox
    refine hs.leads (c :: above) x below (hbelow _ _ _ heq) ?_ hox y (List.mem_cons_of_mem _ hy)
    simp [hxc, hx]
  · rcases hs.pending (c :: above) x below (hbelow _ _ _ heq) ((hopen x).1 hox).2 s hxs with hsu | hsa
    · exact .inl hsu
    · rcases List.mem_cons.1 hsa with hsc | hsa
      · exact .inl (hsc ▸ hc)
      · exact .inr hsa

/-- A forward search that ends well keeps what holds at every step. -/
theorem search_ok_searching (hn : ∀ e ∈ g.edges, e.2 ∈ g.nodes) (unseen stack finished : List Class) :
    ∀ {u f : List Class}, g.search unseen stack finished = .ok (u, f) → g.Searching unseen stack finished →
      g.Searching u [] f := by
  induction unseen, stack, finished using Digraph.search.induct g with
  | case1 unseen finished =>
    intro u f h hs
    rw [search] at h
    cases h
    exact hs
  | case2 unseen finished c rest hc next =>
    rename_i hloop
    intro u f h hs
    rw [search, if_pos hc, if_pos hloop] at h
    cases h
  | case3 unseen finished c rest hc next hloop =>
    rename_i unseen' ih
    intro u f h hs
    rw [search, if_pos hc, if_neg hloop] at h
    exact ih h (hs.opening hn hc)
  | case4 unseen finished c rest hc ih =>
    intro u f h hs
    rw [search, if_neg hc] at h
    exact ih h (hs.closing hn hc)

/-- **A forward search is ended only by a class with an edge to itself.** -/
theorem search_error (unseen stack finished : List Class) : ∀ {c : Class},
    g.search unseen stack finished = .error c → g.Edge c c := by
  induction unseen, stack, finished using Digraph.search.induct g with
  | case1 unseen finished =>
    intro d h
    rw [search] at h
    cases h
  | case2 unseen finished c rest hc next =>
    rename_i hloop
    intro d h
    rw [search, if_pos hc, if_pos hloop] at h
    cases h
    exact mem_successors.1 hloop
  | case3 unseen finished c rest hc next hloop =>
    rename_i unseen' ih
    intro d h
    rw [search, if_pos hc, if_neg hloop] at h
    exact ih h
  | case4 unseen finished c rest hc ih =>
    intro d h
    rw [search, if_neg hc] at h
    exact ih h

/-- Where no class is open a search may start from any classes. -/
theorem Searching.start {unseen finished stack : List Class} (hs : g.Searching unseen [] finished)
    (hstack : ∀ c ∈ stack, c ∈ g.nodes) : g.Searching unseen stack finished := by
  have hnone : ∀ d, ¬ g.Open unseen finished d := fun d hd => List.not_mem_nil (hs.stacked d hd)
  exact ⟨hs.nodup, hstack, hs.returning, hs.back, hs.apart, fun d hd => absurd hd (hnone d),
    fun _ x _ _ _ hx => absurd hx (hnone x), fun _ x _ _ hx => absurd hx (hnone x)⟩

/-- Before the first search nothing was seen. -/
theorem searching_nodes (hnodup : g.nodes.Nodup) : g.Searching g.nodes [] [] :=
  ⟨hnodup, by simp, List.Pairwise.nil, by simp, by simp, fun _ hd => absurd hd.1 hd.2.1,
    fun _ _ _ _ _ hx => absurd hx.1 hx.2.1, fun _ _ _ _ hx => absurd hx.1 hx.2.1⟩

/-- **An edge against the finishing order closes a cycle.** -/
theorem finishOrder_returning (hn : ∀ e ∈ g.edges, e.2 ∈ g.nodes) : ∀ (roots unseen finished : List Class)
    {order : List Class}, (∀ c ∈ roots, c ∈ g.nodes) → g.Searching unseen [] finished →
      g.finishOrder roots unseen finished = .ok order → g.Returning order
  | [], _, finished, order, _, hs, h => by
    cases h
    exact hs.returning
  | c :: roots, unseen, finished, order, hroots, hs, h => by
    have hc : ∀ d ∈ [c], d ∈ g.nodes := fun d hd => by
      rw [List.mem_singleton.1 hd]
      exact hroots c List.mem_cons_self
    have hroots' : ∀ d ∈ roots, d ∈ g.nodes := fun d hd => hroots d (List.mem_cons_of_mem _ hd)
    unfold finishOrder at h
    split at h
    · split at h
      · cases h
      · rename_i u f hsearch
        exact finishOrder_returning hn roots u f hroots' (search_ok_searching hn _ _ _ hsearch (hs.start hc)) h
    · exact finishOrder_returning hn roots unseen finished hroots' hs h

theorem finishOrder_error : ∀ (roots unseen finished : List Class) {c : Class},
    g.finishOrder roots unseen finished = .error c → g.Edge c c
  | [], _, _, _, h => by cases h
  | d :: roots, unseen, finished, c, h => by
    unfold finishOrder at h
    split at h
    · split at h
      · rename_i hsearch
        cases h
        exact search_error _ _ _ hsearch
      · exact finishOrder_error roots _ _ h
    · exact finishOrder_error roots _ _ h

/-- A backward search finds a second class only along an edge against the order. -/
theorem backward_returning : ∀ (order unseen : List Class) {c : Class}, g.Returning order → unseen.Nodup →
    (∀ d ∈ unseen, d ∈ order) → g.backward? order unseen = some c → Relation.TransGen g.Edge c c
  | [], _, _, _, _, _, h => by cases h
  | d :: order, unseen, c, ho, hnodup, hsub, h => by
    obtain ⟨hd, ho⟩ := List.pairwise_cons.1 ho
    unfold backward? at h
    split at h
    · have hrest : ∀ a ∈ unseen.erase d, a ∈ order := fun a ha => by
        obtain ⟨had, ha⟩ := hnodup.mem_erase_iff.1 ha
        exact (List.mem_cons.1 (hsub a ha)).resolve_left had
      split at h
      · rename_i found hfound
        cases h
        have hcd : g.Edge c d := mem_predecessors.1 (List.mem_of_find?_eq_some hfound)
        have hcu := List.find?_some hfound
        exact .head hcd (hd c (hrest c (of_decide_eq_true hcu)) hcd)
      · exact backward_returning order _ ho (hnodup.erase d) hrest h
    · rename_i hu
      refine backward_returning order unseen ho hnodup (fun a ha => ?_) h
      have had : a ≠ d := fun h => hu (h ▸ ha)
      exact (List.mem_cons.1 (hsub a ha)).resolve_left had

/-- **The class that is named lies on a cycle.** -/
theorem culprit_on_cycle (hnodup : g.nodes.Nodup) (hn : ∀ e ∈ g.edges, e.2 ∈ g.nodes) {c : Class}
    (h : g.culprit? = some c) : Relation.TransGen g.Edge c c := by
  unfold culprit? at h
  split at h
  · rename_i hend
    cases h
    exact .single (finishOrder_error _ _ _ hend)
  · rename_i order horder
    have hall := (finishOrder_ok g _ _ _ horder).2
    have ho := finishOrder_returning hn g.nodes g.nodes [] (fun _ => id) (searching_nodes hnodup) horder
    exact backward_returning order g.nodes ho hnodup (fun d hd => (hall d hd hd).1) h

/-- **A class is named for a cycle exactly if there is one.** -/
theorem culprit?_eq_none_iff (hnodup : g.nodes.Nodup) (hn : ∀ e ∈ g.edges, e.2 ∈ g.nodes) :
    g.culprit? = none ↔ g.Acyclic := by
  constructor
  · intro h c hc
    exact (wellFounded_of_culprit hn h).transGen.irrefl.irrefl c hc
  · intro ha
    cases hculprit : g.culprit? with
    | none => rfl
    | some c => exact absurd (culprit_on_cycle hnodup hn hculprit) (ha c)

end Digraph

namespace Hierarchy
variable {Upcast : Type}

theorem edge_eq_super (h : Hierarchy Upcast) : h.digraph.Edge = h.Super := by
  funext a b
  exact propext super_iff.symm

theorem edges_end_in_nodes (classes : List (ClassDescriptor Upcast)) :
    ∀ e ∈ (ofClasses classes).digraph.edges, e.2 ∈ (ofClasses classes).digraph.nodes := fun e he => by
  obtain ⟨e', he', rfl⟩ := List.mem_map.1 he
  exact target_mem_nodes he'

/-- **A hierarchy is built exactly if no class is above itself**; otherwise the failure names a cycle. -/
theorem build_acyclic (classes : List (ClassDescriptor Upcast)) :
    (∀ c, ¬ (ofClasses classes).Above c c) ∧ build classes = .ok (ofClasses classes) ∨
      (∃ c, (ofClasses classes).Above c c) ∧ ∃ name, build classes = .error (.inheritanceCycle name) := by
  have hiff := Digraph.culprit?_eq_none_iff (nodup_nodes classes) (edges_end_in_nodes classes)
  rw [Digraph.Acyclic, edge_eq_super] at hiff
  unfold build
  simp only
  cases hculprit : (ofClasses classes).digraph.culprit? with
  | none => exact .inl ⟨hiff.1 hculprit, rfl⟩
  | some c =>
    refine .inr ⟨by_contra fun hno => ?_, _, rfl⟩
    have hnone := hiff.2 fun c hc => hno ⟨c, hc⟩
    rw [hculprit] at hnone
    cases hnone

/-! ## The class that a failure names -/

/-- One of the descriptors is of `c` and has a link to `s`, which may be a class without a descriptor. -/
def Linked (classes : List (ClassDescriptor Upcast)) (c s : Class) : Prop :=
  ∃ d ∈ classes, d.cls = c ∧ ∃ l ∈ d.supers, l.cls = s

theorem super_ofClasses (classes : List (ClassDescriptor Upcast)) : (ofClasses classes).Super = Linked classes := by
  funext c s
  refine propext ⟨fun h => ?_, fun ⟨d, hd, hc, l, hl, hs⟩ => ?_⟩
  · obtain ⟨e, he, hcs⟩ := List.mem_map.1 (super_iff.1 h)
    obtain ⟨d, hd, he⟩ := List.mem_flatMap.1 he
    obtain ⟨⟨l, i⟩, hl, rfl⟩ := List.mem_map.1 he
    cases hcs
    exact ⟨d, hd, rfl, l, (List.mem_zipIdx hl).2.2 ▸ List.getElem_mem _, rfl⟩
  · obtain ⟨i, hi, rfl⟩ := List.getElem_of_mem hl
    have hli : (d.supers[i], i) ∈ d.supers.zipIdx := List.mem_zipIdx_iff_getElem?.2 (List.getElem?_eq_getElem hi)
    exact super_iff.2 (List.mem_map.2 ⟨⟨d.cls, i, d.supers[i]⟩, List.mem_flatMap.2 ⟨d, hd, List.mem_map.2 ⟨_, hli, rfl⟩⟩,
      by rw [hc, hs]⟩)

theorem linked_source {classes : List (ClassDescriptor Upcast)} {c s : Class}
    (h : Relation.TransGen (Linked classes) c s) : ∃ d ∈ classes, d.cls = c := by
  obtain ⟨a, ⟨d, hd, hc, -⟩, -⟩ := Relation.TransGen.head'_iff.1 h
  exact ⟨d, hd, hc⟩

/-- A failure names the first descriptor of the culprit. -/
theorem build_error {classes : List (ClassDescriptor Upcast)} {e : RegistrationError} (h : build classes = .error e) :
    ∃ d ∈ classes, e = .inheritanceCycle d.name ∧ Relation.TransGen (Linked classes) d.cls d.cls := by
  unfold build at h
  simp only at h
  split at h
  · cases h
  · rename_i c hculprit
    have hcycle := Digraph.culprit_on_cycle (nodup_nodes classes) (edges_end_in_nodes classes) hculprit
    rw [edge_eq_super, super_ofClasses] at hcycle
    cases hfind : classes.find? (·.cls = c) with
    | none =>
      obtain ⟨d, hd, hc⟩ := linked_source hcycle
      exact absurd (decide_eq_true hc) (List.find?_eq_none.1 hfind d hd)
    | some d =>
      rw [hfind] at h
      cases h
      have hc := List.find?_some hfind
      exact ⟨d, List.mem_of_find?_eq_some hfind, rfl, (of_decide_eq_true hc : d.cls = c) ▸ hcycle⟩

/-- **Building fails exactly if some class leads back to itself along the links, and the class that the failure names
does.** There is no other failure. -/
theorem build_names_cycle (classes : List (ClassDescriptor Upcast)) :
    ((∃ name, build classes = .error (.inheritanceCycle name)) ↔ ∃ c, Relation.TransGen (Linked classes) c c) ∧
      ∀ e, build classes = .error e →
        ∃ d ∈ classes, e = .inheritanceCycle d.name ∧ Relation.TransGen (Linked classes) d.cls d.cls := by
  refine ⟨⟨fun ⟨name, h⟩ => ?_, fun ⟨c, hc⟩ => ?_⟩, fun e => build_error⟩
  · obtain ⟨d, -, -, hd⟩ := build_error h
    exact ⟨d.cls, hd⟩
  · rw [← super_ofClasses] at hc
    rcases build_acyclic classes with ⟨hno, -⟩ | ⟨-, hfails⟩
    · exact absurd hc (hno c)
    · exact hfails

end Hierarchy
end NativeBridge
