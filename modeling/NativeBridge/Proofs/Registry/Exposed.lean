import NativeBridge.Registry.Exposure
/-!
# What an exposed class lists

The members of an exposed class without their tags (`shownKeys`): the keys of the class itself, then the keys that it
takes over from its ancestors (`takenKeys`). Every tag leads to the group that the member's owner declared
(`Tagged`). `ofDeclarations_exposes` says this of a whole exposure.
-/
namespace NativeBridge
namespace Exposure
variable {Upcast : Type}

/-! ## Tags -/

theorem getElem?_of_prefix {tags tags' : List TagTarget} (hp : tags <+: tags') {i : Nat} {t : TagTarget}
    (h : tags[i]? = some t) : tags'[i]? = some t := by
  obtain ⟨more, rfl⟩ := hp
  obtain ⟨hi, ht⟩ := List.getElem?_eq_some_iff.1 h
  rw [List.getElem?_append_left hi, h]

theorem tagOf_prefix (tags : List TagTarget) (t : TagTarget) : tags <+: (tagOf tags t).2 := by
  unfold tagOf
  split
  · exact List.prefix_rfl
  · exact List.prefix_append _ _

theorem tagOf_target (tags : List TagTarget) (t : TagTarget) :
    (tagOf tags t).2[(tagOf tags t).1.index]? = some t := by
  unfold tagOf
  split
  · rename_i i hi
    obtain ⟨hlt, ht, -⟩ := List.findIdx?_eq_some_iff_getElem.1 hi
    rw [List.getElem?_eq_getElem hlt, of_decide_eq_true ht]
  · rw [List.getElem?_append_right (Nat.le_refl _), Nat.sub_self]
    rfl

/-! ## Members and their keys -/

variable (classes : List (ClassDescriptor Upcast))

/-- The keys of the groups that a class declares. -/
def keysOf (c : Class) : List GroupKey :=
  (groupKeys classes c).map (·.1)

/-- The keys that a class takes over from its ancestors, each with its owner. -/
def takenKeys : List FlattenStep → List GroupKey → List (GroupKey × Class)
  | [], _ => []
  | step :: steps, seen =>
    let fresh := (keysOf classes step.cls).filter (· ∉ seen)
    (fresh.filter fun k => !step.reachable || k.kind.isStatic).map (·, step.cls)
      ++ takenKeys steps (seen ++ fresh)

/-- The keys that a class lists, each with its owner. -/
def shownKeys (h : Hierarchy Upcast) (c : Class) : List (GroupKey × Class) :=
  (keysOf classes c).map (·, c) ++ takenKeys classes (h.flatten c) (keysOf classes c)

/-- The tag of a member leads to the group that its owner declared under its key. -/
def Tagged (tags : List TagTarget) (m : ExposedMember) : Prop :=
  ∃ i, (m.key, i) ∈ groupKeys classes m.owner ∧ tags[m.tag.index]? = some (.member m.owner i)

/-- The key of a member and the class that declared it. -/
def origin (m : ExposedMember) : GroupKey × Class :=
  (m.key, m.owner)

variable {classes} in
theorem Tagged.mono {tags tags' : List TagTarget} (hp : tags <+: tags') {m : ExposedMember}
    (h : Tagged classes tags m) : Tagged classes tags' m := by
  obtain ⟨i, hi, ht⟩ := h
  exact ⟨i, hi, getElem?_of_prefix hp ht⟩

/-- What showing members from `tags` onwards results in. -/
structure Lists (tags : List TagTarget) (keys : List (GroupKey × Class))
    (result : List ExposedMember × List TagTarget) : Prop where
  keeps : tags <+: result.2
  origins : result.1.map origin = keys
  tagged : ∀ m ∈ result.1, Tagged classes result.2 m

theorem lists_showGroups (owner : Class) : ∀ (groups : List (GroupKey × Nat)) (tags : List TagTarget),
    (∀ g ∈ groups, g ∈ groupKeys classes owner) →
      Lists classes tags (groups.map fun g => (g.1, owner)) (showGroups owner groups tags)
  | [], tags, _ => ⟨List.prefix_rfl, rfl, by simp [showGroups]⟩
  | (key, i) :: groups, tags, hg => by
    have hpre := tagOf_prefix tags (.member owner i)
    have ih := lists_showGroups owner groups (tagOf tags (.member owner i)).2
      fun g hgm => hg g (List.mem_cons_of_mem _ hgm)
    refine ⟨hpre.trans ih.keeps, ?_, ?_⟩
    · simp only [showGroups, List.map_cons, ih.origins]
      rfl
    · intro m hm
      rcases List.mem_cons.1 hm with rfl | hm
      · exact ⟨i, hg (key, i) List.mem_cons_self, getElem?_of_prefix ih.keeps (tagOf_target _ _)⟩
      · exact ih.tagged m hm

theorem map_filter_fst (p : GroupKey → Bool) (groups : List (GroupKey × Nat)) :
    (groups.filter fun g => p g.1).map (·.1) = (groups.map (·.1)).filter p := by
  rw [List.filter_map]
  rfl

theorem lists_inherited : ∀ (steps : List FlattenStep) (seen : List GroupKey) (tags : List TagTarget),
    Lists classes tags (takenKeys classes steps seen) (inherited classes steps seen tags)
  | [], seen, tags => ⟨List.prefix_rfl, rfl, by simp [inherited]⟩
  | step :: steps, seen, tags => by
    let fresh := (groupKeys classes step.cls).filter fun g => g.1 ∉ seen
    let copied := fresh.filter fun g => !step.reachable || g.1.kind.isStatic
    have hown := lists_showGroups classes step.cls copied tags
      fun g hg => (List.mem_filter.1 (List.mem_filter.1 hg).1).1
    have ih := lists_inherited steps (seen ++ fresh.map (·.1)) (showGroups step.cls copied tags).2
    have hfresh : fresh.map (·.1) = (keysOf classes step.cls).filter (· ∉ seen) :=
      map_filter_fst (fun k => decide (k ∉ seen)) _
    refine ⟨hown.keeps.trans ih.keeps, ?_, ?_⟩
    · have hcopied : copied.map (fun g => (g.1, step.cls)) =
          ((fresh.map (·.1)).filter fun k => !step.reachable || k.kind.isStatic).map (·, step.cls) := by
        rw [← map_filter_fst (fun k => !step.reachable || k.kind.isStatic), List.map_map]
        rfl
      change ((showGroups step.cls copied tags).1 ++ _).map origin = _
      rw [List.map_append, hown.origins, ih.origins, hcopied, hfresh]
      rfl
    · intro m hm
      rcases List.mem_append.1 hm with hm | hm
      · exact (hown.tagged m hm).mono ih.keeps
      · exact ih.tagged m hm

/-! ## Classes -/

variable {classes}

/-- The class is declared. -/
def IsDeclared (classes : List (ClassDescriptor Upcast)) (c : Class) : Prop :=
  ∃ d, classes.find? (·.cls = c) = some d ∧ d.declared = true

/-- What holds of each class that is shown. -/
structure Shows (h : Hierarchy Upcast) (classes : List (ClassDescriptor Upcast)) (tags : List TagTarget)
    (e : ExposedClass) : Prop where
  supers : e.supers = h.supers e.cls
  origins : e.members.map origin = shownKeys classes h e.cls
  tagged : ∀ m ∈ e.members, Tagged classes tags m

/-- What holds after the classes `cs` were shown. -/
structure Exposes (h : Hierarchy Upcast) (classes : List (ClassDescriptor Upcast)) (cs : List Class)
    (state : List ExposedClass × List TagTarget) : Prop where
  shows : ∀ e ∈ state.1, Shows h classes state.2 e
  exposed : ∀ c, c ∈ state.1.map (·.cls) ↔ c ∈ cs ∧ IsDeclared classes c

theorem Shows.mono {h : Hierarchy Upcast} {tags tags' : List TagTarget} (hp : tags <+: tags') {e : ExposedClass}
    (he : Shows h classes tags e) : Shows h classes tags' e :=
  ⟨he.supers, he.origins, fun m hm => (he.tagged m hm).mono hp⟩

theorem exposes_exposeClass {h : Hierarchy Upcast} {cs : List Class} {state : List ExposedClass × List TagTarget}
    (hst : Exposes h classes cs state) (c : Class) :
    Exposes h classes (cs ++ [c]) (exposeClass h classes state c) := by
  have hskip : ¬ IsDeclared classes c → Exposes h classes (cs ++ [c]) state := by
    refine fun hc => ⟨hst.shows, fun b => ?_⟩
    rw [hst.exposed b, List.mem_append, List.mem_singleton]
    refine ⟨fun hb => ⟨.inl hb.1, hb.2⟩, ?_⟩
    rintro ⟨hb | rfl, hd⟩
    · exact ⟨hb, hd⟩
    · exact absurd hd hc
  unfold exposeClass
  split
  · rename_i hnone
    refine hskip ?_
    rintro ⟨d, hd, -⟩
    rw [hnone] at hd
    cases hd
  rename_i d hd
  split
  · rename_i hdecl
    have hown := lists_showGroups classes c (groupKeys classes c)
      (state.2 ++ [.constructor c, .release c]) fun g hg => hg
    have htaken := lists_inherited classes (h.flatten c) (keysOf classes c)
      (showGroups c (groupKeys classes c) (state.2 ++ [.constructor c, .release c])).2
    have hkeeps := (List.prefix_append state.2 [.constructor c, .release c]).trans
      (hown.keeps.trans htaken.keeps)
    refine ⟨?_, ?_⟩
    · intro e he
      rcases List.mem_append.1 he with he | he
      · exact (hst.shows e he).mono hkeeps
      · rw [List.mem_singleton.1 he]
        refine ⟨rfl, ?_, ?_⟩
        · simp only [List.map_append]
          rw [shownKeys, keysOf, List.map_map]
          congr 1
          · exact hown.origins
          · exact htaken.origins
        · intro m hm
          rcases List.mem_append.1 hm with hm | hm
          · exact (hown.tagged m hm).mono htaken.keeps
          · exact htaken.tagged m hm
    · intro b
      rw [List.map_append, List.mem_append, hst.exposed b, List.mem_append, List.map_singleton, List.mem_singleton]
      refine ⟨?_, ?_⟩
      · rintro (⟨hb, hdb⟩ | rfl)
        · exact ⟨.inl hb, hdb⟩
        · exact ⟨.inr rfl, d, hd, hdecl⟩
      · rintro ⟨hb | rfl, hdb⟩
        · exact .inl ⟨hb, hdb⟩
        · exact .inr rfl
  · rename_i hdecl
    refine hskip ?_
    rintro ⟨d', hd', hdecl'⟩
    rw [hd] at hd'
    cases hd'
    exact hdecl hdecl'

theorem exposes_foldl {h : Hierarchy Upcast} : ∀ (more cs : List Class)
    (state : List ExposedClass × List TagTarget), Exposes h classes cs state →
      Exposes h classes (cs ++ more) (more.foldl (exposeClass h classes) state)
  | [], cs, state, hst => by
    rw [List.append_nil]
    exact hst
  | c :: more, cs, state, hst => by
    rw [List.foldl_cons, ← List.singleton_append, ← List.append_assoc]
    exact exposes_foldl more _ _ (exposes_exposeClass hst c)

end Exposure

/-! ## The order in which classes are shown -/

namespace Hierarchy
variable {Upcast : Type} {h : Hierarchy Upcast}

theorem visit_keeps : ∀ (depth : Nat) (done : List Class) (c : Class), ∀ a ∈ done, a ∈ h.visit depth done c
  | 0, _, _ => fun _ ha => ha
  | depth + 1, done, c => by
    intro a ha
    unfold visit
    split
    · exact ha
    · exact List.mem_append_left _ (foldl_visit_keeps depth (h.supers c) done a ha)
where
  foldl_visit_keeps (depth : Nat) : ∀ (cs done : List Class), ∀ a ∈ done, a ∈ cs.foldl (h.visit depth) done
    | [], _ => fun _ ha => ha
    | c :: cs, done => fun a ha => foldl_visit_keeps depth cs _ a (visit_keeps depth done c a ha)

theorem mem_visit (depth : Nat) (done : List Class) (c : Class) : c ∈ h.visit (depth + 1) done c := by
  unfold visit
  split
  · assumption
  · simp

/-- Every class has its place in the order. -/
theorem mem_postorder {classes : List Class} : ∀ c ∈ classes, c ∈ h.postorder classes := by
  have hfold : ∀ (cs done : List Class), ∀ c ∈ cs, c ∈ cs.foldl (h.visit (h.nodes.length + 1)) done := by
    intro cs
    induction cs with
    | nil => simp
    | cons b cs ih =>
      intro done c hc
      rcases List.mem_cons.1 hc with rfl | hc
      · exact visit_keeps.foldl_visit_keeps _ cs _ c (mem_visit _ _ c)
      · exact ih _ c hc
  exact hfold classes []

end Hierarchy

namespace Exposure
variable {Upcast : Type}

/-- **An exposure shows exactly the declared classes**, each with the members that `shownKeys` names, and every tag
leads to the group of the member's owner. -/
theorem ofDeclarations_exposes (h : Hierarchy Upcast) (classes : List (ClassDescriptor Upcast))
    (functions : List OverloadGroup) :
    (∀ e ∈ (ofDeclarations h classes functions).classes,
      Shows h classes (ofDeclarations h classes functions).tags e) ∧
    ∀ c, c ∈ (ofDeclarations h classes functions).classes.map (·.cls) ↔ IsDeclared classes c := by
  have hempty : Exposes h classes [] ([], []) := ⟨by simp, by simp⟩
  have hst := exposes_foldl (h.postorder (classes.map (·.cls))) [] _ hempty
  rw [List.nil_append] at hst
  refine ⟨fun e he => (hst.shows e he).mono (List.prefix_append _ _), fun c => (hst.exposed c).trans ?_⟩
  refine ⟨fun hc => hc.2, fun hc => ⟨Hierarchy.mem_postorder c ?_, hc⟩⟩
  obtain ⟨d, hd, -⟩ := hc
  rw [← show d.cls = c by simpa using List.find?_some hd]
  exact List.mem_map_of_mem (List.mem_of_find?_eq_some hd)

end Exposure
end NativeBridge
