import NativeBridge.Proofs.Registry.Postorder
import NativeBridge.Proofs.Registry.Resemblance
/-!
# Tags and entry points

The tags of a closed registry number its entry points: class by class in the order of finalization the constructors, the
release and the member groups, then the functions (`Exposure.tags_eq`). A class that copies members of the classes above
it makes no new tags, as those have theirs by then. `tags_number_entryPoints` says what follows for the host, which holds
nothing but a number.
-/
namespace NativeBridge

/-- What can be called of a class. -/
def ClassDescriptor.entryPoints {Upcast : Type} (d : ClassDescriptor Upcast) : List TagTarget :=
  [.constructor d.cls, .release d.cls] ++ (List.range d.members.length).map (.member d.cls)

/-- The class that an entry point belongs to. -/
def TagTarget.cls? : TagTarget → Option Class
  | .constructor c | .release c | .member c _ => some c
  | .function _ => none

/-- What can be called: the constructors, the release and the member groups of every declared class, and the functions. -/
def Registry.entryPoints {Upcast Code : Type} (r : Registry Upcast Code) : List TagTarget :=
  (r.classes.filter (·.declared)).flatMap (·.entryPoints) ++ (List.range r.functions.length).map .function

theorem ClassDescriptor.nodup_entryPoints {Upcast : Type} (d : ClassDescriptor Upcast) : d.entryPoints.Nodup := by
  have hmembers : ((List.range d.members.length).map (TagTarget.member d.cls)).Nodup :=
    List.nodup_range.map fun i j hij => (TagTarget.member.inj hij).2
  simp [entryPoints, hmembers]

theorem ClassDescriptor.cls?_of_mem {Upcast : Type} {d : ClassDescriptor Upcast} {t : TagTarget}
    (ht : t ∈ d.entryPoints) : t.cls? = some d.cls := by
  simp only [entryPoints, List.cons_append, List.nil_append, List.mem_cons, List.mem_map] at ht
  obtain rfl | rfl | ⟨i, -, rfl⟩ := ht <;> rfl

/-! ## Tags of one class -/

namespace Exposure
variable {Upcast : Type} {classes : List (ClassDescriptor Upcast)} {h : Hierarchy Upcast}

theorem tagOf_known {tags : List TagTarget} {t : TagTarget} (ht : t ∈ tags) : (tagOf tags t).2 = tags := by
  unfold tagOf
  split
  · rfl
  · rename_i hnone
    exact absurd rfl (of_decide_eq_false (List.findIdx?_eq_none_iff.1 hnone t ht))

theorem tagOf_fresh {tags : List TagTarget} {t : TagTarget} (ht : t ∉ tags) : (tagOf tags t).2 = tags ++ [t] := by
  unfold tagOf
  split
  · rename_i i hi
    obtain ⟨hlt, hit, -⟩ := List.findIdx?_eq_some_iff_getElem.1 hi
    exact absurd (of_decide_eq_true hit ▸ List.getElem_mem hlt) ht
  · rfl

theorem showGroups_known {owner : Class} : ∀ {groups : List (GroupKey × Nat)} {tags : List TagTarget},
    (∀ g ∈ groups, .member owner g.2 ∈ tags) → (showGroups owner groups tags).2 = tags
  | [], _, _ => rfl
  | (key, i) :: groups, tags, hg => by
    have hi : (tagOf tags (.member owner i)).2 = tags := tagOf_known (hg (key, i) List.mem_cons_self)
    change (showGroups owner groups (tagOf tags (.member owner i)).2).2 = tags
    rw [hi]
    exact showGroups_known fun g hm => hg g (List.mem_cons_of_mem _ hm)

theorem showGroups_fresh {owner : Class} : ∀ {groups : List (GroupKey × Nat)} {tags : List TagTarget},
    (groups.map (·.2)).Nodup → (∀ i, .member owner i ∈ tags → i ∉ groups.map (·.2)) →
      (showGroups owner groups tags).2 = tags ++ (groups.map (·.2)).map (.member owner)
  | [], _, _, _ => (List.append_nil _).symm
  | (key, i) :: groups, tags, hn, hg => by
    rw [List.map_cons, List.nodup_cons] at hn
    have hi : (tagOf tags (.member owner i)).2 = tags ++ [.member owner i] :=
      tagOf_fresh fun hm => hg i hm List.mem_cons_self
    change (showGroups owner groups (tagOf tags (.member owner i)).2).2 = _
    rw [hi, showGroups_fresh hn.2 fun j hj hmem => ?_]
    · simp
    · rcases List.mem_append.1 hj with hj | hj
      · exact hg j hj (List.mem_cons_of_mem _ hmem)
      · cases List.mem_singleton.1 hj
        exact hn.1 hmem

theorem inherited_known : ∀ {steps : List FlattenStep} {seen : List GroupKey} {tags : List TagTarget},
    (∀ step ∈ steps, ∀ g ∈ groupKeys classes step.cls, .member step.cls g.2 ∈ tags) →
      (inherited classes steps seen tags).2 = tags
  | [], _, _, _ => rfl
  | step :: steps, seen, tags, hg => by
    let fresh := (groupKeys classes step.cls).filter fun g => g.1 ∉ seen
    let copied := fresh.filter fun g => !step.reachable || g.1.kind.isStatic
    have hown : (showGroups step.cls copied tags).2 = tags := showGroups_known fun g hm =>
      hg step List.mem_cons_self g (List.mem_filter.1 (List.mem_filter.1 hm).1).1
    change (inherited classes steps _ (showGroups step.cls copied tags).2).2 = tags
    rw [hown]
    exact inherited_known fun b hb => hg b (List.mem_cons_of_mem _ hb)

/-- What can be called of a class, which is nothing unless it is declared. -/
def targetsOf (classes : List (ClassDescriptor Upcast)) (c : Class) : List TagTarget :=
  match classes.find? (·.cls = c) with
  | some d => if d.declared then d.entryPoints else []
  | none => []

theorem targetsOf_declared {c : Class} {d : ClassDescriptor Upcast} (hd : classes.find? (·.cls = c) = some d)
    (hdecl : d.declared = true) : targetsOf classes c = d.entryPoints := by
  unfold targetsOf
  rw [hd]
  exact if_pos hdecl

theorem targetsOf_undeclared {c : Class} (hc : ¬ IsDeclared classes c) : targetsOf classes c = [] := by
  unfold targetsOf
  split
  · rename_i d hd
    exact if_neg fun hdecl => hc ⟨d, hd, hdecl⟩
  · rfl

theorem groupKeys_some {c : Class} {d : ClassDescriptor Upcast} (hd : classes.find? (·.cls = c) = some d) :
    (groupKeys classes c).map (·.2) = List.range d.members.length := by
  unfold groupKeys
  rw [hd]
  simp [List.zipIdx_map_snd, List.range_eq_range']

/-- A class that is shown after all classes above it gets tags for its own entry points and no others. -/
theorem tags_exposeClass {state : List ExposedClass × List TagTarget} {c : Class}
    (hnew : ∀ i, .member c i ∉ state.2)
    (habove : ∀ a ∈ h.ancestors c, ∀ g ∈ groupKeys classes a, .member a g.2 ∈ state.2) :
    (exposeClass h classes state c).2 = state.2 ++ targetsOf classes c := by
  unfold exposeClass
  cases hd : classes.find? (·.cls = c) with
  | none =>
    rw [targetsOf, hd, List.append_nil]
  | some d =>
    obtain rfl : d.cls = c := by simpa using List.find?_some hd
    cases hdecl : d.declared with
    | false =>
      rw [targetsOf, hd]
      simp [hdecl]
    | true =>
      have hown : (showGroups d.cls (groupKeys classes d.cls) (state.2 ++ [.constructor d.cls, .release d.cls])).2 =
          state.2 ++ d.entryPoints := by
        rw [showGroups_fresh, groupKeys_some hd, List.append_assoc]
        · rfl
        · rw [groupKeys_some hd]
          exact List.nodup_range
        · intro i hi
          rcases List.mem_append.1 hi with hi | hi
          · exact absurd hi (hnew i)
          · simp at hi
      have htaken : (inherited classes (h.flatten d.cls) ((groupKeys classes d.cls).map (·.1))
          (state.2 ++ d.entryPoints)).2 = state.2 ++ d.entryPoints := by
        refine inherited_known fun step hstep g hg => List.mem_append_left _ (habove step.cls ?_ g hg)
        exact List.mem_map_of_mem hstep
      rw [targetsOf_declared hd hdecl, ← htaken, ← hown]
      simp only [hdecl, if_true]

theorem cls?_targetsOf {c : Class} {t : TagTarget} (ht : t ∈ targetsOf classes c) : t.cls? = some c := by
  unfold targetsOf at ht
  split at ht
  · rename_i d hd
    obtain rfl : d.cls = c := by simpa using List.find?_some hd
    split at ht
    · exact ClassDescriptor.cls?_of_mem ht
    · cases ht
  · cases ht

theorem nodup_targetsOf (c : Class) : (targetsOf classes c).Nodup := by
  unfold targetsOf
  split
  · split
    · exact ClassDescriptor.nodup_entryPoints _
    · exact List.nodup_nil
  · exact List.nodup_nil

theorem mem_targetsOf {a : Class} {g : GroupKey × Nat} (ha : IsDeclared classes a) (hg : g ∈ groupKeys classes a) :
    .member a g.2 ∈ targetsOf classes a := by
  obtain ⟨d, hd, hdecl⟩ := ha
  obtain rfl : d.cls = a := by simpa using List.find?_some hd
  have hi : g.2 ∈ List.range d.members.length := by
    rw [← groupKeys_some hd]
    exact List.mem_map_of_mem hg
  rw [targetsOf_declared hd hdecl]
  exact List.mem_append_right _ (List.mem_map_of_mem hi)

/-! ## Tags of all classes -/

/-- Where every class comes after those above it, each gets tags for its own entry points. -/
theorem tags_foldl (hh : h.Sound) (hblank : ∀ c, ¬ IsDeclared classes c → groupKeys classes c = []) :
    ∀ (more done : List Class) (state : List ExposedClass × List TagTarget), h.Ordered (done ++ more) →
      state.2 = done.flatMap (targetsOf classes) →
        (more.foldl (exposeClass h classes) state).2 = (done ++ more).flatMap (targetsOf classes)
  | [], done, state, _, hst => by
    rw [List.append_nil]
    exact hst
  | c :: more, done, state, ho, hst => by
    have hc : c ∉ done := fun hmem =>
      (List.nodup_append.1 ho.nodup).2.2 c hmem c List.mem_cons_self rfl
    have hnew (i : Nat) : .member c i ∉ state.2 := fun hi => by
      rw [hst] at hi
      obtain ⟨b, hb, hi⟩ := List.mem_flatMap.1 hi
      exact hc (Option.some.inj (cls?_targetsOf hi) ▸ hb)
    have habove : ∀ a ∈ h.ancestors c, ∀ g ∈ groupKeys classes a, .member a g.2 ∈ state.2 := fun a ha g hg => by
      have hdecl : IsDeclared classes a := by
        by_contra hnot
        rw [hblank a hnot] at hg
        cases hg
      rw [hst]
      exact List.mem_flatMap.2 ⟨a, ho.above rfl ((Hierarchy.mem_ancestors hh).1 ha), mem_targetsOf hdecl hg⟩
    rw [List.foldl_cons, List.append_cons]
    refine tags_foldl hh hblank more (done ++ [c]) _ (by rwa [← List.append_cons]) ?_
    rw [tags_exposeClass hnew habove, hst]
    simp

/-- **The tags number the entry points**, class by class in the order of finalization and then the functions. -/
theorem tags_eq (hh : h.Sound) (hblank : ∀ c, ¬ IsDeclared classes c → groupKeys classes c = [])
    (functions : List OverloadGroup) : (ofDeclarations h classes functions).tags =
      (h.postorder (classes.map (·.cls))).flatMap (targetsOf classes) ++
        (List.range functions.length).map .function := by
  have hfold := tags_foldl hh hblank (h.postorder (classes.map (·.cls))) [] ([], [])
    (Hierarchy.postorder_ordered hh _) rfl
  rw [List.nil_append] at hfold
  rw [← hfold]
  rfl

theorem nodup_tags (hh : h.Sound) (hblank : ∀ c, ¬ IsDeclared classes c → groupKeys classes c = [])
    (functions : List OverloadGroup) : (ofDeclarations h classes functions).tags.Nodup := by
  rw [tags_eq hh hblank, List.nodup_append]
  refine ⟨List.nodup_flatMap.2 ⟨fun c _ => nodup_targetsOf c, ?_⟩, ?_, ?_⟩
  · refine (Hierarchy.postorder_ordered hh _).nodup.imp fun {a b} hab => ?_
    intro t ha hb
    exact hab (Option.some.inj ((cls?_targetsOf ha).symm.trans (cls?_targetsOf hb)))
  · exact List.nodup_range.map fun i j hij => TagTarget.function.inj hij
  · rintro t ht _ hf rfl
    obtain ⟨c, -, ht⟩ := List.mem_flatMap.1 ht
    obtain ⟨i, -, rfl⟩ := List.mem_map.1 hf
    cases cls?_targetsOf ht

/-! ## The classes in order -/

/-- Whether a class is declared. -/
def declaredIn (classes : List (ClassDescriptor Upcast)) (c : Class) : Bool :=
  ((classes.find? (·.cls = c)).map (·.declared)).getD false

theorem declaredIn_iff {c : Class} : declaredIn classes c = true ↔ IsDeclared classes c := by
  unfold declaredIn IsDeclared
  cases classes.find? (·.cls = c) <;> simp

theorem classes_foldl : ∀ (more : List Class) (state : List ExposedClass × List TagTarget),
    (more.foldl (exposeClass h classes) state).1.map (·.cls) =
      state.1.map (·.cls) ++ more.filter (declaredIn classes)
  | [], state => (List.append_nil _).symm
  | c :: more, state => by
    rw [List.foldl_cons, classes_foldl more]
    have hone : (exposeClass h classes state c).1.map (·.cls) =
        state.1.map (·.cls) ++ [c].filter (declaredIn classes) := by
      unfold exposeClass declaredIn
      cases hd : classes.find? (·.cls = c) with
      | none => simp [hd]
      | some d => cases hdecl : d.declared <;> simp [hd, hdecl]
    rw [hone, List.append_assoc, ← List.filter_append]
    rfl

theorem classes_eq (h : Hierarchy Upcast) (classes : List (ClassDescriptor Upcast)) (functions : List OverloadGroup) :
    (ofDeclarations h classes functions).classes.map (·.cls) =
      (h.postorder (classes.map (·.cls))).filter (declaredIn classes) := by
  have hfold : ((h.postorder (classes.map (·.cls))).foldl (exposeClass h classes) ([], [])).1.map (·.cls) =
      (h.postorder (classes.map (·.cls))).filter (declaredIn classes) := by
    rw [classes_foldl, List.map_nil, List.nil_append]
  exact hfold

/-- A class that is shown comes after every declared class above it. -/
theorem shown_after (hh : h.Sound) {functions : List OverloadGroup} {pre post : List ExposedClass} {e : ExposedClass}
    (hsplit : (ofDeclarations h classes functions).classes = pre ++ e :: post) {a : Class} (ha : h.Above e.cls a)
    (hdecl : IsDeclared classes a) : a ∈ pre.map (·.cls) := by
  have hclasses := classes_eq h classes functions
  rw [hsplit, List.map_append, List.map_cons] at hclasses
  obtain ⟨before, rest, horder, hbefore, hrest⟩ := List.filter_eq_append_iff.1 hclasses.symm
  obtain ⟨between, after, rfl, hskipped, -, -⟩ := List.filter_eq_cons_iff.1 hrest
  rw [← List.append_assoc] at horder
  have hshown := declaredIn_iff.2 hdecl
  rcases List.mem_append.1 ((Hierarchy.postorder_ordered hh _).above horder ha) with hmem | hmem
  · rw [← hbefore]
    exact List.mem_filter.2 ⟨hmem, hshown⟩
  · exact absurd hshown (hskipped a hmem)

end Exposure

/-! ## Tags of a registry -/

namespace ClassDescriptor
variable {Upcast : Type} {d : ClassDescriptor Upcast}

theorem group_at (hd : (d.members.map (·.key)).Nodup) {i : Nat} {k : GroupKey}
    (hi : d.members[i]?.map (·.key) = some k) :
    d.groupIndex? k = some i ∧ d.group? k = d.members[i]?.map (·.group) := by
  obtain ⟨m, hm, rfl⟩ := Option.map_eq_some_iff.1 hi
  obtain ⟨hlt, rfl⟩ := List.getElem?_eq_some_iff.1 hm
  have hfirst (j : Nat) (hj : j < i) : ¬ (d.members[j].key = d.members[i].key) := fun heq => by
    have hlength : j < (d.members.map (·.key)).length := by
      rw [List.length_map]
      exact hj.trans hlt
    have hsame : j = i := (List.getElem?_inj hlength hd).1 (by simp [hj.trans hlt, hlt, heq])
    exact absurd hsame (Nat.ne_of_lt hj)
  refine ⟨List.findIdx?_eq_some_iff_getElem.2 ⟨hlt, decide_eq_true rfl, fun j hj => ?_⟩, ?_⟩
  · simpa using hfirst j hj
  · have hfind : d.members.find? (·.key = d.members[i].key) = some d.members[i] :=
      List.find?_eq_some_iff_getElem.2 ⟨decide_eq_true rfl, i, hlt, rfl, fun j hj => by simpa using hfirst j hj⟩
    rw [group?, hfind, hm]

end ClassDescriptor

theorem flatMap_filter {α β : Type} {p : α → Bool} {f : α → List β} : ∀ {l : List α}, (∀ a ∈ l, ¬ p a = true → f a = []) →
    (l.filter p).flatMap f = l.flatMap f
  | [], _ => rfl
  | a :: l, hf => by
    have ih := flatMap_filter fun b hb => hf b (List.mem_cons_of_mem _ hb)
    by_cases ha : p a = true
    · rw [List.filter_cons_of_pos ha, List.flatMap_cons, List.flatMap_cons, ih]
    · rw [List.filter_cons_of_neg ha, List.flatMap_cons, hf a List.mem_cons_self ha, ih]
      rfl

namespace Registry
variable {Upcast Code : Type} {r r' : Registry Upcast Code}

theorem declared_iff (hr : r.WellFormed) {c : Class} :
    c ∈ (r.classes.filter (·.declared)).map (·.cls) ↔ Exposure.IsDeclared r.classes c := by
  constructor
  · intro hc
    obtain ⟨d, hd, rfl⟩ := List.mem_map.1 hc
    obtain ⟨hd, hdecl⟩ := List.mem_filter.1 hd
    exact ⟨d, hr.class?_eq hd, hdecl⟩
  · rintro ⟨d, hd, hdecl⟩
    obtain ⟨hmem, rfl⟩ := class?_mem hd
    exact List.mem_map_of_mem (List.mem_filter.2 ⟨hmem, hdecl⟩)

/-- **The tags are the entry points**, each once. -/
theorem perm_entryPoints (hr : r.WellFormed) {h : Hierarchy Upcast} (hh : Hierarchy.build r.classes = .ok h) :
    (Exposure.ofDeclarations h r.classes r.functions).tags.Perm r.entryPoints := by
  have hsound := Hierarchy.build_sound hh
  have hblank : ∀ c, ¬ Exposure.IsDeclared r.classes c → Exposure.groupKeys r.classes c = [] := fun c hc =>
    List.map_eq_nil_iff.1 ((settled hr hh).blank c hc).1
  rw [Exposure.tags_eq hsound hblank]
  refine List.Perm.append_right _ ?_
  rw [← flatMap_filter (p := Exposure.declaredIn r.classes) fun c _ hc =>
    Exposure.targetsOf_undeclared (mt Exposure.declaredIn_iff.2 hc)]
  have hentry : (r.classes.filter (·.declared)).flatMap (·.entryPoints) =
      ((r.classes.filter (·.declared)).map (·.cls)).flatMap (Exposure.targetsOf r.classes) := by
    rw [List.flatMap_map]
    refine List.flatMap_congr fun d hd => ?_
    obtain ⟨hd, hdecl⟩ := List.mem_filter.1 hd
    exact (Exposure.targetsOf_declared (hr.class?_eq hd) hdecl).symm
  rw [hentry]
  refine List.Perm.flatMap_right _ ((List.perm_ext_iff_of_nodup ?_ ?_).2 fun c => ?_)
  · exact (Hierarchy.postorder_ordered hsound _).nodup.filter _
  · exact hr.nodup.sublist (List.filter_sublist.map _)
  · rw [List.mem_filter, Exposure.declaredIn_iff, declared_iff hr]
    refine ⟨fun hc => hc.2, fun hc => ⟨Hierarchy.mem_postorder c ?_, hc⟩⟩
    obtain ⟨d, hd, -⟩ := hc
    obtain ⟨hmem, rfl⟩ := class?_mem hd
    exact List.mem_map_of_mem hmem

theorem functions_finalize (hf : r.finalize = .ok r') : r'.functions = r.functions.map (·.freeze) := by
  obtain ⟨-, -, hf⟩ := bind_ok hf
  obtain ⟨h, -, hf⟩ := bind_ok hf
  cases hf
  rfl

theorem entryPoints_finalize (hf : r.finalize = .ok r') : r'.entryPoints = r.entryPoints := by
  obtain ⟨-, -, hclasses, -⟩ := finalize_ok hf
  unfold entryPoints
  rw [hclasses, functions_finalize hf, List.length_map, List.filter_map, List.flatMap_map]
  congr 1
  refine List.flatMap_congr fun d _ => ?_
  simp [ClassDescriptor.entryPoints, ClassDescriptor.markReady]

/-- The list of the tags of a closed registry says what a tag leads to. -/
theorem target_eq_ok {x : Exposure Upcast} (hx : r.exposure = some x) {tag : CallTag} {t : TagTarget} :
    r.target tag = .ok t ↔ x.tags[tag.index]? = some t := by
  unfold target
  rw [hx, Option.bind_some]
  cases x.tags[tag.index]? <;> simp

theorem isDeclared_finalize (hc : r'.classes = r.classes.map (·.markReady)) (c : Class) :
    (∃ d, r'.class? c = some d ∧ d.declared = true) ↔ Exposure.IsDeclared r.classes c := by
  rw [class?_finalize hc, Exposure.IsDeclared, ← class?]
  cases r.class? c <;> simp [ClassDescriptor.markReady]

theorem target_unique {x : Exposure Upcast} (hx : r.exposure = some x) (hn : x.tags.Nodup) {t : TagTarget}
    (ht : t ∈ x.tags) : ∃! tag, r.target tag = .ok t := by
  obtain ⟨i, hi⟩ := List.mem_iff_getElem?.1 ht
  refine ⟨⟨i⟩, (target_eq_ok hx).2 hi, fun tag htag => ?_⟩
  have hsame := (target_eq_ok hx).1 htag
  obtain ⟨hlt, -⟩ := List.getElem?_eq_some_iff.1 hsame
  have hindex : tag.index = i := (List.getElem?_inj hlt hn).1 (hsame.trans hi.symm)
  cases tag
  exact congrArg CallTag.mk hindex

theorem target_exhausts {x : Exposure Upcast} (hx : r.exposure = some x) (tag : CallTag) :
    (tag.index < x.tags.length → ∃ t ∈ x.tags, r.target tag = .ok t) ∧
    (x.tags.length ≤ tag.index → r.target tag = .error (.unknownEntry tag.text)) := by
  constructor
  · intro hlt
    exact ⟨x.tags[tag.index], List.getElem_mem hlt, (target_eq_ok hx).2 (List.getElem?_eq_getElem hlt)⟩
  · intro hle
    unfold target
    rw [hx, Option.bind_some, List.getElem?_eq_none hle]

/-- A class lists the groups that it declared. -/
theorem own_listed {x : Exposure Upcast} (hx : Closed r r' x) {e : ExposedClass} (he : e ∈ x.classes)
    {d : ClassDescriptor Upcast} (hd : r'.class? e.cls = some d) {k : GroupKey} (hk : (d.group? k).isSome) :
    ∃ m ∈ e.members, m.key = k ∧ m.owner = e.cls := by
  have hown : k ∈ Exposure.keysOf r.classes e.cls := by
    rw [← Exposure.declares_iff, ← declares_finalize hx.classes, declares, hd]
    exact hk
  have hshown : (k, e.cls) ∈ e.members.map Exposure.origin := by
    rw [(hx.settled.shows e he).origins]
    exact Exposure.mem_shownKeys.2 (.inl ⟨hown, rfl⟩)
  obtain ⟨m, hm, horigin⟩ := List.mem_map.1 hshown
  obtain ⟨hkey, howner⟩ := Prod.mk.inj horigin
  exact ⟨m, hm, hkey, howner⟩

theorem owner_above {x : Exposure Upcast} (hx : Closed r r' x) {e : ExposedClass} (he : e ∈ x.classes)
    {m : ExposedMember} (hm : m ∈ e.members) : m.owner = e.cls ∨ x.hierarchy.Above e.cls m.owner := by
  have hshown : Exposure.origin m ∈ Exposure.shownKeys r.classes x.hierarchy e.cls := by
    rw [← (hx.settled.shows e he).origins]
    exact List.mem_map_of_mem hm
  rcases Exposure.mem_shownKeys.1 hshown with ⟨-, howner⟩ | ⟨-, step, hstep, hcls, -⟩
  · exact .inl howner
  · have hmem : step.cls ∈ x.hierarchy.ancestors e.cls := List.mem_map_of_mem (List.mem_of_find?_eq_some hstep)
    rw [hcls] at hmem
    exact .inr ((Hierarchy.mem_ancestors hx.settled.sound).1 hmem)

/-- The tag of a member leads to the group of its key that its owner declared. -/
theorem member_group (hr : r.WellFormed) {x : Exposure Upcast} (hx : Closed r r' x) {m : ExposedMember}
    (hm : Exposure.Tagged r.classes x.tags m) :
    ∃ d i g, r'.class? m.owner = some d ∧ d.groupIndex? m.key = some i ∧ d.group? m.key = some g ∧
      r'.target m.tag = .ok (.member m.owner i) ∧ r'.group? (.member m.owner i) = some g := by
  obtain ⟨i, d, htarget, hd, hkey⟩ := invokes_of_tagged hx.classes hx.exposure hm
  have hkeys : (d.members.map (·.key)).Nodup := by
    rw [class?_finalize hx.classes, Option.map_eq_some_iff] at hd
    obtain ⟨d, hd, rfl⟩ := hd
    rw [keys_markReady]
    exact (hr.descriptors d (class?_mem hd).1).keys
  obtain ⟨hindex, hgroup⟩ := ClassDescriptor.group_at hkeys hkey
  obtain ⟨member, hmember, -⟩ := Option.map_eq_some_iff.1 hkey
  rw [hmember] at hgroup
  refine ⟨d, i, member.group, hd, hindex, hgroup, htarget, ?_⟩
  rw [group?, hd, Option.bind_some, hmember]
  rfl

theorem function_tags {h : Hierarchy Upcast} {x : Exposure Upcast} (hx : r'.exposure = some x)
    (hexp : x = .ofDeclarations h r.classes r.functions) {i : Nat} {f : ExposedFunction}
    (hf : x.functions[i]? = some f) : r'.target f.tag = .ok (.function i) := by
  subst hexp
  change (r.functions.zipIdx.map _)[i]? = some f at hf
  rw [List.getElem?_map, List.getElem?_zipIdx, Option.map_map, Option.map_eq_some_iff] at hf
  obtain ⟨g, hg, rfl⟩ := hf
  obtain ⟨hlt, -⟩ := List.getElem?_eq_some_iff.1 hg
  refine (target_eq_ok hx).2 ?_
  change (_ ++ (List.range r.functions.length).map TagTarget.function)[_ + (0 + i)]? = _
  rw [List.getElem?_append_right (Nat.le_add_right _ _), Nat.add_sub_cancel_left, Nat.zero_add, List.getElem?_map,
    List.getElem?_range hlt]
  rfl

/-- **Tags are a bijection onto entry points.** In a registry that was closed after any declarations:
- every declared class is shown once, after all declared classes above it;
- every entry point has exactly one tag, and no entry point stands for two;
- a tag below the number of entry points leads to one of them, any other is unknown;
- a class is shown with the tags of its constructors and of its release, and lists each of its groups; a function is
  shown under its name with its tag;
- a member that a class lists was declared by the class or by one above it, and carries the tag of its owner's group of
  that name and kind, under which that group is found. -/
theorem tags_number_entryPoints (hr : r.Reached) (hf : r.finalize = .ok r') {x : Exposure Upcast}
    (hx : r'.exposure = some x) :
    ((x.classes.map (·.cls)).Nodup ∧
      (∀ c, c ∈ x.classes.map (·.cls) ↔ ∃ d, r'.class? c = some d ∧ d.declared = true) ∧
      ∀ pre e post, x.classes = pre ++ e :: post → ∀ a, x.hierarchy.Above e.cls a →
        (∃ d, r'.class? a = some d ∧ d.declared = true) → a ∈ pre.map (·.cls)) ∧
    (r'.entryPoints.Nodup ∧ ∀ t ∈ r'.entryPoints, ∃! tag, r'.target tag = .ok t) ∧
    (∀ tag : CallTag,
      (tag.index < r'.entryPoints.length → ∃ t ∈ r'.entryPoints, r'.target tag = .ok t) ∧
      (r'.entryPoints.length ≤ tag.index → r'.target tag = .error (.unknownEntry tag.text))) ∧
    (∀ e ∈ x.classes, r'.target e.constructor = .ok (.constructor e.cls) ∧
      r'.target e.release = .ok (.release e.cls) ∧
      ∀ d k, r'.class? e.cls = some d → (d.group? k).isSome → ∃ m ∈ e.members, m.key = k ∧ m.owner = e.cls) ∧
    (x.functions.map (·.name) = r'.functions.map (·.name) ∧
      ∀ i f, x.functions[i]? = some f → r'.target f.tag = .ok (.function i)) ∧
    (∀ e ∈ x.classes, ∀ m ∈ e.members, (m.owner = e.cls ∨ x.hierarchy.Above e.cls m.owner) ∧
      ∃ d i g, r'.class? m.owner = some d ∧ d.groupIndex? m.key = some i ∧ d.group? m.key = some g ∧
        r'.target m.tag = .ok (.member m.owner i) ∧ r'.group? (.member m.owner i) = some g) := by
  have hwf := hr.wellFormed
  obtain ⟨h, hh, hclasses, hexp⟩ := finalize_ok hf
  rw [hx, Option.some.injEq] at hexp
  have hclosed : Closed r r' x := ⟨hclasses, hx, hexp ▸ (Hierarchy.build_ok hh).1, hexp ▸ settled hwf hh,
    hexp ▸ Exposure.describes_ofDeclarations _ _ _⟩
  have hsound : h.Sound := Hierarchy.build_sound hh
  have hperm : x.tags.Perm r'.entryPoints := by
    rw [entryPoints_finalize hf, hexp]
    exact perm_entryPoints hwf hh
  have hnodup : x.tags.Nodup := by
    rw [hexp]
    exact Exposure.nodup_tags hsound (fun c hc => List.map_eq_nil_iff.1 ((settled hwf hh).blank c hc).1) _
  refine ⟨⟨?_, fun c => ?_, fun pre e post hsplit a ha hdecl => ?_⟩, ⟨hperm.nodup_iff.1 hnodup, fun t ht => ?_⟩,
    fun tag => ?_, fun e he => ⟨?_, ?_, fun d k hd => own_listed hclosed he hd⟩, ⟨?_, fun i f => function_tags hx hexp⟩,
    fun e he m hm => ⟨owner_above hclosed he hm, member_group hwf hclosed ((hclosed.settled.shows e he).tagged m hm)⟩⟩
  · rw [hexp, Exposure.classes_eq]
    exact (Hierarchy.postorder_ordered hsound _).nodup.filter _
  · rw [isDeclared_finalize hclasses]
    exact hclosed.settled.exposed c
  · subst hexp
    exact Exposure.shown_after hsound hsplit ha ((isDeclared_finalize hclasses a).1 hdecl)
  · exact target_unique hx hnodup (hperm.mem_iff.2 ht)
  · obtain ⟨hknown, hunknown⟩ := target_exhausts hx tag
    rw [← hperm.length_eq]
    refine ⟨fun hlt => ?_, hunknown⟩
    obtain ⟨t, ht, htarget⟩ := hknown hlt
    exact ⟨t, hperm.mem_iff.1 ht, htarget⟩
  · exact (target_eq_ok hx).2 (hclosed.describes e he).constructor
  · exact (target_eq_ok hx).2 (hclosed.describes e he).release
  · rw [hexp, functions_finalize hf, List.map_map]
    change (r.functions.zipIdx.map _).map _ = _
    rw [List.map_map]
    conv_rhs => rw [← List.zipIdx_map_fst 0 r.functions, List.map_map]
    rfl

/-- A class with a static member, a class below that shows it too, and a function. -/
def declareCanvas (shape circle : Class) : Except RegistrationError (Registry Unit Unit) := do
  let r ← declareShapes shape circle
  let (_, r) ← r.declareMember shape ⟨"unit", .staticMethod⟩ .none (.function [] .unit) ⟨0⟩ ()
  let (_, r) ← r.declareFunction "total" .none (.function [] .unit) ⟨0⟩ ()
  return r

theorem reached_declareCanvas {shape circle : Class} {r : Registry Unit Unit}
    (h : declareCanvas shape circle = .ok r) : r.Reached := by
  unfold declareCanvas at h
  obtain ⟨r₁, h₁, h⟩ := bind_ok h
  obtain ⟨⟨ref₂, r₂⟩, h₂, h⟩ := bind_ok h
  obtain ⟨⟨ref₃, r₃⟩, h₃, h⟩ := bind_ok h
  cases h
  obtain ⟨maxArity, hsteps⟩ := reached_declareShapes h₁
  exact ⟨maxArity, (hsteps.tail (.member _ _ _ _ _ _ _ h₂)).tail (.function _ _ _ _ _ _ h₃)⟩

/-- The member that the class below copied is called by its owner's tag, and the entry points have the tags below seven. -/
theorem tags_of_canvas : ∃ r x, (declareCanvas ⟨"Shape", "Shape", .word 8⟩ ⟨"Circle", "Circle", .word 8⟩ >>= finalize) =
    .ok r ∧ r.exposure = some x ∧ r.target ⟨7⟩ = .error (.unknownEntry (CallTag.text ⟨7⟩)) ∧
    (∃ t, r.target ⟨6⟩ = .ok t) ∧
    ∃ e ∈ x.classes, e.cls = ⟨"Circle", "Circle", .word 8⟩ ∧ ∃ m ∈ e.members, m.owner = ⟨"Shape", "Shape", .word 8⟩ ∧
      ∃ i, r.target m.tag = .ok (.member m.owner i) := by
  have hev : (declareCanvas ⟨"Shape", "Shape", .word 8⟩ ⟨"Circle", "Circle", .word 8⟩ >>= finalize).map (fun r =>
      (r.entryPoints.length, r.exposure.map fun x => x.classes.any fun e =>
        e.cls = ⟨"Circle", "Circle", .word 8⟩ && e.members.any (·.owner = ⟨"Shape", "Shape", .word 8⟩))) =
      .ok (7, some true) := by cbv
  cases hrun : declareCanvas ⟨"Shape", "Shape", .word 8⟩ ⟨"Circle", "Circle", .word 8⟩ >>= finalize with
  | error e =>
    rw [hrun] at hev
    cases hev
  | ok r =>
    rw [hrun, Except.map, Except.ok.injEq, Prod.mk.injEq] at hev
    obtain ⟨hlength, hev⟩ := hev
    obtain ⟨x, hx, hev⟩ := Option.map_eq_some_iff.1 hev
    obtain ⟨r₀, hr₀, hf⟩ := bind_ok hrun
    obtain ⟨-, -, htags, -, -, hmembers⟩ := tags_number_entryPoints (reached_declareCanvas hr₀) hf hx
    obtain ⟨e, he, hev⟩ := List.any_eq_true.1 hev
    obtain ⟨hcircle, hev⟩ := Bool.and_eq_true_iff.1 hev
    obtain ⟨m, hm, hev⟩ := List.any_eq_true.1 hev
    obtain ⟨-, d, i, g, -, -, -, htarget, -⟩ := hmembers e he m hm
    obtain ⟨t, -, ht⟩ := (htags ⟨6⟩).1 (by rw [hlength]; decide)
    exact ⟨r, x, rfl, hx, (htags ⟨7⟩).2 (by rw [hlength]), ⟨t, ht⟩, e, he, of_decide_eq_true hcircle, m, hm,
      of_decide_eq_true hev, i, htarget⟩

end Registry
end NativeBridge
