import Mathlib.Data.List.Permutation
import NativeBridge.Proofs.Registry.Ancestors
import NativeBridge.Proofs.Registry.PathSearch
import NativeBridge.Proofs.Registry.Superclasses
/-!
# Upcast paths and declaration order

The search for upcast paths marks a class as seen when it is put on the stack. A direct superclass is therefore
always reached by its own link, even when an earlier superclass leads to it as well. `follows_first_iff` says when
that shows: the paths of a class go through the first superclass that leads to the ancestor, exactly if no direct
superclass lies above one that is declared before it.
-/
namespace NativeBridge
namespace Hierarchy
variable {Upcast : Type} {h : Hierarchy Upcast}

/-! ## Look-up among the paths -/

theorem lookup_filter {A : Class → Bool} {a : Class} (ha : A a = true) :
    ∀ qs : List (Class × List Upcast), (qs.filter (A ·.1)).lookup a = qs.lookup a
  | [] => rfl
  | (x, p) :: qs => by
    by_cases hx : A x = true
    · rw [List.filter_cons_of_pos (by exact hx), List.lookup_cons, List.lookup_cons, lookup_filter ha qs]
    · have hax : (a == x) = false := beq_eq_false_iff_ne.2 fun he => hx (by rw [← he]; exact ha)
      rw [List.filter_cons_of_neg (by exact hx), List.lookup_cons, hax, lookup_filter ha qs]

theorem lookup_prepend (p : List Upcast) (a : Class) : ∀ qs : List (Class × List Upcast),
    (qs.map fun q => (q.1, p ++ q.2)).lookup a = (qs.lookup a).map (p ++ ·)
  | [] => rfl
  | (x, q) :: qs => by
    rw [List.map_cons, List.lookup_cons, List.lookup_cons, lookup_prepend p a qs]
    cases a == x <;> rfl

theorem lookup_eq_none {a : Class} {qs : List (Class × List Upcast)} (ha : a ∉ qs.map (·.1)) :
    qs.lookup a = none := by
  rw [List.lookup_eq_none_iff]
  intro q hq
  rw [bne_iff_ne]
  rintro rfl
  exact ha (List.mem_map_of_mem hq)

theorem lookup_of_mem {a : Class} {qs : List (Class × List Upcast)} (ha : a ∈ qs.map (·.1)) :
    ∃ p, qs.lookup a = some p ∧ (a, p) ∈ qs := by
  cases hl : qs.lookup a with
  | none =>
    obtain ⟨q, hq, rfl⟩ := List.mem_map.1 ha
    have := List.lookup_eq_none_iff.1 hl q hq
    simp at this
  | some p =>
    obtain ⟨l₁, l₂, rfl, -⟩ := List.lookup_eq_some_iff.1 hl
    exact ⟨p, rfl, by simp⟩

/-- The stack entry of a link. -/
def entryOf (l : SuperLink Upcast) : Class × List Upcast :=
  (l.cls, [l.upcast])

/-- Of distinct keys each is looked up where it stands. -/
theorem lookup_links {l : SuperLink Upcast} : ∀ {links : List (SuperLink Upcast)},
    (links.map (·.cls)).Nodup → l ∈ links →
      (links.map entryOf).lookup l.cls = some [l.upcast]
  | m :: links, hn, hl => by
    rw [List.map_cons, List.nodup_cons] at hn
    rw [List.map_cons, entryOf, List.lookup_cons]
    rcases List.mem_cons.1 hl with rfl | hl
    · rw [beq_self_eq_true]
    · have hne : (l.cls == m.cls) = false :=
        beq_eq_false_iff_ne.2 fun he => hn.1 (by rw [← he]; exact List.mem_map_of_mem hl)
      rw [hne]
      exact lookup_links hn.2 hl

/-! ## Paths of a class -/

theorem upcastPath?_of_above (hh : h.Sound) {c a : Class} (ha : h.Above c a) :
    ∃ p, h.upcastPath? c a = some p ∧ p ≠ [] := by
  have hc : c ∈ h.nodes := by
    obtain ⟨s, hs, -⟩ := Relation.TransGen.head'_iff.1 ha
    exact hh.subclass hs
  have hmem : a ∈ (h.paths c).map (·.1) := by
    unfold paths
    rw [if_pos hc]
    have hcl := pathsFrom_closed (h := h) h.nodes [(c, [])]
    induction ha with
    | single hs => exact hcl (c, []) (by simp) _ hs (hh.superclass hs)
    | tail _ hs ih =>
      obtain ⟨q, hq, rfl⟩ := List.mem_map.1 ih
      exact hcl q (List.mem_append_right _ hq) _ hs (hh.superclass hs)
  obtain ⟨p, hp, hpm⟩ := lookup_of_mem hmem
  have hne : c ≠ a := fun he => hh.acyclic c (by rw [← he] at ha; exact ha)
  refine ⟨p, by rw [upcastPath?, if_neg hne, hp], ?_⟩
  unfold paths at hpm
  rw [if_pos hc] at hpm
  exact (pathsFrom_sound _ _ _ hpm).1

/-- The paths of a class: its own links, then what lies above the superclasses in declaration order. -/
theorem paths_eq (hh : h.Sound) {c : Class} (hc : c ∈ h.nodes) (hn : ((h.superLinks c).map (·.cls)).Nodup) :
    h.paths c = (h.superLinks c).reverse.map entryOf ++
      h.pathsFrom (h.nodes.diff (((h.superLinks c).map (·.cls)).reverse)) ((h.superLinks c).map entryOf) := by
  have hfst : (h.opened c [] h.nodes).1 = (h.superLinks c).reverse.map entryOf := by
    refine discover_fst [] _ h.nodes ?_ ?_
    · rw [List.map_reverse, List.nodup_reverse]
      exact hn
    · intro l hl
      exact hh.superclass (c := c) (List.mem_map_of_mem (List.mem_reverse.1 hl))
  rw [paths, if_pos hc, pathsFrom_cons, opened_snd, hfst, List.append_nil, List.map_map, List.map_reverse,
    List.map_reverse, List.reverse_reverse]
  rfl

/-- **A direct superclass is reached by its own link**, whatever other path leads to it. -/
theorem upcastPath?_super (hh : h.Sound) {c : Class} (hn : ((h.superLinks c).map (·.cls)).Nodup)
    {l : SuperLink Upcast} (hl : l ∈ h.superLinks c) : h.upcastPath? c l.cls = some [l.upcast] := by
  have hs : h.Super c l.cls := List.mem_map_of_mem hl
  have hne : c ≠ l.cls := fun he => hh.acyclic c (.single (by rw [← he] at hs; exact hs))
  rw [upcastPath?, if_neg hne, paths_eq hh (hh.subclass hs) hn, List.lookup_append,
    lookup_links (by rw [List.map_reverse, List.nodup_reverse]; exact hn) (List.mem_reverse.2 hl)]
  rfl

/-- A class is, or lies below, `a`. -/
def leadsTo (h : Hierarchy Upcast) (a c : Class) : Bool :=
  c = a || a ∈ h.ancestors c

theorem leadsTo_iff (hh : h.Sound) {a c : Class} : h.leadsTo a c = true ↔ c = a ∨ h.Above c a := by
  rw [leadsTo, Bool.or_eq_true, decide_eq_true_eq, decide_eq_true_eq, mem_ancestors hh]

theorem leadsTo_above (hh : h.Sound) {a c s : Class} (hs : h.Above c s) (ha : h.leadsTo a s = true) :
    h.leadsTo a c = true := by
  rw [leadsTo_iff hh] at ha ⊢
  rcases ha with rfl | ha
  · exact .inr hs
  · exact .inr (hs.trans ha)

theorem leadsTo_super (hh : h.Sound) (a : Class) (c s : Class) (hs : h.Super c s) (ha : h.leadsTo a s = true) :
    h.leadsTo a c = true :=
  leadsTo_above hh (.single hs) ha

/-- The path from `s` to `a` is the same in every search that has not yet seen the classes between the two. -/
theorem pathsFrom_of_first (hh : h.Sound) {a s : Class} (ha : h.Above s a) {unseen : List Class}
    (hn : unseen.Nodup) (hu : ∀ x ∈ h.nodes, h.Above s x → h.leadsTo a x = true → x ∈ unseen)
    (hsub : ∀ x ∈ unseen, x ∈ h.nodes) :
    (h.pathsFrom unseen [(s, [])]).lookup a = (h.pathsFrom h.nodes [(s, [])]).lookup a := by
  have haa : h.leadsTo a a = true := (leadsTo_iff hh).2 (.inl rfl)
  have hsa : h.leadsTo a s = true := (leadsTo_iff hh).2 (.inr ha)
  have hstack : ([(s, [])] : List (Class × List Upcast)).filter (h.leadsTo a ·.1) = [(s, [])] := by
    rw [List.filter_cons_of_pos (by exact hsa), List.filter_nil]
  rw [← lookup_filter haa, ← lookup_filter haa (h.pathsFrom h.nodes _),
    pathsFrom_filter (leadsTo_super hh a) _ _ hn, pathsFrom_filter (leadsTo_super hh a) _ _ hh.nodup,
    hstack]
  congr 1
  refine pathsFrom_congr (B := h.Above s) (fun _ _ hx hxy => .tail hx hxy) _ _ (hh.nodup.filter _)
    (hn.filter _) (fun x hx => ?_) (fun q hq t ht => ?_)
  · rw [List.mem_filter, List.mem_filter]
    exact ⟨fun hf => ⟨hsub x hf.1, hf.2⟩, fun hf => ⟨hu x hf.1 hx hf.2, hf.2⟩⟩
  · rw [List.mem_singleton.1 hq] at ht
    exact .single ht

/-- A search from superclasses that do not lead to `a` finds no class that does. -/
theorem leadsTo_found (hh : h.Sound) {a : Class} {links : List (SuperLink Upcast)}
    (hl : ∀ m ∈ links, h.leadsTo a m.cls = false) (unseen : List Class) :
    ∀ x ∈ (h.pathsFrom unseen (links.map entryOf)).map (·.1), h.leadsTo a x = false := by
  intro x hx
  obtain ⟨q, hq, rfl⟩ := List.mem_map.1 hx
  obtain ⟨-, r, hr, hpath⟩ := pathsFrom_sound _ _ q hq
  obtain ⟨m, hm, rfl⟩ := List.mem_map.1 hr
  by_contra hax
  rw [Bool.not_eq_false] at hax
  have := leadsTo_above hh hpath hax
  rw [entryOf, hl m hm] at this
  cases this

/-- **The path to an ancestor goes through the first superclass that leads to it**, if the ancestor is not itself a
direct superclass and no later superclass lies between the two. -/
theorem upcastPath?_first (hh : h.Sound) {c a : Class} (hn : ((h.superLinks c).map (·.cls)).Nodup)
    {before after : List (SuperLink Upcast)} {l : SuperLink Upcast} (hl : h.superLinks c = before ++ l :: after)
    (hbefore : ∀ m ∈ before, h.leadsTo a m.cls = false) (ha : h.Above l.cls a) (hdirect : ¬ h.Super c a)
    (hafter : ∀ m ∈ after, h.Above l.cls m.cls → h.leadsTo a m.cls = false) :
    h.upcastPath? c a = (h.upcastPath? l.cls a).map (l.upcast :: ·) := by
  have hs : h.Super c l.cls := by
    unfold Super supers
    rw [hl]
    exact List.mem_map_of_mem (by simp)
  have hca : c ≠ a := fun he => hh.acyclic c (.head hs (by rw [← he] at ha; exact ha))
  have hla : l.cls ≠ a := fun he => hdirect (by rw [he] at hs; exact hs)
  obtain ⟨p, hp, -⟩ := upcastPath?_of_above hh ha
  rw [hp]
  rw [upcastPath?, if_neg hla, paths, if_pos (hh.superclass hs)] at hp
  -- the classes unseen after `c` was opened, and those found before the search comes to `l`
  let unseen := h.nodes.diff ((h.superLinks c).map (·.cls)).reverse
  let found := (h.pathsFrom unseen (before.map entryOf)).map (·.1)
  have hfound : ∀ x ∈ found, h.leadsTo a x = false := leadsTo_found hh hbefore unseen
  have hbetween : ∀ x ∈ h.nodes, h.Above l.cls x → h.leadsTo a x = true → x ∈ unseen.diff found := by
    intro x hx hlx hax
    refine List.mem_diff_of_mem (List.mem_diff_of_mem hx fun hd => ?_) fun hf => ?_
    · rw [List.mem_reverse, hl] at hd
      obtain ⟨m, hm, rfl⟩ := List.mem_map.1 hd
      rcases List.mem_append.1 hm with hm | hm
      · rw [hbefore m hm] at hax
        cases hax
      rcases List.mem_cons.1 hm with rfl | hm
      · exact hh.acyclic _ hlx
      · rw [hafter m hm hlx] at hax
        cases hax
    · rw [hfound x hf] at hax
      cases hax
  have hpath : (h.pathsFrom (unseen.diff found) [(l.cls, [])]).lookup a = some p := by
    rw [pathsFrom_of_first hh ha hh.nodup.diff.diff hbetween, hp]
    exact fun x hx => List.diff_subset _ _ (List.diff_subset _ _ hx)
  have hself : h.leadsTo a a = true := (leadsTo_iff hh).2 (.inl rfl)
  have hown : a ∉ ((h.superLinks c).reverse.map entryOf).map (·.1) := by
    rw [List.map_map]
    intro hm
    obtain ⟨m, hm', rfl⟩ := List.mem_map.1 hm
    exact hdirect (List.mem_map_of_mem (List.mem_reverse.1 hm'))
  have hnot : a ∉ found := fun hf => by
    have := hfound a hf
    rw [hself] at this
    cases this
  have hprepend := pathsFrom_prepend (h := h) [l.upcast] (unseen.diff found) [(l.cls, [])]
  have hstack : (h.superLinks c).map entryOf = before.map entryOf ++ ([entryOf l] ++ after.map entryOf) := by
    rw [hl, List.map_append]
    rfl
  rw [upcastPath?, if_neg hca, paths_eq hh (hh.subclass hs) hn, List.lookup_append, lookup_eq_none hown, hstack,
    pathsFrom_append, pathsFrom_append, List.lookup_append, List.lookup_append, lookup_eq_none hnot]
  rw [List.map_cons, List.map_nil, List.append_nil] at hprepend
  rw [entryOf, hprepend, lookup_prepend, hpath]
  rfl

/-- The path from `c` to `a` begins with the first link whose class is `a` or lies below it, and goes on with that
class's own path. -/
def FollowsFirst (h : Hierarchy Upcast) (c a : Class) : Prop :=
  ∃ l p, (h.superLinks c).find? (h.leadsTo a ·.cls) = some l ∧ h.upcastPath? l.cls a = some p ∧
    h.upcastPath? c a = some (l.upcast :: p)

theorem follows_first_of_pairwise (hh : h.Sound) {c a : Class} (hn : ((h.superLinks c).map (·.cls)).Nodup)
    (hp : (h.superLinks c).Pairwise fun l m => m.cls ∉ h.ancestors l.cls) (ha : h.Above c a) :
    h.FollowsFirst c a := by
  obtain ⟨s, hs, hsa⟩ := Relation.TransGen.head'_iff.1 ha
  obtain ⟨m, hm, rfl⟩ := List.mem_map.1 hs
  have hlead : h.leadsTo a m.cls = true := by
    rw [leadsTo_iff hh]
    exact (Relation.reflTransGen_iff_eq_or_transGen.1 hsa).imp Eq.symm id
  have hsome : ((h.superLinks c).find? (h.leadsTo a ·.cls)).isSome = true :=
    List.find?_isSome.2 ⟨m, hm, hlead⟩
  obtain ⟨l, hf⟩ := Option.isSome_iff_exists.1 hsome
  obtain ⟨hl, before, after, hsplit, hbefore⟩ := List.find?_eq_some_iff_append.1 hf
  have hbefore' : ∀ m ∈ before, h.leadsTo a m.cls = false := fun m hm => by simpa using hbefore m hm
  have hafter : ∀ m ∈ after, ¬ h.Above l.cls m.cls := fun m hm habove => by
    rw [hsplit] at hp
    exact (List.pairwise_cons.1 (List.pairwise_append.1 hp).2.1).1 m hm ((mem_ancestors hh).2 habove)
  rcases (leadsTo_iff hh).1 hl with rfl | hla
  · refine ⟨l, [], hf, by rw [upcastPath?, if_pos rfl], ?_⟩
    exact upcastPath?_super hh hn (by rw [hsplit]; simp)
  · -- a direct superclass would have come before `l`, or would lie above it
    have hdirect : ¬ h.Super c a := by
      intro hca
      obtain ⟨m, hm, rfl⟩ := List.mem_map.1 hca
      rw [hsplit] at hm
      rcases List.mem_append.1 hm with hm | hm
      · have := hbefore' m hm
        rw [(leadsTo_iff hh).2 (.inl rfl)] at this
        cases this
      rcases List.mem_cons.1 hm with rfl | hm
      · exact hh.acyclic _ hla
      · exact hafter m hm hla
    obtain ⟨p, hpath, -⟩ := upcastPath?_of_above hh hla
    refine ⟨l, p, hf, hpath, ?_⟩
    rw [upcastPath?_first hh hn hsplit hbefore' hla hdirect fun m hm hlm => absurd hlm (hafter m hm), hpath]
    rfl

theorem pairwise_of_follows_first (hh : h.Sound) {c : Class} (hn : ((h.superLinks c).map (·.cls)).Nodup)
    (hf : ∀ a ∈ h.ancestors c, h.FollowsFirst c a) :
    (h.superLinks c).Pairwise fun l m => m.cls ∉ h.ancestors l.cls := by
  rw [List.pairwise_iff_getElem]
  intro i j hi hj hij hmem
  have habove := (mem_ancestors hh).1 hmem
  have hsub : h.Super c (h.superLinks c)[i].cls := List.mem_map_of_mem (List.getElem_mem hi)
  obtain ⟨l, p, hfind, hlp, hcp⟩ := hf _ ((mem_ancestors hh).2 (.head hsub habove))
  rw [upcastPath?_super hh hn (List.getElem_mem hj)] at hcp
  rw [Option.some.injEq, List.cons.injEq] at hcp
  obtain ⟨-, rfl⟩ := hcp
  obtain ⟨hl, k, hk, hkl, hbefore⟩ := List.find?_eq_some_iff_getElem.1 hfind
  have hki : k ≤ i := by
    by_contra hik
    have := hbefore i (by omega)
    rw [(leadsTo_iff hh).2 (.inr habove)] at this
    cases this
  rcases (leadsTo_iff hh).1 hl with he | hla
  · have hkj := List.pairwise_iff_getElem.1 hn k j (by simpa using hk) (by simpa using hj) (by omega)
    rw [List.getElem_map, List.getElem_map, hkl, he] at hkj
    exact hkj rfl
  · obtain ⟨p, hp, hne⟩ := upcastPath?_of_above hh hla
    rw [hp] at hlp
    cases hlp
    exact hne rfl

/-- **The paths of a class follow declaration order exactly if none of its direct superclasses lies above one that
is declared before it.** A class that was never described has no ancestors. -/
theorem follows_first_iff {classes : List (ClassDescriptor Upcast)} (hd : (classes.map (·.cls)).Nodup)
    (hs : ∀ d ∈ classes, (d.supers.map (·.cls)).Nodup) (hb : build classes = .ok h) (c : Class) :
    (∀ a ∈ h.ancestors c, h.FollowsFirst c a) ↔
      ∀ d ∈ classes, d.cls = c → d.supers.Pairwise fun l m => m.cls ∉ h.ancestors l.cls := by
  have hh := build_sound hb
  obtain ⟨rfl, -⟩ := build_ok hb
  by_cases hc : c ∈ classes.map (·.cls)
  · obtain ⟨d, hd', rfl⟩ := List.mem_map.1 hc
    have hlinks := superLinks_of_mem hd hd'
    have hn : (((ofClasses classes).superLinks d.cls).map (·.cls)).Nodup := by
      rw [hlinks]
      exact hs d hd'
    constructor
    · intro hf e he hed
      rw [← superLinks_of_mem hd he, hed]
      exact pairwise_of_follows_first hh hn hf
    · intro hp a ha
      refine follows_first_of_pairwise hh hn ?_ ((mem_ancestors hh).1 ha)
      rw [hlinks]
      exact hp d hd' rfl
  · have hsup : (ofClasses classes).supers c = [] := by
      rw [supers, superLinks_of_not_mem hc]
      rfl
    refine ⟨fun _ d hd' hdc => absurd (hdc ▸ List.mem_map_of_mem hd') hc, fun _ a ha => ?_⟩
    rw [ancestors_root hsup] at ha
    cases ha

/-- A class at the bottom that names the class above it first and then the class above both. -/
def triangle : List (ClassDescriptor String) :=
  let top : Class := ⟨"Top", "Top", .word 8⟩
  let middle : Class := ⟨"Middle", "Middle", .word 8⟩
  let bottom : Class := ⟨"Bottom", "Bottom", .word 8⟩
  [((ClassDescriptor.placeholder bottom "Bottom" 8).addSuper middle "middle of bottom").addSuper top "top of bottom",
    (ClassDescriptor.placeholder middle "Middle" 8).addSuper top "top of middle", .placeholder top "Top" 8]

/-- In the triangle the top is an ancestor of the class that is declared before it. -/
theorem triangle_not_follows_first : ∃ h, build triangle = .ok h ∧
    ¬ ∀ a ∈ h.ancestors ⟨"Bottom", "Bottom", .word 8⟩, h.FollowsFirst ⟨"Bottom", "Bottom", .word 8⟩ a := by
  have hb : build triangle = .ok (ofClasses triangle) := by
    have hc : (ofClasses triangle).digraph.culprit? = none := by cbv
    simp only [build, hc]
  refine ⟨_, hb, fun hf => ?_⟩
  have hp := (follows_first_iff (by decide) (by decide) hb _).1 hf _ List.mem_cons_self rfl
  have htop : (⟨"Top", "Top", .word 8⟩ : Class) ∈ (ofClasses triangle).ancestors ⟨"Middle", "Middle", .word 8⟩ := by
    rw [mem_ancestors (build_sound hb)]
    exact .single (super_iff.2 (by decide))
  exact (List.pairwise_cons.1 hp).1 _ List.mem_cons_self htop

end Hierarchy
end NativeBridge
