import Mathlib.Data.List.Nodup
import NativeBridge.Proofs.Registry.Acyclic
/-!
# The ancestors of a class

`flatten` lists exactly the classes above a class, each once (`mem_ancestors`, `nodup_ancestors`). The part that
is reachable by delegation is the first superclass followed by its own ancestors (`flatten_first`): a search does
not depend on the classes that it cannot reach, so the one that starts at a class goes under the first superclass
the way of the search that starts there.
-/
namespace NativeBridge
namespace Hierarchy
variable {Upcast : Type} {h : Hierarchy Upcast}

theorem flattenFrom_nil (unseen : List Class) : h.flattenFrom unseen [] = [] := by
  rw [flattenFrom]

theorem flattenFrom_unseen {unseen : List Class} {c : Class} {r : Bool} {rest : List (Class × Bool)}
    (hc : c ∈ unseen) : h.flattenFrom unseen ((c, r) :: rest) =
      ⟨c, r⟩ :: h.flattenFrom (unseen.erase c) ((h.supers c).map (·, r) ++ rest) := by
  rw [flattenFrom, if_pos hc]

theorem flattenFrom_seen {unseen : List Class} {c : Class} {r : Bool} {rest : List (Class × Bool)}
    (hc : c ∉ unseen) : h.flattenFrom unseen ((c, r) :: rest) = h.flattenFrom unseen rest := by
  rw [flattenFrom, if_neg hc]

/-! ## Parts of a search -/

/-- The classes that a search finds. -/
def found (h : Hierarchy Upcast) (unseen : List Class) (stack : List (Class × Bool)) : List Class :=
  (h.flattenFrom unseen stack).map (·.cls)

/-- A search from two stacks is one from the first, then one from the second for what is left. -/
theorem flattenFrom_append (unseen : List Class) (stack more : List (Class × Bool)) :
    h.flattenFrom unseen (stack ++ more) =
      h.flattenFrom unseen stack ++ h.flattenFrom (unseen.diff (h.found unseen stack)) more := by
  induction unseen, stack using flattenFrom.induct h with
  | case1 unseen => simp [found, flattenFrom_nil]
  | case2 unseen c r rest hc ih =>
    simp only [found, List.cons_append, flattenFrom_unseen hc, List.map_cons, List.diff_cons]
    rw [← List.append_assoc, ih]
    rfl
  | case3 unseen c r rest hc ih =>
    simp only [found, List.cons_append, flattenFrom_seen hc]
    exact ih

/-- Every step of a search that starts with one flag carries that flag. -/
theorem reachable_flattenFrom {b : Bool} (unseen : List Class) (stack : List (Class × Bool)) :
    (∀ p ∈ stack, p.2 = b) → ∀ s ∈ h.flattenFrom unseen stack, s.reachable = b := by
  induction unseen, stack using flattenFrom.induct h with
  | case1 unseen => simp [flattenFrom_nil]
  | case2 unseen c r rest hc ih =>
    intro hb s hs
    have hr : r = b := hb (c, r) (by simp)
    rw [flattenFrom_unseen hc, List.mem_cons] at hs
    rcases hs with rfl | hs
    · exact hr
    · refine ih (fun p hp => ?_) s hs
      rcases List.mem_append.1 hp with hp | hp
      · obtain ⟨-, -, rfl⟩ := List.mem_map.1 hp
        exact hr
      · exact hb p (List.mem_cons_of_mem _ hp)
  | case3 unseen c r rest hc ih =>
    intro hb
    rw [flattenFrom_seen hc]
    exact ih fun p hp => hb p (List.mem_cons_of_mem _ hp)

/-- Which classes are found does not depend on the flags. -/
theorem found_congr_flags (unseen : List Class) (stack : List (Class × Bool)) :
    ∀ stack' : List (Class × Bool), stack'.map (·.1) = stack.map (·.1) →
      h.found unseen stack' = h.found unseen stack := by
  induction unseen, stack using flattenFrom.induct h with
  | case1 unseen =>
    intro stack' hs
    rw [List.map_nil, List.map_eq_nil_iff] at hs
    rw [hs]
  | case2 unseen c r rest hc ih =>
    intro stack' hs
    obtain ⟨⟨c', r'⟩, rest', rfl, hc', hrest⟩ := List.map_eq_cons_iff.1 hs
    subst hc'
    unfold found at ih ⊢
    rw [flattenFrom_unseen hc, flattenFrom_unseen hc, List.map_cons, List.map_cons, ih _ (by simp [hrest])]
  | case3 unseen c r rest hc ih =>
    intro stack' hs
    obtain ⟨⟨c', r'⟩, rest', rfl, hc', hrest⟩ := List.map_eq_cons_iff.1 hs
    subst hc'
    unfold found at ih ⊢
    rw [flattenFrom_seen hc, flattenFrom_seen hc, ih _ hrest]

/-- A search depends on the unseen classes only as far as it can get. -/
theorem flattenFrom_congr {B : Class → Prop} (hB : ∀ c s, B c → h.Super c s → B s) (unseen : List Class)
    (stack : List (Class × Bool)) : ∀ {unseen' : List Class}, unseen.Nodup → unseen'.Nodup →
      (∀ c, B c → (c ∈ unseen' ↔ c ∈ unseen)) → (∀ p ∈ stack, B p.1) →
        h.flattenFrom unseen' stack = h.flattenFrom unseen stack := by
  induction unseen, stack using flattenFrom.induct h with
  | case1 unseen =>
    intros
    rw [flattenFrom_nil, flattenFrom_nil]
  | case2 unseen c r rest hc ih =>
    intro unseen' hn hn' hiff hst
    have hBc : B c := hst (c, r) (by simp)
    rw [flattenFrom_unseen hc, flattenFrom_unseen ((hiff c hBc).2 hc)]
    congr 1
    refine ih (hn.erase c) (hn'.erase c) (fun d hd => ?_) (fun p hp => ?_)
    · rw [hn.mem_erase_iff, hn'.mem_erase_iff, hiff d hd]
    · rcases List.mem_append.1 hp with hp | hp
      · obtain ⟨s, hs, rfl⟩ := List.mem_map.1 hp
        exact hB c s hBc hs
      · exact hst p (List.mem_cons_of_mem _ hp)
  | case3 unseen c r rest hc ih =>
    intro unseen' hn hn' hiff hst
    have hBc : B c := hst (c, r) (by simp)
    rw [flattenFrom_seen hc, flattenFrom_seen fun hc' => hc ((hiff c hBc).1 hc')]
    exact ih hn hn' hiff fun p hp => hst p (List.mem_cons_of_mem _ hp)

/-! ## What a search finds -/

theorem found_sound (unseen : List Class) (stack : List (Class × Bool)) : ∀ a ∈ h.found unseen stack,
    a ∈ unseen ∧ ∃ p ∈ stack, Relation.ReflTransGen h.Super p.1 a := by
  unfold found
  induction unseen, stack using flattenFrom.induct h with
  | case1 unseen => simp [flattenFrom_nil]
  | case2 unseen c r rest hc ih =>
    intro a ha
    rw [flattenFrom_unseen hc, List.map_cons, List.mem_cons] at ha
    rcases ha with rfl | ha
    · exact ⟨hc, _, List.mem_cons_self, .refl⟩
    obtain ⟨hu, p, hp, hpath⟩ := ih a ha
    refine ⟨List.mem_of_mem_erase hu, ?_⟩
    rcases List.mem_append.1 hp with hp | hp
    · obtain ⟨s, hs, rfl⟩ := List.mem_map.1 hp
      exact ⟨(c, r), by simp, .head hs hpath⟩
    · exact ⟨p, List.mem_cons_of_mem _ hp, hpath⟩
  | case3 unseen c r rest hc ih =>
    intro a ha
    rw [flattenFrom_seen hc] at ha
    obtain ⟨hu, p, hp, hpath⟩ := ih a ha
    exact ⟨hu, p, List.mem_cons_of_mem _ hp, hpath⟩

/-- A search finds what is unseen on its stack, and with a class its unseen superclasses. -/
theorem found_closed (unseen : List Class) (stack : List (Class × Bool)) :
    (∀ p ∈ stack, p.1 ∈ unseen → p.1 ∈ h.found unseen stack) ∧
    ∀ a ∈ h.found unseen stack, ∀ s, h.Super a s → s ∈ unseen → s ∈ h.found unseen stack := by
  unfold found
  induction unseen, stack using flattenFrom.induct h with
  | case1 unseen => simp [flattenFrom_nil]
  | case2 unseen c r rest hc ih =>
    obtain ⟨ihst, ihcl⟩ := ih
    rw [flattenFrom_unseen hc, List.map_cons]
    -- what is unseen and is not `c` stays unseen after `c`
    have hkeep : ∀ s ∈ unseen, s = c ∨ s ∈ unseen.erase c := fun s hs =>
      (em (s = c)).imp id fun hne => (List.mem_erase_of_ne hne).2 hs
    refine ⟨fun p hp hu => ?_, fun a ha s hs hu => ?_⟩
    · rcases List.mem_cons.1 hp with rfl | hp
      · exact List.mem_cons_self
      rcases hkeep p.1 hu with hpc | hu
      · rw [hpc]
        exact List.mem_cons_self
      · exact List.mem_cons_of_mem _ (ihst p (List.mem_append_right _ hp) hu)
    · rcases hkeep s hu with rfl | hu
      · exact List.mem_cons_self
      rcases List.mem_cons.1 ha with rfl | ha
      · have hmem : (s, r) ∈ (h.supers a).map (·, r) ++ rest :=
          List.mem_append_left _ (List.mem_map.2 ⟨s, hs, rfl⟩)
        exact List.mem_cons_of_mem _ (ihst (s, r) hmem hu)
      · exact List.mem_cons_of_mem _ (ihcl a ha s hs hu)
  | case3 unseen c r rest hc ih =>
    rw [flattenFrom_seen hc]
    refine ⟨fun p hp hu => ?_, ih.2⟩
    rcases List.mem_cons.1 hp with rfl | hp
    · exact absurd hu hc
    · exact ih.1 p hp hu

theorem nodup_found (unseen : List Class) (stack : List (Class × Bool)) :
    unseen.Nodup → (h.found unseen stack).Nodup := by
  induction unseen, stack using flattenFrom.induct h with
  | case1 unseen => simp [found, flattenFrom_nil]
  | case2 unseen c r rest hc ih =>
    intro hn
    unfold found
    rw [flattenFrom_unseen hc, List.map_cons]
    refine List.nodup_cons.2 ⟨fun hmem => ?_, ih (hn.erase c)⟩
    exact hn.not_mem_erase (found_sound _ _ c hmem).1
  | case3 unseen c r rest hc ih =>
    intro hn
    unfold found
    rw [flattenFrom_seen hc]
    exact ih hn

/-! ## The ancestors -/

/-- The stack that the search for the ancestors of a class starts with. -/
def flagged (h : Hierarchy Upcast) (c : Class) : List (Class × Bool) :=
  (h.supers c).zipIdx.map fun (s, i) => (s, i == 0)

theorem map_flagged (c : Class) : (h.flagged c).map (·.1) = h.supers c := by
  unfold flagged
  rw [List.map_map]
  exact List.zipIdx_map_fst 0 _

theorem flatten_of_mem {c : Class} (hc : c ∈ h.nodes) :
    h.flatten c = h.flattenFrom (h.nodes.erase c) (h.flagged c) := by
  unfold flatten
  rw [if_pos hc]
  rfl

theorem ancestors_of_mem {c : Class} (hc : c ∈ h.nodes) :
    h.ancestors c = h.found (h.nodes.erase c) (h.flagged c) := by
  unfold ancestors
  rw [flatten_of_mem hc]
  rfl

theorem ancestors_of_not_mem {c : Class} (hc : c ∉ h.nodes) : h.ancestors c = [] := by
  unfold ancestors flatten
  rw [if_neg hc]
  rfl

/-- **The ancestors of a class are the classes above it.** -/
theorem mem_ancestors (hh : h.Sound) {c a : Class} : a ∈ h.ancestors c ↔ h.Above c a := by
  by_cases hc : c ∈ h.nodes
  · rw [ancestors_of_mem hc]
    constructor
    · intro ha
      obtain ⟨-, p, hp, hpath⟩ := found_sound _ _ a ha
      have hs : p.1 ∈ h.supers c := map_flagged (h := h) c ▸ List.mem_map_of_mem hp
      exact Relation.TransGen.head' hs hpath
    · have hunseen : ∀ {b s}, h.Super b s → h.Above c s → s ∈ h.nodes.erase c := by
        intro b s hbs hcs
        have hne : s ≠ c := fun he => hh.acyclic c (by rw [he] at hcs; exact hcs)
        exact (List.mem_erase_of_ne hne).2 (hh.superclass hbs)
      obtain ⟨hst, hcl⟩ := found_closed (h := h) (h.nodes.erase c) (h.flagged c)
      intro hpath
      induction hpath with
      | @single s hs =>
        have hs' : s ∈ (h.flagged c).map (·.1) := by rw [map_flagged]; exact hs
        obtain ⟨p, hp, rfl⟩ := List.mem_map.1 hs'
        exact hst p hp (hunseen hs (.single hs))
      | @tail b s hcb hbs ih => exact hcl b ih s hbs (hunseen hbs (.tail hcb hbs))
  · rw [ancestors_of_not_mem hc]
    refine ⟨fun ha => absurd ha List.not_mem_nil, fun hpath => ?_⟩
    obtain ⟨s, hs, -⟩ := Relation.TransGen.head'_iff.1 hpath
    exact absurd (hh.subclass hs) hc

theorem nodup_ancestors (hh : h.Sound) (c : Class) : (h.ancestors c).Nodup := by
  by_cases hc : c ∈ h.nodes
  · rw [ancestors_of_mem hc]
    exact nodup_found _ _ (hh.nodup.erase c)
  · rw [ancestors_of_not_mem hc]
    exact List.nodup_nil

theorem not_mem_ancestors_self (hh : h.Sound) (c : Class) : c ∉ h.ancestors c :=
  fun hc => hh.acyclic c ((mem_ancestors hh).1 hc)

/-- The search for the ancestors of `c` finds under a direct superclass `s` what the search for the ancestors of
`s` finds: it cannot come back to `c`. -/
theorem flattenFrom_super (hh : h.Sound) {c s : Class} (hs : h.Super c s) :
    h.flattenFrom (h.nodes.erase c) [(s, true)] = (s :: h.ancestors s).map (⟨·, true⟩) := by
  have hsc : s ≠ c := fun he => hh.acyclic c (.single (by rw [he] at hs; exact hs))
  rw [flattenFrom_unseen ((List.mem_erase_of_ne hsc).2 (hh.superclass hs)), List.append_nil, List.map_cons]
  congr 1
  have hcongr : h.flattenFrom ((h.nodes.erase c).erase s) ((h.supers s).map (·, true)) =
      h.flattenFrom (h.nodes.erase s) ((h.supers s).map (·, true)) := by
    refine flattenFrom_congr (B := h.Above s) (fun _ _ hx hxy => .tail hx hxy) _ _ (hh.nodup.erase s)
      ((hh.nodup.erase c).erase s) (fun x hx => ?_) (fun p hp => ?_)
    · have hxc : x ≠ c := fun he => hh.acyclic c (.head hs (by rw [he] at hx; exact hx))
      rw [(hh.nodup.erase c).mem_erase_iff, hh.nodup.mem_erase_iff, hh.nodup.mem_erase_iff]
      simp [hxc]
    · obtain ⟨x, hx, rfl⟩ := List.mem_map.1 hp
      exact .single hx
  have hflags : h.found (h.nodes.erase s) ((h.supers s).map (·, true)) = h.ancestors s := by
    rw [ancestors_of_mem (hh.superclass hs)]
    exact found_congr_flags _ _ _ (by rw [map_flagged, List.map_map]; exact List.map_id _)
  have htrue : ∀ t ∈ h.flattenFrom (h.nodes.erase s) ((h.supers s).map (·, true)), t.reachable = true :=
    reachable_flattenFrom _ _ fun p hp => by obtain ⟨x, -, rfl⟩ := List.mem_map.1 hp; rfl
  rw [hcongr, ← hflags, found, List.map_map]
  refine (List.map_id'' (fun _ => rfl) _).symm.trans (List.map_congr_left fun t ht => ?_)
  rw [Function.comp_apply, ← htrue t ht]

/-- **What is reachable by delegation is the first superclass with its ancestors**; the other ancestors
follow. -/
theorem flatten_first (hh : h.Sound) {c s : Class} {more : List Class} (hs : h.supers c = s :: more) :
    ∃ tail, h.flatten c = (s :: h.ancestors s).map (⟨·, true⟩) ++ tail ∧ ∀ t ∈ tail, t.reachable = false := by
  have hsup : h.Super c s := by
    unfold Super
    rw [hs]
    exact List.mem_cons_self
  have hflag : h.flagged c = [(s, true)] ++ (more.zipIdx 1).map fun (s, i) => (s, i == 0) := by
    unfold flagged
    rw [hs]
    rfl
  rw [flatten_of_mem (hh.subclass hsup), hflag, flattenFrom_append, flattenFrom_super hh hsup]
  refine ⟨_, rfl, reachable_flattenFrom _ _ fun p hp => ?_⟩
  obtain ⟨⟨x, i⟩, hx, rfl⟩ := List.mem_map.1 hp
  have := List.le_snd_of_mem_zipIdx hx
  simp only [beq_eq_false_iff_ne, ne_eq]
  omega

/-- A class without superclasses has no ancestors. -/
theorem flatten_root {c : Class} (hs : h.supers c = []) : h.flatten c = [] := by
  unfold flatten
  rw [hs]
  split
  · exact flattenFrom_nil _
  · rfl

theorem ancestors_root {c : Class} (hs : h.supers c = []) : h.ancestors c = [] := by
  unfold ancestors
  rw [flatten_root hs]
  rfl

/-- The ancestors of a class begin with its first superclass and that one's ancestors. -/
theorem ancestors_first (hh : h.Sound) {c s : Class} {more : List Class} (hs : h.supers c = s :: more) :
    ∃ tail, h.ancestors c = s :: h.ancestors s ++ tail := by
  obtain ⟨tail, ht, -⟩ := flatten_first hh hs
  refine ⟨tail.map (·.cls), ?_⟩
  rw [ancestors, ht, List.map_append, List.map_map]
  congr 1
  exact List.map_id _

/-! ## Depth-first declaration order -/

/-- A class, then its ancestors in depth-first declaration order. -/
def linearization (h : Hierarchy Upcast) (c : Class) : List Class :=
  c :: h.ancestors c

theorem nodup_linearization (hh : h.Sound) (c : Class) : (h.linearization c).Nodup :=
  List.nodup_cons.2 ⟨not_mem_ancestors_self hh c, nodup_ancestors hh c⟩

theorem flattenFrom_skip {unseen : List Class} : ∀ (seen rest : List (Class × Bool)),
    (∀ p ∈ seen, p.1 ∉ unseen) → h.flattenFrom unseen (seen ++ rest) = h.flattenFrom unseen rest
  | [], _, _ => rfl
  | (c, r) :: seen, rest, hs => by
    rw [List.cons_append, flattenFrom_seen (hs (c, r) List.mem_cons_self)]
    exact flattenFrom_skip seen rest fun p hp => hs p (List.mem_cons_of_mem _ hp)

theorem filter_erase {unseen : List Class} (hn : unseen.Nodup) (p : Class → Bool) (c : Class) :
    (unseen.erase c).filter p = (unseen.filter p).erase c := by
  rw [(hn.filter p).erase_eq_filter, hn.erase_eq_filter, List.filter_filter, List.filter_filter]
  exact List.filter_congr fun x _ => Bool.and_comm _ _

/-- Of the classes that some lead to, a search finds the same when it sees no others. -/
theorem found_filter {A : Class → Bool} (hA : ∀ c s, h.Super c s → A s = true → A c = true) (unseen : List Class)
    (stack : List (Class × Bool)) : unseen.Nodup →
      h.found (unseen.filter A) stack = (h.found unseen stack).filter A := by
  induction unseen, stack using flattenFrom.induct h with
  | case1 unseen => simp [found, flattenFrom_nil]
  | case2 unseen c r rest hc ih =>
    intro hn
    have ih := ih (hn.erase c)
    unfold found at ih ⊢
    rw [flattenFrom_unseen hc, List.map_cons]
    by_cases hac : A c = true
    · have hcf : c ∈ unseen.filter A := List.mem_filter.2 ⟨hc, hac⟩
      rw [List.filter_cons_of_pos hac, flattenFrom_unseen hcf, List.map_cons, ← ih, filter_erase hn]
    · have hcf : c ∉ unseen.filter A := fun hf => hac (List.mem_filter.1 hf).2
      rw [List.filter_cons_of_neg hac, flattenFrom_seen hcf, ← ih, filter_erase hn, List.erase_of_not_mem hcf,
        flattenFrom_skip]
      intro p hp hpf
      obtain ⟨s, hs, rfl⟩ := List.mem_map.1 hp
      exact hac (hA c s hs (List.mem_filter.1 hpf).2)
  | case3 unseen c r rest hc ih =>
    intro hn
    have ih := ih hn
    unfold found at ih ⊢
    rw [flattenFrom_seen hc, flattenFrom_seen fun hf => hc (List.mem_filter.1 hf).1, ih]

theorem eraseDups_of_nodup : ∀ {l : List Class}, l.Nodup → l.eraseDups = l
  | [], _ => rfl
  | c :: l, hn => by
    rw [List.nodup_cons] at hn
    have hself : l.filter (fun b => !b == c) = l :=
      List.filter_eq_self.2 fun b hb => by
        rw [Bool.not_eq_true', beq_eq_false_iff_ne]
        rintro rfl
        exact hn.1 hb
    rw [List.eraseDups_cons, hself, eraseDups_of_nodup hn.2]

theorem found_super (hh : h.Sound) {c s : Class} (hs : h.Super c s) (r : Bool) :
    h.found (h.nodes.erase c) [(s, r)] = h.linearization s := by
  rw [found_congr_flags _ [(s, true)] [(s, r)] rfl, found, flattenFrom_super hh hs, List.map_map]
  exact List.map_id _

/-- The search from some superclasses of `c`, when the classes in `Z` have been seen with all classes above them. -/
theorem found_supers (hh : h.Sound) {c : Class} : ∀ (ss : List (Class × Bool)) (Z : List Class),
    (∀ p ∈ ss, h.Super c p.1) → (∀ a s, h.Super a s → a ∈ Z → s ∈ Z) →
      h.found ((h.nodes.erase c).filter (· ∉ Z)) ss =
        ((ss.flatMap fun p => h.linearization p.1).filter (· ∉ Z)).eraseDups
  | [], Z, _, _ => by
    rw [found, flattenFrom_nil]
    rfl
  | (s, r) :: ss, Z, hss, hZ => by
    have hn := hh.nodup.erase c
    have hclosed : ∀ a t, h.Super a t → decide (t ∉ Z) = true → decide (a ∉ Z) = true := fun a t ht hat =>
      decide_eq_true fun ha => of_decide_eq_true hat (hZ a t ht ha)
    have hone : h.found ((h.nodes.erase c).filter (· ∉ Z)) [(s, r)] =
        (h.linearization s).filter (· ∉ Z) := by
      rw [found_filter hclosed _ _ hn, found_super hh (hss (s, r) List.mem_cons_self)]
    -- the classes found under `s` are seen as well, and with them all classes above
    have hZ' : ∀ a t, h.Super a t → a ∈ Z ++ h.linearization s → t ∈ Z ++ h.linearization s := by
      intro a t ht ha
      rcases List.mem_append.1 ha with ha | ha
      · exact List.mem_append_left _ (hZ a t ht ha)
      · refine List.mem_append_right _ (List.mem_cons_of_mem _ ((mem_ancestors hh).2 ?_))
        rcases List.mem_cons.1 ha with rfl | ha
        · exact .single ht
        · exact .tail ((mem_ancestors hh).1 ha) ht
    have hrest : ((h.nodes.erase c).filter (· ∉ Z)).diff ((h.linearization s).filter (· ∉ Z)) =
        (h.nodes.erase c).filter (· ∉ Z ++ h.linearization s) := by
      rw [(hn.filter _).sdiff_eq_filter, List.filter_filter]
      refine List.filter_congr fun x _ => ?_
      by_cases hxs : x ∈ h.linearization s <;> simp [hxs]
    have happend : h.found ((h.nodes.erase c).filter (· ∉ Z)) ([(s, r)] ++ ss) =
        (h.linearization s).filter (· ∉ Z) ++
          h.found ((h.nodes.erase c).filter (· ∉ Z ++ h.linearization s)) ss := by
      rw [← hrest, ← hone, found, flattenFrom_append, List.map_append]
      rfl
    rw [← List.singleton_append, happend, found_supers hh ss _ (fun p hp => hss p (List.mem_cons_of_mem _ hp)) hZ',
      List.singleton_append, List.flatMap_cons, List.filter_append, List.eraseDups_append,
      eraseDups_of_nodup ((nodup_linearization hh s).filter _)]
    congr 2
    rw [List.removeAll, List.filter_filter]
    refine List.filter_congr fun x _ => ?_
    by_cases hxs : x ∈ h.linearization s <;> simp [hxs]

/-- **The ancestors are in depth-first declaration order**: superclass by superclass, each with its own ancestors, every
class where it comes first. -/
theorem ancestors_eq (hh : h.Sound) (c : Class) :
    h.ancestors c = ((h.supers c).flatMap h.linearization).eraseDups := by
  by_cases hc : c ∈ h.nodes
  · have hsup : ∀ p ∈ h.flagged c, h.Super c p.1 := fun p hp => by
      unfold Super
      rw [← map_flagged]
      exact List.mem_map_of_mem hp
    have hfound := found_supers hh (h.flagged c) [] hsup fun _ _ _ ha => absurd ha List.not_mem_nil
    have hall : ∀ l : List Class, l.filter (· ∉ ([] : List Class)) = l := fun l =>
      List.filter_eq_self.2 fun _ _ => by simp
    rw [hall, hall] at hfound
    rw [ancestors_of_mem hc, hfound, ← map_flagged, List.flatMap_map]
  · have hnone : h.supers c = [] := List.eq_nil_iff_forall_not_mem.2 fun s hs => hc (hh.subclass hs)
    rw [ancestors_of_not_mem hc, hnone]
    rfl

end Hierarchy
end NativeBridge
