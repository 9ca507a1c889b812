import NativeBridge.Proofs.Registry.Acyclic
import Mathlib.Data.List.Nodup
/-!
# The search for upcast paths

What `pathsFrom` finds, in parts: a search from two stacks is one after the other (`pathsFrom_append`), every path
leads up (`pathsFrom_sound`), nothing above the stack is missed (`pathsFrom_closed`), a path in front stays in front
(`pathsFrom_prepend`), and the paths to one class depend only on the classes between it and the stack
(`pathsFrom_filter`, `pathsFrom_congr`).
-/
namespace NativeBridge
namespace Hierarchy
variable {Upcast : Type} {h : Hierarchy Upcast}

/-! ## Discovering the superclasses of one class -/

theorem discover_snd (path : List Upcast) : ∀ (links : List (SuperLink Upcast)) (unseen : List Class),
    (discover path links unseen).2 = unseen.diff ((discover path links unseen).1.map (·.1))
  | [], unseen => by simp [discover]
  | l :: links, unseen => by
    unfold discover
    split
    · simp only [List.map_cons, List.diff_cons]
      exact discover_snd path links _
    · exact discover_snd path links unseen

theorem discover_sound (path : List Upcast) : ∀ (links : List (SuperLink Upcast)) (unseen : List Class),
    ∀ q ∈ (discover path links unseen).1, q.1 ∈ unseen ∧ ∃ l ∈ links, q = (l.cls, path ++ [l.upcast])
  | [], unseen => by simp [discover]
  | l :: links, unseen => by
    unfold discover
    split
    · rename_i hl
      intro q hq
      rcases List.mem_cons.1 hq with rfl | hq
      · exact ⟨hl, l, List.mem_cons_self, rfl⟩
      · obtain ⟨hu, m, hm, he⟩ := discover_sound path links _ q hq
        exact ⟨List.mem_of_mem_erase hu, m, List.mem_cons_of_mem _ hm, he⟩
    · intro q hq
      obtain ⟨hu, m, hm, he⟩ := discover_sound path links unseen q hq
      exact ⟨hu, m, List.mem_cons_of_mem _ hm, he⟩

theorem discover_complete (path : List Upcast) : ∀ (links : List (SuperLink Upcast)) (unseen : List Class),
    ∀ l ∈ links, l.cls ∈ unseen → l.cls ∈ (discover path links unseen).1.map (·.1)
  | m :: links, unseen, l, hl, hu => by
    unfold discover
    split
    · rw [List.map_cons]
      by_cases he : l.cls = m.cls
      · rw [he]
        exact List.mem_cons_self
      · have hlinks : l ∈ links := (List.mem_cons.1 hl).resolve_left fun hlm => he (by rw [hlm])
        exact List.mem_cons_of_mem _
          (discover_complete path links _ l hlinks ((List.mem_erase_of_ne he).2 hu))
    · rename_i hm
      have hlinks : l ∈ links := (List.mem_cons.1 hl).resolve_left fun hlm => hm (by rw [← hlm]; exact hu)
      exact discover_complete path links unseen l hlinks hu

/-- Distinct classes that are all unseen are all discovered. -/
theorem discover_fst (path : List Upcast) : ∀ (links : List (SuperLink Upcast)) (unseen : List Class),
    (links.map (·.cls)).Nodup → (∀ l ∈ links, l.cls ∈ unseen) →
      (discover path links unseen).1 = links.map fun l => (l.cls, path ++ [l.upcast])
  | [], _, _, _ => rfl
  | l :: links, unseen, hn, hu => by
    rw [List.map_cons, List.nodup_cons] at hn
    unfold discover
    rw [if_pos (hu l List.mem_cons_self)]
    simp only [List.map_cons]
    rw [discover_fst path links _ hn.2]
    intro m hm
    have hne : m.cls ≠ l.cls := fun he => hn.1 (by rw [← he]; exact List.mem_map_of_mem hm)
    exact (List.mem_erase_of_ne hne).2 (hu m (List.mem_cons_of_mem _ hm))

/-- A path in front of all paths stays in front. -/
theorem discover_prepend (p path : List Upcast) : ∀ (links : List (SuperLink Upcast)) (unseen : List Class),
    discover (p ++ path) links unseen =
      ((discover path links unseen).1.map fun q => (q.1, p ++ q.2), (discover path links unseen).2)
  | [], unseen => rfl
  | l :: links, unseen => by
    unfold discover
    split
    · simp only [discover_prepend p path links, List.map_cons, List.append_assoc]
    · exact discover_prepend p path links unseen

theorem discover_filter (path : List Upcast) (A : Class → Bool) :
    ∀ (links : List (SuperLink Upcast)) (unseen : List Class), unseen.Nodup →
      discover path links (unseen.filter A) =
        ((discover path links unseen).1.filter (A ·.1), (discover path links unseen).2.filter A)
  | [], unseen, _ => rfl
  | l :: links, unseen, hn => by
    by_cases hA : A l.cls = true
    · unfold discover
      by_cases hu : l.cls ∈ unseen
      · have herase : (unseen.filter A).erase l.cls = (unseen.erase l.cls).filter A := by
          rw [(hn.filter A).erase_eq_filter, hn.erase_eq_filter, List.filter_filter, List.filter_filter]
          exact List.filter_congr fun x _ => Bool.and_comm _ _
        rw [if_pos hu, if_pos (List.mem_filter.2 ⟨hu, hA⟩)]
        simp only [herase, discover_filter path A links _ (hn.erase _), List.filter_cons, hA, if_true]
      · rw [if_neg hu, if_neg fun hf => hu (List.mem_filter.1 hf).1]
        exact discover_filter path A links unseen hn
    · have hf : l.cls ∉ unseen.filter A := fun hf => hA (List.mem_filter.1 hf).2
      unfold discover
      rw [if_neg hf]
      split
      · have herase : (unseen.erase l.cls).filter A = unseen.filter A := by
          rw [hn.erase_eq_filter, List.filter_filter]
          refine List.filter_congr fun x _ => ?_
          by_cases hx : x = l.cls <;> simp_all
        simp only [List.filter_cons, if_neg hA]
        rw [← herase]
        exact discover_filter path A links _ (hn.erase _)
      · exact discover_filter path A links unseen hn

theorem discover_congr (path : List Upcast) {B : Class → Prop} : ∀ (links : List (SuperLink Upcast))
    (unseen unseen' : List Class), unseen.Nodup → unseen'.Nodup → (∀ c, B c → (c ∈ unseen' ↔ c ∈ unseen)) →
      (∀ l ∈ links, B l.cls) → (discover path links unseen').1 = (discover path links unseen).1
  | [], _, _, _, _, _, _ => rfl
  | l :: links, unseen, unseen', hn, hn', hiff, hB => by
    have hl : B l.cls := hB l List.mem_cons_self
    have hlinks : ∀ m ∈ links, B m.cls := fun m hm => hB m (List.mem_cons_of_mem _ hm)
    unfold discover
    by_cases hu : l.cls ∈ unseen
    · rw [if_pos hu, if_pos ((hiff _ hl).2 hu)]
      have hiff' : ∀ c, B c → (c ∈ unseen'.erase l.cls ↔ c ∈ unseen.erase l.cls) := fun c hc => by
        rw [hn.mem_erase_iff, hn'.mem_erase_iff, hiff c hc]
      simp only [discover_congr path links _ _ (hn.erase _) (hn'.erase _) hiff' hlinks]
    · rw [if_neg hu, if_neg fun hu' => hu ((hiff _ hl).1 hu')]
      exact discover_congr path links unseen unseen' hn hn' hiff hlinks

/-! ## Parts of a search -/

/-- The superclasses of `c` that are discovered when it is taken from the stack. -/
def opened (h : Hierarchy Upcast) (c : Class) (path : List Upcast) (unseen : List Class) :
    List (Class × List Upcast) × List Class :=
  discover path (h.superLinks c).reverse unseen

theorem pathsFrom_nil (unseen : List Class) : h.pathsFrom unseen [] = [] := by
  rw [pathsFrom]

theorem pathsFrom_cons (unseen : List Class) (c : Class) (path : List Upcast)
    (rest : List (Class × List Upcast)) : h.pathsFrom unseen ((c, path) :: rest) =
      (h.opened c path unseen).1 ++
        h.pathsFrom (h.opened c path unseen).2 ((h.opened c path unseen).1.reverse ++ rest) := by
  rw [pathsFrom]
  rfl

/-- Induction over the steps of a search. -/
@[elab_as_elim]
theorem search_induct {motive : List Class → List (Class × List Upcast) → Prop}
    (nil : ∀ unseen, motive unseen [])
    (cons : ∀ unseen c path rest,
      motive (h.opened c path unseen).2 ((h.opened c path unseen).1.reverse ++ rest) →
        motive unseen ((c, path) :: rest))
    (unseen : List Class) (stack : List (Class × List Upcast)) : motive unseen stack :=
  pathsFrom.induct h motive nil cons unseen stack

theorem opened_super {c : Class} {path : List Upcast} {unseen : List Class} {q : Class × List Upcast}
    (hq : q ∈ (h.opened c path unseen).1) : h.Super c q.1 := by
  obtain ⟨-, l, hl, rfl⟩ := discover_sound path _ unseen q hq
  exact List.mem_map_of_mem (List.mem_reverse.1 hl)

theorem opened_snd (c : Class) (path : List Upcast) (unseen : List Class) :
    (h.opened c path unseen).2 = unseen.diff ((h.opened c path unseen).1.map (·.1)) :=
  discover_snd path _ unseen

theorem opened_complete {c s : Class} {path : List Upcast} {unseen : List Class} (hs : h.Super c s)
    (hu : s ∈ unseen) : s ∈ (h.opened c path unseen).1.map (·.1) := by
  obtain ⟨l, hl, rfl⟩ := List.mem_map.1 hs
  exact discover_complete path _ unseen l (List.mem_reverse.2 hl) hu

/-- A search from two stacks is one from the first, then one from the second for what is left. -/
theorem pathsFrom_append (unseen : List Class) (stack more : List (Class × List Upcast)) :
    h.pathsFrom unseen (stack ++ more) = h.pathsFrom unseen stack ++
      h.pathsFrom (unseen.diff ((h.pathsFrom unseen stack).map (·.1))) more := by
  induction unseen, stack using search_induct (h := h) with
  | nil unseen => simp [pathsFrom_nil]
  | cons unseen c path rest ih =>
    rw [List.cons_append, pathsFrom_cons, pathsFrom_cons, List.map_append, List.diff_append, ← opened_snd,
      ← List.append_assoc, ih, List.append_assoc]

/-- Every path found leads at least one step up from the stack, to an unseen class, and is not empty. -/
theorem pathsFrom_sound (unseen : List Class) (stack : List (Class × List Upcast)) :
    ∀ q ∈ h.pathsFrom unseen stack, q.2 ≠ [] ∧ ∃ p ∈ stack, h.Above p.1 q.1 := by
  induction unseen, stack using search_induct (h := h) with
  | nil unseen => simp [pathsFrom_nil]
  | cons unseen c path rest ih =>
    intro q hq
    rw [pathsFrom_cons] at hq
    rcases List.mem_append.1 hq with hq | hq
    · refine ⟨?_, (c, path), List.mem_cons_self, .single (opened_super hq)⟩
      obtain ⟨-, l, -, rfl⟩ := discover_sound path _ unseen q hq
      simp
    · obtain ⟨hne, p, hp, hpath⟩ := ih q hq
      refine ⟨hne, ?_⟩
      rcases List.mem_append.1 hp with hp | hp
      · exact ⟨(c, path), List.mem_cons_self, .head (opened_super (List.mem_reverse.1 hp)) hpath⟩
      · exact ⟨p, List.mem_cons_of_mem _ hp, hpath⟩

/-- A search finds the unseen superclasses of its stack, and of every class that it finds. -/
theorem pathsFrom_closed (unseen : List Class) (stack : List (Class × List Upcast)) :
    ∀ q ∈ stack ++ h.pathsFrom unseen stack, ∀ s, h.Super q.1 s → s ∈ unseen →
      s ∈ (h.pathsFrom unseen stack).map (·.1) := by
  induction unseen, stack using search_induct (h := h) with
  | nil unseen => simp [pathsFrom_nil]
  | cons unseen c path rest ih =>
    intro q hq s hs hu
    rw [pathsFrom_cons, List.map_append, List.mem_append]
    by_cases hopen : s ∈ (h.opened c path unseen).1.map (·.1)
    · exact .inl hopen
    have hu' : s ∈ (h.opened c path unseen).2 := by
      rw [opened_snd]
      exact List.mem_diff_of_mem hu hopen
    have hq' : q ∈ (h.opened c path unseen).1.reverse ++ rest ++
        h.pathsFrom (h.opened c path unseen).2 ((h.opened c path unseen).1.reverse ++ rest) := by
      rw [pathsFrom_cons] at hq
      simp only [List.cons_append, List.mem_cons, List.mem_append, List.mem_reverse] at hq ⊢
      rcases hq with rfl | hq | hq | hq
      · exact absurd (opened_complete hs hu) hopen
      · exact .inl (.inr hq)
      · exact .inl (.inl hq)
      · exact .inr hq
    exact .inr (ih q hq' s hs hu')

/-- A path in front of the paths on the stack stands in front of the paths found. -/
theorem pathsFrom_prepend (p : List Upcast) (unseen : List Class) (stack : List (Class × List Upcast)) :
    h.pathsFrom unseen (stack.map fun q => (q.1, p ++ q.2)) =
      (h.pathsFrom unseen stack).map fun q => (q.1, p ++ q.2) := by
  induction unseen, stack using search_induct (h := h) with
  | nil unseen => simp [pathsFrom_nil]
  | cons unseen c path rest ih =>
    have hopen : h.opened c (p ++ path) unseen =
        ((h.opened c path unseen).1.map (fun q => (q.1, p ++ q.2)), (h.opened c path unseen).2) :=
      discover_prepend p path _ unseen
    rw [List.map_cons, pathsFrom_cons, pathsFrom_cons, hopen, List.map_append]
    simp only
    rw [← List.map_reverse, ← List.map_append, ih]

/-- Of the classes that lead to a given one, a search finds the same when it sees no others. -/
theorem pathsFrom_filter {A : Class → Bool} (hA : ∀ c s, h.Super c s → A s = true → A c = true)
    (unseen : List Class) (stack : List (Class × List Upcast)) : unseen.Nodup →
      (h.pathsFrom unseen stack).filter (A ·.1) =
        h.pathsFrom (unseen.filter A) (stack.filter (A ·.1)) := by
  induction unseen, stack using search_induct (h := h) with
  | nil unseen => simp [pathsFrom_nil]
  | cons unseen c path rest ih =>
    intro hn
    have hn' : (h.opened c path unseen).2.Nodup := by
      rw [opened_snd]
      exact hn.diff
    have hopen : h.opened c path (unseen.filter A) =
        ((h.opened c path unseen).1.filter (A ·.1), (h.opened c path unseen).2.filter A) :=
      discover_filter path A _ unseen hn
    rw [pathsFrom_cons, List.filter_append, ih hn', List.filter_append, List.filter_reverse]
    by_cases hc : A c = true
    · rw [List.filter_cons_of_pos (by exact hc), pathsFrom_cons, hopen]
    · -- nothing that leads to the given class is discovered
      have hnone : (h.opened c path unseen).1.filter (A ·.1) = [] :=
        List.filter_eq_nil_iff.2 fun q hq hAq => hc (hA c q.1 (opened_super hq) hAq)
      have hrest : (h.opened c path unseen).2.filter A = unseen.filter A := by
        rw [opened_snd, hn.sdiff_eq_filter, List.filter_filter]
        refine List.filter_congr fun x _ => ?_
        by_cases hx : A x = true
        · have hxo : x ∉ (h.opened c path unseen).1.map (·.1) := by
            intro hmem
            obtain ⟨q, hq, rfl⟩ := List.mem_map.1 hmem
            exact hc (hA c q.1 (opened_super hq) hx)
          simp only [hx, hxo, not_false_eq_true, decide_true, Bool.and_true]
        · simp only [hx, Bool.false_and]
      rw [List.filter_cons_of_neg (by exact hc), hnone, hrest]
      rfl

/-- A search depends on the unseen classes only as far as it can get. -/
theorem pathsFrom_congr {B : Class → Prop} (hB : ∀ c s, B c → h.Super c s → B s) (unseen : List Class)
    (stack : List (Class × List Upcast)) : ∀ {unseen' : List Class}, unseen.Nodup → unseen'.Nodup →
      (∀ c, B c → (c ∈ unseen' ↔ c ∈ unseen)) → (∀ q ∈ stack, ∀ s, h.Super q.1 s → B s) →
        h.pathsFrom unseen' stack = h.pathsFrom unseen stack := by
  induction unseen, stack using search_induct (h := h) with
  | nil unseen =>
    intros
    rw [pathsFrom_nil, pathsFrom_nil]
  | cons unseen c path rest ih =>
    intro unseen' hn hn' hiff hst
    have hlinks : ∀ l ∈ (h.superLinks c).reverse, B l.cls := fun l hl =>
      hst _ List.mem_cons_self l.cls (List.mem_map_of_mem (List.mem_reverse.1 hl))
    have hfst : (h.opened c path unseen').1 = (h.opened c path unseen).1 :=
      discover_congr path _ unseen unseen' hn hn' hiff hlinks
    have ih' : h.pathsFrom (h.opened c path unseen').2 ((h.opened c path unseen).1.reverse ++ rest) =
        h.pathsFrom (h.opened c path unseen).2 ((h.opened c path unseen).1.reverse ++ rest) := by
      refine ih ?_ ?_ ?_ ?_
      · rw [opened_snd]
        exact hn.diff
      · rw [opened_snd]
        exact hn'.diff
      · intro d hd
        rw [opened_snd, opened_snd, hfst, hn.mem_sdiff_iff, hn'.mem_sdiff_iff, hiff d hd]
      · intro q hq s hs
        rcases List.mem_append.1 hq with hq | hq
        · have hBq : B q.1 := hst _ List.mem_cons_self q.1 (opened_super (List.mem_reverse.1 hq))
          exact hB q.1 s hBq hs
        · exact hst q (List.mem_cons_of_mem _ hq) s hs
    rw [pathsFrom_cons, pathsFrom_cons, hfst, ih']

end Hierarchy
end NativeBridge
