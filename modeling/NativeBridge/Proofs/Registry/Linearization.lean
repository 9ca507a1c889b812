import NativeBridge.Proofs.Registry.Ancestors
import NativeBridge.Proofs.Registry.Declarations
import NativeBridge.Proofs.Registry.Exposed
import NativeBridge.Proofs.Registry.Superclasses
/-!
# Member look-up follows the linearization

The linearization of a class is the class with its ancestors in depth-first declaration order. A class lists a key
exactly if the first class that declares it is the class itself, or cannot be reached by delegation, or the key is
static (`mem_shownKeys`). What a class does not list, its linearization and that of its first superclass therefore
agree on (`find_of_not_shown`), and the look-up along the first superclasses finds what the linearization finds first
(`findAlong_eq`).
-/
namespace NativeBridge

namespace Exposure
variable {Upcast : Type} {h : Hierarchy Upcast} {classes : List (ClassDescriptor Upcast)}

/-- A class declares a key. -/
def declares (classes : List (ClassDescriptor Upcast)) (k : GroupKey) (c : Class) : Bool :=
  k ∈ keysOf classes c

theorem declares_iff {k : GroupKey} {c : Class} : declares classes k c = true ↔ k ∈ keysOf classes c := by
  rw [declares, decide_eq_true_eq]

/-! ## The keys that a class lists -/

/-- A key is taken over from the first ancestor that declares it, unless delegation gets there. -/
theorem mem_takenKeys {k : GroupKey} {a : Class} : ∀ (steps : List FlattenStep) (seen : List GroupKey),
    (k, a) ∈ takenKeys classes steps seen ↔ k ∉ seen ∧ ∃ step,
      steps.find? (declares classes k ·.cls) = some step ∧ step.cls = a ∧
        (step.reachable = false ∨ k.kind.isStatic = true)
  | [], seen => by simp [takenKeys]
  | step :: steps, seen => by
    have hpass : (!step.reachable || k.kind.isStatic) = true ↔ step.reachable = false ∨ k.kind.isStatic = true := by
      rw [Bool.or_eq_true, Bool.not_eq_true']
    simp only [takenKeys, List.mem_append, mem_takenKeys steps, List.mem_map, List.mem_filter, Prod.mk.injEq,
      decide_eq_true_eq]
    by_cases hk : k ∈ keysOf classes step.cls
    · rw [List.find?_cons_of_pos (by rw [declares_iff]; exact hk)]
      constructor
      · rintro (⟨k', ⟨⟨-, hs⟩, hp⟩, rfl, rfl⟩ | ⟨hs, -⟩)
        · exact ⟨hs, step, rfl, rfl, hpass.1 hp⟩
        · exact absurd ⟨hk, fun hm => hs (.inl hm)⟩ fun hf => hs (.inr hf)
      · rintro ⟨hs, s, he, rfl, hp⟩
        cases he
        exact .inl ⟨k, ⟨⟨hk, hs⟩, hpass.2 hp⟩, rfl, rfl⟩
    · rw [List.find?_cons_of_neg (by rw [declares_iff]; exact hk)]
      constructor
      · rintro (⟨k', ⟨⟨hk', -⟩, -⟩, rfl, -⟩ | ⟨hs, hf⟩)
        · exact absurd hk' hk
        · exact ⟨fun hm => hs (.inl hm), hf⟩
      · rintro ⟨hs, hf⟩
        exact .inr ⟨fun hm => hm.elim hs fun hk' => hk hk'.1, hf⟩

theorem nodup_takenKeys (hn : ∀ c, (keysOf classes c).Nodup) : ∀ (steps : List FlattenStep) (seen : List GroupKey),
    ((takenKeys classes steps seen).map (·.1)).Nodup
  | [], _ => List.nodup_nil
  | step :: steps, seen => by
    have hfst : ∀ ks : List GroupKey, (ks.map (·, step.cls)).map (·.1) = ks := fun ks => by
      rw [List.map_map]
      exact List.map_id _
    rw [takenKeys, List.map_append, List.nodup_append, hfst]
    refine ⟨((hn _).filter _).filter _, nodup_takenKeys hn steps _, ?_⟩
    rintro k hk k' hk' rfl
    obtain ⟨⟨k, a⟩, hka, rfl⟩ := List.mem_map.1 hk'
    have hseen := ((mem_takenKeys steps _).1 hka).1
    exact hseen (List.mem_append_right _ (List.mem_filter.1 hk).1)

/-- **A class lists its own keys, and those that it has to take over.** -/
theorem mem_shownKeys {k : GroupKey} {a c : Class} : (k, a) ∈ shownKeys classes h c ↔
    k ∈ keysOf classes c ∧ a = c ∨ k ∉ keysOf classes c ∧ ∃ step,
      (h.flatten c).find? (declares classes k ·.cls) = some step ∧ step.cls = a ∧
        (step.reachable = false ∨ k.kind.isStatic = true) := by
  rw [shownKeys, List.mem_append, mem_takenKeys, List.mem_map]
  simp only [Prod.mk.injEq]
  constructor
  · rintro (⟨k', hk, rfl, rfl⟩ | ht)
    · exact .inl ⟨hk, rfl⟩
    · exact .inr ht
  · rintro (⟨hk, rfl⟩ | ht)
    · exact .inl ⟨k, hk, rfl, rfl⟩
    · exact .inr ht

/-- **No class lists a key twice.** -/
theorem nodup_shownKeys (hn : ∀ c, (keysOf classes c).Nodup) (c : Class) :
    ((shownKeys classes h c).map (·.1)).Nodup := by
  have hfst : ((keysOf classes c).map (·, c)).map (·.1) = keysOf classes c := by
    rw [List.map_map]
    exact List.map_id _
  rw [shownKeys, List.map_append, List.nodup_append, hfst]
  refine ⟨hn c, nodup_takenKeys hn _ _, ?_⟩
  rintro k hk k' hk' rfl
  obtain ⟨⟨k, a⟩, hka, rfl⟩ := List.mem_map.1 hk'
  exact ((mem_takenKeys _ _).1 hka).1 hk

/-! ## The linearization -/

/-- A listed key belongs to the first class of the linearization that declares it. -/
theorem find_of_shown {k : GroupKey} {a c : Class} (hka : (k, a) ∈ shownKeys classes h c) :
    (h.linearization c).find? (declares classes k) = some a := by
  unfold Hierarchy.linearization
  rcases mem_shownKeys.1 hka with ⟨hk, rfl⟩ | ⟨hk, step, hf, rfl, -⟩
  · exact List.find?_cons_of_pos (declares_iff.2 hk)
  · rw [List.find?_cons_of_neg (by rw [declares_iff]; exact hk), Hierarchy.ancestors, List.find?_map]
    simp only [Function.comp_def]
    rw [hf]
    rfl

theorem map_listed {k : GroupKey} {c : Class} :
    k ∈ (shownKeys classes h c).map (·.1) ↔ ∃ a, (k, a) ∈ shownKeys classes h c := by
  rw [List.mem_map]
  constructor
  · rintro ⟨⟨k, a⟩, hka, rfl⟩
    exact ⟨a, hka⟩
  · rintro ⟨a, hka⟩
    exact ⟨(k, a), hka, rfl⟩

theorem linearization_first (hh : h.Sound) {c s : Class} {more : List Class} (hs : h.supers c = s :: more) :
    ∃ tail, h.flatten c = (h.linearization s).map (⟨·, true⟩) ++ tail ∧
      h.linearization c = c :: (h.linearization s ++ tail.map (·.cls)) ∧ ∀ t ∈ tail, t.reachable = false := by
  obtain ⟨tail, ht, hr⟩ := Hierarchy.flatten_first hh hs
  refine ⟨tail, ht, ?_, hr⟩
  rw [Hierarchy.linearization, Hierarchy.ancestors, ht, List.map_append, List.map_map]
  congr 2
  exact List.map_id _

/-- **A key that a class does not list is left to its first superclass**: the first class that declares it, if any,
is the first of that superclass's linearization. -/
theorem find_of_not_shown (hh : h.Sound) {k : GroupKey} {c s : Class} {more : List Class}
    (hk : k ∉ (shownKeys classes h c).map (·.1)) (hs : h.supers c = s :: more) :
    (h.linearization c).find? (declares classes k) = (h.linearization s).find? (declares classes k) := by
  obtain ⟨tail, hflat, hlin, htail⟩ := linearization_first hh hs
  have hown : k ∉ keysOf classes c := fun hkc => hk (map_listed.2 ⟨c, mem_shownKeys.2 (.inl ⟨hkc, rfl⟩)⟩)
  rw [hlin, List.find?_cons_of_neg (by rw [declares_iff]; exact hown), List.find?_append]
  cases hfs : (h.linearization s).find? (declares classes k) with
  | some a => rfl
  | none =>
    rw [Option.none_or, List.find?_map, Option.map_eq_none_iff]
    -- otherwise `c` would have taken the key over from the tail
    by_contra hne
    obtain ⟨t, ht⟩ := Option.ne_none_iff_exists'.1 hne
    have hfind : (h.flatten c).find? (declares classes k ·.cls) = some t := by
      have hmap : ((h.linearization s).map (⟨·, true⟩ : Class → FlattenStep)).find? (declares classes k ·.cls) =
          none := by
        rw [List.find?_map, Option.map_eq_none_iff]
        exact hfs
      rw [hflat, List.find?_append, hmap]
      exact ht
    exact hk (map_listed.2 ⟨t.cls, mem_shownKeys.2 (.inr ⟨hown, t, hfind, rfl,
      .inl (htail t (List.mem_of_find?_eq_some ht))⟩)⟩)

theorem find_of_not_shown_root {k : GroupKey} {c : Class} (hk : k ∉ (shownKeys classes h c).map (·.1))
    (hs : h.supers c = []) : (h.linearization c).find? (declares classes k) = none := by
  have hown : k ∉ keysOf classes c := fun hkc => hk (map_listed.2 ⟨c, mem_shownKeys.2 (.inl ⟨hkc, rfl⟩)⟩)
  rw [Hierarchy.linearization, Hierarchy.ancestors_root hs,
    List.find?_cons_of_neg (by rw [declares_iff]; exact hown), List.find?_nil]

/-- **Every static key of the linearization is listed.** -/
theorem shown_of_static {k : GroupKey} {a c : Class} (hk : k.kind.isStatic = true) (ha : a ∈ h.linearization c)
    (hka : declares classes k a = true) : k ∈ (shownKeys classes h c).map (·.1) := by
  rw [map_listed]
  by_cases hown : k ∈ keysOf classes c
  · exact ⟨c, mem_shownKeys.2 (.inl ⟨hown, rfl⟩)⟩
  have hanc : a ∈ h.ancestors c := by
    rcases List.mem_cons.1 ha with rfl | ha
    · exact absurd (declares_iff.1 hka) hown
    · exact ha
  obtain ⟨t, ht, rfl⟩ := List.mem_map.1 hanc
  have hsome : ((h.flatten c).find? (declares classes k ·.cls)).isSome = true :=
    List.find?_isSome.2 ⟨t, ht, hka⟩
  obtain ⟨step, hstep⟩ := Option.isSome_iff_exists.1 hsome
  exact ⟨step.cls, mem_shownKeys.2 (.inr ⟨hown, step, hstep, rfl, .inr hk⟩)⟩

/-! ## Look-up along the first superclasses -/

/-- What holds of the exposure of well-formed declarations. -/
structure Settled (x : Exposure Upcast) (classes : List (ClassDescriptor Upcast)) : Prop where
  sound : x.hierarchy.Sound
  keys : ∀ c, (keysOf classes c).Nodup
  blank : ∀ c, ¬ IsDeclared classes c → keysOf classes c = [] ∧ x.hierarchy.supers c = []
  shows : ∀ e ∈ x.classes, Shows x.hierarchy classes x.tags e
  exposed : ∀ c, c ∈ x.classes.map (·.cls) ↔ IsDeclared classes c

variable {x : Exposure Upcast}

theorem class?_mem {c : Class} {e : ExposedClass} (he : x.class? c = some e) : e ∈ x.classes ∧ e.cls = c :=
  ⟨List.mem_of_find?_eq_some he, by simpa using List.find?_some he⟩

theorem Settled.class?_none (hx : x.Settled classes) {c : Class} (hc : x.class? c = none) :
    ¬ IsDeclared classes c := by
  rw [← hx.exposed c]
  intro hm
  obtain ⟨e, he, rfl⟩ := List.mem_map.1 hm
  have := List.find?_eq_none.1 hc e he
  simp at this

/-- The number of classes in the linearization that are shown. -/
def shownCount (x : Exposure Upcast) (c : Class) : Nat :=
  ((x.hierarchy.linearization c).filter fun a => (x.class? a).isSome).length

theorem shownCount_le (hx : x.Settled classes) (c : Class) : x.shownCount c ≤ x.classes.length := by
  have hn := Hierarchy.nodup_linearization hx.sound c
  have hsub : ((x.hierarchy.linearization c).filter fun a => (x.class? a).isSome) ⊆ x.classes.map (·.cls) := by
    intro a ha
    obtain ⟨e, he⟩ := Option.isSome_iff_exists.1 (List.mem_filter.1 ha).2
    obtain ⟨hmem, rfl⟩ := class?_mem he
    exact List.mem_map_of_mem hmem
  have := (hn.filter _).length_le_of_subset hsub
  rw [List.length_map] at this
  exact this

theorem shownCount_lt (hx : x.Settled classes) {c s : Class} {e : ExposedClass} {more : List Class}
    (he : x.class? c = some e) (hs : x.hierarchy.supers c = s :: more) : x.shownCount s < x.shownCount c := by
  obtain ⟨tail, -, hlin, -⟩ := linearization_first hx.sound hs
  have hc : (x.class? c).isSome = true := by rw [he]; rfl
  unfold shownCount
  rw [hlin, List.filter_cons_of_pos (by exact hc), List.filter_append, List.length_cons, List.length_append]
  omega

/-- One step of delegation: a class that is shown asks its first superclass. -/
def Delegates (x : Exposure Upcast) (c s : Class) : Prop :=
  ∃ e, x.class? c = some e ∧ e.parent? = some s

theorem Delegates.supers (hx : x.Settled classes) {c s : Class} (hd : x.Delegates c s) :
    ∃ more, x.hierarchy.supers c = s :: more := by
  obtain ⟨e, he, hp⟩ := hd
  obtain ⟨hmem, rfl⟩ := class?_mem he
  rw [ExposedClass.parent?, (hx.shows e hmem).supers, List.head?_eq_some_iff] at hp
  exact hp

/-- **Every chain of delegation ends.** -/
theorem delegation_ends (hx : x.Settled classes) (c : Class) : Acc (fun s d => x.Delegates d s) c := by
  induction hn : x.shownCount c using Nat.strong_induction_on generalizing c with
  | _ n ih =>
    refine ⟨c, fun s hd => ?_⟩
    obtain ⟨more, hs⟩ := hd.supers hx
    obtain ⟨e, he, -⟩ := hd
    exact ih _ (by rw [← hn]; exact shownCount_lt hx he hs) s rfl

theorem member?_some {e : ExposedClass} {k : GroupKey} {m : ExposedMember} (hm : e.member? k.name k.kind = some m) :
    m ∈ e.members ∧ m.key = k := by
  refine ⟨List.mem_of_find?_eq_some hm, ?_⟩
  have := List.find?_some hm
  rw [Bool.and_eq_true, decide_eq_true_eq, decide_eq_true_eq] at this
  rw [ExposedMember.key, this.1, this.2]

theorem member?_none {e : ExposedClass} {k : GroupKey} (hm : e.member? k.name k.kind = none) :
    k ∉ e.members.map (·.key) := by
  intro hk
  obtain ⟨m, hmem, rfl⟩ := List.mem_map.1 hk
  have := List.find?_eq_none.1 hm m hmem
  simp [ExposedMember.key] at this

theorem Shows.keys {tags : List TagTarget} {e : ExposedClass} (he : Shows h classes tags e) :
    e.members.map (·.key) = (shownKeys classes h e.cls).map (·.1) := by
  rw [← he.origins, List.map_map]
  rfl

/-- **The look-up finds what the linearization finds first**, and its tag leads to that class's group. As many steps
suffice as classes are shown. -/
theorem findAlong_eq (hx : x.Settled classes) (k : GroupKey) : ∀ (n : Nat) (c : Class), x.shownCount c < n →
    (x.findAlong k.name k.kind n c).map origin =
        ((x.hierarchy.linearization c).find? (declares classes k)).map (k, ·) ∧
      ∀ m, x.findAlong k.name k.kind n c = some m → Tagged classes x.tags m
  | n + 1, c, hn => by
    unfold findAlong
    cases he : x.class? c with
    | none =>
      obtain ⟨hkeys, hsup⟩ := hx.blank c (hx.class?_none he)
      have hno : (x.hierarchy.linearization c).find? (declares classes k) = none := by
        rw [Hierarchy.linearization, Hierarchy.ancestors_root hsup, List.find?_cons_of_neg, List.find?_nil]
        rw [declares_iff, hkeys]
        exact List.not_mem_nil
      rw [hno]
      exact ⟨rfl, fun m hm => by cases hm⟩
    | some e =>
      obtain ⟨hmem, rfl⟩ := class?_mem he
      have hshow := hx.shows e hmem
      cases hm : e.member? k.name k.kind with
      | some m =>
        obtain ⟨hme, rfl⟩ := member?_some hm
        have horigin : origin m ∈ shownKeys classes x.hierarchy e.cls := by
          rw [← hshow.origins]
          exact List.mem_map_of_mem hme
        simp only [hm]
        rw [find_of_shown horigin]
        exact ⟨rfl, fun m' hm' => by cases hm'; exact hshow.tagged m hme⟩
      | none =>
        have hk := member?_none hm
        rw [hshow.keys] at hk
        have hparent : e.parent? = (x.hierarchy.supers e.cls).head? := by
          rw [ExposedClass.parent?, hshow.supers]
        simp only [hm, hparent]
        cases hs : x.hierarchy.supers e.cls with
        | nil =>
          rw [find_of_not_shown_root hk hs]
          exact ⟨rfl, fun m hm => by cases hm⟩
        | cons s more =>
          rw [find_of_not_shown hx.sound hk hs]
          have := shownCount_lt hx he hs
          exact findAlong_eq hx k n s (by omega)

/-- More steps than classes are shown change nothing. -/
theorem findAlong_stable (hx : x.Settled classes) (name : String) (kind : MemberKind) : ∀ (n n' : Nat) (c : Class),
    x.shownCount c < n → x.shownCount c < n' → x.findAlong name kind n c = x.findAlong name kind n' c
  | n + 1, n' + 1, c, hn, hn' => by
    unfold findAlong
    cases he : x.class? c with
    | none => rfl
    | some e =>
      cases hp : e.parent? with
      | none => simp only [hp]
      | some s =>
        obtain ⟨more, hs⟩ := Delegates.supers hx ⟨e, he, hp⟩
        have := shownCount_lt hx he hs
        simp only [hp, findAlong_stable hx name kind n n' s (by omega) (by omega)]

/-! ## The chain of delegation -/

/-- A shown class lists a key. -/
def ListedOn (x : Exposure Upcast) (k : GroupKey) (c : Class) : Prop :=
  ∃ e, x.class? c = some e ∧ k ∈ e.members.map (·.key)

theorem listedOn_iff (hx : x.Settled classes) {k : GroupKey} {c : Class} {e : ExposedClass}
    (he : x.class? c = some e) : x.ListedOn k c ↔ k ∈ (shownKeys classes x.hierarchy c).map (·.1) := by
  obtain ⟨hmem, rfl⟩ := class?_mem he
  rw [← (hx.shows e hmem).keys]
  constructor
  · rintro ⟨e', he', hk⟩
    rw [he] at he'
    cases he'
    exact hk
  · exact fun hk => ⟨e, he, hk⟩

/-- A listed key is declared somewhere in the linearization. -/
theorem declares_of_listedOn (hx : x.Settled classes) {k : GroupKey} {c : Class} (hk : x.ListedOn k c) :
    ∃ a ∈ x.hierarchy.linearization c, declares classes k a = true := by
  obtain ⟨e, he, hke⟩ := hk
  obtain ⟨a, ha⟩ := map_listed.1 ((listedOn_iff hx he).1 ⟨e, he, hke⟩)
  have hf := find_of_shown ha
  exact ⟨a, List.mem_of_find?_eq_some hf, List.find?_some hf⟩

theorem linearization_sub (hx : x.Settled classes) {c d : Class} (hd : Relation.ReflTransGen x.Delegates c d) :
    ∀ a ∈ x.hierarchy.linearization d, a ∈ x.hierarchy.linearization c := by
  induction hd with
  | refl => exact fun _ ha => ha
  | tail _ hs ih =>
    intro a ha
    obtain ⟨more, hsup⟩ := hs.supers hx
    obtain ⟨tail, -, hlin, -⟩ := linearization_first hx.sound hsup
    refine ih a ?_
    rw [hlin]
    exact List.mem_cons_of_mem _ (List.mem_append_left _ ha)

/-- What a class lists that is not static, its chain of delegation declares only in the class itself, or not at
all. -/
theorem not_declared_above (hx : x.Settled classes) {k : GroupKey} (hstatic : k.kind.isStatic = false)
    {c s : Class} {more : List Class} (hk : k ∈ (shownKeys classes x.hierarchy c).map (·.1))
    (hs : x.hierarchy.supers c = s :: more)
    (hone : ∀ a b, a ∈ x.hierarchy.linearization c → declares classes k a = true →
      b ∈ x.hierarchy.linearization c → declares classes k b = true → a = b) :
    ∀ b ∈ x.hierarchy.linearization s, declares classes k b = false := by
  obtain ⟨tail, hflat, hlin, -⟩ := linearization_first hx.sound hs
  intro b hb
  by_contra hkb
  rw [Bool.not_eq_false] at hkb
  obtain ⟨a, hka⟩ := map_listed.1 hk
  rcases mem_shownKeys.1 hka with ⟨hown, -⟩ | ⟨-, step, hf, -, hr⟩
  · -- then `c` would be above itself
    have hbc := hone c b List.mem_cons_self (declares_iff.2 hown)
      (by rw [hlin]; exact List.mem_cons_of_mem _ (List.mem_append_left _ hb)) hkb
    have hmem : c ∈ x.hierarchy.ancestors c := by
      obtain ⟨tail, hanc⟩ := Hierarchy.ancestors_first hx.sound hs
      rw [hanc]
      rw [← hbc] at hb
      exact List.mem_append_left _ hb
    exact Hierarchy.not_mem_ancestors_self hx.sound c hmem
  · -- then delegation would reach the class that the key was taken from
    have hsome : (((x.hierarchy.linearization s).map (⟨·, true⟩ : Class → FlattenStep)).find?
        (declares classes k ·.cls)).isSome = true :=
      List.find?_isSome.2 ⟨⟨b, true⟩, List.mem_map_of_mem hb, hkb⟩
    obtain ⟨t, ht⟩ := Option.isSome_iff_exists.1 hsome
    rw [hflat, List.find?_append, ht] at hf
    cases hf
    obtain ⟨b', -, hbt⟩ := List.mem_map.1 (List.mem_of_find?_eq_some ht)
    rw [← hbt, hstatic] at hr
    rcases hr with hr | hr <;> cases hr

theorem Delegates.unique {c s s' : Class} (h : x.Delegates c s) (h' : x.Delegates c s') : s = s' := by
  obtain ⟨e, he, hp⟩ := h
  obtain ⟨e', he', hp'⟩ := h'
  rw [he] at he'
  cases he'
  rw [hp] at hp'
  cases hp'
  rfl

/-- A class that does not list a key of its linearization delegates to a shown class that has it in its own. -/
theorem delegates_of_not_shown (hx : x.Settled classes) {k : GroupKey} {a c : Class} {e : ExposedClass}
    (he : x.class? c = some e) (hk : k ∉ (shownKeys classes x.hierarchy c).map (·.1))
    (ha : a ∈ x.hierarchy.linearization c) (hka : declares classes k a = true) :
    ∃ s es, x.Delegates c s ∧ x.class? s = some es ∧
      ∃ b ∈ x.hierarchy.linearization s, declares classes k b = true := by
  have hsome : ((x.hierarchy.linearization c).find? (declares classes k)).isSome = true :=
    List.find?_isSome.2 ⟨a, ha, hka⟩
  cases hsup : x.hierarchy.supers c with
  | nil =>
    rw [find_of_not_shown_root hk hsup] at hsome
    cases hsome
  | cons s more =>
    rw [find_of_not_shown hx.sound hk hsup] at hsome
    obtain ⟨b, hbs, hkb⟩ := List.find?_isSome.1 hsome
    have hshown : (x.class? s).isSome = true := by
      by_contra hnone
      rw [Bool.not_eq_true, Option.isSome_eq_false_iff, Option.isNone_iff_eq_none] at hnone
      obtain ⟨hkeys, hroot⟩ := hx.blank s (hx.class?_none hnone)
      rw [Hierarchy.linearization, Hierarchy.ancestors_root hroot, List.mem_singleton] at hbs
      rw [declares_iff, hbs, hkeys] at hkb
      exact List.not_mem_nil hkb
    obtain ⟨es, hes⟩ := Option.isSome_iff_exists.1 hshown
    refine ⟨s, es, ⟨e, he, ?_⟩, hes, b, hbs, hkb⟩
    obtain ⟨hmem, rfl⟩ := class?_mem he
    rw [ExposedClass.parent?, (hx.shows e hmem).supers, hsup]
    rfl

/-- **A key that is not static and declared once is listed once**: on exactly one class of the chain of
delegation. -/
theorem listed_once (hx : x.Settled classes) {k : GroupKey} (hstatic : k.kind.isStatic = false) {c : Class}
    {e : ExposedClass} (he : x.class? c = some e)
    (hone : ∃! a, a ∈ x.hierarchy.linearization c ∧ declares classes k a = true) :
    ∃! d, Relation.ReflTransGen x.Delegates c d ∧ x.ListedOn k d := by
  induction delegation_ends hx c generalizing e with
  | intro c _ ih =>
    obtain ⟨a, ⟨ha, hka⟩, huniq⟩ := hone
    by_cases hk : k ∈ (shownKeys classes x.hierarchy c).map (·.1)
    · refine ⟨c, ⟨.refl, (listedOn_iff hx he).2 hk⟩, ?_⟩
      rintro d ⟨hd, hkd⟩
      rcases Relation.ReflTransGen.cases_head hd with rfl | ⟨s, hs, hsd⟩
      · rfl
      · obtain ⟨more, hsup⟩ := hs.supers hx
        obtain ⟨b, hb, hkb⟩ := declares_of_listedOn hx hkd
        have hone : ∀ a b, a ∈ x.hierarchy.linearization c → declares classes k a = true →
            b ∈ x.hierarchy.linearization c → declares classes k b = true → a = b :=
          fun a b ha hka hb hkb => (huniq a ⟨ha, hka⟩).trans (huniq b ⟨hb, hkb⟩).symm
        rw [not_declared_above hx hstatic hk hsup hone b (linearization_sub hx hsd b hb)] at hkb
        cases hkb
    · obtain ⟨s, es, hdel, hes, b, hbs, hkb⟩ := delegates_of_not_shown hx he hk ha hka
      have hsub := linearization_sub hx (.single hdel)
      have hb : b = a := huniq b ⟨hsub b hbs, hkb⟩
      obtain ⟨d, ⟨hd, hkd⟩, hduniq⟩ := ih s hdel hes
        ⟨b, ⟨hbs, hkb⟩, fun b' hb' => (huniq b' ⟨hsub b' hb'.1, hb'.2⟩).trans hb.symm⟩
      refine ⟨d, ⟨.head hdel hd, hkd⟩, ?_⟩
      rintro d' ⟨hd', hkd'⟩
      rcases Relation.ReflTransGen.cases_head hd' with rfl | ⟨s', hdel', hsd'⟩
      · exact absurd ((listedOn_iff hx he).1 hkd') hk
      · rw [← hdel.unique hdel'] at hsd'
        exact hduniq d' ⟨hsd', hkd'⟩

end Exposure
end NativeBridge
