import NativeBridge.Proofs.Registry.CycleSearch
import NativeBridge.Proofs.Registry.MemberLookup
import NativeBridge.Proofs.Registry.PathSearch
/-!
# Registries that differ in order and numbers

Two registries are alike if their classes have the same descriptors, in whatever order they were mentioned and under
whatever signatures their entries are filed. Both can then be closed, or both have a cycle, and what the closed ones
show differs in tag numbers only (`Alike.finalize`).
-/
namespace NativeBridge

/-- A group without the places of its entries in the signature table. -/
def OverloadGroup.unfiled (g : OverloadGroup) : OverloadGroup :=
  { g with overloads := g.overloads.map fun p => (p.1, default) }

/-- A descriptor without the places of its entries in the signature table. -/
def ClassDescriptor.unfiled {Upcast : Type} (d : ClassDescriptor Upcast) : ClassDescriptor Upcast :=
  { d with
    constructors := d.constructors.unfiled
    members := d.members.map fun m => { m with group := m.group.unfiled } }

/-- A member without the number of its tag. -/
def ExposedMember.untagged (m : ExposedMember) : ExposedMember :=
  { m with tag := ⟨0⟩ }

/-- A class as the host sees it, without the numbers of its tags. -/
def ExposedClass.untagged (e : ExposedClass) : ExposedClass :=
  { e with constructor := ⟨0⟩, release := ⟨0⟩, members := e.members.map (·.untagged) }

/-! ## Hierarchies -/

namespace Hierarchy
variable {Upcast : Type} {h h' : Hierarchy Upcast}

/-- The same links between the same classes. -/
structure Alike (h h' : Hierarchy Upcast) : Prop where
  links : h.superLinks = h'.superLinks
  left : h.nodes.Nodup
  right : h'.nodes.Nodup
  nodes : ∀ c, c ∈ h.nodes ↔ c ∈ h'.nodes

theorem Alike.supers (ha : h.Alike h') : h.supers = h'.supers := by
  funext c
  rw [Hierarchy.supers, Hierarchy.supers, ha.links]

theorem Alike.super (ha : h.Alike h') : h.Super = h'.Super := by
  funext c s
  rw [Super, Super, ha.supers]

theorem Alike.flattenFrom (ha : h.Alike h') (unseen : List Class) (stack : List (Class × Bool)) :
    h.flattenFrom unseen stack = h'.flattenFrom unseen stack := by
  induction unseen, stack using flattenFrom.induct h with
  | case1 unseen => rw [flattenFrom_nil, flattenFrom_nil]
  | case2 unseen c r rest hc ih => rw [flattenFrom_unseen hc, flattenFrom_unseen hc, ih, ha.supers]
  | case3 unseen c r rest hc ih => rw [flattenFrom_seen hc, flattenFrom_seen hc, ih]

theorem Alike.flatten (ha : h.Alike h') : h.flatten = h'.flatten := by
  funext c
  unfold Hierarchy.flatten
  by_cases hc : c ∈ h.nodes
  · rw [if_pos hc, if_pos ((ha.nodes c).1 hc), ha.flattenFrom, ha.supers]
    refine flattenFrom_congr (B := fun _ => True) (fun _ _ _ _ => trivial) _ _ (ha.right.erase c) (ha.left.erase c)
      (fun d _ => ?_) fun _ _ => trivial
    rw [ha.left.mem_erase_iff, ha.right.mem_erase_iff, ha.nodes]
  · rw [if_neg hc, if_neg fun hc' => hc ((ha.nodes c).2 hc')]

theorem Alike.pathsFrom (ha : h.Alike h') (unseen : List Class) (stack : List (Class × List Upcast)) :
    h.pathsFrom unseen stack = h'.pathsFrom unseen stack := by
  have hopened : h.opened = h'.opened := by
    funext c path unseen
    rw [opened, opened, ha.links]
  induction unseen, stack using search_induct (h := h) with
  | nil unseen => rw [pathsFrom_nil, pathsFrom_nil]
  | cons unseen c path rest ih => rw [pathsFrom_cons, pathsFrom_cons, ih, hopened]

theorem Alike.upcastPath? (ha : h.Alike h') : h.upcastPath? = h'.upcastPath? := by
  have hpaths : h.paths = h'.paths := by
    funext c
    unfold paths
    by_cases hc : c ∈ h.nodes
    · rw [if_pos hc, if_pos ((ha.nodes c).1 hc), ha.pathsFrom]
      exact pathsFrom_congr (B := fun _ => True) (fun _ _ _ _ => trivial) _ _ ha.right ha.left (fun d _ => ha.nodes d)
        fun _ _ _ _ => trivial
    · rw [if_neg hc, if_neg fun hc' => hc ((ha.nodes c).2 hc')]
  funext c a
  rw [Hierarchy.upcastPath?, Hierarchy.upcastPath?, hpaths]

section
variable {classes classes' : List (ClassDescriptor Upcast)}

/-- The links of a class are those of its descriptor, if it has one. -/
theorem superLinks_find (hn : (classes.map (·.cls)).Nodup) (c : Class) :
    (ofClasses classes).superLinks c = ((classes.find? (·.cls = c)).map (·.supers)).getD [] := by
  cases hd : classes.find? (·.cls = c) with
  | some d =>
    have hdc : d.cls = c := by simpa using List.find?_some hd
    rw [← hdc, superLinks_of_mem hn (List.mem_of_find?_eq_some hd)]
    rfl
  | none =>
    refine superLinks_of_not_mem fun hc => ?_
    obtain ⟨d, hd', hdc⟩ := List.mem_map.1 hc
    exact List.find?_eq_none.1 hd d hd' (by simpa using hdc)

/-- The classes of the graph are those with a descriptor and those that links lead to. -/
theorem mem_nodes_iff (c : Class) : c ∈ (ofClasses classes).nodes ↔
    (classes.find? (·.cls = c)).isSome = true ∨ ∃ d, ∃ l ∈ (ofClasses classes).superLinks d, l.cls = c := by
  rw [nodes_ofClasses, mem_foldl_addTarget, mem_distinct, List.find?_isSome]
  refine or_congr (by simp) ⟨?_, ?_⟩
  · rintro ⟨e, he, rfl⟩
    exact ⟨e.source, e.link, mem_superLinks.2 ⟨e, he, rfl, rfl⟩, rfl⟩
  · rintro ⟨d, l, hl, rfl⟩
    obtain ⟨e, he, -, rfl⟩ := mem_superLinks.1 hl
    exact ⟨e, he, rfl⟩

theorem alike_ofClasses (hn : (classes.map (·.cls)).Nodup) (hn' : (classes'.map (·.cls)).Nodup)
    (hsame : ∀ c, (classes.find? (·.cls = c)).map (·.supers) = (classes'.find? (·.cls = c)).map (·.supers)) :
    (ofClasses classes).Alike (ofClasses classes') := by
  have hlinks : (ofClasses classes).superLinks = (ofClasses classes').superLinks := by
    funext c
    rw [superLinks_find hn, superLinks_find hn', hsame]
  refine ⟨hlinks, nodup_nodes classes, nodup_nodes classes', fun c => ?_⟩
  have hknown := congrArg Option.isSome (hsame c)
  rw [Option.isSome_map, Option.isSome_map] at hknown
  rw [mem_nodes_iff, mem_nodes_iff, hlinks, hknown]

end

end Hierarchy

/-! ## What is shown -/

namespace Exposure
variable {Upcast : Type} {h : Hierarchy Upcast} {classes classes' : List (ClassDescriptor Upcast)}

theorem takenKeys_congr (hkeys : keysOf classes = keysOf classes') : ∀ (steps : List FlattenStep) (seen : List GroupKey),
    takenKeys classes steps seen = takenKeys classes' steps seen
  | [], _ => rfl
  | step :: steps, seen => by rw [takenKeys, takenKeys, hkeys, takenKeys_congr hkeys steps]

/-- The tags of a class lead to its constructors and its release, and it has the name and the form of its descriptor. -/
structure Describes (classes : List (ClassDescriptor Upcast)) (tags : List TagTarget) (e : ExposedClass) : Prop where
  described : ∃ d, classes.find? (·.cls = e.cls) = some d ∧ e.name = d.name ∧ e.valueType = d.valueType
  constructor : tags[e.constructor.index]? = some (.constructor e.cls)
  release : tags[e.release.index]? = some (.release e.cls)

theorem Describes.mono {tags tags' : List TagTarget} (hp : tags <+: tags') {e : ExposedClass}
    (he : Describes classes tags e) : Describes classes tags' e :=
  ⟨he.described, getElem?_of_prefix hp he.constructor, getElem?_of_prefix hp he.release⟩

theorem describes_exposeClass {state : List ExposedClass × List TagTarget} (hst : ∀ e ∈ state.1, Describes classes state.2 e)
    (c : Class) : ∀ e ∈ (exposeClass h classes state c).1, Describes classes (exposeClass h classes state c).2 e := by
  unfold exposeClass
  split
  · exact hst
  rename_i d hd
  split
  · have hown := lists_showGroups classes c (groupKeys classes c)
      (state.2 ++ [.constructor c, .release c]) fun g hg => hg
    have htaken := lists_inherited classes (h.flatten c) (keysOf classes c)
      (showGroups c (groupKeys classes c) (state.2 ++ [.constructor c, .release c])).2
    have hkeeps := hown.keeps.trans htaken.keeps
    intro e he
    rcases List.mem_append.1 he with he | he
    · exact (hst e he).mono ((List.prefix_append _ _).trans hkeeps)
    · rw [List.mem_singleton.1 he]
      refine ⟨⟨d, hd, rfl, rfl⟩, getElem?_of_prefix hkeeps ?_, getElem?_of_prefix hkeeps ?_⟩ <;> simp
  · exact hst

theorem describes_ofDeclarations (h : Hierarchy Upcast) (classes : List (ClassDescriptor Upcast))
    (functions : List OverloadGroup) : ∀ e ∈ (ofDeclarations h classes functions).classes,
      Describes classes (ofDeclarations h classes functions).tags e := by
  have hfold : ∀ (cs : List Class) (state : List ExposedClass × List TagTarget),
      (∀ e ∈ state.1, Describes classes state.2 e) →
        ∀ e ∈ (cs.foldl (exposeClass h classes) state).1, Describes classes (cs.foldl (exposeClass h classes) state).2 e := by
    intro cs
    induction cs with
    | nil => exact fun _ hst => hst
    | cons c cs ih => exact fun state hst => ih _ (describes_exposeClass hst c)
  have hst := hfold (h.postorder (classes.map (·.cls))) ([], []) (by simp)
  exact fun e he => (hst e he).mono (List.prefix_append _ _)

/-- The position of a group in its class is that of its key. -/
theorem mem_groupKeys {c : Class} {k : GroupKey} {i : Nat} (hn : (keysOf classes c).Nodup)
    (hi : (k, i) ∈ groupKeys classes c) : i = (keysOf classes c).idxOf k := by
  unfold keysOf at hn ⊢
  unfold groupKeys at hn hi ⊢
  cases hd : classes.find? (·.cls = c) with
  | none =>
    rw [hd] at hi
    cases hi
  | some d =>
    rw [hd] at hn hi
    simp only [List.zipIdx_map_fst] at hn ⊢
    have hk : (d.members.map (·.key))[i]? = some k := List.mem_zipIdx_iff_getElem?.1 hi
    obtain ⟨hlt, rfl⟩ := List.getElem?_eq_some_iff.1 hk
    rw [hn.idxOf_getElem]

end Exposure

/-! ## Registries -/

namespace Registry
variable {Upcast Code : Type} {r s r' s' : Registry Upcast Code}

/-- The same descriptors, but for the places of the entries in the signature table. -/
structure Alike (r s : Registry Upcast Code) : Prop where
  left : r.WellFormed
  right : s.WellFormed
  descriptors : ∀ c, (r.class? c).map (·.unfiled) = (s.class? c).map (·.unfiled)

/-- What the tags of a class invoke: its constructors, its release and its members in their order. -/
def invoked (r : Registry Upcast Code) (e : ExposedClass) : List (Except CallError TagTarget) :=
  r.target e.constructor :: r.target e.release :: e.members.map fun m => r.target m.tag

/-- The host sees the same classes, members and upcasts, and whatever it calls is the same. -/
structure LooksLike (r s : Registry Upcast Code) : Prop where
  descriptors : ∀ c, (r.class? c).map (·.unfiled) = (s.class? c).map (·.unfiled)
  classes : ∀ c, (r.exposedClass? c).map (·.untagged) = (s.exposedClass? c).map (·.untagged)
  invoked : ∀ c, (r.exposedClass? c).map r.invoked = (s.exposedClass? c).map s.invoked
  ancestors : ∀ c, r.hierarchy?.map (·.ancestors c) = s.hierarchy?.map (·.ancestors c)
  upcasts : ∀ c a, r.upcastPath? c a = s.upcastPath? c a
  members : ∀ c name kind, (r.findMember? c name kind).map (·.untagged) = (s.findMember? c name kind).map (·.untagged)
  targets : ∀ c name kind,
    (r.findMember? c name kind).map (r.target ·.tag) = (s.findMember? c name kind).map (s.target ·.tag)

/-- What of a descriptor does not depend on signatures is the same in both registries. -/
theorem Alike.same (ha : r.Alike s) {α : Type} (f : ClassDescriptor Upcast → α) (hf : ∀ d, f d.unfiled = f d) (c : Class) :
    (r.class? c).map f = (s.class? c).map f := by
  have hview := congrArg (Option.map f) (ha.descriptors c)
  rw [Option.map_map, Option.map_map, show f ∘ (·.unfiled) = f from funext hf] at hview
  exact hview

theorem keys_unfiled (d : ClassDescriptor Upcast) : d.unfiled.members.map (·.key) = d.members.map (·.key) := by
  unfold ClassDescriptor.unfiled
  rw [List.map_map]
  rfl

theorem Alike.keysOf (ha : r.Alike s) : Exposure.keysOf r.classes = Exposure.keysOf s.classes := by
  funext c
  rw [keysOf_eq, keysOf_eq, ha.same (fun d => d.members.map (·.key)) keys_unfiled]

theorem Alike.hierarchy (ha : r.Alike s) :
    (Hierarchy.ofClasses r.classes).Alike (Hierarchy.ofClasses s.classes) :=
  Hierarchy.alike_ofClasses ha.left.nodup ha.right.nodup fun c => ha.same (·.supers) (fun _ => rfl) c

/-! ## Closed registries -/

/-- What a closed registry shows, said of the descriptors from which it was closed. -/
structure Closed (r r' : Registry Upcast Code) (x : Exposure Upcast) : Prop where
  classes : r'.classes = r.classes.map (·.markReady)
  exposure : r'.exposure = some x
  hierarchy : x.hierarchy = Hierarchy.ofClasses r.classes
  settled : x.Settled r.classes
  describes : ∀ e ∈ x.classes, Exposure.Describes r.classes x.tags e

theorem closed_finalize (hr : r.WellFormed) (hf : r.finalize = .ok r') : ∃ x, Closed r r' x := by
  obtain ⟨h, hh, hclasses, hx⟩ := finalize_ok hf
  exact ⟨_, hclasses, hx, (Hierarchy.build_ok hh).1, settled hr hh, Exposure.describes_ofDeclarations _ _ _⟩

/-- A key of an owner as an untagged member. -/
def listed (p : GroupKey × Class) : ExposedMember :=
  ⟨p.1.name, p.1.kind, ⟨0⟩, p.2⟩

/-- The group that the tag of a member invokes. -/
def groupOf (r : Registry Upcast Code) (p : GroupKey × Class) : Except CallError TagTarget :=
  .ok (.member p.2 ((Exposure.keysOf r.classes p.2).idxOf p.1))

theorem Closed.target {x : Exposure Upcast} (hx : Closed r r' x) {m : ExposedMember}
    (hm : Exposure.Tagged r.classes x.tags m) : r'.target m.tag = r.groupOf (Exposure.origin m) := by
  obtain ⟨i, hi, htag⟩ := hm
  rw [Exposure.mem_groupKeys (hx.settled.keys _) hi] at htag
  rw [Registry.target, hx.exposure, Option.bind_some, htag]
  rfl

/-- A declared class as the host sees it. -/
def shownAs (r : Registry Upcast Code) (d : ClassDescriptor Upcast) : ExposedClass :=
  { cls := d.cls, name := d.name, constructor := ⟨0⟩, release := ⟨0⟩
    supers := (Hierarchy.ofClasses r.classes).supers d.cls
    members := (Exposure.shownKeys r.classes (Hierarchy.ofClasses r.classes) d.cls).map listed
    valueType := d.valueType }

/-- What the tags of a declared class invoke. -/
def invokedAs (r : Registry Upcast Code) (d : ClassDescriptor Upcast) : List (Except CallError TagTarget) :=
  .ok (.constructor d.cls) :: .ok (.release d.cls)
    :: (Exposure.shownKeys r.classes (Hierarchy.ofClasses r.classes) d.cls).map r.groupOf

/-- A class is shown as its descriptor says, if it is declared. -/
theorem Closed.exposedClass? {x : Exposure Upcast} (hx : Closed r r' x) (c : Class) :
    (r'.exposedClass? c).map (fun e => (e.untagged, r'.invoked e)) =
      (r.class? c).bind fun d => if d.declared then some (r.shownAs d, r.invokedAs d) else none := by
  have hfind : r'.exposedClass? c = x.class? c := by
    rw [Registry.exposedClass?, hx.exposure, Option.bind_some]
  rw [hfind]
  cases he : x.class? c with
  | none =>
    have hnot := hx.settled.class?_none he
    cases hd : r.class? c with
    | none => rfl
    | some d =>
      have hdecl : d.declared = false := by
        rw [← Bool.not_eq_true]
        exact fun ht => hnot ⟨d, hd, ht⟩
      simp [hdecl]
  | some e =>
    obtain ⟨hmem, rfl⟩ := Exposure.class?_mem he
    have hshow := hx.settled.shows e hmem
    obtain ⟨⟨d, hd, hname, hvalue⟩, hconstructor, hrelease⟩ := hx.describes e hmem
    obtain ⟨d', hd', hdecl⟩ := (hx.settled.exposed e.cls).1 (List.mem_map_of_mem hmem)
    rw [hd] at hd'
    cases hd'
    have hcls : d.cls = e.cls := (class?_mem hd).2
    have horigins := hshow.origins
    rw [hx.hierarchy] at horigins
    have hmembers : e.members.map (·.untagged) = (e.members.map Exposure.origin).map listed := by
      rw [List.map_map]
      rfl
    have htargets : (e.members.map fun m => r'.target m.tag) = (e.members.map Exposure.origin).map r.groupOf := by
      rw [List.map_map]
      exact List.map_congr_left fun m hm => hx.target (hshow.tagged m hm)
    have htag {t : CallTag} {u : TagTarget} (h : x.tags[t.index]? = some u) : r'.target t = .ok u := by
      rw [Registry.target, hx.exposure, Option.bind_some, h]
    have hclass : r.class? e.cls = some d := hd
    rw [hclass, Option.map_some, Option.bind_some, if_pos hdecl]
    congr 2
    · rw [ExposedClass.untagged, shownAs, hmembers, horigins, hcls, hname, hvalue, hshow.supers, hx.hierarchy]
    · rw [Registry.invoked, invokedAs, htag hconstructor, htag hrelease, htargets, horigins, hcls]

/-- The look-up finds what the first class of the linearization declares. -/
theorem Closed.findMember? {x : Exposure Upcast} (hx : Closed r r' x) (c : Class) (name : String) (kind : MemberKind) :
    (r'.findMember? c name kind).map (fun m => (m.untagged, r'.target m.tag)) =
      (((Hierarchy.ofClasses r.classes).linearization c).find? (Exposure.declares r.classes ⟨name, kind⟩)).map fun owner =>
        (listed (⟨name, kind⟩, owner), r.groupOf (⟨name, kind⟩, owner)) := by
  have hcount := Exposure.shownCount_le hx.settled c
  obtain ⟨hval, htag⟩ := Exposure.findAlong_eq hx.settled ⟨name, kind⟩ (x.classes.length + 1) c (by omega)
  have hfind : r'.findMember? c name kind = x.findAlong name kind (x.classes.length + 1) c := by
    rw [Registry.findMember?, hx.exposure]
    rfl
  rw [← hfind] at hval htag
  rw [hx.hierarchy] at hval
  have hview := congrArg (Option.map fun p => (listed p, r.groupOf p)) hval
  rw [Option.map_map, Option.map_map] at hview
  refine Eq.trans ?_ hview
  refine Option.map_congr fun m hm => ?_
  rw [hx.target (htag m hm)]
  rfl

/-- **What is closed of registries that are alike differs in tag numbers only.** -/
theorem Alike.looksLike (ha : r.Alike s) (hf : r.finalize = .ok r') (hg : s.finalize = .ok s') : r'.LooksLike s' := by
  obtain ⟨x, hx⟩ := closed_finalize ha.left hf
  obtain ⟨y, hy⟩ := closed_finalize ha.right hg
  have hh := ha.hierarchy
  have hkeys := ha.keysOf
  have hshown (c : Class) : Exposure.shownKeys r.classes (Hierarchy.ofClasses r.classes) c =
      Exposure.shownKeys s.classes (Hierarchy.ofClasses s.classes) c := by
    rw [Exposure.shownKeys, Exposure.shownKeys, hkeys, hh.flatten, Exposure.takenKeys_congr hkeys]
  have hgroup : r.groupOf = s.groupOf := by
    funext p
    rw [groupOf, groupOf, hkeys]
  have hclass (c : Class) : (r'.exposedClass? c).map (fun e => (e.untagged, r'.invoked e)) =
      (s'.exposedClass? c).map fun e => (e.untagged, s'.invoked e) := by
    have hsame : (fun d : ClassDescriptor Upcast => if d.declared then some (r.shownAs d, r.invokedAs d) else none) =
        fun d => if d.declared then some (s.shownAs d, s.invokedAs d) else none := by
      funext d
      rw [shownAs, shownAs, invokedAs, invokedAs, hshown, hgroup, hh.supers]
    have hview := congrArg (Option.bind · fun d => if d.declared then some (s.shownAs d, s.invokedAs d) else none)
      (ha.descriptors c)
    rw [Option.bind_map, Option.bind_map] at hview
    rw [hx.exposedClass?, hy.exposedClass?, hsame]
    exact hview
  have hmember (c : Class) (name : String) (kind : MemberKind) :
      (r'.findMember? c name kind).map (fun m => (m.untagged, r'.target m.tag)) =
        (s'.findMember? c name kind).map fun m => (m.untagged, s'.target m.tag) := by
    have hdeclares : Exposure.declares r.classes = Exposure.declares s.classes := by
      funext k a
      rw [Exposure.declares, Exposure.declares, hkeys]
    have hlinear (c : Class) : (Hierarchy.ofClasses r.classes).linearization c =
        (Hierarchy.ofClasses s.classes).linearization c := by
      rw [Hierarchy.linearization, Hierarchy.linearization, Hierarchy.ancestors, Hierarchy.ancestors, hh.flatten]
    rw [hx.findMember?, hy.findMember?, hdeclares, hlinear, hgroup]
  have hpart {α β γ : Type} {o o' : Option α} {f g : α → β × γ} (h : o.map f = o'.map g) :
      o.map (fun a => (f a).1) = o'.map (fun a => (g a).1) ∧ o.map (fun a => (f a).2) = o'.map fun a => (g a).2 := by
    have h1 := congrArg (Option.map Prod.fst) h
    have h2 := congrArg (Option.map Prod.snd) h
    rw [Option.map_map, Option.map_map] at h1 h2
    exact ⟨h1, h2⟩
  have hx' : r'.hierarchy? = some (Hierarchy.ofClasses r.classes) := by
    rw [hierarchy?, hx.exposure, Option.map_some, hx.hierarchy]
  have hy' : s'.hierarchy? = some (Hierarchy.ofClasses s.classes) := by
    rw [hierarchy?, hy.exposure, Option.map_some, hy.hierarchy]
  refine ⟨fun c => ?_, fun c => (hpart (hclass c)).1, fun c => (hpart (hclass c)).2, fun c => ?_, fun c a => ?_,
    fun c name kind => (hpart (hmember c name kind)).1, fun c name kind => (hpart (hmember c name kind)).2⟩
  · rw [class?_finalize hx.classes, class?_finalize hy.classes, Option.map_map, Option.map_map]
    refine ha.same _ (fun d => ?_) c
    simp [ClassDescriptor.unfiled, ClassDescriptor.markReady, OverloadGroup.unfiled, OverloadGroup.freeze]
  · rw [hx', hy', Option.map_some, Option.map_some, Hierarchy.ancestors, Hierarchy.ancestors, hh.flatten]
  · rw [upcastPath?, upcastPath?, hx', hy', Option.bind_some, Option.bind_some, hh.upcastPath?]

theorem finalize_of_build (hr : r.exposure = none) :
    (∀ e, Hierarchy.build r.classes = .error e → r.finalize = .error e) ∧
      ∀ h, Hierarchy.build r.classes = .ok h → ∃ r', r.finalize = .ok r' := by
  have hopen : r.ensureOpen = .ok () := by
    rw [ensureOpen, isClosed, hr]
    rfl
  refine ⟨fun e he => ?_, fun h hh => ?_⟩
  · rw [Registry.finalize, hopen, he]
    rfl
  · rw [Registry.finalize, hopen, hh]
    exact ⟨_, rfl⟩

/-- **Of registries that are alike both can be closed, or both have a cycle.** -/
theorem Alike.finalize (ha : r.Alike s) (hr : r.exposure = none) (hs : s.exposure = none) :
    (∃ n m, r.finalize = .error (.inheritanceCycle n) ∧ s.finalize = .error (.inheritanceCycle m)) ∨
      ∃ r' s', r.finalize = .ok r' ∧ s.finalize = .ok s' ∧ r'.LooksLike s' := by
  have habove : (Hierarchy.ofClasses r.classes).Above = (Hierarchy.ofClasses s.classes).Above := by
    unfold Hierarchy.Above
    rw [ha.hierarchy.super]
  have hcycle := Hierarchy.build_acyclic r.classes
  rw [habove] at hcycle
  rcases hcycle with ⟨hno, hok⟩ | ⟨⟨c, hc⟩, n, herror⟩
  · rcases Hierarchy.build_acyclic s.classes with ⟨-, hok'⟩ | ⟨⟨c, hc⟩, -⟩
    · obtain ⟨r', hf⟩ := (finalize_of_build hr).2 _ hok
      obtain ⟨s', hg⟩ := (finalize_of_build hs).2 _ hok'
      exact .inr ⟨r', s', hf, hg, ha.looksLike hf hg⟩
    · exact absurd hc (hno c)
  · rcases Hierarchy.build_acyclic s.classes with ⟨hno, -⟩ | ⟨-, m, herror'⟩
    · exact absurd hc (hno c)
    · exact .inl ⟨n, m, (finalize_of_build hr).1 _ herror, (finalize_of_build hs).1 _ herror'⟩

end Registry
end NativeBridge
