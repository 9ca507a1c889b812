import Mathlib.Data.List.Sort
import NativeBridge.Proofs.Engine.Building
import NativeBridge.Proofs.Engine.Recorded
import NativeBridge.Registry.Reflection
/-!
# What reflection lists

A snapshot of a registry lists what was declared and nothing else. The overloads of a group are the entries that were
filed in it, by arity (`Recorded.overloadInfos_eq`), a class is described by the record of its operations
(`Recorded.classInfo_eq`), and so the whole snapshot is computed from the operations that succeeded, with no registry in
between (`reflect_eq`).
-/
namespace NativeBridge

/-- Taking a list apart by a key and putting it together again. -/
theorem perm_flatMap_filter {α κ : Type} [DecidableEq κ] (key : α → κ) : ∀ {keys : List κ}, keys.Nodup →
    ∀ {l : List α}, (∀ a ∈ l, key a ∈ keys) → (keys.flatMap fun k => l.filter (key · = k)).Perm l
  | [], _, [], _ => .refl _
  | [], _, a :: _, h => absurd (h a List.mem_cons_self) List.not_mem_nil
  | k :: keys, hnodup, l, h => by
    rw [List.nodup_cons] at hnodup
    -- The items of the first key come first, and what is left has the other keys only.
    have hrest : ∀ a ∈ l.filter fun a => !decide (key a = k), key a ∈ keys := fun a ha => by
      obtain ⟨hmem, hne⟩ := List.mem_filter.1 ha
      exact (List.mem_cons.1 (h a hmem)).resolve_left (by simpa using hne)
    have hsame : (keys.flatMap fun k' => (l.filter fun a => !decide (key a = k)).filter (key · = k')) =
        keys.flatMap fun k' => l.filter (key · = k') := by
      refine List.flatMap_congr fun k' hk' => ?_
      rw [List.filter_filter]
      refine List.filter_congr fun a _ => ?_
      by_cases ha : key a = k'
      · have hne : key a ≠ k := fun heq => hnodup.1 (heq ▸ ha ▸ hk')
        simp [ha, ha ▸ hne]
      · simp [ha]
    rw [List.flatMap_cons, ← hsame]
    exact ((perm_flatMap_filter key hnodup.2 hrest).append_left _).trans (List.filter_append_perm _ l)

namespace Registry
variable {Upcast Code : Type} {r : Registry Upcast Code} {log : List (Operation Upcast Code)}
  {filings : List (Filing Code)} {h : Holder} {g : OverloadGroup}

/-! ## What the operations say -/

/-- The kind of the entries of a group. -/
def Holder.kind : Holder → MemberKind
  | .constructors _ => .constructor
  | .member _ key => key.kind
  | .function _ => .function

/-- The name of the entries of a group; constructors go by that of their class. -/
def Holder.title (cls : String) : Holder → String
  | .constructors _ => cls
  | .member _ key => key.name
  | .function name => name

/-- The overload that a filed entry is shown as. -/
def shown (cls : String) : Holder × CallShape × TypeFlags → MemberInfo
  | (h, shape, flags) => ⟨h.title cls, h.kind, flags, shape.args.map NativeType.token, shape.ret.token⟩

/-- The overloads that operations have filed in a group, by arity. -/
def overloadsIn (log : List (Operation Upcast Code)) (cls : String) (h : Holder) : List MemberInfo :=
  (((log.filterMap (·.files)).filter (·.1 = h)).map (shown cls)).mergeSort (·.arity ≤ ·.arity)

/-- The class that operations have declared, with all that they say of it. -/
def classIn? (log : List (Operation Upcast Code)) (c : Class) : Option ClassInfo :=
  (recordIn log c).declaration.map fun (name, size) =>
    { cls := c, name, hash := .ofName name, size, supers := (recordIn log c).supers
      valueType := (recordIn log c).valueType
      members := overloadsIn log name (.constructors c)
        ++ (recordIn log c).keys.flatMap fun key => overloadsIn log name (.member c key) }

/-- The snapshot that operations account for. -/
def reflectionOf (log : List (Operation Upcast Code)) : Reflection :=
  { classes := (log.filterMap (·.mentions)).eraseDups.filterMap (classIn? log)
    functions := (log.filterMap (·.overloads)).eraseDups.flatMap fun name => overloadsIn log "" (.function name)
    types := (TypeRegistry.empty.registerAll (log.flatMap (·.describes))).infos }

/-! ## The overloads of a group -/

theorem Intact.group_refs (hr : r.Intact filings) (hg : (h, g) ∈ r.groups) :
    g.refs.Perm ((filings.filter (·.holder = h)).map (·.ref)) := by
  have hrefs : g.refs.Nodup := by
    have hall : (r.groups.flatMap (·.2.refs)).Nodup := (hr.mem_refs default).1
    exact (List.nodup_flatMap.1 hall).1 _ hg
  have hfiled : ((filings.filter (·.holder = h)).map (·.ref)).Nodup :=
    hr.table.distinct.sublist (List.Sublist.map _ List.filter_sublist)
  -- Neither list repeats a reference, so it is enough that they have the same ones.
  refine (List.perm_ext_iff_of_nodup hrefs hfiled).2 fun ref => ⟨fun hmem => ?_, fun hmem => ?_⟩
  · obtain ⟨⟨n, ref⟩, hover, rfl⟩ := List.mem_map.1 hmem
    obtain ⟨f, hf, hfref, hholder, -⟩ := (hr.backed hg).filed n ref hover
    exact List.mem_map.2 ⟨f, List.mem_filter.2 ⟨hf, decide_eq_true hholder⟩, hfref⟩
  · obtain ⟨f, hf, rfl⟩ := List.mem_map.1 hmem
    obtain ⟨hf, hholder⟩ := List.mem_filter.1 hf
    obtain ⟨g', s, hg', hover, -⟩ := hr.placed hf
    rw [of_decide_eq_true hholder] at hg'
    have hsame := List.inj_on_of_nodup_map hr.nodup_groups hg' hg rfl
    rw [← (Prod.mk.inj hsame).2]
    exact List.mem_map_of_mem (f := Prod.snd) hover

/-- A group is shown with an overload for each arity that it has. -/
theorem Intact.arities (hr : r.Intact filings) (hg : (h, g) ∈ r.groups) (kind : MemberKind) :
    (r.overloadInfos kind g).map (·.arity) = g.overloads.map (·.1) := by
  rw [overloadInfos, List.map_filterMap]
  refine (List.filterMap_congr ?_).trans (congrFun List.filterMap_eq_map _)
  rintro ⟨n, ref⟩ hp
  obtain ⟨s, e, hs, harity, -⟩ := hr.resolves hg hp
  have hfiled := hr.table.filed s (List.mem_of_getElem? (SignatureTable.entry?_eq_some.1 hs).1)
  dsimp only
  rw [hs, Option.map_some, Option.map_some]
  refine congrArg some ?_
  rw [MemberInfo.arity, hfiled, List.length_map]
  exact harity

theorem Intact.ascending_infos (hr : r.Intact filings) (hg : (h, g) ∈ r.groups) (kind : MemberKind) :
    (r.overloadInfos kind g).Pairwise (·.arity < ·.arity) := by
  rw [← List.pairwise_map (R := (· < ·)), hr.arities hg, List.pairwise_map]
  exact (hr.backed hg).ascending

/-- **A group is shown as what was filed in it, by arity.** -/
theorem Recorded.overloadInfos_eq (hr : r.Intact filings) (hlog : r.Recorded log filings) (hg : (h, g) ∈ r.groups)
    {cls : String} (hname : g.name = h.title cls) : r.overloadInfos h.kind g = overloadsIn log cls h := by
  have hperm : (r.overloadInfos h.kind g).Perm (overloadsIn log cls h) := by
    have hinfos : r.overloadInfos h.kind g = g.refs.filterMap fun ref => (r.signatures.entry? ref).map fun p =>
        { name := g.name, kind := h.kind, flags := p.2.flags, args := p.1.key.args, ret := p.1.key.ret } := by
      rw [overloadInfos, OverloadGroup.refs, List.filterMap_map]
      rfl
    rw [hinfos]
    refine ((hr.group_refs hg).filterMap _).trans (.trans (.of_eq ?_) (List.mergeSort_perm _ _).symm)
    rw [← hlog.filed, List.filterMap_map, List.filter_map, List.map_map]
    refine (List.filterMap_congr fun f hf => ?_).trans (congrFun List.filterMap_eq_map _)
    obtain ⟨hfile, hholder⟩ := List.mem_filter.1 hf
    obtain rfl : f.holder = h := of_decide_eq_true hholder
    obtain ⟨s, hs, hkey⟩ := SignatureTable.keyed_eq_some.1 (hr.table.found f hfile)
    rw [Function.comp_apply, hs, Option.map_some]
    dsimp only
    rw [hkey, hname]
    rfl
  have hasc := hr.ascending_infos hg h.kind
  refine List.Perm.eq_of_pairwise (fun a b ha hb hab hba => ?_) (hasc.imp fun hlt => decide_eq_true (Nat.le_of_lt hlt))
    (List.pairwise_mergeSort (fun a b c hab hbc => ?_) (fun a b => ?_) _) hperm
  · -- Two overloads of one arity in a group are the same.
    have hnodup : ((r.overloadInfos h.kind g).map (·.arity)).Nodup :=
      List.pairwise_map.2 (hasc.imp Nat.ne_of_lt)
    exact List.inj_on_of_nodup_map hnodup ha (hperm.mem_iff.2 hb)
      (Nat.le_antisymm (of_decide_eq_true hab) (of_decide_eq_true hba))
  · exact decide_eq_true ((of_decide_eq_true hab).trans (of_decide_eq_true hbc))
  · simpa using Nat.le_total a.arity b.arity

/-! ## Classes and functions -/

theorem mem_groups_constructors {d : ClassDescriptor Upcast} (hd : d ∈ r.classes) :
    (.constructors d.cls, d.constructors) ∈ r.groups :=
  List.mem_append_left _ (List.mem_flatMap.2 ⟨d, hd, List.mem_cons_self⟩)

theorem mem_groups_member {d : ClassDescriptor Upcast} (hd : d ∈ r.classes) {m : MemberGroup} (hm : m ∈ d.members) :
    (.member d.cls m.key, m.group) ∈ r.groups :=
  List.mem_append_left _ (List.mem_flatMap.2 ⟨d, hd, List.mem_cons_of_mem _ (List.mem_map_of_mem hm)⟩)

theorem mem_groups_function {g : OverloadGroup} (hg : g ∈ r.functions) : (.function g.name, g) ∈ r.groups :=
  List.mem_append_right _ (List.mem_map_of_mem hg)

/-- **A class is shown as its operations say**, and not at all unless it was declared. -/
theorem Recorded.classInfo_eq (hr : r.Intact filings) (hlog : r.Recorded log filings) {d : ClassDescriptor Upcast}
    (hd : d ∈ r.classes) : classIn? log d.cls = if d.declared then some (r.classInfo d) else none := by
  have hrecord := hlog.records d.cls
  rw [recordOf_of_some (hr.wellFormed.class?_eq hd)] at hrecord
  rw [classIn?, ← hrecord]
  unfold ClassDescriptor.record
  split
  · rw [Option.map_some]
    have hi := hr.classes d hd
    have hmembers : (d.members.map (·.key)).flatMap (fun key => overloadsIn log d.name (.member d.cls key)) =
        d.members.flatMap fun m => r.overloadInfos m.key.kind m.group := by
      rw [List.flatMap_map]
      refine List.flatMap_congr fun m hm => ?_
      exact (overloadInfos_eq hr hlog (mem_groups_member hd hm) (hi.keyed m hm)).symm
    dsimp only
    rw [hmembers, ← overloadInfos_eq hr hlog (mem_groups_constructors hd) hi.titled]
    rfl
  · rfl

theorem Recorded.reflect_eq (hr : r.Intact filings) (hlog : r.Recorded log filings) :
    r.reflect = reflectionOf log := by
  have hclasses : (r.classes.filter (·.declared)).map r.classInfo =
      (r.classes.map (·.cls)).filterMap (classIn? log) := by
    rw [List.filterMap_map, ← List.filterMap_eq_map, List.filterMap_filter]
    exact List.filterMap_congr fun d hd => (classInfo_eq hr hlog hd).symm
  have hfunctions : r.functions.flatMap (r.overloadInfos .function) =
      (r.functions.map (·.name)).flatMap fun name => overloadsIn log "" (.function name) := by
    rw [List.flatMap_map]
    exact List.flatMap_congr fun g hg => overloadInfos_eq hr hlog (mem_groups_function hg) rfl
  unfold reflect reflectionOf
  rw [hclasses, hfunctions, hlog.classes, hlog.functions, hlog.types]

/-! ## One for each declaration -/

/-- What the groups of some holders are shown with are the entries filed for these holders, one for each. -/
theorem perm_shown {holders : List Holder} (hnodup : holders.Nodup) {p : Holder → Bool} (cls : String)
    (hof : ∀ h ∈ holders, p h = true) (hin : ∀ q ∈ log.filterMap (·.files), p q.1 = true → q.1 ∈ holders) :
    (holders.flatMap (overloadsIn log cls)).Perm (((log.filterMap (·.files)).filter (p ·.1)).map (shown cls)) := by
  have heach : ∀ h ∈ holders, (overloadsIn log cls h).Perm
      ((((log.filterMap (·.files)).filter (p ·.1)).filter (·.1 = h)).map (shown cls)) := by
    intro h hh
    refine (List.mergeSort_perm _ _).trans (.of_eq ?_)
    rw [List.filter_filter]
    refine congrArg (List.map _) (List.filter_congr fun q _ => ?_)
    by_cases hq : q.1 = h
    · simp [hq, hof h hh]
    · simp [hq]
  refine (List.Perm.flatMap_left holders heach).trans ?_
  rw [← List.map_flatMap]
  refine (perm_flatMap_filter Prod.fst hnodup fun q hq => ?_).map _
  obtain ⟨hfiled, hp⟩ := List.mem_filter.1 hq
  exact hin q hfiled hp

theorem mem_keys_of_files {c : Class} {key : GroupKey} {shape : CallShape} {flags : TypeFlags}
    (h : (.member c key, shape, flags) ∈ log.filterMap (·.files)) : key ∈ (recordIn log c).keys := by
  obtain ⟨op, hop, hfiles⟩ := List.mem_filterMap.1 h
  refine List.mem_eraseDups.2 (List.mem_filterMap.2 ⟨op, hop, ?_⟩)
  cases op with
  | entry holder flags' shape' id code =>
    obtain rfl : holder = .member c key := (Prod.mk.inj (Option.some.inj hfiles)).1
    exact if_pos rfl
  | _ => cases hfiles

theorem mem_overloads_of_files {name : String} {shape : CallShape} {flags : TypeFlags}
    (h : (.function name, shape, flags) ∈ log.filterMap (·.files)) :
    name ∈ (log.filterMap (·.overloads)).eraseDups := by
  obtain ⟨op, hop, hfiles⟩ := List.mem_filterMap.1 h
  refine List.mem_eraseDups.2 (List.mem_filterMap.2 ⟨op, hop, ?_⟩)
  cases op with
  | entry holder flags' shape' id code =>
    obtain rfl : holder = .function name := (Prod.mk.inj (Option.some.inj hfiles)).1
    rfl
  | _ => cases hfiles

theorem perm_members {c : Class} (hkeys : (recordIn log c).keys.Nodup) (cls : String) :
    (overloadsIn log cls (.constructors c) ++
        (recordIn log c).keys.flatMap fun key => overloadsIn log cls (.member c key)).Perm
      (((log.filterMap (·.files)).filter (·.1.cls? = some c)).map (shown cls)) := by
  have hholders : overloadsIn log cls (.constructors c) ++
      ((recordIn log c).keys.flatMap fun key => overloadsIn log cls (.member c key)) =
      (Holder.constructors c :: (recordIn log c).keys.map (Holder.member c)).flatMap (overloadsIn log cls) := by
    rw [List.flatMap_cons, List.flatMap_map]
  rw [hholders]
  refine perm_shown (p := (·.cls? = some c)) (List.nodup_cons.2 ⟨fun h => ?_, hkeys.map fun a b hab => ?_⟩) cls
    (fun h hh => ?_) ?_
  · obtain ⟨key, -, hkey⟩ := List.mem_map.1 h
    cases hkey
  · cases hab
    rfl
  · rcases List.mem_cons.1 hh with rfl | hh
    · exact decide_eq_true rfl
    · obtain ⟨key, -, rfl⟩ := List.mem_map.1 hh
      exact decide_eq_true rfl
  · rintro ⟨h, shape, flags⟩ hfiled hcls
    have hcls : h.cls? = some c := of_decide_eq_true hcls
    cases h with
    | constructors c' =>
      cases hcls
      exact List.mem_cons_self
    | member c' key =>
      cases hcls
      exact List.mem_cons_of_mem _ (List.mem_map_of_mem (mem_keys_of_files hfiled))
    | function name => cases hcls

theorem perm_functions (hnames : (log.filterMap (·.overloads)).eraseDups.Nodup) :
    ((log.filterMap (·.overloads)).eraseDups.flatMap fun name => overloadsIn log "" (.function name)).Perm
      (((log.filterMap (·.files)).filter (·.1.cls? = none)).map (shown "")) := by
  rw [← List.flatMap_map]
  refine perm_shown (p := (·.cls? = none)) (hnames.map fun a b hab => ?_) "" (fun h hh => ?_) ?_
  · cases hab
    rfl
  · obtain ⟨name, -, rfl⟩ := List.mem_map.1 hh
    exact decide_eq_true rfl
  · rintro ⟨h, shape, flags⟩ hfiled hcls
    have hcls : h.cls? = none := of_decide_eq_true hcls
    cases h with
    | function name => exact List.mem_map_of_mem (mem_overloads_of_files hfiled)
    | _ => cases hcls

/-- An entry is filed for a class that is declared. -/
theorem Intact.filed_declared (hr : r.Intact filings) {f : Filing Code} (hf : f ∈ filings) {c : Class}
    (hc : f.holder.cls? = some c) : ∃ d ∈ r.classes, d.cls = c ∧ d.declared = true := by
  obtain ⟨g, s, hg, hover, -⟩ := hr.placed hf
  rcases List.mem_append.1 hg with hg | hg
  · obtain ⟨d, hd, hg⟩ := List.mem_flatMap.1 hg
    -- A class that is only mentioned has no overloads.
    have hblank (hdecl : d.declared = false) : d.members = [] ∧ d.constructors.overloads = [] :=
      ⟨((hr.wellFormed.descriptors d hd).blank hdecl).2, (hr.classes d hd).blank hdecl⟩
    refine ⟨d, hd, ?_⟩
    rw [← Bool.not_eq_false]
    rcases List.mem_cons.1 hg with heq | hg
    · obtain ⟨hholder, rfl⟩ := Prod.mk.inj heq
      rw [hholder] at hc
      refine ⟨Option.some.inj hc, fun hdecl => ?_⟩
      rw [(hblank hdecl).2] at hover
      cases hover
    · obtain ⟨m, hm, heq⟩ := List.mem_map.1 hg
      obtain ⟨hholder, -⟩ := Prod.mk.inj heq
      rw [← hholder] at hc
      refine ⟨Option.some.inj hc, fun hdecl => ?_⟩
      rw [(hblank hdecl).1] at hm
      cases hm
  · obtain ⟨g', -, heq⟩ := List.mem_map.1 hg
    obtain ⟨hholder, -⟩ := Prod.mk.inj heq
    rw [← hholder] at hc
    cases hc

/-! ## Snapshots -/

theorem mem_reflect {ci : ClassInfo} :
    ci ∈ r.reflect.classes ↔ ∃ d ∈ r.classes, d.declared = true ∧ r.classInfo d = ci := by
  unfold reflect
  simp only [List.mem_map, List.mem_filter, and_assoc]

/-- Every declared class is listed once. -/
theorem Recorded.perm_introduced (hr : r.Intact filings) (hlog : r.Recorded log filings) :
    (r.reflect.classes.map (·.cls)).Perm (log.filterMap (·.introduces)) := by
  have hnodup : (r.reflect.classes.map (·.cls)).Nodup := by
    unfold reflect
    rw [List.map_map]
    exact hr.wellFormed.nodup.sublist (List.Sublist.map _ List.filter_sublist)
  refine (List.perm_ext_iff_of_nodup hnodup hlog.once).2 fun c => ?_
  rw [List.mem_map, List.mem_filterMap]
  constructor
  · rintro ⟨ci, hci, rfl⟩
    obtain ⟨d, hd, hdecl, rfl⟩ := mem_reflect.1 hci
    obtain ⟨info, hinfo, hcls⟩ := hlog.declared_by hr.wellFormed hd hdecl
    exact ⟨_, hinfo, congrArg some hcls⟩
  · rintro ⟨op, hop, hintro⟩
    cases op with
    | cls info =>
      obtain ⟨d, hd, hcls, hdecl, -⟩ := hlog.described hop
      exact ⟨_, mem_reflect.2 ⟨d, hd, hdecl, rfl⟩, hcls.trans (Option.some.inj hintro)⟩
    | _ => cases hintro

/-- The members of a listed class are the entries that were filed for it. -/
theorem Recorded.perm_of_listed (hr : r.Intact filings) (hlog : r.Recorded log filings) {ci : ClassInfo}
    (hci : ci ∈ r.reflect.classes) :
    ci.members.Perm (((log.filterMap (·.files)).filter (·.1.cls? = some ci.cls)).map (shown ci.name)) := by
  obtain ⟨d, hd, hdecl, rfl⟩ := mem_reflect.1 hci
  have hinfo := hlog.classInfo_eq hr hd
  rw [if_pos hdecl, classIn?] at hinfo
  obtain ⟨⟨name, size⟩, -, hinfo⟩ := Option.map_eq_some_iff.1 hinfo
  have hkeys : (recordIn log d.cls).keys.Nodup := by
    rw [← hlog.records, recordOf_of_some (hr.wellFormed.class?_eq hd)]
    exact (hr.wellFormed.descriptors d hd).keys
  rw [← hinfo]
  exact perm_members hkeys name

/-- A group is shown with an overload for each arity that it resolves, by arity. -/
theorem Recorded.overloadsIn_resolves (hr : r.Intact filings) (hlog : r.Recorded log filings) (hg : (h, g) ∈ r.groups)
    {cls : String} (hname : g.name = h.title cls) : (overloadsIn log cls h).Pairwise (·.arity < ·.arity) ∧
      ∀ n, (∃ m ∈ overloadsIn log cls h, m.arity = n) ↔ ∃ ref, g.resolve n = .ok ref := by
  rw [← hlog.overloadInfos_eq hr hg hname]
  refine ⟨hr.ascending_infos hg _, fun n => ?_⟩
  rw [← List.mem_map, hr.arities hg, List.mem_map]
  simp only [(hr.backed hg).resolve_ok]
  constructor
  · rintro ⟨⟨_, ref⟩, hover, rfl⟩
    exact ⟨ref, hover⟩
  · rintro ⟨ref, hover⟩
    exact ⟨(n, ref), hover, rfl⟩

/-- **Reflection lists exactly what was declared**, whatever is asked of a registry:
- the snapshot is the one that the operations that succeeded account for: classes and functions in the order in which
  they were first referred to, each class with its name, the hash of it, its superclasses in order and without
  repetition, and the overloads of its groups;
- every declared class is listed once, as it was declared, and no other;
- the members of a class are the entries that were filed for it, one for each, with their names, kinds, types and
  effective flags, and the functions are the other entries;
- an entry is filed only for a class that is listed;
- the overloads of a group are listed by ascending arity, one for each arity that the group resolves. -/
theorem reflects_declarations (maxArity : Nat) (ops : List (Operation Upcast Code)) :
    let r : Registry Upcast Code := (empty maxArity).leftByAll ops
    let log := (empty maxArity).accepted ops
    r.reflect = reflectionOf log ∧
    (r.reflect.classes.map (·.cls)).Perm (log.filterMap (·.introduces)) ∧
    (∀ info, .cls info ∈ log → ∃ ci ∈ r.reflect.classes, ci.cls = info.token.asClass ∧ ci.name = info.name ∧
      ci.hash = .ofName info.name ∧ ci.size = info.size) ∧
    (∀ ci ∈ r.reflect.classes,
      ci.members.Perm (((log.filterMap (·.files)).filter (·.1.cls? = some ci.cls)).map (shown ci.name))) ∧
    r.reflect.functions.Perm (((log.filterMap (·.files)).filter (·.1.cls? = none)).map (shown "")) ∧
    (∀ p ∈ log.filterMap (·.files), ∀ c, p.1.cls? = some c → c ∈ r.reflect.classes.map (·.cls)) ∧
    ∀ h g, (h, g) ∈ r.groups → ∀ cls, g.name = h.title cls →
      (overloadsIn log cls h).Pairwise (·.arity < ·.arity) ∧
      ∀ n, (∃ m ∈ overloadsIn log cls h, m.arity = n) ↔ ∃ ref, g.resolve n = .ok ref := by
  intro r log
  have hlog : r.Recorded log ((empty maxArity).run ops).2 := leftByAll_recorded maxArity ops
  have hr : r.Intact ((empty maxArity).run ops).2 := leftByAll_intact maxArity ops
  refine ⟨hlog.reflect_eq hr, hlog.perm_introduced hr, fun info hinfo => ?_,
    fun ci hci => hlog.perm_of_listed hr hci, ?_, fun p hp c hc => ?_,
    fun h g hg cls hname => hlog.overloadsIn_resolves hr hg hname⟩
  · obtain ⟨d, hd, hcls, hdecl, hname, hsize⟩ := hlog.described hinfo
    exact ⟨_, mem_reflect.2 ⟨d, hd, hdecl, rfl⟩, hcls, hname, congrArg NameHash.ofName hname, hsize⟩
  · rw [hlog.reflect_eq hr]
    refine perm_functions ?_
    rw [← hlog.functions]
    exact hr.distinct
  · rw [← hlog.filed] at hp
    obtain ⟨f, hf, rfl⟩ := List.mem_map.1 hp
    obtain ⟨d, hd, rfl, hdecl⟩ := hr.filed_declared hf hc
    exact List.mem_map.2 ⟨_, mem_reflect.2 ⟨d, hd, hdecl, rfl⟩, rfl⟩

/-- A member that is declared with the kind and under the name of the constructors has a group of its own, which comes
after theirs. -/
theorem two_groups_of_one_name : ¬ ∀ (maxArity : Nat) (ops : List (Operation Unit Unit)),
    ∀ ci ∈ ((empty maxArity).leftByAll ops).reflect.classes, ∀ name kind,
      (ci.members.filter fun m => m.name = name && m.kind = kind).Pairwise (·.arity ≤ ·.arity) := by
  intro h
  let point : Class := ⟨"Point", "Point", .word 8⟩
  have hlisted : (((empty 16 : Registry Unit Unit).leftByAll [.cls point.info,
      .entry (.constructors point) .none (.function [.int .int32, .int .int32] .unit) ⟨0⟩ (),
      .entry (.member point ⟨"Point", .constructor⟩) .none (.function [] .unit) ⟨0⟩ ()]).reflect.classes.any fun ci =>
        !decide ((ci.members.filter fun m => m.name = "Point" && m.kind = .constructor).Pairwise
          (·.arity ≤ ·.arity))) = true := by decide +kernel
  obtain ⟨ci, hci, hsorted⟩ := List.any_eq_true.1 hlisted
  exact absurd (h 16 _ ci hci "Point" .constructor) (by simpa using hsorted)

end Registry
end NativeBridge
