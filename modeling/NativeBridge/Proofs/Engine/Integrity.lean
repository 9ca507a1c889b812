import NativeBridge.Proofs.Engine.Filings
/-!
# Referential integrity

Whatever is asked of a registry, and in whatever order, the references that its groups hold and the entries of its
signature table are those of the accepted declarations, one for each (`Registry.run_intact`). A call that found an overload
by its number of arguments therefore finds an entry, under a signature with that many arguments
(`Environment.dispatch_backed`).
-/
namespace NativeBridge

open Registry (Holder Filing)

/-! ## Registries -/

namespace Registry
variable {Upcast Code : Type} {r r' : Registry Upcast Code} {filings : List (Filing Code)}

/-- All groups of a registry. -/
def groups (r : Registry Upcast Code) : List (Holder × OverloadGroup) :=
  r.classes.flatMap (·.groups) ++ r.functions.map fun g => (.function g.name, g)

/-- All references that groups hold. -/
def refs (r : Registry Upcast Code) : List EntryRef :=
  r.groups.flatMap (·.2.refs)

theorem refs_eq (r : Registry Upcast Code) : r.refs = r.classes.flatMap (·.refs) ++ r.functions.flatMap (·.refs) := by
  rw [refs, groups, List.flatMap_append, List.flatMap_assoc, List.flatMap_map]
  congr 1
  refine List.flatMap_congr fun d _ => ?_
  rw [ClassDescriptor.groups, List.flatMap_cons, List.flatMap_map]
  rfl

/-- **A registry is intact** if its groups, its signature table and its name index agree with what was filed. -/
structure Intact (r : Registry Upcast Code) (filings : List (Filing Code)) : Prop where
  wellFormed : r.WellFormed
  table : r.signatures.Files filings
  classes : ∀ d ∈ r.classes, d.Intact filings
  distinct : (r.functions.map (·.name)).Nodup
  functions : ∀ g ∈ r.functions, g.Backed filings (.function g.name)
  refs : (r.classes.flatMap (·.refs) ++ r.functions.flatMap (·.refs)).Perm (filings.map (·.ref))
  names : (r.names.map (·.1)).Nodup
  named : ∀ name c, r.names.lookup name = some c ↔ ∃ d, r.class? c = some d ∧ d.declared = true ∧ d.name = name

theorem intact_empty (maxArity : Nat) : (empty maxArity : Registry Upcast Code).Intact [] := by
  refine ⟨⟨List.nodup_nil, fun d hd => ?_⟩, ⟨fun s hs => ?_, List.nodup_nil, List.nodup_nil, fun f hf => ?_, fun _ _ he => ?_⟩,
    fun d hd => ?_, List.nodup_nil, fun g hg => ?_, .refl _, List.nodup_nil, fun name c => ?_⟩
  · cases hd
  · cases hs
  · cases hf
  · cases he
  · cases hd
  · cases hg
  · constructor
    · intro h
      cases h
    · rintro ⟨d, hd, -⟩
      cases hd

theorem class?_update (c k : Class) {f : ClassDescriptor Upcast → ClassDescriptor Upcast}
    (hcls : ∀ d, (f d).cls = d.cls) :
    (r.update c f).class? k = (r.class? k).map fun d => if d.cls = c then f d else d := by
  unfold class? update
  rw [List.find?_map]
  congr 1
  refine congrArg (List.find? · r.classes) (funext fun d => ?_)
  rw [Function.comp_apply]
  split
  · rw [hcls]
  · rfl

/-- The name index is not affected by a change that keeps the names of the declared classes. -/
theorem named_update (hr : r.Intact filings) {c : Class} {f : ClassDescriptor Upcast → ClassDescriptor Upcast}
    (hcls : ∀ d, (f d).cls = d.cls) (hkeeps : ∀ d, (f d).declared = d.declared ∧ (f d).name = d.name)
    (name : String) (k : Class) :
    r.names.lookup name = some k ↔ ∃ d, (r.update c f).class? k = some d ∧ d.declared = true ∧ d.name = name := by
  rw [hr.named, class?_update c k hcls]
  have hsame (d : ClassDescriptor Upcast) : ((if d.cls = c then f d else d).declared = true ↔ d.declared = true) ∧
      (if d.cls = c then f d else d).name = d.name := by
    split
    · rw [(hkeeps d).1, (hkeeps d).2]
      exact ⟨.rfl, rfl⟩
    · exact ⟨.rfl, rfl⟩
  constructor
  · rintro ⟨d, hd, hdecl, hname⟩
    exact ⟨_, Option.map_eq_some_iff.2 ⟨d, hd, rfl⟩, (hsame d).1.2 hdecl, (hsame d).2.trans hname⟩
  · rintro ⟨e, he, hdecl, hname⟩
    obtain ⟨d, hd, rfl⟩ := Option.map_eq_some_iff.1 he
    exact ⟨d, hd, (hsame d).1.1 hdecl, (hsame d).2.symm.trans hname⟩

/-- Replacing a descriptor by one that holds the same references. -/
theorem Intact.update (hr : r.Intact filings) {c : Class} {f : ClassDescriptor Upcast → ClassDescriptor Upcast}
    (hcls : ∀ d, (f d).cls = d.cls) (hwf : ∀ d, r.class? c = some d → d.WellFormed → (f d).WellFormed)
    (hf : ∀ d, r.class? c = some d → (f d).Intact filings ∧ (f d).refs = d.refs)
    {names : List (String × Class)} {types : TypeRegistry} (hnames : (names.map (·.1)).Nodup)
    (hnamed : ∀ name k, names.lookup name = some k ↔
      ∃ d, (r.update c f).class? k = some d ∧ d.declared = true ∧ d.name = name) :
    ({ r.update c f with names, types } : Registry Upcast Code).Intact filings := by
  have hat {d : ClassDescriptor Upcast} (hd : d ∈ r.classes) (hdc : d.cls = c) : r.class? c = some d := by
    rw [← hdc]
    exact hr.wellFormed.class?_eq hd
  refine ⟨(hr.wellFormed.update c hcls hwf).congr rfl, hr.table, fun e he => ?_, hr.distinct, hr.functions, ?_, hnames,
    hnamed⟩
  · obtain ⟨d, hd, rfl⟩ := List.mem_map.1 he
    split
    · rename_i hdc
      exact (hf d (hat hd hdc)).1
    · exact hr.classes d hd
  · have hsame : (r.update c f).classes.flatMap (·.refs) = r.classes.flatMap (·.refs) := by
      unfold Registry.update
      rw [List.flatMap_map]
      refine List.flatMap_congr fun d hd => ?_
      split
      · rename_i hdc
        exact (hf d (hat hd hdc)).2
      · rfl
    change (((r.update c f).classes.flatMap (·.refs)) ++ r.functions.flatMap (·.refs)).Perm _
    rw [hsame]
    exact hr.refs

theorem Intact.mention (hr : r.Intact filings) (c : Class) (name : String) (size : Nat) :
    (r.mention c name size).Intact filings := by
  by_cases hnew : (r.class? c).isSome
  · rw [Registry.mention, if_pos hnew]
    exact hr
  · have hwf := hr.wellFormed.mention c name size
    rw [Registry.mention, if_neg hnew] at hwf ⊢
    refine ⟨hwf, hr.table, fun d hd => ?_, hr.distinct, hr.functions, ?_, hr.names, fun n k => ?_⟩
    · rcases List.mem_append.1 hd with hd | hd
      · exact hr.classes d hd
      · rw [List.mem_singleton.1 hd]
        exact ClassDescriptor.intact_placeholder c name size
    · have hrefs := hr.refs
      rw [List.flatMap_append]
      simpa [ClassDescriptor.refs, ClassDescriptor.placeholder, OverloadGroup.refs, OverloadGroup.empty] using hrefs
    · rw [hr.named]
      unfold class?
      rw [List.find?_append]
      constructor
      · rintro ⟨d, hd, rest⟩
        exact ⟨d, by rw [hd]; rfl, rest⟩
      · rintro ⟨d, hd, hdecl, hname⟩
        refine ⟨d, ?_, hdecl, hname⟩
        cases hold : r.classes.find? (·.cls = k) with
        | some e =>
          rw [hold] at hd
          exact hd
        | none =>
          rw [hold, Option.none_or, List.find?_singleton] at hd
          split at hd
          · cases hd
            cases hdecl
          · cases hd

/-! ## Declarations -/

theorem mention_names (r : Registry Upcast Code) (c : Class) (name : String) (size : Nat) :
    (r.mention c name size).names = r.names := by
  unfold mention
  split <;> rfl

/-- A class that is mentioned has a descriptor, which is declared if it was before. -/
theorem class?_mention_self (r : Registry Upcast Code) (c : Class) (name : String) (size : Nat) :
    ∃ d, (r.mention c name size).class? c = some d ∧ d.declared = ((r.class? c).map (·.declared)).getD false := by
  cases hold : r.class? c with
  | some d => exact ⟨d, class?_mention hold c name size, rfl⟩
  | none =>
    refine ⟨.placeholder c name size, ?_, rfl⟩
    unfold mention
    rw [hold]
    unfold class? at hold ⊢
    simp [hold, ClassDescriptor.placeholder]

theorem Intact.declareClass (hr : r.Intact filings) {info : TypeInfo} (h : r.declareClass info = .ok r') :
    r'.Intact filings := by
  unfold Registry.declareClass at h
  obtain ⟨-, -, h⟩ := NativeBridge.bind_ok h
  obtain ⟨hname, h⟩ := guard_ok h
  obtain ⟨hblank, h⟩ := guard_ok h
  cases h
  generalize hc : info.token.asClass = c at *
  have hm := hr.mention c info.name info.size
  obtain ⟨d₀, hd₀, hundeclared⟩ := class?_mention_self r c info.name info.size
  rw [Bool.eq_false_iff.2 hblank] at hundeclared
  have hfree : r.names.lookup info.name = none := by
    cases hl : r.names.lookup info.name with
    | none => rfl
    | some k =>
      rw [hl] at hname
      have hk : k = c := by simpa using hname
      obtain ⟨d, hd, hdecl, -⟩ := (hr.named _ _).1 hl
      rw [← hk, hd] at hblank
      exact absurd hdecl hblank
  have hnames := mention_names r c info.name info.size
  refine hm.update (c := c) (f := (·.declare info.name info.size)) (fun _ => rfl) (fun d _ hwf => hwf.declare _ _)
    (fun d hd => ?_) ?_ fun name k => ?_
  · rw [hd₀] at hd
    cases hd
    exact (hm.classes d₀ (class?_mem hd₀).1).declare hundeclared _ _
  · change (((r.mention c info.name info.size).names ++ [(info.name, c)]).map (·.1)).Nodup
    rw [hnames]
    refine nodup_map_concat hr.names fun hmem => ?_
    obtain ⟨p, hp, hpn⟩ := List.mem_map.1 hmem
    have hne := List.lookup_eq_none_iff.1 hfree p hp
    rw [hpn] at hne
    simp at hne
  · change ((r.mention c info.name info.size).names ++ [(info.name, c)]).lookup name = some k ↔ _
    rw [hnames, List.lookup_append, class?_update c k (f := (·.declare info.name info.size)) fun _ => rfl]
    by_cases hn : name = info.name
    · rw [hn, hfree, Option.none_or, List.lookup_cons, beq_self_eq_true]
      constructor
      · intro hk
        cases hk
        have hcls := (class?_mem hd₀).2
        exact ⟨d₀.declare info.name info.size, by rw [hd₀, Option.map_some, if_pos hcls], rfl, rfl⟩
      · rintro ⟨e, he, hdecl, hen⟩
        obtain ⟨d, hd, rfl⟩ := Option.map_eq_some_iff.1 he
        obtain ⟨-, hdk⟩ := class?_mem hd
        by_cases hdc : d.cls = c
        · rw [← hdk, hdc]
        · rw [if_neg hdc] at hdecl hen
          have hl := (hm.named info.name k).2 ⟨d, hd, hdecl, hen⟩
          rw [hnames, hfree] at hl
          cases hl
    · have hskip : List.lookup name [(info.name, c)] = none := by
        rw [List.lookup_cons, beq_eq_false_iff_ne.2 hn]
        rfl
      rw [hskip, Option.or_none, ← hnames, hm.named]
      constructor
      · rintro ⟨d, hd, hdecl, hdn⟩
        have hdc : d.cls ≠ c := by
          rintro rfl
          rw [← (class?_mem hd).2, hd₀] at hd
          cases hd
          rw [hundeclared] at hdecl
          cases hdecl
        exact ⟨d, by rw [hd, Option.map_some, if_neg hdc], hdecl, hdn⟩
      · rintro ⟨e, he, hdecl, hen⟩
        obtain ⟨d, hd, rfl⟩ := Option.map_eq_some_iff.1 he
        by_cases hdc : d.cls = c
        · rw [if_pos hdc] at hen
          exact absurd hen.symm hn
        · rw [if_neg hdc] at hdecl hen
          exact ⟨d, hd, hdecl, hen⟩

theorem addSuper_keeps (d : ClassDescriptor Upcast) (base : Class) (upcast : Upcast) :
    (d.addSuper base upcast).cls = d.cls ∧ (d.addSuper base upcast).declared = d.declared ∧
      (d.addSuper base upcast).name = d.name := by
  unfold ClassDescriptor.addSuper
  split <;> exact ⟨rfl, rfl, rfl⟩

theorem Intact.declareSuper (hr : r.Intact filings) {derived : Class} {base : TypeInfo} {upcast : Upcast}
    (h : r.declareSuper derived base upcast = .ok r') : r'.Intact filings := by
  unfold Registry.declareSuper at h
  obtain ⟨-, -, h⟩ := NativeBridge.bind_ok h
  obtain ⟨d, hd, h⟩ := NativeBridge.bind_ok h
  obtain ⟨-, h⟩ := guard_ok h
  cases h
  obtain ⟨hfind, hdecl⟩ := declared_ok hd
  have hm := hr.mention base.token.asClass base.name base.size
  refine hm.update (fun d => (addSuper_keeps d _ _).1) (fun e he hwf => ?_)
    (fun d hd => (hm.classes d (class?_mem hd).1).addSuper _ _) hm.names
    (named_update hm (fun d => (addSuper_keeps d _ _).1) fun d => (addSuper_keeps d _ _).2)
  rw [class?_mention hfind] at he
  cases he
  exact hwf.addSuper hdecl _ _

theorem Intact.declareValueType (hr : r.Intact filings) {c : Class} (h : r.declareValueType c = .ok r') :
    r'.Intact filings := by
  unfold Registry.declareValueType at h
  obtain ⟨-, -, h⟩ := NativeBridge.bind_ok h
  obtain ⟨-, -, h⟩ := NativeBridge.bind_ok h
  cases h
  refine hr.update (f := fun d => { d with valueType := true }) (fun _ => rfl)
    (fun d _ hwf => ⟨hwf.supers, hwf.keys, hwf.blank⟩) (fun d hd => ⟨?_, rfl⟩) hr.names
    (named_update hr (fun _ => rfl) fun _ => ⟨rfl, rfl⟩)
  have hi := hr.classes d (class?_mem hd).1
  exact ⟨hi.titled, hi.keyed, hi.blank, hi.constructors, hi.members⟩

/-- Closing a registry changes no reference. -/
theorem Intact.finalize (hr : r.Intact filings) (h : r.finalize = .ok r') : r'.Intact filings := by
  unfold Registry.finalize at h
  obtain ⟨-, -, h⟩ := NativeBridge.bind_ok h
  obtain ⟨_, -, h⟩ := NativeBridge.bind_ok h
  cases h
  have hfind (c : Class) : (r.classes.map (·.markReady)).find? (·.cls = c) = (r.class? c).map (·.markReady) := by
    rw [List.find?_map]
    rfl
  refine ⟨⟨?_, fun e he => ?_⟩, hr.table, fun e he => ?_, ?_, fun g hg => ?_, ?_, hr.names, fun name k => ?_⟩
  · rw [List.map_map]
    exact hr.wellFormed.nodup
  · obtain ⟨d, hd, rfl⟩ := List.mem_map.1 he
    have hwf := hr.wellFormed.descriptors d hd
    refine ⟨hwf.supers, ?_, fun h => ⟨(hwf.blank h).1, ?_⟩⟩
    · change ((d.members.map _).map _).Nodup
      rw [List.map_map]
      exact hwf.keys
    · change d.members.map _ = []
      rw [(hwf.blank h).2]
      rfl
  · obtain ⟨d, hd, rfl⟩ := List.mem_map.1 he
    exact (hr.classes d hd).markReady.1
  · rw [List.map_map]
    exact hr.distinct
  · obtain ⟨g', hg', rfl⟩ := List.mem_map.1 hg
    exact ⟨(hr.functions g' hg').ascending, (hr.functions g' hg').filed⟩
  · have hclasses : (r.classes.map (·.markReady)).flatMap (·.refs) = r.classes.flatMap (·.refs) := by
      rw [List.flatMap_map]
      exact List.flatMap_congr fun d hd => (hr.classes d hd).markReady.2
    have hfunctions : (r.functions.map (·.freeze)).flatMap (·.refs) = r.functions.flatMap (·.refs) := by
      rw [List.flatMap_map]
      rfl
    change ((r.classes.map (·.markReady)).flatMap (·.refs) ++ (r.functions.map (·.freeze)).flatMap (·.refs)).Perm _
    rw [hclasses, hfunctions]
    exact hr.refs
  · change r.names.lookup name = some k ↔ ∃ d, (r.classes.map (·.markReady)).find? (·.cls = k) = some d ∧ _
    rw [hr.named, hfind]
    constructor
    · rintro ⟨d, hd, hdecl, hname⟩
      exact ⟨d.markReady, by rw [hd]; rfl, hdecl, hname⟩
    · rintro ⟨e, he, hdecl, hname⟩
      obtain ⟨d, hd, rfl⟩ := Option.map_eq_some_iff.1 he
      exact ⟨d, hd, hdecl, hname⟩

/-- The group of a declared entry as it was before, and what registering made of it. -/
theorem registerEntry_ok {group group' : OverloadGroup} {shape : CallShape} {entry : SignatureEntry Code} {ref : EntryRef}
    (h : r.registerEntry group shape entry = .ok (ref, group', r')) :
    group.overload? shape.arity = none ∧ ref = (r.signatures.register shape entry).1 ∧
    group' = { group with overloads := OverloadGroup.insertAt shape.arity ref group.overloads } ∧
    r' = { r with signatures := (r.signatures.register shape entry).2, types := r.types.registerAll shape.describe } := by
  unfold registerEntry at h
  obtain ⟨hfrozen, h⟩ := guard_ok h
  obtain ⟨hnone, h⟩ := guard_ok h
  obtain ⟨g, hg, h⟩ := NativeBridge.bind_ok h
  cases h
  rw [OverloadGroup.insert, if_neg hfrozen, if_neg hnone] at hg
  cases hg
  exact ⟨Option.not_isSome_iff_eq_none.1 hnone, rfl, rfl, rfl⟩

/-- A filed entry in a group of a class. -/
theorem Intact.fileInClass (hr : r.Intact filings) {d : ClassDescriptor Upcast} (hd : r.class? d.cls = some d)
    {f : ClassDescriptor Upcast → ClassDescriptor Upcast} {h : Holder} {shape : CallShape} {entry : SignatureEntry Code}
    {types : TypeRegistry} (hcls : ∀ d, (f d).cls = d.cls)
    (hkeeps : ∀ d, (f d).declared = d.declared ∧ (f d).name = d.name) (hwf : d.WellFormed → (f d).WellFormed)
    (hf : (f d).Intact (filings ++ [⟨h, shape, entry, (r.signatures.register shape entry).1⟩]))
    (hrefs : (f d).refs.Perm ((r.signatures.register shape entry).1 :: d.refs)) :
    (({ r with signatures := (r.signatures.register shape entry).2, types } : Registry Upcast Code).update d.cls f).Intact
      (filings ++ [⟨h, shape, entry, (r.signatures.register shape entry).1⟩]) := by
  have hat {e : ClassDescriptor Upcast} (he : e ∈ r.classes) (hed : e.cls = d.cls) : e = d := by
    have := hr.wellFormed.class?_eq he
    rw [hed, hd] at this
    exact (Option.some.inj this).symm
  have hwfs : (r.update d.cls f).WellFormed := hr.wellFormed.update d.cls hcls fun e he hwe => by
    rw [hd] at he
    cases he
    exact hwf hwe
  refine ⟨hwfs.congr rfl, hr.table.register h shape entry, fun e he => ?_, hr.distinct, fun g hg => ?_, ?_,
    hr.names, named_update hr hcls hkeeps⟩
  · obtain ⟨e', he', rfl⟩ := List.mem_map.1 he
    split
    · rename_i hed
      rw [hat he' hed]
      exact hf
    · exact (hr.classes e' he').mono (List.subset_append_left _ _)
  · exact (hr.functions g hg).mono (List.subset_append_left _ _)
  · have hone := perm_flatMap_update (k := ClassDescriptor.cls) hrefs hr.wellFormed.nodup (class?_mem hd).1
    refine (hone.append_right _).trans ((hr.refs.cons _).trans ?_)
    rw [List.map_append]
    exact (List.perm_append_singleton _ _).symm

theorem Intact.declareConstructor (hr : r.Intact filings) {c : Class} {flags : TypeFlags} {shape : CallShape}
    {id : NameHash} {code : Code} {ref : EntryRef} (h : r.declareConstructor c flags shape id code = .ok (ref, r')) :
    r'.Intact (filings ++
      [⟨.constructors c, shape, ⟨r.groupName (.constructors c), flags.union .static, id, code⟩, ref⟩]) := by
  unfold Registry.declareConstructor at h
  obtain ⟨-, -, h⟩ := NativeBridge.bind_ok h
  obtain ⟨d, hd, h⟩ := NativeBridge.bind_ok h
  obtain ⟨-, -, h⟩ := NativeBridge.bind_ok h
  obtain ⟨⟨ref', group, s⟩, hs, h⟩ := NativeBridge.bind_ok h
  cases h
  obtain ⟨hfind, hdecl⟩ := declared_ok hd
  obtain ⟨hmem, rfl⟩ := class?_mem hfind
  obtain ⟨hnone, rfl, hgroup, rfl⟩ := registerEntry_ok hs
  have hname : r.groupName (.constructors d.cls) = d.name := by
    rw [groupName, hfind]
    rfl
  rw [hname]
  have hi := hr.classes d hmem
  obtain ⟨hbacked, hrefs⟩ := hi.constructors.insert (e := ⟨d.name, flags.union .static, id, code⟩)
    hi.titled.symm hnone hgroup
  refine hr.fileInClass hfind (fun _ => rfl) (fun _ => ⟨rfl, rfl⟩) (fun hwf => ⟨hwf.supers, hwf.keys, hwf.blank⟩)
    ⟨?_, hi.keyed, fun hblank => ?_, hbacked, fun m hm => (hi.members m hm).mono (List.subset_append_left _ _)⟩
    (hrefs.append_right _)
  · rw [hgroup]
    exact hi.titled
  · change d.declared = false at hblank
    rw [hdecl] at hblank
    cases hblank

theorem setGroup_keeps (d : ClassDescriptor Upcast) (key : GroupKey) (g : OverloadGroup) :
    ((d.withGroup key).setGroup key g).cls = d.cls ∧ ((d.withGroup key).setGroup key g).declared = d.declared ∧
      ((d.withGroup key).setGroup key g).name = d.name := by
  unfold ClassDescriptor.withGroup
  split <;> exact ⟨rfl, rfl, rfl⟩

theorem Intact.declareMember (hr : r.Intact filings) {c : Class} {key : GroupKey} {flags : TypeFlags} {shape : CallShape}
    {id : NameHash} {code : Code} {ref : EntryRef} (h : r.declareMember c key flags shape id code = .ok (ref, r')) :
    r'.Intact (filings ++
      [⟨.member c key, shape, ⟨key.name, flags.union (Holder.member c key).flags, id, code⟩, ref⟩]) := by
  unfold Registry.declareMember at h
  obtain ⟨-, -, h⟩ := NativeBridge.bind_ok h
  obtain ⟨d, hd, h⟩ := NativeBridge.bind_ok h
  obtain ⟨-, -, h⟩ := NativeBridge.bind_ok h
  obtain ⟨⟨ref', group, s⟩, hs, h⟩ := NativeBridge.bind_ok h
  cases h
  obtain ⟨hfind, hdecl⟩ := declared_ok hd
  obtain ⟨hmem, rfl⟩ := class?_mem hfind
  obtain ⟨hnone, rfl, hgroup, rfl⟩ := registerEntry_ok hs
  have hi := hr.classes d hmem
  have hmember := d.mem_withGroup key
  have hname : ((d.group? key).getD (.empty key.name (.cls d.cls))).name = key.name := (hi.withGroup key).1.keyed _ hmember
  have hcls : (d.withGroup key).cls = d.cls := (setGroup_keeps d key group).1
  have hold := (hi.withGroup key).1.members _ hmember
  rw [hcls] at hold
  obtain ⟨hbacked, hrefs⟩ := hold.insert (e := ⟨key.name, _, id, code⟩) hname.symm hnone hgroup
  have hset := (hi.mono (List.subset_append_left filings _)).setGroup (hr.wellFormed.descriptors d hmem).keys
    (by rw [hgroup]; exact hname) hbacked hrefs
  exact hr.fileInClass hfind (fun d => (setGroup_keeps d _ _).1) (fun d => (setGroup_keeps d _ _).2)
    (fun hwf => hwf.setGroup hdecl _ _) hset.1 hset.2

theorem functionGroup?_eq_some {name : String} {g : OverloadGroup} (h : r.functionGroup? name = some g) :
    g ∈ r.functions ∧ g.name = name :=
  ⟨List.mem_of_find?_eq_some h, by simpa using List.find?_some h⟩

/-- A group of functions that got one reference more, in its old place or as a new group. -/
theorem setFunctionGroup_spec (hdistinct : (r.functions.map (·.name)).Nodup) {group : OverloadGroup} {ref : EntryRef}
    (hrefs : group.refs.Perm (ref :: ((r.functionGroup? group.name).getD (.empty group.name .global)).refs)) :
    ∃ functions, r.setFunctionGroup group = { r with functions := functions } ∧ (functions.map (·.name)).Nodup ∧
      (∀ g ∈ functions, g = group ∨ g ∈ r.functions) ∧
      (functions.flatMap (·.refs)).Perm (ref :: r.functions.flatMap (·.refs)) := by
  unfold setFunctionGroup
  cases hfind : r.functionGroup? group.name with
  | none =>
    rw [hfind] at hrefs
    refine ⟨r.functions ++ [group], if_neg Bool.false_ne_true, nodup_map_concat hdistinct fun hmem => ?_, fun g hg => ?_, ?_⟩
    · obtain ⟨g, hg, hgn⟩ := List.mem_map.1 hmem
      have hother := List.find?_eq_none.1 hfind g hg
      simp [hgn] at hother
    · rcases List.mem_append.1 hg with hg | hg
      · exact .inr hg
      · exact .inl (List.mem_singleton.1 hg)
    · rw [List.flatMap_append, List.flatMap_singleton]
      exact (hrefs.append_left _).trans (List.perm_append_singleton _ _)
  | some g =>
    rw [hfind] at hrefs
    obtain ⟨hmem, hname⟩ := functionGroup?_eq_some hfind
    refine ⟨r.functions.map fun e => if e.name = group.name then group else e, if_pos rfl, ?_, fun e he => ?_, ?_⟩
    · rw [List.map_map]
      refine (congrArg List.Nodup (List.map_congr_left fun e _ => ?_)).mpr hdistinct
      rw [Function.comp_apply]
      split
      · rename_i he
        exact he.symm
      · rfl
    · obtain ⟨e', he', rfl⟩ := List.mem_map.1 he
      split
      · exact .inl rfl
      · exact .inr he'
    · rw [← hname]
      exact perm_flatMap_update (k := OverloadGroup.name) (f := fun _ => group) hrefs hdistinct hmem

theorem Intact.declareFunction (hr : r.Intact filings) {name : String} {flags : TypeFlags} {shape : CallShape}
    {id : NameHash} {code : Code} {ref : EntryRef} (h : r.declareFunction name flags shape id code = .ok (ref, r')) :
    r'.Intact (filings ++ [⟨.function name, shape, ⟨name, flags.union .static, id, code⟩, ref⟩]) := by
  unfold Registry.declareFunction at h
  obtain ⟨-, -, h⟩ := NativeBridge.bind_ok h
  obtain ⟨-, -, h⟩ := NativeBridge.bind_ok h
  obtain ⟨⟨ref', group, s⟩, hs, h⟩ := NativeBridge.bind_ok h
  cases h
  obtain ⟨hnone, rfl, hgroup, rfl⟩ := registerEntry_ok hs
  have hold : ((r.functionGroup? name).getD (.empty name .global)).Backed filings (.function name) ∧
      ((r.functionGroup? name).getD (.empty name .global)).name = name := by
    cases hfind : r.functionGroup? name with
    | none => exact ⟨OverloadGroup.backed_empty _ _, rfl⟩
    | some g =>
      obtain ⟨hmem, rfl⟩ := functionGroup?_eq_some hfind
      exact ⟨hr.functions g hmem, rfl⟩
  obtain ⟨hbacked, hrefs⟩ := hold.1.insert (e := ⟨name, flags.union .static, id, code⟩) hold.2.symm hnone hgroup
  obtain rfl : name = group.name := by
    rw [hgroup]
    exact hold.2.symm
  obtain ⟨functions, hfunctions, hnodup, hmem, hperm⟩ := setFunctionGroup_spec
    (r := { r with signatures := (r.signatures.register shape ⟨group.name, flags.union .static, id, code⟩).2,
                   types := r.types.registerAll shape.describe }) hr.distinct hrefs
  rw [hfunctions]
  refine ⟨hr.wellFormed.congr rfl, hr.table.register _ _ _,
    fun d hd => (hr.classes d hd).mono (List.subset_append_left _ _), hnodup, fun g hg => ?_, ?_, hr.names, hr.named⟩
  · rcases hmem g hg with rfl | hg
    · exact hbacked
    · exact (hr.functions g hg).mono (List.subset_append_left _ _)
  · have hall := (hperm.append_left (r.classes.flatMap (·.refs))).trans List.perm_middle
    refine hall.trans ((hr.refs.cons _).trans ?_)
    rw [List.map_append]
    exact (List.perm_append_singleton _ _).symm

/-! ## Runs -/

theorem toOption_getD_or (x : Except RegistrationError (Registry Upcast Code)) (r : Registry Upcast Code) :
    x.toOption.getD r = r ∨ x = .ok (x.toOption.getD r) := by
  cases x with
  | error e => exact .inl rfl
  | ok r' => exact .inr rfl

theorem Intact.step (hr : r.Intact filings) (op : Operation Upcast Code) :
    (r.step op).1.Intact (filings ++ (r.step op).2) := by
  have hkept {x : Except RegistrationError (Registry Upcast Code)} (hx : ∀ r', x = .ok r' → r'.Intact filings) :
      (x.toOption.getD r).Intact (filings ++ []) := by
    rw [List.append_nil]
    rcases toOption_getD_or x r with h | h
    · rw [h]
      exact hr
    · exact hx _ h
  cases op with
  | cls info => exact hkept fun _ => hr.declareClass
  | super derived base upcast => exact hkept fun _ => hr.declareSuper
  | valueType c => exact hkept fun _ => hr.declareValueType
  | finalize => exact hkept fun _ => hr.finalize
  | entry h flags shape id code =>
    cases hentry : r.declareEntry h flags shape id code with
    | error e =>
      simp only [Registry.step, hentry, List.append_nil]
      exact hr
    | ok p =>
      simp only [Registry.step, hentry]
      cases h with
      | constructors c => exact hr.declareConstructor hentry
      | member c key => exact hr.declareMember hentry
      | function name => exact hr.declareFunction hentry

/-- **Every registry is intact**, whatever was asked of it. -/
theorem Intact.run (ops : List (Operation Upcast Code)) : ∀ {r : Registry Upcast Code} {filings : List (Filing Code)},
    r.Intact filings → (r.run ops).1.Intact (filings ++ (r.run ops).2) := by
  induction ops with
  | nil =>
    intro r filings hr
    rw [Registry.run, List.append_nil]
    exact hr
  | cons op ops ih =>
    intro r filings hr
    rw [Registry.run, ← List.append_assoc]
    exact ih (hr.step op)

theorem run_intact (maxArity : Nat) (ops : List (Operation Upcast Code)) :
    ((empty maxArity).run ops).1.Intact ((empty maxArity).run ops).2 :=
  (intact_empty maxArity).run ops

/-- Functions of one shape share a signature, and a closed registry takes no more. -/
example : ((empty 16 : Registry Unit Unit).run
    [.entry (.function "f") .none (.function [] .unit) ⟨0⟩ (), .entry (.function "g") .none (.function [] .unit) ⟨0⟩ (),
     .entry (.function "f") .none (.function [] .unit) ⟨0⟩ (), .finalize,
     .entry (.function "h") .none (.function [] .unit) ⟨0⟩ ()]).2.map (·.ref) = [⟨0, 0⟩, ⟨0, 1⟩] := by
  rfl

/-! ## What an intact registry tells -/

theorem Intact.backed (hr : r.Intact filings) {h : Holder} {g : OverloadGroup} (hg : (h, g) ∈ r.groups) :
    g.Backed filings h := by
  rcases List.mem_append.1 hg with hg | hg
  · obtain ⟨d, hd, hg⟩ := List.mem_flatMap.1 hg
    rcases List.mem_cons.1 hg with hg | hg
    · cases hg
      exact (hr.classes d hd).constructors
    · obtain ⟨m, hm, heq⟩ := List.mem_map.1 hg
      cases heq
      exact (hr.classes d hd).members m hm
  · obtain ⟨g', hg', heq⟩ := List.mem_map.1 hg
    cases heq
    exact hr.functions _ hg'

/-- What a group holds for a number of arguments is an entry of its name, under a signature with that many arguments
which is strict if the entry is. -/
theorem Intact.resolves (hr : r.Intact filings) {h : Holder} {g : OverloadGroup} (hg : (h, g) ∈ r.groups) {n : Nat}
    {ref : EntryRef} (hmem : (n, ref) ∈ g.overloads) : ∃ s e, r.signatures.entry? ref = some (s, e) ∧ s.arity = n ∧
      e.name = g.name ∧ s.key.strict = e.flags.contains .strict := by
  obtain ⟨f, hf, rfl, -, harity, hname⟩ := (hr.backed hg).filed n ref hmem
  obtain ⟨s, hs, hkey⟩ := SignatureTable.keyed_eq_some.1 (hr.table.found f hf)
  exact ⟨s, f.entry, hs, (hr.table.arity_eq hs hkey).trans harity, hname, by rw [hkey]; rfl⟩

/-- The class whose group it is. -/
def Holder.cls? : Holder → Option Class
  | .constructors c => some c
  | .member c _ => some c
  | .function _ => none

/-- No two groups have the same place. -/
theorem Intact.nodup_groups (hr : r.Intact filings) : (r.groups.map (·.1)).Nodup := by
  have hclass {d : ClassDescriptor Upcast} {h : Holder} (hh : h ∈ d.groups.map (·.1)) : h.cls? = some d.cls := by
    obtain ⟨p, hp, rfl⟩ := List.mem_map.1 hh
    rcases List.mem_cons.1 hp with rfl | hp
    · rfl
    · obtain ⟨m, -, rfl⟩ := List.mem_map.1 hp
      rfl
  have hmember (d : ClassDescriptor Upcast) : Function.Injective (Holder.member d.cls) := fun a b hab => by
    cases hab
    rfl
  have hfunction : Function.Injective Holder.function := fun a b hab => by
    cases hab
    rfl
  rw [groups, List.map_append, List.map_flatMap, List.nodup_append, List.nodup_flatMap]
  refine ⟨⟨fun d hd => ?_, ?_⟩, ?_, fun h hh h' hh' heq => ?_⟩
  · rw [ClassDescriptor.groups, List.map_cons, List.nodup_cons]
    have hkeys := (hr.wellFormed.descriptors d hd).keys.map (hmember d)
    rw [List.map_map] at hkeys ⊢
    refine ⟨fun hmem => ?_, hkeys⟩
    obtain ⟨m, -, heq⟩ := List.mem_map.1 hmem
    cases heq
  · refine (List.pairwise_map.1 hr.wellFormed.nodup).imp fun {d e} hne h hh hh' => hne ?_
    exact Option.some.inj ((hclass hh).symm.trans (hclass hh'))
  · have hnames := hr.distinct.map hfunction
    rw [List.map_map] at hnames ⊢
    exact hnames
  · obtain ⟨d, -, hh⟩ := List.mem_flatMap.1 hh
    obtain ⟨p, hp, rfl⟩ := List.mem_map.1 hh'
    obtain ⟨g, -, rfl⟩ := List.mem_map.1 hp
    have hcls := hclass hh
    rw [heq] at hcls
    cases hcls

/-- The groups hold the references of the signature table, each once. -/
theorem Intact.mem_refs (hr : r.Intact filings) (ref : EntryRef) :
    r.refs.Nodup ∧ (ref ∈ r.refs ↔ ∃ s e, r.signatures.entry? ref = some (s, e)) := by
  rw [refs_eq, hr.refs.nodup_iff, hr.refs.mem_iff]
  refine ⟨hr.table.distinct, fun hmem => ?_, fun ⟨s, e, hs⟩ => ?_⟩
  · obtain ⟨f, hf, rfl⟩ := List.mem_map.1 hmem
    obtain ⟨s, hs, -⟩ := SignatureTable.keyed_eq_some.1 (hr.table.found f hf)
    exact ⟨s, f.entry, hs⟩
  · obtain ⟨f, hf, rfl⟩ := hr.table.filing ref (s.key, e) (SignatureTable.keyed_eq_some.2 ⟨s, hs, rfl⟩)
    exact List.mem_map_of_mem hf

theorem group?_mem {t : TagTarget} {g : OverloadGroup} (h : r.group? t = some g) : g ∈ r.groups.map (·.2) := by
  have hof {d : ClassDescriptor Upcast} {p : Holder × OverloadGroup} (hd : d ∈ r.classes) (hp : p ∈ d.groups) :
      p.2 ∈ r.groups.map (·.2) :=
    List.mem_map_of_mem (List.mem_append_left _ (List.mem_flatMap.2 ⟨d, hd, hp⟩))
  cases t with
  | constructor c =>
    obtain ⟨d, hd, rfl⟩ := Option.map_eq_some_iff.1 h
    exact hof (class?_mem hd).1 (p := (.constructors d.cls, d.constructors)) List.mem_cons_self
  | member c i =>
    obtain ⟨d, hd, hi⟩ := Option.bind_eq_some_iff.1 h
    obtain ⟨m, hm, rfl⟩ := Option.map_eq_some_iff.1 hi
    exact hof (class?_mem hd).1 (p := (.member d.cls m.key, m.group))
      (List.mem_cons_of_mem _ (List.mem_map_of_mem (List.mem_of_getElem? hm)))
  | function i =>
    have hmem : g ∈ r.functions := List.mem_of_getElem? h
    exact List.mem_map_of_mem (f := Prod.snd) (a := (Holder.function g.name, g))
      (List.mem_append_right _ (List.mem_map_of_mem hmem))
  | release c => cases h

end Registry

theorem Signature.firstRefused_eq_some {x : CallError} : ∀ {ts : List NativeType} {ws : List Wire} {i : Nat},
    firstRefused ts ws i = some x → ∃ expected found j, x = .typeMismatch expected found (some j)
  | [], ws, i, h => by simp [firstRefused] at h
  | t :: ts, [], i, h => by simp [firstRefused] at h
  | t :: ts, w :: ws, i, h => by
    rw [firstRefused] at h
    split at h
    · exact firstRefused_eq_some h
    · cases h
      exact ⟨_, _, _, rfl⟩

/-- Where the number of arguments is right a check fails for the type of one of them. -/
theorem Signature.checkArgs_eq_error {Code : Type} {s : Signature Code} {args : List Wire} {x : CallError}
    (hlength : s.args.length = args.length) (h : s.checkArgs args = .error x) :
    ∃ expected found i, x = .typeMismatch expected found (some i) := by
  rw [checkArgs, if_neg (not_not.2 hlength.symm)] at h
  cases hrefused : firstRefused s.args args 0 with
  | none =>
    rw [hrefused] at h
    cases h
  | some y =>
    rw [hrefused] at h
    cases h
    exact firstRefused_eq_some hrefused

namespace Environment
variable {Ω : Type} [ObjectModel Ω]

/-- A call whose arguments have an overload finds an entry of the group's name, under a signature with as many arguments,
and goes on to its checks and its code. -/
theorem dispatch_backed {env : Environment Ω} {filings : List (Filing (Code Ω))} (hr : env.registry.Intact filings)
    (services : Nat → Services Ω) {h : Holder} {g : OverloadGroup} (hg : (h, g) ∈ env.registry.groups) {b : Boundary Ω}
    {ref : EntryRef} (href : g.resolve b.call.args.length = .ok ref) :
    ∃ s e, env.registry.entry ref = .ok (s, e) ∧ s.args.length = b.call.args.length ∧ e.name = g.name ∧
      (∀ x, s.checkArgs b.call.args = .error x → ∃ expected found i, x = .typeMismatch expected found (some i)) ∧
      env.dispatch services g b = (do
        Act.ofExcept (do
          if s.key.strict || env.config.isOn .strictTypeChecks || !g.isSingle then s.checkArgs b.call.args
          checkConst b e.name e.flags)
        env.finish services e.code : Act Ω Wire) b := by
  have hmem : (b.call.args.length, ref) ∈ g.overloads := by
    obtain ⟨before, after, heq, -⟩ := List.lookup_eq_some_iff.1 (OverloadGroup.resolve_ok.1 href)
    rw [heq]
    exact List.mem_append_right _ List.mem_cons_self
  obtain ⟨s, e, hs, harity, hname, -⟩ := hr.resolves hg hmem
  have hentry : env.registry.entry ref = .ok (s, e) := by rw [Registry.entry, hs]
  refine ⟨s, e, hentry, harity, hname, fun x => Signature.checkArgs_eq_error harity, ?_⟩
  have hselect : env.select g b = ((do
      if s.key.strict || env.config.isOn .strictTypeChecks || !g.isSingle then s.checkArgs b.call.args
      checkConst b e.name e.flags) >>= fun _ => .ok e) := by
    rw [select, href]
    change (env.registry.entry ref >>= _) = _
    rw [hentry]
    change (if _ then _ else _) = (if _ then _ else _) >>= _
    split
    · cases s.checkArgs b.call.args <;> rfl
    · rfl
  rw [dispatch_eq, hselect, Act.ofExcept_bind, bind_assoc]
  rfl

/-- **Referential integrity.** Whatever is asked of a new registry:

* what a group holds for a number of arguments is an entry of the group's name, under a signature with that many arguments,
  which is strict if the entry is;
* no two groups have the same place and no group holds two entries for one number of arguments; the groups hold the
  references of the signature table, each once, and these are the references that accepted declarations returned;
* two declarations share a signature exactly if receiver, result and argument tokens and strictness are the same;
* a returned reference leads to the declared entry, whatever is asked later;
* a name leads to the declared class of that name, and no name is listed twice;
* a call that found an overload finds its entry, and is never refused for the number of its arguments. -/
theorem registry_integrity (maxArity : Nat) (ops : List (Registry.Operation (Upcast Ω) (Code Ω))) :
    let r := ((Registry.empty maxArity).run ops).1
    let filings := ((Registry.empty maxArity).run ops).2
    (∀ h g, (h, g) ∈ r.groups → ∀ n ref, (n, ref) ∈ g.overloads → ∃ s e, r.signatures.entry? ref = some (s, e) ∧
      s.arity = n ∧ e.name = g.name ∧ s.key.strict = e.flags.contains .strict) ∧
    ((r.groups.map (·.1)).Nodup ∧ (∀ h g, (h, g) ∈ r.groups → (g.overloads.map (·.1)).Nodup) ∧ r.refs.Nodup ∧
      (∀ ref, ref ∈ r.refs ↔ ∃ s e, r.signatures.entry? ref = some (s, e)) ∧ r.refs.Perm (filings.map (·.ref))) ∧
    (∀ f ∈ filings, ∀ g ∈ filings, f.ref.signature = g.ref.signature ↔ f.key = g.key) ∧
    (∀ f ∈ filings, ∀ later, let r' := ((Registry.empty maxArity).run (ops ++ later)).1
      ∃ s, r'.signatures.entry? f.ref = some (s, f.entry) ∧ s.key = f.key) ∧
    ((r.names.map (·.1)).Nodup ∧ ∀ name c, r.names.lookup name = some c ↔
      ∃ d ∈ r.classes, d.cls = c ∧ d.declared = true ∧ d.name = name) ∧
    (∀ t g, r.group? t = some g → ∃ h, (h, g) ∈ r.groups) ∧
    ∀ env : Environment Ω, env.registry = r → ∀ (services : Nat → Services Ω) (h : Holder) (g : OverloadGroup),
      (h, g) ∈ r.groups → ∀ (b : Boundary Ω) (ref : EntryRef), g.resolve b.call.args.length = .ok ref →
        ∃ s e, r.entry ref = .ok (s, e) ∧ s.args.length = b.call.args.length ∧ e.name = g.name ∧
          (∀ x, s.checkArgs b.call.args = .error x → ∃ expected found i, x = .typeMismatch expected found (some i)) ∧
          env.dispatch services g b = (do
            Act.ofExcept (do
              if s.key.strict || env.config.isOn .strictTypeChecks || !g.isSingle then s.checkArgs b.call.args
              checkConst b e.name e.flags)
            env.finish services e.code : Act Ω Wire) b := by
  intro r filings
  have hr : r.Intact filings := Registry.run_intact maxArity ops
  refine ⟨fun h g hg n ref => hr.resolves hg, ⟨hr.nodup_groups, fun h g hg => ?_, (hr.mem_refs default).1,
    fun ref => (hr.mem_refs ref).2, ?_⟩, fun f hf g hg => hr.table.signature_eq_iff hf hg, fun f hf later => ?_,
    ⟨hr.names, fun name c => ?_⟩, fun t g ht => ?_, fun env henv services h g hg b ref href => ?_⟩
  · exact List.pairwise_map.2 ((hr.backed hg).ascending.imp fun hlt => Nat.ne_of_lt hlt)
  · rw [Registry.refs_eq]
    exact hr.refs
  · have hlater := Registry.run_intact maxArity (ops ++ later)
    have hrun := Registry.run_append ops later (Registry.empty maxArity)
    refine SignatureTable.keyed_eq_some.1 (hlater.table.found f ?_)
    rw [hrun]
    exact List.mem_append_left _ hf
  · rw [hr.named]
    constructor
    · rintro ⟨d, hd, hdecl, hname⟩
      obtain ⟨hmem, hcls⟩ := Registry.class?_mem hd
      exact ⟨d, hmem, hcls, hdecl, hname⟩
    · rintro ⟨d, hmem, rfl, hdecl, hname⟩
      exact ⟨d, hr.wellFormed.class?_eq hmem, hdecl, hname⟩
  · obtain ⟨p, hp, rfl⟩ := List.mem_map.1 (Registry.group?_mem ht)
    exact ⟨p.1, hp⟩
  · rw [← henv] at hr hg ⊢
    exact dispatch_backed hr services hg href

end Environment
end NativeBridge
