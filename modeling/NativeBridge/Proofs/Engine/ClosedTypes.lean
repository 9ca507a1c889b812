import NativeBridge.Proofs.Engine.Recorded
/-!
# The type registry is closed

A type describes its parts before itself, so whatever shapes are registered, and in whatever order, the parts of a
registered type come before it (`TypeRegistry.PartsFirst`). The one way around that is the declaration of a class, which
registers the metadata that it is given and describes nothing. Every type of a filed entry is registered, each type
once, and what is registered stays as it is (`types_closed`).
-/
namespace NativeBridge

/-- The types that the metadata of a type refers to. -/
def TypeCategory.parts : TypeCategory → List NativeType
  | .vector item | .fixedArray item _ | .optional item => [item]
  | .handle cls _ => [.object cls]
  | _ => []

namespace TypeRegistry
variable {r : TypeRegistry}

/-! ## Registering -/

theorem registerAll_append (r : TypeRegistry) (infos later : List TypeInfo) :
    r.registerAll (infos ++ later) = (r.registerAll infos).registerAll later :=
  List.foldl_append

theorem contains_iff {t : NativeType} : r.contains t = true ↔ t ∈ r.infos.map (·.token) := by
  rw [contains, lookup?, List.find?_isSome, List.mem_map]
  simp only [decide_eq_true_eq]

theorem tokens_register (r : TypeRegistry) (i : TypeInfo) :
    (r.register i).infos.map (·.token) = addOnce (r.infos.map (·.token)) i.token := by
  unfold register addOnce
  by_cases hold : r.contains i.token = true
  · rw [if_pos hold, if_pos (contains_iff.1 hold)]
  · rw [if_neg hold, if_neg (mt contains_iff.2 hold), List.map_append]
    rfl

theorem contains_registerAll {t : NativeType} (infos : List TypeInfo) :
    (r.registerAll infos).contains t = true ↔ r.contains t = true ∨ ∃ i ∈ infos, i.token = t := by
  induction infos generalizing r with
  | nil => simp [registerAll]
  | cons i rest ih =>
    change ((r.register i).registerAll rest).contains t = true ↔ _
    have hone : (r.register i).contains t = true ↔ r.contains t = true ∨ i.token = t := by
      rw [contains_iff, contains_iff, tokens_register, addOnce]
      split
      · rename_i hold
        exact ⟨.inl, fun h => h.elim id fun heq => heq ▸ hold⟩
      · rw [List.mem_append, List.mem_singleton, @eq_comm _ t]
    rw [ih, hone, List.exists_mem_cons_iff, or_assoc]

/-- What is registered stays in its place. -/
theorem prefix_registerAll (r : TypeRegistry) (infos : List TypeInfo) : r.infos <+: (r.registerAll infos).infos := by
  induction infos generalizing r with
  | nil => exact List.prefix_rfl
  | cons i rest ih =>
    refine List.IsPrefix.trans ?_ (ih (r.register i))
    unfold register
    split
    · exact List.prefix_rfl
    · exact List.prefix_append _ _

theorem lookup?_of_prefix {r r' : TypeRegistry} (h : r.infos <+: r'.infos) {t : NativeType} {i : TypeInfo}
    (hi : r.lookup? t = some i) : r'.lookup? t = some i := by
  obtain ⟨added, hadded⟩ := h
  rw [lookup?, ← hadded, List.find?_append]
  change (r.lookup? t).or _ = _
  rw [hi, Option.some_or]

/-- The first metadata for an identity is what is registered. -/
theorem lookup?_registerAll (r : TypeRegistry) (infos : List TypeInfo) (t : NativeType) :
    (r.registerAll infos).lookup? t = (r.lookup? t).or (infos.find? (·.token = t)) := by
  induction infos generalizing r with
  | nil => simp [registerAll]
  | cons i rest ih =>
    change ((r.register i).registerAll rest).lookup? t = _
    rw [ih]
    unfold register
    by_cases hold : r.contains i.token = true
    · rw [if_pos hold]
      by_cases hit : i.token = t
      · subst hit
        obtain ⟨j, hj⟩ := Option.isSome_iff_exists.1 hold
        rw [hj, Option.some_or, Option.some_or]
      · rw [List.find?_cons_of_neg (by simpa using hit)]
    · rw [if_neg hold]
      have happend : TypeRegistry.lookup? ⟨r.infos ++ [i]⟩ t = (r.lookup? t).or (List.find? (·.token = t) [i]) :=
        List.find?_append
      rw [happend, Option.or_assoc, ← List.find?_append]
      rfl

theorem nodup_registerAll (hr : (r.infos.map (·.token)).Nodup) (infos : List TypeInfo) :
    ((r.registerAll infos).infos.map (·.token)).Nodup := by
  induction infos generalizing r with
  | nil => exact hr
  | cons i rest ih =>
    refine ih (r := r.register i) ?_
    rw [tokens_register, addOnce]
    split
    · exact hr
    · rename_i hnew
      rw [← List.concat_eq_append]
      exact hr.concat hnew

/-! ## Parts come first -/

/-- The parts of a registered type are registered before it, unless it is excused. -/
def PartsFirst (r : TypeRegistry) (excused : TypeInfo → Prop) : Prop :=
  ∀ before i after, r.infos = before ++ i :: after →
    excused i ∨ ∀ t ∈ i.category.parts, t ∈ before.map (·.token)

variable {excused : TypeInfo → Prop}

theorem PartsFirst.register (hr : r.PartsFirst excused) {i : TypeInfo}
    (hi : excused i ∨ ∀ t ∈ i.category.parts, r.contains t = true) : (r.register i).PartsFirst excused := by
  unfold TypeRegistry.register
  split
  · exact hr
  intro before j after hsplit
  rcases List.append_eq_append_iff.1 hsplit with ⟨more, hbefore, hrest⟩ | ⟨more, hinfos, hrest⟩
  · -- The type comes after what was registered, so it is the new one.
    cases more with
    | nil =>
      rw [List.append_nil] at hbefore
      cases hrest
      rw [hbefore]
      exact hi.imp_right fun hparts t ht => contains_iff.1 (hparts t ht)
    | cons k more => simp at hrest
  · cases more with
    | nil =>
      rw [List.append_nil] at hinfos
      cases hrest
      rw [← hinfos]
      exact hi.imp_right fun hparts t ht => contains_iff.1 (hparts t ht)
    | cons k more =>
      cases hrest
      exact hr before j more hinfos

end TypeRegistry

/-! ## Types describe themselves -/

/-- A type describes itself, whatever it is. -/
theorem token_mem_describe : ∀ t : NativeType, ∃ i ∈ t.describe, i.token = t.token
  | .result t => token_mem_describe t
  | .vector _ | .array _ _ | .optional _ => ⟨_, List.mem_append_right _ (List.mem_singleton_self _), rfl⟩
  | .handle _ _ => ⟨_, List.mem_cons_of_mem _ (List.mem_singleton_self _), rfl⟩
  | .unit | .bool | .char | .int _ | .float _ | .text | .staticText | .any | .callback | .pointer | .object _ =>
    ⟨_, List.mem_singleton_self _, rfl⟩

namespace TypeRegistry
variable {r : TypeRegistry} {excused : TypeInfo → Prop}

theorem contains_describe (r : TypeRegistry) (t : NativeType) : (r.registerAll t.describe).contains t.token = true :=
  (contains_registerAll _).2 (.inr (token_mem_describe t))

/-- **A type that describes itself registers its parts first**: a case for each way to build a type. -/
theorem PartsFirst.describe : ∀ (t : NativeType) {r : TypeRegistry}, r.PartsFirst excused →
    (r.registerAll t.describe).PartsFirst excused
  | .result t, _, hr => describe t hr
  | .vector t, r, hr | .array t _, r, hr | .optional t, r, hr => by
    rw [NativeType.describe, registerAll_append]
    refine (describe t hr).register (.inr fun part hpart => ?_)
    obtain rfl := List.mem_singleton.1 hpart
    exact contains_describe r t
  | .handle k c, r, hr => by
    have hclass := hr.register (i := (NativeType.object c).info) (.inr fun _ h => nomatch h)
    refine hclass.register (.inr fun part hpart => ?_)
    obtain rfl := List.mem_singleton.1 hpart
    exact contains_describe r (.object c)
  | .unit, _, hr | .bool, _, hr | .char, _, hr | .float _, _, hr | .text, _, hr | .staticText, _, hr | .any, _, hr
  | .callback, _, hr | .pointer, _, hr | .object _, _, hr => hr.register (.inr fun _ h => nomatch h)
  | .int _, _, hr => hr.register (.inr fun _ h => nomatch h)

theorem PartsFirst.describeAll (ts : List NativeType) : ∀ {r : TypeRegistry}, r.PartsFirst excused →
    (r.registerAll (ts.flatMap NativeType.describe)).PartsFirst excused := by
  induction ts with
  | nil => exact id
  | cons t ts ih =>
    intro r hr
    rw [List.flatMap_cons, registerAll_append]
    exact ih (hr.describe t)

theorem PartsFirst.shape (hr : r.PartsFirst excused) (shape : CallShape) :
    (r.registerAll shape.describe).PartsFirst excused := by
  have hall : shape.describe = (.unit :: shape.args ++ [shape.ret]).flatMap NativeType.describe := by
    simp [CallShape.describe]
  rw [hall]
  exact hr.describeAll _

end TypeRegistry

/-! ## Registries -/

namespace Registry
variable {Upcast Code : Type}

theorem partsFirst_log {log : List (Operation Upcast Code)} {excused : TypeInfo → Prop}
    (hlog : ∀ i, .cls i ∈ log → excused i) : ∀ {types : TypeRegistry}, types.PartsFirst excused →
      (types.registerAll (log.flatMap (·.describes))).PartsFirst excused := by
  induction log with
  | nil => exact id
  | cons op log ih =>
    intro types htypes
    rw [List.flatMap_cons, TypeRegistry.registerAll_append]
    refine ih (fun i hi => hlog i (List.mem_cons_of_mem _ hi)) ?_
    cases op with
    | cls info => exact htypes.register (.inl (hlog info List.mem_cons_self))
    | entry h flags shape id code => exact htypes.shape shape
    | _ => exact htypes

theorem accepted_append (ops more : List (Operation Upcast Code)) : ∀ r : Registry Upcast Code,
    r.accepted (ops ++ more) = r.accepted ops ++ (r.leftByAll ops).accepted more := by
  induction ops with
  | nil => exact fun r => rfl
  | cons op ops ih =>
    intro r
    rw [List.cons_append, accepted, accepted, leftByAll, List.foldl_cons, leftBy]
    cases op.make r with
    | ok _ r' => exact congrArg (op :: ·) (ih r')
    | error _ r' => exact ih r'

variable {r : Registry Upcast Code} {log : List (Operation Upcast Code)} {filings : List (Filing Code)}

theorem Recorded.contains_of_describes (hr : r.Recorded log filings) {op : Operation Upcast Code} (hop : op ∈ log)
    {i : TypeInfo} (hi : i ∈ op.describes) : r.types.contains i.token = true := by
  rw [hr.types]
  exact (TypeRegistry.contains_registerAll _).2 (.inr ⟨i, List.mem_flatMap.2 ⟨op, hop, hi⟩, rfl⟩)

/-- The shape of a filed entry was described. -/
theorem Recorded.contains_of_filed (hr : r.Recorded log filings) {f : Filing Code} (hf : f ∈ filings)
    {t : NativeType} (ht : t ∈ f.shape.ret :: f.shape.args) : r.types.contains t.token = true := by
  have hfiled : f.outline ∈ log.filterMap (·.files) := by
    rw [← hr.filed]
    exact List.mem_map_of_mem hf
  obtain ⟨op, hop, hfiles⟩ := List.mem_filterMap.1 hfiled
  cases op with
  | entry h flags shape id code =>
    obtain rfl : shape = f.shape := (Prod.mk.inj (Prod.mk.inj (Option.some.inj hfiles)).2).1
    obtain ⟨i, hi, htoken⟩ := token_mem_describe t
    rw [← htoken]
    refine hr.contains_of_describes hop ?_
    rcases List.mem_cons.1 ht with rfl | ht
    · exact List.mem_append_right _ hi
    · exact List.mem_append_left _ (List.mem_append_right _ (List.mem_flatMap.2 ⟨t, ht, hi⟩))
  | _ => cases hfiles

theorem Recorded.contains_of_entry (hr : r.Recorded log filings) (hintact : r.Intact filings) {ref : EntryRef}
    {s : Signature Code} {e : SignatureEntry Code} (he : r.signatures.entry? ref = some (s, e)) {t : NativeType}
    (ht : t ∈ s.key.ret :: s.key.args) : r.types.contains t = true := by
  have hkeyed : r.signatures.keyed ref = some (s.key, e) := SignatureTable.keyed_eq_some.2 ⟨s, he, rfl⟩
  obtain ⟨f, hf, rfl⟩ := hintact.table.filing ref (s.key, e) hkeyed
  have hkey : s.key = f.key := (Prod.mk.inj (Option.some.inj (hkeyed.symm.trans (hintact.table.found f hf)))).1
  rw [hkey] at ht
  change t ∈ (f.shape.ret :: f.shape.args).map NativeType.token at ht
  obtain ⟨t', ht', rfl⟩ := List.mem_map.1 ht
  exact hr.contains_of_filed hf ht'

theorem types_kept (maxArity : Nat) (ops more : List (Operation Upcast Code)) :
    ((empty maxArity).leftByAll ops : Registry Upcast Code).types.infos <+:
      (((empty maxArity).leftByAll ops).leftByAll more).types.infos := by
  have hnow : ((empty maxArity).leftByAll ops).Recorded _ _ := leftByAll_recorded maxArity ops
  have hlater : ((empty maxArity).leftByAll (ops ++ more)).Recorded _ _ := leftByAll_recorded maxArity (ops ++ more)
  rw [leftByAll, List.foldl_append] at hlater
  change (((empty maxArity).leftByAll ops).leftByAll more).Recorded _ _ at hlater
  rw [hlater.types, accepted_append, List.flatMap_append, TypeRegistry.registerAll_append, hnow.types]
  exact TypeRegistry.prefix_registerAll _ _

/-- **The type registry is closed**, whatever is asked of a registry:
- the types of every filed entry and of every declared class are registered;
- the parts of a registered type are registered before it, unless a class was declared with its metadata;
- every type is registered once, with the metadata that was described first;
- and what is registered keeps its place and its metadata. -/
theorem types_closed (maxArity : Nat) (ops : List (Operation Upcast Code)) :
    let r : Registry Upcast Code := (empty maxArity).leftByAll ops
    let log := (empty maxArity).accepted ops
    (∀ ref s e, r.signatures.entry? ref = some (s, e) → ∀ t ∈ s.key.ret :: s.key.args, r.types.contains t = true) ∧
    (∀ d ∈ r.classes, d.declared = true →
      ∃ info, .cls info ∈ log ∧ info.token.asClass = d.cls ∧ r.types.contains info.token = true) ∧
    (∀ info, .cls info ∈ log → r.types.contains info.token = true) ∧
    (∀ before i after, r.types.infos = before ++ i :: after →
      .cls i ∈ log ∨ ∀ t ∈ i.category.parts, t ∈ before.map (·.token)) ∧
    (r.types.infos.map (·.token)).Nodup ∧
    (∀ t, r.types.lookup? t = (log.flatMap (·.describes)).find? (·.token = t)) ∧
    ∀ more, r.types.infos <+: (r.leftByAll more).types.infos ∧
      ∀ t i, r.types.lookup? t = some i → (r.leftByAll more).types.lookup? t = some i := by
  intro r log
  have hr : r.Recorded log ((empty maxArity).run ops).2 := leftByAll_recorded maxArity ops
  have hintact : r.Intact ((empty maxArity).run ops).2 := leftByAll_intact maxArity ops
  have hcls (info : TypeInfo) (h : .cls info ∈ log) : r.types.contains info.token = true :=
    hr.contains_of_describes h (List.mem_singleton_self _)
  have hkept (more : List (Operation Upcast Code)) : r.types.infos <+: (r.leftByAll more).types.infos :=
    types_kept maxArity ops more
  refine ⟨fun ref s e he t ht => hr.contains_of_entry hintact he ht, fun d hd hdecl => ?_, hcls, ?_, ?_, fun t => ?_,
    fun more => ⟨hkept more, fun t i => TypeRegistry.lookup?_of_prefix (hkept more)⟩⟩
  · obtain ⟨info, hmem, hclass⟩ := hr.declared_by hintact.wellFormed hd hdecl
    exact ⟨info, hmem, hclass, hcls info hmem⟩
  · rw [hr.types]
    exact partsFirst_log (fun _ => id) fun before i after h => by simp [TypeRegistry.empty] at h
  · rw [hr.types]
    exact TypeRegistry.nodup_registerAll (r := .empty) List.nodup_nil _
  · rw [hr.types, TypeRegistry.lookup?_registerAll]
    exact Option.none_or

/-- A class that is declared with the metadata of a vector leaves the item of the vector unregistered. -/
theorem item_not_registered : ¬ ∀ (maxArity : Nat) (ops : List (Operation Unit Unit)) before i after,
    ((empty maxArity).leftByAll ops).types.infos = before ++ i :: after →
      ∀ t ∈ i.category.parts, t ∈ before.map (·.token) := by
  intro h
  have hitem := h 16 [.cls (NativeType.vector (.int .int32)).info] [] (NativeType.vector (.int .int32)).info [] rfl
    (.int .int32) (List.mem_singleton_self _)
  cases hitem

end Registry
end NativeBridge
