import Mathlib.Data.List.Nodup
import Mathlib.Logic.Relation
import NativeBridge.Registry.Basic
/-!
# What holds of every registry

A registry grows from the empty one by accepted declarations (`Registry.Declares`, `Registry.Reached`). Every step
keeps the descriptors well-formed: one for each class, with distinct superclasses and distinct group keys, and
blank until its class is declared.
-/
namespace NativeBridge

/-- The parts of an accepted sequence were accepted. -/
theorem bind_ok {ε α β : Type} {x : Except ε α} {f : α → Except ε β} {b : β} (h : x >>= f = .ok b) :
    ∃ a, x = .ok a ∧ f a = .ok b := by
  cases x with
  | error e => cases h
  | ok a => exact ⟨a, rfl, h⟩

theorem guard_ok {ε β : Type} {p : Prop} [Decidable p] {e : ε} {f : PUnit → Except ε β} {b : β}
    (h : (if p then throw e >>= f else f ⟨⟩) = .ok b) : ¬ p ∧ f ⟨⟩ = .ok b := by
  split at h
  · cases h
  · rename_i hp
    exact ⟨hp, h⟩

/-! ## Descriptors -/

namespace ClassDescriptor
variable {Upcast : Type}

/-- What holds of a descriptor at any time. -/
structure WellFormed (d : ClassDescriptor Upcast) : Prop where
  supers : (d.supers.map (·.cls)).Nodup
  keys : (d.members.map (·.key)).Nodup
  blank : d.declared = false → d.supers = [] ∧ d.members = []

theorem wellFormed_placeholder (c : Class) (name : String) (size : Nat) :
    (placeholder c name size : ClassDescriptor Upcast).WellFormed :=
  ⟨List.nodup_nil, List.nodup_nil, fun _ => ⟨rfl, rfl⟩⟩

theorem WellFormed.declare {d : ClassDescriptor Upcast} (hd : d.WellFormed) (name : String) (size : Nat) :
    (d.declare name size).WellFormed :=
  ⟨hd.supers, hd.keys, fun h => by cases h⟩

theorem map_upcast (links : List (SuperLink Upcast)) (base : Class) (upcast : Upcast) :
    (links.map fun l => if l.cls = base then { l with upcast } else l).map (·.cls) = links.map (·.cls) := by
  rw [List.map_map]
  refine List.map_congr_left fun l _ => ?_
  rw [Function.comp_apply]
  split <;> rfl

/-- **A superclass is listed once**, however often it is declared. -/
theorem nodup_addSuper {d : ClassDescriptor Upcast} (hd : (d.supers.map (·.cls)).Nodup) (base : Class)
    (upcast : Upcast) : ((d.addSuper base upcast).supers.map (·.cls)).Nodup := by
  unfold addSuper
  split
  · rw [map_upcast]
    exact hd
  · rename_i hnew
    rw [List.map_append, List.nodup_append]
    refine ⟨hd, by simp, ?_⟩
    rintro c hc b hb rfl
    rw [List.map_singleton, List.mem_singleton] at hb
    obtain ⟨l, hl, rfl⟩ := List.mem_map.1 hc
    exact hnew (List.any_eq_true.2 ⟨l, hl, decide_eq_true hb⟩)

theorem WellFormed.addSuper {d : ClassDescriptor Upcast} (hd : d.WellFormed) (hdecl : d.declared = true)
    (base : Class) (upcast : Upcast) : (d.addSuper base upcast).WellFormed := by
  refine ⟨nodup_addSuper hd.supers base upcast, ?_, ?_⟩
  · unfold ClassDescriptor.addSuper
    split <;> exact hd.keys
  · intro h
    unfold ClassDescriptor.addSuper at h
    split at h <;> rw [hdecl] at h <;> cases h

theorem group?_isSome {d : ClassDescriptor Upcast} {key : GroupKey} :
    (d.group? key).isSome = true ↔ key ∈ d.members.map (·.key) := by
  rw [group?, Option.isSome_map, List.find?_isSome, List.mem_map]
  simp only [decide_eq_true_eq]

theorem nodup_withGroup {d : ClassDescriptor Upcast} (hd : (d.members.map (·.key)).Nodup) (key : GroupKey) :
    ((d.withGroup key).members.map (·.key)).Nodup := by
  unfold withGroup
  split
  · exact hd
  · rename_i hnew
    rw [List.map_append, List.nodup_append]
    refine ⟨hd, by simp, ?_⟩
    rintro k hk b hb rfl
    rw [List.map_singleton, List.mem_singleton] at hb
    rw [hb] at hk
    exact hnew (group?_isSome.2 hk)

theorem keys_setGroup (d : ClassDescriptor Upcast) (key : GroupKey) (g : OverloadGroup) :
    (d.setGroup key g).members.map (·.key) = d.members.map (·.key) := by
  unfold setGroup
  rw [List.map_map]
  refine List.map_congr_left fun m _ => ?_
  rw [Function.comp_apply]
  split <;> rfl

theorem WellFormed.setGroup {d : ClassDescriptor Upcast} (hd : d.WellFormed) (hdecl : d.declared = true)
    (key : GroupKey) (g : OverloadGroup) : ((d.withGroup key).setGroup key g).WellFormed := by
  have hsame : (d.withGroup key).supers = d.supers ∧ (d.withGroup key).declared = d.declared := by
    unfold withGroup
    split <;> exact ⟨rfl, rfl⟩
  refine ⟨?_, ?_, ?_⟩
  · change ((d.withGroup key).supers.map (·.cls)).Nodup
    rw [hsame.1]
    exact hd.supers
  · rw [keys_setGroup]
    exact nodup_withGroup hd.keys key
  · intro h
    change (d.withGroup key).declared = false at h
    rw [hsame.2, hdecl] at h
    cases h

end ClassDescriptor

/-! ## Registries -/

namespace Registry
variable {Upcast Code : Type}

/-- One accepted declaration. -/
inductive Declares : Registry Upcast Code → Registry Upcast Code → Prop
  | cls {r r'} (info : TypeInfo) : r.declareClass info = .ok r' → Declares r r'
  | super {r r'} (derived : Class) (base : TypeInfo) (upcast : Upcast) :
      r.declareSuper derived base upcast = .ok r' → Declares r r'
  | valueType {r r'} (c : Class) : r.declareValueType c = .ok r' → Declares r r'
  | constructor {r r'} (c : Class) (flags : TypeFlags) (shape : CallShape) (id : NameHash) (code : Code)
      (ref : EntryRef) : r.declareConstructor c flags shape id code = .ok (ref, r') → Declares r r'
  | member {r r'} (c : Class) (key : GroupKey) (flags : TypeFlags) (shape : CallShape) (id : NameHash)
      (code : Code) (ref : EntryRef) : r.declareMember c key flags shape id code = .ok (ref, r') → Declares r r'
  | function {r r'} (name : String) (flags : TypeFlags) (shape : CallShape) (id : NameHash) (code : Code)
      (ref : EntryRef) : r.declareFunction name flags shape id code = .ok (ref, r') → Declares r r'

/-- A registry that declarations lead to from an empty one. -/
def Reached (r : Registry Upcast Code) : Prop :=
  ∃ maxArity, Relation.ReflTransGen Declares (empty maxArity) r

/-- One well-formed descriptor for each class. -/
structure WellFormed (r : Registry Upcast Code) : Prop where
  nodup : (r.classes.map (·.cls)).Nodup
  descriptors : ∀ d ∈ r.classes, d.WellFormed

theorem class?_mem {r : Registry Upcast Code} {c : Class} {d : ClassDescriptor Upcast}
    (h : r.class? c = some d) : d ∈ r.classes ∧ d.cls = c :=
  ⟨List.mem_of_find?_eq_some h, by simpa using List.find?_some h⟩

theorem WellFormed.class?_eq {r : Registry Upcast Code} (hr : r.WellFormed) {d : ClassDescriptor Upcast}
    (hd : d ∈ r.classes) : r.class? d.cls = some d := by
  cases hf : r.class? d.cls with
  | none =>
    have := List.find?_eq_none.1 hf d hd
    simp at this
  | some e =>
    obtain ⟨he, hc⟩ := class?_mem hf
    rw [List.inj_on_of_nodup_map hr.nodup he hd hc]

theorem WellFormed.mention {r : Registry Upcast Code} (hr : r.WellFormed) (c : Class) (name : String)
    (size : Nat) : (r.mention c name size).WellFormed := by
  unfold Registry.mention
  split
  · exact hr
  · rename_i hnew
    refine ⟨?_, ?_⟩
    · rw [List.map_append, List.nodup_append]
      refine ⟨hr.nodup, by simp, ?_⟩
      rintro a ha b hb rfl
      rw [List.map_singleton, List.mem_singleton] at hb
      obtain ⟨d, hd, rfl⟩ := List.mem_map.1 ha
      rw [← show d.cls = c from hb, hr.class?_eq hd] at hnew
      exact hnew rfl
    · intro d hd
      rcases List.mem_append.1 hd with hd | hd
      · exact hr.descriptors d hd
      · rw [List.mem_singleton.1 hd]
        exact ClassDescriptor.wellFormed_placeholder c name size

theorem WellFormed.update {r : Registry Upcast Code} (hr : r.WellFormed) (c : Class)
    {f : ClassDescriptor Upcast → ClassDescriptor Upcast} (hcls : ∀ d, (f d).cls = d.cls)
    (hf : ∀ d, r.class? c = some d → d.WellFormed → (f d).WellFormed) : (r.update c f).WellFormed := by
  refine ⟨?_, ?_⟩
  · have hmap : (r.update c f).classes.map (·.cls) = r.classes.map (·.cls) := by
      unfold Registry.update
      rw [List.map_map]
      refine List.map_congr_left fun d _ => ?_
      rw [Function.comp_apply]
      split
      · exact hcls d
      · rfl
    rw [hmap]
    exact hr.nodup
  · intro e he
    obtain ⟨d, hd, rfl⟩ := List.mem_map.1 he
    split
    · rename_i hdc
      refine hf d ?_ (hr.descriptors d hd)
      rw [← hdc]
      exact hr.class?_eq hd
    · exact hr.descriptors d hd

theorem WellFormed.congr {r r' : Registry Upcast Code} (hr : r.WellFormed) (h : r'.classes = r.classes) :
    r'.WellFormed :=
  ⟨by rw [h]; exact hr.nodup, by rw [h]; exact hr.descriptors⟩

theorem declared_ok {r : Registry Upcast Code} {c : Class} {d : ClassDescriptor Upcast}
    (h : r.declared c = .ok d) : r.class? c = some d ∧ d.declared = true := by
  unfold declared at h
  split at h
  · rename_i e he
    split at h
    · rename_i hd
      cases h
      exact ⟨he, hd⟩
    · cases h
  · cases h

/-- A declared class is not touched when another is mentioned. -/
theorem class?_mention {r : Registry Upcast Code} {c : Class} {d : ClassDescriptor Upcast}
    (h : r.class? c = some d) (b : Class) (name : String) (size : Nat) :
    (r.mention b name size).class? c = some d := by
  unfold mention
  split
  · exact h
  · unfold class? at h ⊢
    rw [List.find?_append, h]
    rfl

theorem registerEntry_classes {r r' : Registry Upcast Code} {group group' : OverloadGroup} {shape : CallShape}
    {entry : SignatureEntry Code} {ref : EntryRef} (h : r.registerEntry group shape entry = .ok (ref, group', r')) :
    r'.classes = r.classes := by
  unfold registerEntry at h
  obtain ⟨-, h⟩ := guard_ok h
  obtain ⟨-, h⟩ := guard_ok h
  obtain ⟨g, -, h⟩ := bind_ok h
  cases h
  rfl

theorem WellFormed.declareClass {r r' : Registry Upcast Code} (hr : r.WellFormed) {info : TypeInfo}
    (h : r.declareClass info = .ok r') : r'.WellFormed := by
  unfold Registry.declareClass at h
  obtain ⟨-, -, h⟩ := bind_ok h
  obtain ⟨-, h⟩ := guard_ok h
  obtain ⟨-, h⟩ := guard_ok h
  cases h
  have hu := (hr.mention info.token.asClass info.name info.size).update info.token.asClass
    (f := (·.declare info.name info.size)) (fun _ => rfl) fun d _ hd => hd.declare _ _
  exact hu.congr rfl

theorem WellFormed.declareSuper {r r' : Registry Upcast Code} (hr : r.WellFormed) {derived : Class}
    {base : TypeInfo} {upcast : Upcast} (h : r.declareSuper derived base upcast = .ok r') : r'.WellFormed := by
  unfold Registry.declareSuper at h
  obtain ⟨-, -, h⟩ := bind_ok h
  obtain ⟨d, hd, h⟩ := bind_ok h
  obtain ⟨-, h⟩ := guard_ok h
  cases h
  obtain ⟨hfind, hdecl⟩ := declared_ok hd
  refine (hr.mention _ _ _).update _ (fun e => ?_) fun e he hwf => ?_
  · unfold ClassDescriptor.addSuper
    split <;> rfl
  · rw [class?_mention hfind] at he
    cases he
    exact hwf.addSuper hdecl _ _

theorem WellFormed.declareValueType {r r' : Registry Upcast Code} (hr : r.WellFormed) {c : Class}
    (h : r.declareValueType c = .ok r') : r'.WellFormed := by
  unfold Registry.declareValueType at h
  obtain ⟨-, -, h⟩ := bind_ok h
  obtain ⟨-, -, h⟩ := bind_ok h
  cases h
  exact hr.update _ (fun _ => rfl) fun d _ hd => ⟨hd.supers, hd.keys, hd.blank⟩

theorem WellFormed.declareConstructor {r r' : Registry Upcast Code} (hr : r.WellFormed) {c : Class}
    {flags : TypeFlags} {shape : CallShape} {id : NameHash} {code : Code} {ref : EntryRef}
    (h : r.declareConstructor c flags shape id code = .ok (ref, r')) : r'.WellFormed := by
  unfold Registry.declareConstructor at h
  obtain ⟨-, -, h⟩ := bind_ok h
  obtain ⟨d, -, h⟩ := bind_ok h
  obtain ⟨-, -, h⟩ := bind_ok h
  obtain ⟨⟨ref', group, s⟩, hs, h⟩ := bind_ok h
  cases h
  exact (hr.congr (registerEntry_classes hs)).update _ (fun _ => rfl) fun d _ hd => ⟨hd.supers, hd.keys, hd.blank⟩

theorem WellFormed.declareMember {r r' : Registry Upcast Code} (hr : r.WellFormed) {c : Class} {key : GroupKey}
    {flags : TypeFlags} {shape : CallShape} {id : NameHash} {code : Code} {ref : EntryRef}
    (h : r.declareMember c key flags shape id code = .ok (ref, r')) : r'.WellFormed := by
  unfold Registry.declareMember at h
  obtain ⟨-, -, h⟩ := bind_ok h
  obtain ⟨d, hd, h⟩ := bind_ok h
  obtain ⟨-, -, h⟩ := bind_ok h
  obtain ⟨⟨ref', group, s⟩, hs, h⟩ := bind_ok h
  cases h
  obtain ⟨hfind, hdecl⟩ := declared_ok hd
  refine (hr.congr (registerEntry_classes hs)).update _ (fun e => ?_) fun e he hwf => ?_
  · unfold ClassDescriptor.withGroup
    split <;> rfl
  · rw [class?, registerEntry_classes hs] at he
    rw [class?, he] at hfind
    cases hfind
    exact hwf.setGroup hdecl _ _

theorem WellFormed.declareFunction {r r' : Registry Upcast Code} (hr : r.WellFormed) {name : String}
    {flags : TypeFlags} {shape : CallShape} {id : NameHash} {code : Code} {ref : EntryRef}
    (h : r.declareFunction name flags shape id code = .ok (ref, r')) : r'.WellFormed := by
  unfold Registry.declareFunction at h
  obtain ⟨-, -, h⟩ := bind_ok h
  obtain ⟨-, -, h⟩ := bind_ok h
  obtain ⟨⟨ref', group, s⟩, hs, h⟩ := bind_ok h
  cases h
  refine hr.congr ?_
  rw [← registerEntry_classes hs]
  unfold setFunctionGroup
  split <;> rfl

/-- Every accepted declaration keeps the descriptors well-formed. -/
theorem Declares.wellFormed {r r' : Registry Upcast Code} (h : Declares r r') (hr : r.WellFormed) :
    r'.WellFormed := by
  cases h with
  | cls info h => exact hr.declareClass h
  | super derived base upcast h => exact hr.declareSuper h
  | valueType c h => exact hr.declareValueType h
  | constructor c flags shape id code ref h => exact hr.declareConstructor h
  | member c key flags shape id code ref h => exact hr.declareMember h
  | function name flags shape id code ref h => exact hr.declareFunction h

/-- **The descriptors of every registry that declarations lead to are well-formed.** -/
theorem Reached.wellFormed {r : Registry Upcast Code} (h : r.Reached) : r.WellFormed := by
  obtain ⟨maxArity, hsteps⟩ := h
  induction hsteps with
  | refl => exact ⟨List.nodup_nil, fun d hd => absurd hd List.not_mem_nil⟩
  | tail _ hstep ih => exact hstep.wellFormed ih

end Registry
end NativeBridge
