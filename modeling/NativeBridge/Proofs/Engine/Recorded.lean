import NativeBridge.Proofs.Engine.Refusals
/-!
# What a registry has accepted

The operations on a registry that succeed are a record of everything that is in it. What one accepted operation makes
of a registry is said once (`Accepts`), and so what a registry holds after any operations can be read off those that
succeeded: of each class its declaration, its superclasses, its value form and its groups, in the order in which classes
and functions came up, and every type in the order in which it was described (`leftByAll_recorded`).
-/
namespace NativeBridge

/-- Append what is not there yet. -/
def addOnce {α : Type} [DecidableEq α] (l : List α) (a : α) : List α :=
  if a ∈ l then l else l ++ [a]

/-- Append what there is, if it is not there yet. -/
def addOnce? {α : Type} [DecidableEq α] (l : List α) : Option α → List α
  | some a => addOnce l a
  | none => l

theorem eraseDups_concat {α : Type} [DecidableEq α] (l : List α) (a : α) :
    (l ++ [a]).eraseDups = addOnce l.eraseDups a := by
  rw [List.eraseDups_append, addOnce]
  by_cases ha : a ∈ l
  · rw [if_pos (List.mem_eraseDups.2 ha)]
    simp [List.removeAll, ha]
  · rw [if_neg fun h => ha (List.mem_eraseDups.1 h)]
    simp [List.removeAll, ha, List.eraseDups_cons]

theorem eraseDups_filterMap_concat {α β : Type} [DecidableEq β] (f : α → Option β) (l : List α) (a : α) :
    ((l ++ [a]).filterMap f).eraseDups = addOnce? (l.filterMap f).eraseDups (f a) := by
  rw [List.filterMap_append]
  cases hfa : f a with
  | none => simp [hfa, addOnce?]
  | some b => simp [hfa, addOnce?, eraseDups_concat]

theorem eq_of_nodup_filterMap {α β : Type} {f : α → Option β} {a b : α} {c : β} (ha : f a = some c)
    (hb : f b = some c) : ∀ {l : List α}, (l.filterMap f).Nodup → a ∈ l → b ∈ l → a = b
  | [], _, hmem, _ => (nomatch hmem)
  | x :: l, hnodup, hal, hbl => by
    have hrest {y : α} (hx : f x = some c) (hy : f y = some c) : y ∉ l := fun hmem => by
      rw [List.filterMap_cons_some hx, List.nodup_cons] at hnodup
      exact hnodup.1 (List.mem_filterMap.2 ⟨y, hmem, hy⟩)
    rcases List.mem_cons.1 hal with rfl | hal' <;> rcases List.mem_cons.1 hbl with rfl | hbl'
    · rfl
    · exact absurd hbl' (hrest ha hb)
    · exact absurd hal' (hrest hb ha)
    · refine eq_of_nodup_filterMap ha hb ?_ hal' hbl'
      cases hx : f x with
      | none => rwa [List.filterMap_cons_none hx] at hnodup
      | some y =>
        rw [List.filterMap_cons_some hx, List.nodup_cons] at hnodup
        exact hnodup.2

namespace Registry
variable {Upcast Code : Type} {r r' : Registry Upcast Code} {filings : List (Filing Code)} {op : Operation Upcast Code}

/-! ## Accepted operations -/

/-- The operations that succeed, in order, when they are done in place one after another. -/
def accepted (r : Registry Upcast Code) : List (Operation Upcast Code) → List (Operation Upcast Code)
  | [] => []
  | op :: ops =>
    match op.make r with
    | .ok _ r' => op :: accepted r' ops
    | .error _ r' => accepted r' ops

theorem step_of_refused {e : RegistrationError} (h : r.attempt op = .error e) : r.step op = (r, []) := by
  cases op with
  | entry holder flags shape id code =>
    rw [attempt] at h
    rw [step]
    cases hmade : r.declareEntry holder flags shape id code with
    | error e => rfl
    | ok made =>
      rw [hmade] at h
      cases h
  | _ =>
    rw [attempt] at h
    rw [step, h]
    rfl

/-- What every accepted operation keeps, along with the record and the entries filed, holds after any operations. -/
theorem accepted_induction
    {P : Registry Upcast Code → List (Operation Upcast Code) → List (Filing Code) → Prop}
    (hstep : ∀ {r r' : Registry Upcast Code} {log filings op}, r.Intact filings → P r log filings →
      r.attempt op = .ok r' → P r' (log ++ [op]) (filings ++ (r.step op).2)) (ops : List (Operation Upcast Code)) :
    ∀ {r : Registry Upcast Code} {log filings}, r.Intact filings → P r log filings →
      P (r.leftByAll ops) (log ++ r.accepted ops) (filings ++ (r.run ops).2) := by
  induction ops with
  | nil =>
    intro r log filings _ hr
    rw [accepted, run, List.append_nil, List.append_nil]
    exact hr
  | cons op ops ih =>
    intro r log filings hintact hr
    -- Done in place, an operation leaves behind what a step does, so one more step is what the list begins with.
    have hnext := hintact.step op
    rw [leftByAll, List.foldl_cons, leftBy_make hintact.wellFormed, accepted, op.make_eq hintact.wellFormed, run,
      ← List.append_assoc]
    cases hop : r.attempt op with
    | error e =>
      rw [step_of_refused hop, List.append_nil]
      exact ih hintact hr
    | ok r' =>
      have hr' : (r.step op).1 = r' := by
        rw [step_eq, hop]
        rfl
      have hkept := ih hnext (hr' ▸ hstep hintact hr hop)
      rw [List.append_assoc log] at hkept
      rw [hr'] at hkept ⊢
      exact hkept

/-! ## What an accepted operation makes of a registry -/

/-- The registry with an entry in its signature table and the types of the entry's shape. -/
def filing (r : Registry Upcast Code) (shape : CallShape) (entry : SignatureEntry Code) : Registry Upcast Code :=
  { r with signatures := (r.signatures.register shape entry).2, types := r.types.registerAll shape.describe }

/-- An operation is accepted and makes another registry of the first. -/
inductive Accepts (r : Registry Upcast Code) : Operation Upcast Code → Registry Upcast Code → Prop
  | cls (info : TypeInfo) (m : Registry Upcast Code)
      (hnew : ((r.class? info.token.asClass).map (·.declared)).getD false = false)
      (hm : m = (r.mention info.token.asClass info.name info.size).update info.token.asClass
        (·.declare info.name info.size)) :
      Accepts r (.cls info)
        { m with names := m.names ++ [(info.name, info.token.asClass)], types := m.types.register info }
  | super (derived : Class) (base : TypeInfo) (upcast : Upcast) (d : ClassDescriptor Upcast)
      (hd : r.class? derived = some d) (hdecl : d.declared = true) :
      Accepts r (.super derived base upcast)
        ((r.mention base.token.asClass base.name base.size).update derived (·.addSuper base.token.asClass upcast))
  | valueType (c : Class) (d : ClassDescriptor Upcast) (hd : r.class? c = some d) (hdecl : d.declared = true) :
      Accepts r (.valueType c) (r.update c fun d => { d with valueType := true })
  | constructor (c : Class) (d : ClassDescriptor Upcast) (g : OverloadGroup) (flags : TypeFlags) (shape : CallShape)
      (id : NameHash) (code : Code) (entry : SignatureEntry Code) (hd : r.class? c = some d)
      (hdecl : d.declared = true) :
      Accepts r (.entry (.constructors c) flags shape id code)
        ((r.filing shape entry).update c fun d => { d with constructors := g })
  | member (c : Class) (key : GroupKey) (d : ClassDescriptor Upcast) (g : OverloadGroup) (flags : TypeFlags)
      (shape : CallShape) (id : NameHash) (code : Code) (entry : SignatureEntry Code) (hd : r.class? c = some d)
      (hdecl : d.declared = true) :
      Accepts r (.entry (.member c key) flags shape id code)
        ((r.filing shape entry).update c fun d => (d.withGroup key).setGroup key g)
  | function (name : String) (g : OverloadGroup) (flags : TypeFlags) (shape : CallShape) (id : NameHash) (code : Code)
      (entry : SignatureEntry Code) (hname : g.name = name) :
      Accepts r (.entry (.function name) flags shape id code) ((r.filing shape entry).setFunctionGroup g)
  | finalize (exposure : Exposure Upcast) :
      Accepts r .finalize
        { r with
          classes := r.classes.map (·.markReady)
          functions := r.functions.map (·.freeze)
          exposure := some exposure }

theorem accepts_entry {holder : Holder} {flags : TypeFlags} {shape : CallShape} {id : NameHash} {code : Code}
    {ref : EntryRef} (h : r.declareEntry holder flags shape id code = .ok (ref, r')) :
    Accepts r (.entry holder flags shape id code) r' := by
  cases holder with
  | constructors c =>
    change r.declareConstructor c flags shape id code = _ at h
    unfold declareConstructor at h
    obtain ⟨-, -, h⟩ := NativeBridge.bind_ok h
    obtain ⟨d, hd, h⟩ := NativeBridge.bind_ok h
    obtain ⟨-, -, h⟩ := NativeBridge.bind_ok h
    obtain ⟨⟨ref', group, s⟩, hs, h⟩ := NativeBridge.bind_ok h
    cases h
    obtain ⟨-, -, -, rfl⟩ := registerEntry_ok hs
    exact .constructor c d group flags shape id code _ (declared_ok hd).1 (declared_ok hd).2
  | member c key =>
    change r.declareMember c key flags shape id code = _ at h
    unfold declareMember at h
    obtain ⟨-, -, h⟩ := NativeBridge.bind_ok h
    obtain ⟨d, hd, h⟩ := NativeBridge.bind_ok h
    obtain ⟨-, -, h⟩ := NativeBridge.bind_ok h
    obtain ⟨⟨ref', group, s⟩, hs, h⟩ := NativeBridge.bind_ok h
    cases h
    obtain ⟨-, -, -, rfl⟩ := registerEntry_ok hs
    exact .member c key d group flags shape id code _ (declared_ok hd).1 (declared_ok hd).2
  | function name =>
    change r.declareFunction name flags shape id code = _ at h
    unfold declareFunction at h
    obtain ⟨-, -, h⟩ := NativeBridge.bind_ok h
    obtain ⟨-, -, h⟩ := NativeBridge.bind_ok h
    obtain ⟨⟨ref', group, s⟩, hs, h⟩ := NativeBridge.bind_ok h
    cases h
    obtain ⟨-, -, hgroup, rfl⟩ := registerEntry_ok hs
    refine .function name group flags shape id code _ ?_
    rw [hgroup]
    cases hfind : r.functionGroup? name with
    | none => rfl
    | some g => exact (functionGroup?_eq_some hfind).2

theorem accepts_of_attempt (h : r.attempt op = .ok r') : Accepts r op r' := by
  cases op with
  | cls info =>
    change r.declareClass info = _ at h
    unfold declareClass at h
    obtain ⟨-, -, h⟩ := NativeBridge.bind_ok h
    obtain ⟨-, h⟩ := guard_ok h
    obtain ⟨hnew, h⟩ := guard_ok h
    cases h
    exact .cls info _ (Bool.not_eq_true _ ▸ hnew) rfl
  | super derived base upcast =>
    change r.declareSuper derived base upcast = _ at h
    unfold declareSuper at h
    obtain ⟨-, -, h⟩ := NativeBridge.bind_ok h
    obtain ⟨d, hd, h⟩ := NativeBridge.bind_ok h
    obtain ⟨-, h⟩ := guard_ok h
    cases h
    exact .super derived base upcast d (declared_ok hd).1 (declared_ok hd).2
  | valueType c =>
    change r.declareValueType c = _ at h
    unfold declareValueType at h
    obtain ⟨-, -, h⟩ := NativeBridge.bind_ok h
    obtain ⟨d, hd, h⟩ := NativeBridge.bind_ok h
    cases h
    exact .valueType c d (declared_ok hd).1 (declared_ok hd).2
  | entry holder flags shape id code =>
    rw [attempt] at h
    cases hmade : r.declareEntry holder flags shape id code with
    | error e =>
      rw [hmade] at h
      cases h
    | ok made =>
      rw [hmade] at h
      cases h
      exact accepts_entry hmade
  | finalize =>
    change r.finalize = _ at h
    unfold Registry.finalize at h
    obtain ⟨-, -, h⟩ := NativeBridge.bind_ok h
    obtain ⟨_, -, h⟩ := NativeBridge.bind_ok h
    cases h
    exact .finalize _

/-! ## Types -/

/-- The metadata that an operation registers. -/
def Operation.describes : Operation Upcast Code → List TypeInfo
  | .cls info => [info]
  | .entry _ _ shape _ _ => shape.describe
  | _ => []

theorem mention_types (r : Registry Upcast Code) (c : Class) (name : String) (size : Nat) :
    (r.mention c name size).types = r.types := by
  unfold mention
  split <;> rfl

theorem setFunctionGroup_types (r : Registry Upcast Code) (g : OverloadGroup) :
    (r.setFunctionGroup g).types = r.types := by
  unfold setFunctionGroup
  split <;> rfl

theorem Accepts.types (h : Accepts r op r') : r'.types = r.types.registerAll op.describes := by
  cases h with
  | cls info m _ hm =>
    have hsame : m.types = r.types := by
      rw [hm]
      exact mention_types ..
    change m.types.register info = _
    rw [hsame]
    rfl
  | super derived base upcast => exact mention_types ..
  | function name g flags shape id code entry => exact setFunctionGroup_types ..
  | _ => rfl

end Registry

/-! ## Classes -/

/-- What is recorded of a class. -/
structure ClassRecord where
  /-- The name and the size that it was declared with. -/
  declaration : Option (String × Nat)
  supers : List Class
  valueType : Bool
  keys : List GroupKey

namespace ClassDescriptor
variable {Upcast : Type}

def record (d : ClassDescriptor Upcast) : ClassRecord :=
  ⟨if d.declared then some (d.name, d.size) else none, d.supers.map (·.cls), d.valueType, d.members.map (·.key)⟩

theorem record_addSuper (d : ClassDescriptor Upcast) (base : Class) (upcast : Upcast) :
    (d.addSuper base upcast).record = { d.record with supers := addOnce d.record.supers base } := by
  have hmem : d.supers.any (·.cls = base) = true ↔ base ∈ d.record.supers := by
    rw [List.any_eq_true, record, List.mem_map]
    simp only [decide_eq_true_eq]
  unfold addSuper addOnce
  by_cases hold : d.supers.any (·.cls = base) = true
  · rw [if_pos hold, if_pos (hmem.1 hold), record, map_upcast]
    rfl
  · rw [if_neg hold, if_neg fun h => hold (hmem.2 h), record, List.map_append]
    rfl

theorem record_setGroup (d : ClassDescriptor Upcast) (key : GroupKey) (g : OverloadGroup) :
    ((d.withGroup key).setGroup key g).record = { d.record with keys := addOnce d.record.keys key } := by
  have hkeys : (d.withGroup key).members.map (·.key) = addOnce d.record.keys key := by
    unfold withGroup addOnce
    by_cases hold : (d.group? key).isSome = true
    · rw [if_pos hold, if_pos (show key ∈ d.record.keys from group?_isSome.1 hold)]
      rfl
    · rw [if_neg hold, if_neg (show key ∉ d.record.keys from fun h => hold (group?_isSome.2 h)), List.map_append]
      rfl
  rw [record, keys_setGroup, hkeys]
  unfold withGroup
  split <;> rfl

theorem record_markReady (d : ClassDescriptor Upcast) : d.markReady.record = d.record := by
  unfold record markReady
  rw [List.map_map]
  rfl

end ClassDescriptor

namespace Registry
variable {Upcast Code : Type} {r r' : Registry Upcast Code} {filings : List (Filing Code)} {op : Operation Upcast Code}

/-- What a registry records of a class; of a class that it does not know, nothing. -/
def recordOf (r : Registry Upcast Code) (c : Class) : ClassRecord :=
  ((r.class? c).map (·.record)).getD ⟨none, [], false, []⟩

namespace Operation

/-- The name and the size that a class is declared with. -/
def declares (c : Class) : Operation Upcast Code → Option (String × Nat)
  | .cls info => if info.token.asClass = c then some (info.name, info.size) else none
  | _ => none

/-- The superclass that a class is given. -/
def inherits (c : Class) : Operation Upcast Code → Option Class
  | .super derived base _ => if derived = c then some base.token.asClass else none
  | _ => none

/-- Whether a class is made a value type. -/
def values (c : Class) : Operation Upcast Code → Bool
  | .valueType c' => c' = c
  | _ => false

/-- The key of the group that a class is given a member in. -/
def enlarges (c : Class) : Operation Upcast Code → Option GroupKey
  | .entry (.member c' key) _ _ _ _ => if c' = c then some key else none
  | _ => none

/-- The class that is declared. -/
def introduces : Operation Upcast Code → Option Class
  | .cls info => some info.token.asClass
  | _ => none

/-- The class that gets a descriptor, unless it has one. -/
def mentions : Operation Upcast Code → Option Class
  | .cls info => some info.token.asClass
  | .super _ base _ => some base.token.asClass
  | _ => none

/-- The name of the function that is given an overload. -/
def overloads : Operation Upcast Code → Option String
  | .entry (.function name) _ _ _ _ => some name
  | _ => none

/-- The place, the shape and the effective flags of an entry. -/
def files : Operation Upcast Code → Option (Holder × CallShape × TypeFlags)
  | .entry h flags shape _ _ => some (h, shape, flags.union h.flags)
  | _ => none

end Operation

/-- What the accepted operations record of a class. -/
def recordIn (log : List (Operation Upcast Code)) (c : Class) : ClassRecord :=
  { declaration := log.findSome? (·.declares c)
    supers := (log.filterMap (·.inherits c)).eraseDups
    valueType := log.any (·.values c)
    keys := (log.filterMap (·.enlarges c)).eraseDups }

/-- The record of a class after one more operation. -/
def Operation.amends (c : Class) (t : ClassRecord) : Operation Upcast Code → ClassRecord
  | .cls info =>
    if c = info.token.asClass then { t with declaration := t.declaration.or (some (info.name, info.size)) } else t
  | .super derived base _ => if c = derived then { t with supers := addOnce t.supers base.token.asClass } else t
  | .valueType k => if c = k then { t with valueType := true } else t
  | .entry (.member k key) _ _ _ _ => if c = k then { t with keys := addOnce t.keys key } else t
  | .entry (.constructors _) _ _ _ _ | .entry (.function _) _ _ _ _ | .finalize => t

theorem recordIn_concat (log : List (Operation Upcast Code)) (op : Operation Upcast Code) (c : Class) :
    recordIn (log ++ [op]) c = op.amends c (recordIn log c) := by
  have hparts : recordIn (log ++ [op]) c =
      { declaration := (recordIn log c).declaration.or (op.declares c)
        supers := addOnce? (recordIn log c).supers (op.inherits c)
        valueType := (recordIn log c).valueType || op.values c
        keys := addOnce? (recordIn log c).keys (op.enlarges c) } := by
    unfold recordIn
    rw [eraseDups_filterMap_concat, eraseDups_filterMap_concat, List.findSome?_append, List.any_append]
    simp
  rw [hparts]
  have hsame (k : Class) : (k = c) = (c = k) := propext eq_comm
  unfold Operation.declares Operation.inherits Operation.values Operation.enlarges Operation.amends
  -- An operation changes one part of the record of the class that it is about, and no other record.
  cases op with
  | cls | super | valueType =>
    simp only [hsame]
    split <;> simp_all [addOnce?]
  | entry h =>
    cases h with
    | member =>
      simp only [hsame]
      split <;> simp [addOnce?]
    | constructors | function => simp [addOnce?]
  | finalize => simp [addOnce?]

theorem recordOf_mention (r : Registry Upcast Code) (k c : Class) (name : String) (size : Nat) :
    (r.mention k name size).recordOf c = r.recordOf c := by
  unfold mention
  split
  · rfl
  · rename_i hnew
    unfold recordOf class?
    rw [List.find?_append]
    cases hc : r.classes.find? (·.cls = c) with
    | some d => rfl
    | none =>
      rw [Option.none_or, List.find?_singleton]
      split <;> rfl

theorem recordOf_of_some {c : Class} {d : ClassDescriptor Upcast} (hd : r.class? c = some d) :
    r.recordOf c = d.record := by
  rw [recordOf, hd]
  rfl

theorem recordOf_update {k : Class} {d : ClassDescriptor Upcast} (hd : r.class? k = some d) (c : Class)
    {f : ClassDescriptor Upcast → ClassDescriptor Upcast} (hcls : ∀ d, (f d).cls = d.cls) :
    (r.update k f).recordOf c = if c = k then (f d).record else r.recordOf c := by
  by_cases hck : c = k
  · subst hck
    rw [if_pos rfl, recordOf, class?_update c c hcls, hd, Option.map_some, if_pos (class?_mem hd).2]
    rfl
  · rw [if_neg hck, recordOf, class?_update_other hck hcls]
    rfl

/-- **What an accepted operation records of a class.** -/
theorem Accepts.recordOf (h : Accepts r op r') (c : Class) : r'.recordOf c = op.amends c (r.recordOf c) := by
  cases h with
  | cls info m hnew hm =>
    obtain ⟨d, hd, hdecl⟩ := class?_mention_self r info.token.asClass info.name info.size
    change m.recordOf c = _
    rw [hm, recordOf_update (f := (·.declare info.name info.size)) hd c fun _ => rfl, Operation.amends]
    by_cases hc : c = info.token.asClass
    · subst hc
      have hrecord := (recordOf_of_some hd).symm.trans (recordOf_mention r info.token.asClass _ info.name info.size)
      rw [if_pos rfl, if_pos rfl, ← hrecord]
      unfold ClassDescriptor.record
      rw [hdecl.trans hnew]
      rfl
    · rw [if_neg hc, if_neg hc, recordOf_mention]
  | super derived base upcast d hd hdecl =>
    have hd' := class?_mention hd base.token.asClass base.name base.size
    rw [recordOf_update hd' c fun d => (addSuper_keeps d _ _).1, ClassDescriptor.record_addSuper,
      Operation.amends]
    by_cases hc : c = derived
    · subst hc
      rw [if_pos rfl, if_pos rfl, recordOf_of_some hd]
    · rw [if_neg hc, if_neg hc, recordOf_mention]
  | valueType k d hd hdecl =>
    rw [recordOf_update (f := fun d => { d with valueType := true }) hd c fun _ => rfl, Operation.amends]
    by_cases hc : c = k
    · subst hc
      rw [if_pos rfl, if_pos rfl, recordOf_of_some hd]
      rfl
    · rw [if_neg hc, if_neg hc]
  | constructor k d g flags shape id code entry hd hdecl =>
    rw [recordOf_update (r := r.filing shape entry) (f := fun d => { d with constructors := g }) hd c fun _ => rfl,
      Operation.amends]
    by_cases hc : c = k
    · subst hc
      rw [if_pos rfl, recordOf_of_some hd]
      rfl
    · rw [if_neg hc]
      rfl
  | member k key d g flags shape id code entry hd hdecl =>
    rw [recordOf_update (r := r.filing shape entry) hd c fun d => (setGroup_keeps d key g).1,
      ClassDescriptor.record_setGroup, Operation.amends]
    by_cases hc : c = k
    · subst hc
      rw [if_pos rfl, if_pos rfl, recordOf_of_some hd]
    · rw [if_neg hc, if_neg hc]
      rfl
  | function name g flags shape id code entry hname =>
    rw [Operation.amends]
    unfold Registry.recordOf class? setFunctionGroup
    split <;> rfl
  | finalize exposure =>
    rw [Operation.amends]
    unfold Registry.recordOf class?
    rw [List.find?_map, Option.map_map]
    refine congrArg (Option.getD · _) (Option.map_congr fun d _ => ?_)
    exact ClassDescriptor.record_markReady d

/-! ## The order of classes and functions -/

theorem mem_classes_iff (c : Class) : c ∈ r.classes.map (·.cls) ↔ (r.class? c).isSome = true := by
  rw [class?, List.find?_isSome, List.mem_map]
  simp only [decide_eq_true_eq]

theorem classes_mention (r : Registry Upcast Code) (c : Class) (name : String) (size : Nat) :
    (r.mention c name size).classes.map (·.cls) = addOnce (r.classes.map (·.cls)) c := by
  unfold mention addOnce
  by_cases hc : (r.class? c).isSome = true
  · rw [if_pos hc, if_pos (r.mem_classes_iff c |>.2 hc)]
  · rw [if_neg hc, if_neg (mt (mem_classes_iff c).1 hc), List.map_append]
    rfl

theorem classes_update (r : Registry Upcast Code) (c : Class) {f : ClassDescriptor Upcast → ClassDescriptor Upcast}
    (hcls : ∀ d, (f d).cls = d.cls) : (r.update c f).classes.map (·.cls) = r.classes.map (·.cls) := by
  unfold update
  rw [List.map_map]
  refine List.map_congr_left fun d _ => ?_
  rw [Function.comp_apply]
  split
  · exact hcls d
  · rfl

theorem Accepts.classes (h : Accepts r op r') :
    r'.classes.map (·.cls) = addOnce? (r.classes.map (·.cls)) op.mentions := by
  cases h with
  | cls info m hnew hm =>
    change m.classes.map _ = _
    rw [hm, classes_update (f := (·.declare info.name info.size)) _ _ fun _ => rfl]
    exact classes_mention ..
  | super derived base upcast d hd hdecl =>
    rw [classes_update _ _ fun d => (addSuper_keeps d _ _).1]
    exact classes_mention ..
  | valueType k d hd hdecl => exact classes_update _ _ fun _ => rfl
  | constructor k d g flags shape id code entry hd hdecl => exact classes_update (r.filing shape entry) _ fun _ => rfl
  | member k key d g flags shape id code entry hd hdecl =>
    exact classes_update (r.filing shape entry) _ fun d => (setGroup_keeps d key g).1
  | function name g flags shape id code entry hname =>
    unfold setFunctionGroup
    split <;> rfl
  | finalize exposure =>
    rw [List.map_map]
    rfl

theorem functions_setFunctionGroup (r : Registry Upcast Code) (g : OverloadGroup) :
    (r.setFunctionGroup g).functions.map (·.name) = addOnce (r.functions.map (·.name)) g.name := by
  have hmem : (r.functionGroup? g.name).isSome = true ↔ g.name ∈ r.functions.map (·.name) := by
    rw [functionGroup?, List.find?_isSome, List.mem_map]
    simp only [decide_eq_true_eq]
  unfold setFunctionGroup addOnce
  by_cases hold : (r.functionGroup? g.name).isSome = true
  · rw [if_pos hold, if_pos (hmem.1 hold), List.map_map]
    refine List.map_congr_left fun e _ => ?_
    rw [Function.comp_apply]
    split
    · rename_i he
      exact he.symm
    · rfl
  · rw [if_neg hold, if_neg (mt hmem.2 hold), List.map_append]
    rfl

theorem Accepts.functions (h : Accepts r op r') :
    r'.functions.map (·.name) = addOnce? (r.functions.map (·.name)) op.overloads := by
  have hmention (c : Class) (name : String) (size : Nat) : (r.mention c name size).functions = r.functions := by
    unfold mention
    split <;> rfl
  cases h with
  | cls info m hnew hm =>
    change m.functions.map _ = _
    rw [hm]
    exact congrArg (List.map _) (hmention ..)
  | super derived base upcast d hd hdecl => exact congrArg (List.map _) (hmention ..)
  | function name g flags shape id code entry hname =>
    rw [functions_setFunctionGroup, hname]
    rfl
  | finalize exposure =>
    rw [List.map_map]
    rfl
  | _ => rfl

/-! ## Filed entries -/

/-- The place, the shape and the flags of what was filed. -/
def Filing.outline (f : Filing Code) : Holder × CallShape × TypeFlags :=
  (f.holder, f.shape, f.entry.flags)

theorem step_files (h : r.attempt op = .ok r') : (r.step op).2.map (·.outline) = op.files.toList := by
  cases op with
  | entry holder flags shape id code =>
    rw [attempt] at h
    rw [step]
    cases hmade : r.declareEntry holder flags shape id code with
    | error e =>
      rw [hmade] at h
      cases h
    | ok made => rfl
  | _ => rfl

/-! ## Records -/

/-- A registry holds what the operations of a record have made of it. -/
structure Recorded (r : Registry Upcast Code) (log : List (Operation Upcast Code)) (filings : List (Filing Code)) :
    Prop where
  types : r.types = TypeRegistry.empty.registerAll (log.flatMap (·.describes))
  classes : r.classes.map (·.cls) = (log.filterMap (·.mentions)).eraseDups
  records : ∀ c, r.recordOf c = recordIn log c
  functions : r.functions.map (·.name) = (log.filterMap (·.overloads)).eraseDups
  filed : filings.map (·.outline) = log.filterMap (·.files)
  /-- No class is declared twice. -/
  once : (log.filterMap (·.introduces)).Nodup

theorem recorded_empty (maxArity : Nat) : (empty maxArity : Registry Upcast Code).Recorded [] [] :=
  ⟨rfl, rfl, fun _ => rfl, rfl, rfl, List.nodup_nil⟩

/-- A class that is not declared in a registry is not declared in its record. -/
theorem Recorded.introduces_new {log : List (Operation Upcast Code)} (hr : r.Recorded log filings) {c : Class}
    (hnew : ((r.class? c).map (·.declared)).getD false = false) : c ∉ log.filterMap (·.introduces) := by
  have hnone : (r.recordOf c).declaration = none := by
    unfold Registry.recordOf
    cases hc : r.class? c with
    | none => rfl
    | some d =>
      rw [hc] at hnew
      exact if_neg (Bool.eq_false_iff.1 hnew)
  rw [hr.records] at hnone
  intro hmem
  obtain ⟨op, hop, hintro⟩ := List.mem_filterMap.1 hmem
  have hdeclares := List.findSome?_eq_none_iff.1 hnone op hop
  cases op with
  | cls info =>
    rw [Operation.declares, if_pos (Option.some.inj hintro)] at hdeclares
    cases hdeclares
  | _ => cases hintro

theorem Recorded.step {log : List (Operation Upcast Code)} (hr : r.Recorded log filings) (h : r.attempt op = .ok r') :
    r'.Recorded (log ++ [op]) (filings ++ (r.step op).2) := by
  have hop := accepts_of_attempt h
  refine ⟨?_, ?_, fun c => ?_, ?_, ?_, ?_⟩
  · rw [hop.types, hr.types, List.flatMap_append, List.flatMap_singleton, TypeRegistry.registerAll,
      TypeRegistry.registerAll, TypeRegistry.registerAll, List.foldl_append]
  · rw [hop.classes, hr.classes, eraseDups_filterMap_concat]
  · rw [hop.recordOf, hr.records, recordIn_concat]
  · rw [hop.functions, hr.functions, eraseDups_filterMap_concat]
  · rw [List.map_append, List.filterMap_append, hr.filed, step_files h]
    cases hfiles : op.files <;> simp [hfiles]
  · rw [List.filterMap_append]
    cases hop with
    | cls info m hnew hm => exact List.concat_eq_append ▸ hr.once.concat (hr.introduces_new hnew)
    | _ => simpa [Operation.introduces] using hr.once

/-- **What a registry holds after any operations is recorded by those that succeeded.** -/
theorem leftByAll_recorded (maxArity : Nat) (ops : List (Operation Upcast Code)) :
    ((empty maxArity).leftByAll ops).Recorded ((empty maxArity).accepted ops) ((empty maxArity).run ops).2 := by
  have hrun := accepted_induction (P := Recorded) (fun _ => Recorded.step) ops (intact_empty maxArity)
    (recorded_empty maxArity)
  rwa [List.nil_append, List.nil_append] at hrun

theorem leftByAll_intact (maxArity : Nat) (ops : List (Operation Upcast Code)) :
    ((empty maxArity).leftByAll ops).Intact ((empty maxArity).run ops).2 := by
  rw [leftByAll_eq ops (intact_empty maxArity)]
  exact run_intact maxArity ops

/-! ## Declared classes -/

variable {log : List (Operation Upcast Code)}

/-- A declared class was declared with some metadata. -/
theorem Recorded.declared_by (hr : r.Recorded log filings) (hwf : r.WellFormed) {d : ClassDescriptor Upcast}
    (hd : d ∈ r.classes) (hdecl : d.declared = true) : ∃ info, .cls info ∈ log ∧ info.token.asClass = d.cls := by
  have hrecord := hr.records d.cls
  rw [recordOf_of_some (hwf.class?_eq hd)] at hrecord
  have hdeclaration := congrArg ClassRecord.declaration hrecord
  rw [ClassDescriptor.record, if_pos hdecl] at hdeclaration
  obtain ⟨op, hop, hdeclares⟩ := List.exists_of_findSome?_eq_some hdeclaration.symm
  cases op with
  | cls info =>
    rw [Operation.declares] at hdeclares
    split at hdeclares
    · rename_i hcls
      exact ⟨info, hop, hcls⟩
    · cases hdeclares
  | _ => cases hdeclares

theorem Recorded.declaration_eq (hr : r.Recorded log filings) {info : TypeInfo} (hinfo : .cls info ∈ log) :
    (r.recordOf info.token.asClass).declaration = some (info.name, info.size) := by
  rw [hr.records]
  cases hfound : (recordIn log info.token.asClass).declaration with
  | none =>
    have hnone := List.findSome?_eq_none_iff.1 hfound _ hinfo
    rw [Operation.declares, if_pos rfl] at hnone
    cases hnone
  | some p =>
    obtain ⟨op, hop, hdeclares⟩ := List.exists_of_findSome?_eq_some hfound
    cases op with
    | cls other =>
      rw [Operation.declares] at hdeclares
      split at hdeclares
      · -- No class is declared twice, so this is the same declaration.
        rename_i hsame
        have hintro : (.cls other : Operation Upcast Code).introduces = some info.token.asClass := congrArg some hsame
        cases eq_of_nodup_filterMap hintro rfl hr.once hop hinfo
        exact hdeclares.symm
      · cases hdeclares
    | _ => cases hdeclares

/-- What was declared is described as it was declared. -/
theorem Recorded.described (hr : r.Recorded log filings) {info : TypeInfo} (hinfo : .cls info ∈ log) :
    ∃ d ∈ r.classes, d.cls = info.token.asClass ∧ d.declared = true ∧ d.name = info.name ∧ d.size = info.size := by
  have hdeclaration := hr.declaration_eq hinfo
  unfold Registry.recordOf at hdeclaration
  cases hd : r.class? info.token.asClass with
  | none =>
    rw [hd] at hdeclaration
    cases hdeclaration
  | some d =>
    rw [hd] at hdeclaration
    change (if d.declared then some (d.name, d.size) else none) = some (info.name, info.size) at hdeclaration
    split at hdeclaration
    · rename_i hdecl
      obtain ⟨hname, hsize⟩ := Prod.mk.inj (Option.some.inj hdeclaration)
      exact ⟨d, (class?_mem hd).1, (class?_mem hd).2, hdecl, hname, hsize⟩
    · cases hdeclaration

end Registry
end NativeBridge
