import NativeBridge.Engine.Basic
import NativeBridge.Proofs.Engine.Constructors
import NativeBridge.Proofs.Registry.MemberLookup
/-!
# What the groups of an engine resolve to

In a registry of typed declarations every overload of a group leads to a typed entry of the kind that the group is
for, under a signature with the entry's own parameter types, and as many of them as the overload's arity says
(`Registry.Settles`). Each declaration keeps this, and closing the registry does.
-/
namespace NativeBridge

/-! ## Signatures and groups -/

namespace SignatureTable
variable {Code : Type} {t : SignatureTable Code}

/-- Every signature is filed under the tokens of its own arguments. -/
def Filed (t : SignatureTable Code) : Prop :=
  ∀ s ∈ t.signatures, s.key.args = s.args.map NativeType.token

/-- What is under a reference stays there, under the same arguments. -/
def Grows (t t' : SignatureTable Code) : Prop :=
  ∀ ref s e, t.entry? ref = some (s, e) → ∃ s', t'.entry? ref = some (s', e) ∧ s'.args = s.args

theorem entry?_eq_some {ref : EntryRef} {s : Signature Code} {e : SignatureEntry Code} :
    t.entry? ref = some (s, e) ↔ t.get? ref.signature = some s ∧ s.entries[ref.index]? = some e := by
  unfold entry?
  cases t.get? ref.signature with
  | none => simp
  | some s' =>
    rw [Option.bind_some]
    cases h : s'.entries[ref.index]? with
    | none =>
      constructor
      · intro he
        cases he
      · rintro ⟨hs, he⟩
        cases hs
        rw [h] at he
        cases he
    | some e' =>
      constructor
      · intro he
        cases he
        exact ⟨rfl, h⟩
      · rintro ⟨hs, he⟩
        cases hs
        rw [h] at he
        cases he
        rfl

/-- The signature of a shape is there once it is created, with arguments of the same tokens, and no other has
changed. -/
theorem create_spec (ht : t.Filed) (shape : CallShape) (strict : Bool) :
    (t.create shape strict).2.Filed ∧
    (∃ s, (t.create shape strict).2.get? (t.create shape strict).1 = some s ∧
      s.args.map NativeType.token = shape.args.map NativeType.token) ∧
    (∀ id s, t.get? id = some s → (t.create shape strict).2.get? id = some s) ∧
    (∀ id s, (t.create shape strict).2.get? id = some s → t.get? id = some s ∨ s.entries = []) := by
  unfold create
  cases hfind : t.find? (shape.key strict) with
  | some id =>
    refine ⟨ht, ?_, fun _ _ h => h, fun _ _ h => .inl h⟩
    obtain ⟨hlt, hkey, -⟩ := List.findIdx?_eq_some_iff_getElem.mp hfind
    refine ⟨t.signatures[id], List.getElem?_eq_getElem hlt, ?_⟩
    rw [← ht _ (List.getElem_mem hlt), of_decide_eq_true hkey]
    rfl
  | none =>
    have hlast : (⟨t.signatures ++ [⟨shape.key strict, shape.args, shape.ret, []⟩]⟩ : SignatureTable Code).get?
        t.signatures.length = some ⟨shape.key strict, shape.args, shape.ret, []⟩ :=
      List.getElem?_concat_length
    refine ⟨fun s hs => ?_, ⟨_, hlast, rfl⟩, fun id s h => ?_, fun id s h => ?_⟩
    · rcases List.mem_append.mp hs with hs | hs
      · exact ht s hs
      · rw [List.mem_singleton.mp hs]
        rfl
    · exact (List.getElem?_append_left (List.getElem?_eq_some_iff.mp h).1).trans h
    · change (t.signatures ++ _)[id]? = some s at h
      rw [List.getElem?_append] at h
      split at h
      · exact .inl h
      · right
        rw [List.mem_singleton.mp (List.mem_of_getElem? h)]

/-- A registered entry is under its reference, with arguments of the tokens of its shape, and everything else under
another reference is as before. -/
theorem register_spec (ht : t.Filed) (shape : CallShape) (entry : SignatureEntry Code) :
    (t.register shape entry).2.Filed ∧ t.Grows (t.register shape entry).2 ∧
    (∃ s, SignatureTable.entry? (t.register shape entry).2 (t.register shape entry).1 = some (s, entry) ∧
      s.args.map NativeType.token = shape.args.map NativeType.token) ∧
    (∀ ref s e, SignatureTable.entry? (t.register shape entry).2 ref = some (s, e) →
      (∃ s', t.entry? ref = some (s', e) ∧ s'.args = s.args) ∨
        e = entry ∧ s.args.map NativeType.token = shape.args.map NativeType.token) := by
  obtain ⟨hfiled, ⟨s₀, hs₀, hargs⟩, hold, hnew⟩ := create_spec ht shape (entry.flags.contains .strict)
  unfold register
  generalize t.create shape (entry.flags.contains .strict) = made at *
  obtain ⟨id, t'⟩ := made
  dsimp only at *
  have hget (n : Nat) : (⟨t'.signatures.modify id fun s => { s with entries := s.entries ++ [entry] }⟩ :
      SignatureTable Code).get? n =
      (t'.get? n).map fun s => if id = n then { s with entries := s.entries ++ [entry] } else s := by
    change (t'.signatures.modify id _)[n]? = (t'.signatures[n]?).map _
    rw [List.getElem?_modify]
    congr 1
  refine ⟨fun s hs => ?_, fun ref s e he => ?_, ?_, fun ref s e he => ?_⟩
  · obtain ⟨n, hn⟩ := List.mem_iff_getElem?.mp hs
    have hn' := hget n
    rw [show (⟨t'.signatures.modify id fun s => { s with entries := s.entries ++ [entry] }⟩ :
      SignatureTable Code).get? n = some s from hn] at hn'
    obtain ⟨s', hs', rfl⟩ := Option.map_eq_some_iff.mp hn'.symm
    have hkey := hfiled s' (List.mem_of_getElem? hs')
    split <;> exact hkey
  · obtain ⟨hs, hi⟩ := entry?_eq_some.mp he
    refine ⟨if id = ref.signature then { s with entries := s.entries ++ [entry] } else s,
      entry?_eq_some.mpr ⟨?_, ?_⟩, by split <;> rfl⟩
    · rw [hget, hold _ _ hs]
      rfl
    · split
      · exact (List.getElem?_append_left (List.getElem?_eq_some_iff.mp hi).1).trans hi
      · exact hi
  · refine ⟨{ s₀ with entries := s₀.entries ++ [entry] }, entry?_eq_some.mpr ⟨?_, ?_⟩, hargs⟩
    · rw [hget, hs₀]
      simp
    · rw [hs₀]
      simp
  · obtain ⟨hs, hi⟩ := entry?_eq_some.mp he
    rw [hget] at hs
    obtain ⟨s', hs', rfl⟩ := Option.map_eq_some_iff.mp hs
    have hbefore {e : SignatureEntry Code} (hi : s'.entries[ref.index]? = some e) :
        ∃ s'', t.entry? ref = some (s'', e) ∧ s''.args = s'.args := by
      rcases hnew _ _ hs' with hs' | hnil
      · exact ⟨s', entry?_eq_some.mpr ⟨hs', hi⟩, rfl⟩
      · rw [hnil] at hi
        cases hi
    by_cases hid : id = ref.signature
    · rw [if_pos hid] at hi ⊢
      rw [← hid, hs₀] at hs'
      cases hs'
      rw [List.getElem?_append] at hi
      split at hi
      · exact .inl (hbefore hi)
      · exact .inr ⟨(List.mem_singleton.mp (List.mem_of_getElem? hi)), hargs⟩
    · rw [if_neg hid] at hi ⊢
      exact .inl (hbefore hi)

end SignatureTable

theorem Registry.entry_eq_ok {Upcast Code : Type} {r : Registry Upcast Code} {ref : EntryRef}
    {found : Signature Code × SignatureEntry Code} : r.entry ref = .ok found ↔ r.signatures.entry? ref = some found := by
  unfold entry
  cases r.signatures.entry? ref with
  | none => simp
  | some found' => simp

namespace OverloadGroup

theorem lookup_insertAt {n : Nat} {ref : EntryRef} : ∀ {overloads : List (Nat × EntryRef)}, overloads.lookup n = none →
    ∀ k, (insertAt n ref overloads).lookup k = if k = n then some ref else overloads.lookup k
  | [], _, k => by
    rw [insertAt, List.lookup_cons]
    by_cases hk : k = n
    · rw [hk, beq_self_eq_true, if_pos rfl]
    · rw [beq_eq_false_iff_ne.mpr hk, if_neg hk]
  | (m, e) :: rest, h, k => by
    rw [List.lookup_cons] at h
    have hne : n ≠ m := by
      rintro rfl
      rw [beq_self_eq_true] at h
      cases h
    have hrest : rest.lookup n = none := by
      rw [beq_eq_false_iff_ne.mpr hne] at h
      exact h
    rw [insertAt]
    split
    · rw [List.lookup_cons]
      by_cases hk : k = n
      · rw [hk, beq_self_eq_true, if_pos rfl]
      · rw [beq_eq_false_iff_ne.mpr hk, if_neg hk]
    · rw [List.lookup_cons, lookup_insertAt hrest k, List.lookup_cons]
      by_cases hk : k = n
      · rw [hk, beq_eq_false_iff_ne.mpr hne, if_pos rfl]
      · rw [if_neg hk, if_neg hk]

theorem insert_ok {g g' : OverloadGroup} {n : Nat} {ref : EntryRef} (h : g.insert n ref = .ok g') (k : Nat) :
    g'.overload? k = if k = n then some ref else g.overload? k := by
  unfold insert at h
  split at h
  · cases h
  split at h
  · cases h
  rename_i hnone
  cases h
  exact lookup_insertAt (Option.not_isSome_iff_eq_none.mp hnone) k

theorem resolve_ok {g : OverloadGroup} {n : Nat} {ref : EntryRef} :
    g.resolve n = .ok ref ↔ g.overload? n = some ref := by
  unfold resolve
  cases g.overload? n with
  | none => simp
  | some e => simp

end OverloadGroup

/-! ## Typed declarations -/

variable {Ω : Type} [ObjectModel Ω]

/-- What may be declared as a member of a class, by the member's kind. -/
def Entry.Serves (c : Class) : MemberKind → Entry Ω → Prop
  | .method, .method k _ _ _ => k = c
  | .method, .methodMut k _ _ _ => k = c
  | .getter, .method k _ _ _ => k = c
  | .setter, .methodMut k _ _ _ => k = c
  | .constructor, .constructor k _ _ => k = c
  | .staticMethod, .function _ _ _ => True
  | _, _ => False

/-- An entry that needs no class. -/
def Entry.IsFree : Entry Ω → Prop
  | .function _ _ _ => True
  | _ => False

theorem Entry.shape_args (e : Entry Ω) : e.shape.args = e.params := by
  cases e <;> rfl

/-- Every overload of the group leads to a typed entry with the property, under a signature with its parameters and
of its arity. -/
def OverloadGroup.Leads (g : OverloadGroup) (t : SignatureTable (Code Ω)) (serves : Entry Ω → Prop) : Prop :=
  ∀ n ref, g.overload? n = some ref → ∃ s e entry, t.entry? ref = some (s, e) ∧ e.code = .typed entry ∧
    s.args.length = n ∧ s.args.map NativeType.token = entry.params.map NativeType.token ∧ serves entry

theorem OverloadGroup.leads_empty (name : String) (scope : GroupScope) (t : SignatureTable (Code Ω))
    (serves : Entry Ω → Prop) : (empty name scope).Leads t serves := by
  intro n ref h
  cases h

theorem OverloadGroup.Leads.grow {g : OverloadGroup} {t t' : SignatureTable (Code Ω)} {serves : Entry Ω → Prop}
    (hg : g.Leads t serves) (ht : t.Grows t') : g.Leads t' serves := by
  intro n ref h
  obtain ⟨s, e, entry, he, hcode, hlength, htokens, hserves⟩ := hg n ref h
  obtain ⟨s', he', hargs⟩ := ht ref s e he
  exact ⟨s', e, entry, he', hcode, hargs ▸ hlength, hargs ▸ htokens, hserves⟩

namespace ClassDescriptor

/-- Every group of the descriptor leads to what it is for. -/
structure Leads (d : ClassDescriptor (Upcast Ω)) (t : SignatureTable (Code Ω)) : Prop where
  constructors : d.constructors.Leads t (Entry.Serves d.cls .constructor)
  members : ∀ m ∈ d.members, m.group.Leads t (Entry.Serves d.cls m.key.kind)

variable {d : ClassDescriptor (Upcast Ω)} {t t' : SignatureTable (Code Ω)}

theorem Leads.grow (hd : d.Leads t) (ht : t.Grows t') : d.Leads t' :=
  ⟨hd.constructors.grow ht, fun m hm => (hd.members m hm).grow ht⟩

theorem leads_placeholder (c : Class) (name : String) (size : Nat) :
    (placeholder c name size : ClassDescriptor (Upcast Ω)).Leads t :=
  ⟨OverloadGroup.leads_empty _ _ _ _, fun _ hm => nomatch hm⟩

theorem Leads.declare (hd : d.Leads t) (name : String) (size : Nat) : (d.declare name size).Leads t := by
  refine ⟨?_, hd.members⟩
  unfold ClassDescriptor.declare
  dsimp only
  split
  · exact hd.constructors
  · exact OverloadGroup.leads_empty _ _ _ _

theorem Leads.addSuper (hd : d.Leads t) (base : Class) (upcast : Upcast Ω) : (d.addSuper base upcast).Leads t := by
  unfold ClassDescriptor.addSuper
  split <;> exact ⟨hd.constructors, hd.members⟩

theorem Leads.setGroup (hd : d.Leads t) (key : GroupKey) {g : OverloadGroup}
    (hg : g.Leads t (Entry.Serves d.cls key.kind)) : ((d.withGroup key).setGroup key g).Leads t := by
  have hcls : (d.withGroup key).cls = d.cls ∧ (d.withGroup key).constructors = d.constructors := by
    unfold withGroup
    split <;> exact ⟨rfl, rfl⟩
  have hmembers : ∀ m ∈ (d.withGroup key).members, m.group.Leads t (Entry.Serves d.cls m.key.kind) := by
    unfold withGroup
    split
    · exact hd.members
    · intro m hm
      rcases List.mem_append.mp hm with hm | hm
      · exact hd.members m hm
      · rw [List.mem_singleton.mp hm]
        exact OverloadGroup.leads_empty _ _ _ _
  refine ⟨?_, fun m hm => ?_⟩
  · change (d.withGroup key).constructors.Leads t (Entry.Serves (d.withGroup key).cls .constructor)
    rw [hcls.1, hcls.2]
    exact hd.constructors
  · change m.group.Leads t (Entry.Serves (d.withGroup key).cls m.key.kind)
    rw [hcls.1]
    obtain ⟨m', hm', rfl⟩ := List.mem_map.mp hm
    split
    · rename_i hkey
      rw [hkey]
      exact hg
    · exact hmembers m' hm'

theorem group?_leads (hd : d.Leads t) (key : GroupKey) :
    ((d.group? key).getD (.empty key.name (.cls d.cls))).Leads t (Entry.Serves d.cls key.kind) := by
  unfold group?
  cases hm : d.members.find? (·.key = key) with
  | none => exact OverloadGroup.leads_empty _ _ _ _
  | some m =>
    have hkey : m.key = key := by simpa using List.find?_some hm
    have hleads := hd.members m (List.mem_of_find?_eq_some hm)
    rw [hkey] at hleads
    exact hleads

end ClassDescriptor

namespace Registry

/-- One accepted declaration of a class, of one of its typed members or of a typed function. -/
inductive DeclaresTyped : Registry (Upcast Ω) (Code Ω) → Registry (Upcast Ω) (Code Ω) → Prop
  | cls {r r'} (info : TypeInfo) : r.declareClass info = .ok r' → DeclaresTyped r r'
  | super {r r'} (derived : Class) (base : TypeInfo) (upcast : Upcast Ω) :
      r.declareSuper derived base upcast = .ok r' → DeclaresTyped r r'
  | valueType {r r'} (c : Class) : r.declareValueType c = .ok r' → DeclaresTyped r r'
  | constructor {r r'} (c : Class) (flags : TypeFlags) (entry : Entry Ω) (id : NameHash) (ref : EntryRef) :
      entry.Serves c .constructor → r.declareConstructor c flags entry.shape id (.typed entry) = .ok (ref, r') →
      DeclaresTyped r r'
  | member {r r'} (c : Class) (key : GroupKey) (flags : TypeFlags) (entry : Entry Ω) (id : NameHash)
      (ref : EntryRef) : entry.Serves c key.kind →
      r.declareMember c key flags entry.shape id (.typed entry) = .ok (ref, r') → DeclaresTyped r r'
  | function {r r'} (name : String) (flags : TypeFlags) (entry : Entry Ω) (id : NameHash) (ref : EntryRef) :
      entry.IsFree → r.declareFunction name flags entry.shape id (.typed entry) = .ok (ref, r') → DeclaresTyped r r'

/-- A registry that typed declarations lead to from an empty one. -/
def ReachedTyped (r : Registry (Upcast Ω) (Code Ω)) : Prop :=
  ∃ maxArity, Relation.ReflTransGen DeclaresTyped (empty maxArity) r

variable {r r' : Registry (Upcast Ω) (Code Ω)}

/-- A value type is declared with the constructor that its objects are rebuilt by. -/
theorem declares_value {r₁ r₂ : Registry (Upcast Ω) (Code Ω)} {c : Class} {flags : TypeFlags} {entry : Entry Ω}
    {id : NameHash} {ref : EntryRef} (hcls : r.declareClass c.info = .ok r₁) (hvalue : r₁.declareValueType c = .ok r₂)
    (hconstructor : r₂.declareConstructor c flags entry.shape id (.typed entry) = .ok (ref, r'))
    (hserves : entry.Serves c .constructor) : Relation.ReflTransGen DeclaresTyped r r' :=
  .tail (.tail (.tail .refl (.cls _ hcls)) (.valueType _ hvalue)) (.constructor _ _ _ _ _ hserves hconstructor)

theorem DeclaresTyped.declares (h : DeclaresTyped r r') : Declares r r' := by
  cases h with
  | cls info h => exact .cls info h
  | super derived base upcast h => exact .super derived base upcast h
  | valueType c h => exact .valueType c h
  | constructor c flags entry id ref _ h => exact .constructor c flags entry.shape id _ ref h
  | member c key flags entry id ref _ h => exact .member c key flags entry.shape id _ ref h
  | function name flags entry id ref _ h => exact .function name flags entry.shape id _ ref h

theorem ReachedTyped.reached (h : r.ReachedTyped) : r.Reached := by
  obtain ⟨maxArity, hsteps⟩ := h
  exact ⟨maxArity, Relation.ReflTransGen.mono (fun _ _ => DeclaresTyped.declares) _ _ hsteps⟩

/-- Every entry is typed and under its own parameters, and every group leads to what it is for. -/
structure Settles (r : Registry (Upcast Ω) (Code Ω)) : Prop where
  filed : r.signatures.Filed
  typed : ∀ ref s e, r.signatures.entry? ref = some (s, e) → ∃ entry, e.code = .typed entry ∧
    s.args.map NativeType.token = entry.params.map NativeType.token
  classes : ∀ d ∈ r.classes, d.Leads r.signatures
  functions : ∀ g ∈ r.functions, g.Leads r.signatures Entry.IsFree

theorem Settles.mention (hr : r.Settles) (c : Class) (name : String) (size : Nat) : (r.mention c name size).Settles := by
  unfold Registry.mention
  split
  · exact hr
  · refine ⟨hr.filed, hr.typed, fun d hd => ?_, hr.functions⟩
    rcases List.mem_append.mp hd with hd | hd
    · exact hr.classes d hd
    · rw [List.mem_singleton.mp hd]
      exact ClassDescriptor.leads_placeholder c name size

theorem Settles.update (hr : r.Settles) (c : Class) {f : ClassDescriptor (Upcast Ω) → ClassDescriptor (Upcast Ω)}
    (hf : ∀ d ∈ r.classes, d.cls = c → (f d).Leads r.signatures) : (r.update c f).Settles := by
  refine ⟨hr.filed, hr.typed, fun d hd => ?_, hr.functions⟩
  obtain ⟨d', hd', rfl⟩ := List.mem_map.mp hd
  split
  · rename_i hc
    exact hf d' hd' hc
  · exact hr.classes d' hd'

/-- Registering a typed entry in a group that leads to such entries. -/
theorem Settles.registerEntry (hr : r.Settles) {group group' : OverloadGroup} {entry : Entry Ω}
    {e : SignatureEntry (Code Ω)} {ref : EntryRef} {serves : Entry Ω → Prop} (hcode : e.code = .typed entry)
    (hserves : serves entry) (hgroup : group.Leads r.signatures serves)
    (h : r.registerEntry group entry.shape e = .ok (ref, group', r')) :
    r'.Settles ∧ group'.Leads r'.signatures serves ∧ r'.classes = r.classes ∧ r'.functions = r.functions := by
  unfold Registry.registerEntry at h
  obtain ⟨-, h⟩ := guard_ok h
  obtain ⟨-, h⟩ := guard_ok h
  obtain ⟨g, hg, h⟩ := NativeBridge.bind_ok h
  cases h
  obtain ⟨hfiled, hgrows, ⟨s, hs, hargs⟩, hold⟩ := SignatureTable.register_spec hr.filed entry.shape e
  rw [Entry.shape_args] at hargs
  refine ⟨⟨hfiled, fun ref s e' he => ?_, fun d hd => (hr.classes d hd).grow hgrows,
    fun g hg => (hr.functions g hg).grow hgrows⟩, fun n ref hn => ?_, rfl, rfl⟩
  · rcases hold ref s e' he with ⟨s', hs', hsame⟩ | ⟨rfl, hnew⟩
    · obtain ⟨entry', hcode', htokens⟩ := hr.typed ref s' e' hs'
      exact ⟨entry', hcode', hsame ▸ htokens⟩
    · exact ⟨entry, hcode, by rw [hnew, Entry.shape_args]⟩
  · rw [OverloadGroup.insert_ok hg] at hn
    split at hn
    · rename_i hn'
      cases hn
      refine ⟨s, e, entry, hs, hcode, ?_, hargs, hserves⟩
      have hlength := congrArg List.length hargs
      rw [List.length_map, List.length_map] at hlength
      rw [hlength, hn', CallShape.arity, Entry.shape_args]
    · exact hgroup.grow hgrows n ref hn

theorem DeclaresTyped.settles (h : DeclaresTyped r r') (hr : r.Settles) : r'.Settles := by
  cases h with
  | cls info h =>
    unfold declareClass at h
    obtain ⟨-, -, h⟩ := NativeBridge.bind_ok h
    obtain ⟨-, h⟩ := guard_ok h
    obtain ⟨-, h⟩ := guard_ok h
    cases h
    have hu := (hr.mention info.token.asClass info.name info.size).update info.token.asClass
      (f := (·.declare info.name info.size))
      fun d hd _ => ((hr.mention info.token.asClass info.name info.size).classes d hd).declare _ _
    exact ⟨hu.filed, hu.typed, hu.classes, hu.functions⟩
  | super derived base upcast h =>
    unfold declareSuper at h
    obtain ⟨-, -, h⟩ := NativeBridge.bind_ok h
    obtain ⟨d, -, h⟩ := NativeBridge.bind_ok h
    obtain ⟨-, h⟩ := guard_ok h
    cases h
    have hm := hr.mention base.token.asClass base.name base.size
    exact hm.update derived fun d hd _ => (hm.classes d hd).addSuper _ _
  | valueType c h =>
    unfold declareValueType at h
    obtain ⟨-, -, h⟩ := NativeBridge.bind_ok h
    obtain ⟨-, -, h⟩ := NativeBridge.bind_ok h
    cases h
    exact hr.update c fun d hd _ => ⟨(hr.classes d hd).constructors, (hr.classes d hd).members⟩
  | constructor c flags entry id ref hserves h =>
    unfold declareConstructor at h
    obtain ⟨-, -, h⟩ := NativeBridge.bind_ok h
    obtain ⟨d, hd, h⟩ := NativeBridge.bind_ok h
    obtain ⟨-, -, h⟩ := NativeBridge.bind_ok h
    obtain ⟨⟨ref', group, s⟩, hs, h⟩ := NativeBridge.bind_ok h
    cases h
    obtain ⟨hmem, rfl⟩ := class?_mem (declared_ok hd).1
    obtain ⟨hsettles, hgroup, hclasses, -⟩ :=
      hr.registerEntry rfl hserves (hr.classes d hmem).constructors hs
    refine hsettles.update d.cls fun d' hd' hcls => ⟨?_, (hsettles.classes d' hd').members⟩
    dsimp only
    rw [hcls]
    exact hgroup
  | member c key flags entry id ref hserves h =>
    unfold declareMember at h
    obtain ⟨-, -, h⟩ := NativeBridge.bind_ok h
    obtain ⟨d, hd, h⟩ := NativeBridge.bind_ok h
    obtain ⟨-, -, h⟩ := NativeBridge.bind_ok h
    obtain ⟨⟨ref', group, s⟩, hs, h⟩ := NativeBridge.bind_ok h
    cases h
    obtain ⟨hmem, rfl⟩ := class?_mem (declared_ok hd).1
    obtain ⟨hsettles, hgroup, hclasses, -⟩ :=
      hr.registerEntry rfl hserves (ClassDescriptor.group?_leads (hr.classes d hmem) key) hs
    refine hsettles.update d.cls fun d' hd' hcls => (hsettles.classes d' hd').setGroup key ?_
    rw [hcls]
    exact hgroup
  | function name flags entry id ref hfree h =>
    unfold declareFunction at h
    obtain ⟨-, -, h⟩ := NativeBridge.bind_ok h
    obtain ⟨-, -, h⟩ := NativeBridge.bind_ok h
    obtain ⟨⟨ref', group, s⟩, hs, h⟩ := NativeBridge.bind_ok h
    cases h
    have hbefore : ((r.functionGroup? name).getD (.empty name .global)).Leads r.signatures Entry.IsFree := by
      unfold functionGroup?
      cases hg : r.functions.find? (·.name = name) with
      | none => exact OverloadGroup.leads_empty _ _ _ _
      | some g => exact hr.functions g (List.mem_of_find?_eq_some hg)
    obtain ⟨hsettles, hgroup, -, -⟩ := hr.registerEntry rfl hfree hbefore hs
    unfold setFunctionGroup
    split
    · refine ⟨hsettles.filed, hsettles.typed, hsettles.classes, fun g hg => ?_⟩
      obtain ⟨g', hg', rfl⟩ := List.mem_map.mp hg
      split
      · exact hgroup
      · exact hsettles.functions g' hg'
    · refine ⟨hsettles.filed, hsettles.typed, hsettles.classes, fun g hg => ?_⟩
      rcases List.mem_append.mp hg with hg | hg
      · exact hsettles.functions g hg
      · rw [List.mem_singleton.mp hg]
        exact hgroup

/-- **In a registry of typed declarations every overload leads to a typed entry of its arity**, of the kind that its
group is for. -/
theorem ReachedTyped.settles (h : r.ReachedTyped) : r.Settles := by
  obtain ⟨maxArity, hsteps⟩ := h
  induction hsteps with
  | refl =>
    exact ⟨fun _ hs => (nomatch hs), fun _ _ _ he => (nomatch he), fun _ hd => (nomatch hd), fun _ hg => (nomatch hg)⟩
  | tail _ hstep ih => exact hstep.settles ih

/-- Closing a registry freezes its groups and changes no overload. -/
theorem Settles.finalize (hr : r.Settles) (h : r.finalize = .ok r') : r'.Settles := by
  unfold Registry.finalize at h
  obtain ⟨-, -, h⟩ := NativeBridge.bind_ok h
  obtain ⟨_, -, h⟩ := NativeBridge.bind_ok h
  cases h
  refine ⟨hr.filed, hr.typed, fun d hd => ?_, fun g hg => ?_⟩
  · obtain ⟨d', hd', rfl⟩ := List.mem_map.mp hd
    refine ⟨(hr.classes d' hd').constructors, fun m hm => ?_⟩
    obtain ⟨m', hm', rfl⟩ := List.mem_map.mp hm
    exact (hr.classes d' hd').members m' hm'
  · obtain ⟨g', hg', rfl⟩ := List.mem_map.mp hg
    exact hr.functions g' hg'

end Registry
end NativeBridge
