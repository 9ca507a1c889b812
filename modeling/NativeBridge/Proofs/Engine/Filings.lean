import Mathlib.Data.List.Nodup
import NativeBridge.Proofs.Engine.Entries
/-!
# Filed entries

What may be asked of a registry (`Registry.Operation`, `Registry.run`), and what the accepted declarations of entries leave
behind: an entry of the signature table for each (`SignatureTable.Files`), and its reference in one group
(`OverloadGroup.Backed`, `ClassDescriptor.Intact`).
-/
namespace NativeBridge

/-! ## Lists with one item for each key -/

theorem nodup_map_concat {α κ : Type} {key : α → κ} {l : List α} {a : α} (hl : (l.map key).Nodup)
    (ha : key a ∉ l.map key) : ((l ++ [a]).map key).Nodup := by
  rw [List.map_append, List.map_singleton, ← List.concat_eq_append]
  exact hl.concat ha

theorem lookup_of_ascending {α : Type} {n : Nat} {a : α} : ∀ {l : List (Nat × α)}, l.Pairwise (·.1 < ·.1) →
    (l.lookup n = some a ↔ (n, a) ∈ l)
  | [], _ => by simp
  | (m, b) :: rest, hasc => by
    rw [List.pairwise_cons] at hasc
    rw [List.lookup_cons, List.mem_cons]
    by_cases hnm : n = m
    · subst hnm
      rw [beq_self_eq_true]
      refine ⟨fun h => .inl ?_, fun h => ?_⟩
      · cases h
        rfl
      · rcases h with h | h
        · cases h
          rfl
        · exact absurd (hasc.1 _ h) (lt_irrefl _)
    · rw [beq_eq_false_iff_ne.2 hnm]
      refine (lookup_of_ascending hasc.2).trans ⟨.inr, fun h => h.resolve_left ?_⟩
      rintro ⟨⟩
      exact hnm rfl

theorem map_update_of_not_mem {α κ : Type} [DecidableEq κ] {key : α → κ} {k : κ} {f : α → α} {l : List α}
    (h : k ∉ l.map key) : (l.map fun a => if key a = k then f a else a) = l := by
  refine (List.map_congr_left fun a ha => ?_).trans (List.map_id l)
  have hne : key a ≠ k := fun hk => h (hk ▸ List.mem_map_of_mem ha)
  simp [hne]

/-- Where the item of a key comes to hold one thing more, so does the list. -/
theorem perm_flatMap_update {α β κ : Type} [DecidableEq κ] {k : α → κ} {h : α → List β} {f : α → α} {a : α} {x : β}
    (hf : (h (f a)).Perm (x :: h a)) : ∀ {l : List α}, (l.map k).Nodup → a ∈ l →
      ((l.map fun b => if k b = k a then f b else b).flatMap h).Perm (x :: l.flatMap h)
  | b :: l, hnodup, ha => by
    rw [List.map_cons, List.nodup_cons] at hnodup
    rcases List.mem_cons.1 ha with rfl | ha
    · rw [List.map_cons, map_update_of_not_mem hnodup.1, if_pos rfl]
      exact hf.append_right _
    · have hne : k b ≠ k a := fun h => hnodup.1 (h ▸ List.mem_map_of_mem ha)
      have hrest := perm_flatMap_update hf hnodup.2 ha
      rw [List.map_cons, if_neg hne]
      exact (hrest.append_left _).trans List.perm_middle

/-! ## Operations -/

namespace Registry
variable {Upcast Code : Type}

/-- Which of the groups of a registry. -/
inductive Holder where
  | constructors (c : Class)
  | member (c : Class) (key : GroupKey)
  | function (name : String)
deriving DecidableEq

/-- The flag that an entry gets from where it is declared. -/
def Holder.flags : Holder → TypeFlags
  | .constructors _ => .static
  | .member _ key => if key.kind.isStatic then .static else .method
  | .function _ => .static

/-- Declare an entry of a group. -/
def declareEntry (r : Registry Upcast Code) (h : Holder) (flags : TypeFlags) (shape : CallShape) (id : NameHash)
    (code : Code) : Except RegistrationError (EntryRef × Registry Upcast Code) :=
  match h with
  | .constructors c => r.declareConstructor c flags shape id code
  | .member c key => r.declareMember c key flags shape id code
  | .function name => r.declareFunction name flags shape id code

/-- What may be asked of a registry. -/
inductive Operation (Upcast Code : Type) where
  | cls (info : TypeInfo)
  | super (derived : Class) (base : TypeInfo) (upcast : Upcast)
  | valueType (c : Class)
  | entry (h : Holder) (flags : TypeFlags) (shape : CallShape) (id : NameHash) (code : Code)
  | finalize

/-- The name that a group has or will have. -/
def groupName (r : Registry Upcast Code) : Holder → String
  | .constructors c => ((r.class? c).map (·.name)).getD ""
  | .member _ key => key.name
  | .function name => name

/-- An accepted declaration of an entry: where it went, its shape, what was filed, and the reference that came back. -/
structure Filing (Code : Type) where
  holder : Holder
  shape : CallShape
  entry : SignatureEntry Code
  ref : EntryRef

/-- Receiver, result and argument tokens, and whether the arguments are always checked. -/
def Filing.key (f : Filing Code) : SignatureKey :=
  f.shape.key (f.entry.flags.contains .strict)

/-- The registry after an operation, with the entry that it filed. What is refused changes nothing. -/
def step (r : Registry Upcast Code) : Operation Upcast Code → Registry Upcast Code × List (Filing Code)
  | .cls info => ((r.declareClass info).toOption.getD r, [])
  | .super derived base upcast => ((r.declareSuper derived base upcast).toOption.getD r, [])
  | .valueType c => ((r.declareValueType c).toOption.getD r, [])
  | .entry h flags shape id code =>
    match r.declareEntry h flags shape id code with
    | .ok (ref, r') => (r', [⟨h, shape, ⟨r.groupName h, flags.union h.flags, id, code⟩, ref⟩])
    | .error _ => (r, [])
  | .finalize => (r.finalize.toOption.getD r, [])

/-- The registry after some operations, with the entries that they filed. -/
def run (r : Registry Upcast Code) : List (Operation Upcast Code) → Registry Upcast Code × List (Filing Code)
  | [] => (r, [])
  | op :: ops => (((r.step op).1.run ops).1, (r.step op).2 ++ ((r.step op).1.run ops).2)

theorem run_append (ops later : List (Operation Upcast Code)) : ∀ r : Registry Upcast Code,
    r.run (ops ++ later) = (((r.run ops).1.run later).1, (r.run ops).2 ++ ((r.run ops).1.run later).2) := by
  induction ops with
  | nil => exact fun r => rfl
  | cons op ops ih =>
    intro r
    rw [List.cons_append, run, ih]
    simp only [run, List.append_assoc]

end Registry

open Registry (Holder Filing)

/-! ## The signature table -/

namespace SignatureTable
variable {Code : Type} {t : SignatureTable Code}

theorem create_cases (t : SignatureTable Code) (shape : CallShape) (strict : Bool) :
    (∃ id s, t.create shape strict = (id, t) ∧ t.get? id = some s ∧ s.key = shape.key strict) ∨
    (t.create shape strict =
        (t.signatures.length, ⟨t.signatures ++ [⟨shape.key strict, shape.args, shape.ret, []⟩]⟩) ∧
      shape.key strict ∉ t.signatures.map (·.key)) := by
  unfold create
  cases hfind : t.find? (shape.key strict) with
  | some id =>
    obtain ⟨hlt, hkey, -⟩ := List.findIdx?_eq_some_iff_getElem.1 hfind
    exact .inl ⟨id, t.signatures[id], rfl, List.getElem?_eq_getElem hlt, of_decide_eq_true hkey⟩
  | none =>
    refine .inr ⟨rfl, fun hmem => ?_⟩
    obtain ⟨s, hs, hkey⟩ := List.mem_map.1 hmem
    have hnone := List.findIdx?_eq_none_iff.1 hfind s hs
    exact of_decide_eq_false hnone hkey

/-- The entry under a reference, with the key of its signature. -/
def keyed (t : SignatureTable Code) (ref : EntryRef) : Option (SignatureKey × SignatureEntry Code) :=
  (t.get? ref.signature).bind fun s => s.entries[ref.index]?.map fun e => (s.key, e)

theorem keyed_eq_some {ref : EntryRef} {k : SignatureKey} {e : SignatureEntry Code} :
    t.keyed ref = some (k, e) ↔ ∃ s, t.entry? ref = some (s, e) ∧ s.key = k := by
  simp only [entry?_eq_some, keyed, Option.bind_eq_some_iff, Option.map_eq_some_iff, Prod.mk.injEq]
  constructor
  · rintro ⟨s, hs, e', he, hkey, rfl⟩
    exact ⟨s, ⟨hs, he⟩, hkey⟩
  · rintro ⟨s, ⟨hs, he⟩, hkey⟩
    exact ⟨s, hs, e, he, hkey, rfl⟩

/-- Creating a signature adds no entry. -/
theorem keyed_create (shape : CallShape) (strict : Bool) (ref : EntryRef) :
    (t.create shape strict).2.keyed ref = t.keyed ref := by
  rcases create_cases t shape strict with ⟨id, s, h, -⟩ | ⟨h, -⟩
  · rw [h]
  · rw [h]
    unfold keyed get?
    by_cases hlt : ref.signature < t.signatures.length
    · rw [List.getElem?_append_left hlt]
    · rw [List.getElem?_append_right (by omega), List.getElem?_eq_none (l := t.signatures) (by omega)]
      cases ref.signature - t.signatures.length <;> rfl

theorem get?_create (t : SignatureTable Code) (shape : CallShape) (strict : Bool) :
    ∃ s, (t.create shape strict).2.get? (t.create shape strict).1 = some s ∧ s.key = shape.key strict := by
  rcases create_cases t shape strict with ⟨id, s, h, hs, hkey⟩ | ⟨h, -⟩
  · exact ⟨s, by rw [h]; exact hs, hkey⟩
  · exact ⟨_, by rw [h]; exact List.getElem?_concat_length, rfl⟩

theorem keys_create (ht : (t.signatures.map (·.key)).Nodup) (shape : CallShape) (strict : Bool) :
    ((t.create shape strict).2.signatures.map (·.key)).Nodup := by
  rcases create_cases t shape strict with ⟨id, s, h, -⟩ | ⟨h, hnew⟩
  · rw [h]
    exact ht
  · rw [h]
    exact nodup_map_concat ht hnew

/-- A registered entry comes last under the signature of its shape. -/
theorem register_eq (t : SignatureTable Code) (shape : CallShape) (entry : SignatureEntry Code) :
    ∃ (id : Nat) (s : Signature Code) (t' : SignatureTable Code), t'.get? id = some s ∧
      s.key = shape.key (entry.flags.contains .strict) ∧ (∀ ref, t'.keyed ref = t.keyed ref) ∧
      ((t.signatures.map (·.key)).Nodup → (t'.signatures.map (·.key)).Nodup) ∧
      t.register shape entry =
        (⟨id, s.entries.length⟩, ⟨t'.signatures.modify id fun s => { s with entries := s.entries ++ [entry] }⟩) := by
  obtain ⟨s, hs, hkey⟩ := get?_create t shape (entry.flags.contains .strict)
  refine ⟨_, s, _, hs, hkey, keyed_create shape _, fun ht => keys_create ht _ _, ?_⟩
  unfold register
  simp only [hs, Option.map_some, Option.getD_some]

theorem keys_modify (signatures : List (Signature Code)) (id : Nat) (entry : SignatureEntry Code) :
    (signatures.modify id fun s => { s with entries := s.entries ++ [entry] }).map (·.key) =
      signatures.map (·.key) := by
  refine List.ext_getElem? fun n => ?_
  rw [List.getElem?_map, List.getElem?_map, List.getElem?_modify]
  cases signatures[n]? with
  | none => rfl
  | some s => by_cases h : id = n <;> simp [h]

/-- After an entry is registered it alone is new, and every signature keeps its key. -/
theorem keyed_register (t : SignatureTable Code) (shape : CallShape) (entry : SignatureEntry Code) (ref : EntryRef) :
    t.keyed (t.register shape entry).1 = none ∧ (t.register shape entry).2.keyed ref =
      if ref = (t.register shape entry).1 then some (shape.key (entry.flags.contains .strict), entry) else t.keyed ref := by
  obtain ⟨id, s, t', hs, hkey, hold, -, hreg⟩ := register_eq t shape entry
  rw [hreg, ← hold, ← hold]
  refine ⟨by simp [keyed, hs], ?_⟩
  have hget (n : Nat) : (⟨t'.signatures.modify id fun s => { s with entries := s.entries ++ [entry] }⟩ :
      SignatureTable Code).get? n =
      (t'.get? n).map fun s => if id = n then { s with entries := s.entries ++ [entry] } else s := by
    change (t'.signatures.modify id _)[n]? = (t'.signatures[n]?).map _
    rw [List.getElem?_modify]
    congr 1
  obtain ⟨n, i⟩ := ref
  simp only [keyed, hget, EntryRef.mk.injEq]
  by_cases hn : id = n
  · subst hn
    simp only [hs, Option.map_some, Option.bind_some, if_true, true_and]
    by_cases hi : i = s.entries.length
    · simp [hi, hkey]
    · by_cases hlt : i < s.entries.length
      · simp [hi, List.getElem?_append_left hlt]
      · have hbeyond : (s.entries ++ [entry])[i]? = none := List.getElem?_eq_none (by simp; omega)
        have hbeyond' : s.entries[i]? = none := List.getElem?_eq_none (Nat.not_lt.1 hlt)
        simp [hi, hbeyond, hbeyond']
  · have hn' : ¬ n = id := fun h => hn h.symm
    cases hg : t'.get? n <;> simp [hn, hn']

/-- The entries of the table are those that were filed, each under the signature of its key. -/
structure Files (t : SignatureTable Code) (filings : List (Filing Code)) : Prop where
  filed : t.Filed
  keys : (t.signatures.map (·.key)).Nodup
  distinct : (filings.map (·.ref)).Nodup
  found : ∀ f ∈ filings, t.keyed f.ref = some (f.key, f.entry)
  filing : ∀ ref p, t.keyed ref = some p → ∃ f ∈ filings, f.ref = ref

variable {filings : List (Filing Code)}

theorem Files.register (ht : t.Files filings) (h : Holder) (shape : CallShape) (entry : SignatureEntry Code) :
    (t.register shape entry).2.Files (filings ++ [⟨h, shape, entry, (t.register shape entry).1⟩]) := by
  have hkeyed := keyed_register t shape entry
  refine ⟨(register_spec ht.filed shape entry).1, ?_, ?_, fun f hf => ?_, fun ref p hp => ?_⟩
  · obtain ⟨id, s, t', -, -, -, hkeys, hreg⟩ := register_eq t shape entry
    rw [hreg, keys_modify]
    exact hkeys ht.keys
  · refine nodup_map_concat ht.distinct fun href => ?_
    obtain ⟨f, hf, hsame⟩ := List.mem_map.1 href
    have hfound := ht.found f hf
    rw [hsame, (hkeyed f.ref).1] at hfound
    cases hfound
  · rw [(hkeyed f.ref).2]
    rcases List.mem_append.1 hf with hf | hf
    · have hne : f.ref ≠ (t.register shape entry).1 := fun heq => by
        have hfound := ht.found f hf
        rw [heq, (hkeyed f.ref).1] at hfound
        cases hfound
      rw [if_neg hne, ht.found f hf]
    · rw [List.mem_singleton.1 hf, if_pos rfl]
      rfl
  · rw [(hkeyed ref).2] at hp
    by_cases hnew : ref = (t.register shape entry).1
    · exact ⟨_, List.mem_append_right _ (List.mem_singleton_self _), hnew.symm⟩
    · rw [if_neg hnew] at hp
      obtain ⟨f, hf, href⟩ := ht.filing ref p hp
      exact ⟨f, List.mem_append_left _ hf, href⟩

/-- The signature of a filed entry has as many arguments as its shape. -/
theorem Files.arity_eq (ht : t.Files filings) {f : Filing Code} {s : Signature Code} {e : SignatureEntry Code}
    (hs : t.entry? f.ref = some (s, e)) (hkey : s.key = f.key) : s.arity = f.shape.arity := by
  have hmem : s ∈ t.signatures := List.mem_of_getElem? (entry?_eq_some.1 hs).1
  have hargs : f.shape.args.map NativeType.token = s.args.map NativeType.token := by
    rw [← ht.filed s hmem, hkey]
    rfl
  have hlength := congrArg List.length hargs
  rw [List.length_map, List.length_map] at hlength
  exact hlength.symm

/-- Filings share a signature exactly if they have the same key. -/
theorem Files.signature_eq_iff (ht : t.Files filings) {f g : Filing Code} (hf : f ∈ filings) (hg : g ∈ filings) :
    f.ref.signature = g.ref.signature ↔ f.key = g.key := by
  obtain ⟨s, hs, hfs⟩ := keyed_eq_some.1 (ht.found f hf)
  obtain ⟨u, hu, hgu⟩ := keyed_eq_some.1 (ht.found g hg)
  have hs := (entry?_eq_some.1 hs).1
  have hu := (entry?_eq_some.1 hu).1
  constructor
  · intro h
    rw [h, hu] at hs
    cases hs
    rw [← hfs, hgu]
  · intro h
    obtain ⟨hlt, hsi⟩ := List.getElem?_eq_some_iff.1 hs
    obtain ⟨hlu, hui⟩ := List.getElem?_eq_some_iff.1 hu
    have hlt' : f.ref.signature < (t.signatures.map (·.key)).length := by rwa [List.length_map]
    have hlu' : g.ref.signature < (t.signatures.map (·.key)).length := by rwa [List.length_map]
    have hsame : (t.signatures.map (·.key))[f.ref.signature] = (t.signatures.map (·.key))[g.ref.signature] := by
      rw [List.getElem_map, List.getElem_map, hsi, hui, hfs, hgu, h]
    exact (List.Nodup.getElem_inj_iff ht.keys).1 hsame

end SignatureTable

/-! ## Groups -/

namespace OverloadGroup
variable {Code : Type} {filings filings' : List (Filing Code)} {g : OverloadGroup} {h : Holder}

/-- The references that a group holds. -/
def refs (g : OverloadGroup) : List EntryRef :=
  g.overloads.map (·.2)

/-- Each overload of the group is a filed entry of its name and arity. -/
structure Backed (g : OverloadGroup) (filings : List (Filing Code)) (h : Holder) : Prop where
  ascending : g.overloads.Pairwise (·.1 < ·.1)
  filed : ∀ n ref, (n, ref) ∈ g.overloads →
    ∃ f ∈ filings, f.ref = ref ∧ f.holder = h ∧ f.shape.arity = n ∧ f.entry.name = g.name

theorem backed_empty (name : String) (scope : GroupScope) : (empty name scope).Backed filings h :=
  ⟨List.Pairwise.nil, fun _ _ hmem => by cases hmem⟩

theorem Backed.resolve_ok (hg : g.Backed filings h) {n : Nat} {ref : EntryRef} :
    g.resolve n = .ok ref ↔ (n, ref) ∈ g.overloads :=
  OverloadGroup.resolve_ok.trans (lookup_of_ascending hg.ascending)

theorem Backed.mono (hg : g.Backed filings h) (hsub : filings ⊆ filings') : g.Backed filings' h := by
  refine ⟨hg.ascending, fun n ref hmem => ?_⟩
  obtain ⟨f, hf, rest⟩ := hg.filed n ref hmem
  exact ⟨f, hsub hf, rest⟩

theorem insertAt_perm (n : Nat) (ref : EntryRef) : ∀ overloads, (insertAt n ref overloads).Perm ((n, ref) :: overloads)
  | [] => .refl _
  | (m, e) :: rest => by
    rw [insertAt]
    split
    · exact .refl _
    · exact ((insertAt_perm n ref rest).cons _).trans (.swap _ _ _)

theorem ascending_insertAt {n : Nat} {ref : EntryRef} : ∀ {overloads : List (Nat × EntryRef)},
    overloads.Pairwise (·.1 < ·.1) → overloads.lookup n = none → (insertAt n ref overloads).Pairwise (·.1 < ·.1)
  | [], _, _ => List.pairwise_singleton _ _
  | (m, e) :: rest, hasc, hnone => by
    rw [List.pairwise_cons] at hasc
    have hne : n ≠ m := by
      rintro rfl
      simp at hnone
    have hrest : rest.lookup n = none := by
      rw [List.lookup_cons, beq_eq_false_iff_ne.2 hne] at hnone
      exact hnone
    rw [insertAt]
    split
    · rename_i hlt
      refine List.pairwise_cons.2 ⟨fun p hp => ?_, List.pairwise_cons.2 hasc⟩
      rcases List.mem_cons.1 hp with rfl | hp
      · exact hlt
      · exact Nat.lt_trans hlt (hasc.1 p hp)
    · refine List.pairwise_cons.2 ⟨fun p hp => ?_, ascending_insertAt hasc.2 hrest⟩
      rcases List.mem_cons.1 ((insertAt_perm n ref rest).subset hp) with rfl | hp
      · change m < n
        omega
      · exact hasc.1 p hp

/-- A group with a filed entry more holds one reference more. -/
theorem Backed.insert (hg : g.Backed filings h) {shape : CallShape} {e : SignatureEntry Code} {ref : EntryRef}
    (hname : e.name = g.name) (hnone : g.overload? shape.arity = none) {g' : OverloadGroup}
    (hg' : g' = { g with overloads := insertAt shape.arity ref g.overloads }) :
    g'.Backed (filings ++ [⟨h, shape, e, ref⟩]) h ∧ g'.refs.Perm (ref :: g.refs) := by
  subst hg'
  have hperm := insertAt_perm shape.arity ref g.overloads
  refine ⟨⟨ascending_insertAt hg.ascending hnone, fun n ref' hmem => ?_⟩, hperm.map _⟩
  rcases List.mem_cons.1 (hperm.subset hmem) with heq | hmem
  · cases heq
    exact ⟨_, List.mem_append_right _ (List.mem_singleton_self _), rfl, rfl, rfl, hname⟩
  · exact (hg.mono (List.subset_append_left _ _)).filed n ref' hmem

end OverloadGroup

/-! ## Descriptors -/

namespace ClassDescriptor
variable {Upcast Code : Type} {filings filings' : List (Filing Code)} {d : ClassDescriptor Upcast}

/-- The groups of a class. -/
def groups (d : ClassDescriptor Upcast) : List (Holder × OverloadGroup) :=
  (.constructors d.cls, d.constructors) :: d.members.map fun m => (.member d.cls m.key, m.group)

/-- The references that the groups of a class hold. -/
def refs (d : ClassDescriptor Upcast) : List EntryRef :=
  d.constructors.refs ++ d.members.flatMap (·.group.refs)

/-- The groups of a class go by their names, are backed, and a class that is not declared has no constructor. -/
structure Intact (d : ClassDescriptor Upcast) (filings : List (Filing Code)) : Prop where
  titled : d.constructors.name = d.name
  keyed : ∀ m ∈ d.members, m.group.name = m.key.name
  blank : d.declared = false → d.constructors.overloads = []
  constructors : d.constructors.Backed filings (.constructors d.cls)
  members : ∀ m ∈ d.members, m.group.Backed filings (.member d.cls m.key)

theorem Intact.mono (hd : d.Intact filings) (hsub : filings ⊆ filings') : d.Intact filings' :=
  ⟨hd.titled, hd.keyed, hd.blank, hd.constructors.mono hsub, fun m hm => (hd.members m hm).mono hsub⟩

theorem intact_placeholder (c : Class) (name : String) (size : Nat) :
    (placeholder c name size : ClassDescriptor Upcast).Intact filings :=
  ⟨rfl, fun _ hm => (nomatch hm), fun _ => rfl, OverloadGroup.backed_empty _ _, fun _ hm => (nomatch hm)⟩

/-- A class that is declared under another name than it was mentioned by loses no constructor: it has none yet. -/
theorem Intact.declare (hd : d.Intact filings) (hnew : d.declared = false) (name : String) (size : Nat) :
    (d.declare name size).Intact filings ∧ (d.declare name size).refs = d.refs := by
  unfold ClassDescriptor.declare
  by_cases hname : d.name = name
  · simp only [hname, if_true]
    exact ⟨⟨hd.titled.trans hname, hd.keyed, fun h => (nomatch h), hd.constructors, hd.members⟩, rfl⟩
  · simp only [hname, if_false]
    refine ⟨⟨rfl, hd.keyed, fun _ => rfl, OverloadGroup.backed_empty _ _, hd.members⟩, ?_⟩
    have hnone : d.constructors.refs = [] := by rw [OverloadGroup.refs, hd.blank hnew, List.map_nil]
    rw [refs, refs, hnone]
    rfl

theorem Intact.addSuper (hd : d.Intact filings) (base : Class) (upcast : Upcast) :
    (d.addSuper base upcast).Intact filings ∧ (d.addSuper base upcast).refs = d.refs := by
  unfold ClassDescriptor.addSuper
  split <;> exact ⟨⟨hd.titled, hd.keyed, hd.blank, hd.constructors, hd.members⟩, rfl⟩

theorem Intact.markReady (hd : d.Intact filings) : d.markReady.Intact filings ∧ d.markReady.refs = d.refs := by
  refine ⟨⟨hd.titled, fun m hm => ?_, hd.blank, ⟨hd.constructors.ascending, hd.constructors.filed⟩, fun m hm => ?_⟩, ?_⟩
  · obtain ⟨m', hm', rfl⟩ := List.mem_map.1 hm
    exact hd.keyed m' hm'
  · obtain ⟨m', hm', rfl⟩ := List.mem_map.1 hm
    exact ⟨(hd.members m' hm').ascending, (hd.members m' hm').filed⟩
  · unfold refs ClassDescriptor.markReady
    rw [List.flatMap_map]
    rfl

theorem Intact.withGroup (hd : d.Intact filings) (key : GroupKey) :
    (d.withGroup key).Intact filings ∧ (d.withGroup key).refs = d.refs := by
  unfold ClassDescriptor.withGroup
  split
  · exact ⟨hd, rfl⟩
  · refine ⟨⟨hd.titled, fun m hm => ?_, hd.blank, hd.constructors, fun m hm => ?_⟩, ?_⟩
    · rcases List.mem_append.1 hm with hm | hm
      · exact hd.keyed m hm
      · rw [List.mem_singleton.1 hm]
        rfl
    · rcases List.mem_append.1 hm with hm | hm
      · exact hd.members m hm
      · rw [List.mem_singleton.1 hm]
        exact OverloadGroup.backed_empty _ _
    · simp [refs, OverloadGroup.refs, OverloadGroup.empty]

theorem mem_withGroup (d : ClassDescriptor Upcast) (key : GroupKey) :
    ⟨key, (d.group? key).getD (.empty key.name (.cls d.cls))⟩ ∈ (d.withGroup key).members := by
  unfold ClassDescriptor.withGroup group?
  cases hm : d.members.find? (·.key = key) with
  | none => simp
  | some m =>
    have hkey : m.key = key := by simpa using List.find?_some hm
    subst hkey
    exact List.mem_of_find?_eq_some hm

/-- What a class holds after a group of members got one reference more. -/
theorem Intact.setGroup (hd : d.Intact filings) (hnodup : (d.members.map (·.key)).Nodup) {key : GroupKey}
    {g : OverloadGroup} {ref : EntryRef} (hname : g.name = key.name) (hg : g.Backed filings (.member d.cls key))
    (hrefs : g.refs.Perm (ref :: ((d.group? key).getD (.empty key.name (.cls d.cls))).refs)) :
    ((d.withGroup key).setGroup key g).Intact filings ∧ ((d.withGroup key).setGroup key g).refs.Perm (ref :: d.refs) := by
  obtain ⟨hw, hsame⟩ := hd.withGroup key
  have hcls : (d.withGroup key).cls = d.cls := by
    unfold ClassDescriptor.withGroup
    split <;> rfl
  refine ⟨⟨hw.titled, fun m hm => ?_, hw.blank, hw.constructors, fun m hm => ?_⟩, ?_⟩
  · obtain ⟨m', hm', rfl⟩ := List.mem_map.1 hm
    by_cases hkey : m'.key = key
    · rw [if_pos hkey, hkey]
      exact hname
    · rw [if_neg hkey]
      exact hw.keyed m' hm'
  · obtain ⟨m', hm', rfl⟩ := List.mem_map.1 hm
    by_cases hkey : m'.key = key
    · rw [if_pos hkey, hkey]
      change g.Backed filings (.member (d.withGroup key).cls key)
      rw [hcls]
      exact hg
    · rw [if_neg hkey]
      exact hw.members m' hm'
  · rw [← hsame]
    have hone := perm_flatMap_update (k := MemberGroup.key) (h := fun m => m.group.refs)
      (f := fun m => { m with group := g }) hrefs (nodup_withGroup hnodup key) (mem_withGroup d key)
    exact (hone.append_left _).trans List.perm_middle

end ClassDescriptor

end NativeBridge
