import NativeBridge.Proofs.Engine.MemberIds
/-!
# Hashes of overloads

The arity is folded into a hash by a multiplication with an odd word and an addition, so the mix gives back the hash for a
known arity and the arity for a known hash (`mixArity_inj`, `mixArity_arity_inj`). In a declaration set every entry goes by
the hash of its group and its arity (`Collected.hashed`). No two overloads of one group are therefore mistaken for one
another, and constructors of one arity only where the names of their classes are (`overload_ids`).
-/
namespace NativeBridge

namespace NameHash

variable {owner owner' : NameHash} {name : String} {n n' : UInt64}

theorem ofFunction_arity_inj : ofFunction name n = ofFunction name n' ↔ n = n' := by
  rw [ofFunction, ofFunction, NameHash.mk.injEq, mixArity_arity_inj]

theorem ofMember_arity_inj : ofMember owner name n = ofMember owner name n' ↔ n = n' := by
  rw [ofMember, ofMember, NameHash.mk.injEq, mixArity_arity_inj]

theorem ofConstructor_arity_inj : ofConstructor owner n = ofConstructor owner n' ↔ n = n' := by
  rw [ofConstructor, ofConstructor, NameHash.mk.injEq, mixArity_arity_inj]

theorem ofConstructor_owner_inj : ofConstructor owner n = ofConstructor owner' n ↔ owner = owner' := by
  rw [ofConstructor, ofConstructor, NameHash.mk.injEq, mixArity_inj, UInt64.xor_right_inj, ← NameHash.mk.injEq]

end NameHash

/-! ## Groups -/

namespace Registry
variable {Upcast Code : Type} {r : Registry Upcast Code} {filings : List (Filing Code)}

/-- The hash of a group tells its arities apart, which are machine words. -/
theorem Holder.hash_inj (h : Holder) {n n' : Nat} (hn : n < 2 ^ 64) (hn' : n' < 2 ^ 64) :
    h.hash n.toUInt64 = h.hash n'.toUInt64 ↔ n = n' := by
  have hwords : n.toUInt64 = n'.toUInt64 ↔ n = n' := by
    rw [← UInt64.toNat_inj, Nat.toUInt64_eq, Nat.toUInt64_eq, UInt64.toNat_ofNat_of_lt' hn, UInt64.toNat_ofNat_of_lt' hn']
  cases h with
  | constructors c => exact NameHash.ofConstructor_arity_inj.trans hwords
  | member c key => exact NameHash.ofMember_arity_inj.trans hwords
  | function name => exact NameHash.ofFunction_arity_inj.trans hwords

/-- The entry was filed under the hash of its group. -/
def Filing.Hashed (f : Filing Code) : Prop :=
  f.entry.id = f.holder.hash f.shape.arity.toUInt64

/-- An overload of a group is an entry that goes by the hash of the group. -/
theorem Intact.hashed (hr : r.Intact filings) (hfilings : ∀ f ∈ filings, f.Hashed) {h : Holder} {g : OverloadGroup}
    (hg : (h, g) ∈ r.groups) {n : Nat} {ref : EntryRef} (hmem : (n, ref) ∈ g.overloads) :
    ∃ s e, r.entry ref = .ok (s, e) ∧ e.id = h.hash n.toUInt64 := by
  obtain ⟨f, hf, rfl, rfl, rfl, -⟩ := (hr.backed hg).filed n ref hmem
  obtain ⟨s, hs, -⟩ := SignatureTable.keyed_eq_some.1 (hr.table.found f hf)
  exact ⟨s, f.entry, entry_eq_ok.2 hs, hfilings f hf⟩

end Registry

namespace ClassBuilder
variable {Ω : Type} [ObjectModel Ω] {maxArity : Nat} {r r' : Registry (Upcast Ω) (Code Ω)}

/-- The entries that building a class declares are those pushed on it. -/
theorem entry_mem_operations {b : ClassBuilder Ω} {h : Registry.Holder} {flags : TypeFlags} {shape : CallShape}
    {id : NameHash} {code : Code Ω} (hop : .entry h flags shape id code ∈ b.operations) :
    ∃ e ∈ b.entries, PendingEntry.holder e b.cls = h ∧ e.shape = shape ∧ e.id = id := by
  rcases List.mem_append.1 hop with hop | hop
  · rcases List.mem_append.1 hop with hop | hop
    · rcases List.mem_cons.1 hop with hop | hop
      · cases hop
      · obtain ⟨p, -, hp⟩ := List.mem_map.1 hop
        cases hp
    · split at hop
      · cases List.mem_singleton.1 hop
      · cases hop
  · obtain ⟨e, he, heq⟩ := List.mem_map.1 hop
    cases heq
    exact ⟨e, he, rfl, rfl, rfl⟩

/-- Building a class files its entries under the hashes of their groups. -/
theorem Chained.files_hashed {b : ClassBuilder Ω} (hb : b.Chained) : ∀ op ∈ b.operations,
    ∀ r : Registry (Upcast Ω) (Code Ω), ∀ f ∈ (r.step op).2, f.Hashed := by
  intro op hop r f hf
  cases op with
  | entry h flags shape id code =>
    obtain ⟨e, he, rfl, rfl, rfl⟩ := entry_mem_operations hop
    cases hentry : r.declareEntry (PendingEntry.holder e b.cls) flags e.shape e.id code with
    | error x =>
      simp only [Registry.step, hentry] at hf
      cases hf
    | ok made =>
      simp only [Registry.step, hentry] at hf
      rw [List.mem_singleton.1 hf]
      exact hb.id_eq_hash e he
  | _ => cases hf

/-- **Every entry of a declaration set goes by the hash of its group**, and was filed under it. -/
theorem Collected.hashed (h : Collected maxArity r) : ∃ filings, r.Intact filings ∧ ∀ f ∈ filings, f.Hashed := by
  induction h with
  | new => exact ⟨[], Registry.intact_empty maxArity, fun _ hf => (nomatch hf)⟩
  | function name flags shape code _ h ih =>
    obtain ⟨filings, hr, hfilings⟩ := ih
    obtain ⟨ref, hmade⟩ := addFunction_ok h
    refine ⟨_, hr.declareFunction hmade, fun f hf => ?_⟩
    rcases List.mem_append.1 hf with hf | hf
    · exact hfilings f hf
    · rw [List.mem_singleton.1 hf]
      rfl
  | build b _ hb ih =>
    rw [ClassBuilder.build, commits_eq]
    exact filed_commitAll b.operations hb.files_hashed ih

/-- Overloads of any two groups have entries. In one group these go by one hash just if they have one arity; the constructors
of two classes that have one arity do just if the names of the classes have one hash. -/
theorem Collected.told_apart (hr : Collected maxArity r) (hclosed : r' = r ∨ r.finalize = .ok r') {h h' : Registry.Holder}
    {g g' : OverloadGroup} (hg : (h, g) ∈ r'.groups) (hg' : (h', g') ∈ r'.groups) {n n' : Nat} {ref ref' : EntryRef}
    (hmem : (n, ref) ∈ g.overloads) (hmem' : (n', ref') ∈ g'.overloads) (hn : n < 2 ^ 64) (hn' : n' < 2 ^ 64) :
    ∃ s e s' e', r'.entry ref = .ok (s, e) ∧ r'.entry ref' = .ok (s', e') ∧ (h = h' → (e.id = e'.id ↔ n = n')) ∧
      ∀ c c', h = .constructors c → h' = .constructors c' → n = n' →
        (e.id = e'.id ↔ NameHash.ofName c.name = NameHash.ofName c'.name) := by
  obtain ⟨filings, hintact, hfilings⟩ := hr.hashed
  have hintact' : r'.Intact filings := by
    rcases hclosed with rfl | hclosed
    · exact hintact
    · exact hintact.finalize hclosed
  obtain ⟨s, e, hentry, hid⟩ := hintact'.hashed hfilings hg hmem
  obtain ⟨s', e', hentry', hid'⟩ := hintact'.hashed hfilings hg' hmem'
  refine ⟨s, e, s', e', hentry, hentry', ?_, ?_⟩
  · rintro rfl
    rw [hid, hid']
    exact h.hash_inj hn hn'
  · rintro c c' rfl rfl rfl
    rw [hid, hid']
    exact NameHash.ofConstructor_owner_inj

end ClassBuilder

namespace NameHash

/-- **Neither a hash nor an arity is lost in their mix.**
- A mix has one arity for a given hash, and one hash for a given arity.
- So two overloads of a function, of a member or of an owner's constructor never have one hash, and constructors of one
  arity have one only if their owners do.
- In a declaration set, closed or not, every overload has an entry, and the entries are told apart by their hashes in the
  same way. -/
theorem overload_ids :
    (∀ h n n' : UInt64, mixArity h n = mixArity h n' ↔ n = n') ∧
    (∀ h h' n : UInt64, mixArity h n = mixArity h' n ↔ h = h') ∧
    (∀ name n n', ofFunction name n = ofFunction name n' ↔ n = n') ∧
    (∀ owner name n n', ofMember owner name n = ofMember owner name n' ↔ n = n') ∧
    (∀ owner n n', ofConstructor owner n = ofConstructor owner n' ↔ n = n') ∧
    (∀ owner owner' n, ofConstructor owner n = ofConstructor owner' n ↔ owner = owner') ∧
    ∀ (Ω : Type) [ObjectModel Ω] (maxArity : Nat) (r r' : Registry (Upcast Ω) (Code Ω)),
      ClassBuilder.Collected maxArity r → r' = r ∨ r.finalize = .ok r' → ∀ h g h' g', (h, g) ∈ r'.groups →
        (h', g') ∈ r'.groups → ∀ n ref n' ref', (n, ref) ∈ g.overloads → (n', ref') ∈ g'.overloads → n < 2 ^ 64 →
          n' < 2 ^ 64 → ∃ s e s' e', r'.entry ref = .ok (s, e) ∧ r'.entry ref' = .ok (s', e') ∧
            (h = h' → (e.id = e'.id ↔ n = n')) ∧
            ∀ c c', h = .constructors c → h' = .constructors c' → n = n' →
              (e.id = e'.id ↔ ofName c.name = ofName c'.name) := by
  refine ⟨fun _ _ _ => mixArity_arity_inj, fun _ _ _ => mixArity_inj, fun _ _ _ => ofFunction_arity_inj,
    fun _ _ _ _ => ofMember_arity_inj, fun _ _ _ => ofConstructor_arity_inj, fun _ _ _ => ofConstructor_owner_inj, ?_⟩
  intro Ω _ maxArity r r' hr hclosed h g h' g' hg hg' n ref n' ref' hmem hmem' hn hn'
  exact hr.told_apart hclosed hg hg' hmem hmem' hn hn'

/-- Where two arguments are the limit both constructors of the class are declared, and under different hashes. -/
theorem crowdedPoint_told_apart : ∃ r, ClassBuilder.crowdedPoint.build (.empty 2) = (.ok (), r) ∧
    ∃ s e s' e', r.entry ⟨0, 0⟩ = .ok (s, e) ∧ s.arity = 1 ∧ r.entry ⟨1, 0⟩ = .ok (s', e') ∧ s'.arity = 2 ∧
      e.name = e'.name ∧ e.id ≠ e'.id := by
  obtain ⟨-, -, -, -, -, -, hentries⟩ := overload_ids
  refine ⟨(ClassBuilder.crowdedPoint.build (.empty 2)).2, Prod.ext rfl rfl, ?_⟩
  have hr : ClassBuilder.Collected 2 (ClassBuilder.crowdedPoint.build (.empty 2)).2 :=
    .build _ .new ClassBuilder.chained_crowdedPoint
  have hg : (Registry.Holder.constructors Catalog.Species.point.cls,
      (⟨"Point", .cls Catalog.Species.point.cls, [(1, ⟨0, 0⟩), (2, ⟨1, 0⟩)], false⟩ : OverloadGroup)) ∈
      (ClassBuilder.crowdedPoint.build (.empty 2)).2.groups := List.mem_cons_self
  obtain ⟨s, e, s', e', hentry, hentry', happart, -⟩ := hentries _ _ _ _ hr (.inl rfl) _ _ _ _ hg hg 1 ⟨0, 0⟩ 2 ⟨1, 0⟩
    List.mem_cons_self (List.mem_cons_of_mem _ List.mem_cons_self) (by decide) (by decide)
  have hne : e.id ≠ e'.id := fun hid => absurd ((happart rfl).1 hid) (by decide)
  cases hentry
  cases hentry'
  exact ⟨_, _, _, _, rfl, rfl, rfl, rfl, rfl, hne⟩

end NameHash
end NativeBridge
