import NativeBridge.Proofs.Engine.Building
/-!
# Hashes of members

A member is identified by a hash of its owner's name, its own name and its arity. The two names are combined before
anything tells them apart, so what decides whether two members of one arity have one hash is the combination of the
names (`ofMember_inj`). If the names themselves are hashed apart, the members that are mistaken for one another are
those whose names are exchanged, those named after their owners, and four names that cancel out (`member_ids`).
-/
namespace NativeBridge

namespace NameHash

/-! ## Folding an arity in -/

/-- What takes the separator back modulo `2 ^ 64`. -/
def unseparator : UInt64 := 0xd3f20f0a40208825

theorem separator_mul : separator * unseparator = 1 := by decide

/-- **The hash is recovered from its mix with an arity**, as the separator is odd. -/
theorem mixArity_inj {h h' arity : UInt64} : mixArity h arity = mixArity h' arity ↔ h = h' := by
  refine ⟨fun heq => ?_, fun heq => by rw [heq]⟩
  have hmul : h * separator = h' * separator := (UInt64.add_left_inj _).1 heq
  calc h = h * separator * unseparator := by rw [UInt64.mul_assoc, separator_mul, UInt64.mul_one]
    _ = h' * separator * unseparator := by rw [hmul]
    _ = h' := by rw [UInt64.mul_assoc, separator_mul, UInt64.mul_one]

/-- **The arity is recovered from its mix with a hash.** -/
theorem mixArity_arity_inj {h n n' : UInt64} : mixArity h n = mixArity h n' ↔ n = n' := by
  rw [mixArity, mixArity, UInt64.add_right_inj, UInt64.xor_right_inj]

/-! ## Two names -/

variable {A m B n : String}

/-- Two members of one arity have one hash just if their names combine to one word. -/
theorem ofMember_inj {arity : UInt64} :
    ofMember (ofName A) m arity = ofMember (ofName B) n arity ↔ ofText A ^^^ ofText m = ofText B ^^^ ofText n := by
  rw [ofMember, ofMember, NameHash.mk.injEq, mixArity_inj, ofName, ofName]
  simp only [UInt64.xor_assoc, UInt64.xor_right_inj]

/-- The names have different hashes, if they differ. -/
def Apart (names : List String) : Prop :=
  ∀ s ∈ names, ∀ t ∈ names, ofText s = ofText t → s = t

/-- Member `m` of `A` is taken for member `n` of `B`. -/
inductive Confused (A m B n : String) : Prop
  | same (owner : A = B) (name : m = n)
  /-- Each is named after the other's owner. -/
  | exchanged (owner : A = n) (name : m = B)
  /-- Each is named after its own owner. -/
  | titled (left : A = m) (right : B = n)
  /-- Four different names that cancel out. -/
  | cancelled (different : [A, m, B, n].Nodup) (zero : ofText A ^^^ ofText m ^^^ ofText B ^^^ ofText n = 0)

theorem combined_eq_iff (h : Apart [A, m, B, n]) :
    ofText A ^^^ ofText m = ofText B ^^^ ofText n ↔ Confused A m B n := by
  constructor
  · intro heq
    by_cases hAB : A = B
    · subst hAB
      exact .same rfl (h m (by simp) n (by simp) ((UInt64.xor_right_inj _).1 heq))
    by_cases hAn : A = n
    · subst hAn
      rw [UInt64.xor_comm (ofText B)] at heq
      exact .exchanged rfl (h m (by simp) B (by simp) ((UInt64.xor_right_inj _).1 heq))
    by_cases hAm : A = m
    · subst hAm
      rw [UInt64.xor_self] at heq
      exact .titled rfl (h B (by simp) n (by simp) (UInt64.xor_eq_zero_iff.1 heq.symm))
    refine .cancelled ?_ (by rw [UInt64.xor_assoc, heq, UInt64.xor_self])
    -- If any other two were the same name, then so would be the other two, and one of them is `A`.
    have hmB : m ≠ B := by
      rintro rfl
      rw [UInt64.xor_comm] at heq
      exact hAn (h A (by simp) n (by simp) ((UInt64.xor_right_inj _).1 heq))
    have hmn : m ≠ n := by
      rintro rfl
      exact hAB (h A (by simp) B (by simp) ((UInt64.xor_left_inj _).1 heq))
    have hBn : B ≠ n := by
      rintro rfl
      rw [UInt64.xor_self] at heq
      exact hAm (h A (by simp) m (by simp) (UInt64.xor_eq_zero_iff.1 heq))
    simp [hAB, hAn, hAm, hmB, hmn, hBn]
  · rintro (⟨rfl, rfl⟩ | ⟨rfl, rfl⟩ | ⟨rfl, rfl⟩ | ⟨-, hzero⟩)
    · rfl
    · exact UInt64.xor_comm _ _
    · rw [UInt64.xor_self, UInt64.xor_self]
    · rwa [UInt64.xor_assoc, UInt64.xor_eq_zero_iff] at hzero

end NameHash

/-! ## Members of classes -/

/-- The hash of an entry of a group, by its number of arguments. -/
def Registry.Holder.hash : Registry.Holder → UInt64 → NameHash
  | .constructors c => .ofConstructor (.ofName c.name)
  | .member c key => .ofMember (.ofName c.name) key.name
  | .function name => .ofFunction name

namespace ClassBuilder
variable {Ω : Type} [ObjectModel Ω]

/-- Every entry of a class goes by the hash of its group. -/
theorem Chained.id_eq_hash {b : ClassBuilder Ω} (hb : b.Chained) : ∀ e ∈ b.entries,
    e.id = (PendingEntry.holder e b.cls).hash e.shape.arity.toUInt64 := by
  induction hb with
  | new c => exact fun e he => (nomatch he)
  | push key flags shape code _ _ h ih =>
    unfold ClassBuilder.push at h
    split at h
    · cases h
    cases h
    intro e he
    rcases List.mem_append.1 he with he | he
    · exact ih e he
    · rw [List.mem_singleton.1 he]
      unfold PendingEntry.holder
      dsimp only
      split <;> rfl
  | superclass base upcast _ h ih =>
    unfold ClassBuilder.superclass at h
    split at h
    · cases h
    split at h <;> cases h <;> exact ih
  | valueType _ ih => exact ih
  | strict _ ih => exact ih

/-- Every entry of a class but a constructor is identified by its owner, its name and its arity. -/
theorem Chained.id_eq {b : ClassBuilder Ω} (hb : b.Chained) : ∀ e ∈ b.entries, e.key.kind ≠ .constructor →
    e.id = .ofMember (.ofName b.cls.name) e.key.name e.shape.arity.toUInt64 := by
  intro e he hkind
  rw [hb.id_eq_hash e he, PendingEntry.holder, if_neg hkind]
  rfl

end ClassBuilder

namespace NameHash

/-- **Which members have one hash.** If the four names are hashed apart, two members of one arity have one hash just
if they are the same by owner and name, or exchange their names, or are both named after their owners, or the hashes
of four different names cancel out; and the members that classes declare are identified by these hashes. -/
theorem member_ids {A m B n : String} (h : Apart [A, m, B, n]) :
    (∀ arity, ofMember (ofName A) m arity = ofMember (ofName B) n arity ↔ Confused A m B n) ∧
    ∀ (Ω : Type) [ObjectModel Ω] (b b' : ClassBuilder Ω) (e e' : PendingEntry Ω), b.Chained → b'.Chained →
      e ∈ b.entries → e' ∈ b'.entries → e.key.kind ≠ .constructor → e'.key.kind ≠ .constructor →
      e.shape.arity = e'.shape.arity → b.cls.name = A → e.key.name = m → b'.cls.name = B → e'.key.name = n →
      (e.id = e'.id ↔ Confused A m B n) := by
  have hhash (arity : UInt64) : ofMember (ofName A) m arity = ofMember (ofName B) n arity ↔ Confused A m B n :=
    ofMember_inj.trans (combined_eq_iff h)
  refine ⟨hhash, ?_⟩
  intro Ω _ b b' e e' hb hb' he he' hkind hkind' harity hA hm hB hn
  subst hA hm hB hn
  rw [hb.id_eq e he hkind, hb'.id_eq e' he' hkind', harity]
  exact hhash _

/-- A class with one method and nothing else. -/
def lone (c : Class) (name : String) : ClassBuilder Catalog.Specimen :=
  { (ClassBuilder.new c : ClassBuilder Catalog.Specimen) with
    entries := [⟨⟨name, .method⟩, .none, .method c [] .unit, .ofMember (.ofName c.name) name 0,
      .raw fun _ => pure ()⟩] }

theorem chained_lone (c : Class) (name : String) : (lone c name).Chained :=
  .push ⟨name, .method⟩ .none (.method c [] .unit) (.raw fun _ => pure ()) (.new c) (fun h => nomatch h) rfl

/-- The method `Node` of `Point` and the method `Point` of `Node` have one hash. -/
theorem exchanged_names : Apart ["Point", "Node", "Node", "Point"] ∧
    ofMember (ofName "Point") "Node" 0 = ofMember (ofName "Node") "Point" 0 ∧
    ∀ e ∈ (lone Catalog.Species.point.cls "Node").entries, ∀ e' ∈ (lone Catalog.Species.node.cls "Point").entries,
      e.key = ⟨"Node", .method⟩ ∧ e'.key = ⟨"Point", .method⟩ ∧ e.id = e'.id := by
  have hapart : Apart ["Point", "Node", "Node", "Point"] := by
    unfold Apart
    decide +kernel
  obtain ⟨hhash, hdeclared⟩ := member_ids hapart
  refine ⟨hapart, (hhash 0).2 (.exchanged rfl rfl), fun e he e' he' => ?_⟩
  have hid := hdeclared _ _ _ e e' (chained_lone _ _) (chained_lone _ _) he he'
  obtain rfl := List.mem_singleton.1 he
  obtain rfl := List.mem_singleton.1 he'
  exact ⟨rfl, rfl, (hid nofun nofun rfl rfl rfl rfl rfl).2 (.exchanged rfl rfl)⟩

end NameHash
end NativeBridge
