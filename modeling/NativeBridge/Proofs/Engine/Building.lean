import NativeBridge.Proofs.Engine.Refusals
/-!
# Building a class

A build makes one declaration after another and keeps those that were made when one is refused. The chain has checked all
but two things: whether the registry takes the class, and whether it takes as many arguments as an entry has
(`plan_outcome`). The first is asked before anything is committed, the second after the class is; so a failed build leaves
the registry as it was exactly if the class itself was refused (`build_unchanged_iff`).
-/
namespace NativeBridge

namespace ClassDescriptor
variable {Upcast : Type}

theorem group?_setGroup (d : ClassDescriptor Upcast) (key k : GroupKey) (g : OverloadGroup) :
    ((d.withGroup key).setGroup key g).group? k = if k = key then some g else d.group? k := by
  have hset (e : ClassDescriptor Upcast) :
      (e.setGroup key g).group? k = if k = key then (e.group? k).map fun _ => g else e.group? k := by
    unfold setGroup group?
    rw [List.find?_map]
    have hkeep : (fun m : MemberGroup => decide (m.key = k)) ∘
        (fun m : MemberGroup => if m.key = key then { m with group := g } else m) = fun m => decide (m.key = k) := by
      funext m
      rw [Function.comp_apply]
      split <;> rfl
    rw [hkeep]
    cases hm : e.members.find? (·.key = k) with
    | none => simp
    | some m =>
      have hmk : m.key = k := by simpa using List.find?_some hm
      by_cases hk : k = key <;> simp [hmk, hk]
  rw [hset]
  by_cases hk : k = key
  · subst hk
    rw [if_pos rfl, if_pos rfl, Registry.group?_withGroup]
    rfl
  · rw [if_neg hk, if_neg hk]
    unfold withGroup
    split
    · rfl
    · unfold group?
      have hne : ¬ key = k := fun h => hk h.symm
      simp [List.find?_append, hne]

end ClassDescriptor

namespace Registry
variable {Upcast Code : Type} {r : Registry Upcast Code} {filings : List (Filing Code)}

/-- What was filed is found through the group that it went to. -/
theorem Intact.placed (hr : r.Intact filings) {f : Filing Code} (hf : f ∈ filings) : ∃ g s,
    (f.holder, g) ∈ r.groups ∧ (f.shape.arity, f.ref) ∈ g.overloads ∧ f.entry.name = g.name ∧
      r.signatures.entry? f.ref = some (s, f.entry) := by
  obtain ⟨s, hs, -⟩ := SignatureTable.keyed_eq_some.1 (hr.table.found f hf)
  have href : f.ref ∈ r.refs := by
    rw [refs_eq, hr.refs.mem_iff]
    exact List.mem_map_of_mem hf
  obtain ⟨⟨h, g⟩, hg, hmem⟩ := List.mem_flatMap.1 href
  obtain ⟨⟨n, ref⟩, hover, hsame⟩ := List.mem_map.1 hmem
  obtain ⟨f', hf', href', hholder, harity, hname⟩ := (hr.backed hg).filed n ref hover
  have hff' : f' = f := List.inj_on_of_nodup_map hr.table.distinct hf' hf (href'.trans hsame)
  subst hff'
  refine ⟨g, s, hholder ▸ hg, ?_, hname, hs⟩
  rw [harity, href']
  exact hover

end Registry

/-! ## Chains -/

namespace ClassBuilder
variable {Ω : Type} [ObjectModel Ω]

/-- What the methods of a builder make of a new one. All constructors go by the name of the class. -/
inductive Chained : ClassBuilder Ω → Prop
  | new (c : Class) : Chained (.new c)
  | push {b b'} (key : GroupKey) (flags : TypeFlags) (shape : CallShape) (code : Code Ω) : Chained b →
      (key.kind = .constructor → key.name = b.cls.name) → b.push key flags shape code = .ok b' → Chained b'
  | superclass {b b'} (base : Class) (upcast : Upcast Ω) : Chained b → b.superclass base upcast = .ok b' → Chained b'
  | valueType {b} : Chained b → Chained b.asValueType
  | strict {b} : Chained b → Chained b.beStrict

/-- What a chain has checked. -/
structure Checked (b : ClassBuilder Ω) : Prop where
  entries : (b.entries.map fun e => (e.key, e.shape.arity)).Nodup
  titled : ∀ e ∈ b.entries, e.key.kind = .constructor → e.key.name = b.cls.name
  supers : (b.supers.map (·.1)).Nodup
  proper : b.cls ∉ b.supers.map (·.1)

theorem Checked.push {b b' : ClassBuilder Ω} (hb : b.Checked) {key : GroupKey} {flags : TypeFlags} {shape : CallShape}
    {code : Code Ω} (htitle : key.kind = .constructor → key.name = b.cls.name) (h : b.push key flags shape code = .ok b') :
    b'.Checked := by
  unfold ClassBuilder.push at h
  split at h
  · cases h
  · rename_i hnew
    cases h
    refine ⟨nodup_map_concat hb.entries fun hmem => hnew ?_, fun e he => ?_, hb.supers, hb.proper⟩
    · obtain ⟨e, he, heq⟩ := List.mem_map.1 hmem
      obtain ⟨hkey, harity⟩ := Prod.mk.inj heq
      exact List.any_eq_true.2 ⟨e, he, by simp [hkey, harity]⟩
    · rcases List.mem_append.1 he with he | he
      · exact hb.titled e he
      · rw [List.mem_singleton.1 he]
        exact htitle

theorem Checked.superclass {b b' : ClassBuilder Ω} (hb : b.Checked) {base : Class} {upcast : Upcast Ω}
    (h : b.superclass base upcast = .ok b') : b'.Checked := by
  unfold ClassBuilder.superclass at h
  split at h
  · cases h
  rename_i hself
  split at h
  · cases h
    exact hb
  · rename_i hnew
    cases h
    refine ⟨hb.entries, hb.titled, nodup_map_concat hb.supers fun hmem => hnew ?_, fun hmem => ?_⟩
    · obtain ⟨p, hp, rfl⟩ := List.mem_map.1 hmem
      exact List.any_eq_true.2 ⟨p, hp, decide_eq_true rfl⟩
    · rw [List.map_append, List.mem_append] at hmem
      rcases hmem with hmem | hmem
      · exact hb.proper hmem
      · exact hself (List.mem_singleton.1 hmem).symm

theorem Chained.checked {b : ClassBuilder Ω} (h : b.Chained) : b.Checked := by
  induction h with
  | new c => exact ⟨List.nodup_nil, fun _ he => (nomatch he), List.nodup_nil, List.not_mem_nil⟩
  | push key flags shape code _ htitle h ih => exact ih.push htitle h
  | superclass base upcast _ h ih => exact ih.superclass h
  | valueType _ ih => exact ⟨ih.entries, ih.titled, ih.supers, ih.proper⟩
  | strict _ ih => exact ⟨ih.entries, ih.titled, ih.supers, ih.proper⟩

/-! ## What a chain comes to -/

theorem commitAll_ok {R E : Type} {step : R → Except E R} {r r' : R} (h : step r = .ok r') (steps : List (R → Except E R)) :
    commitAll (step :: steps) r = commitAll steps r' := by
  rw [commitAll, h]

theorem commitAll_error {R E : Type} {step : R → Except E R} {r : R} {e : E} (h : step r = .error e)
    (steps : List (R → Except E R)) : commitAll (step :: steps) r = (.error e, r) := by
  rw [commitAll, h]

theorem commitAll_append {R E : Type} (later : List (R → Except E R)) : ∀ {steps : List (R → Except E R)} {r r' : R},
    commitAll steps r = (.ok (), r') → commitAll (steps ++ later) r = commitAll later r'
  | [], r, r', h => by
    cases h
    rfl
  | step :: steps, r, r', h => by
    rw [List.cons_append]
    cases hstep : step r with
    | error e =>
      rw [commitAll_error hstep] at h
      cases h
    | ok r₁ =>
      rw [commitAll_ok hstep] at h
      rw [commitAll_ok hstep]
      exact commitAll_append later h

/-- The links to the superclasses of a builder. -/
def links (b : ClassBuilder Ω) : List (SuperLink (Upcast Ω)) :=
  b.supers.map fun p => ⟨p.1, p.2⟩

theorem commitAll_supers {U : Type} : ∀ (supers : List (Class × U)) (d : ClassDescriptor U),
    (d.supers.map (·.cls) ++ supers.map (·.1)).Nodup → d.cls ∉ supers.map (·.1) →
      commitAll (supers.map fun (base, upcast) => ClassDescriptor.extended base upcast) d =
        (.ok (), { d with supers := d.supers ++ supers.map fun p => ⟨p.1, p.2⟩ })
  | [], d, _, _ => by
    rw [List.map_nil, List.map_nil, List.append_nil]
    rfl
  | (base, upcast) :: supers, d, hn, hself => by
    rw [List.map_cons, List.mem_cons, not_or] at hself
    have hnew : ¬ d.supers.any (·.cls = base) = true := fun hany => by
      obtain ⟨l, hl, hlb⟩ := List.any_eq_true.1 hany
      exact (List.nodup_append.1 hn).2.2 l.cls (List.mem_map_of_mem hl) base List.mem_cons_self (of_decide_eq_true hlb)
    have hstep : ClassDescriptor.extended base upcast d = .ok { d with supers := d.supers ++ [⟨base, upcast⟩] } := by
      rw [ClassDescriptor.extended, if_neg hself.1, ClassDescriptor.addSuper, if_neg hnew]
    refine (commitAll_ok hstep _).trans ((commitAll_supers supers _ ?_ ?_).trans ?_)
    · simpa using hn
    · exact hself.2
    · simp

/-- The groups of a descriptor take what the entries in `done` leave free. -/
structure Takes (done : List (PendingEntry Ω)) (d : ClassDescriptor (Upcast Ω)) : Prop where
  thawed : d.constructors.frozen = false ∧ ∀ key g, d.group? key = some g → g.frozen = false
  constructors : ∀ n, (d.constructors.overload? n).isSome → ∃ e ∈ done, e.key.kind = .constructor ∧ e.shape.arity = n
  members : ∀ key g n, d.group? key = some g → (g.overload? n).isSome → ∃ e ∈ done, e.key = key ∧ e.shape.arity = n

theorem Takes.congr {done : List (PendingEntry Ω)} {d d' : ClassDescriptor (Upcast Ω)} (hd : Takes done d)
    (hconstructors : d'.constructors = d.constructors) (hmembers : d'.members = d.members) : Takes done d' := by
  have hgroup (key : GroupKey) : d'.group? key = d.group? key := by
    rw [ClassDescriptor.group?, ClassDescriptor.group?, hmembers]
  refine ⟨⟨hconstructors ▸ hd.thawed.1, fun key g hg => hd.thawed.2 key g (hgroup key ▸ hg)⟩, fun n hn => ?_,
    fun key g n hg => hd.members key g n (hgroup key ▸ hg)⟩
  rw [hconstructors] at hn
  exact hd.constructors n hn

theorem takes_blank (c : Class) : Takes [] (.blank c : ClassDescriptor (Upcast Ω)) := by
  have hnone (key : GroupKey) : (.blank c : ClassDescriptor (Upcast Ω)).group? key = none := rfl
  have hempty : (.blank c : ClassDescriptor (Upcast Ω)).constructors = .empty c.info.name (.cls c) := if_pos rfl
  refine ⟨⟨by rw [hempty]; rfl, fun key g hg => ?_⟩, fun n hn => ?_, fun key g n hg => ?_⟩
  · rw [hnone] at hg
    cases hg
  · rw [hempty] at hn
    cases hn
  · rw [hnone] at hg
    cases hg

/-- A group takes an entry if it is not frozen and has none of as many arguments. -/
theorem insert_of_free {g : OverloadGroup} {n : Nat} (ref : EntryRef) (hopen : g.frozen = false)
    (hfree : ¬ (g.overload? n).isSome) : ∃ g', g.insert n ref = .ok g' ∧ g'.frozen = false := by
  refine ⟨{ g with overloads := OverloadGroup.insertAt n ref g.overloads }, ?_, hopen⟩
  rw [OverloadGroup.insert, if_neg (by rw [hopen]; exact Bool.false_ne_true), if_neg hfree]

/-- An entry of a group and number of arguments that is still free is taken, unless it has too many arguments. -/
theorem Takes.entry {maxArity : Nat} {done : List (PendingEntry Ω)} {d : ClassDescriptor (Upcast Ω)} (hd : Takes done d)
    {e : PendingEntry Ω} (harity : ¬ maxArity < e.shape.arity)
    (hfresh : ∀ a ∈ done, a.shape.arity = e.shape.arity → a.key ≠ e.key)
    (htitled : ∀ a ∈ done, a.key.kind = .constructor → e.key.kind = .constructor → a.key = e.key) :
    ∃ d', entryChange maxArity e d = .ok d' ∧ Takes (done ++ [e]) d' ∧ d'.name = d.name ∧ d'.supers = d.supers ∧
      d'.valueType = d.valueType := by
  have hlast : e ∈ done ++ [e] := List.mem_append_right _ (List.mem_singleton_self e)
  unfold entryChange
  by_cases hkind : e.key.kind = .constructor
  · rw [if_pos hkind, ClassDescriptor.constructed, if_neg harity]
    have hfree : ¬ (d.constructors.overload? e.shape.arity).isSome := fun hsome => by
      obtain ⟨a, ha, hctor, hsame⟩ := hd.constructors _ hsome
      exact hfresh a ha hsame (htitled a ha hctor hkind)
    obtain ⟨g, hinsert, hopen⟩ := insert_of_free default hd.thawed.1 hfree
    refine ⟨{ d with constructors := g }, by rw [hinsert]; rfl, ⟨⟨hopen, hd.thawed.2⟩, fun n hn => ?_, fun key g n hg hn => ?_⟩,
      rfl, rfl, rfl⟩
    · change (g.overload? n).isSome at hn
      rw [OverloadGroup.insert_ok hinsert] at hn
      split at hn
      · rename_i hsame
        exact ⟨e, hlast, hkind, hsame.symm⟩
      · obtain ⟨a, ha, hrest⟩ := hd.constructors n hn
        exact ⟨a, List.mem_append_left _ ha, hrest⟩
    · obtain ⟨a, ha, hrest⟩ := hd.members key g n hg hn
      exact ⟨a, List.mem_append_left _ ha, hrest⟩
  · rw [if_neg hkind, ClassDescriptor.enlarged, if_neg harity]
    have hgroup : ∀ g, (d.group? e.key).getD (.empty e.key.name (.cls d.cls)) = g →
        g.frozen = false ∧ ∀ n, (g.overload? n).isSome → ∃ a ∈ done, a.key = e.key ∧ a.shape.arity = n := by
      rintro g rfl
      cases hg : d.group? e.key with
      | none => exact ⟨rfl, fun n hn => (nomatch hn)⟩
      | some g => exact ⟨hd.thawed.2 _ g hg, fun n => hd.members _ g n hg⟩
    obtain ⟨hthawed, htaken⟩ := hgroup _ rfl
    generalize (d.group? e.key).getD (.empty e.key.name (.cls d.cls)) = group at hthawed htaken
    have hfree : ¬ (group.overload? e.shape.arity).isSome := fun hsome => by
      obtain ⟨a, ha, hkey, hsame⟩ := htaken _ hsome
      exact hfresh a ha hsame hkey
    obtain ⟨g, hinsert, hopen⟩ := insert_of_free default hthawed hfree
    have hrest : ((d.withGroup e.key).setGroup e.key g).constructors = d.constructors ∧
        ((d.withGroup e.key).setGroup e.key g).name = d.name ∧
        ((d.withGroup e.key).setGroup e.key g).supers = d.supers ∧
        ((d.withGroup e.key).setGroup e.key g).valueType = d.valueType := by
      unfold ClassDescriptor.setGroup ClassDescriptor.withGroup
      split <;> exact ⟨rfl, rfl, rfl, rfl⟩
    refine ⟨_, by rw [hinsert]; rfl, ⟨⟨by rw [hrest.1]; exact hd.thawed.1, fun key h hh => ?_⟩, fun n hn => ?_,
      fun key h n hh hn => ?_⟩, hrest.2⟩
    · rw [ClassDescriptor.group?_setGroup] at hh
      split at hh
      · cases hh
        exact hopen
      · exact hd.thawed.2 key h hh
    · rw [hrest.1] at hn
      obtain ⟨a, ha, hctor⟩ := hd.constructors n hn
      exact ⟨a, List.mem_append_left _ ha, hctor⟩
    · rw [ClassDescriptor.group?_setGroup] at hh
      split at hh
      · rename_i hkey
        cases hh
        rw [OverloadGroup.insert_ok hinsert] at hn
        split at hn
        · rename_i hsame
          exact ⟨e, hlast, hkey.symm, hsame.symm⟩
        · obtain ⟨a, ha, hkeyed, harity⟩ := htaken n hn
          exact ⟨a, List.mem_append_left _ ha, hkeyed.trans hkey.symm, harity⟩
      · obtain ⟨a, ha, hkeyed⟩ := hd.members key h n hh hn
        exact ⟨a, List.mem_append_left _ ha, hkeyed⟩

/-- How committing entries ends: with the first that has too many arguments. -/
def verdict (maxArity : Nat) (entries : List (PendingEntry Ω)) : Except RegistrationError Unit :=
  match entries.find? (maxArity < ·.shape.arity) with
  | some e => .error (.arityLimit e.key.name e.shape.arity maxArity)
  | none => .ok ()

theorem verdict_cons (maxArity : Nat) (e : PendingEntry Ω) (more : List (PendingEntry Ω)) :
    verdict maxArity (e :: more) =
      if maxArity < e.shape.arity then .error (.arityLimit e.key.name e.shape.arity maxArity)
      else verdict maxArity more := by
  unfold verdict
  rw [List.find?_cons]
  by_cases harity : maxArity < e.shape.arity <;> simp [harity]

theorem commitAll_entries (maxArity : Nat) : ∀ (more done : List (PendingEntry Ω)) (d : ClassDescriptor (Upcast Ω)),
    Takes done d → ((done ++ more).map fun e => (e.key, e.shape.arity)).Nodup →
      (∀ e ∈ done ++ more, e.key.kind = .constructor → e.key.name = d.name) →
        (commitAll (more.map (entryChange maxArity)) d).1 = verdict maxArity more ∧
        (commitAll (more.map (entryChange maxArity)) d).2.supers = d.supers ∧
        (commitAll (more.map (entryChange maxArity)) d).2.valueType = d.valueType
  | [], _, _, _, _, _ => ⟨rfl, rfl, rfl⟩
  | e :: more, done, d, hd, hn, htitled => by
    by_cases harity : maxArity < e.shape.arity
    · have hrefused : entryChange maxArity e d = .error (.arityLimit e.key.name e.shape.arity maxArity) := by
        unfold entryChange
        by_cases hkind : e.key.kind = .constructor
        · rw [if_pos hkind, ClassDescriptor.constructed, if_pos harity, htitled e (by simp) hkind]
        · rw [if_neg hkind, ClassDescriptor.enlarged, if_pos harity]
      rw [List.map_cons, commitAll_error hrefused, verdict_cons, if_pos harity]
      exact ⟨rfl, rfl, rfl⟩
    · have hkeys := hn
      rw [List.map_append, List.map_cons] at hkeys
      have hfresh : ∀ a ∈ done, a.shape.arity = e.shape.arity → a.key ≠ e.key := fun a ha hsame hkey =>
        (List.nodup_append.1 hkeys).2.2 _ (List.mem_map_of_mem ha) _ List.mem_cons_self (by rw [hkey, hsame])
      have hone : ∀ a ∈ done, a.key.kind = .constructor → e.key.kind = .constructor → a.key = e.key :=
        fun a ha hkind hkind' => by
          have hname := (htitled a (List.mem_append_left _ ha) hkind).trans (htitled e (by simp) hkind').symm
          have hsame := hkind.trans hkind'.symm
          cases hk : a.key
          cases hk' : e.key
          simp_all
      obtain ⟨d', hstep, hd', hname, hsupers, hvalue⟩ := hd.entry harity hfresh hone
      have ih := commitAll_entries maxArity more (done ++ [e]) d' hd' (by rwa [← List.append_cons])
        (by rwa [← List.append_cons, hname])
      rw [List.map_cons, commitAll_ok hstep, ← hsupers, ← hvalue, verdict_cons, if_neg harity]
      exact ih

/-- **A checked chain is refused for too many arguments only**, and has committed its superclasses and its value form by
then. -/
theorem plan_outcome {b : ClassBuilder Ω} (hb : b.Checked) (maxArity : Nat) :
    (b.plan maxArity).1 = verdict maxArity b.entries ∧ (b.plan maxArity).2.supers = b.links ∧
      (b.plan maxArity).2.valueType = b.valueType := by
  have hsupers := commitAll_supers b.supers (.blank b.cls : ClassDescriptor (Upcast Ω)) hb.supers hb.proper
  have hvalue (d : ClassDescriptor (Upcast Ω)) (hd : d.valueType = false) :
      commitAll (if b.valueType then [ClassDescriptor.valued] else []) d = (.ok (), { d with valueType := b.valueType }) := by
    cases b.valueType with
    | false =>
      cases d
      cases hd
      rfl
    | true => rfl
  rw [plan, changes, commitAll_append _ ((commitAll_append _ hsupers).trans (hvalue _ rfl))]
  exact commitAll_entries maxArity b.entries [] _ ((takes_blank b.cls).congr rfl rfl) hb.entries hb.titled

/-! ## Builds as operations -/

open Registry (Holder Filing Grown)
open ClassDescriptor (mentioned)

/-- Which group of the class the entry goes to. -/
def PendingEntry.holder (e : PendingEntry Ω) (c : Class) : Holder :=
  if e.key.kind = .constructor then .constructors c else .member c e.key

/-- What building the class asks of the registry. -/
def operations (b : ClassBuilder Ω) : List (Registry.Operation (Upcast Ω) (Code Ω)) :=
  .cls b.cls.info :: b.supers.map (fun (base, upcast) => .super b.cls base.info upcast)
    ++ (if b.valueType then [.valueType b.cls] else [])
    ++ b.entries.map fun e => .entry (PendingEntry.holder e b.cls) e.flags e.shape e.id e.code

theorem commits_eq (b : ClassBuilder Ω) : b.commits = b.operations.map fun op r => r.attempt op := by
  have hentry (e : PendingEntry Ω) : commitEntry b.cls e =
      fun r => r.attempt (.entry (PendingEntry.holder e b.cls) e.flags e.shape e.id e.code) := by
    funext r
    unfold commitEntry PendingEntry.holder
    split <;> rfl
  unfold commits operations
  simp only [List.map_append, List.map_cons, List.map_map]
  congr 1
  · congr 1
    split <;> rfl
  · exact List.map_congr_left fun e _ => hentry e

variable {r : Registry (Upcast Ω) (Code Ω)}

/-- What holds of every entry that the operations file holds of all that is filed once they are committed. -/
theorem filed_commitAll {P : Filing (Code Ω) → Prop} : ∀ (ops : List (Registry.Operation (Upcast Ω) (Code Ω)))
    {r : Registry (Upcast Ω) (Code Ω)}, (∀ op ∈ ops, ∀ r : Registry (Upcast Ω) (Code Ω), ∀ f ∈ (r.step op).2, P f) →
      (∃ filings, r.Intact filings ∧ ∀ f ∈ filings, P f) →
        ∃ filings, (commitAll (ops.map fun op r => r.attempt op) r).2.Intact filings ∧ ∀ f ∈ filings, P f
  | [], _, _, hr => hr
  | op :: ops, r, hops, ⟨filings, hr, hfilings⟩ => by
    cases hop : r.attempt op with
    | error e =>
      rw [List.map_cons, commitAll_error hop]
      exact ⟨filings, hr, hfilings⟩
    | ok r' =>
      rw [List.map_cons, commitAll_ok hop]
      have hstep := hr.step op
      rw [Registry.step_eq, hop] at hstep
      refine filed_commitAll ops (fun op hmem => hops op (List.mem_cons_of_mem _ hmem)) ⟨_, hstep, fun f hf => ?_⟩
      rcases List.mem_append.1 hf with hf | hf
      · exact hfilings f hf
      · exact hops op List.mem_cons_self r f hf

/-- Where all operations are accepted, each entry was filed. -/
theorem commitAll_filed : ∀ (ops : List (Registry.Operation (Upcast Ω) (Code Ω))) {r : Registry (Upcast Ω) (Code Ω)},
    (commitAll (ops.map fun op r => r.attempt op) r).1 = .ok () →
      (commitAll (ops.map fun op r => r.attempt op) r).2 = (r.run ops).1 ∧
      ∀ h flags shape id code, .entry h flags shape id code ∈ ops → ∃ f ∈ (r.run ops).2, f.holder = h ∧ f.shape = shape ∧
        f.entry.flags = flags.union h.flags ∧ f.entry.id = id ∧ f.entry.code = code
  | [], _, _ => ⟨rfl, fun _ _ _ _ _ h => (nomatch h)⟩
  | op :: ops, r, hok => by
    cases hop : r.attempt op with
    | error e =>
      rw [List.map_cons, commitAll_error hop] at hok
      cases hok
    | ok r' =>
      have hstep : (r.step op).1 = r' := by rw [Registry.step_eq, hop]; rfl
      rw [List.map_cons, commitAll_ok hop] at hok ⊢
      obtain ⟨hrun, hfiled⟩ := commitAll_filed ops hok
      rw [Registry.run, hstep]
      refine ⟨hrun, fun h flags shape id code hmem => ?_⟩
      rcases List.mem_cons.1 hmem with rfl | hmem
      · cases hentry : r.declareEntry h flags shape id code with
        | error e =>
          rw [Registry.attempt, hentry] at hop
          cases hop
        | ok made =>
          refine ⟨⟨h, shape, ⟨r.groupName h, flags.union h.flags, id, code⟩, made.1⟩, List.mem_append_left _ ?_, rfl, rfl,
            rfl, rfl, rfl⟩
          simp only [Registry.step, hentry]
          exact List.mem_singleton_self _
      · obtain ⟨f, hf, hrest⟩ := hfiled h flags shape id code hmem
        exact ⟨f, List.mem_append_right _ hf, hrest⟩

/-! ## Declaration sets -/

/-- A declaration set: functions are declared and classes are built, one after another. -/
inductive Collected (maxArity : Nat) : Registry (Upcast Ω) (Code Ω) → Prop
  | new : Collected maxArity (.empty maxArity)
  | function {s s'} (name : String) (flags : TypeFlags) (shape : CallShape) (code : Code Ω) : Collected maxArity s →
      s.addFunction name flags shape code = .ok s' → Collected maxArity s'
  | build {s} (b : ClassBuilder Ω) : Collected maxArity s → b.Chained → Collected maxArity (b.build s).2

/-- What holds of a declaration set: it is open, and of a class that is not declared it knows the mention only. -/
structure Tidy (maxArity : Nat) (r : Registry (Upcast Ω) (Code Ω)) : Prop where
  opened : r.exposure = none
  limit : r.maxArity = maxArity
  intact : ∃ filings, r.Intact filings
  undeclared : ∀ c d, r.class? c = some d → d.declared = false → d = mentioned c

variable {maxArity : Nat}

/-- **Either the class is refused and nothing is committed, or the chain comes to what it would alone.** -/
theorem Tidy.build_cases (hr : Tidy maxArity r) (b : ClassBuilder Ω) :
    (∃ e, r.declareClass b.cls.info = .error e ∧ b.build r = (.error e, r)) ∨
    (∃ r₁, r.declareClass b.cls.info = .ok r₁) ∧ ∃ r' d, b.build r = ((b.plan maxArity).1, r') ∧
      d.unfiled = (b.plan maxArity).2 ∧ Grown b.cls r r' d := by
  cases hdeclare : r.declareClass b.cls.info with
  | error e =>
    refine .inl ⟨e, rfl, ?_⟩
    unfold ClassBuilder.build commits
    exact commitAll_error hdeclare _
  | ok r₁ =>
    refine .inr ⟨⟨r₁, rfl⟩, ?_⟩
    obtain ⟨-, -, hrest⟩ := bind_ok hdeclare
    obtain ⟨hother, hrest⟩ := guard_ok hrest
    obtain ⟨hundeclared, -⟩ := guard_ok hrest
    obtain ⟨filings, hintact⟩ := hr.intact
    have hmention : r.class? b.cls = none ∨ r.class? b.cls = some (mentioned b.cls) := by
      cases hd : r.class? b.cls with
      | none => exact .inl rfl
      | some d =>
        refine .inr (congrArg some (hr.undeclared _ d hd ?_))
        change ¬ ((r.class? b.cls).map (·.declared)).getD false = true at hundeclared
        rw [hd] at hundeclared
        exact Bool.eq_false_iff.2 hundeclared
    have hname : r.names.lookup b.cls.name = none := by
      cases hk : r.names.lookup b.cls.name with
      | none => rfl
      | some k =>
        change ¬ (r.names.lookup b.cls.name).any (· ≠ b.cls) = true at hother
        rw [hk] at hother
        obtain rfl : k = b.cls := by simpa using hother
        obtain ⟨d, hd, hdecl, -⟩ := (hintact.named _ _).1 hk
        rcases hmention with hnone | hsome
        · rw [hnone] at hd
          cases hd
        · rw [hsome] at hd
          cases hd
          cases hdecl
    obtain ⟨r', d, hbuild, hplan, hgrown⟩ := build_grown (b := b) hr.opened hname hmention
    rw [hr.limit] at hbuild hplan
    exact ⟨r', d, hbuild, hplan, hgrown⟩

theorem Tidy.build (hr : Tidy maxArity r) (b : ClassBuilder Ω) : Tidy maxArity (b.build r).2 := by
  have hintact : ∃ filings, (b.build r).2.Intact filings := by
    rw [ClassBuilder.build, commits_eq]
    obtain ⟨filings, hintact⟩ := hr.intact
    obtain ⟨filings', hintact', -⟩ := filed_commitAll (P := fun _ => True) b.operations (fun _ _ _ _ _ => trivial)
      ⟨filings, hintact, fun _ _ => trivial⟩
    exact ⟨filings', hintact'⟩
  rcases hr.build_cases b with ⟨e, -, hbuild⟩ | ⟨-, r', d, hbuild, -, hgrown⟩
  · rw [hbuild]
    exact hr
  · rw [hbuild] at hintact ⊢
    refine ⟨hgrown.opened, hgrown.maxArity.trans hr.limit, hintact, fun c d' hd' hundeclared => ?_⟩
    by_cases hc : c = b.cls
    · subst hc
      rw [hgrown.described] at hd'
      cases hd'
      rw [hgrown.declared] at hundeclared
      cases hundeclared
    · rw [hgrown.others c hc] at hd'
      cases hold : r.class? c with
      | some d₀ =>
        rw [hold, Option.some_or] at hd'
        cases hd'
        exact hr.undeclared c d' hold hundeclared
      | none =>
        rw [hold, Option.none_or] at hd'
        split at hd'
        · cases hd'
          rfl
        · cases hd'

/-- A function is declared under its hash. -/
theorem addFunction_ok {r' : Registry (Upcast Ω) (Code Ω)} {name : String} {flags : TypeFlags} {shape : CallShape}
    {code : Code Ω} (h : r.addFunction name flags shape code = .ok r') :
    ∃ ref, r.declareFunction name flags shape (.ofFunction name shape.arity.toUInt64) code = .ok (ref, r') := by
  unfold Registry.addFunction at h
  cases hmade : r.declareFunction name flags shape (.ofFunction name shape.arity.toUInt64) code with
  | error e =>
    rw [hmade] at h
    cases h
  | ok made =>
    rw [hmade] at h
    cases h
    exact ⟨made.1, rfl⟩

theorem Tidy.function (hr : Tidy maxArity r) {r' : Registry (Upcast Ω) (Code Ω)} {name : String} {flags : TypeFlags}
    {shape : CallShape} {code : Code Ω} (h : r.addFunction name flags shape code = .ok r') : Tidy maxArity r' := by
  obtain ⟨ref, hmade⟩ := addFunction_ok h
  obtain ⟨filings, hintact⟩ := hr.intact
  have hkept : r'.exposure = r.exposure ∧ r'.maxArity = r.maxArity ∧ r'.classes = r.classes := by
    obtain ⟨-, -, hmade⟩ := bind_ok hmade
    obtain ⟨-, -, hmade⟩ := bind_ok hmade
    obtain ⟨⟨ref, group, s⟩, hs, hmade⟩ := bind_ok hmade
    obtain ⟨-, -, -, rfl⟩ := Registry.registerEntry_ok hs
    cases hmade
    unfold Registry.setFunctionGroup
    split <;> exact ⟨rfl, rfl, rfl⟩
  refine ⟨hkept.1.trans hr.opened, hkept.2.1.trans hr.limit, ⟨_, hintact.declareFunction hmade⟩, fun c d hd => ?_⟩
  rw [Registry.class?, hkept.2.2] at hd
  exact hr.undeclared c d hd

theorem Collected.tidy {r : Registry (Upcast Ω) (Code Ω)} (h : Collected maxArity r) : Tidy maxArity r := by
  induction h with
  | new =>
    exact ⟨rfl, rfl, ⟨[], Registry.intact_empty maxArity⟩, fun c d hd => (nomatch hd)⟩
  | function name flags shape code _ h ih => exact ih.function h
  | build b _ _ ih => exact ih.build b

/-- An accepted build has put in the registry all that was pushed on the builder. -/
theorem Tidy.build_ok (hr : Tidy maxArity r) {b : ClassBuilder Ω} (hb : b.Checked) (hok : (b.build r).1 = .ok ()) :
    ∃ d, (b.build r).2.class? b.cls = some d ∧ d.declared = true ∧ d.supers = b.links ∧ d.valueType = b.valueType ∧
      ∀ e ∈ b.entries, ∃ g ref s, (PendingEntry.holder e b.cls, g) ∈ (b.build r).2.groups ∧
        (e.shape.arity, ref) ∈ g.overloads ∧ (b.build r).2.entry ref =
          .ok (s, ⟨g.name, e.flags.union (PendingEntry.holder e b.cls).flags, e.id, e.code⟩) := by
  rcases hr.build_cases b with ⟨e, -, hbuild⟩ | ⟨-, r', d, hbuild, hplan, hgrown⟩
  · rw [hbuild] at hok
    cases hok
  · obtain ⟨-, hsupers, hvalue⟩ := plan_outcome hb maxArity
    rw [← hplan] at hsupers hvalue
    obtain ⟨filings, hintact⟩ := hr.intact
    have hrun : commitAll (b.operations.map fun op r => r.attempt op) r = b.build r := by
      rw [ClassBuilder.build, commits_eq]
    obtain ⟨hrun', hfiled⟩ := commitAll_filed b.operations (hrun.symm ▸ hok)
    rw [hrun] at hrun'
    have hafter := hintact.run b.operations
    rw [← hrun'] at hafter
    refine ⟨d, by rw [hbuild]; exact hgrown.described, hgrown.declared, hsupers, hvalue, fun e he => ?_⟩
    obtain ⟨f, hf, hholder, hshape, hflags, hid, hcode⟩ := hfiled (PendingEntry.holder e b.cls) e.flags e.shape e.id e.code
      (List.mem_append_right _ (List.mem_map_of_mem he))
    obtain ⟨g, s, hg, hover, hname, hentry⟩ := hafter.placed (List.mem_append_right _ hf)
    rw [hholder] at hg
    rw [hshape] at hover
    refine ⟨g, f.ref, s, hg, hover, ?_⟩
    rw [Registry.entry, hentry]
    rw [← hname, ← hflags, ← hid, ← hcode]

/-- A class that is declared is refused. -/
theorem build_declared {c : Class} {d : ClassDescriptor (Upcast Ω)} (hopen : r.exposure = none) (hd : r.class? c = some d)
    (hdecl : d.declared = true) (b : ClassBuilder Ω) (hb : b.cls = c) :
    b.build r = (.error (.duplicateClass b.cls.name), r) := by
  subst hb
  have hopened : r.ensureOpen = .ok () := by
    rw [Registry.ensureOpen, Registry.isClosed, hopen]
    rfl
  have hknown : ((r.class? b.cls).map (·.declared)).getD false = true := by
    rw [hd]
    exact hdecl
  have hrefused : r.declareClass b.cls.info = .error (.duplicateClass b.cls.name) := by
    unfold Registry.declareClass
    rw [hopened]
    by_cases hother : (r.names.lookup b.cls.info.name).any (· ≠ b.cls) = true
    · exact if_pos hother
    · exact (if_neg hother).trans (if_pos hknown)
  unfold ClassBuilder.build commits
  exact commitAll_error hrefused _

/-- **Building a class is all or nothing exactly where the class itself is refused.** For every declaration set and every
chain over it:
- the build is refused as the class is, and else for the first entry that has more arguments than the limit;
- a refused build leaves the registry as it was if and only if the class was refused;
- a refused build that changed it has the class declared, and no chain can declare it again;
- an accepted build has put every superclass, the value form and every entry in the registry. -/
theorem build_unchanged_iff (hr : Collected maxArity r) {b : ClassBuilder Ω} (hb : b.Chained) :
    ((b.build r).1 = match r.declareClass b.cls.info with
      | .error e => .error e
      | .ok _ => verdict maxArity b.entries) ∧
    (∀ e, (b.build r).1 = .error e → ((b.build r).2 = r ↔ ∃ e, r.declareClass b.cls.info = .error e)) ∧
    (∀ e, (b.build r).1 = .error e → (b.build r).2 ≠ r → ∀ again : ClassBuilder Ω, again.cls = b.cls →
      again.build (b.build r).2 = (.error (.duplicateClass b.cls.name), (b.build r).2)) ∧
    ((b.build r).1 = .ok () → ∃ d, (b.build r).2.class? b.cls = some d ∧ d.declared = true ∧ d.supers = b.links ∧
      d.valueType = b.valueType ∧
      ∀ e ∈ b.entries, ∃ g ref s, (PendingEntry.holder e b.cls, g) ∈ (b.build r).2.groups ∧
        (e.shape.arity, ref) ∈ g.overloads ∧ (b.build r).2.entry ref =
          .ok (s, ⟨g.name, e.flags.union (PendingEntry.holder e b.cls).flags, e.id, e.code⟩)) := by
  refine ⟨?_, fun e _ => ?_, fun e _ hleft again hagain => ?_, hr.tidy.build_ok hb.checked⟩
  · rcases hr.tidy.build_cases b with ⟨e, hrefused, hbuild⟩ | ⟨⟨r₁, hdeclare⟩, r', d, hbuild, -, -⟩
    · rw [hbuild, hrefused]
    · rw [hbuild, hdeclare]
      exact (plan_outcome hb.checked maxArity).1
  · rcases hr.tidy.build_cases b with ⟨e, hrefused, hbuild⟩ | ⟨⟨r₁, hdeclare⟩, r', d, hbuild, -, hgrown⟩
    · rw [hbuild]
      exact ⟨fun _ => ⟨e, hrefused⟩, fun _ => rfl⟩
    · rw [hbuild]
      refine ⟨fun hsame => ?_, fun ⟨e, hrefused⟩ => ?_⟩
      · have hnames := hgrown.names
        rw [show r' = r from hsame] at hnames
        exact absurd (congrArg List.length hnames) (by simp)
      · rw [hdeclare] at hrefused
        cases hrefused
  · rcases hr.tidy.build_cases b with ⟨e, hrefused, hbuild⟩ | ⟨-, r', d, hbuild, -, hgrown⟩
    · rw [hbuild] at hleft
      exact absurd rfl hleft
    · rw [hbuild, ← hagain]
      exact build_declared hgrown.opened hgrown.described hgrown.declared again hagain

/-- A class with a constructor of one argument and one of two. -/
def crowdedPoint : ClassBuilder Catalog.Specimen :=
  { (ClassBuilder.new Catalog.Species.point.cls : ClassBuilder Catalog.Specimen) with
    entries := [1, 2].map fun n => ⟨⟨"Point", .constructor⟩, .none,
      .function (List.replicate n .unit) (.object Catalog.Species.point.cls),
      .ofConstructor (.ofName "Point") n.toUInt64, .raw fun _ => pure ()⟩ }

theorem chained_crowdedPoint : crowdedPoint.Chained := by
  refine .push ⟨"Point", .constructor⟩ .none
    (.function (List.replicate 2 .unit) (.object Catalog.Species.point.cls)) (.raw fun _ => pure ())
    (.push ⟨"Point", .constructor⟩ .none (.function (List.replicate 1 .unit) (.object Catalog.Species.point.cls))
      (.raw fun _ => pure ()) (.new Catalog.Species.point.cls) (fun _ => rfl) rfl) (fun _ => rfl) rfl

/-- Where one argument is the limit, the second constructor is refused when the class is declared already, and then the
class cannot be declared any more. -/
theorem crowdedPoint_stays : ∃ r, crowdedPoint.build (.empty 1) = (.error (.arityLimit "Point" 2 1), r) ∧
    r ≠ .empty 1 ∧ crowdedPoint.build r = (.error (.duplicateClass "Point"), r) := by
  have hnew : Collected 1 (.empty 1 : Registry (Upcast Catalog.Specimen) (Code Catalog.Specimen)) := .new
  obtain ⟨hend, hleft, hagain, -⟩ := build_unchanged_iff hnew chained_crowdedPoint
  obtain ⟨r₁, hdeclare⟩ : ∃ r₁, (Registry.empty 1 : Registry (Upcast Catalog.Specimen) (Code Catalog.Specimen)).declareClass
    crowdedPoint.cls.info = .ok r₁ := ⟨_, rfl⟩
  rw [hdeclare] at hend
  have hrefused : (crowdedPoint.build (.empty 1)).1 = .error (.arityLimit "Point" 2 1) := hend.trans rfl
  have hne : (crowdedPoint.build (.empty 1)).2 ≠ .empty 1 := fun hsame => by
    obtain ⟨e, he⟩ := (hleft _ hrefused).1 hsame
    rw [hdeclare] at he
    cases he
  exact ⟨_, Prod.ext hrefused rfl, hne, hagain _ hrefused hne crowdedPoint rfl⟩

end ClassBuilder
end NativeBridge
