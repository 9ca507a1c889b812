import NativeBridge.Catalog.Specimen
import NativeBridge.Engine.Declare
import NativeBridge.Proofs.Engine.Integrity
import NativeBridge.Proofs.Registry.Resemblance
/-!
# The order of declaration does not matter

What a builder declares is a change of the descriptor of its class, and nothing else of the registry but the bases that it
mentions (`Grown`, `Follows`). What a registry holds after some classes were built is therefore said of each class alone
(`Built`), and two orders of building them lead to registries that are alike (`declaration_order`).
-/
namespace NativeBridge

/-! ## Descriptors without places of entries -/

namespace OverloadGroup

theorem overload?_unfiled (g : OverloadGroup) (n : Nat) : (g.unfiled.overload? n).isSome = (g.overload? n).isSome := by
  unfold overload? unfiled
  induction g.overloads with
  | nil => rfl
  | cons p rest ih =>
    rw [List.map_cons, List.lookup_cons, List.lookup_cons]
    split <;> first | rfl | exact ih

theorem insertAt_unfiled (n : Nat) (ref : EntryRef) : ∀ overloads : List (Nat × EntryRef),
    insertAt n default (overloads.map fun p => (p.1, default)) =
      (insertAt n ref overloads).map fun p => (p.1, default)
  | [] => rfl
  | (m, e) :: rest => by
    rw [List.map_cons, insertAt, insertAt, insertAt_unfiled n ref rest]
    split <;> rfl

/-- Whether a group takes an entry does not depend on where the entry is filed. -/
theorem insert_unfiled (g : OverloadGroup) (n : Nat) (ref : EntryRef) :
    g.unfiled.insert n default = (g.insert n ref).map (·.unfiled) := by
  have hdup := overload?_unfiled g n
  unfold insert
  rw [hdup]
  by_cases hfrozen : g.frozen
  · rw [if_pos hfrozen, if_pos (show g.unfiled.frozen = true from hfrozen)]
    rfl
  · rw [if_neg hfrozen, if_neg (show ¬ g.unfiled.frozen = true from hfrozen)]
    by_cases hsome : (g.overload? n).isSome
    · rw [if_pos hsome, if_pos hsome]
      rfl
    · rw [if_neg hsome, if_neg hsome, Except.map, unfiled, insertAt_unfiled n ref]
      rfl

end OverloadGroup

namespace ClassDescriptor
variable {Upcast : Type}

theorem group?_unfiled (d : ClassDescriptor Upcast) (key : GroupKey) :
    d.unfiled.group? key = (d.group? key).map (·.unfiled) := by
  unfold group? unfiled
  rw [List.find?_map, Option.map_map, Option.map_map]
  rfl

theorem withGroup_unfiled (d : ClassDescriptor Upcast) (key : GroupKey) :
    (d.withGroup key).unfiled = d.unfiled.withGroup key := by
  have hsome : (d.unfiled.group? key).isSome = (d.group? key).isSome := by rw [group?_unfiled, Option.isSome_map]
  unfold withGroup
  rw [hsome]
  split
  · rfl
  · simp [unfiled, OverloadGroup.unfiled, OverloadGroup.empty]

theorem setGroup_unfiled (d : ClassDescriptor Upcast) (key : GroupKey) (g : OverloadGroup) :
    (d.setGroup key g).unfiled = d.unfiled.setGroup key g.unfiled := by
  unfold setGroup unfiled
  rw [List.map_map, List.map_map]
  congr 1
  refine List.map_congr_left fun m _ => ?_
  by_cases hkey : m.key = key <;> simp [hkey]

theorem addSuper_unfiled (d : ClassDescriptor Upcast) (base : Class) (upcast : Upcast) :
    (d.addSuper base upcast).unfiled = d.unfiled.addSuper base upcast := by
  unfold addSuper
  by_cases hany : d.supers.any (·.cls = base)
  · rw [if_pos hany, if_pos (show d.unfiled.supers.any (·.cls = base) = true from hany)]
    rfl
  · rw [if_neg hany, if_neg (show ¬ d.unfiled.supers.any (·.cls = base) = true from hany)]
    rfl

/-- The descriptor of a class that is only mentioned. -/
def mentioned (c : Class) : ClassDescriptor Upcast :=
  .placeholder c c.info.name c.info.size

/-- The descriptor of a class when it is declared and nothing is known of it yet. -/
def blank (c : Class) : ClassDescriptor Upcast :=
  (mentioned c).declare c.info.name c.info.size

theorem blank_unfiled (c : Class) : (blank c : ClassDescriptor Upcast).unfiled = blank c := by
  have hname : (mentioned c : ClassDescriptor Upcast).name = c.info.name := rfl
  unfold blank declare
  rw [if_pos hname]
  rfl

/-! ## What declarations make of a descriptor -/

/-- A change of a descriptor, which may be refused. -/
abbrev Change (Upcast : Type) : Type :=
  ClassDescriptor Upcast → Except RegistrationError (ClassDescriptor Upcast)

def extended (base : Class) (upcast : Upcast) : Change Upcast := fun d =>
  if d.cls = base then .error (.inheritanceCycle d.name) else .ok (d.addSuper base upcast)

def valued : Change Upcast := fun d =>
  .ok { d with valueType := true }

def constructed (maxArity arity : Nat) : Change Upcast := fun d =>
  if maxArity < arity then .error (.arityLimit d.name arity maxArity)
  else (d.constructors.insert arity default).map fun g => { d with constructors := g }

def enlarged (maxArity : Nat) (key : GroupKey) (arity : Nat) : Change Upcast := fun d =>
  if maxArity < arity then .error (.arityLimit key.name arity maxArity)
  else (((d.group? key).getD (.empty key.name (.cls d.cls))).insert arity default).map fun g =>
    (d.withGroup key).setGroup key g

end ClassDescriptor

/-! ## What declarations make of a registry -/

namespace Registry
open ClassDescriptor (mentioned Change)
variable {Upcast Code : Type} {r₀ r : Registry Upcast Code} {c : Class} {d : ClassDescriptor Upcast}

/-- What declaring `c` has made of a registry: `c` is described by `d`, and its superclasses are mentioned. -/
structure Grown (c : Class) (r₀ r : Registry Upcast Code) (d : ClassDescriptor Upcast) : Prop where
  opened : r.exposure = none
  maxArity : r.maxArity = r₀.maxArity
  names : r.names = r₀.names ++ [(c.name, c)]
  described : r.class? c = some d
  declared : d.declared = true
  others : ∀ k, k ≠ c →
    r.class? k = (r₀.class? k).or (if k ∈ d.supers.map (·.cls) then some (mentioned k) else none)

/-- A declaration makes a change of the descriptor of `c`, or is refused as the change is. -/
def Follows (c : Class) (maxArity : Nat) (step : Registry Upcast Code → Except RegistrationError (Registry Upcast Code))
    (change : Change Upcast) : Prop :=
  ∀ (r₀ r : Registry Upcast Code) (d : ClassDescriptor Upcast), r₀.maxArity = maxArity → Grown c r₀ r d →
    match change d.unfiled with
    | .error e => step r = .error e
    | .ok changed => ∃ r' d', step r = .ok r' ∧ d'.unfiled = changed ∧ Grown c r₀ r' d'

theorem Grown.cls (hr : Grown c r₀ r d) : d.cls = c :=
  (class?_mem hr.described).2

theorem Grown.ensureOpen (hr : Grown c r₀ r d) : r.ensureOpen = .ok () := by
  rw [Registry.ensureOpen, isClosed, hr.opened]
  rfl

theorem Grown.declared_eq (hr : Grown c r₀ r d) : r.declared c = .ok d := by
  unfold Registry.declared
  rw [hr.described]
  simp only [hr.declared, if_true]

theorem class?_update_other {k : Class} (hk : k ≠ c) {f : ClassDescriptor Upcast → ClassDescriptor Upcast}
    (hcls : ∀ e, (f e).cls = e.cls) : (r.update c f).class? k = r.class? k := by
  rw [class?_update c k hcls]
  cases he : r.class? k with
  | none => rfl
  | some e =>
    have hek : e.cls ≠ c := fun h => hk ((class?_mem he).2.symm.trans h)
    rw [Option.map_some, if_neg hek]

/-- A change that leaves the superclasses alone. -/
theorem Grown.update (hr : Grown c r₀ r d) {f : ClassDescriptor Upcast → ClassDescriptor Upcast}
    (hcls : ∀ e, (f e).cls = e.cls) (hdecl : (f d).declared = true) (hsupers : (f d).supers = d.supers)
    (signatures : SignatureTable Code) (types : TypeRegistry) :
    Grown c r₀ ({ r with signatures, types }.update c f) (f d) := by
  refine ⟨hr.opened, hr.maxArity, hr.names, ?_, hdecl, fun k hk => ?_⟩
  · rw [class?_update c c hcls]
    change (r.class? c).map _ = _
    rw [hr.described, Option.map_some, if_pos hr.cls]
  · rw [class?_update_other hk hcls, hsupers, ← hr.others k hk]
    rfl

theorem class?_mention_eq (r : Registry Upcast Code) (b k : Class) :
    (r.mention b b.info.name b.info.size).class? k =
      (r.class? k).or (if k = b then some (mentioned b) else none) := by
  unfold mention
  by_cases hb : (r.class? b).isSome
  · rw [if_pos hb]
    by_cases hkb : k = b
    · obtain ⟨e, he⟩ := Option.isSome_iff_exists.1 hb
      rw [hkb, he]
      rfl
    · rw [if_neg hkb, Option.or_none]
  · rw [if_neg hb]
    unfold class?
    rw [List.find?_append]
    congr 1
    by_cases hkb : k = b
    · simp [hkb, mentioned, ClassDescriptor.placeholder]
    · have hbk : b ≠ k := fun h => hkb h.symm
      simp [hkb, hbk, ClassDescriptor.placeholder]

theorem mem_addSuper (d : ClassDescriptor Upcast) (base k : Class) (upcast : Upcast) :
    k ∈ (d.addSuper base upcast).supers.map (·.cls) ↔ k ∈ d.supers.map (·.cls) ∨ k = base := by
  unfold ClassDescriptor.addSuper
  by_cases hany : d.supers.any (·.cls = base)
  · rw [if_pos hany, ClassDescriptor.map_upcast]
    refine ⟨.inl, fun h => h.elim id fun hk => ?_⟩
    obtain ⟨l, hl, hlb⟩ := List.any_eq_true.1 hany
    rw [hk, ← of_decide_eq_true hlb]
    exact List.mem_map_of_mem hl
  · rw [if_neg hany]
    simp

theorem follows_super (c base : Class) (maxArity : Nat) (upcast : Upcast) :
    Follows c maxArity (fun r : Registry Upcast Code => r.declareSuper c base.info upcast)
      (ClassDescriptor.extended base upcast) := by
  intro r₀ r d _ hr
  have hcls := hr.cls
  have hasClass : base.info.token.asClass = base := rfl
  simp only [declareSuper, hr.ensureOpen, hr.declared_eq, hasClass]
  unfold ClassDescriptor.extended
  by_cases hself : c = base
  · rw [if_pos (show d.unfiled.cls = base from hcls.trans hself)]
    simp only [hself, if_true]
    rfl
  · rw [if_neg (show ¬ d.unfiled.cls = base from fun h => hself (hcls.symm.trans h))]
    simp only [hself, if_false]
    refine ⟨_, d.addSuper base upcast, rfl, ClassDescriptor.addSuper_unfiled d base upcast, ?_⟩
    obtain ⟨hkeepCls, hkeepDecl, -⟩ := addSuper_keeps d base upcast
    have hcls' (e : ClassDescriptor Upcast) : (e.addSuper base upcast).cls = e.cls := (addSuper_keeps e base upcast).1
    have hmention : (r.mention base base.info.name base.info.size).exposure = r.exposure ∧
        (r.mention base base.info.name base.info.size).maxArity = r.maxArity := by
      unfold mention
      split <;> exact ⟨rfl, rfl⟩
    refine ⟨hmention.1.trans hr.opened, hmention.2.trans hr.maxArity, (mention_names r base _ _).trans hr.names, ?_,
      hkeepDecl.trans hr.declared, fun k hk => ?_⟩
    · rw [class?_update c c hcls', class?_mention_eq, hr.described, Option.some_or, Option.map_some, if_pos hcls]
    · rw [class?_update_other hk hcls', class?_mention_eq, hr.others k hk, Option.or_assoc]
      congr 1
      have hmem := mem_addSuper d base k upcast
      by_cases hsuper : k ∈ d.supers.map (·.cls)
      · rw [if_pos hsuper, if_pos (hmem.2 (.inl hsuper)), Option.some_or]
      · rw [if_neg hsuper, Option.none_or]
        by_cases hkb : k = base
        · rw [if_pos hkb, if_pos (hmem.2 (.inr hkb)), hkb]
        · rw [if_neg hkb, if_neg fun h => (hmem.1 h).elim hsuper hkb]

theorem follows_value (c : Class) (maxArity : Nat) :
    Follows c maxArity (fun r : Registry Upcast Code => r.declareValueType c) ClassDescriptor.valued := by
  intro r₀ r d _ hr
  simp only [declareValueType, hr.ensureOpen, hr.declared_eq]
  exact ⟨_, { d with valueType := true }, rfl, rfl,
    hr.update (f := fun d => { d with valueType := true }) (fun _ => rfl) hr.declared rfl r.signatures r.types⟩

/-- An entry is registered if its group takes it. -/
theorem registerEntry_eq (r : Registry Upcast Code) (group : OverloadGroup) (shape : CallShape)
    (entry : SignatureEntry Code) : r.registerEntry group shape entry =
      (group.insert shape.arity (r.signatures.register shape entry).1).map fun g =>
        ((r.signatures.register shape entry).1, g,
          { r with signatures := (r.signatures.register shape entry).2
                   types := r.types.registerAll shape.describe }) := by
  unfold registerEntry OverloadGroup.insert
  by_cases hfrozen : group.frozen
  · simp only [hfrozen, if_true]
    rfl
  · by_cases hdup : (group.overload? shape.arity).isSome
    · simp only [hfrozen, hdup, if_true]
      rfl
    · simp only [hfrozen, hdup]
      rfl

theorem follows_constructor (c : Class) (maxArity : Nat) (flags : TypeFlags) (shape : CallShape) (id : NameHash)
    (code : Code) : Follows c maxArity
      (fun r : Registry Upcast Code => (r.declareConstructor c flags shape id code).map (·.2))
      (ClassDescriptor.constructed maxArity shape.arity) := by
  intro r₀ r d hmax hr
  obtain rfl : r.maxArity = maxArity := hr.maxArity.trans hmax
  simp only [declareConstructor, hr.ensureOpen, hr.declared_eq, checkArity, registerEntry_eq, bind, Except.bind]
  unfold ClassDescriptor.constructed
  by_cases hover : r.maxArity < shape.arity
  · rw [if_pos hover]
    simp only [hover, if_true]
    rfl
  · rw [if_neg hover]
    simp only [hover, if_false]
    generalize r.signatures.register shape ⟨d.name, flags.union .static, id, code⟩ = filed
    have hinsert := OverloadGroup.insert_unfiled d.constructors shape.arity filed.1
    rw [show d.unfiled.constructors = d.constructors.unfiled from rfl, hinsert]
    cases d.constructors.insert shape.arity filed.1 with
    | error e => rfl
    | ok g =>
      exact ⟨_, { d with constructors := g }, rfl, rfl, hr.update (f := fun d => { d with constructors := g })
        (fun _ => rfl) hr.declared rfl filed.2 _⟩

theorem follows_member (c : Class) (maxArity : Nat) (key : GroupKey) (flags : TypeFlags) (shape : CallShape)
    (id : NameHash) (code : Code) : Follows c maxArity
      (fun r : Registry Upcast Code => (r.declareMember c key flags shape id code).map (·.2))
      (ClassDescriptor.enlarged maxArity key shape.arity) := by
  intro r₀ r d hmax hr
  obtain rfl : r.maxArity = maxArity := hr.maxArity.trans hmax
  have hgroup : (d.unfiled.group? key).getD (.empty key.name (.cls d.unfiled.cls)) =
      ((d.group? key).getD (.empty key.name (.cls c))).unfiled := by
    rw [ClassDescriptor.group?_unfiled, ← hr.cls]
    cases d.group? key <;> rfl
  simp only [declareMember, hr.ensureOpen, hr.declared_eq, checkArity, registerEntry_eq, bind, Except.bind]
  unfold ClassDescriptor.enlarged
  by_cases hover : r.maxArity < shape.arity
  · rw [if_pos hover]
    simp only [hover, if_true]
    rfl
  · rw [if_neg hover, hgroup]
    simp only [hover, if_false]
    generalize r.signatures.register shape _ = filed
    rw [OverloadGroup.insert_unfiled _ shape.arity filed.1]
    cases ((d.group? key).getD (.empty key.name (.cls c))).insert shape.arity filed.1 with
    | error e => rfl
    | ok g =>
      have hkeeps (e : ClassDescriptor Upcast) := setGroup_keeps e key g
      refine ⟨_, (d.withGroup key).setGroup key g, rfl, ?_, hr.update
        (f := fun d => (d.withGroup key).setGroup key g) (fun e => (hkeeps e).1) ?_ ?_ filed.2 _⟩
      · rw [ClassDescriptor.setGroup_unfiled, ClassDescriptor.withGroup_unfiled]
      · exact (hkeeps d).2.1.trans hr.declared
      · unfold ClassDescriptor.setGroup ClassDescriptor.withGroup
        split <;> rfl

/-- A class that was at most mentioned is declared, if its name is free. -/
theorem grown_declareClass (hr : r.exposure = none) (hname : r.names.lookup c.name = none)
    (hmention : r.class? c = none ∨ r.class? c = some (mentioned c)) :
    ∃ r', r.declareClass c.info = .ok r' ∧
      Grown c r r' (.blank c) := by
  have hclass (k : Class) := class?_mention_eq r c k
  have hself : (r.mention c c.info.name c.info.size).class? c = some (mentioned c) := by
    rw [hclass, if_pos rfl]
    rcases hmention with h | h <;> rw [h] <;> rfl
  have hblank : ((r.class? c).map (·.declared)).getD false = false := by
    rcases hmention with h | h <;> rw [h] <;> rfl
  have hopen : r.ensureOpen = .ok () := by
    rw [Registry.ensureOpen, isClosed, hr]
    rfl
  have hinfo : c.info.token.asClass = c := rfl
  have hfree : r.names.lookup c.info.name = none := hname
  have hmentioned : (r.mention c c.info.name c.info.size).exposure = r.exposure ∧
      (r.mention c c.info.name c.info.size).maxArity = r.maxArity := by
    unfold mention
    split <;> exact ⟨rfl, rfl⟩
  have hdeclare (e : ClassDescriptor Upcast) : (e.declare c.info.name c.info.size).cls = e.cls := rfl
  simp only [declareClass, hopen, hinfo, hfree, hblank]
  refine ⟨_, rfl, hmentioned.1.trans hr, hmentioned.2, ?_, ?_, rfl, fun k hk => ?_⟩
  · change (r.mention c c.info.name c.info.size).names ++ _ = _
    rw [mention_names]
    rfl
  · change ((r.mention c c.info.name c.info.size).update c _).class? c = _
    rw [class?_update c c hdeclare, hself]
    exact congrArg some (if_pos rfl)
  · change ((r.mention c c.info.name c.info.size).update c _).class? k = _
    rw [class?_update_other hk hdeclare, hclass, if_neg hk]
    congr 1

end Registry

/-! ## Building classes -/

namespace ClassBuilder
open ClassDescriptor (mentioned Change)
open Registry (Grown Follows Declares Reached)
variable {Ω : Type} [ObjectModel Ω]

/-- What an entry makes of the descriptor of its class. -/
def entryChange (maxArity : Nat) (e : PendingEntry Ω) : Change (Upcast Ω) :=
  if e.key.kind = .constructor then ClassDescriptor.constructed maxArity e.shape.arity
  else ClassDescriptor.enlarged maxArity e.key e.shape.arity

/-- What the superclasses, the value form and the entries make of the descriptor. -/
def changes (maxArity : Nat) (b : ClassBuilder Ω) : List (Change (Upcast Ω)) :=
  b.supers.map (fun (base, upcast) => ClassDescriptor.extended base upcast)
    ++ (if b.valueType then [ClassDescriptor.valued] else [])
    ++ b.entries.map (entryChange maxArity)

/-- How building the class ends, and the descriptor that it leaves behind, whatever else is declared. -/
def plan (maxArity : Nat) (b : ClassBuilder Ω) : Except RegistrationError Unit × ClassDescriptor (Upcast Ω) :=
  commitAll (b.changes maxArity) (.blank b.cls)

theorem follows_entry (c : Class) (maxArity : Nat) (e : PendingEntry Ω) :
    Follows c maxArity (commitEntry c e) (entryChange maxArity e) := by
  unfold entryChange
  by_cases hkind : e.key.kind = .constructor
  · rw [if_pos hkind, show commitEntry c e = _ from funext fun r => if_pos hkind]
    exact Registry.follows_constructor c maxArity e.flags e.shape e.id e.code
  · rw [if_neg hkind, show commitEntry c e = _ from funext fun r => if_neg hkind]
    exact Registry.follows_member c maxArity e.key e.flags e.shape e.id e.code

theorem follows_commits (maxArity : Nat) (b : ClassBuilder Ω) :
    ∃ steps, b.commits = (·.declareClass b.cls.info) :: steps ∧
      List.Forall₂ (Follows b.cls maxArity) steps (b.changes maxArity) := by
  refine ⟨_, rfl, List.rel_append (List.rel_append ?_ ?_) ?_⟩
  · rw [List.forall₂_map_left_iff, List.forall₂_map_right_iff, List.forall₂_same]
    exact fun p _ => Registry.follows_super b.cls p.1 maxArity p.2
  · split
    · exact .cons (Registry.follows_value b.cls maxArity) .nil
    · exact .nil
  · rw [List.forall₂_map_left_iff, List.forall₂_map_right_iff, List.forall₂_same]
    exact fun e _ => follows_entry b.cls maxArity e

/-- Declarations made one after another come to what their changes come to, and end as they end. -/
theorem commitAll_grown {c : Class} {maxArity : Nat} {r₀ : Registry (Upcast Ω) (Code Ω)} (hmax : r₀.maxArity = maxArity)
    {steps : List (Registry (Upcast Ω) (Code Ω) → Except RegistrationError (Registry (Upcast Ω) (Code Ω)))}
    {cs : List (Change (Upcast Ω))} (hsteps : List.Forall₂ (Follows c maxArity) steps cs) :
    ∀ {r : Registry (Upcast Ω) (Code Ω)} {d : ClassDescriptor (Upcast Ω)}, Grown c r₀ r d →
      ∃ r' d', commitAll steps r = ((commitAll cs d.unfiled).1, r') ∧ d'.unfiled = (commitAll cs d.unfiled).2 ∧
        Grown c r₀ r' d' := by
  induction hsteps with
  | nil => exact fun {r d} hr => ⟨r, d, rfl, rfl, hr⟩
  | @cons step change steps cs hstep _ ih =>
    intro r d hr
    have hfollows := hstep r₀ r d hmax hr
    cases hchange : change d.unfiled with
    | error e =>
      rw [hchange] at hfollows
      simp only [commitAll, hfollows, hchange]
      exact ⟨r, d, rfl, rfl, hr⟩
    | ok changed =>
      rw [hchange] at hfollows
      obtain ⟨r', d', hok, rfl, hr'⟩ := hfollows
      simp only [commitAll, hok, hchange]
      exact ih hr'

/-- A class that was at most mentioned is built as it would be alone, if its name is free. -/
theorem build_grown {r : Registry (Upcast Ω) (Code Ω)} {b : ClassBuilder Ω} (hopen : r.exposure = none)
    (hname : r.names.lookup b.cls.name = none)
    (hmention : r.class? b.cls = none ∨ r.class? b.cls = some (mentioned b.cls)) :
    ∃ r' d, b.build r = ((b.plan r.maxArity).1, r') ∧ d.unfiled = (b.plan r.maxArity).2 ∧ Grown b.cls r r' d := by
  obtain ⟨r₁, hdeclare, hgrown⟩ := Registry.grown_declareClass hopen hname hmention
  obtain ⟨steps, hcommits, hsteps⟩ := follows_commits r.maxArity b
  obtain ⟨r₂, d, hrun, hd, hgrown⟩ := commitAll_grown rfl hsteps hgrown
  rw [ClassDescriptor.blank_unfiled] at hrun hd
  refine ⟨r₂, d, ?_, hd, hgrown⟩
  simp only [ClassBuilder.build, hcommits, commitAll, hdeclare]
  exact hrun

/-- What a registry holds after some classes were built: of each what its builder alone comes to, and of their
superclasses that they are mentioned. -/
structure Built (maxArity : Nat) (bs : List (ClassBuilder Ω)) (r : Registry (Upcast Ω) (Code Ω)) : Prop where
  reached : r.Reached
  opened : r.exposure = none
  limit : r.maxArity = maxArity
  names : ∀ p ∈ r.names, ∃ b ∈ bs, p.1 = b.cls.name
  classes : ∀ b ∈ bs, ∃ d, r.class? b.cls = some d ∧ d.declared = true ∧ d.unfiled = (b.plan maxArity).2
  others : ∀ c, c ∉ bs.map (·.cls) →
    r.class? c = if c ∈ bs.flatMap fun b => (b.plan maxArity).2.supers.map (·.cls) then some (mentioned c) else none

theorem built_empty (maxArity : Nat) : Built maxArity [] (.empty maxArity : Registry (Upcast Ω) (Code Ω)) :=
  ⟨⟨maxArity, .refl⟩, rfl, rfl, fun _ h => (nomatch h), fun _ h => (nomatch h), fun _ _ => rfl⟩

theorem commitEntry_declares {c : Class} {e : PendingEntry Ω} {r r' : Registry (Upcast Ω) (Code Ω)}
    (h : commitEntry c e r = .ok r') : Declares r r' := by
  unfold commitEntry at h
  split at h
  · cases hrun : r.declareConstructor c e.flags e.shape e.id e.code with
    | error x =>
      rw [hrun] at h
      cases h
    | ok made =>
      rw [hrun] at h
      cases h
      exact .constructor c e.flags e.shape e.id e.code made.1 hrun
  · cases hrun : r.declareMember c e.key e.flags e.shape e.id e.code with
    | error x =>
      rw [hrun] at h
      cases h
    | ok made =>
      rw [hrun] at h
      cases h
      exact .member c e.key e.flags e.shape e.id e.code made.1 hrun

theorem commits_declare {b : ClassBuilder Ω} : ∀ step ∈ b.commits, ∀ {r r' : Registry (Upcast Ω) (Code Ω)},
    step r = .ok r' → Declares r r' := by
  intro step hstep r r' h
  simp only [commits, List.cons_append, List.mem_cons, List.mem_append, List.mem_map] at hstep
  rcases hstep with rfl | (⟨p, -, rfl⟩ | hvalue) | ⟨e, -, rfl⟩
  · exact .cls _ h
  · exact .super _ _ _ h
  · split at hvalue
    · rw [List.mem_singleton.1 hvalue] at h
      exact .valueType _ h
    · cases hvalue
  · exact commitEntry_declares h

/-- A registry after any commits is one that declarations lead to. -/
theorem reached_commitAll : ∀ {steps : List (Registry (Upcast Ω) (Code Ω) → Except RegistrationError (Registry (Upcast Ω) (Code Ω)))},
    (∀ step ∈ steps, ∀ {r r' : Registry (Upcast Ω) (Code Ω)}, step r = .ok r' → Declares r r') →
      ∀ {r : Registry (Upcast Ω) (Code Ω)}, r.Reached → (commitAll steps r).2.Reached
  | [], _, _, hr => hr
  | step :: steps, hsteps, r, hr => by
    unfold commitAll
    cases hstep : step r with
    | error e => exact hr
    | ok r' =>
      obtain ⟨maxArity, hfrom⟩ := hr
      have hr' : r'.Reached := ⟨maxArity, hfrom.tail (hsteps step List.mem_cons_self hstep)⟩
      exact reached_commitAll (fun s hs => hsteps s (List.mem_cons_of_mem _ hs)) hr'

/-- **A class is built as it would be alone**, if its name is new. -/
theorem Built.build {maxArity : Nat} {bs : List (ClassBuilder Ω)} {r : Registry (Upcast Ω) (Code Ω)}
    (hr : Built maxArity bs r) {b : ClassBuilder Ω} (hnew : b.cls.name ∉ bs.map (·.cls.name)) :
    (b.build r).1 = (b.plan maxArity).1 ∧ Built maxArity (bs ++ [b]) (b.build r).2 := by
  have hfresh : b.cls ∉ bs.map (·.cls) := fun h => by
    obtain ⟨a, ha, hab⟩ := List.mem_map.1 h
    exact hnew (List.mem_map.2 ⟨a, ha, congrArg Class.name hab⟩)
  have hname : r.names.lookup b.cls.name = none := by
    refine List.lookup_eq_none_iff.2 fun p hp => ?_
    obtain ⟨a, ha, hpa⟩ := hr.names p hp
    have hne : b.cls.name ≠ p.1 := fun h => hnew (List.mem_map.2 ⟨a, ha, hpa.symm.trans h.symm⟩)
    simpa using hne
  have hmention : r.class? b.cls = none ∨ r.class? b.cls = some (mentioned b.cls) := by
    rw [hr.others _ hfresh]
    split
    · exact .inr rfl
    · exact .inl rfl
  obtain ⟨r₂, d, hbuild, hplan, hgrown⟩ := build_grown hr.opened hname hmention
  rw [hr.limit] at hbuild hplan
  have hreached : r₂.Reached := by
    have h := reached_commitAll (commits_declare (b := b)) hr.reached
    rw [show commitAll b.commits r = b.build r from rfl, hbuild] at h
    exact h
  have hsupers : d.supers = (b.plan maxArity).2.supers := by
    rw [← hplan]
    rfl
  rw [hbuild]
  refine ⟨rfl, hreached, hgrown.opened, hgrown.maxArity.trans hr.limit, fun p hp => ?_, fun a ha => ?_, fun c hc => ?_⟩
  · rw [hgrown.names] at hp
    rcases List.mem_append.1 hp with hp | hp
    · obtain ⟨a, ha, hpa⟩ := hr.names p hp
      exact ⟨a, List.mem_append_left _ ha, hpa⟩
    · rw [List.mem_singleton.1 hp]
      exact ⟨b, by simp, rfl⟩
  · rcases List.mem_append.1 ha with ha | ha
    · obtain ⟨e, he, hrest⟩ := hr.classes a ha
      have hab : a.cls ≠ b.cls := fun h => hfresh (h ▸ List.mem_map_of_mem ha)
      exact ⟨e, by rw [hgrown.others _ hab, he, Option.some_or], hrest⟩
    · rw [List.mem_singleton.1 ha]
      exact ⟨d, hgrown.described, hgrown.declared, hplan⟩
  · simp only [List.map_append, List.mem_append, List.map_singleton, List.mem_singleton, not_or] at hc
    rw [hgrown.others c hc.2, hr.others c hc.1, hsupers, List.flatMap_append, List.flatMap_singleton]
    by_cases hbefore : c ∈ bs.flatMap fun b => (b.plan maxArity).2.supers.map (·.cls)
    · rw [if_pos hbefore, if_pos (List.mem_append_left _ hbefore), Option.some_or]
    · rw [if_neg hbefore, Option.none_or]
      refine if_congr ?_ rfl rfl
      simp only [List.mem_append, hbefore, false_or]

/-- Build classes one after another. A class that is refused leaves behind what it had committed before. -/
def buildAll : List (ClassBuilder Ω) → Registry (Upcast Ω) (Code Ω) →
    List (Except RegistrationError Unit) × Registry (Upcast Ω) (Code Ω)
  | [], r => ([], r)
  | b :: bs, r =>
    let (outcome, r) := b.build r
    let (outcomes, r) := buildAll bs r
    (outcome :: outcomes, r)

theorem Built.buildAll {maxArity : Nat} : ∀ (more : List (ClassBuilder Ω)) {bs : List (ClassBuilder Ω)}
    {r : Registry (Upcast Ω) (Code Ω)}, Built maxArity bs r → ((bs ++ more).map (·.cls.name)).Nodup →
      (ClassBuilder.buildAll more r).1 = more.map (fun b => (b.plan maxArity).1) ∧
        Built maxArity (bs ++ more) (ClassBuilder.buildAll more r).2
  | [], bs, r, hr, _ => ⟨rfl, by rwa [List.append_nil]⟩
  | b :: more, bs, r, hr, hn => by
    have hnew : b.cls.name ∉ bs.map (·.cls.name) := fun h => by
      rw [List.map_append, List.nodup_append] at hn
      exact hn.2.2 _ h _ List.mem_cons_self rfl
    obtain ⟨hone, hr'⟩ := hr.build hnew
    obtain ⟨hmore, hr''⟩ := Built.buildAll more hr' (by rwa [List.append_assoc, List.singleton_append])
    rw [List.append_assoc, List.singleton_append] at hr''
    refine ⟨?_, hr''⟩
    simp only [ClassBuilder.buildAll, hone, hmore, List.map_cons]

/-- What is built does not depend on the order. -/
theorem Built.alike {maxArity : Nat} {bs bs' : List (ClassBuilder Ω)} (hp : bs.Perm bs')
    {r s : Registry (Upcast Ω) (Code Ω)} (hr : Built maxArity bs r) (hs : Built maxArity bs' s) : r.Alike s := by
  refine ⟨hr.reached.wellFormed, hs.reached.wellFormed, fun c => ?_⟩
  by_cases hc : c ∈ bs.map (·.cls)
  · obtain ⟨b, hb, rfl⟩ := List.mem_map.1 hc
    obtain ⟨d, hd, -, hplan⟩ := hr.classes b hb
    obtain ⟨e, he, -, hplan'⟩ := hs.classes b (hp.mem_iff.1 hb)
    rw [hd, he, Option.map_some, Option.map_some, hplan, hplan']
  · have hc' : c ∉ bs'.map (·.cls) := fun h => hc ((hp.map _).mem_iff.2 h)
    have hmem := (hp.flatMap_right fun b => (b.plan maxArity).2.supers.map (·.cls)).mem_iff (a := c)
    rw [hr.others c hc, hs.others c hc', if_congr hmem rfl rfl]

/-- **The order in which classes are declared does not matter.** Of two orders of building the same classes, of distinct
names:
- each class is built, or refused, as it would be alone in an empty registry;
- both registries have a cycle when they are closed, or neither has;
- if they can be closed, every class is shown, and in both the same way: its name, its superclasses, whether it is
  marshalled by value, its members with their owners and in their order, its ancestors, the upcasts to them, what is found
  for each name and kind, and whatever the tags of all this invoke. -/
theorem declaration_order (maxArity : Nat) {bs bs' : List (ClassBuilder Ω)} (hp : bs.Perm bs')
    (hn : (bs.map (·.cls.name)).Nodup) :
    (buildAll bs (.empty maxArity)).1 = bs.map (fun b => (b.build (.empty maxArity)).1) ∧
    (buildAll bs' (.empty maxArity)).1 = bs'.map (fun b => (b.build (.empty maxArity)).1) ∧
    ((∃ c c', (buildAll bs (.empty maxArity)).2.finalize = .error (.inheritanceCycle c) ∧
        (buildAll bs' (.empty maxArity)).2.finalize = .error (.inheritanceCycle c')) ∨
      ∃ r r', (buildAll bs (.empty maxArity)).2.finalize = .ok r ∧
        (buildAll bs' (.empty maxArity)).2.finalize = .ok r' ∧
        (∀ b ∈ bs, (r.exposedClass? b.cls).isSome = true) ∧ r.LooksLike r') := by
  have halone : (fun b : ClassBuilder Ω => (b.build (.empty maxArity)).1) = fun b => (b.plan maxArity).1 :=
    funext fun b => ((built_empty maxArity).build List.not_mem_nil).1
  have hn' : (bs'.map (·.cls.name)).Nodup := (hp.map _).nodup_iff.1 hn
  obtain ⟨hone, hr⟩ := (built_empty maxArity).buildAll bs (by rwa [List.nil_append])
  obtain ⟨hone', hr'⟩ := (built_empty maxArity).buildAll bs' (by rwa [List.nil_append])
  rw [List.nil_append] at hr hr'
  have hclose := (Built.alike hp hr hr').finalize hr.opened hr'.opened
  rw [halone]
  refine ⟨hone, hone', hclose.imp id ?_⟩
  rintro ⟨r, r', hf, hf', hlooks⟩
  refine ⟨r, r', hf, hf', fun b hb => ?_, hlooks⟩
  obtain ⟨x, hx⟩ := Registry.closed_finalize hr.reached.wellFormed hf
  obtain ⟨d, hd, hdecl, -⟩ := hr.classes b hb
  have hshown := hx.exposedClass? b.cls
  rw [hd, Option.bind_some, if_pos hdecl] at hshown
  obtain ⟨e, he, -⟩ := Option.map_eq_some_iff.1 hshown
  rw [he]
  rfl

open Catalog in
/-- A class of kin with a method and some superclasses. -/
def kinClass (i : Fin 8) (supers : List (Fin 8)) : ClassBuilder Specimen :=
  { (ClassBuilder.new (Species.kin i).cls : ClassBuilder Specimen) with
    supers := supers.map fun j => ((Species.kin j).cls, Specimen.kinUpcast i j)
    entries := [⟨⟨"greet", .method⟩, .const, .method (Species.kin i).cls [] .unit, ⟨0⟩, .raw fun _ => pure ()⟩] }

/-- A diamond, with every class before its superclasses. -/
def diamond : List (ClassBuilder Catalog.Specimen) :=
  [kinClass ⟨3, by decide⟩ [⟨1, by decide⟩, ⟨2, by decide⟩], kinClass ⟨1, by decide⟩ [⟨0, by decide⟩],
    kinClass ⟨2, by decide⟩ [⟨0, by decide⟩], kinClass ⟨0, by decide⟩ []]

open Catalog in
theorem digraph_diamond : (Hierarchy.ofClasses (buildAll diamond (.empty 16)).2.classes).digraph =
    ⟨[(Species.kin 3).cls, (Species.kin 1).cls, (Species.kin 2).cls, (Species.kin 0).cls],
      [((Species.kin 3).cls, (Species.kin 1).cls), ((Species.kin 3).cls, (Species.kin 2).cls),
        ((Species.kin 1).cls, (Species.kin 0).cls), ((Species.kin 2).cls, (Species.kin 0).cls)]⟩ :=
  rfl

/-- A diamond is shown alike whether it is declared from its tip or from its root. -/
theorem diamond_in_either_order : ∃ r r', (buildAll diamond (.empty 16)).2.finalize = .ok r ∧
    (buildAll diamond.reverse (.empty 16)).2.finalize = .ok r' ∧
    (r.exposedClass? (Catalog.Species.kin 3).cls).isSome = true ∧ r.LooksLike r' := by
  have hculprit : (Hierarchy.ofClasses (buildAll diamond (.empty 16)).2.classes).digraph.culprit? = none := by
    rw [digraph_diamond]
    cbv
  have hbuild : Hierarchy.build (buildAll diamond (.empty 16)).2.classes =
      .ok (Hierarchy.ofClasses (buildAll diamond (.empty 16)).2.classes) := by
    simp only [Hierarchy.build, hculprit]
  obtain ⟨s, hs⟩ := (Registry.finalize_of_build rfl).2 _ hbuild
  obtain ⟨-, -, ⟨c, c', hcycle, -⟩ | ⟨r, r', hf, hf', hshown, hlooks⟩⟩ :=
    declaration_order 16 diamond.reverse_perm.symm (by decide)
  · rw [hcycle] at hs
    cases hs
  · exact ⟨r, r', hf, hf', hshown _ List.mem_cons_self, hlooks⟩

end ClassBuilder
end NativeBridge
