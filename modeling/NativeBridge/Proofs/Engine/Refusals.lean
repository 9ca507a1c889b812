import NativeBridge.Proofs.Engine.DeclarationOrder
import NativeBridge.Registry.InPlace
/-!
# Refused declarations

A declaration in place changes the registry where the change falls due. On a well-formed registry it does what the
declaration does that builds a new registry from the old one (`Operation.make_eq`): every change comes after the last
check that can fail. So what is refused leaves no trace, and once the declarations are closed everything is refused
(`refused_leaves_no_trace`).
-/
namespace NativeBridge.Registry
variable {Upcast Code α β γ : Type} {r : Registry Upcast Code}

/-! ## What an operation in place leaves -/

/-- What an attempt to build a new registry comes to in place: the old one stays where the attempt fails. -/
def settle (r : Registry Upcast Code) (out : γ → α × Registry Upcast Code) (attempt : Except RegistrationError γ) :
    EStateM.Result RegistrationError (Registry Upcast Code) α :=
  match attempt with
  | .ok built => .ok (out built).1 (out built).2
  | .error e => .error e r

namespace InPlace
variable {out : γ → β × Registry Upcast Code}

theorem modify_bind (f : Registry Upcast Code → Registry Upcast Code) (k : PUnit → InPlace Upcast Code β) :
    (modify f >>= k) r = k ⟨⟩ (f r) := rfl

theorem get_bind (k : Registry Upcast Code → InPlace Upcast Code β) : (get >>= k) r = k r r := rfl

/-- A check that cannot fail. -/
theorem ask_of_ok {f : Registry Upcast Code → Except RegistrationError α} {k : α → InPlace Upcast Code β} {a : α}
    (h : f r = .ok a) : (ask f >>= k) r = k a r := by
  change EStateM.bind (ask f) k r = _
  unfold EStateM.bind ask
  rw [h]

/-- A check before every change. -/
theorem ask_bind {f : Registry Upcast Code → Except RegistrationError α} {k : α → InPlace Upcast Code β}
    {g : α → Except RegistrationError γ} (h : ∀ a, f r = .ok a → k a r = settle r out (g a)) :
    (ask f >>= k) r = settle r out (f r >>= g) := by
  cases hf : f r with
  | error e =>
    change EStateM.bind (ask f) k r = _
    unfold EStateM.bind ask
    rw [hf]
    rfl
  | ok a => exact (ask_of_ok hf).trans (h a hf)

theorem refuseIf_bind {p : Registry Upcast Code → Bool} {e : RegistrationError} {k : Unit → InPlace Upcast Code β}
    {q : Prop} [Decidable q] (hq : p r = true ↔ q) {g : PUnit → Except RegistrationError γ}
    (h : ¬ q → k ⟨⟩ r = settle r out (g ⟨⟩)) :
    (refuseIf p e >>= k) r = settle r out (if q then throw e >>= g else g ⟨⟩) := by
  by_cases hp : q
  · change EStateM.bind (ask _) k r = _
    unfold EStateM.bind ask
    simp only [hq.2 hp, if_true, if_pos hp]
    rfl
  · rw [if_neg hp, ← h hp]
    refine ask_of_ok ?_
    rw [if_neg (mt hq.1 hp)]

end InPlace

/-! ## Declarations -/

theorem mention_of_some {c : Class} (h : (r.class? c).isSome) (name : String) (size : Nat) :
    r.mention c name size = r :=
  if_pos h

theorem declareClass_inPlace (info : TypeInfo) :
    InPlace.declareClass info r = settle r ((), ·) (r.declareClass info) := by
  refine InPlace.ask_bind fun _ _ => InPlace.refuseIf_bind Iff.rfl fun _ => ?_
  obtain ⟨d, hd, hdecl⟩ := class?_mention_self r info.token.asClass info.name info.size
  rw [InPlace.modify_bind]
  -- The class has been mentioned when it is asked for. If that made the descriptor, the class is not declared.
  by_cases hold : ((r.class? info.token.asClass).map (·.declared)).getD false = true
  · have hsome : (r.class? info.token.asClass).isSome := by
      cases hc : r.class? info.token.asClass with
      | none => simp [hc] at hold
      | some e => rfl
    rw [mention_of_some hsome]
    exact InPlace.refuseIf_bind Iff.rfl fun hnot => absurd hold hnot
  · rw [if_neg hold]
    rw [← hdecl] at hold
    refine InPlace.ask_of_ok (if_neg ?_)
    beta_reduce
    rw [hd]
    exact hold

theorem declareSuper_inPlace (derived : Class) (base : TypeInfo) (upcast : Upcast) :
    InPlace.declareSuper derived base upcast r = settle r ((), ·) (r.declareSuper derived base upcast) := by
  refine InPlace.ask_bind fun _ _ => InPlace.ask_bind fun d _ => InPlace.refuseIf_bind decide_eq_true_iff fun _ => ?_
  rfl

theorem declareValueType_inPlace (c : Class) :
    InPlace.declareValueType c r = settle r ((), ·) (r.declareValueType c) := by
  refine InPlace.ask_bind fun _ _ => InPlace.ask_bind fun _ _ => ?_
  rfl

theorem finalize_inPlace : (InPlace.finalize : InPlace Upcast Code Unit) r = settle r ((), ·) r.finalize := by
  refine InPlace.ask_bind fun _ _ => InPlace.ask_bind fun h _ => ?_
  rfl

/-- **An entry is registered or nothing is changed**, as the group is asked twice with the same answer. -/
theorem registerEntry_inPlace {find : Registry Upcast Code → OverloadGroup}
    {put : OverloadGroup → Registry Upcast Code → Registry Upcast Code} {group : OverloadGroup}
    (hfind : ∀ types signatures, find { r with types, signatures } = group) (shape : CallShape)
    (entry : SignatureEntry Code) : InPlace.registerEntry find put shape entry r =
      settle r (fun (ref, group, r') => (ref, put group r')) (r.registerEntry group shape entry) := by
  have hnow : find r = group := hfind r.types r.signatures
  unfold InPlace.registerEntry Registry.registerEntry
  rw [InPlace.get_bind, hnow]
  refine InPlace.refuseIf_bind Iff.rfl fun hopen => ?_
  refine InPlace.refuseIf_bind Iff.rfl fun hfree => ?_
  have hinsert (ref : EntryRef) : group.insert shape.arity ref =
      .ok { group with overloads := OverloadGroup.insertAt shape.arity ref group.overloads } := by
    rw [OverloadGroup.insert, if_neg hopen, if_neg hfree]
  rw [InPlace.modify_bind, InPlace.get_bind]
  dsimp only
  obtain ⟨ref, signatures⟩ := r.signatures.register shape entry
  dsimp only
  rw [hinsert]
  exact InPlace.ask_of_ok ((congrArg (OverloadGroup.insert · _ _) (hfind _ _)).trans (hinsert _))

theorem insert_name {group g : OverloadGroup} {arity : Nat} {ref : EntryRef} (h : group.insert arity ref = .ok g) :
    g.name = group.name := by
  unfold OverloadGroup.insert at h
  split at h
  · cases h
  split at h
  · cases h
  · cases h
    rfl

/-- The group may have to be made before the entry is registered. A group that was just made is empty and takes the
entry, so the group of a refused entry was there before. -/
theorem registerEntry_made (r made : Registry Upcast Code) {find : Registry Upcast Code → OverloadGroup}
    {put : OverloadGroup → Registry Upcast Code → Registry Upcast Code}
    (put' : OverloadGroup → Registry Upcast Code → Registry Upcast Code) {group : OverloadGroup}
    (hsame : made.types = r.types ∧ made.signatures = r.signatures)
    (hmade : made = r ∨ ∃ name scope, group = .empty name scope)
    (hfind : ∀ types signatures, find { made with types, signatures } = group)
    (hput : ∀ g types signatures, g.name = group.name →
      put g { made with types, signatures } = put' g { r with types, signatures })
    (shape : CallShape) (entry : SignatureEntry Code) : InPlace.registerEntry find put shape entry made =
      settle r id (r.registerEntry group shape entry >>= fun (ref, g, r') => .ok (ref, put' g r')) := by
  rw [registerEntry_inPlace hfind, registerEntry_eq, registerEntry_eq, hsame.1, hsame.2]
  cases hinsert : group.insert shape.arity (r.signatures.register shape entry).1 with
  | error e =>
    rcases hmade with rfl | ⟨name, scope, rfl⟩
    · rfl
    · cases hinsert
  | ok g =>
    exact congrArg (EStateM.Result.ok _) (hput g _ _ (insert_name hinsert))

theorem declareConstructor_inPlace (c : Class) (flags : TypeFlags) (shape : CallShape) (hash : NameHash) (code : Code) :
    InPlace.declareConstructor c flags shape hash code r =
      settle r id (r.declareConstructor c flags shape hash code) := by
  refine InPlace.ask_bind fun _ _ => InPlace.ask_bind fun d hd => InPlace.ask_bind fun _ _ => ?_
  refine registerEntry_made r r _ ⟨rfl, rfl⟩ (.inl rfl) (fun types signatures => ?_) (fun _ _ _ _ => rfl) shape _
  change ((r.class? c).map (·.constructors)).getD d.constructors = d.constructors
  rw [(declared_ok hd).1]
  rfl

theorem update_update (c : Class) (f g : ClassDescriptor Upcast → ClassDescriptor Upcast)
    (hf : ∀ d, (f d).cls = d.cls) : (r.update c f).update c g = r.update c fun d => g (f d) := by
  unfold update
  rw [List.map_map]
  congr 1
  refine List.map_congr_left fun d _ => ?_
  rw [Function.comp_apply]
  by_cases hc : d.cls = c
  · rw [if_pos hc, if_pos hc, if_pos ((hf d).trans hc)]
  · rw [if_neg hc, if_neg hc, if_neg hc]

theorem WellFormed.update_self (hr : r.WellFormed) {c : Class} {d : ClassDescriptor Upcast}
    {f : ClassDescriptor Upcast → ClassDescriptor Upcast} (hd : r.class? c = some d) (hf : f d = d) :
    r.update c f = r := by
  have hsame : (r.classes.map fun e => if e.cls = c then f e else e) = r.classes := by
    refine (List.map_congr_left fun e he => ?_).trans (List.map_id _)
    by_cases hc : e.cls = c
    · have hed : r.class? c = some e := hc ▸ hr.class?_eq he
      rw [if_pos hc, Option.some.inj (hed.symm.trans hd), hf]
      rfl
    · exact if_neg hc
  rw [Registry.update, hsame]

theorem withGroup_cls (d : ClassDescriptor Upcast) (key : GroupKey) : (d.withGroup key).cls = d.cls := by
  unfold ClassDescriptor.withGroup
  split <;> rfl

theorem group?_withGroup (d : ClassDescriptor Upcast) (key : GroupKey) :
    (d.withGroup key).group? key = some ((d.group? key).getD (.empty key.name (.cls d.cls))) := by
  unfold ClassDescriptor.withGroup
  cases hg : d.group? key with
  | some g => exact hg
  | none =>
    have hnone : d.members.find? (·.key = key) = none := Option.map_eq_none_iff.1 hg
    simp [ClassDescriptor.group?, List.find?_append, hnone]

theorem declareMember_inPlace (hr : r.WellFormed) (c : Class) (key : GroupKey) (flags : TypeFlags) (shape : CallShape)
    (hash : NameHash) (code : Code) : InPlace.declareMember c key flags shape hash code r =
      settle r id (r.declareMember c key flags shape hash code) := by
  refine InPlace.ask_bind fun _ _ => InPlace.ask_bind fun d hd => InPlace.ask_bind fun _ _ => ?_
  have hc := (declared_ok hd).1
  obtain ⟨-, rfl⟩ := class?_mem hc
  rw [InPlace.modify_bind]
  refine registerEntry_made r (r.update d.cls (·.withGroup key))
    (fun group r => r.update d.cls fun d => (d.withGroup key).setGroup key group) ⟨rfl, rfl⟩ ?_
    (fun types signatures => ?_) (fun g types signatures _ => ?_) shape _
  · cases hg : d.group? key with
    | none => exact .inr ⟨_, _, rfl⟩
    | some g => exact .inl (hr.update_self hc (if_pos (by rw [hg]; rfl)))
  · change (((r.update d.cls (·.withGroup key)).class? d.cls).bind (·.group? key)).getD _ = _
    rw [class?_update _ _ (withGroup_cls · key), hc, Option.map_some, if_pos rfl, Option.bind_some, group?_withGroup]
    rfl
  · exact update_update (r := { r with types, signatures }) _ _ _ (withGroup_cls · key)

theorem functionGroup?_withFunctionGroup (r : Registry Upcast Code) (name : String) :
    (InPlace.withFunctionGroup r name).functionGroup? name =
      some ((r.functionGroup? name).getD (.empty name .global)) := by
  unfold InPlace.withFunctionGroup
  cases hg : r.functionGroup? name with
  | some g => exact hg
  | none =>
    unfold functionGroup? at hg ⊢
    simp [List.find?_append, hg, OverloadGroup.empty]

/-- Whether a group is put where it was made or appended comes to the same. -/
theorem setFunctionGroup_withFunctionGroup (r : Registry Upcast Code) (group : OverloadGroup) :
    (InPlace.withFunctionGroup r group.name).setFunctionGroup group = r.setFunctionGroup group := by
  have hsome : ((InPlace.withFunctionGroup r group.name).functionGroup? group.name).isSome := by
    rw [functionGroup?_withFunctionGroup]
    rfl
  rw [setFunctionGroup, if_pos hsome, setFunctionGroup]
  unfold InPlace.withFunctionGroup
  by_cases hold : (r.functionGroup? group.name).isSome
  · rw [if_pos hold, if_pos hold]
  · rw [if_neg hold, if_neg hold]
    have hnone : group.name ∉ r.functions.map (·.name) := fun hmem => by
      obtain ⟨g, hg, hname⟩ := List.mem_map.1 hmem
      exact hold (List.find?_isSome.2 ⟨g, hg, decide_eq_true hname⟩)
    simp only [List.map_append, map_update_of_not_mem hnone]
    simp [OverloadGroup.empty]

theorem declareFunction_inPlace (name : String) (flags : TypeFlags) (shape : CallShape) (hash : NameHash) (code : Code) :
    InPlace.declareFunction name flags shape hash code r =
      settle r id (r.declareFunction name flags shape hash code) := by
  refine InPlace.ask_bind fun _ _ => InPlace.ask_bind fun _ _ => ?_
  rw [InPlace.modify_bind]
  refine registerEntry_made r (InPlace.withFunctionGroup r name) (fun group r => r.setFunctionGroup group) ?_ ?_ (fun types signatures => ?_)
    (fun g types signatures hg => ?_) shape _
  · unfold InPlace.withFunctionGroup
    split <;> exact ⟨rfl, rfl⟩
  · cases hg : r.functionGroup? name with
    | none => exact .inr ⟨_, _, rfl⟩
    | some g => exact .inl (if_pos (by rw [hg]; rfl))
  · change ((InPlace.withFunctionGroup r name).functionGroup? name).getD _ = _
    rw [functionGroup?_withFunctionGroup]
    rfl
  · have hname : g.name = name := by
      rw [hg]
      cases hf : r.functionGroup? name with
      | none => rfl
      | some f => exact (functionGroup?_eq_some hf).2
    subst hname
    have hmade : { InPlace.withFunctionGroup r g.name with types, signatures } =
        InPlace.withFunctionGroup { r with types, signatures } g.name := by
      unfold InPlace.withFunctionGroup
      change (_ : Registry Upcast Code) = if (r.functionGroup? g.name).isSome then _ else _
      split <;> rfl
    rw [hmade, setFunctionGroup_withFunctionGroup]

/-! ## Operations -/

/-- Do an operation in place. -/
def Operation.make : Operation Upcast Code → InPlace Upcast Code Unit
  | .cls info => .declareClass info
  | .super derived base upcast => .declareSuper derived base upcast
  | .valueType c => .declareValueType c
  | .entry (.constructors c) flags shape id code => discard (.declareConstructor c flags shape id code)
  | .entry (.member c key) flags shape id code => discard (.declareMember c key flags shape id code)
  | .entry (.function name) flags shape id code => discard (.declareFunction name flags shape id code)
  | .finalize => .finalize

/-- Attempt to build the registry after an operation. -/
def attempt (r : Registry Upcast Code) : Operation Upcast Code → Except RegistrationError (Registry Upcast Code)
  | .cls info => r.declareClass info
  | .super derived base upcast => r.declareSuper derived base upcast
  | .valueType c => r.declareValueType c
  | .entry h flags shape id code => (r.declareEntry h flags shape id code).map (·.2)
  | .finalize => r.finalize

theorem discard_settle {m : InPlace Upcast Code α} {x : Except RegistrationError (α × Registry Upcast Code)}
    (h : m r = settle r id x) : discard m r = settle r ((), ·) (x.map (·.2)) := by
  change EStateM.map _ m r = _
  unfold EStateM.map
  rw [h]
  cases x <;> rfl

/-- **In place an operation is done as a whole or not at all.** -/
theorem Operation.make_eq (hr : r.WellFormed) (op : Operation Upcast Code) :
    op.make r = settle r ((), ·) (r.attempt op) := by
  cases op with
  | cls info => exact declareClass_inPlace info
  | super derived base upcast => exact declareSuper_inPlace derived base upcast
  | valueType c => exact declareValueType_inPlace c
  | entry h flags shape id code =>
    cases h with
    | constructors c => exact discard_settle (declareConstructor_inPlace c flags shape id code)
    | member c key => exact discard_settle (declareMember_inPlace hr c key flags shape id code)
    | function name => exact discard_settle (declareFunction_inPlace name flags shape id code)
  | finalize => exact finalize_inPlace

/-- The registry that an operation leaves, whether or not it succeeds. -/
def leftBy (r : Registry Upcast Code) (m : InPlace Upcast Code α) : Registry Upcast Code :=
  match m r with
  | .ok _ r' => r'
  | .error _ r' => r'

theorem step_eq (r : Registry Upcast Code) (op : Operation Upcast Code) :
    (r.step op).1 = (r.attempt op).toOption.getD r := by
  cases op with
  | entry h flags shape id code =>
    simp only [step, attempt]
    cases r.declareEntry h flags shape id code <;> rfl
  | _ => rfl

theorem leftBy_make (hr : r.WellFormed) (op : Operation Upcast Code) : r.leftBy op.make = (r.step op).1 := by
  rw [leftBy, op.make_eq hr, step_eq]
  cases r.attempt op <;> rfl

/-- The registry that some operations leave. -/
def leftByAll (r : Registry Upcast Code) (ops : List (Operation Upcast Code)) : Registry Upcast Code :=
  ops.foldl (fun r op => r.leftBy op.make) r

theorem leftByAll_eq (ops : List (Operation Upcast Code)) : ∀ {r : Registry Upcast Code}
    {filings : List (Filing Code)}, r.Intact filings → r.leftByAll ops = (r.run ops).1 := by
  induction ops with
  | nil => exact fun _ => rfl
  | cons op ops ih =>
    intro r filings hr
    rw [leftByAll, List.foldl_cons, leftBy_make hr.wellFormed, run]
    exact ih (hr.step op)

/-! ## Closed registries -/

theorem attempt_closed (hr : r.isClosed = true) (op : Operation Upcast Code) :
    r.attempt op = .error .alreadyInitialized := by
  have hopen : r.ensureOpen = .error .alreadyInitialized := if_pos hr
  cases op with
  | cls info =>
    rw [attempt, declareClass, hopen]
    rfl
  | super derived base upcast =>
    rw [attempt, declareSuper, hopen]
    rfl
  | valueType c =>
    rw [attempt, declareValueType, hopen]
    rfl
  | entry h flags shape id code =>
    cases h with
    | constructors c =>
      rw [attempt, declareEntry, declareConstructor, hopen]
      rfl
    | member c key =>
      rw [attempt, declareEntry, declareMember, hopen]
      rfl
    | function name =>
      rw [attempt, declareEntry, declareFunction, hopen]
      rfl
  | finalize =>
    rw [attempt, finalize, hopen]
    rfl

theorem closed_of_finalize {r' : Registry Upcast Code} (h : r.finalize = .ok r') : r'.isClosed = true := by
  obtain ⟨-, -, h⟩ := NativeBridge.bind_ok h
  obtain ⟨x, -, h⟩ := NativeBridge.bind_ok h
  cases h
  rfl

/-- **A refused declaration leaves no trace**, whatever was asked of the registry before. Once the declarations are
closed everything is refused, and the registry stays as it is. -/
theorem refused_leaves_no_trace (maxArity : Nat) (ops : List (Operation Upcast Code)) :
    let r : Registry Upcast Code := (empty maxArity).leftByAll ops
    (∀ (op : Operation Upcast Code) e r', op.make r = .error e r' → r' = r) ∧
    (∀ r', Operation.finalize.make r = .ok () r' → ∀ (later : List (Operation Upcast Code)) (op : Operation Upcast Code),
      r'.leftByAll later = r' ∧ op.make r' = .error .alreadyInitialized r') := by
  intro r
  have hintact : r.Intact ((empty maxArity).run ops).2 := by
    rw [show r = _ from leftByAll_eq ops (intact_empty maxArity)]
    exact run_intact maxArity ops
  refine ⟨fun op e r' h => ?_, fun r' h => ?_⟩
  · rw [op.make_eq hintact.wellFormed] at h
    cases hop : r.attempt op with
    | error e' =>
      rw [hop] at h
      cases h
      rfl
    | ok built =>
      rw [hop] at h
      cases h
  · rw [Operation.make_eq hintact.wellFormed] at h
    cases hop : r.attempt .finalize with
    | error e =>
      rw [hop] at h
      cases h
    | ok built =>
      rw [hop] at h
      cases h
      have hbuilt : built.Intact _ := hintact.finalize hop
      have hrefused (op : Operation Upcast Code) : op.make built = .error .alreadyInitialized built := by
        rw [op.make_eq hbuilt.wellFormed, attempt_closed (closed_of_finalize hop)]
        rfl
      intro later op
      refine ⟨?_, hrefused op⟩
      induction later with
      | nil => rfl
      | cons op later ih =>
        rw [leftByAll, List.foldl_cons, leftBy, hrefused op]
        exact ih

end NativeBridge.Registry
