import NativeBridge.Proofs.Engine.Dispatch
import NativeBridge.Proofs.Engine.Filings
import NativeBridge.Registry.Slots
import NativeBridge.Session.Groups
/-!
# Overload groups are written once

An overload group in slots is a finite map from arities to entries that no request changes where it is defined. What
is added to a group that is open and has no such overload goes to a slot of its own (`insert_eq`), so the slots in use
are always the overloads that were added (`Logged`), and everything that is read off the slots follows from that
(`write_once`). A group without its empty slots is the group that calls are resolved with (`insertOverload_toGroup`).
-/
namespace NativeBridge

theorem nodup_of_ascending {α : Type} {l : List (Nat × α)} (hl : l.Pairwise (·.1 < ·.1)) : l.Nodup := by
  refine hl.imp ?_
  rintro p q hlt rfl
  exact lt_irrefl _ hlt

namespace SlotGroup
variable {g : SlotGroup} {n m : Nat} {e e' : EntryRef}

/-! ## Reading the slots -/

/-- The entry in a slot. -/
def slot? (g : SlotGroup) (n : Nat) : Option EntryRef :=
  g.slots[n]?.join

theorem slot?_eq_some : g.slot? n = some e ↔ g.slots[n]? = some (some e) :=
  Option.join_eq_some_iff

theorem mem_entries : (n, e) ∈ g.entries ↔ g.slot? n = some e := by
  rw [slot?_eq_some, entries, List.mem_filterMap]
  constructor
  · rintro ⟨⟨slot, m⟩, hmem, hslot⟩
    obtain ⟨e', rfl, heq⟩ := Option.map_eq_some_iff.1 hslot
    cases heq
    exact List.mk_mem_zipIdx_iff_getElem?.1 hmem
  · intro h
    exact ⟨(some e, n), List.mk_mem_zipIdx_iff_getElem?.2 h, rfl⟩

theorem ascending_entries (g : SlotGroup) : g.entries.Pairwise (·.1 < ·.1) := by
  rw [entries, List.pairwise_filterMap]
  have hpos : g.slots.zipIdx.Pairwise (·.2 < ·.2) := by
    rw [← List.pairwise_map (f := Prod.snd) (R := (· < ·)), List.zipIdx_map_snd]
    exact List.pairwise_lt_range' 1
  refine hpos.imp ?_
  rintro ⟨s, i⟩ ⟨t, j⟩ hij p hp q hq
  obtain ⟨-, -, rfl⟩ := Option.map_eq_some_iff.1 hp
  obtain ⟨-, -, rfl⟩ := Option.map_eq_some_iff.1 hq
  exact hij

theorem size_eq (g : SlotGroup) : g.size = g.entries.length := by
  rw [entries, List.length_filterMap_eq_countP, size]
  conv_lhs => rw [← List.zipIdx_map_fst 0 g.slots, List.countP_map]
  congr 1
  funext ⟨s, i⟩
  cases s <;> rfl

theorem resolve_eq (g : SlotGroup) (n : Nat) :
    g.resolve n = match g.slot? n with | some e => .ok e | none => .error (.arityMismatch g.name n) := rfl

theorem maxArity?_eq_some : g.maxArity? = some n ↔ (∃ e, g.slot? n = some e) ∧ ∀ m e, g.slot? m = some e → m ≤ n := by
  simp only [maxArity?, Option.map_eq_some_iff, List.findIdx?_eq_some_iff_getElem, List.length_reverse,
    List.getElem_reverse, slot?_eq_some, Bool.not_eq_true]
  -- The slots are searched from the last on, so what is found at `i` is the slot of `length - 1 - i`.
  constructor
  · rintro ⟨i, ⟨hi, hused, hlater⟩, rfl⟩
    obtain ⟨e, he⟩ := Option.isSome_iff_exists.1 hused
    refine ⟨⟨e, List.getElem?_eq_some_iff.2 ⟨by omega, he⟩⟩, fun m e' hm => ?_⟩
    obtain ⟨hlt, hm⟩ := List.getElem?_eq_some_iff.1 hm
    by_contra hmore
    have hempty := hlater (g.slots.length - 1 - m) (by omega)
    simp only [show g.slots.length - 1 - (g.slots.length - 1 - m) = m by omega, hm] at hempty
    cases hempty
  · rintro ⟨⟨e, he⟩, hmax⟩
    obtain ⟨hlt, he⟩ := List.getElem?_eq_some_iff.1 he
    refine ⟨g.slots.length - 1 - n, ⟨by omega, ?_, fun j hj => ?_⟩, by omega⟩
    · simp only [show g.slots.length - 1 - (g.slots.length - 1 - n) = n by omega, he, Option.isSome_some]
    · by_contra hused
      obtain ⟨e', he'⟩ := Option.isSome_iff_exists.1 (Bool.not_eq_false _ ▸ hused)
      have := hmax _ e' (List.getElem?_eq_some_iff.2 ⟨_, he'⟩)
      omega

/-! ## Storing an overload -/

/-- The group with an entry in the slot of its arity. -/
def put (g : SlotGroup) (n : Nat) (e : EntryRef) : SlotGroup :=
  { g with slots := (g.slots ++ .replicate (n + 1 - g.slots.length) none).set n (some e) }

/-- What keeps an overload from being stored. -/
def obstacle? (g : SlotGroup) (n : Nat) : Option StoreFailure :=
  if g.frozen then some (.refused .alreadyInitialized)
  else if (g.slot? n).isSome then some (.refused (.duplicateArity g.name n))
  else if n < g.slots.length ∨ 12 * (n + 1) < 0x8000000000000000 then none
  else if n + 1 < 0x10000000000000000 then some (.panicked (.text "capacity overflow"))
  else some (.panicked (.text "attempt to add with overflow"))

theorem slot?_put (g : SlotGroup) (n m : Nat) (e : EntryRef) :
    (g.put n e).slot? m = if m = n then some e else g.slot? m := by
  unfold put slot?
  dsimp only
  by_cases hmn : m = n
  · subst hmn
    rw [if_pos rfl, List.getElem?_set_self (by simp; omega)]
    rfl
  · rw [if_neg hmn, List.getElem?_set_ne (Ne.symm hmn)]
    by_cases hlt : m < g.slots.length
    · rw [List.getElem?_append_left hlt]
    · rw [List.getElem?_append_right (by omega), List.getElem?_eq_none (by omega : g.slots.length ≤ m),
        List.getElem?_replicate]
      split <;> rfl

theorem fill_empty (h : g.slots[n]? = some none) (e : EntryRef) :
    fill n e g = .ok () { g with slots := g.slots.set n (some e) } := by
  simp only [fill, bind, EStateM.bind, get, getThe, MonadStateOf.get, EStateM.get, h]
  rfl

theorem fill_used (h : g.slots[n]? = some (some e')) (e : EntryRef) :
    fill n e g = .error (.refused (.duplicateArity g.name n)) g := by
  simp only [fill, bind, EStateM.bind, get, getThe, MonadStateOf.get, EStateM.get, h]
  rfl

theorem grow_eq (g : SlotGroup) (n : Nat) : (countTo n >>= grow) g =
    if 12 * (n + 1) < 0x8000000000000000 then
      .ok () { g with slots := g.slots ++ .replicate (n + 1 - g.slots.length) none }
    else if n + 1 < 0x10000000000000000 then .error (.panicked (.text "capacity overflow")) g
    else .error (.panicked (.text "attempt to add with overflow")) g := by
  change EStateM.bind (countTo n) grow g = _
  unfold EStateM.bind countTo
  by_cases hword : n + 1 < 0x10000000000000000
  · rw [if_pos hword, if_pos hword]
    change (if _ then _ else _ : Change Unit) g = _
    split <;> rfl
  · rw [if_neg hword, if_neg hword, if_neg (by omega)]
    rfl

/-- **An overload is stored in its slot or nothing is changed.** -/
theorem insert_eq (g : SlotGroup) (n : Nat) (e : EntryRef) :
    insert n e g = match g.obstacle? n with | none => .ok () (g.put n e) | some f => .error f g := by
  unfold obstacle?
  by_cases hfrozen : g.frozen = true
  · rw [if_pos hfrozen]
    change (if g.frozen = true then _ else _ : Change Unit) g = _
    rw [if_pos hfrozen]
    rfl
  rw [if_neg hfrozen]
  change (if g.frozen = true then _ else _ : Change Unit) g = _
  rw [if_neg hfrozen]
  change (if g.slots.length ≤ n then _ else _ : Change Unit) g = _
  by_cases hshort : g.slots.length ≤ n
  · -- The slot is not there yet, so it is made empty and the only question is whether there is room for it.
    have hnone : g.slot? n = none := by rw [slot?, List.getElem?_eq_none hshort, Option.join_none]
    rw [if_pos hshort, hnone, if_neg (by simp)]
    change (countTo n >>= fun count => grow count >>= fun _ => fill n e) g = _
    rw [← bind_assoc]
    change EStateM.bind (countTo n >>= grow) (fun _ => fill n e) g = _
    unfold EStateM.bind
    rw [grow_eq]
    by_cases hroom : 12 * (n + 1) < 0x8000000000000000
    · rw [if_pos hroom, if_pos (.inr hroom)]
      refine fill_empty ?_ e
      rw [List.getElem?_append_right hshort, List.getElem?_replicate, if_pos (by omega)]
    · have hfull : ¬ (n < g.slots.length ∨ 12 * (n + 1) < 0x8000000000000000) := by omega
      rw [if_neg hroom, if_neg hfull]
      by_cases hword : n + 1 < 0x10000000000000000
      · rw [if_pos hword, if_pos hword]
      · rw [if_neg hword, if_neg hword]
  · rw [if_neg hshort]
    have hlt : n < g.slots.length := Nat.lt_of_not_le hshort
    rw [if_pos (Or.inl hlt)]
    change fill n e g = _
    cases hslot : g.slots[n] with
    | none =>
      have hempty : g.slots[n]? = some none := by rw [List.getElem?_eq_getElem hlt, hslot]
      rw [fill_empty hempty, slot?, hempty]
      unfold put
      rw [Nat.sub_eq_zero_of_le hlt, List.replicate_zero, List.append_nil]
      rfl
    | some e' =>
      have hused : g.slots[n]? = some (some e') := by rw [List.getElem?_eq_getElem hlt, hslot]
      rw [fill_used hused, slot?, hused]
      rfl

/-! ## What the slots hold -/

/-- The slots in use are the overloads that were added. -/
structure Logged (g : SlotGroup) (log : List (Nat × EntryRef)) : Prop where
  slots : ∀ n e, g.slot? n = some e ↔ (n, e) ∈ log
  once : (log.map (·.1)).Nodup
  room : 12 * g.slots.length < 0x8000000000000000

variable {log : List (Nat × EntryRef)}

theorem logged_empty (name : String) (scope : GroupScope) : (empty name scope).Logged [] :=
  ⟨fun _ _ => ⟨fun h => (by cases h), fun h => (by cases h)⟩, List.nodup_nil, Nat.two_pow_pos 63⟩

namespace Logged
variable (hg : g.Logged log)
include hg

theorem slot?_eq_none : g.slot? n = none ↔ ∀ e, (n, e) ∉ log := by
  rw [Option.eq_none_iff_forall_ne_some]
  exact forall_congr' fun e => not_congr (hg.slots n e)

theorem obstacle?_eq_none :
    g.obstacle? n = none ↔ g.frozen = false ∧ (∀ e, (n, e) ∉ log) ∧ 12 * (n + 1) < 0x8000000000000000 := by
  rw [← hg.slot?_eq_none]
  have := hg.room
  unfold obstacle?
  cases g.frozen with
  | true => simp
  | false =>
    cases g.slot? n with
    | some e => simp
    | none =>
      simp only [Bool.false_eq_true, if_false, Option.isSome_none, true_and]
      split
      · simp only [true_iff]
        omega
      · split <;> simp <;> omega

/-- An overload that was stored is in the log from then on. -/
theorem put (h : g.obstacle? n = none) (e : EntryRef) : (g.put n e).Logged (log ++ [(n, e)]) := by
  obtain ⟨-, hnew, hroom⟩ := hg.obstacle?_eq_none.1 h
  refine ⟨fun m e' => ?_, nodup_map_concat hg.once ?_, ?_⟩
  · rw [slot?_put, List.mem_append, List.mem_singleton, Prod.mk.injEq]
    split
    · rename_i hmn
      subst hmn
      rw [Option.some_inj]
      refine ⟨fun h => .inr ⟨rfl, h.symm⟩, fun h => ?_⟩
      rcases h with h | h
      · exact absurd h (hnew e')
      · exact h.2.symm
    · rename_i hmn
      rw [hg.slots]
      exact ⟨.inl, fun h => h.resolve_right fun heq => hmn heq.1⟩
  · intro hmem
    obtain ⟨⟨m, e'⟩, hlog, heq⟩ := List.mem_map.1 hmem
    obtain rfl : m = n := heq
    exact hnew e' hlog
  · have := hg.room
    simp only [SlotGroup.put, List.length_set, List.length_append, List.length_replicate]
    omega

/-- **What one request does**: what it adds is logged, and nothing else. -/
theorem leaves (q : Request) : (q.leaves g).Logged (log ++ q.stored g) := by
  cases q with
  | freeze =>
    rw [show Request.stored g .freeze = [] from rfl, List.append_nil]
    exact ⟨hg.slots, hg.once, hg.room⟩
  | insert n e =>
    unfold Request.leaves Request.stored Request.make
    dsimp only
    rw [insert_eq]
    cases hobs : g.obstacle? n with
    | none => exact hg.put hobs e
    | some f =>
      rw [List.append_nil]
      exact hg

theorem run (qs : List Request) : (SlotGroup.run g qs).1.Logged (log ++ (SlotGroup.run g qs).2) := by
  induction qs generalizing g log with
  | nil =>
    rw [SlotGroup.run, List.append_nil]
    exact hg
  | cons q qs ih =>
    rw [SlotGroup.run, ← List.append_assoc]
    exact ih (hg.leaves q)

/-! ## What is read off the slots -/

theorem resolve_eq_ok : g.resolve n = .ok e ↔ (n, e) ∈ log := by
  rw [← hg.slots, resolve_eq]
  cases g.slot? n with
  | none => simp
  | some e' => simp

theorem entries_perm : g.entries.Perm log := by
  refine (List.perm_ext_iff_of_nodup (nodup_of_ascending g.ascending_entries) hg.once.of_map).2 fun ⟨n, e⟩ => ?_
  rw [mem_entries, hg.slots]

theorem size_eq : g.size = log.length := by
  rw [SlotGroup.size_eq, hg.entries_perm.length_eq]

theorem maxArity?_eq : g.maxArity? = (log.map (·.1)).max? := by
  refine Option.ext fun n => ?_
  rw [maxArity?_eq_some, List.max?_eq_some_iff, List.mem_map]
  simp only [hg.slots]
  constructor
  · rintro ⟨⟨e, he⟩, hmax⟩
    refine ⟨⟨_, he, rfl⟩, fun m hm => ?_⟩
    obtain ⟨⟨m, e'⟩, hmem, rfl⟩ := List.mem_map.1 hm
    exact hmax m e' hmem
  · rintro ⟨⟨⟨n, e⟩, hmem, rfl⟩, hmax⟩
    exact ⟨⟨e, hmem⟩, fun m e' hm => hmax m (List.mem_map_of_mem (f := Prod.fst) hm)⟩

theorem isSingle_iff : g.isSingle = true ↔ ∃ p, log = [p] := by
  rw [isSingle, beq_iff_eq, hg.size_eq, List.length_eq_one_iff]

end Logged

/-! ## The group that calls are resolved with -/

theorem toGroup_overload? (g : SlotGroup) (n : Nat) : g.toGroup.overload? n = g.slot? n := by
  refine Option.ext fun e => ?_
  rw [← mem_entries]
  exact lookup_of_ascending g.ascending_entries

theorem toGroup_resolve (g : SlotGroup) (n : Nat) : g.toGroup.resolve n = g.resolve n := by
  rw [OverloadGroup.resolve, toGroup_overload?]
  rfl

theorem toGroup_isSingle (g : SlotGroup) : g.toGroup.isSingle = g.isSingle := by
  rw [isSingle, size_eq]
  rfl

theorem entries_put (h : g.slot? n = none) (e : EntryRef) :
    (g.put n e).entries = OverloadGroup.insertAt n e g.entries := by
  have hnone : g.entries.lookup n = none := (toGroup_overload? g n).trans h
  have hasc : (OverloadGroup.insertAt n e g.entries).Pairwise (·.1 < ·.1) :=
    OverloadGroup.ascending_insertAt g.ascending_entries hnone
  -- Both lists ascend, so it is enough that they have the same overloads.
  refine List.Perm.eq_of_pairwise (fun a b _ _ hab hba => absurd hab (Nat.lt_asymm hba)) (ascending_entries _) hasc ?_
  refine (List.perm_ext_iff_of_nodup (nodup_of_ascending (ascending_entries _)) (nodup_of_ascending hasc)).2 ?_
  rintro ⟨m, e'⟩
  rw [mem_entries, slot?_put, (OverloadGroup.insertAt_perm n e g.entries).mem_iff, List.mem_cons, mem_entries,
    Prod.mk.injEq]
  split
  · rename_i hmn
    subst hmn
    rw [h]
    simp [eq_comm]
  · rename_i hmn
    simp [hmn]

/-- What the session makes of an overload, by what keeps it from its slot. -/
theorem toGroup_insert (hg : g.Logged log) (n : Nat) (e : EntryRef) :
    match g.obstacle? n with
    | none => Session.overfull? g.toGroup n = none ∧ g.toGroup.insert n e = .ok (g.put n e).toGroup
    | some (.refused x) => Session.overfull? g.toGroup n = none ∧ g.toGroup.insert n e = .error x
    | some (.panicked p) => Session.overfull? g.toGroup n = some p := by
  have hroom := hg.room
  by_cases hfrozen : g.frozen = true
  · have hover : Session.overfull? g.toGroup n = none := by
      simp [Session.overfull?, toGroup, hfrozen]
    rw [obstacle?, if_pos hfrozen]
    refine ⟨hover, ?_⟩
    rw [OverloadGroup.insert, if_pos (show g.toGroup.frozen = true from hfrozen)]
  have hopen : ¬ g.toGroup.frozen = true := hfrozen
  have hover : Session.overfull? g.toGroup n =
      if 12 * (n + 1) < 0x8000000000000000 then none
      else if n + 1 < 0x10000000000000000 then some (.text "capacity overflow")
      else some (.text "attempt to add with overflow") := by
    simp [Session.overfull?, hopen]
  rw [obstacle?, if_neg hfrozen, OverloadGroup.insert, if_neg hopen, toGroup_overload?, hover]
  cases hslot : g.slot? n with
  | some e' =>
    have hlt := (List.getElem?_eq_some_iff.1 (slot?_eq_some.1 hslot)).1
    exact ⟨if_pos (by omega), rfl⟩
  | none =>
    simp only [Option.isSome_none, Bool.false_eq_true, if_false]
    by_cases hfits : 12 * (n + 1) < 0x8000000000000000
    · rw [if_pos (.inr hfits), if_pos hfits]
      refine ⟨rfl, congrArg Except.ok ?_⟩
      change _ = (⟨g.name, g.scope, (g.put n e).entries, g.frozen⟩ : OverloadGroup)
      rw [entries_put hslot]
      rfl
    · rw [if_neg (by omega), if_neg hfits]
      by_cases hword : n + 1 < 0x10000000000000000
      · rw [if_pos hword]
        exact if_pos hword
      · rw [if_neg hword]
        exact if_neg hword

/-- **A session stores an overload as the slots do**, and answers with what becomes of it. -/
theorem insertOverload_toGroup (hg : g.Logged log) (d : Doc) (told : OverloadGroup → Doc) :
    Session.insertOverload d told g.toGroup =
      match insert (d.countAt "arity") (Session.entryRefOf d) g with
      | .ok _ g' => (.success (told g'.toGroup), g'.toGroup)
      | .error (.refused x) g' => (x.report, g'.toGroup)
      | .error (.panicked p) g' => (p.report, g'.toGroup) := by
  have hmade := toGroup_insert hg (d.countAt "arity") (Session.entryRefOf d)
  unfold Session.insertOverload
  rw [insert_eq]
  cases hobs : g.obstacle? (d.countAt "arity") with
  | none =>
    rw [hobs] at hmade
    dsimp only
    rw [hmade.1, hmade.2]
  | some f =>
    rw [hobs] at hmade
    cases f with
    | refused x =>
      dsimp only
      rw [hmade.1, hmade.2]
    | panicked p =>
      dsimp only
      rw [hmade]

/-! ## Sent unchecked -/

/-- Unless its group has exactly one overload, a call whose arguments the signature refuses ends there. -/
theorem dispatch_checked {Ω : Type} [ObjectModel Ω] {env : Environment Ω} {services : Nat → Services Ω}
    {group : OverloadGroup} {b : Boundary Ω} {ref : EntryRef} {s : Signature (Code Ω)} {entry : SignatureEntry (Code Ω)}
    {x : CallError} (href : group.resolve b.call.args.length = .ok ref)
    (hentry : env.registry.entry ref = .ok (s, entry)) (hcheck : s.checkArgs b.call.args = .error x)
    (hmany : group.isSingle = false) :
    env.dispatch services group b = .error (.error x) b := by
  refine Environment.dispatch_refused ?_
  unfold Environment.select
  rw [href]
  change (env.registry.entry ref >>= _) = _
  rw [hentry]
  change (if _ then _ else _ : Except CallError _) = _
  rw [if_pos (by rw [hmany]; simp), hcheck]
  rfl

/-! ## Write-once -/

/-- A group is the finite map of the overloads that were added to it, and takes more while it is open. -/
structure IsMap (g : SlotGroup) (name : String) (log : List (Nat × EntryRef)) (closed : Prop) : Prop where
  resolves : ∀ n e, g.resolve n = .ok e ↔ (n, e) ∈ log
  mismatches : ∀ n, (∀ e, (n, e) ∉ log) → g.resolve n = .error (.arityMismatch name n)
  /-- An overload is stored just where there is none and a vector of twelve bytes a slot can have its slot. -/
  stores : ∀ n e, (∃ g', insert n e g = .ok () g') ↔
    ¬ closed ∧ (∀ e', (n, e') ∉ log) ∧ 12 * (n + 1) < 0x8000000000000000
  /-- What is not stored changes nothing, not even the number of slots. -/
  unchanged : ∀ n e f g', insert n e g = .error f g' → g' = g
  refuses : ∀ n e, closed → insert n e g = .error (.refused .alreadyInitialized) g
  keeps : ∀ n e e', ¬ closed → (n, e') ∈ log → insert n e g = .error (.refused (.duplicateArity name n)) g
  overflows : ∀ n e, ¬ closed → (∀ e', (n, e') ∉ log) → 0x8000000000000000 ≤ 12 * (n + 1) →
    n + 1 < 0x10000000000000000 → insert n e g = .error (.panicked (.text "capacity overflow")) g
  listed : g.entries.Perm log
  ascending : g.entries.Pairwise (·.1 < ·.1)
  size : g.size = log.length
  maxArity : g.maxArity? = (log.map (·.1)).max?
  single : g.isSingle = true ↔ ∃ p, log = [p]
  /-- Without its empty slots it is the group that calls are resolved with. -/
  resolvedWith : ∀ n, g.toGroup.resolve n = g.resolve n
  /-- And to that group a session adds the same overloads, with the same failures. -/
  addedTo : ∀ (d : Doc) (told : OverloadGroup → Doc), Session.insertOverload d told g.toGroup =
    match insert (d.countAt "arity") (Session.entryRefOf d) g with
    | .ok _ g' => (.success (told g'.toGroup), g'.toGroup)
    | .error (.refused x) g' => (x.report, g'.toGroup)
    | .error (.panicked p) g' => (p.report, g'.toGroup)
  /-- Unless there is exactly one overload, a call whose arguments the signature refuses ends there. -/
  checked : ∀ (Ω : Type) [ObjectModel Ω] (env : Environment Ω) (services : Nat → Services Ω) (b : Boundary Ω)
    (ref : EntryRef) (s : Signature (Code Ω)) (entry : SignatureEntry (Code Ω)) (x : CallError),
    g.resolve b.call.args.length = .ok ref → env.registry.entry ref = .ok (s, entry) →
    s.checkArgs b.call.args = .error x → (∀ p, log ≠ [p]) →
    env.dispatch services g.toGroup b = .error (.error x) b

theorem Logged.isMap (hg : g.Logged log) : g.IsMap g.name log (g.frozen = true) where
  resolves n e := hg.resolve_eq_ok
  mismatches n h := by rw [resolve_eq, hg.slot?_eq_none.2 h]
  stores n e := by
    rw [Bool.not_eq_true, ← hg.obstacle?_eq_none, insert_eq]
    cases g.obstacle? n with
    | none => simp
    | some f => simp
  unchanged n e f g' h := by
    rw [insert_eq] at h
    cases hobs : g.obstacle? n with
    | none =>
      rw [hobs] at h
      cases h
    | some f' =>
      rw [hobs] at h
      cases h
      rfl
  refuses n e hfrozen := by
    rw [insert_eq, obstacle?, if_pos hfrozen]
  keeps n e e' hopen hmem := by
    rw [insert_eq, obstacle?, if_neg hopen, (hg.slots n e').2 hmem]
    rfl
  overflows n e hopen hnew hfull hword := by
    have := hg.room
    rw [insert_eq, obstacle?, if_neg hopen, hg.slot?_eq_none.2 hnew, if_neg (by simp), if_neg (by omega), if_pos hword]
  listed := hg.entries_perm
  ascending := g.ascending_entries
  size := hg.size_eq
  maxArity := hg.maxArity?_eq
  single := hg.isSingle_iff
  resolvedWith := g.toGroup_resolve
  addedTo := insertOverload_toGroup hg
  checked Ω _ env services b ref s entry x href hentry hcheck hmany := by
    refine dispatch_checked ((toGroup_resolve g _).trans href) hentry hcheck ?_
    rw [toGroup_isSingle, Bool.eq_false_iff, Ne, hg.isSingle_iff]
    exact fun ⟨p, hp⟩ => hmany p hp

theorem leaves_keeps (g : SlotGroup) (q : Request) :
    (q.leaves g).name = g.name ∧ ((q.leaves g).frozen = true ↔ g.frozen = true ∨ q = .freeze) := by
  cases q with
  | freeze => exact ⟨rfl, fun _ => .inr rfl, fun _ => rfl⟩
  | insert n e =>
    unfold Request.leaves Request.make
    dsimp only
    rw [insert_eq]
    cases g.obstacle? n with
    | none => simp [put]
    | some f => simp

theorem run_keeps (g : SlotGroup) (qs : List Request) :
    (run g qs).1.name = g.name ∧ ((run g qs).1.frozen = true ↔ g.frozen = true ∨ .freeze ∈ qs) := by
  induction qs generalizing g with
  | nil => simp [run]
  | cons q qs ih =>
    obtain ⟨hname, hfrozen⟩ := leaves_keeps g q
    obtain ⟨ihname, ihfrozen⟩ := ih (q.leaves g)
    rw [run]
    refine ⟨ihname.trans hname, ?_⟩
    rw [ihfrozen, hfrozen, List.mem_cons, or_assoc, @eq_comm _ q]

/-- **A group is written once**: after any requests it is the finite map of the overloads whose adding succeeded. -/
theorem write_once (name : String) (scope : GroupScope) (qs : List Request) :
    (run (empty name scope) qs).1.IsMap name (run (empty name scope) qs).2 (.freeze ∈ qs) := by
  have hmap := ((logged_empty name scope).run qs).isMap
  obtain ⟨hname, hfrozen⟩ := run_keeps (empty name scope) qs
  have hclosed : ((run (empty name scope) qs).1.frozen = true) = (.freeze ∈ qs) :=
    propext (hfrozen.trans ⟨fun h => h.resolve_left Bool.false_ne_true, .inr⟩)
  rwa [List.nil_append, hname, hclosed] at hmap

/-- An open group with no overload of an arity below the largest word may still have no room for its slot. -/
theorem open_without_room : ¬ ∀ (name : String) (scope : GroupScope) (qs : List Request),
    (∀ n e, .insert n e ∈ qs → n < 2 ^ 64 - 1) → ∀ n e, n < 2 ^ 64 - 1 →
      ((∃ g', insert n e (run (empty name scope) qs).1 = .ok () g') ↔
        .freeze ∉ qs ∧ ∀ e', (n, e') ∉ (run (empty name scope) qs).2) := by
  intro h
  obtain ⟨g', hg'⟩ := (h "f" .global [] (fun _ _ hmem => by cases hmem) (2 ^ 60) ⟨0, 0⟩ (by decide)).2
    ⟨List.not_mem_nil, fun _ => List.not_mem_nil⟩
  have hobs : (empty "f" .global).obstacle? (2 ^ 60) = some (.panicked (.text "capacity overflow")) := by decide
  rw [run, insert_eq, hobs] at hg'
  cases hg'

example : (run (empty "f" .global) [.insert 2 ⟨0, 0⟩, .insert 0 ⟨1, 0⟩, .insert 2 ⟨9, 9⟩, .freeze, .insert 1 ⟨3, 0⟩]) =
    (⟨"f", .global, [some ⟨1, 0⟩, none, some ⟨0, 0⟩], true⟩, [(2, ⟨0, 0⟩), (0, ⟨1, 0⟩)]) := by decide

end SlotGroup
end NativeBridge
