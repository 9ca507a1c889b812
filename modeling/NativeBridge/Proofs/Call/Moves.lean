import NativeBridge.Proofs.Call.Conversions
import NativeBridge.Proofs.Object.Sound
import NativeBridge.Proofs.Registry.Declarations
/-!
# Moving objects out

What the conversion of a consuming argument does to the object table. The handles that it comes to before it finds
that something does not fit are known beforehand (`Convert.moves`): without any it leaves the table alone, and with
one that was foreseen to be movable the table has fewer live wrappers afterwards, whatever happens later.
-/
namespace NativeBridge
variable {Ω α β : Type} [ObjectModel Ω]

open Act ObjectTable

namespace Access

theorem takeUnique_refused {b : Boundary Ω} {c : Class} {h : Handle} {e : CallError}
    (hcheck : checkUnique b c h = .error e) : takeUnique c h b = .error (.error e) b := by
  unfold takeUnique
  rw [get_bind, hcheck]
  rfl

omit [ObjectModel Ω] in
theorem checkUnique_ok {b : Boundary Ω} {c : Class} {h : Handle} (hcheck : checkUnique b c h = .ok ()) :
    ∃ a, b.toHoldings.uniqueCell h = .ok a := by
  unfold checkUnique at hcheck
  obtain ⟨w, -, hcheck⟩ := NativeBridge.bind_ok hcheck
  obtain ⟨-, hcheck⟩ := guard_ok hcheck
  obtain ⟨-, hcheck⟩ := guard_ok hcheck
  obtain ⟨a, ha, -⟩ := NativeBridge.bind_ok hcheck
  exact ⟨a, ha⟩

/-- Moving out what may be moved out empties the slot of the handle. -/
theorem takeUnique_table {b : Boundary Ω} {c : Class} {h : Handle} (hcheck : checkUnique b c h = .ok ()) :
    ∃ w, b.table.live? h = some w ∧
      ((takeUnique c h).final b).table = (b.table.forget w.key).discard h := by
  obtain ⟨a, ha⟩ := checkUnique_ok hcheck
  obtain ⟨w, hw, -⟩ := NativeBridge.bind_ok (show b.toHoldings.uniqueCell h = .ok a from ha)
  have hlive := get_eq_ok.mp hw
  obtain ⟨s, hs, htable⟩ : ∃ s, (b.toHoldings.retain [a]).release h = .ok s ∧ s.table = b.table.remove h w :=
    ⟨_, Holdings.release_eq (s := b.toHoldings.retain [a]) hlive, rfl⟩
  have htake : b.toHoldings.takeUnique h = .ok (a, s) := by
    rw [Holdings.takeUnique, ha]
    change (do let s ← (b.toHoldings.retain [a]).release h; return (a, s)) = Except.ok (a, s)
    rw [hs]
    rfl
  refine ⟨w, hlive, ?_⟩
  have hrun : takeUnique c h b = Act.ofExcept (s.takeCell c a).1 { b with toHoldings := (s.takeCell c a).2 } := by
    unfold takeUnique
    rw [get_bind, hcheck]
    change (Act.ofExcept (b.toHoldings.takeUnique h) >>= _) b = _
    rw [htake]
    rfl
  have hfinal : (takeUnique c h).final b =
      (Act.ofExcept (s.takeCell c a).1).final { b with toHoldings := (s.takeCell c a).2 } := by
    rw [final, hrun, final]
  rw [hfinal, final_ofExcept]
  change (s.takeCell c a).2.table = _
  rw [Holdings.takeCell_table, htable]
  rfl

theorem takeUnique_lessens {b : Boundary Ω} {c : Class} {h : Handle} (hcheck : checkUnique b c h = .ok ()) :
    ((takeUnique c h).final b).table.liveCount < b.table.liveCount := by
  obtain ⟨w, hw, htable⟩ := takeUnique_table hcheck
  rw [htable]
  exact liveCount_discard (t := b.table.forget w.key) (contains_eq_true.mpr ⟨w, hw⟩)

theorem keeps_takeUnique {R : ObjectTable → ObjectTable → Prop} [IsPreorder ObjectTable R]
    (hdiscard : ∀ (t : ObjectTable) h w, t.live? h = some w → R t ((t.forget w.key).discard h)) (c : Class) (h : Handle) :
    (takeUnique c h : Act Ω (Instance Ω c)).Keeps R := by
  intro b
  cases hcheck : checkUnique b c h with
  | error e =>
    rw [final_error (takeUnique_refused hcheck)]
    exact refl_of R _
  | ok _ =>
    obtain ⟨w, hw, htable⟩ := takeUnique_table hcheck
    rw [htable]
    exact hdiscard _ h w hw

theorem shrinks_takeUnique (c : Class) (h : Handle) : (takeUnique c h : Act Ω (Instance Ω c)).Keeps Shrinks :=
  keeps_takeUnique (fun _ _ w hw => .inr (liveCount_discard (contains_eq_true.mpr ⟨w, hw⟩))) c h

theorem within_takeUnique (c : Class) (h : Handle) : (takeUnique c h : Act Ω (Instance Ω c)).Keeps Within :=
  keeps_takeUnique (fun t h w _ => within_discard (t.forget w.key) h) c h

end Access

/-! ## One value -/

omit [ObjectModel Ω] in
theorem lessens_bind {act : Act Ω α} {f : α → Act Ω β} {b : Boundary Ω}
    (hact : (act.final b).table.liveCount < b.table.liveCount) (hf : ∀ x, (f x).Keeps Shrinks) :
    ((act >>= f).final b).table.liveCount < b.table.liveCount := by
  cases h : act b with
  | ok x b' =>
    rw [final_ok h] at hact
    rw [final_bind_ok h]
    exact Nat.lt_of_le_of_lt (hf x b').le hact
  | error i b' =>
    rw [final_error h] at hact
    rwa [final_bind_error h]

namespace Convert

/-- What a conversion comes to: handles to move out, in order, and whether everything fits. -/
abbrev Moves := List Handle × Bool

/-- First the one, then, if all of it fits, the other. -/
def Moves.andThen (m n : Moves) : Moves :=
  if m.2 then (m.1 ++ n.1, n.2) else m

def movesAll (moves : Wire → Moves) : List Wire → Moves
  | [] => ([], true)
  | w :: ws => (moves w).andThen (movesAll moves ws)

/-- What the conversion of a value to a consuming type comes to. -/
def moves : NativeType → Wire → Moves
  | .handle .unique _, .object h => ([h], true)
  | .vector t, .array ws => movesAll (moves t) ws
  | .array t n, .array ws => if ws.length = n then movesAll (moves t) ws else ([], false)
  | .optional t, w => if w.isNullish then ([], true) else moves t w
  | _, _ => ([], false)

/-- The action goes as foretold: it changes nothing, or fails with the table as it was, or makes live wrappers
fewer. -/
def Moves.Foretell (m : Moves) (act : Act Ω α) (b : Boundary Ω) : Prop :=
  match m with
  | ([], true) => ∃ x, act b = .ok x b
  | ([], false) => ∃ i b', act b = .error i b' ∧ b'.table = b.table
  | (_ :: _, _) => (act.final b).table.liveCount < b.table.liveCount

theorem Moves.andThen_idle (m : Moves) : m.andThen ([], true) = m := by
  obtain ⟨hs, fits⟩ := m
  cases fits <;> simp [andThen]

theorem Moves.Foretell.orDrop {m : Moves} {act : Act Ω α} {b : Boundary Ω} (h : m.Foretell act b) (as : List Address) :
    m.Foretell (act.orDrop as) b := by
  match m, h with
  | ([], true), ⟨x, hx⟩ => exact ⟨x, orDrop_ok hx⟩
  | ([], false), ⟨i, b', hb', htable⟩ =>
    exact ⟨i, b'.drop as, by rw [Act.orDrop, onFailure, hb'], htable⟩
  | (_ :: _, _), h =>
    change ((act.orDrop as).final b).table.liveCount < _
    rw [final_orDrop_table]
    exact h

omit [ObjectModel Ω] in
theorem Moves.Foretell.bind {m n : Moves} {act : Act Ω α} {f : α → Act Ω β} {b : Boundary Ω} (hm : m.Foretell act b)
    (hn : ∀ x, act b = .ok x b → n.Foretell (f x) b) (hf : ∀ x, (f x).Keeps Shrinks) :
    (m.andThen n).Foretell (act >>= f) b := by
  match m, hm with
  | ([], true), ⟨x, hx⟩ =>
    have h := hn x hx
    change n.Foretell (act >>= f) b
    unfold Foretell final at *
    rw [Act.bind_ok hx]
    exact h
  | ([], false), ⟨i, b', hb', htable⟩ => exact ⟨i, b', bind_error hb', htable⟩
  | (h :: hs, fits), hm =>
    have hless := lessens_bind hm hf
    cases fits <;> exact hless

omit [ObjectModel Ω] in
theorem Moves.Foretell.map {m : Moves} {act : Act Ω α} {b : Boundary Ω} (h : m.Foretell act b) (g : α → β) :
    m.Foretell (do return g (← act)) b := by
  rw [← m.andThen_idle]
  exact h.bind (fun x _ => ⟨g x, rfl⟩) fun _ => .pure _

theorem foretell_refuse (expected : String) (w : Wire) (b : Boundary Ω) :
    Moves.Foretell ([], false) (refuse expected w : Act Ω α) b :=
  ⟨.error (.mismatch expected w.typeName), b.drop w.refs, rfl, rfl⟩

theorem foretell_listFromWire (refs : α → List Address) {convert : Wire → Act Ω α} {f : Wire → Moves}
    {b : Boundary Ω} (hkeeps : ∀ w, (convert w).Keeps Shrinks) :
    ∀ ws, (∀ w ∈ ws, (f w).Foretell (convert w) b) → (movesAll f ws).Foretell (listFromWire refs convert ws) b
  | [], _ => ⟨[], rfl⟩
  | w :: ws, h => by
    have hw := h w List.mem_cons_self
    have hws := foretell_listFromWire refs hkeeps ws fun v hv => h v (List.mem_cons_of_mem _ hv)
    have htail := keeps_listFromWire refs hkeeps ws
    exact (hw.orDrop _).bind (fun x _ => (hws.orDrop (refs x)).map (x :: ·)) fun x =>
      .bind (htail.orDrop (refs x)) fun _ => .pure _

theorem length_listFromWire {refs : α → List Address} {convert : Wire → Act Ω α} :
    ∀ {ws : List Wire} {xs : List α} {b b' : Boundary Ω}, listFromWire refs convert ws b = .ok xs b' →
      xs.length = ws.length
  | [], xs, b, b', h => by
    cases h
    rfl
  | w :: ws, _, b, b', h => by
    obtain ⟨x, b₁, -, h⟩ := Act.bind_eq_ok h
    obtain ⟨xs, b₂, hxs, h⟩ := Act.bind_eq_ok h
    cases h
    rw [List.length_cons, List.length_cons, length_listFromWire (Act.orDrop_eq_ok hxs)]

omit [ObjectModel Ω] in
theorem precheck_of_forM {b : Boundary Ω} {t : NativeType} :
    ∀ {ws : List Wire}, ws.forM (precheck b t) = .ok () → ∀ w ∈ ws, precheck b t w = .ok ()
  | w :: ws, h, v, hv => by
    obtain ⟨⟨⟩, hw, hws⟩ := NativeBridge.bind_ok (show (precheck b t w >>= fun _ => ws.forM (precheck b t)) = .ok () from h)
    rcases List.mem_cons.mp hv with rfl | hv
    · exact hw
    · exact precheck_of_forM hws v hv

/-- The conversion of a value to a consuming type goes as foretold, once it was foreseen to work. -/
theorem foretell_fromWire {sv : Services Ω} (hconstruct : ∀ c args, (sv.construct c args).Keeps Shrinks)
    {b : Boundary Ω} : ∀ (t : NativeType) (w : Wire), t.consumes = true → precheck b t w = .ok () →
      (moves t w).Foretell (fromWire sv t w) b
  | .handle .unique c, w, _, hcheck => by
    cases w with
    | object h => exact Access.takeUnique_lessens hcheck
    | _ => exact foretell_refuse _ _ b
  | .vector t, w, ht, hcheck => by
    have hkeeps (v : Wire) : (fromWire sv t v).Keeps Shrinks :=
      keeps_fromWire hconstruct t v fun _ => Access.shrinks_takeUnique
    cases w with
    | array ws =>
      have hws := precheck_of_forM hcheck
      exact foretell_listFromWire t.refs hkeeps ws fun v hv => foretell_fromWire hconstruct t v ht (hws v hv)
    | _ => exact foretell_refuse _ _ b
  | .array t n, w, ht, hcheck => by
    have hkeeps (v : Wire) : (fromWire sv t v).Keeps Shrinks :=
      keeps_fromWire hconstruct t v fun _ => Access.shrinks_takeUnique
    cases w with
    | array ws =>
      unfold precheck at hcheck
      unfold moves fromWire
      dsimp only at hcheck ⊢
      by_cases hn : ws.length = n
      · rw [if_pos hn] at hcheck ⊢
        rw [if_pos hn, ← Moves.andThen_idle (movesAll (moves t) ws)]
        have hws := precheck_of_forM hcheck
        refine (foretell_listFromWire t.refs hkeeps ws fun v hv => ?_).bind (fun xs hxs => ?_) fun xs => ?_
        · exact foretell_fromWire hconstruct t v ht (hws v hv)
        · rw [dif_pos ((length_listFromWire hxs).trans hn)]
          exact ⟨_, rfl⟩
        · split
          · exact .pure _
          · exact .orDrop (.fail _) _
      · rw [if_neg hn] at hcheck
        cases hcheck
    | _ => exact foretell_refuse _ _ b
  | .optional t, w, ht, hcheck => by
    unfold moves fromWire
    unfold precheck at hcheck
    split
    · exact ⟨none, rfl⟩
    · rename_i hnull
      rw [if_neg hnull] at hcheck
      exact (foretell_fromWire hconstruct t w ht hcheck).map some

omit [ObjectModel Ω] in
theorem precheck_withArgs (b : Boundary Ω) (args : List Wire) : ∀ (t : NativeType) (w : Wire),
    precheck { b with call := { b.call with args } } t w = precheck b t w
  | .vector t, w => by
    cases w with
    | array ws => exact congrArg (ws.forM ·) (funext (precheck_withArgs b args t))
    | _ => rfl
  | .array t n, w => by
    cases w with
    | array ws =>
      unfold precheck
      rw [funext (precheck_withArgs b args t)]
    | _ => rfl
  | .optional t, w => by
    unfold precheck
    rw [precheck_withArgs b args t w]
  | .handle .unique c, w => by cases w <;> rfl
  | .handle .shared _, _ | .handle .constShared _, _ | .handle .borrowed _, _ | .handle .constBorrowed _, _
  | .unit, _ | .bool, _ | .char, _ | .int _, _ | .float _, _ | .text, _ | .staticText, _ | .any, _ | .callback, _
  | .pointer, _ | .object _, _ | .result _, _ => rfl

end Convert

/-! ## The arguments of a call -/

namespace Entry

/-- What the second pass over the arguments comes to. -/
def moves (args : List Wire) : List NativeType → Nat → Convert.Moves
  | [], _ => ([], true)
  | t :: ts, i =>
    if t.consumes then
      (match args[i]? with
        | some w => Convert.moves t w
        | none => ([], false)).andThen (moves args ts (i + 1))
    else moves args ts (i + 1)

/-- The arguments that the first pass has left open are those that move objects out. -/
def Awaits : (ts : List NativeType) → NativeType.PartialValues Ω ts → Prop
  | [], _ => True
  | t :: ts, (x, xs) => x.isNone = t.consumes ∧ Awaits ts xs

theorem awaits_early {sv : Services Ω} : ∀ {ts : List NativeType} {i : Nat} {b b' : Boundary Ω}
    {xs : NativeType.PartialValues Ω ts}, early sv ts i b = .ok xs b' → Awaits ts xs
  | [], _, _, _, _, _ => trivial
  | t :: ts, i, b, b', _, h => by
    rw [early_cons] at h
    obtain ⟨x, b₁, hx, h⟩ := Act.bind_eq_ok h
    obtain ⟨xs, b₂, hxs, h⟩ := Act.bind_eq_ok h
    cases h
    refine ⟨?_, awaits_early (Act.orDrop_eq_ok hxs)⟩
    unfold first at hx
    split at hx
    · rename_i ht
      cases hx
      exact ht.symm
    · rename_i ht
      obtain ⟨v, rfl⟩ := map_eq_ok hx
      exact (Bool.eq_false_iff.mpr ht).symm

theorem moves_takeArg (args : List Wire) (v : Wire) {j : Nat} :
    ∀ (ts : List NativeType) (i : Nat), j < i → moves (args.set j v) ts i = moves args ts i
  | [], _, _ => rfl
  | t :: ts, i, hi => by
    rw [moves, moves, List.getElem?_set_ne (by omega), moves_takeArg args v ts (i + 1) (by omega)]

omit [ObjectModel Ω] in
theorem precheck_takeArg (b : Boundary Ω) (v : Wire) {j : Nat} : ∀ (ts : List NativeType) (i : Nat), j < i →
    precheck { b with call := { b.call with args := b.call.args.set j v } } ts i = precheck b ts i
  | [], _, _ => rfl
  | t :: ts, i, hi => by
    unfold precheck
    simp only [List.getElem?_set_ne (show j ≠ i by omega), Convert.precheck_withArgs,
      precheck_takeArg b v ts (i + 1) (show j < i + 1 by omega)]

omit [ObjectModel Ω] in
theorem precheck_cons {b : Boundary Ω} {t : NativeType} {ts : List NativeType} {i : Nat}
    (h : precheck b (t :: ts) i = .ok ()) :
    (t.consumes = true → ∀ w, b.call.args[i]? = some w → Convert.precheck b t w = .ok ()) ∧
      precheck b ts (i + 1) = .ok () := by
  unfold precheck at h
  split at h
  · split at h
    · rename_i v hv
      split at h
      · cases h
      · rename_i hok
        refine ⟨fun _ w hw => ?_, h⟩
        obtain rfl : v = w := Option.some.inj (hv.symm.trans hw)
        cases hp : Convert.precheck b t v with
        | ok _ => rfl
        | error e => exact absurd hp (hok e)
    · rename_i hv
      exact ⟨fun _ w hw => absurd hw (hv w), h⟩
  · rename_i ht
    exact ⟨fun h => absurd h ht, h⟩

theorem arg_eq {sv : Services Ω} {t : NativeType} {i : Nat} {b : Boundary Ω} {w : Wire}
    (hw : b.call.args[i]? = some w) :
    arg sv t i b = ((Convert.fromWire sv t w).atArgument i)
      { b with call := { b.call with args := b.call.args.set i .undefined } } := by
  have htake : takeArg i b = .ok w { b with call := { b.call with args := b.call.args.set i .undefined } } := by
    rw [takeArg, hw]
  rw [arg, Act.bind_ok htake]

/-- The second pass after its first argument. -/
def lateRest (sv : Services Ω) (t : NativeType) (ts : List NativeType) (xs : NativeType.PartialValues Ω ts) (i : Nat)
    (x : t.Value Ω) : Act Ω (NativeType.Values Ω (t :: ts)) := do
  return (x, ← (late sv ts xs (i + 1)).orDrop (t.refs x))

theorem late_some (sv : Services Ω) (t : NativeType) (ts : List NativeType) (x : t.Value Ω)
    (xs : NativeType.PartialValues Ω ts) (i : Nat) :
    late sv (t :: ts) (some x, xs) i = lateRest sv t ts xs i x := rfl

theorem late_none (sv : Services Ω) (t : NativeType) (ts : List NativeType) (xs : NativeType.PartialValues Ω ts)
    (i : Nat) :
    late sv (t :: ts) (none, xs) i = (arg sv t i).orDrop (NativeType.partialRefs ts xs) >>= lateRest sv t ts xs i := rfl

theorem final_lateRest (sv : Services Ω) (t : NativeType) (ts : List NativeType) (xs : NativeType.PartialValues Ω ts)
    (i : Nat) (x : t.Value Ω) (b : Boundary Ω) :
    ((lateRest sv t ts xs i x).final b).table = ((late sv ts xs (i + 1)).final b).table := by
  rw [lateRest, final_return, final_orDrop_table]

/-- The second pass leaves the table alone if it comes to no handle, and otherwise there are fewer live wrappers. -/
theorem late_table {sv : Services Ω} (hconstruct : ∀ c args, (sv.construct c args).Keeps Shrinks) :
    ∀ (ts : List NativeType) (xs : NativeType.PartialValues Ω ts) (i : Nat) (b : Boundary Ω), Awaits ts xs →
      precheck b ts i = .ok () →
      ((moves b.call.args ts i).1 = [] → ((late sv ts xs i).final b).table = b.table) ∧
      ((moves b.call.args ts i).1 ≠ [] → ((late sv ts xs i).final b).table.liveCount < b.table.liveCount)
  | [], _, _, _, _, _ => ⟨fun _ => rfl, fun h => absurd rfl h⟩
  | t :: ts, (some y, xs), i, b, ⟨ht, hxs⟩, hcheck => by
    have ht : t.consumes = false := ht.symm
    rw [late_some, moves, if_neg (Bool.eq_false_iff.mp ht), final_lateRest]
    exact late_table hconstruct ts xs (i + 1) b hxs (precheck_cons hcheck).2
  | t :: ts, (none, xs), i, b, ⟨ht, hxs⟩, hcheck => by
    have ht : t.consumes = true := ht.symm
    obtain ⟨hcheck, hchecks⟩ := precheck_cons hcheck
    have hrest (y : t.Value Ω) : (lateRest sv t ts xs i y).Keeps Shrinks :=
      .bind ((keeps_late hconstruct ts xs (i + 1) fun _ _ _ => Access.shrinks_takeUnique).orDrop _) fun _ => .pure _
    rw [late_none, moves, if_pos ht]
    cases hw : b.call.args[i]? with
    | none =>
      have harg : ∃ e, arg sv t i b = .error e b := by
        rw [arg, Act.bind_error (i := _) (show takeArg i b = .error _ b by rw [takeArg, hw])]
        exact ⟨_, rfl⟩
      obtain ⟨e, harg⟩ := harg
      rw [final_bind_error (orDrop_error harg)]
      exact ⟨fun _ => rfl, fun h => absurd rfl h⟩
    | some w =>
      let b₁ : Boundary Ω := { b with call := { b.call with args := b.call.args.set i .undefined } }
      have hmoves : (Convert.moves t w).Foretell (Convert.fromWire sv t w) b₁ :=
        Convert.foretell_fromWire hconstruct t w ht (by rw [Convert.precheck_withArgs]; exact hcheck ht w hw)
      have harg : arg sv t i b = ((Convert.fromWire sv t w).atArgument i) b₁ := arg_eq hw
      dsimp only
      generalize Convert.moves t w = m at hmoves ⊢
      match m, hmoves with
      | ([], true), ⟨x, hx⟩ =>
        have ih := late_table hconstruct ts xs (i + 1) b₁ hxs
          (by rw [precheck_takeArg b _ ts (i + 1) (Nat.lt_succ_self i)]; exact hchecks)
        rw [moves_takeArg _ _ ts (i + 1) (Nat.lt_succ_self i)] at ih
        rw [Act.atArgument, hx] at harg
        rw [final_bind_ok (orDrop_ok harg), final_lateRest]
        exact ih
      | ([], false), ⟨e, b', hb', htable⟩ =>
        rw [Act.atArgument, hb'] at harg
        obtain ⟨e', harg⟩ : ∃ e', arg sv t i b = .error e' b' := by cases e <;> exact ⟨_, harg⟩
        rw [final_bind_error (orDrop_error harg)]
        exact ⟨fun _ => htable, fun h => absurd rfl h⟩
      | (h :: hs, fits), hless =>
        refine ⟨fun h => ?_, fun _ => lessens_bind ?_ hrest⟩
        · cases fits <;> cases h
        · rw [final_orDrop_table, final, harg, ← final, final_atArgument]
          exact hless

end Entry
end NativeBridge
