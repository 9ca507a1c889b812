import NativeBridge.Proofs.Call.Congruence
/-!
# Conversions that only count

A conversion that takes no object by value runs no constructor, and one that moves no object out releases no wrapper.
What is left then is the counting of references: all wrappers and all objects stay as they are
(`Convert.recounts_fromWire`), and so they do in the first pass over the arguments of a call (`Entry.recounts_early`).
-/
namespace NativeBridge
variable {Ω : Type} [ObjectModel Ω] {α β : Type}

open Act

/-- An argument type in which no object is taken by value. -/
def NativeType.byHandle : NativeType → Bool
  | .object _ | .result _ => false
  | .vector t | .array t _ | .optional t => t.byHandle
  | _ => true

/-! ## Counting references -/

/-- The wrappers and the objects of a state, without the counts of the references to them. -/
def Boundary.uncounted (b : Boundary Ω) : ObjectTable × List (Ω × Bool) :=
  (b.table, b.heap.contents)

omit [ObjectModel Ω] in
theorem Boundary.uncounted_retain (b : Boundary Ω) (as : List Address) : (b.retain as).uncounted = b.uncounted :=
  congrArg (Prod.mk b.table) (Heap.contents_retain b.heap as)

theorem Boundary.uncounted_drop (b : Boundary Ω) (as : List Address) : (b.drop as).uncounted = b.uncounted :=
  congrArg (Prod.mk b.table) (Heap.contents_release b.heap as)

/-- The action changes no wrapper and no object. It may count references. -/
def Act.Recounts (act : Act Ω α) : Prop :=
  act.Fixes Boundary.uncounted

namespace Act.Recounts

section
omit [ObjectModel Ω]

theorem pure (a : α) : (pure a : Act Ω α).Recounts :=
  fun _ => rfl

theorem fail (e : CallError) : (Act.fail e : Act Ω α).Recounts :=
  fun _ => rfl

theorem get : (get : Act Ω (Boundary Ω)).Recounts :=
  fun _ => rfl

theorem ofExcept (x : Except CallError α) : (ofExcept x : Act Ω α).Recounts :=
  fun b => by rw [final_ofExcept]

theorem retain (as : List Address) : (retain as : Act Ω Unit).Recounts :=
  fun b => b.uncounted_retain as

theorem bind {act : Act Ω α} {f : α → Act Ω β} (hact : act.Recounts) (hf : ∀ a, (f a).Recounts) : (act >>= f).Recounts :=
  Fixes.bind hact hf

theorem atArgument {act : Act Ω α} (hact : act.Recounts) (i : Nat) : (act.atArgument i).Recounts :=
  Fixes.atArgument hact i

theorem refusing {p : Prop} [Decidable p] {e : CallError} {f : Unit → Act Ω α} (hf : (f ()).Recounts) :
    (if p then Act.fail e >>= f else f ()).Recounts := by
  split
  · exact .bind (fail e) fun _ => hf
  · exact hf

end

theorem orDrop {act : Act Ω α} (hact : act.Recounts) (as : List Address) : (act.orDrop as).Recounts :=
  Fixes.onFailure hact fun b => b.uncounted_drop as

theorem thenDrop {act : Act Ω α} (hact : act.Recounts) (as : List Address) : (act.thenDrop as).Recounts :=
  Fixes.ensuring hact fun b => b.uncounted_drop as

end Act.Recounts

omit [ObjectModel Ω] in
theorem Access.recounts_sharedObject (h : Handle) (c : Class) (allowConst : Bool) :
    (Access.sharedObject h c allowConst : Act Ω Address).Recounts := by
  refine .bind .get fun b => .bind (.ofExcept _) fun w => ?_
  have rest : (do Act.retain [w.address]; return w.address : Act Ω Address).Recounts :=
    .bind (.retain _) fun _ => .pure _
  exact .refusing (.refusing (.refusing rest))

omit [ObjectModel Ω] in
theorem Access.recounts_sharedPointer (p : Pointer) (c : Class) :
    (Access.sharedPointer p c : Act Ω Address).Recounts := by
  have rest : (do
      let a ← Act.ofExcept (livePointer (← get) p c)
      Act.retain [a]
      return a : Act Ω Address).Recounts :=
    .bind .get fun _ => .bind (.ofExcept _) fun _ => .bind (.retain _) fun _ => .pure _
  unfold Access.sharedPointer
  exact .refusing rest

/-! ## Conversions -/

namespace Convert
variable {sv : Services Ω}

theorem recounts_refuse (expected : String) (w : Wire) : (refuse expected w : Act Ω α).Recounts :=
  .thenDrop (.fail _) _

theorem recounts_sharedFromWire (c : Class) (allowConst : Bool) (w : Wire) :
    (sharedFromWire c allowConst w : Act Ω Address).Recounts := by
  unfold sharedFromWire
  split
  · exact Access.recounts_sharedObject _ _ _
  · exact .thenDrop (Access.recounts_sharedPointer _ _) _
  · exact recounts_refuse _ _

theorem recounts_downgrade {act : Act Ω Address} (hact : act.Recounts) : (downgrade act).Recounts :=
  .bind hact fun a => .bind (fun b => b.uncounted_drop [a]) fun _ => .pure _

theorem recounts_listFromWire (refs : α → List Address) {convert : Wire → Act Ω α} (h : ∀ w, (convert w).Recounts) :
    ∀ ws : List Wire, (listFromWire refs convert ws).Recounts
  | [] => .pure _
  | w :: ws => .bind ((h w).orDrop _) fun _ => .bind ((recounts_listFromWire refs h ws).orDrop _) fun _ => .pure _

/-- A conversion that takes no object by value and moves none out leaves all wrappers and objects as they are. -/
theorem recounts_fromWire : ∀ {t : NativeType}, t.byHandle = true → t.consumes = false → ∀ w : Wire,
    (fromWire sv t w).Recounts
  | .unit, _, _, w => by
    unfold fromWire
    split
    · exact .pure _
    · exact recounts_refuse _ _
  | .bool, _, _, w => by
    cases w with
    | bool b => exact .pure _
    | _ => exact recounts_refuse _ _
  | .char, _, _, w => by
    cases w with
    | text s =>
      unfold fromWire
      dsimp only
      split
      · exact .pure _
      · exact .fail _
    | _ => exact recounts_refuse _ _
  | .int k, _, _, w => by
    cases w with
    | int n =>
      unfold fromWire
      dsimp only
      split
      · exact .pure _
      · exact .fail _
    | _ => exact recounts_refuse _ _
  | .float .double, _, _, w | .float .single, _, _, w => by
    cases w with
    | float _ | int _ => exact .pure _
    | _ => exact recounts_refuse _ _
  | .text, _, _, w | .staticText, _, _, w => by
    cases w with
    | text s => exact .pure _
    | _ => exact recounts_refuse _ _
  | .any, _, _, w => .pure w
  | .callback, _, _, w => by
    cases w with
    | function c => exact .bind .get fun _ => .pure _
    | _ => exact recounts_refuse _ _
  | .pointer, _, _, w => by
    cases w with
    | pointer p => exact .pure _
    | object h =>
      exact .bind .get fun _ => .bind (.ofExcept _) fun _ => .bind (.ofExcept _) fun _ => .bind (.retain _) fun _ => .pure _
    | _ => exact recounts_refuse _ _
  | .vector t, ht, hconsumes, w => by
    cases w with
    | array ws => exact recounts_listFromWire t.refs (recounts_fromWire (t := t) ht hconsumes) ws
    | _ => exact recounts_refuse _ _
  | .array t n, ht, hconsumes, w => by
    cases w with
    | array ws =>
      unfold fromWire
      dsimp only
      split
      · refine .bind (recounts_listFromWire t.refs (recounts_fromWire (t := t) ht hconsumes) ws) fun xs => ?_
        split
        · exact .pure _
        · exact .orDrop (.fail _) _
      · exact .orDrop (.fail _) _
    | _ => exact recounts_refuse _ _
  | .optional t, ht, hconsumes, w => by
    unfold fromWire
    split
    · exact .pure _
    · exact .bind (recounts_fromWire (t := t) ht hconsumes w) fun _ => .pure _
  | .handle .shared c, _, _, w => recounts_sharedFromWire c false w
  | .handle .constShared c, _, _, w => recounts_sharedFromWire c true w
  | .handle .borrowed c, _, _, w => recounts_downgrade (recounts_sharedFromWire c false w)
  | .handle .constBorrowed c, _, _, w => recounts_downgrade (recounts_sharedFromWire c true w)
  | .handle .unique _, _, hconsumes, _ => nomatch hconsumes
  | .object _, ht, _, _ | .result _, ht, _, _ => nomatch ht

end Convert

namespace Entry
variable {sv : Services Ω}

/-- The first pass of a call that takes no object by value. -/
theorem recounts_early : ∀ {ts : List NativeType} (i : Nat), (∀ t ∈ ts, t.byHandle = true) → (early sv ts i).Recounts
  | [], _, _ => .pure _
  | t :: ts, i, hts => by
    have htail := recounts_early (i + 1) fun t ht => hts t (List.mem_cons_of_mem _ ht)
    rw [early_cons]
    refine .bind ?_ fun x => .bind (htail.orDrop _) fun _ => .pure _
    unfold first
    split
    · exact .pure _
    · rename_i hconsumes
      have htake : (Act.takeArg i : Act Ω Wire).Recounts := fun b => by
        unfold final takeArg
        cases b.call.args[i]? <;> rfl
      have hconvert (w : Wire) : (Convert.fromWire sv t w).Recounts :=
        Convert.recounts_fromWire (hts t List.mem_cons_self) (Bool.not_eq_true _ ▸ hconsumes) w
      rw [map_eq_pure_bind]
      exact .bind (.bind htake fun w => (hconvert w).atArgument i) fun _ => .pure _

end Entry
end NativeBridge
