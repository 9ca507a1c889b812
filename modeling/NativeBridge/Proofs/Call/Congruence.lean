import NativeBridge.Proofs.Call.Start
/-!
# Two ways of running constructors

A conversion from the boundary takes part in the call in progress only through the constructors that it runs. A
relation between actions that their composition preserves therefore holds of a conversion with two ways of running
constructors where it holds of the import of value objects (`Convert.related_fromWire`), and so of all arguments of a
call (`Entry.related_arguments`).
-/
namespace NativeBridge
variable {Ω : Type} [ObjectModel Ω] {α β : Type}

open Act

/-! ## Conversions for the host -/

namespace Convert
variable (sv : Services Ω) (construct : Class → List Wire → Act Ω Pointer)

theorem toWireWith_constructing (fieldsOf : FieldsOf Ω) : ∀ (t : NativeType) (x : t.Value Ω),
    toWireWith (sv.constructing construct) fieldsOf t x = toWireWith sv fieldsOf t x
  | .vector t, xs | .array t _, xs => by
    unfold toWireWith
    rw [funext (toWireWith_constructing fieldsOf t)]
  | .optional t, x => by
    unfold toWireWith
    cases x with
    | none => rfl
    | some x => exact toWireWith_constructing fieldsOf t x
  | .result t, x => by
    unfold toWireWith
    cases x with
    | error e => rfl
    | ok x => exact toWireWith_constructing fieldsOf t x
  | .unit, _ | .bool, _ | .char, _ | .int _, _ | .float _, _ | .text, _ | .staticText, _ | .any, _ | .callback, _
  | .pointer, _ | .object _, _ => rfl
  | .handle k c, x => by cases k <;> rfl

theorem runExport_constructing (fieldsOf : FieldsOf Ω) (c : Class) : ∀ (script : ExportScript Ω)
    (fields : Option (List Wire)),
    runExport (sv.constructing construct) fieldsOf c script fields = runExport sv fieldsOf c script fields
  | .done (.ok ()), some _ | .done (.ok ()), none | .done (.error _), _ => rfl
  | .emit _ next, some fields => runExport_constructing fieldsOf c (next _) _
  | .emit xs next, none => by
    unfold runExport
    have htyped : typedToWire (sv.constructing construct) fieldsOf xs = typedToWire sv fieldsOf xs := by
      unfold typedToWire
      simp only [toWireWith_constructing]
    rw [htyped]
    congr 1
    funext made
    cases made with
    | ok fields => exact runExport_constructing fieldsOf c (next (.ok ())) _
    | error e => exact runExport_constructing fieldsOf c (next (.error e)) _

theorem fieldsAt_constructing : ∀ depth, fieldsAt (sv.constructing construct) depth = fieldsAt sv depth
  | 0 => rfl
  | depth + 1 => by
    funext exporter o
    unfold fieldsAt
    rw [fieldsAt_constructing depth, runExport_constructing]

/-- Conversions for the host run no constructors. -/
theorem toWire_constructing (t : NativeType) (x : t.Value Ω) :
    toWire (sv.constructing construct) t x = toWire sv t x := by
  have hfields : fields (sv.constructing construct) = fields sv := by
    funext exporter o
    unfold fields
    rw [fieldsAt_constructing]
  rw [toWire, toWire, hfields, toWireWith_constructing]

end Convert

/-! ## Relations that hold of moves -/

/-- A compositional relation that holds of everything local, moves of objects among it. -/
structure Act.Congruence (D : NativeType → Wire → Prop) (Rel : ∀ {α : Type}, Act Ω α → Act Ω α → Prop) : Prop where
  inward : Convert.Inward D
  loc : ∀ {α : Type} {act : Act Ω α}, act.Local → Rel act act
  bind : ∀ {α β : Type} {x y : Act Ω α} {f g : α → Act Ω β}, Rel x y → (∀ a, Rel (f a) (g a)) →
    Rel (x >>= f) (y >>= g)
  ensuring : ∀ {α : Type} {x y : Act Ω α} {after : Boundary Ω → Boundary Ω}, Rel x y → (∀ b, Level b (after b)) →
    Rel (x.ensuring after) (y.ensuring after)
  onFailure : ∀ {α : Type} {x y : Act Ω α} {after : Boundary Ω → Boundary Ω}, Rel x y → (∀ b, Level b (after b)) →
    Rel (x.onFailure after) (y.onFailure after)

/-- A congruence that the taking of arguments preserves, each of which is to be converted to its parameter. -/
structure Act.Congruence.OfCalls (D : NativeType → Wire → Prop) (params : List NativeType)
    (Rel : ∀ {α : Type}, Act Ω α → Act Ω α → Prop) : Prop extends Act.Congruence D Rel where
  atArgument : ∀ {α : Type} {x y : Act Ω α} (i : Nat), Rel x y → Rel (x.atArgument i) (y.atArgument i)
  takeArg : ∀ {α : Type} {i : Nat} {t : NativeType} {f g : Wire → Act Ω α}, params[i]? = some t →
    (∀ w, D t w → Rel (f w) (g w)) → Rel (Act.takeArg i >>= f) (Act.takeArg i >>= g)

/-! ## What an action leaves as it is -/

namespace Act
variable {γ : Type} {P : Boundary Ω → γ}

/-- What `P` reads off the state is the same when the action ends. -/
def Fixes (P : Boundary Ω → γ) (act : Act Ω α) : Prop :=
  ∀ b, P (act.final b) = P b

namespace Fixes

omit [ObjectModel Ω]

theorem relates {act : Act Ω α} (hact : act.Fixes P) : act.Relates fun b b' => P b' = P b :=
  hact

theorem bind {act : Act Ω α} {f : α → Act Ω β} (hact : act.Fixes P) (hf : ∀ a, (f a).Fixes P) : (act >>= f).Fixes P :=
  hact.relates.bind (fun h h' => h'.trans h) hf

theorem ensuring {act : Act Ω α} {after : Boundary Ω → Boundary Ω} (hact : act.Fixes P) (hafter : ∀ b, P (after b) = P b) :
    (act.ensuring after).Fixes P :=
  hact.relates.ensuring fun _ b' h => (hafter b').trans h

theorem onFailure {act : Act Ω α} {after : Boundary Ω → Boundary Ω} (hact : act.Fixes P) (hafter : ∀ b, P (after b) = P b) :
    (act.onFailure after).Fixes P :=
  hact.relates.onFailure fun _ b' h => (hafter b').trans h

theorem attempt {act : Act Ω α} (hact : act.Fixes P) : act.attempt.Fixes P :=
  hact.relates.attempt

theorem atArgument {act : Act Ω α} (hact : act.Fixes P) (i : Nat) : (act.atArgument i).Fixes P :=
  hact.relates.atArgument i

end Fixes

section
omit [ObjectModel Ω]
variable (hP : ∀ b b', Level b b' → P b' = P b)
include hP

theorem Local.fixes {act : Act Ω α} (h : act.Local) : act.Fixes P :=
  fun b => hP b _ (h.level b)

theorem congruence_fixes : Congruence (fun _ _ => True) fun {α} (x _ : Act Ω α) => x.Fixes P where
  inward := ⟨fun _ _ _ _ _ => trivial, fun _ _ _ _ _ _ => trivial, fun _ _ _ => trivial, fun _ _ _ => trivial⟩
  loc := fun h => h.fixes hP
  bind := fun hx hf => hx.bind hf
  ensuring := fun hx hafter => hx.ensuring fun b => hP b _ (hafter b)
  onFailure := fun hx hafter => hx.onFailure fun b => hP b _ (hafter b)

end
end Act

variable {D : NativeType → Wire → Prop} {Rel : ∀ {α : Type}, Act Ω α → Act Ω α → Prop}

/-! ## Conversions and arguments -/

section
variable (hR : Act.Congruence D Rel)
include hR

theorem Act.Congruence.compositional : Act.Compositional D Rel where
  inward := hR.inward
  loc := fun hlocal _ => hR.loc hlocal
  move := fun _ => hR.loc (Access.local_takeUnique _ _)
  bind := hR.bind
  ensuring := fun h hafter _ => hR.ensuring h hafter
  onFailure := fun h hafter _ => hR.onFailure h hafter

theorem Act.Congruence.thenDrop {x y : Act Ω α} (h : Rel x y) (as : List Address) : Rel (x.thenDrop as) (y.thenDrop as) :=
  hR.compositional.thenDrop h as

theorem Act.Congruence.orDrop {x y : Act Ω α} (h : Rel x y) (as : List Address) : Rel (x.orDrop as) (y.orDrop as) :=
  hR.compositional.orDrop h as

namespace Convert
variable {sv : Services Ω} (construct : Class → List Wire → Act Ω Pointer)

theorem related_fromWire
    (himport : ∀ c w, D (.object c) w → Rel (importValue sv c w) (importValue (sv.constructing construct) c w))
    (t : NativeType) (w : Wire) (hw : D t w) : Rel (fromWire sv t w) (fromWire (sv.constructing construct) t w) :=
  hR.compositional.fromWire construct himport t w hw

theorem related_importValue (hattempt : ∀ {α : Type} {x y : Act Ω α}, Rel x y → Rel x.attempt y.attempt)
    (hconstruct : ∀ c args, Rel (sv.construct c args) (construct c args)) (c : Class) (w : Wire) :
    Rel (importValue sv c w) (importValue (sv.constructing construct) c w) :=
  hR.compositional.importValue construct hattempt hconstruct c w

end Convert
end

/-- What the running of constructors leaves as it is, a conversion from the boundary leaves as it is. -/
theorem Convert.fixes_fromWire {γ : Type} {P : Boundary Ω → γ} (hP : ∀ b b', Level b b' → P b' = P b) {sv : Services Ω}
    (hconstruct : ∀ c args, (sv.construct c args).Fixes P) (t : NativeType) (w : Wire) : (fromWire sv t w).Fixes P :=
  related_fromWire (congruence_fixes hP) sv.construct (fun c w _ =>
    related_importValue (congruence_fixes hP) sv.construct .attempt hconstruct c w) t w trivial

namespace Entry
variable {params : List NativeType} (hR : Act.Congruence.OfCalls D params Rel) {sv : Services Ω}
    (construct : Class → List Wire → Act Ω Pointer)
    (himport : ∀ c w, D (.object c) w →
      Rel (Convert.importValue sv c w) (Convert.importValue (sv.constructing construct) c w))
include hR himport

theorem related_arg {t : NativeType} {i : Nat} (ht : params[i]? = some t) :
    Rel (arg sv t i) (arg (sv.constructing construct) t i) :=
  hR.takeArg ht fun w hw => hR.atArgument i (Convert.related_fromWire hR.toCongruence construct himport t w hw)

theorem related_early : ∀ (ts : List NativeType) (i : Nat), params.drop i = ts →
    Rel (early sv ts i) (early (sv.constructing construct) ts i)
  | [], _, _ => hR.loc (.pure _)
  | t :: ts, i, hts => by
    have ht : params[i]? = some t := by rw [← List.head?_drop, hts, List.head?_cons]
    have hrest : params.drop (i + 1) = ts := by rw [← List.tail_drop, hts, List.tail_cons]
    rw [early_cons, early_cons]
    refine hR.bind ?_ fun x => hR.bind (hR.orDrop (related_early ts (i + 1) hrest) _) fun _ => hR.loc (.pure _)
    unfold first
    split
    · exact hR.loc (.pure _)
    · rw [map_eq_pure_bind, map_eq_pure_bind]
      exact hR.bind (related_arg hR construct himport ht) fun _ => hR.loc (.pure _)

theorem related_late : ∀ (ts : List NativeType) (xs : NativeType.PartialValues Ω ts) (i : Nat), params.drop i = ts →
    Rel (late sv ts xs i) (late (sv.constructing construct) ts xs i)
  | [], _, _, _ => hR.loc (.pure _)
  | t :: ts, (x, xs), i, hts => by
    have ht : params[i]? = some t := by rw [← List.head?_drop, hts, List.head?_cons]
    have hrest : params.drop (i + 1) = ts := by rw [← List.tail_drop, hts, List.tail_cons]
    refine hR.bind (hR.orDrop ?_ _) fun _ =>
      hR.bind (hR.orDrop (related_late ts xs (i + 1) hrest) _) fun _ => hR.loc (.pure _)
    cases x with
    | some x => exact hR.loc (.pure _)
    | none => exact related_arg hR construct himport ht

theorem related_arguments (check : Boundary Ω → Except CallError Unit) :
    Rel (arguments sv params check) (arguments (sv.constructing construct) params check) :=
  hR.bind (related_early hR construct himport params 0 rfl) fun xs => hR.bind
    (hR.orDrop (hR.loc (.bind .get fun _ => .bind (.ofExcept _) fun _ => .bind .get fun _ => .ofExcept _)) _)
    fun _ => related_late hR construct himport params xs 0 rfl

end Entry
end NativeBridge
