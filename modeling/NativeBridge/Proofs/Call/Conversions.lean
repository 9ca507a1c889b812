import NativeBridge.Call.Entry
import NativeBridge.Proofs.Call.Local
/-!
# What conversions do to the object table

A conversion from the boundary is put together from parts that leave the object table alone, from moves of objects out of
their wrappers (`Access.takeUnique`) and from the rebuilding of value objects, which runs constructors. A relation between
actions that their composition preserves therefore holds of a conversion with two ways of running constructors where it
holds of the moves and of the import of value objects (`Act.Compositional.fromWire`). Where moves and constructors keep a
relation between tables, the conversion keeps it (`Convert.keeps_fromWire`), and so does everything of a call up to its
result.
-/
namespace NativeBridge

/-- Whether converting a value of the type may move an object out of its wrapper. -/
def NativeType.movesOut : NativeType → Bool
  | .handle .unique _ => true
  | .vector t => t.movesOut
  | .array t _ => t.movesOut
  | .optional t => t.movesOut
  | .result t => t.movesOut
  | _ => false

/-- The type of an argument. A result is none. -/
def NativeType.isArgument : NativeType → Bool
  | .vector t | .array t _ | .optional t => t.isArgument
  | .result _ => false
  | _ => true

theorem NativeType.movesOut_eq_consumes : ∀ {t : NativeType}, t.isArgument = true → t.movesOut = t.consumes
  | .vector t, h | .array t _, h | .optional t, h => movesOut_eq_consumes (t := t) h
  | .handle k _, _ => by cases k <;> rfl
  | .unit, _ | .bool, _ | .char, _ | .int _, _ | .float _, _ | .text, _ | .staticText, _ | .any, _ | .callback, _
  | .pointer, _ | .object _, _ => rfl

variable {Ω : Type} [ObjectModel Ω] {α β : Type}

open Act

section
variable {R : ObjectTable → ObjectTable → Prop} [IsPreorder ObjectTable R]

theorem Access.keeps_intoOwned (c : Class) (p : Pointer) :
    (Access.intoOwned c p : Act Ω (Instance Ω c)).Keeps R := by
  refine .of_eq fun b => ?_
  change ((ofExcept (b.toHoldings.intoOwned c p).1).final
    { b with toHoldings := (b.toHoldings.intoOwned c p).2 }).table = b.table
  rw [final_ofExcept]
  exact Holdings.intoOwned_table _ c p
namespace Convert

omit [IsPreorder ObjectTable R] in
theorem keeps_consuming (w : Wire) {act : Act Ω α} (hact : act.Keeps R) : (consuming w act).Keeps R :=
  hact.thenDrop _

theorem keeps_refuse (expected : String) (w : Wire) : (refuse expected w : Act Ω α).Keeps R :=
  keeps_consuming w (.fail _)

theorem keeps_sharedFromWire (c : Class) (allowConst : Bool) (w : Wire) :
    (sharedFromWire c allowConst w : Act Ω Address).Keeps R := by
  unfold sharedFromWire
  split
  · exact Access.keeps_sharedObject _ _ _
  · exact keeps_consuming _ (Access.keeps_sharedPointer _ _)
  · exact keeps_refuse _ _

theorem keeps_downgrade {act : Act Ω Address} (hact : act.Keeps R) : (downgrade act).Keeps R :=
  .bind hact fun _ => .bind (.drop _) fun _ => .pure _

theorem keeps_copyOf {c : Class} (x : Instance Ω c) : (copyOf x).Keeps R :=
  .bind (.retain _) fun _ => .pure _
end Convert
end

/-! ## Relations between actions -/

/-- The script may come to hand over these fields. -/
inductive ImportScript.Emits : ImportScript → List Wire → Prop
  | first {fields next} : Emits (.emit fields next) fields
  | later {fields next outcome fields'} : Emits (next outcome) fields' → Emits (.emit fields next) fields'

/-- The services with another way of running constructors. -/
def Services.constructing (sv : Services Ω) (construct : Class → List Wire → Act Ω Pointer) : Services Ω :=
  { sv with construct }

/-- What holds of a conversion, as a type and a value, holds of the conversions that it is made of. -/
structure Convert.Inward (D : NativeType → Wire → Prop) : Prop where
  vector : ∀ t ws, D (.vector t) (.array ws) → ∀ w ∈ ws, D t w
  array : ∀ t n ws, D (.array t n) (.array ws) → ∀ w ∈ ws, D t w
  optional : ∀ t w, D (.optional t) w → D t w
  result : ∀ t w, D (.result t) w → D t w

/-- A relation between actions that their composition preserves, for the conversions of `D`. Of the parts that both have in
common it holds of those that leave the object table alone and of the moves in `D`. -/
structure Act.Compositional (D : NativeType → Wire → Prop) (Rel : ∀ {α : Type}, Act Ω α → Act Ω α → Prop) : Prop where
  inward : Convert.Inward D
  loc : ∀ {α : Type} {act : Act Ω α}, act.Local → act.Keeps Eq → Rel act act
  move : ∀ {c : Class} {h : Handle}, D (.handle .unique c) (.object h) →
    Rel (Access.takeUnique c h : Act Ω (Instance Ω c)) (Access.takeUnique c h)
  bind : ∀ {α β : Type} {x y : Act Ω α} {f g : α → Act Ω β}, Rel x y → (∀ a, Rel (f a) (g a)) →
    Rel (x >>= f) (y >>= g)
  ensuring : ∀ {α : Type} {x y : Act Ω α} {after : Boundary Ω → Boundary Ω}, Rel x y → (∀ b, Level b (after b)) →
    (∀ b, (after b).table = b.table) → Rel (x.ensuring after) (y.ensuring after)
  onFailure : ∀ {α : Type} {x y : Act Ω α} {after : Boundary Ω → Boundary Ω}, Rel x y → (∀ b, Level b (after b)) →
    (∀ b, (after b).table = b.table) → Rel (x.onFailure after) (y.onFailure after)

variable {D : NativeType → Wire → Prop} {Rel : ∀ {α : Type}, Act Ω α → Act Ω α → Prop}

namespace Act.Compositional
open NativeBridge.Convert

variable (hR : Act.Compositional D Rel)
include hR

theorem thenDrop {x y : Act Ω α} (h : Rel x y) (as : List Address) : Rel (x.thenDrop as) (y.thenDrop as) :=
  hR.ensuring h (fun b => .drop b as) fun _ => rfl

theorem orDrop {x y : Act Ω α} (h : Rel x y) (as : List Address) : Rel (x.orDrop as) (y.orDrop as) :=
  hR.onFailure h (fun b => .drop b as) fun _ => rfl

theorem pure (a : α) : Rel (Pure.pure a : Act Ω α) (Pure.pure a) :=
  hR.loc (.pure a) (.pure a)

theorem fail (e : CallError) : Rel (Act.fail e : Act Ω α) (Act.fail e) :=
  hR.loc (.fail e) (.fail e)

theorem refuse (expected : String) (w : Wire) : Rel (Convert.refuse expected w : Act Ω α) (Convert.refuse expected w) :=
  hR.loc (local_refuse expected w) (keeps_refuse expected w)

theorem sharedFromWire (c : Class) (allowConst : Bool) (w : Wire) :
    Rel (Convert.sharedFromWire c allowConst w : Act Ω Address) (Convert.sharedFromWire c allowConst w) :=
  hR.loc (local_sharedFromWire c allowConst w) (keeps_sharedFromWire c allowConst w)

theorem borrowedFromWire (c : Class) (allowConst : Bool) (w : Wire) :
    Rel (downgrade (Convert.sharedFromWire c allowConst w) : Act Ω Address)
      (downgrade (Convert.sharedFromWire c allowConst w)) :=
  hR.loc (local_downgrade (local_sharedFromWire c allowConst w)) (keeps_downgrade (keeps_sharedFromWire c allowConst w))

theorem listFromWire (refs : α → List Address) {f g : Wire → Act Ω α} :
    ∀ ws : List Wire, (∀ w ∈ ws, Rel (f w) (g w)) →
      Rel (Convert.listFromWire refs f ws) (Convert.listFromWire refs g ws)
  | [], _ => hR.pure _
  | w :: ws, h =>
    hR.bind (hR.orDrop (h w List.mem_cons_self) _) fun _ =>
      hR.bind (hR.orDrop (listFromWire refs ws fun v hv => h v (List.mem_cons_of_mem _ hv)) _) fun _ => hR.pure _

variable {sv : Services Ω} (construct : Class → List Wire → Act Ω Pointer)

/-- **A compositional relation holds of a conversion with two ways of running constructors** where it holds of the import
of value objects. -/
theorem fromWire
    (himport : ∀ c w, D (.object c) w → Rel (importValue sv c w) (importValue (sv.constructing construct) c w)) :
    ∀ (t : NativeType) (w : Wire), D t w →
      Rel (Convert.fromWire sv t w) (Convert.fromWire (sv.constructing construct) t w)
  | .unit, w, _ => by
    unfold Convert.fromWire
    split
    · exact hR.pure _
    · exact hR.refuse _ _
  | .bool, w, _ => by
    cases w with
    | bool b => exact hR.pure _
    | _ => exact hR.refuse _ _
  | .char, w, _ => by
    cases w with
    | text s =>
      unfold Convert.fromWire
      dsimp only
      split
      · exact hR.pure _
      · exact hR.fail _
    | _ => exact hR.refuse _ _
  | .int k, w, _ => by
    cases w with
    | int n =>
      unfold Convert.fromWire
      dsimp only
      split
      · exact hR.pure _
      · exact hR.fail _
    | _ => exact hR.refuse _ _
  | .float .double, w, _ | .float .single, w, _ => by
    cases w with
    | float _ | int _ => exact hR.pure _
    | _ => exact hR.refuse _ _
  | .text, w, _ | .staticText, w, _ => by
    cases w with
    | text s => exact hR.pure _
    | _ => exact hR.refuse _ _
  | .any, w, _ => hR.pure w
  | .callback, w, _ => by
    cases w with
    | function c => exact hR.loc (.bind .get fun _ => .pure _) (.bind .get fun _ => .pure _)
    | _ => exact hR.refuse _ _
  | .pointer, w, _ => by
    cases w with
    | pointer p => exact hR.pure _
    | object h =>
      exact hR.loc
        (.bind .get fun _ => .bind (.ofExcept _) fun _ => .bind (.ofExcept _) fun _ => .bind (.retain _) fun _ => .pure _)
        (.bind .get fun _ => .bind (.ofExcept _) fun _ => .bind (.ofExcept _) fun _ => .bind (.retain _) fun _ => .pure _)
    | _ => exact hR.refuse _ _
  | .vector t, w, hw => by
    cases w with
    | array ws => exact hR.listFromWire _ ws fun v hv => fromWire himport t v (hR.inward.vector t ws hw v hv)
    | _ => exact hR.refuse _ _
  | .array t n, w, hw => by
    cases w with
    | array ws =>
      unfold Convert.fromWire
      dsimp only
      split
      · refine hR.bind (hR.listFromWire _ ws fun v hv => fromWire himport t v (hR.inward.array t n ws hw v hv))
          fun xs => ?_
        split
        · exact hR.pure _
        · exact hR.orDrop (hR.fail _) _
      · exact hR.orDrop (hR.fail _) _
    | _ => exact hR.refuse _ _
  | .optional t, w, hw => by
    unfold Convert.fromWire
    split
    · exact hR.pure _
    · exact hR.bind (fromWire himport t w (hR.inward.optional t w hw)) fun _ => hR.pure _
  | .object c, w, hw => by
    change Rel (objectFromWire sv c w) (objectFromWire (sv.constructing construct) c w)
    cases w with
    | object h =>
      exact hR.loc
        (.bind .get fun _ => .bind (.ofExcept _) fun _ => Access.local_reading _ _ c local_copyOf)
        (Access.keeps_readObject sv h c keeps_copyOf)
    | pointer p =>
      exact hR.loc
        (.thenDrop (.bind (.ofExcept _) fun _ => .bind .get fun _ => .bind (.ofExcept _) fun _ =>
          Access.local_reading _ _ c local_copyOf) _)
        (keeps_consuming _ (Access.keeps_readPointer sv p c keeps_copyOf))
    | _ => exact himport c _ hw
  | .handle .unique c, w, hw => by
    cases w with
    | object h => exact hR.move hw
    | _ => exact hR.refuse _ _
  | .handle .shared c, w, _ => hR.sharedFromWire c false w
  | .handle .constShared c, w, _ => hR.sharedFromWire c true w
  | .handle .borrowed c, w, _ => hR.borrowedFromWire c false w
  | .handle .constBorrowed c, w, _ => hR.borrowedFromWire c true w
  | .result t, w, hw => hR.bind (fromWire himport t w (hR.inward.result t w hw)) fun _ => hR.pure _

variable (hattempt : ∀ {α : Type} {x y : Act Ω α}, Rel x y → Rel x.attempt y.attempt)
include hattempt

theorem runImport (c : Class) : ∀ (script : ImportScript) (slot : ValueSlot (Instance Ω c)),
    (∀ fields, script.Emits fields → Rel (sv.construct c fields) (construct c fields)) →
    Rel (Convert.runImport sv c script slot) (Convert.runImport (sv.constructing construct) c script slot)
  | .done (.ok ()), _, _ => hR.pure _
  | .done (.error _), _, _ => hR.orDrop (hR.fail _) _
  | .emit fields next, slot, hconstruct => by
    have hmake : Rel (do Act.retain (Wire.refsAll fields); Access.intoOwned c (← sv.construct c fields))
        (do Act.retain (Wire.refsAll fields); Access.intoOwned c (← construct c fields)) :=
      hR.bind (hR.loc (.retain _) (.retain _)) fun _ => hR.bind (hconstruct fields .first) fun p =>
        hR.loc (Access.local_intoOwned c p) (Access.keeps_intoOwned c p)
    unfold Convert.runImport
    refine hR.bind (hR.orDrop (hattempt hmake) _) fun made => ?_
    cases made with
    | ok x => exact hR.bind (hR.loc (.drop _) (.drop _)) fun _ => runImport c (next (.ok ())) _ fun _ h => hconstruct _ (.later h)
    | error e => exact runImport c (next (.error e)) _ fun _ h => hconstruct _ (.later h)

/-- Where a failed constructor leaves related actions related, the import of a value object is, if the constructors are on
the fields that its binding hands over. -/
theorem importValue_emitting (c : Class) (w : Wire)
    (hconstruct : ∀ binding fields, sv.binding c = some binding → (binding.read c.name w).Emits fields →
      Rel (sv.construct c fields) (construct c fields)) :
    Rel (Convert.importValue sv c w) (Convert.importValue (sv.constructing construct) c w) := by
  have hbinding : (sv.constructing construct).binding c = sv.binding c := rfl
  unfold Convert.importValue
  rw [hbinding]
  refine hR.thenDrop ?_ _
  cases hread : sv.binding c with
  | none => exact hR.fail _
  | some binding =>
    refine hR.bind (hR.runImport construct hattempt c _ _ (hconstruct binding · hread)) fun made => ?_
    cases made with
    | none => exact hR.fail _
    | some x => exact hR.pure _

theorem importValue (hconstruct : ∀ c args, Rel (sv.construct c args) (construct c args)) (c : Class) (w : Wire) :
    Rel (Convert.importValue sv c w) (Convert.importValue (sv.constructing construct) c w) :=
  hR.importValue_emitting construct hattempt c w fun _ fields _ _ => hconstruct c fields

end Act.Compositional

/-! ## What conversions keep -/

section
variable {R : ObjectTable → ObjectTable → Prop} [IsPreorder ObjectTable R] {sv : Services Ω}

/-- To keep a relation between tables is compositional, for the types from which objects are moved out only by keeping it. -/
theorem Act.compositional_keeps : Compositional
    (fun t _ => t.movesOut = true → ∀ c h, (Access.takeUnique c h : Act Ω (Instance Ω c)).Keeps R)
    fun {α} (x _ : Act Ω α) => x.Keeps R where
  inward := ⟨fun _ _ h _ _ => h, fun _ _ _ h _ _ => h, fun _ _ h => h, fun _ _ h => h⟩
  loc := fun _ hact => .of_eq fun b => (hact b).symm
  move := fun hunique => hunique rfl _ _
  bind := .bind
  ensuring := fun hx _ hafter => hx.ensuring hafter
  onFailure := fun hx _ hafter => hx.onFailure hafter

namespace Convert

theorem keeps_listFromWire (refs : α → List Address) {convert : Wire → Act Ω α} (hconvert : ∀ w, (convert w).Keeps R)
    (ws : List Wire) : (listFromWire refs convert ws).Keeps R :=
  compositional_keeps.listFromWire (g := convert) refs ws fun w _ => hconvert w

variable (hconstruct : ∀ c args, (sv.construct c args).Keeps R)
include hconstruct

theorem keeps_importValue (c : Class) (w : Wire) : (importValue sv c w).Keeps R :=
  compositional_keeps.importValue sv.construct .attempt hconstruct c w

theorem keeps_fromWire (t : NativeType) (w : Wire)
    (hunique : t.movesOut = true → ∀ c h, (Access.takeUnique c h : Act Ω (Instance Ω c)).Keeps R) :
    (fromWire sv t w).Keeps R :=
  compositional_keeps.fromWire sv.construct (fun c w _ => keeps_importValue hconstruct c w) t w hunique

end Convert

namespace Entry

omit [IsPreorder ObjectTable R] [ObjectModel Ω] in
theorem final_harvest {ρ : Type} (refs : α → List Address) (ended : Body.Ended ρ α) (b : Boundary Ω) :
    ((harvest refs ended).final b).table = b.table := by
  unfold harvest
  cases h : ended.outcome <;> rfl

theorem keeps_runFree (refs : α → List Address) (held : List Address) (body : Body Ω Unit α) :
    (runFree sv refs held body).Keeps R :=
  .bind (Body.keeps_run _ _ _) fun ended => .thenDrop (.of_eq (final_harvest refs ended)) _

theorem keeps_runReading {c : Class} (refs : α → List Address) (held : List Address)
    (body : Instance Ω c → Body Ω Unit α) : (runReading sv refs held body).Keeps R := by
  have huse (x : Instance Ω c) : (do
      let ended ← Body.run sv.host () (body x)
      (harvest refs ended).thenDrop ended.fresh : Act Ω α).Keeps R :=
    .bind (Body.keeps_run _ _ _) fun ended => .thenDrop (.of_eq (final_harvest refs ended)) _
  exact .thenDrop (.bind .get fun _ => .bind (.ofExcept _) fun h => Access.keeps_readObject sv h c huse) held

theorem keeps_runWriting {c : Class} (refs : α → List Address) (held : List Address)
    (body : Body Ω (Instance Ω c) α) : (runWriting sv refs held body).Keeps R := by
  refine .thenDrop (.bind .get fun _ => .bind (.ofExcept _) fun h =>
    .bind (Access.keeps_writeObject sv h c fun x => ?_) fun _ => .thenDrop (.ofOutcome _) _) held
  refine .bind (Body.keeps_run _ _ _) fun ended => ?_
  dsimp only
  split
  · exact .bind (.retain _) fun _ => .pure _
  · exact .pure _

/-- An argument in the first pass: nothing yet of one that moves an object out. -/
def first (sv : Services Ω) (t : NativeType) (i : Nat) : Act Ω (Option (t.Value Ω)) :=
  if t.consumes then pure none else some <$> arg sv t i

omit [IsPreorder ObjectTable R] in
theorem early_cons (sv : Services Ω) (t : NativeType) (ts : List NativeType) (i : Nat) :
    early sv (t :: ts) i = (do
      let x ← first sv t i
      let xs ← (early sv ts (i + 1)).orDrop (match x with | some x => t.refs x | none => [])
      return (x, xs)) := by
  rw [early, first]
  split <;> rfl

variable (hconstruct : ∀ c args, (sv.construct c args).Keeps R)
include hconstruct

theorem keeps_arg {t : NativeType}
    (hunique : t.movesOut = true → ∀ c h, (Access.takeUnique c h : Act Ω (Instance Ω c)).Keeps R) (i : Nat) :
    (arg sv t i).Keeps R :=
  .bind (.takeArg i) fun w => (Convert.keeps_fromWire hconstruct t w hunique).atArgument i

theorem keeps_early : ∀ (ts : List NativeType) (i : Nat),
    (∀ t ∈ ts, t.consumes = false → t.movesOut = true →
      ∀ c h, (Access.takeUnique c h : Act Ω (Instance Ω c)).Keeps R) →
    (early sv ts i).Keeps R
  | [], _, _ => .pure _
  | t :: ts, i, hunique => by
    have htail := keeps_early ts (i + 1) fun t ht => hunique t (List.mem_cons_of_mem _ ht)
    rw [early_cons]
    refine .bind ?_ fun x => .bind (htail.orDrop _) fun _ => .pure _
    unfold first
    split
    · exact .pure _
    · exact .map _ (keeps_arg hconstruct (hunique t List.mem_cons_self (by simp_all)) i)

theorem keeps_late : ∀ (ts : List NativeType) (xs : NativeType.PartialValues Ω ts) (i : Nat),
    (∀ t ∈ ts, t.movesOut = true → ∀ c h, (Access.takeUnique c h : Act Ω (Instance Ω c)).Keeps R) →
    (late sv ts xs i).Keeps R
  | [], _, _, _ => .pure _
  | t :: ts, (x, xs), i, hunique => by
    have htail := keeps_late ts xs (i + 1) fun t ht => hunique t (List.mem_cons_of_mem _ ht)
    refine .bind (.orDrop ?_ _) fun _ => .bind (htail.orDrop _) fun _ => .pure _
    cases x with
    | some x => exact .pure _
    | none => exact keeps_arg hconstruct (hunique t List.mem_cons_self) i

theorem keeps_arguments (ts : List NativeType) (check : Boundary Ω → Except CallError Unit)
    (hunique : ∀ t ∈ ts, t.movesOut = true → ∀ c h, (Access.takeUnique c h : Act Ω (Instance Ω c)).Keeps R) :
    (arguments sv ts check).Keeps R := by
  have hearly := keeps_early hconstruct ts 0 fun t ht _ => hunique t ht
  refine .bind hearly fun xs => .bind (.orDrop ?_ _) fun _ => keeps_late hconstruct ts xs 0 hunique
  exact .bind .get fun _ => .bind (.ofExcept _) fun _ => .bind .get fun _ => .ofExcept _

/-- A constructor leaves its object behind as a bare pointer. -/
theorem keeps_constructor (c : Class) (params : List NativeType)
    (body : NativeType.Values Ω params → Body Ω Unit (Instance Ω c))
    (hunique : ∀ t ∈ params, t.movesOut = true →
      ∀ c h, (Access.takeUnique c h : Act Ω (Instance Ω c)).Keeps R) :
    ((Entry.constructor c params body).run sv).Keeps R :=
  .bind (keeps_arguments hconstruct params _ hunique) fun _ => .bind (keeps_runFree _ _ _) fun x =>
    .bind (.newObject x) fun _ => .setResult _

end Entry
end
end NativeBridge
