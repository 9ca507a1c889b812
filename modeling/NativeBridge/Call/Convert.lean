import NativeBridge.Call.Access
import NativeBridge.Native.Accepts
import NativeBridge.Native.ValueSlot
/-!
# Conversions

From boundary values to native values (`fromWire`) and back (`toWire`). A conversion takes over the
references of the value that it is given: they pass to its result or are given up, also when it fails.
-/
namespace NativeBridge.Convert
variable {Ω α : Type} [ObjectModel Ω]

/-! ## From the boundary -/

/-- Convert by looking at the value, which is given up afterwards. -/
def consuming (w : Wire) (act : Act Ω α) : Act Ω α :=
  act.thenDrop w.refs

/-- Refuse a value for its dynamic type. -/
def refuse (expected : String) (w : Wire) : Act Ω α :=
  consuming w (Act.fail (.mismatch expected w.typeName))

/-- A shared handle, from a wrapper or a raw pointer. -/
def sharedFromWire (c : Class) (allowConst : Bool) : Wire → Act Ω Address
  | .object h => Access.sharedObject h c allowConst
  | .pointer p => consuming (.pointer p) (Access.sharedPointer p c)
  | w => refuse (c.name ++ "@") w

/-- A handle that holds nothing, from a shared one. -/
def downgrade (act : Act Ω Address) : Act Ω Address := do
  let a ← act
  Act.drop [a]
  return a

/-- Run the host's reading of a value: each time it hands over fields, a constructor runs on them and the
new object replaces the one before. -/
def runImport (sv : Services Ω) (c : Class) : ImportScript → ValueSlot (Instance Ω c) →
    Act Ω (ValueSlot (Instance Ω c))
  | .done (.ok ()), slot => pure slot
  | .done (.error e), slot => (Act.fail e).orDrop ((slot.map (·.refs)).getD [])
  | .emit fields next, slot => do
    let held := (slot.map (·.refs)).getD []
    let made ← (Act.attempt do
      Act.retain (Wire.refsAll fields)
      let p ← sv.construct c fields
      Access.intoOwned c p).orDrop held
    match made with
    | .ok x =>
      Act.drop held
      runImport sv c (next (.ok ())) (slot.construct x).2
    | .error e => runImport sv c (next (.error e)) slot

/-- Rebuild a value object from its boundary form. -/
def importValue (sv : Services Ω) (c : Class) (w : Wire) : Act Ω (Instance Ω c) :=
  consuming w do
    match sv.binding c with
    | none => Act.fail (.unboundType c.name)
    | some binding =>
      match ← runImport sv c (binding.read c.name w) none with
      | some x => return x
      | none => Act.fail (.mismatch c.name w.typeName)

/-- A copy of an object: its references are counted once more. -/
def copyOf {c : Class} (x : Instance Ω c) : Act Ω (Instance Ω c) := do
  Act.retain x.refs
  return x

/-- An object by value: a copy of a wrapped object or of one behind a raw pointer, or a new one made from
its boundary form. -/
def objectFromWire (sv : Services Ω) (c : Class) : Wire → Act Ω (Instance Ω c)
  | .object h => Access.readObject sv h c copyOf
  | .pointer p => consuming (.pointer p) (Access.readPointer sv p c copyOf)
  | w => importValue sv c w

/-- Convert values one after another. What is still to come is given up when one fails. -/
def listFromWire (refs : α → List Address) (convert : Wire → Act Ω α) : List Wire → Act Ω (List α)
  | [] => pure []
  | w :: ws => do
    let x ← (convert w).orDrop (Wire.refsAll ws)
    let xs ← (listFromWire refs convert ws).orDrop (refs x)
    return x :: xs

/-- Convert a boundary value to a native value of type `t`. -/
def fromWire (sv : Services Ω) : (t : NativeType) → Wire → Act Ω (t.Value Ω)
  | .unit, w => if w.isNullish then pure () else refuse "void" w
  | .bool, w =>
    match w with
    | .bool b => pure b
    | w => refuse "bool" w
  | .char, w =>
    match w with
    | .text s =>
      match s.toList with
      | [c] => pure c
      | _ => Act.fail (.mismatch "char" "string")
    | w => refuse "char" w
  | .int k, w =>
    match w with
    | .int n =>
      match k.ofInt? n.toInt with
      | some x => pure x
      | none => Act.fail (.mismatch k.name ("int " ++ toString n.toInt ++ " out of range"))
    | w => refuse k.name w
  | .float .double, w =>
    match w with
    | .float x => pure x
    | .int n => pure (Binary64.ofInt n)
    | w => refuse "double" w
  | .float .single, w =>
    match w with
    | .float x => pure x.toSingle
    | .int n => pure (Binary64.singleOfInt n)
    | w => refuse "float" w
  | .text, w =>
    match w with
    | .text s => pure s
    | w => refuse "string" w
  | .staticText, w =>
    match w with
    | .text s => pure s
    | w => refuse "string" w
  | .any, w => pure w
  | .callback, w =>
    match w with
    | .function c => do return c.bindTo (← get).call.sink
    | w => refuse "function" w
  | .pointer, w =>
    match w with
    | .pointer p => pure p
    | .object h => do
      let b ← get
      let a ← Act.ofExcept (b.toHoldings.cell h)
      let w ← Act.ofExcept (b.table.get h)
      Act.retain [a]
      return ⟨w.cls, a, false⟩
    | w => refuse "pointer" w
  | .vector t, w =>
    match w with
    | .array ws => listFromWire t.refs (fromWire sv t) ws
    | w => refuse (NativeType.vector t).name w
  | .array t n, w =>
    match w with
    | .array ws =>
      if ws.length = n then do
        let xs ← listFromWire t.refs (fromWire sv t) ws
        if h : xs.length = n then return ⟨xs.toArray, by simp [h]⟩
        else (Act.fail (.mismatch (NativeType.array t n).name "array")).orDrop (xs.flatMap t.refs)
      else
        (Act.fail (.mismatch (NativeType.array t n).name ("array of " ++ toString ws.length))).orDrop
          (Wire.refsAll ws)
    | w => refuse (NativeType.array t n).name w
  | .optional t, w => if w.isNullish then pure none else do return some (← fromWire sv t w)
  | .object c, w => objectFromWire sv c w
  | .handle .unique c, w =>
    match w with
    | .object h => Access.takeUnique c h
    | w => refuse (c.name ++ "!") w
  | .handle .shared c, w => sharedFromWire c false w
  | .handle .constShared c, w => sharedFromWire c true w
  | .handle .borrowed c, w => downgrade (sharedFromWire c false w)
  | .handle .constBorrowed c, w => downgrade (sharedFromWire c true w)
  | .result t, w => do return .ok (← fromWire sv t w)

/-- Foresee whether a consuming conversion of a value would fail, from the state alone. -/
def precheck (b : Boundary Ω) : NativeType → Wire → Except CallError Unit
  | .handle .unique c, .object h => Access.checkUnique b c h
  | .handle .unique c, w => .error (.mismatch (c.name ++ "!") w.typeName)
  | .vector t, .array ws => ws.forM (precheck b t)
  | .array t n, .array ws =>
    if ws.length = n then ws.forM (precheck b t)
    else .error (.mismatch (NativeType.array t n).name ("array of " ++ toString ws.length))
  | .optional t, w => if w.isNullish then .ok () else precheck b t w
  | _, _ => .ok ()

/-! ## To the boundary -/

/-- Wrap a new object for the host. -/
def wrapObject {c : Class} (x : Instance Ω c) : Act Ω Wire := do
  let p ← Act.newObject x
  return .object (← Act.wrap p true .none)

/-- Wrap a shared object; the handle's reference passes to the wrapper. -/
def wrapShared (c : Class) (a : Address) (flags : TypeFlags) : Act Ω Wire := do
  return .object (← Act.wrap ⟨c, a, false⟩ false flags)

/-- Wrap a borrowed object, as long as it is there. -/
def wrapBorrowed (c : Class) (a : Address) (flags : TypeFlags) : Act Ω Wire := do
  if (← get).heap.isAlive a then return .object (← Act.wrap ⟨c, a, true⟩ false flags)
  else return .null

/-- Convert values one after another. What is still to come, and what has been converted, is given up when
one fails. -/
def listToWire (refs : α → List Address) (convert : α → Act Ω Wire) : List α → Act Ω (List Wire)
  | [] => pure []
  | x :: xs => do
    let w ← (convert x).orDrop (xs.flatMap refs)
    let ws ← (listToWire refs convert xs).orDrop w.refs
    return w :: ws

/-- How the fields of a value object are got: given the class's exporter and the object. -/
abbrev FieldsOf (Ω : Type) [ObjectModel Ω] := Exporter Ω → Ω → Act Ω (List Wire)

/-- An object by value: exported and built anew by the host if its class is a bound value type, wrapped
otherwise. An unbound value type is wrapped only if that is allowed. -/
def objectToWire (sv : Services Ω) (fieldsOf : FieldsOf Ω) {c : Class} (x : Instance Ω c) : Act Ω Wire :=
  match sv.exporter c with
  | none => wrapObject x
  | some exporter =>
    match sv.binding c with
    | some binding =>
      (do
        let fields ← fieldsOf exporter x.object
        Act.thenDrop (do
          let w ← Act.ofExcept (binding.construct c.name fields)
          Act.retain w.refs
          return w) (Wire.refsAll fields)).thenDrop x.refs
    | none => if sv.wrapFallback c then wrapObject x else (Act.fail (.unboundType c.name)).orDrop x.refs

/-- Convert a native value of type `t` to a boundary value. -/
def toWireWith (sv : Services Ω) (fieldsOf : FieldsOf Ω) : (t : NativeType) → t.Value Ω → Act Ω Wire
  | .unit, _ => pure .undefined
  | .bool, b => pure (.bool b)
  | .char, c => pure (.text (Char.toString c))
  | .int k, x =>
    if k.toInt x ≤ IntKind.int64.high then pure (.int (Int64.ofInt (k.toInt x)))
    else Act.fail (.mismatch "int" (k.name ++ " " ++ toString (k.toInt x)))
  | .float _, x => pure (.float x)
  | .text, s => pure (.text s)
  | .staticText, s => pure (.text s)
  | .any, w => pure w
  | .callback, c => pure (.function (Callback.detach c))
  | .pointer, p => pure (.pointer p)
  | .vector t, xs => do return .array (← listToWire t.refs (toWireWith sv fieldsOf t) xs)
  | .array t _, xs => do return .array (← listToWire t.refs (toWireWith sv fieldsOf t) (Vector.toList xs))
  | .optional t, x =>
    match x with
    | some x => toWireWith sv fieldsOf t x
    | none => pure .null
  | .object _, x => objectToWire sv fieldsOf x
  | .handle .unique _, x => wrapObject x
  | .handle .shared c, a => wrapShared c a .none
  | .handle .constShared c, a => wrapShared c a .const
  | .handle .borrowed c, a => wrapBorrowed c a .none
  | .handle .constBorrowed c, a => wrapBorrowed c a .const
  | .result t, x =>
    match x with
    | .ok x => toWireWith sv fieldsOf t x
    | .error message => Act.fail (.native message)

/-- Convert the fields of a tuple one after another. -/
def typedToWire (sv : Services Ω) (fieldsOf : FieldsOf Ω) (xs : List (Typed Ω)) : Act Ω (List Wire) :=
  listToWire (fun x => x.type.refs x.value) (fun x => toWireWith sv fieldsOf x.type x.value) xs

/-- Run an export to its end. The fields may be emitted once only. -/
def runExport (sv : Services Ω) (fieldsOf : FieldsOf Ω) (c : Class) :
    ExportScript Ω → Option (List Wire) → Act Ω (List Wire)
  | .done (.ok ()), some fields => pure fields
  | .done (.ok ()), none => Act.fail (.native (c.name ++ " export emitted no value"))
  | .done (.error e), fields => (Act.fail e).orDrop (Wire.refsAll (fields.getD []))
  | .emit _ next, some fields =>
    runExport sv fieldsOf c (next (.error (.native "value exported more than once"))) (some fields)
  | .emit xs next, none => do
    let made ← Act.attempt do
      Act.retain (xs.flatMap fun x => x.type.refs x.value)
      typedToWire sv fieldsOf xs
    match made with
    | .ok fields => runExport sv fieldsOf c (next (.ok ())) (some fields)
    | .error e => runExport sv fieldsOf c (next (.error e)) none

/-- The exported fields of an object, if exports nest at most `depth` deep. -/
def fieldsAt (sv : Services Ω) : Nat → FieldsOf Ω
  | 0, _, _ => throw .nesting
  | depth + 1, exporter, o =>
    runExport sv (fieldsAt sv depth) (ObjectModel.classOf o) (exporter.script o) none

/-- The exported fields of an object, with exports nested as deep as its exporter says. -/
def fields (sv : Services Ω) : FieldsOf Ω := fun exporter o =>
  fieldsAt sv (exporter.depth o) exporter o

/-- Convert a native value of type `t` to a boundary value. -/
def toWire (sv : Services Ω) (t : NativeType) (x : t.Value Ω) : Act Ω Wire :=
  toWireWith sv (fields sv) t x

end NativeBridge.Convert
