import NativeBridge.Engine.Config
import NativeBridge.Native.ValueSlot
import NativeBridge.Session.Dump
import NativeBridge.Session.Request
/-!
# Requests about single values

Hashes, errors, boundary values, types, slots, kinds, flags and configurations: what can be asked without
declaring anything.
-/
namespace NativeBridge.Session
open Catalog

/-! ## Hashes and errors -/

def hashAnswer (d : Doc) : Doc :=
  let name := d.textAt "name"
  let owner : NameHash := ⟨UInt64.ofNat (Hex.parse (d.textAt "owner"))⟩
  let arity := d.wordAt "arity"
  let h : NameHash := match d.textAt "fn" with
    | "name" => .ofName name
    | "function" => .ofFunction name arity
    | "member" => .ofMember owner name arity
    | "constructor" => .ofConstructor owner arity
    | _ => owner
  .fields [("hash", .text h.text), ("debug", .text h.outline), ("empty", .bool h.isEmpty)]

/-- The position that a type mismatch carries. -/
def positionDoc : CallError → Doc
  | .typeMismatch _ _ argument => .optional .ofNat argument
  | _ => .text "none"

def errorAnswer (d : Doc) : Doc :=
  let err := d.field "err"
  match callErrorOf? err with
  | some e =>
    let e := (d.itemsAt "at").foldl (fun e i => e.atArgument (i.asWord?.getD 0).toNat) e
    .fields [("answer", e.report), ("wrapped", .text e.message), ("argument", positionDoc e)]
  | none =>
    let e := registrationErrorOf err
    .fields [("answer", e.report), ("wrapped", .text e.message)]

/-! ## Boundary values -/

/-- The number of a value, whether it is an integer or a float. -/
def floatDoc : Wire → Doc
  | .float x => x.report
  | .int n => (Binary64.ofInt n).report
  | _ => .null

def wireDoc (a : Wire) : List (String × Doc) :=
  [("kind", .text a.typeName),
   ("undefined", .bool (match a with | .undefined => true | _ => false)), ("nullish", .bool a.isNullish),
   ("int", .optional (fun n => .int n.toInt) a.asInt?), ("float", floatDoc a),
   ("bool", match a with | .bool b => .bool b | _ => .null),
   ("str", match a with | .text s => .text s | _ => .null),
   ("object", match a with | .object h => .text h.text | _ => .null),
   ("record", match a with | .record c _ => .text c | _ => .null),
   ("array", match a with | .array ws => .ofNat ws.length | _ => .null),
   ("debug", .text a.outline), ("echo", a.report)]

def equalityDoc (a b : Wire) : Doc :=
  .list [.bool (a.equal b), .bool (b.equal a), .bool (a.typeName == b.typeName), .bool (a.equal a)]

def wireAnswer (d : Doc) : Action Doc := do
  let a ← wireOf (d.field "a")
  match d.field? "b" with
  | none => return .fields (wireDoc a)
  | some other => return .fields (wireDoc a ++ [("eq", equalityDoc a (← wireOf other))])

/-- An integer by way of 32 bits. -/
def narrowed (d : Doc) : Wire :=
  .int (d.asInt64?.getD 0).toInt32.toInt64

/-- A boundary value made from a plain value of the named kind. -/
def fromAnswer (d : Doc) : Action Doc := do
  let value := d.field "value"
  let w : Wire ← match d.textAt "type", value with
    | "handle", v => pure (.object (handleOf v))
    | "fn", .text name => pure (.function (functionOf name))
    | "f64", .int n => pure (.float (floatOf (.int n)))
    | "i32", .int n => pure (narrowed (.int n))
    | "Vec<i32>", .list ds => pure (.array (ds.map narrowed))
    | _, v => wireOf v
  return w.report

/-! ## Types -/

def typeAnswer (d : Doc) : Action Doc := do
  let entry := (typeNamed? (d.textAt "type")).getD ⟨"()", .unit, true⟩
  let values ← wiresOf (d.itemsAt "values")
  return .fields
    [("info", infoDoc entry.type.info), ("accepts", .list (values.map fun w => .bool (entry.type.accepts w))),
     ("consumes", if entry.argument then .bool entry.type.consumes else .null)]

/-! ## Slots, kinds, flags -/

def slotStep (d : Doc) (slot : ValueSlot Int64) : Doc × ValueSlot Int64 :=
  let show? (v : Option Int64) : Doc := .optional (fun n => .int n.toInt) v
  match d.textAt "do" with
  | "construct" =>
    let (old, slot) := slot.construct (d.intAt "value")
    (show? old, slot)
  | "get" => (show? slot, slot)
  | "is" => (.bool slot.isSome, slot)
  | "into_inner" => (show? slot, none)
  | "debug" => (.text (slot.outline fun n => toString n.toInt), slot)
  | _ => (.null, slot)

def memberKindAnswer (d : Doc) : Doc :=
  let n := (d.intAt "value").toUInt64.toUInt8.toNat
  match MemberKind.ofNumber? n with
  | some k =>
    .fields [("name", .text k.name), ("static", .bool k.isStatic), ("byte", .ofNat k.number),
      ("debug", .text k.outline)]
  | none =>
    .failure "TryFromPrimitiveError" ("No discriminant in enum `MemberKind` matches the value `"
      ++ toString n ++ "`")

def flagsAnswer (d : Doc) : Doc :=
  let f := flagsAt d "bits"
  let g := flagsAt d "other"
  let p := PrimitiveFlags.ofWord (d.wordAt "bits")
  .fields
    [("bits", flagsDoc f), ("debug", .text f.outline), ("minus", flagsDoc (f.diff g)),
     ("or", flagsDoc (f.union g)), ("contains", .bool (f.contains g)),
     ("ownership", flagsDoc (f.inter .ownership)), ("primitive", .ofNat p.toNat),
     ("primitive_debug", .text p.outline)]

/-! ## Configurations -/

def configDoc (c : EngineConfig) : Doc :=
  .fields
    [("strict", .bool (c.isOn .strictTypeChecks)), ("catch", .bool (c.isOn .catchNativePanics)),
     ("fallback", .bool (c.isOn .valueTypeFallback)), ("record", .bool (c.isOn .defaultRecordBinding)),
     ("max_arity", .ofNat c.maxArity), ("raw", .ofNats (EngineProperty.all.map c.value))]

def configStep (d : Doc) (c : EngineConfig) : Doc × EngineConfig :=
  match EngineProperty.ofName? (d.textAt "property") with
  | none => (.null, c)
  | some p =>
    if d.has "value" then
      let c := c.set p (d.wordAt "value").toNat
      (configDoc c, c)
    else (.ofNats [c.value p, p.default], c)

def configAnswer (d : Doc) : Doc :=
  let (answers, c) := runSteps configStep (d.itemsAt "steps") .new
  .fields [("steps", .list answers), ("end", configDoc c)]

end NativeBridge.Session
