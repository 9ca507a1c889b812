import NativeBridge.Catalog.Host
import NativeBridge.Catalog.Types
import NativeBridge.Registry.Class
/-!
# Requests

Reading the parts of a request: boundary values, handles, errors, shapes and kinds. A boundary value may
name one of the session's pointers, to copy it or to move it out of the session.
-/
namespace NativeBridge.Session
open Catalog

/-- The actions of a session. -/
abbrev Action := Act Specimen

/-- The state of a session. -/
abbrev State := Boundary Specimen

/-! ## Named pointers -/

def pointer? (b : State) (name : String) : Option Pointer :=
  b.pointers.lookup name

def forget (name : String) (pointers : List (String × Pointer)) : List (String × Pointer) :=
  pointers.filter (·.1 ≠ name)

/-- Name a pointer whose reference is held; the pointer of that name before is given up. -/
def keepPointer (name : String) (p : Pointer) : Action Unit := do
  let old := ((pointer? (← get) name).map Pointer.refs).getD []
  modify fun b => { b with pointers := (name, p) :: forget name b.pointers }
  Act.drop old

/-- A copy of a named pointer, with a reference of its own. -/
def copyPointer (name : String) : Action (Option Pointer) := do
  let p := pointer? (← get) name
  Act.retain ((p.map Pointer.refs).getD [])
  return p

/-- Move a named pointer out of the session. -/
def takePointer (name : String) : Action (Option Pointer) := do
  let p := pointer? (← get) name
  modify fun b => { b with pointers := forget name b.pointers }
  return p

/-- Forget a named pointer; tells whether there was one. -/
def dropPointer (name : String) : Action Bool := do
  let p ← takePointer name
  Act.drop ((p.map Pointer.refs).getD [])
  return p.isSome

/-! ## Boundary values -/

/-- A handle from its index and generation. What is missing is zero, what is too large loses its high
bits. -/
def handleOf (d : Doc) : Handle :=
  let part (i : Nat) : UInt32 := (((d.items[i]?.bind Doc.asWord?).getD 0)).toUInt32
  ⟨(part 0).toNat, part 1⟩

/-- The host function of a name: within a session the same name is the same function. -/
def functionOf (name : String) : Callback :=
  ⟨⟨name, 0⟩, none⟩

def floatOf (d : Doc) : Binary64 :=
  match d with
  | .text "nan" => ⟨0x7ff8000000000000⟩
  | .text digits => ⟨UInt64.ofNat (Hex.parse digits)⟩
  | d => Binary64.ofInt (d.asInt64?.getD 0)

def pointerWire (p : Option Pointer) : Wire :=
  (p.map Wire.pointer).getD .undefined

mutual

/-- Read a boundary value. -/
def wireOf : Doc → Action Wire
  | .null => pure .null
  | .bool b => pure (.bool b)
  | .int n => pure (.int ((Doc.int n).asInt64?.getD 0))
  | .text s => pure (.text s)
  | .list ds => do return .array (← wiresOf ds)
  | .fields [("f", d)] => pure (.float (floatOf d))
  | .fields [("obj", d)] => pure (.object (handleOf d))
  | .fields [("fn", .text name)] => pure (.function (functionOf name))
  | .fields [("ptr", .text name)] => do return pointerWire (← copyPointer name)
  | .fields [("take", .text name)] => do return pointerWire (← takePointer name)
  | .fields [("fields", .list ds), ("rec", .text cls)] => do return .record cls (← wiresOf ds)
  | .fields [("rec", .text cls), ("fields", .list ds)] => do return .record cls (← wiresOf ds)
  | .fields [("rec", .text cls)] => pure (.record cls [])
  | .fields _ => pure .undefined

/-- Read boundary values from left to right. -/
def wiresOf : List Doc → Action (List Wire)
  | [] => pure []
  | d :: ds => do
    let w ← wireOf d
    return w :: (← wiresOf ds)

end

/-- The arguments of a step. -/
def argsAt (d : Doc) : Action (List Wire) :=
  wiresOf (d.itemsAt "args")

/-! ## Errors -/

/-- The error of a call that a request spells out. -/
def callErrorOf? (d : Doc) : Option CallError :=
  let name := d.textAt "name"
  match d.textAt "kind" with
  | "ArityMismatch" => some (.arityMismatch name (d.countAt "argc"))
  | "TypeMismatch" =>
    some (.typeMismatch (d.textAt "expected") (d.textAt "actual") ((d.wordAt? "argument").map UInt64.toNat))
  | "mismatch" => some (.mismatch (d.textAt "expected") (d.textAt "actual"))
  | "ConstViolation" => some (.constViolation (d.textAt "detail"))
  | "UseAfterFree" => some (.useAfterFree (handleOf (d.field "handle")))
  | "UnboundType" => some (.unboundType name)
  | "native" => some (.native (d.textAt "detail"))
  | "UnknownEntry" => some (.unknownEntry name)
  | _ => none

/-- The error of a declaration that a request spells out. -/
def registrationErrorOf (d : Doc) : RegistrationError :=
  let name := d.textAt "name"
  match d.textAt "kind" with
  | "DuplicateClass" => .duplicateClass name
  | "UnknownClass" => .unknownClass name
  | "DuplicateArity" => .duplicateArity name (d.countAt "arity")
  | "ArityLimit" => .arityLimit name (d.countAt "arity") (d.countAt "max")
  | "InheritanceCycle" => .inheritanceCycle name
  | _ => .alreadyInitialized

/-! ## Declarations -/

def typeAt (d : Doc) (name : String) : NativeType :=
  typeNamed (d.textAt name)

def classAt (d : Doc) (name : String) : Class :=
  classNamed (d.textAt name)

/-- The shape that a request spells out. -/
def shapeOf (d : Doc) : CallShape where
  receiver := (d.textAt? "receiver").map classNamed
  args := (d.textsAt "args").map typeNamed
  ret := if d.has "ret" then typeAt d "ret" else .unit

def flagsAt (d : Doc) (name : String) : TypeFlags :=
  .ofWord (d.wordAt name)

def kindAt (d : Doc) : MemberKind :=
  (MemberKind.ofName? (d.textAt "kind")).getD .method

def groupKeyOf (d : Doc) : GroupKey :=
  ⟨d.textAt "name", kindAt d⟩

def entryRefOf (d : Doc) : EntryRef :=
  ⟨d.indexAt "sig", d.indexAt "index"⟩

/-! ## Answers -/

/-- Run an action to its report. Its effects last also when it is cut short. -/
def settle (act : Action Doc) (b : State) : Doc × State :=
  match act b with
  | .ok d b => (d, b)
  | .error i b => (i.report, b)

/-- The outcome of an action that may fail. -/
def reported {α : Type} (f : α → Doc) (act : Action α) : Action Doc := do
  return reportOutcome f (← act.attempt)

/-- Run steps one after another on a state. -/
def runSteps {σ : Type} (step : Doc → σ → Doc × σ) : List Doc → σ → List Doc × σ
  | [], s => ([], s)
  | d :: ds, s =>
    let (answer, s) := step d s
    let (answers, s) := runSteps step ds s
    (answer :: answers, s)

/-- The answers of steps that change a state. -/
def answersOf {σ : Type} (step : Doc → σ → Doc × σ) (d : Doc) (start : σ) : Doc :=
  .fields [("steps", .list (runSteps step (d.itemsAt "steps") start).1)]

end NativeBridge.Session
