import NativeBridge.Decimal.Plain
import NativeBridge.Native.Class
import NativeBridge.Handle
import NativeBridge.Text.Quoted
import NativeBridge.Text.Outline
/-!
# Boundary values

The dynamically typed values that cross the boundary in both directions. A boundary value may hold strong
references to native objects: those of its pointers (`Wire.refs`).
-/
namespace NativeBridge

/-- The address of a native object's cell. Addresses are never reused. -/
abbrev Address := Nat

/-- A native object that is not bound to a wrapper, held strongly or weakly. -/
structure Pointer where
  cls : Class
  address : Address
  weak : Bool
deriving DecidableEq, Repr, Inhabited

/-- The strong references of a pointer. -/
def Pointer.refs (p : Pointer) : List Address :=
  if p.weak then [] else [p.address]

/-- A function of the host. Functions of one name are told apart by their serial number. -/
structure HostFunction where
  name : String
  serial : Nat
deriving DecidableEq, Repr, Inhabited

/-- The number of the error sink of one call. -/
abbrev SinkId := Nat

/-- A host function that native code can call. A scoped callback reports its failures to the sink of the
call it was handed to. -/
structure Callback where
  function : HostFunction
  sink : Option SinkId
deriving DecidableEq, Repr, Inhabited

namespace Callback

/-- The callback bound to the sink of a call. -/
def bindTo (c : Callback) (sink : SinkId) : Callback :=
  { c with sink := some sink }

/-- The callback bound to no call. -/
def detach (c : Callback) : Callback :=
  { c with sink := none }

def isScoped (c : Callback) : Bool :=
  c.sink.isSome

/-- Whether two callbacks are the same function. -/
def same (c d : Callback) : Bool :=
  c.function == d.function

def outline (c : Callback) : String :=
  Outline.openRecord "Callback" [("scoped", Outline.bool c.isScoped)]

end Callback

/-- A value at the boundary. -/
inductive Wire where
  /-- No value; the result of a call without one. -/
  | undefined
  | null
  | bool (value : Bool)
  | int (value : Int64)
  | float (value : Binary64)
  | text (value : String)
  | array (items : List Wire)
  /-- A host structure made of the fields that a value type exported. -/
  | record (cls : String) (fields : List Wire)
  /-- A wrapped native object. -/
  | object (handle : Handle)
  | function (callback : Callback)
  | pointer (pointer : Pointer)
deriving Inhabited, Repr

namespace Wire

/-- The name of a value's dynamic type. -/
def typeName : Wire → String
  | .undefined => "undefined"
  | .null => "null"
  | .bool _ => "bool"
  | .int _ => "int"
  | .float _ => "float"
  | .text _ => "string"
  | .array _ => "array"
  | .record .. => "record"
  | .object _ => "object"
  | .function _ => "function"
  | .pointer _ => "pointer"

/-- Neither value of the pair `undefined` and `null` carries data. -/
def isNullish : Wire → Bool
  | .undefined | .null => true
  | _ => false

def asInt? : Wire → Option Int64
  | .int n => some n
  | _ => none

mutual

/-- The strong references that a value holds. -/
def refs : Wire → List Address
  | .array items => refsAll items
  | .record _ fields => refsAll fields
  | .pointer p => p.refs
  | _ => []

def refsAll : List Wire → List Address
  | [] => []
  | w :: ws => w.refs ++ refsAll ws

end

mutual

/-- How deeply arrays and records nest in a value. -/
def depth : Wire → Nat
  | .array items => depthAll items + 1
  | .record _ fields => depthAll fields + 1
  | _ => 0

def depthAll : List Wire → Nat
  | [] => 0
  | w :: ws => max w.depth (depthAll ws)

end

mutual

/-- The equality of boundary values: numeric for floats, by identity for functions, by address for
pointers. An integer never equals a float. -/
def equal : Wire → Wire → Bool
  | .undefined, .undefined => true
  | .null, .null => true
  | .bool a, .bool b => a == b
  | .int a, .int b => a == b
  | .float a, .float b => a.equal b
  | .text a, .text b => a == b
  | .array a, .array b => equalAll a b
  | .record c a, .record d b => c == d && equalAll a b
  | .object a, .object b => a == b
  | .function a, .function b => a.same b
  | .pointer a, .pointer b => a.address == b.address
  | _, _ => false

def equalAll : List Wire → List Wire → Bool
  | [], [] => true
  | v :: vs, w :: ws => v.equal w && equalAll vs ws
  | _, _ => false

end

mutual

/-- A value as diagnostics show it. -/
def outline : Wire → String
  | .undefined => "Undefined"
  | .null => "Null"
  | .bool b => Outline.tuple "Bool" [Outline.bool b]
  | .int n => Outline.tuple "Int" [toString n.toInt]
  | .float x => Outline.tuple "Float" [x.plain]
  | .text s => Outline.tuple "String" [Text.quoted s]
  | .array items => Outline.tuple "Array" [Outline.sequence (outlineAll items)]
  | .record c fields => Outline.tuple "Record"
      [Outline.record "Record" [("class", Text.quoted c), ("fields", Outline.sequence (outlineAll fields))]]
  | .object h => Outline.tuple "Object" [h.text]
  | .function _ => "Function(..)"
  | .pointer p => Outline.tuple "Pointer" [p.cls.qualified]

def outlineAll : List Wire → List String
  | [] => []
  | w :: ws => w.outline :: outlineAll ws

end

end Wire
end NativeBridge
