import NativeBridge.Call.Body
import NativeBridge.Native.Value
/-!
# What conversions ask of the engine

A conversion looks classes up, follows upcasts, and sends value objects through the host's binding of their
class. Value objects travel as their constructor arguments: the native side exports them in one go, the host
side builds a value from them, and an import feeds them to a constructor again.
-/
namespace NativeBridge

/-- How the host reads a value of a class: it ends, or hands over constructor arguments and goes on with
what became of them. -/
inductive ImportScript where
  | done (outcome : Except CallError Unit)
  | emit (fields : List Wire) (next : Except CallError Unit → ImportScript)

/-- The host's half of a value type. -/
structure HostBinding where
  /-- Build the boundary value of an object of the named class from its fields. -/
  construct : String → List Wire → Except CallError Wire
  /-- Read a boundary value as an object of the named class. -/
  read : String → Wire → ImportScript

/-- Values travel as records. A plain array is read too, as the constructor's arguments. -/
def HostBinding.record : HostBinding where
  construct name fields := .ok (.record name fields)
  read name
    | .record cls fields =>
      if cls = name then .emit fields .done else .done (.error (.mismatch name cls))
    | .array items => .emit items .done
    | w => .done (.error (.mismatch name w.typeName))

variable (Ω : Type) [ObjectModel Ω]

/-- How an object gives its constructor arguments: it ends, or emits them and goes on with what became of
them. -/
inductive ExportScript where
  | done (outcome : Except CallError Unit)
  | emit (fields : List (Typed Ω)) (next : Except CallError Unit → ExportScript)

/-- The native half of a value type. -/
structure Exporter where
  script : Ω → ExportScript Ω
  /-- How deeply the exports of the objects among the fields may nest, this one included. -/
  depth : Ω → Nat

/-- The engine as conversions see it. -/
structure Services where
  /-- The name under which a class is known. -/
  className : Class → Option String
  upcastPath : Class → Class → Option (List (Upcast Ω))
  /-- The native half of a class that is declared as a value type. -/
  exporter : Class → Option (Exporter Ω)
  /-- The host's half of a value type. -/
  binding : Class → Option HostBinding
  /-- Whether a value without binding may be wrapped instead. -/
  wrapFallback : Class → Bool
  /-- Run the constructor of a class, in the call in progress. The arguments are given up. -/
  construct : Class → List Wire → Act Ω Pointer
  host : HostBehaviour

end NativeBridge
