import NativeBridge.Registry.Basic
/-!
# Configuration
-/
namespace NativeBridge

/-- A property that the engine is started with. -/
inductive EngineProperty where
  /-- Check arguments on every call, not only where arity leaves a choice. -/
  | strictTypeChecks
  /-- Turn panics of native code into errors. -/
  | catchNativePanics
  /-- Wrap value types that have no host binding. -/
  | valueTypeFallback
  /-- Give value types the record binding unless the host binds them. -/
  | defaultRecordBinding
  /-- The greatest number of arguments of an overload. -/
  | maxArity
deriving DecidableEq, Repr

namespace EngineProperty

/-- All properties, in the order in which they are listed. -/
def all : List EngineProperty :=
  [.strictTypeChecks, .catchNativePanics, .valueTypeFallback, .defaultRecordBinding, .maxArity]

def name : EngineProperty → String
  | .strictTypeChecks => "StrictTypeChecks"
  | .catchNativePanics => "CatchNativePanics"
  | .valueTypeFallback => "ValueTypeFallback"
  | .defaultRecordBinding => "DefaultRecordBinding"
  | .maxArity => "MaxArity"

def ofName? (s : String) : Option EngineProperty :=
  all.find? (·.name = s)

def default : EngineProperty → Nat
  | .strictTypeChecks => 0
  | .catchNativePanics => 1
  | .valueTypeFallback => 1
  | .defaultRecordBinding => 1
  | .maxArity => 16

end EngineProperty

/-- The value of every property. -/
structure EngineConfig where
  value : EngineProperty → Nat

namespace EngineConfig

def new : EngineConfig := ⟨EngineProperty.default⟩

def set (c : EngineConfig) (p : EngineProperty) (n : Nat) : EngineConfig :=
  ⟨fun q => if q = p then n else c.value q⟩

/-- A property taken as a switch: on unless it is zero. -/
def isOn (c : EngineConfig) (p : EngineProperty) : Bool :=
  c.value p ≠ 0

def maxArity (c : EngineConfig) : Nat :=
  c.value .maxArity

end EngineConfig
end NativeBridge
