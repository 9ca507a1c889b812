import NativeBridge.Handle
/-!
# Errors

A call fails for one of seven reasons, a declaration for one of six. Each has one wording.
-/
namespace NativeBridge

/-- Why a call failed. -/
inductive CallError where
  /-- No overload of the group takes so many arguments. -/
  | arityMismatch (name : String) (count : Nat)
  /-- A value has the wrong dynamic type; its position is known when it was an argument. -/
  | typeMismatch (expected actual : String) (argument : Option Nat)
  /-- A const wrapper where mutable access is needed. -/
  | constViolation (detail : String)
  /-- The wrapper is released, or its borrowed object is gone. -/
  | useAfterFree (handle : Handle)
  /-- A value type without host binding that may not be wrapped either. -/
  | unboundType (name : String)
  /-- Native code failed or panicked. -/
  | native (message : String)
  /-- No such entry point. -/
  | unknownEntry (name : String)
deriving DecidableEq, Repr, Inhabited

namespace CallError

/-- A type mismatch at no known position. -/
def mismatch (expected actual : String) : CallError :=
  .typeMismatch expected actual none

/-- Give a type mismatch the position of the argument, unless it has one. -/
def atArgument (index : Nat) : CallError → CallError
  | .typeMismatch expected actual none => .typeMismatch expected actual (some index)
  | e => e

def kind : CallError → String
  | .arityMismatch .. => "ArityMismatch"
  | .typeMismatch .. => "TypeMismatch"
  | .constViolation .. => "ConstViolation"
  | .useAfterFree .. => "UseAfterFree"
  | .unboundType .. => "UnboundType"
  | .native .. => "NativeException"
  | .unknownEntry .. => "UnknownEntry"

def message : CallError → String
  | .arityMismatch name count =>
    "no overload of '" ++ name ++ "' takes " ++ toString count ++ " argument(s)"
  | .typeMismatch expected actual argument =>
    let position := match argument with
      | none => ""
      | some i => " in argument " ++ toString i
    "type mismatch" ++ position ++ ": expected " ++ expected ++ ", got " ++ actual
  | .constViolation detail => "const violation: " ++ detail
  | .useAfterFree handle => "use after free: wrapper " ++ handle.text ++ " is no longer live"
  | .unboundType name => "no value binding registered for '" ++ name ++ "'"
  | .native message => "native exception: " ++ message
  | .unknownEntry name => "unknown entry '" ++ name ++ "'"

end CallError

/-- Why a declaration was refused. -/
inductive RegistrationError where
  | duplicateClass (name : String)
  | unknownClass (name : String)
  /-- The group already has an overload of this arity. -/
  | duplicateArity (name : String) (arity : Nat)
  | arityLimit (name : String) (arity max : Nat)
  /-- The class is its own ancestor. -/
  | inheritanceCycle (name : String)
  /-- The declarations are closed. -/
  | alreadyInitialized
deriving DecidableEq, Repr, Inhabited

namespace RegistrationError

def kind : RegistrationError → String
  | .duplicateClass .. => "DuplicateClass"
  | .unknownClass .. => "UnknownClass"
  | .duplicateArity .. => "DuplicateArity"
  | .arityLimit .. => "ArityLimit"
  | .inheritanceCycle .. => "InheritanceCycle"
  | .alreadyInitialized => "AlreadyInitialized"

def message : RegistrationError → String
  | .duplicateClass name => "class '" ++ name ++ "' is already declared"
  | .unknownClass name => "unknown class '" ++ name ++ "'"
  | .duplicateArity name arity =>
    "'" ++ name ++ "' already has an overload taking " ++ toString arity ++ " argument(s)"
  | .arityLimit name arity max =>
    "'" ++ name ++ "' takes " ++ toString arity ++ " argument(s), the limit is " ++ toString max
  | .inheritanceCycle name => "inheritance cycle through '" ++ name ++ "'"
  | .alreadyInitialized => "the engine is already initialized"

end RegistrationError
end NativeBridge
