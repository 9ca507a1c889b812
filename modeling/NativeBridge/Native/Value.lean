import NativeBridge.Native.Type
import NativeBridge.Object.Model
/-!
# Native values

What a native type means: `t.Value Ω` is the type of the native values of `t` in a program with objects `Ω`.
Integers are machine words, objects come with the proof that they are of their class, and a handle is the
address of an object.
-/
namespace NativeBridge

namespace IntKind

/-- The machine word of an integer type. -/
@[reducible] def Word : IntKind → Type
  | .int8 => Int8
  | .int16 => Int16
  | .int32 => Int32
  | .int64 => Int64
  | .intSize => Int64
  | .uint8 => UInt8
  | .uint16 => UInt16
  | .uint32 => UInt32
  | .uint64 => UInt64
  | .uintSize => UInt64

/-- The integer that a word stands for. -/
def toInt : (k : IntKind) → k.Word → Int
  | .int8, w => Int8.toInt w
  | .int16, w => Int16.toInt w
  | .int32, w => Int32.toInt w
  | .int64, w => Int64.toInt w
  | .intSize, w => Int64.toInt w
  | .uint8, w => (UInt8.toNat w : Nat)
  | .uint16, w => (UInt16.toNat w : Nat)
  | .uint32, w => (UInt32.toNat w : Nat)
  | .uint64, w => (UInt64.toNat w : Nat)
  | .uintSize, w => (UInt64.toNat w : Nat)

/-- The word of an integer, modulo the width of the word. -/
def ofInt : (k : IntKind) → Int → k.Word
  | .int8, n => Int8.ofInt n
  | .int16, n => Int16.ofInt n
  | .int32, n => Int32.ofInt n
  | .int64, n => Int64.ofInt n
  | .intSize, n => Int64.ofInt n
  | .uint8, n => UInt8.ofInt n
  | .uint16, n => UInt16.ofInt n
  | .uint32, n => UInt32.ofInt n
  | .uint64, n => UInt64.ofInt n
  | .uintSize, n => UInt64.ofInt n

/-- The word of an integer that the type can hold. -/
def ofInt? (k : IntKind) (n : Int) : Option k.Word :=
  if k.low ≤ n ∧ n ≤ k.high then some (k.ofInt n) else none

end IntKind

namespace NativeType
variable (Ω : Type) [ObjectModel Ω]

/-- The native values of a type. A single-precision number is held as the double of the same value. -/
@[reducible] def Value : NativeType → Type
  | .unit => Unit
  | .bool => Bool
  | .char => Char
  | .int k => k.Word
  | .float _ => Binary64
  | .text => String
  | .staticText => String
  | .any => Wire
  | .callback => Callback
  | .pointer => Pointer
  | .vector t => List (Value t)
  | .array t n => Vector (Value t) n
  | .optional t => Option (Value t)
  | .object c => Instance Ω c
  | .handle .unique c => Instance Ω c
  | .handle _ _ => Address
  | .result t => Except String (Value t)

variable {Ω}

/-- The strong references that a native value holds. -/
def refs : (t : NativeType) → t.Value Ω → List Address
  | .any, w => Wire.refs w
  | .pointer, p => Pointer.refs p
  | .vector t, xs => List.flatMap t.refs xs
  | .array t _, xs => List.flatMap t.refs (Vector.toList xs)
  | .optional t, x => match x with
    | none => []
    | some x => t.refs x
  | .object _, x => Instance.refs x
  | .handle .unique _, x => Instance.refs x
  | .handle .shared _, a => [a]
  | .handle .constShared _, a => [a]
  | .handle .borrowed _, _ => []
  | .handle .constBorrowed _, _ => []
  | .result t, x => match x with
    | .error _ => []
    | .ok x => t.refs x
  | .unit, _ => []
  | .bool, _ => []
  | .char, _ => []
  | .int _, _ => []
  | .float _, _ => []
  | .text, _ => []
  | .staticText, _ => []
  | .callback, _ => []

variable (Ω)

/-- The native values of a list of types. -/
@[reducible] def Values : List NativeType → Type
  | [] => Unit
  | t :: ts => t.Value Ω × Values ts

/-- Native values of which some are still to be had. -/
@[reducible] def PartialValues : List NativeType → Type
  | [] => Unit
  | t :: ts => Option (t.Value Ω) × PartialValues ts

/-- Functions that take native values of the listed types one after another. -/
@[reducible] def Curried : List NativeType → Type → Type
  | [], α => α
  | t :: ts, α => t.Value Ω → Curried ts α

variable {Ω}

def valuesRefs : (ts : List NativeType) → Values Ω ts → List Address
  | [], _ => []
  | t :: ts, (x, xs) => t.refs x ++ valuesRefs ts xs

def partialRefs : (ts : List NativeType) → PartialValues Ω ts → List Address
  | [], _ => []
  | t :: ts, (x, xs) => (match x with | some x => t.refs x | none => []) ++ partialRefs ts xs

/-- A function of one argument after another as a function of all. -/
def uncurry {α : Type} : (ts : List NativeType) → Curried Ω ts α → Values Ω ts → α
  | [], f, _ => f
  | _ :: ts, f, (x, xs) => uncurry ts (f x) xs

end NativeType

/-- A native value together with its type. -/
structure Typed (Ω : Type) [ObjectModel Ω] where
  type : NativeType
  value : type.Value Ω

end NativeBridge
