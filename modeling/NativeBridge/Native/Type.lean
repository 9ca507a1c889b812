import NativeBridge.Flags
import NativeBridge.Native.Class
/-!
# Native types

The types that may stand in a native signature. A type is also its own identity, except that a result is
identified with the value it carries (`NativeType.token`).
-/
namespace NativeBridge

/-- The integer types. The last of each sign is as wide as an address. -/
inductive IntKind where
  | int8 | int16 | int32 | int64 | intSize
  | uint8 | uint16 | uint32 | uint64 | uintSize
deriving DecidableEq, Repr

namespace IntKind

def name : IntKind → String
  | .int8 => "int8"
  | .int16 => "int16"
  | .int32 => "int"
  | .int64 => "int64"
  | .intSize => "isize"
  | .uint8 => "uint8"
  | .uint16 => "uint16"
  | .uint32 => "uint"
  | .uint64 => "uint64"
  | .uintSize => "usize"

/-- The name that diagnostics use: a letter for the sign, and the width. -/
def qualified : IntKind → String
  | .int8 => "i8"
  | .int16 => "i16"
  | .int32 => "i32"
  | .int64 => "i64"
  | .intSize => "isize"
  | .uint8 => "u8"
  | .uint16 => "u16"
  | .uint32 => "u32"
  | .uint64 => "u64"
  | .uintSize => "usize"

def signed : IntKind → Bool
  | .int8 | .int16 | .int32 | .int64 | .intSize => true
  | .uint8 | .uint16 | .uint32 | .uint64 | .uintSize => false

def bytes : IntKind → Nat
  | .int8 | .uint8 => 1
  | .int16 | .uint16 => 2
  | .int32 | .uint32 => 4
  | .int64 | .intSize | .uint64 | .uintSize => 8

/-- Half the number of values of the width: the weight of the highest bit. -/
def half (k : IntKind) : Int :=
  ((1 <<< (8 * k.bytes - 1) : Nat) : Int)

/-- The least value. -/
def low (k : IntKind) : Int :=
  if k.signed then -k.half else 0

/-- The greatest value. -/
def high (k : IntKind) : Int :=
  if k.signed then k.half - 1 else 2 * k.half - 1

end IntKind

/-- The floating-point types. -/
inductive FloatKind where
  | single
  | double
deriving DecidableEq, Repr

def FloatKind.name : FloatKind → String
  | .single => "float"
  | .double => "double"

def FloatKind.qualified : FloatKind → String
  | .single => "f32"
  | .double => "f64"

def FloatKind.bytes : FloatKind → Nat
  | .single => 4
  | .double => 8

/-- How a signature holds an object that it does not take by value. -/
inductive HandleKind where
  /-- Shared ownership. -/
  | shared
  /-- No ownership: the object may disappear. -/
  | borrowed
  /-- Exclusive ownership, which moves. -/
  | unique
  /-- Shared ownership, read only. -/
  | constShared
  /-- No ownership, read only. -/
  | constBorrowed
deriving DecidableEq, Repr

namespace HandleKind

/-- What the class name is followed by in the type's name. -/
def suffix : HandleKind → String
  | .shared => "@"
  | .borrowed => "&"
  | .unique => "!"
  | .constShared => " const@"
  | .constBorrowed => " const&"

/-- The qualified name of a handle to the class of a qualified name. -/
def qualified (k : HandleKind) (cls : String) : String :=
  let holding (how what : String) : String := "tether_core::native::" ++ how ++ "<" ++ what ++ ">"
  match k with
  | .shared => holding "Shared" cls
  | .borrowed => holding "Borrowed" cls
  | .unique => holding "Unique" cls
  | .constShared => holding "Const" (holding "Shared" cls)
  | .constBorrowed => holding "Const" (holding "Borrowed" cls)

def flags : HandleKind → TypeFlags
  | .shared => .shared
  | .borrowed => .pointer
  | .unique => .unique
  | .constShared => TypeFlags.shared.union .const
  | .constBorrowed => TypeFlags.pointer.union .const

end HandleKind

/-- A type of a native signature. -/
inductive NativeType where
  | unit
  | bool
  | char
  | int (kind : IntKind)
  | float (kind : FloatKind)
  | text
  /-- Text that lives as long as the program: a result, never an argument. -/
  | staticText
  /-- Any boundary value, unconverted. -/
  | any
  | callback
  | pointer
  | vector (item : NativeType)
  | array (item : NativeType) (length : Nat)
  | optional (item : NativeType)
  /-- An object by value. -/
  | object (cls : Class)
  | handle (kind : HandleKind) (cls : Class)
  /-- A value or an error text. -/
  | result (item : NativeType)
deriving DecidableEq, Repr, Inhabited

namespace NativeType

/-- The identity of a type: a result stands for its value. -/
def token : NativeType → NativeType
  | .result t => t.token
  | t => t

/-- The display name. -/
def name : NativeType → String
  | .unit => "void"
  | .bool => "bool"
  | .char => "char"
  | .int k => k.name
  | .float k => k.name
  | .text | .staticText => "string"
  | .any => "any"
  | .callback => "function"
  | .pointer => "pointer"
  | .vector t => "array<" ++ t.name ++ ">"
  | .array t n => t.name ++ "[" ++ toString n ++ "]"
  | .optional t => t.name ++ "?"
  | .object c => c.name
  | .handle k c => c.name ++ k.suffix
  | .result t => t.name

/-- The qualified name that diagnostics use. Types with equal display names differ by it. -/
def qualified : NativeType → String
  | .unit => "()"
  | .bool => "bool"
  | .char => "char"
  | .int k => k.qualified
  | .float k => k.qualified
  | .text => "alloc::string::String"
  | .staticText => "&str"
  | .any => "tether_core::wire::WireValue"
  | .callback => "tether_core::runtime::callback::Callback"
  | .pointer => "tether_core::native::NativePointer"
  | .vector t => "alloc::vec::Vec<" ++ t.qualified ++ ">"
  | .array t n => "[" ++ t.qualified ++ "; " ++ toString n ++ "]"
  | .optional t => "core::option::Option<" ++ t.qualified ++ ">"
  | .object c => c.qualified
  | .handle k c => k.qualified c.qualified
  | .result t => "core::result::Result<" ++ t.qualified ++ ", alloc::string::String>"

def layout : NativeType → Layout
  | .unit => ⟨0, 1, 0⟩
  | .bool => ⟨1, 1, 254⟩
  | .char => ⟨4, 4, 0xffef0000⟩
  | .int k => .word k.bytes
  | .float k => .word k.bytes
  | .text => .buffer
  | .staticText => ⟨16, 8, 1⟩
  | .any => ⟨80, 8, 0x7ffffffffffffff5⟩
  | .callback => ⟨24, 8, 1⟩
  | .pointer => ⟨80, 8, 1⟩
  | .vector _ => .buffer
  | .array t n => t.layout.array n
  | .optional t => t.layout.optional
  | .object c => c.layout
  | .handle .unique c => c.layout
  | .handle _ _ => .reference
  | .result t => t.layout.orText

/-- A type as a class. Any type can be declared under a name, though only objects of classes can be made. -/
def asClass (t : NativeType) : Class :=
  match t.token with
  | .object c => c
  | t => ⟨t.name, t.qualified, t.layout⟩

/-- Whether converting an argument of this type moves an object out of the object table. -/
def consumes : NativeType → Bool
  | .handle .unique _ => true
  | .vector t => t.consumes
  | .array t _ => t.consumes
  | .optional t => t.consumes
  | _ => false

end NativeType
end NativeBridge
