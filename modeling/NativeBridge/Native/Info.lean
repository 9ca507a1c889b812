import NativeBridge.Native.Type
/-!
# Type metadata

What the type registry records of a type, and the order in which a type describes itself: its parts come
before it (`NativeType.describe`).
-/
namespace NativeBridge

/-- The classification of a type. Element types are given by their identity. -/
inductive TypeCategory where
  | void
  | primitive (flags : PrimitiveFlags)
  | text
  | vector (item : NativeType)
  | fixedArray (item : NativeType) (length : Nat)
  | optional (item : NativeType)
  | object
  | handle (cls : Class) (flags : TypeFlags)
  | callback
  | pointer
  | dynamic
deriving DecidableEq, Repr, Inhabited

/-- The metadata of one type. -/
structure TypeInfo where
  token : NativeType
  name : String
  size : Nat
  category : TypeCategory
deriving DecidableEq, Repr, Inhabited

namespace NativeType

def category : NativeType → TypeCategory
  | .unit => .void
  | .bool => .primitive .none
  | .char => .primitive (PrimitiveFlags.char.union .unsigned)
  | .int k => .primitive (if k.signed then .none else .unsigned)
  | .float _ => .primitive .float
  | .text | .staticText => .text
  | .any => .dynamic
  | .callback => .callback
  | .pointer => .pointer
  | .vector t => .vector t.token
  | .array t n => .fixedArray t.token n
  | .optional t => .optional t.token
  | .object _ => .object
  | .handle k c => .handle c k.flags
  | .result t => t.category

/-- The metadata of a type; a result has that of its value. -/
def info (t : NativeType) : TypeInfo :=
  ⟨t.token, t.name, t.token.layout.size, t.category⟩

/-- The metadata that a type registers: that of its parts first. -/
def describe : NativeType → List TypeInfo
  | .vector t => t.describe ++ [(NativeType.vector t).info]
  | .array t n => t.describe ++ [(NativeType.array t n).info]
  | .optional t => t.describe ++ [(NativeType.optional t).info]
  | .handle k c => [(NativeType.object c).info, (NativeType.handle k c).info]
  | .result t => t.describe
  | t => [t.info]

end NativeType

namespace TypeInfo

def primitive? (i : TypeInfo) : Option PrimitiveFlags :=
  match i.category with
  | .primitive flags => some flags
  | _ => none

/-- The class that the type refers to. -/
def class? (i : TypeInfo) : Option Class :=
  match i.category, i.token with
  | .object, .object c => some c
  | .handle c _, _ => some c
  | _, _ => none

end TypeInfo

/-- The metadata of a class, by value. -/
def Class.info (c : Class) : TypeInfo :=
  (NativeType.object c).info

end NativeBridge
