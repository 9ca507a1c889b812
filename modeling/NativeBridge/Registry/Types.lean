import NativeBridge.Native.Info
/-!
# The type registry

The metadata of every type that a declaration uses, in the order of first use. A type is registered once:
later metadata for the same identity is ignored.
-/
namespace NativeBridge

/-- Registered types, in registration order. -/
structure TypeRegistry where
  infos : List TypeInfo
deriving Inhabited

namespace TypeRegistry

def empty : TypeRegistry := ⟨[]⟩

def lookup? (r : TypeRegistry) (token : NativeType) : Option TypeInfo :=
  r.infos.find? (·.token = token)

def contains (r : TypeRegistry) (token : NativeType) : Bool :=
  (r.lookup? token).isSome

/-- Record a type, unless its identity is known already. -/
def register (r : TypeRegistry) (info : TypeInfo) : TypeRegistry :=
  if r.contains info.token then r else ⟨r.infos ++ [info]⟩

def registerAll (r : TypeRegistry) (infos : List TypeInfo) : TypeRegistry :=
  infos.foldl register r

/-- The first type registered under a display name. -/
def lookupName? (r : TypeRegistry) (name : String) : Option TypeInfo :=
  r.infos.find? (·.name = name)

/-- The encoding and the width in bytes of a primitive type. -/
def primitive? (r : TypeRegistry) (token : NativeType) : Option (PrimitiveFlags × Nat) :=
  (r.lookup? token).bind fun info => info.primitive?.map fun flags => (flags, info.size)

def size (r : TypeRegistry) : Nat :=
  r.infos.length

end TypeRegistry
end NativeBridge
