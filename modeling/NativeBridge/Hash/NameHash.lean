import NativeBridge.Hash.XxHash64
import NativeBridge.Text.Hex
/-!
# Hashes of declared names

A declaration is identified across runs by a word computed from its name: a class from its name alone, a
function from its name and arity, a member from its owner, name and arity, a constructor from its owner
and arity. Each kind of declaration is kept apart by a constant of its own, and the arity is folded in
by one multiplication and one addition modulo `2 ^ 64`.
-/
namespace NativeBridge

/-- The hash of a declared name. -/
structure NameHash where
  word : UInt64
deriving DecidableEq, Repr, Inhabited

namespace NameHash

/-- Multiplier that separates the components of a hash. -/
def separator : UInt64 := 0x4bc94d6bd06053ad

/-- Constant of class and type names. -/
def typeDomain : UInt64 := 0x2fac10b63a6cc57c

/-- Constant of free functions. -/
def functionDomain : UInt64 := 0x5ea77ffbcdf5f302

/-- Constant of members. -/
def memberDomain : UInt64 := 0x7d3c8b4a92e15f6d

/-- Constant of constructors. -/
def constructorDomain : UInt64 := 0x9a7f3d5e2b8c4601

/-- Constant that the arity is combined with. -/
def arityDomain : UInt64 := 0x9e3779b97f4a7c15

/-- The hash of a text: XXH64 with seed zero of its UTF-8 bytes. -/
def ofText (s : String) : UInt64 :=
  XxHash64.hash s.toUTF8.toList 0

/-- Fold an arity into a hash. -/
def mixArity (hash arity : UInt64) : UInt64 :=
  hash * separator + (arityDomain ^^^ arity)

/-- The hash of a class or type name. -/
def ofName (name : String) : NameHash :=
  ⟨typeDomain ^^^ ofText name⟩

/-- The hash of a free function of the given arity. -/
def ofFunction (name : String) (arity : UInt64) : NameHash :=
  ⟨mixArity (functionDomain ^^^ ofText name) arity⟩

/-- The hash of a member of `owner`. A getter and a setter differ by their arity. -/
def ofMember (owner : NameHash) (name : String) (arity : UInt64) : NameHash :=
  ⟨mixArity (memberDomain ^^^ owner.word ^^^ ofText name) arity⟩

/-- The hash of a constructor of `owner`. -/
def ofConstructor (owner : NameHash) (arity : UInt64) : NameHash :=
  ⟨mixArity (constructorDomain ^^^ owner.word) arity⟩

def isEmpty (h : NameHash) : Bool :=
  h.word == 0

/-- The hash as `0x` and sixteen digits. -/
def text (h : NameHash) : String :=
  Hex.ofWord h.word

/-- The hash as diagnostics show it. -/
def outline (h : NameHash) : String :=
  "TypeHash(" ++ h.text ++ ")"

end NameHash
end NativeBridge
