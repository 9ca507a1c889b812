import NativeBridge.Text.Hex
import NativeBridge.Text.Outline
/-!
# Flags

Two sets of flags, each held as the bits of one byte: those of slots, declarations and wrappers, and those
that encode a primitive type. All eight bits of the first set have a meaning; of the second, five.
-/
namespace NativeBridge

/-- The names of the set bits, joined by bars; an empty set shows its bits. -/
def outlineBits (title : String) (names : List (UInt8 × String)) (bits : UInt8) : String :=
  let set := names.filterMap fun (b, name) => if bits &&& b == b then some name else none
  title ++ "(" ++ (if set.isEmpty then "0x" ++ Hex.digits 1 bits.toNat else " | ".intercalate set) ++ ")"

/-- Flags of argument and result slots, of declarations and of wrappers. -/
structure TypeFlags where
  bits : UInt8
deriving DecidableEq, Repr, Inhabited

namespace TypeFlags

def none : TypeFlags := ⟨0⟩

/-- Read-only access. -/
def const : TypeFlags := ⟨0x01⟩

/-- A borrowed object: the native side keeps it. -/
def pointer : TypeFlags := ⟨0x02⟩

/-- A member with a receiver. -/
def method : TypeFlags := ⟨0x04⟩

/-- Ownership shared by both sides. -/
def shared : TypeFlags := ⟨0x08⟩

/-- Passed by reference. -/
def reference : TypeFlags := ⟨0x10⟩

/-- Ownership that moves across the boundary. -/
def unique : TypeFlags := ⟨0x20⟩

/-- A member without a receiver. -/
def static : TypeFlags := ⟨0x40⟩

/-- Arguments are checked before every call. -/
def strict : TypeFlags := ⟨0x80⟩

def union (f g : TypeFlags) : TypeFlags := ⟨f.bits ||| g.bits⟩

def inter (f g : TypeFlags) : TypeFlags := ⟨f.bits &&& g.bits⟩

def diff (f g : TypeFlags) : TypeFlags := ⟨f.bits &&& ~~~g.bits⟩

/-- Whether `f` has every flag of `g`. -/
def contains (f g : TypeFlags) : Bool :=
  f.bits &&& g.bits == g.bits

/-- The flags that say how a wrapper holds its object. -/
def ownership : TypeFlags := (pointer.union shared).union unique

/-- The flags in the low byte of a word. -/
def ofWord (n : UInt64) : TypeFlags :=
  ⟨n.toUInt8⟩

def toNat (f : TypeFlags) : Nat := f.bits.toNat

def names : List (UInt8 × String) :=
  [(0x01, "CONST"), (0x02, "POINTER"), (0x04, "METHOD"), (0x08, "SHARED"), (0x10, "REFERENCE"),
   (0x20, "UNIQUE"), (0x40, "STATIC"), (0x80, "STRICT")]

def outline (f : TypeFlags) : String :=
  outlineBits "TypeFlags" names f.bits

end TypeFlags

/-- The one-byte encoding of a primitive type. -/
structure PrimitiveFlags where
  bits : UInt8
deriving DecidableEq, Repr, Inhabited

namespace PrimitiveFlags

def none : PrimitiveFlags := ⟨0⟩

def char : PrimitiveFlags := ⟨0x01⟩

def const : PrimitiveFlags := ⟨0x02⟩

def pointer : PrimitiveFlags := ⟨0x04⟩

def float : PrimitiveFlags := ⟨0x08⟩

def unsigned : PrimitiveFlags := ⟨0x10⟩

def union (f g : PrimitiveFlags) : PrimitiveFlags := ⟨f.bits ||| g.bits⟩

/-- The known flags in the low byte of a word. -/
def ofWord (n : UInt64) : PrimitiveFlags :=
  ⟨n.toUInt8 &&& 0x1f⟩

def toNat (f : PrimitiveFlags) : Nat := f.bits.toNat

def names : List (UInt8 × String) :=
  [(0x01, "CHAR"), (0x02, "CONST"), (0x04, "POINTER"), (0x08, "FLOAT"), (0x10, "UNSIGNED")]

def outline (f : PrimitiveFlags) : String :=
  outlineBits "PrimitiveFlags" names f.bits

end PrimitiveFlags
end NativeBridge
