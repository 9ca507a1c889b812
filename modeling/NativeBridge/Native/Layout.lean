/-!
# Layouts

How many bytes a native value takes. An optional value needs no byte of its own where its content has a
bit pattern to spare.
-/
namespace NativeBridge

/-- Size and alignment in bytes, and the number of bit patterns that no value uses. -/
structure Layout where
  size : Nat
  align : Nat
  spare : Nat
deriving DecidableEq, Repr, Inhabited

namespace Layout

/-- A word of `bytes` bytes all of whose patterns are values. -/
def word (bytes : Nat) : Layout := ⟨bytes, bytes, 0⟩

/-- A counted reference: never zero. -/
def reference : Layout := ⟨8, 8, 1⟩

/-- A growable buffer: its capacity never sets the top bit. -/
def buffer : Layout := ⟨24, 8, 0x8000000000000000⟩

def optional (l : Layout) : Layout :=
  if l.spare = 0 then ⟨l.size + l.align, l.align, 254⟩ else ⟨l.size, l.align, l.spare - 1⟩

def array (l : Layout) (n : Nat) : Layout :=
  ⟨l.size * n, l.align, if n = 0 then 0 else l.spare⟩

/-- Either a value or an error text: one buffer, as long as the value fits beside its capacity. -/
def orText (l : Layout) : Layout :=
  if l.size ≤ 16 then ⟨24, 8, 0x7fffffffffffffff⟩ else ⟨(l.size + 15) / 8 * 8, 8, 254⟩

end Layout
end NativeBridge
