import NativeBridge.Text.Outline
/-!
# Handles and tags

What the host holds instead of pointers: a handle names a wrapped object, a tag an entry point.
-/
namespace NativeBridge

/-- The name of a wrapper: the slot it sits in and the generation of that slot. A slot that is used again
has another generation, so an old handle does not name its new occupant. -/
structure Handle where
  index : Nat
  generation : UInt32
deriving DecidableEq, Repr, Inhabited

namespace Handle

def text (h : Handle) : String :=
  "#" ++ toString h.index ++ "." ++ toString h.generation.toNat

def outline (h : Handle) : String :=
  Outline.record "WrapperHandle"
    [("index", toString h.index), ("generation", toString h.generation.toNat)]

end Handle

/-- The number of an entry point, given out when the declarations are closed. -/
structure CallTag where
  index : Nat
deriving DecidableEq, Repr, Inhabited

def CallTag.text (t : CallTag) : String :=
  "tag:" ++ toString t.index

end NativeBridge
