import NativeBridge.Text.Outline
/-!
# Value slots

Scratch storage for a value under construction: empty until a constructor has run.
-/
namespace NativeBridge

/-- A value that may not have been constructed yet. -/
abbrev ValueSlot (α : Type) := Option α

namespace ValueSlot
variable {α : Type}

/-- Store a constructed value; the one before it comes back. -/
def construct (slot : ValueSlot α) (value : α) : Option α × ValueSlot α :=
  (slot, some value)

/-- A slot as diagnostics show it. -/
def outline (text : α → String) : ValueSlot α → String
  | none => "Uninitialized"
  | some value => Outline.tuple "Constructed" [text value]

end ValueSlot
end NativeBridge
