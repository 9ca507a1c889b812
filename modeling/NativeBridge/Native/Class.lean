import NativeBridge.Native.Layout
/-!
# Native classes
-/
namespace NativeBridge

/-- A native class: the name under which the host sees it, the qualified name that diagnostics use, and
the layout of its objects. Classes with equal exposed names differ by their qualified names. -/
structure Class where
  name : String
  qualified : String
  layout : Layout
deriving DecidableEq, Repr, Inhabited

/-- A class as diagnostics show its identity. -/
def Class.outline (c : Class) : String :=
  "TypeToken(" ++ c.qualified ++ ")"

end NativeBridge
