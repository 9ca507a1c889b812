import NativeBridge.Native.Type
import NativeBridge.Wire
/-!
# The argument pre-check

Which boundary values a type could take, judged by the value alone. A value that is refused here cannot be
converted; one that is accepted still may fail, for objects are looked up only later.
-/
namespace NativeBridge.NativeType

/-- Whether a value may be converted to the type. -/
def accepts : NativeType → Wire → Bool
  | .unit, w => w.isNullish
  | .bool, .bool _ => true
  | .char, .text s => s.length == 1
  | .int k, .int n => k.low ≤ n.toInt && n.toInt ≤ k.high
  | .float _, .float _ => true
  | .float _, .int _ => true
  | .text, .text _ => true
  | .staticText, .text _ => true
  | .any, _ => true
  | .callback, .function _ => true
  | .pointer, .pointer _ => true
  | .pointer, .object _ => true
  | .vector t, .array items => items.all t.accepts
  | .array t n, .array items => items.length == n && items.all t.accepts
  | .optional t, w => w.isNullish || t.accepts w
  | .object _, .object _ => true
  | .object _, .record _ _ => true
  | .object _, .array _ => true
  | .object _, .pointer _ => true
  | .handle .unique _, .pointer _ => false
  | .handle _ _, .object _ => true
  | .handle _ _, .pointer _ => true
  | .result t, w => t.accepts w
  | _, _ => false

end NativeBridge.NativeType
