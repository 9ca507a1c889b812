import NativeBridge.Call.Boundary
import NativeBridge.Text.Hex
/-!
# Reports

Boundary values, handles and outcomes as documents. Integers, texts, arrays and the two values without
content are themselves; everything else is a record of one or two fields.
-/
namespace NativeBridge

def Handle.report (h : Handle) : Doc :=
  .list [.ofNat h.index, .ofNat h.generation.toNat]

/-- The bits of a number in hexadecimal; all NaNs are reported alike. -/
def Binary64.report (x : Binary64) : Doc :=
  .fields [("f", .text (if x.isNaN then "nan" else Hex.digits 16 x.bits.toNat))]

def Pointer.report (p : Pointer) : Doc :=
  .list [.text p.cls.name, .text (if p.weak then "weak" else "strong")]

namespace Wire

mutual

/-- A boundary value as a document. -/
def report : Wire → Doc
  | .undefined => .fields [("undef", .bool true)]
  | .null => .null
  | .bool b => .bool b
  | .int n => .int n.toInt
  | .float x => x.report
  | .text s => .text s
  | .array ws => .list (reportAll ws)
  | .record c ws => .fields [("rec", .text c), ("fields", .list (reportAll ws))]
  | .object h => .fields [("obj", h.report)]
  | .function f => .fields [("fn", .text f.function.name)]
  | .pointer p => .fields [("ptr", p.report)]

def reportAll : List Wire → List Doc
  | [] => []
  | w :: ws => w.report :: reportAll ws

end

end Wire

namespace Doc

def success (d : Doc) : Doc :=
  .fields [("ok", d)]

def failure (kind message : String) : Doc :=
  .fields [("error", .text kind), ("message", .text message)]

end Doc

def CallError.report (e : CallError) : Doc :=
  .failure e.kind e.message

def RegistrationError.report (e : RegistrationError) : Doc :=
  .failure e.kind e.message

def Panic.report : Panic → Doc
  | .text message => .failure "Panic" message
  | .other => .failure "Panic" "other"

def Interrupt.report : Interrupt → Doc
  | .error e => e.report
  | .panic p => p.report
  | .nesting => .failure "Panic" "other"

/-- The outcome of a call. -/
def reportOutcome {α : Type} (f : α → Doc) : Except CallError α → Doc
  | .ok a => .success (f a)
  | .error e => e.report

/-- The outcome of a declaration. -/
def reportDeclared {α : Type} (f : α → Doc) : Except RegistrationError α → Doc
  | .ok a => .success (f a)
  | .error e => e.report

end NativeBridge
