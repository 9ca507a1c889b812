import NativeBridge.Catalog.Functions
import NativeBridge.Engine.Declare
import NativeBridge.Session.Registry
import NativeBridge.Session.Script
/-!
# Declarations of an engine request

Functions and classes from the catalog, natives that run scripts, and questions about what is declared so
far. A class is one chain of builder items; the first item that is refused is the answer, and then nothing
of the class is committed.
-/
namespace NativeBridge.Session
open Catalog

/-- The declarations of an engine. -/
abbrev Declarations := Registry (Upcast Specimen) (Code Specimen)

/-- What is told of an upcast path between real objects. -/
def lengthDoc (path : List (Upcast Specimen)) : Doc :=
  .fields [("len", .ofNat path.length)]

abbrev Builder := ClassBuilder Specimen

/-- Add one item to a class in the making. Natives that the catalog does not have are passed over. -/
def addItem (s : Species) (d : Doc) (b : Builder) : Except RegistrationError Builder :=
  let name := d.textAt "name"
  let native := d.textAt "native"
  let withNative {α : Type} (found : Option α) (add : α → Except RegistrationError Builder) :=
    match found with
    | some x => add x
    | none => .ok b
  match d.textAt "m" with
  | "constructor" => withNative (constructorNamed? s native) b.constructor
  | "method" => withNative (methodNamed? s native) (b.method name)
  | "method_mut" => withNative (mutatorNamed? s native) (b.methodMut name)
  | "static" => withNative (staticNamed? s native) (b.staticMethod name)
  | "property" => withNative (propertyNamed? s native) fun (get, set) => b.property name get set
  | "readonly" => withNative (readonlyNamed? s native) (b.readonly name)
  | "raw" => b.methodRaw name (shapeOf d) fun reach => runScript reach (d.itemsAt "script")
  | "superclass" =>
    withNative (Species.ofName? (d.textAt "base")) fun base =>
      b.superclass base.cls ((Specimen.upcast? s base).getD Specimen.refusing)
  | "value_type" => .ok b.asValueType
  | "strict" => .ok b.beStrict
  | _ => .ok b

def addItems (s : Species) : List Doc → Builder → Except RegistrationError Builder
  | [], b => .ok b
  | d :: ds, b => do addItems s ds (← addItem s d b)

/-- Declare one class, unless it is abandoned at the end of its chain. -/
def declareClassEntry (s : Species) (d : Doc) (r : Declarations) : Doc × Declarations :=
  match addItems s (d.itemsAt "items") (.new s.cls) with
  | .error e => (e.report, r)
  | .ok b =>
    if d.flagAt "abandon" then (.success .null, r)
    else
      let (outcome, r) := b.build r
      (reportDeclared nothing outcome, r)

def declareFunctionEntry (r : Declarations) (made : Except RegistrationError Declarations) :
    Doc × Declarations :=
  match made with
  | .ok r => (.success .null, r)
  | .error e => (e.report, r)

/-- Make one declaration, or answer one question. -/
def declareEntry (d : Doc) (r : Declarations) : Doc × Declarations :=
  if d.has "class" && !d.has "do" then
    match Species.ofName? (d.textAt "class") with
    | some s => declareClassEntry s d r
    | none => (.null, r)
  else if d.has "function" then
    match functionNamed? (d.textAt "native") with
    | some e =>
      declareFunctionEntry r
        (r.addTyped (d.textAt "function") (if d.flagAt "strict" then .strict else .none) e)
    | none => (.null, r)
  else if d.has "raw" then
    declareFunctionEntry r
      (r.addFunction (d.textAt "raw") .none (shapeOf d) (scriptCode (d.itemsAt "script")))
  else ((registryQuery? lengthDoc r d).getD .null, r)

end NativeBridge.Session
