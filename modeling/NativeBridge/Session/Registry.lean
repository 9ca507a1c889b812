import NativeBridge.Registry.InPlace
import NativeBridge.Registry.Reflection
import NativeBridge.Session.Groups
/-!
# Requests about a registry

Declarations one by one, and questions that can be asked before and after the declarations are closed.
-/
namespace NativeBridge.Session
open Catalog
variable {Upcast Code : Type}

/-! ## Questions -/

/-- An entry with what its signature says of it. -/
def entryDoc (found : Signature Code × SignatureEntry Code) : Doc :=
  let (s, e) := found
  .fields
    [("name", .text e.name), ("flags", flagsDoc e.flags), ("id", .text e.id.text), ("arity", .ofNat s.arity),
     ("strict", .bool s.key.strict)]

/-- Questions about what a closed registry shows. -/
def exposureQuery? (r : Registry Upcast Code) (d : Doc) : Option Doc :=
  let c := classAt d "class"
  let name := d.textAt "name"
  let tag : CallTag := ⟨d.indexAt "tag"⟩
  match d.textAt "do" with
  | "exposed" => some (.list (r.exposedClasses.map exposedClassDoc))
  | "exposed_named" => some (.optional exposedClassDoc (r.exposedNamed? name))
  | "exposed_class" => some (.optional exposedClassDoc (r.exposedClass? c))
  | "member" =>
    some (.optional exposedMemberDoc ((r.exposedClass? c).bind fun x => x.member? name (kindAt d)))
  | "find" => some (.optional exposedMemberDoc (r.findMember? c name (kindAt d)))
  | "count_named" => some (.optional (fun x => .ofNat (x.countNamed name)) (r.exposedClass? c))
  | "functions" =>
    some (.list (r.exposedFunctions.map fun f => .list [.text f.name, tagDoc f.tag]))
  | "function_tag" => some (.optional tagDoc (r.functionTag? name))
  | "function_group" => some (.optional groupDoc (r.functionGroup? name))
  | "target" => some (reportOutcome targetDoc (r.target tag))
  | "group" => some (reportOutcome (fun t => .optional groupDoc (r.group? t)) (r.target tag))
  | _ => none

/-- Questions about what has been declared so far. -/
def declarationQuery? (r : Registry Upcast Code) (d : Doc) : Option Doc :=
  let c := classAt d "class"
  let name := d.textAt "name"
  match d.textAt "do" with
  | "entry" => some (reportOutcome entryDoc (r.entry (entryRefOf d)))
  | "classes" => some (.list (r.classes.map descriptorDoc))
  | "class_named" => some (.optional descriptorDoc (r.classNamed? name))
  | "class" => some (.optional descriptorDoc (r.class? c))
  | "types" => some (.list (r.types.infos.map infoDoc))
  | "signatures" => some (signatureDocs r.signatures)
  | "reflect" => some (reflectionDoc r.reflect)
  | "reflect_class" =>
    some (.optional
      (fun k => .list [.text k.name, memberInfoDocs (k.membersNamed (d.textAt "member"))])
      (r.reflect.class? name))
  | "reflect_function" => some (memberInfoDocs (r.reflect.functionsNamed name))
  | "reflect_type" => some (.optional infoDoc (r.reflect.type? (typeAt d "type").token))
  | "registry_debug" => some (.text r.outline)
  | "initialized" => some (.bool r.isClosed)
  | "max_arity" => some (.ofNat r.maxArity)
  | _ => none

/-- Answer a question about a registry. Until it is closed there is no hierarchy to ask about, only the
empty path from a class to itself. -/
def registryQuery? (pathDoc : List Upcast → Doc) (r : Registry Upcast Code) (d : Doc) : Option Doc :=
  (exposureQuery? r d <|> declarationQuery? r d) <|>
    match d.textAt "do", r.hierarchy? with
    | "upcast", _ => some (.optional pathDoc (r.upcastPath? (classAt d "from") (classAt d "to")))
    | _, some h => hierarchyQuery? pathDoc h d
    | "supers", none | "ancestors", none | "flatten", none | "is_ancestor", none
    | "hierarchy_debug", none => some .null
    | _, none => none

/-! ## Declarations -/

/-- A registry whose upcasts are labels and whose entries run nothing. -/
abbrev Draft := Registry String Unit

/-- Report a declaration, and go on with the registry that it left. -/
def declareWith {α : Type} (f : α → Doc) (r : Draft) (declaration : Registry.InPlace String Unit α) : Doc × Draft :=
  match declaration r with
  | .ok a r => (.success (f a), r)
  | .error e r => (e.report, r)

def plainly (r : Draft) (declaration : Registry.InPlace String Unit Unit) : Doc × Draft :=
  declareWith (fun _ => .null) r declaration

/-- Make a declaration, if the step is one. -/
def declareStep? (d : Doc) (r : Draft) : Option (Doc × Draft) :=
  let c := classAt d "class"
  let name := d.textAt "name"
  let flags := flagsAt d "flags"
  let shape := shapeOf d
  let id := NameHash.ofName name
  let infoOf (t : NativeType) : TypeInfo := { t.info with name := (d.textAt? "name").getD t.name }
  match d.textAt "do" with
  | "declare_class" => some (plainly r (.declareClass (infoOf (typeAt d "class"))))
  | "declare_super" => some (plainly r (.declareSuper c (infoOf (typeAt d "base")) (d.textAt "label")))
  | "declare_value" => some (plainly r (.declareValueType c))
  | "declare_constructor" => some (declareWith entryRefDoc r (.declareConstructor c flags shape id ()))
  | "declare_member" => some (declareWith entryRefDoc r (.declareMember c (groupKeyOf d) flags shape id ()))
  | "declare_function" => some (declareWith entryRefDoc r (.declareFunction name flags shape id ()))
  | "finalize" => some (plainly r .finalize)
  | _ => none

def registryStep (d : Doc) (r : Draft) : Doc × Draft :=
  match declareStep? d r with
  | some answer => answer
  | none => ((registryQuery? labelsDoc r d).getD .null, r)

def registryAnswer (d : Doc) : Doc :=
  let maxArity := ((d.wordAt? "max_arity").map UInt64.toNat).getD Registry.defaultMaxArity
  answersOf registryStep d (.empty maxArity)

end NativeBridge.Session
