import NativeBridge.Session.Dump
import NativeBridge.Session.Request
/-!
# Requests about the parts of a registry

Type registries, overload groups, signature tables, class descriptors and hierarchies, each on its own. An
upcast is a label here: following a path lists its labels, and the label `none` refuses to be followed.
-/
namespace NativeBridge.Session
open Catalog

/-! ## Upcasts as labels -/

/-- The labels met along a path, and whether its end is reached. -/
def followLabels : List String → List String × Bool
  | [] => ([], true)
  | l :: ls =>
    if l = "none" then ([l], false)
    else
      let (met, reached) := followLabels ls
      (l :: met, reached)

/-- What following a path gives. -/
def labelsDoc (path : List String) : Doc :=
  let (met, reached) := followLabels path
  .fields [("len", .ofNat path.length), ("ok", .bool reached), ("labels", .ofTexts met)]

/-! ## Type registries -/

def typesStep (d : Doc) (r : TypeRegistry) : Doc × TypeRegistry :=
  let t := typeAt d "type"
  match d.textAt "do" with
  | "describe" =>
    let r := r.registerAll t.describe
    (.ofNat r.size, r)
  | "register" =>
    let info := t.info
    let info := { info with
      name := (d.textAt? "name").getD info.name
      size := ((d.wordAt? "size").map UInt64.toNat).getD info.size }
    let r := r.register info
    (.ofNat r.size, r)
  | "lookup" => (.optional infoDoc (r.lookup? t.token), r)
  | "lookup_name" => (.optional infoDoc (r.lookupName? (d.textAt "name")), r)
  | "contains" => (.bool (r.contains t.token), r)
  | "primitive" =>
    (.optional (fun (flags, size) => .ofNats [flags.toNat, size]) (r.primitive? t.token), r)
  | "list" => (.list (r.infos.map fun i => .list [keyDoc i.token, .text i.name]), r)
  | "empty" => (.bool (r.size == 0), r)
  | _ => (.null, r)

def typesAnswer (d : Doc) : Doc :=
  answersOf typesStep d .empty

/-! ## Overload groups -/

/-- Why an overload of so many arguments cannot be stored, if it cannot. Every smaller number of arguments
has its place too, of twelve bytes; the places are counted in a word of 64 bits, and all together have less
than `2 ^ 63` bytes. -/
def overfull? (g : OverloadGroup) (arity : Nat) : Option Panic :=
  if g.frozen || 12 * (arity + 1) < 0x8000000000000000 then none
  else if arity + 1 < 0x10000000000000000 then some (.text "capacity overflow")
  else some (.text "attempt to add with overflow")

/-- Add the overload that a request spells out, and tell the group as it then is. -/
def insertOverload (d : Doc) (told : OverloadGroup → Doc) (g : OverloadGroup) : Doc × OverloadGroup :=
  let arity := d.countAt "arity"
  match overfull? g arity with
  | some p => (p.report, g)
  | none =>
    match g.insert arity (entryRefOf d) with
    | .ok g => (.success (told g), g)
    | .error e => (e.report, g)

def overloadStep (d : Doc) (g : OverloadGroup) : Doc × OverloadGroup :=
  match d.textAt "do" with
  | "insert" => insertOverload d (fun g => .ofNat g.size) g
  | "resolve" => (reportOutcome entryRefDoc (g.resolve (d.countAt "argc")), g)
  | "freeze" => (.null, g.freeze)
  | "state" => (groupDoc g, g)
  | _ => (.null, g)

def overloadAnswer (d : Doc) : Doc :=
  let scope := if d.has "class" then .cls (classAt d "class") else .global
  answersOf overloadStep d (.empty (d.textAt "name") scope)

/-! ## Signature tables -/

/-- The keys of what a shape registers, in that order and each once. -/
def describedKeys (shape : CallShape) : Doc :=
  .list ((TypeRegistry.empty.registerAll shape.describe).infos.map fun i => keyDoc i.token)

def codeOutline (id : NameHash) : String :=
  Outline.openRecord "NativeFn" [("id", id.outline)]

def signatureStep (d : Doc) (t : SignatureTable Unit) : Doc × SignatureTable Unit :=
  let name := d.textAt "name"
  match d.textAt "do" with
  | "register" =>
    let (ref, t) := t.register (shapeOf d) ⟨name, flagsAt d "flags", .ofName name, ()⟩
    (entryRefDoc ref, t)
  | "create" =>
    let (id, t) := t.create (shapeOf d) (d.flagAt "strict")
    (.ofNat id, t)
  | "get" => (.optional (signatureDoc (d.indexAt "sig")) (t.get? (d.indexAt "sig")), t)
  | "entry" =>
    let answer := t.entry? (entryRefOf d)
    (.optional (fun (_, e) => .list [.ofNat (d.indexAt "sig"), .text e.name, flagsDoc e.flags]) answer, t)
  | "check" =>
    match t.get? (d.indexAt "sig") with
    | none => (.text "missing", t)
    | some s =>
      let act : Action Doc := do
        return reportOutcome (fun _ => .null) (s.checkArgs (← argsAt d))
      ((settle act .empty).1, t)
  | "list" => (.list [.ofNat t.size, .bool (t.size == 0), signatureDocs t], t)
  | "describe" => (describedKeys (shapeOf d), t)
  | "shape_debug" =>
    let shape := shapeOf d
    (.list [.ofNat shape.arity, .text shape.outline, .text (codeOutline (.ofName name))], t)
  | _ => (.null, t)

def signaturesAnswer (d : Doc) : Doc :=
  answersOf signatureStep d .empty

/-! ## Class descriptors -/

/-- The descriptor with the group of a key changed. -/
def changeGroup (c : ClassDescriptor String) (key : GroupKey) (change : OverloadGroup → OverloadGroup) :
    ClassDescriptor String :=
  let c := c.withGroup key
  match c.group? key with
  | some g => c.setGroup key (change g)
  | none => c

def classStep (d : Doc) (c : ClassDescriptor String) : Doc × ClassDescriptor String :=
  let key := groupKeyOf d
  match d.textAt "do" with
  | "insert" =>
    let c := c.withGroup key
    let (answer, g) := insertOverload d (fun _ => .null) ((c.group? key).getD default)
    (answer, c.setGroup key g)
  | "touch" =>
    let c := c.withGroup key
    (.optional groupDoc (c.group? key), c)
  | "freeze" => (.null, changeGroup c key .freeze)
  | "constructor" =>
    let (answer, constructors) := insertOverload d (fun _ => .null) c.constructors
    (answer, { c with constructors })
  | "group" => (.optional groupDoc (c.group? key), c)
  | "group_index" => (.optional .ofNat (c.groupIndex? key), c)
  | "super" =>
    let c := c.addSuper (classAt d "base") (d.textAt "label")
    (.ofNat c.supers.length, c)
  | "run_super" => (.optional (fun l => labelsDoc [l.upcast]) c.supers[d.countAt "index"]?, c)
  | "value_type" => (.bool true, { c with valueType := true })
  | "state" => (descriptorDoc c, c)
  | "debug" => (.text c.outline, c)
  | _ => (.null, c)

def classAnswer (d : Doc) : Doc :=
  answersOf classStep d (.placeholder (classAt d "class") (d.textAt "name") (d.wordAt "size").toNat)

/-! ## Hierarchies -/

/-- Answer a question about a hierarchy. -/
def hierarchyQuery? {Upcast : Type} (pathDoc : List Upcast → Doc) (h : Hierarchy Upcast) (d : Doc) :
    Option Doc :=
  let c := classAt d "class"
  let source := classAt d "from"
  let target := classAt d "to"
  match d.textAt "do" with
  | "supers" => some (classDocs (h.supers c))
  | "ancestors" => some (classDocs (h.ancestors c))
  | "flatten" =>
    some (.list ((h.flatten c).map fun step => .list [classDoc step.cls, .bool step.reachable]))
  | "upcast" => some (.optional pathDoc (h.upcastPath? source target))
  | "is_ancestor" => some (.bool (h.isAncestor source target))
  | "hierarchy_debug" => some (.text h.outline)
  | _ => none

/-- The descriptor that a request spells out. -/
def describedClass (d : Doc) : ClassDescriptor String :=
  let start := ClassDescriptor.placeholder (classAt d "class") (d.textAt "name") 0
  (d.itemsAt "supers").foldl (fun c s => c.addSuper (classAt s "base") (s.textAt "label")) start

def hierarchyAnswer (d : Doc) : Doc :=
  match Hierarchy.build ((d.itemsAt "classes").map describedClass) with
  | .error e => e.report
  | .ok h =>
    .fields [("steps", .list ((d.itemsAt "steps").map fun s => (hierarchyQuery? labelsDoc h s).getD .null))]

end NativeBridge.Session
