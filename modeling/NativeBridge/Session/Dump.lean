import NativeBridge.Catalog.Types
import NativeBridge.Registry.Reflection
import NativeBridge.Report
/-!
# Dumps of declarations

Types, groups, classes, signatures and what a closed registry shows, as documents. Types and classes appear
under their keys in the catalog.
-/
namespace NativeBridge.Session
open Catalog

def keyDoc (t : NativeType) : Doc :=
  .text (keyOf t)

def classDoc (c : Class) : Doc :=
  .text (classKey c)

def classDocs (cs : List Class) : Doc :=
  .list (cs.map classDoc)

def flagsDoc (f : TypeFlags) : Doc :=
  .ofNat f.toNat

/-! ## Types -/

def categoryDoc : TypeCategory → Doc
  | .void => .list [.text "void"]
  | .primitive flags => .list [.text "primitive", .ofNat flags.toNat]
  | .text => .list [.text "string"]
  | .vector item => .list [.text "vector", keyDoc item]
  | .fixedArray item n => .list [.text "array", keyDoc item, .ofNat n]
  | .optional item => .list [.text "optional", keyDoc item]
  | .object => .list [.text "class"]
  | .handle c flags => .list [.text "handle", classDoc c, flagsDoc flags]
  | .callback => .list [.text "callback"]
  | .pointer => .list [.text "pointer"]
  | .dynamic => .list [.text "dynamic"]

def infoDoc (i : TypeInfo) : Doc :=
  .fields
    [("type", keyDoc i.token), ("name", .text i.name), ("size", .ofNat i.size),
     ("category", categoryDoc i.category), ("class", .optional classDoc i.class?),
     ("primitive", .optional (fun f => .ofNat f.toNat) i.primitive?)]

/-! ## Groups, classes, signatures -/

def entryRefDoc (r : EntryRef) : Doc :=
  .ofNats [r.signature, r.index]

def scopeDoc : GroupScope → Doc
  | .global => .text "global"
  | .cls c => .fields [("class", classDoc c)]

def groupDoc (g : OverloadGroup) : Doc :=
  .fields
    [("name", .text g.name), ("scope", scopeDoc g.scope),
     ("entries", .list (g.overloads.map fun (n, r) => .ofNats [n, r.signature, r.index])),
     ("max", .optional .ofNat g.maxArity?), ("len", .ofNat g.size), ("empty", .bool (g.size == 0)),
     ("single", .bool g.isSingle), ("frozen", .bool g.frozen)]

def descriptorDoc {Upcast : Type} (d : ClassDescriptor Upcast) : Doc :=
  .fields
    [("name", .text d.name), ("class", classDoc d.cls), ("hash", .text d.hash.text), ("size", .ofNat d.size),
     ("declared", .bool d.declared), ("ready", .bool d.ready), ("value_type", .bool d.valueType),
     ("supers", classDocs (d.supers.map (·.cls))),
     ("members", .list (d.members.map fun m =>
        .list [.text m.key.name, .text m.key.kind.name, groupDoc m.group])),
     ("constructors", groupDoc d.constructors)]

def signatureDoc {Code : Type} (id : Nat) (s : Signature Code) : Doc :=
  .fields
    [("id", .ofNat id), ("receiver", .optional classDoc s.key.receiver), ("ret", keyDoc s.key.ret),
     ("ret_name", .text s.ret.name), ("args", .list (s.key.args.map keyDoc)),
     ("names", .ofTexts (s.args.map NativeType.name)), ("strict", .bool s.key.strict),
     ("arity", .ofNat s.arity),
     ("entries", .list (s.entries.map fun e =>
        .list [.text e.name, flagsDoc e.flags, .text e.id.text]))]

def signatureDocs {Code : Type} (t : SignatureTable Code) : Doc :=
  .list (t.signatures.zipIdx.map fun (s, id) => signatureDoc id s)

/-! ## What a closed registry shows -/

def tagDoc (t : CallTag) : Doc :=
  .ofNat t.index

def exposedMemberDoc (m : ExposedMember) : Doc :=
  .list [.text m.name, .text m.kind.name, tagDoc m.tag, classDoc m.owner]

def exposedClassDoc (c : ExposedClass) : Doc :=
  .fields
    [("name", .text c.name), ("class", classDoc c.cls), ("constructor", tagDoc c.constructor),
     ("release", tagDoc c.release), ("parent", .optional classDoc c.parent?), ("supers", classDocs c.supers),
     ("members", .list (c.members.map exposedMemberDoc)), ("value_type", .bool c.valueType)]

def targetDoc : TagTarget → Doc
  | .constructor c => .fields [("constructor", classDoc c)]
  | .release c => .fields [("release", classDoc c)]
  | .member c i => .fields [("member", .list [classDoc c, .ofNat i])]
  | .function i => .fields [("function", .ofNat i)]

/-! ## Reflection -/

def memberInfoDoc (m : MemberInfo) : Doc :=
  .fields
    [("name", .text m.name), ("kind", .text m.kind.name), ("flags", flagsDoc m.flags),
     ("arity", .ofNat m.arity), ("args", .list (m.args.map keyDoc)), ("ret", keyDoc m.ret)]

def memberInfoDocs (ms : List MemberInfo) : Doc :=
  .list (ms.map memberInfoDoc)

def classInfoDoc (c : ClassInfo) : Doc :=
  .fields
    [("name", .text c.name), ("class", classDoc c.cls), ("hash", .text c.hash.text), ("size", .ofNat c.size),
     ("supers", classDocs c.supers), ("value_type", .bool c.valueType), ("members", memberInfoDocs c.members)]

def reflectionDoc (r : Reflection) : Doc :=
  .fields
    [("classes", .list (r.classes.map classInfoDoc)), ("functions", memberInfoDocs r.functions),
     ("types", .list (r.types.map fun i => keyDoc i.token))]

end NativeBridge.Session
