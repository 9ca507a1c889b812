import NativeBridge.Registry.Basic
/-!
# Reflection

A snapshot of what is declared: every class with its constructors and members, every function, every type.
Each overload is one entry.
-/
namespace NativeBridge

/-- One overload of a member or function. -/
structure MemberInfo where
  name : String
  kind : MemberKind
  flags : TypeFlags
  args : List NativeType
  ret : NativeType

def MemberInfo.arity (m : MemberInfo) : Nat :=
  m.args.length

/-- A declared class. -/
structure ClassInfo where
  cls : Class
  name : String
  hash : NameHash
  size : Nat
  supers : List Class
  valueType : Bool
  /-- Constructors first, then members, one entry for each overload. -/
  members : List MemberInfo

def ClassInfo.membersNamed (c : ClassInfo) (name : String) : List MemberInfo :=
  c.members.filter (·.name = name)

/-- Everything declared. -/
structure Reflection where
  classes : List ClassInfo
  functions : List MemberInfo
  types : List TypeInfo

namespace Reflection

def class? (r : Reflection) (name : String) : Option ClassInfo :=
  r.classes.find? (·.name = name)

def functionsNamed (r : Reflection) (name : String) : List MemberInfo :=
  r.functions.filter (·.name = name)

def type? (r : Reflection) (token : NativeType) : Option TypeInfo :=
  r.types.find? (·.token = token)

end Reflection

namespace Registry
variable {Upcast Code : Type}

/-- The overloads of a group. -/
def overloadInfos (r : Registry Upcast Code) (kind : MemberKind) (g : OverloadGroup) : List MemberInfo :=
  g.overloads.filterMap fun (_, ref) => (r.signatures.entry? ref).map fun (s, e) =>
    { name := g.name, kind, flags := e.flags, args := s.key.args, ret := s.key.ret }

def classInfo (r : Registry Upcast Code) (d : ClassDescriptor Upcast) : ClassInfo :=
  { cls := d.cls, name := d.name, hash := d.hash, size := d.size, supers := d.supers.map (·.cls)
    valueType := d.valueType
    members := r.overloadInfos .constructor d.constructors
      ++ d.members.flatMap fun m => r.overloadInfos m.key.kind m.group }

/-- The snapshot of all declarations. Classes that are only mentioned are left out. -/
def reflect (r : Registry Upcast Code) : Reflection :=
  { classes := (r.classes.filter (·.declared)).map r.classInfo
    functions := r.functions.flatMap (r.overloadInfos .function)
    types := r.types.infos }

end Registry
end NativeBridge
