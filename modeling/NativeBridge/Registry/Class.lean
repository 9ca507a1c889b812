import NativeBridge.Registry.Overload
/-!
# Class descriptors

All that is declared for one class. A descriptor exists from the first mention of its class, which may be as
a superclass; `declared` says whether the declaration itself has been seen.
-/
namespace NativeBridge

/-- What a member does. -/
inductive MemberKind where
  | method
  | getter
  | setter
  | constructor
  | function
  | staticMethod
deriving DecidableEq, Repr, Inhabited

namespace MemberKind

/-- A member without receiver. -/
def isStatic : MemberKind → Bool
  | .constructor | .function | .staticMethod => true
  | .method | .getter | .setter => false

def name : MemberKind → String
  | .method => "method"
  | .getter => "getter"
  | .setter => "setter"
  | .constructor => "constructor"
  | .function => "function"
  | .staticMethod => "static"

/-- All kinds, in the order of their numbers. -/
def all : List MemberKind :=
  [.method, .getter, .setter, .constructor, .function, .staticMethod]

def number (k : MemberKind) : Nat :=
  all.idxOf k

def ofNumber? (n : Nat) : Option MemberKind :=
  all[n]?

def ofName? (s : String) : Option MemberKind :=
  all.find? (·.name = s)

/-- The kind as diagnostics show it. -/
def outline : MemberKind → String
  | .method => "Method"
  | .getter => "Getter"
  | .setter => "Setter"
  | .constructor => "Constructor"
  | .function => "Function"
  | .staticMethod => "StaticMethod"

end MemberKind

/-- What tells the groups of a class apart: a getter and a setter may share a name. -/
structure GroupKey where
  name : String
  kind : MemberKind
deriving DecidableEq, Inhabited

structure MemberGroup where
  key : GroupKey
  group : OverloadGroup
deriving Inhabited

/-- A direct superclass and the upcast into it. -/
structure SuperLink (Upcast : Type) where
  cls : Class
  upcast : Upcast

/-- Everything declared for one class. -/
structure ClassDescriptor (Upcast : Type) where
  cls : Class
  name : String
  size : Nat
  members : List MemberGroup
  constructors : OverloadGroup
  supers : List (SuperLink Upcast)
  /-- Marshalled by value. -/
  valueType : Bool
  declared : Bool
  /-- Finalized: no group takes further entries. -/
  ready : Bool

namespace ClassDescriptor
variable {Upcast : Type}

/-- A class that is only mentioned so far. -/
def placeholder (c : Class) (name : String) (size : Nat) : ClassDescriptor Upcast :=
  { cls := c, name, size, members := [], constructors := .empty name (.cls c), supers := []
    valueType := false, declared := false, ready := false }

def hash (d : ClassDescriptor Upcast) : NameHash :=
  .ofName d.name

/-- The descriptor after the class's own declaration, which may rename it. -/
def declare (d : ClassDescriptor Upcast) (name : String) (size : Nat) : ClassDescriptor Upcast :=
  let constructors := if d.name = name then d.constructors else .empty name (.cls d.cls)
  { d with name, size, constructors, declared := true }

/-- The descriptor with all groups frozen. -/
def markReady (d : ClassDescriptor Upcast) : ClassDescriptor Upcast :=
  { d with
    ready := true
    constructors := d.constructors.freeze
    members := d.members.map fun m => { m with group := m.group.freeze } }

def group? (d : ClassDescriptor Upcast) (key : GroupKey) : Option OverloadGroup :=
  (d.members.find? (·.key = key)).map (·.group)

/-- The position of a group in declaration order. -/
def groupIndex? (d : ClassDescriptor Upcast) (key : GroupKey) : Option Nat :=
  d.members.findIdx? (·.key = key)

/-- The descriptor in which the group of `key` exists. -/
def withGroup (d : ClassDescriptor Upcast) (key : GroupKey) : ClassDescriptor Upcast :=
  if (d.group? key).isSome then d
  else { d with members := d.members ++ [⟨key, .empty key.name (.cls d.cls)⟩] }

/-- Replace the group of `key`. -/
def setGroup (d : ClassDescriptor Upcast) (key : GroupKey) (g : OverloadGroup) : ClassDescriptor Upcast :=
  { d with members := d.members.map fun m => if m.key = key then { m with group := g } else m }

/-- Add a direct superclass; one that is there already gets the new upcast. -/
def addSuper (d : ClassDescriptor Upcast) (base : Class) (upcast : Upcast) : ClassDescriptor Upcast :=
  if d.supers.any (·.cls = base) then
    { d with supers := d.supers.map fun l => if l.cls = base then { l with upcast } else l }
  else { d with supers := d.supers ++ [⟨base, upcast⟩] }

def outline (d : ClassDescriptor Upcast) : String :=
  Outline.record "ClassDescriptor"
    [("name", Text.quoted d.name), ("token", d.cls.outline), ("members", toString d.members.length),
     ("supers", Outline.sequence (d.supers.map fun l => Outline.tuple "SuperLink" [l.cls.outline])),
     ("value_type", Outline.bool d.valueType), ("declared", Outline.bool d.declared),
     ("ready", Outline.bool d.ready)]

end ClassDescriptor
end NativeBridge
