import NativeBridge.Registry.Exposure
import NativeBridge.Registry.Types
/-!
# The registry

Everything that is declared: types, signatures, classes and functions. Declarations come in any order; a
class that is mentioned as a superclass before its own declaration has a placeholder until then. Closing the
registry (`finalize`) builds the hierarchy, gives every entry point its tag and freezes all groups. A
declaration that is refused changes nothing.
-/
namespace NativeBridge

/-- All declarations. `Upcast` is what leads from a class to a superclass, `Code` what an entry runs. -/
structure Registry (Upcast Code : Type) where
  types : TypeRegistry
  signatures : SignatureTable Code
  /-- All classes, in order of first mention. -/
  classes : List (ClassDescriptor Upcast)
  /-- The declared classes by name. -/
  names : List (String × Class)
  functions : List OverloadGroup
  maxArity : Nat
  /-- Present once the declarations are closed. -/
  exposure : Option (Exposure Upcast)

namespace Registry
variable {Upcast Code : Type}

/-- The limit on the number of arguments where none is given. -/
def defaultMaxArity : Nat := 16

def empty (maxArity : Nat) : Registry Upcast Code :=
  { types := .empty, signatures := .empty, classes := [], names := [], functions := [], maxArity
    exposure := none }

def isClosed (r : Registry Upcast Code) : Bool :=
  r.exposure.isSome

def class? (r : Registry Upcast Code) (c : Class) : Option (ClassDescriptor Upcast) :=
  r.classes.find? (·.cls = c)

def classNamed? (r : Registry Upcast Code) (name : String) : Option (ClassDescriptor Upcast) :=
  (r.names.lookup name).bind r.class?

/-! ## Declarations -/

def ensureOpen (r : Registry Upcast Code) : Except RegistrationError Unit :=
  if r.isClosed then .error .alreadyInitialized else .ok ()

/-- The registry in which a descriptor of the class exists. -/
def mention (r : Registry Upcast Code) (c : Class) (name : String) (size : Nat) : Registry Upcast Code :=
  if (r.class? c).isSome then r else { r with classes := r.classes ++ [.placeholder c name size] }

/-- Replace the descriptor of a class. -/
def update (r : Registry Upcast Code) (c : Class)
    (f : ClassDescriptor Upcast → ClassDescriptor Upcast) : Registry Upcast Code :=
  { r with classes := r.classes.map fun d => if d.cls = c then f d else d }

/-- The descriptor of a class that is declared. -/
def declared (r : Registry Upcast Code) (c : Class) : Except RegistrationError (ClassDescriptor Upcast) :=
  match r.class? c with
  | some d => if d.declared then .ok d else .error (.unknownClass c.qualified)
  | none => .error (.unknownClass c.qualified)

/-- Declare the class of a type under the name that the host will see. -/
def declareClass (r : Registry Upcast Code) (info : TypeInfo) :
    Except RegistrationError (Registry Upcast Code) := do
  let c := info.token.asClass
  r.ensureOpen
  if (r.names.lookup info.name).any (· ≠ c) then throw (.duplicateClass info.name)
  if ((r.class? c).map (·.declared)).getD false then throw (.duplicateClass info.name)
  let r := (r.mention c info.name info.size).update c (·.declare info.name info.size)
  return { r with
    names := r.names ++ [(info.name, c)]
    types := r.types.register info }

/-- Declare the class of a type as the next superclass of `derived`. -/
def declareSuper (r : Registry Upcast Code) (derived : Class) (base : TypeInfo) (upcast : Upcast) :
    Except RegistrationError (Registry Upcast Code) := do
  let c := base.token.asClass
  r.ensureOpen
  let d ← r.declared derived
  if derived = c then throw (.inheritanceCycle d.name)
  return (r.mention c base.name base.size).update derived (·.addSuper c upcast)

/-- Marshal a declared class by value. -/
def declareValueType (r : Registry Upcast Code) (c : Class) :
    Except RegistrationError (Registry Upcast Code) := do
  r.ensureOpen
  let _ ← r.declared c
  return r.update c fun d => { d with valueType := true }

def checkArity (r : Registry Upcast Code) (name : String) (arity : Nat) : Except RegistrationError Unit :=
  if r.maxArity < arity then .error (.arityLimit name arity r.maxArity) else .ok ()

/-- Register an entry: its types, its signature, and its place in the group. -/
def registerEntry (r : Registry Upcast Code) (group : OverloadGroup) (shape : CallShape)
    (entry : SignatureEntry Code) :
    Except RegistrationError (EntryRef × OverloadGroup × Registry Upcast Code) := do
  if group.frozen then throw .alreadyInitialized
  if (group.overload? shape.arity).isSome then throw (.duplicateArity group.name shape.arity)
  let (ref, signatures) := r.signatures.register shape entry
  let group ← group.insert shape.arity ref
  return (ref, group, { r with signatures, types := r.types.registerAll shape.describe })

/-- Declare a constructor of a class. -/
def declareConstructor (r : Registry Upcast Code) (c : Class) (flags : TypeFlags) (shape : CallShape)
    (id : NameHash) (code : Code) : Except RegistrationError (EntryRef × Registry Upcast Code) := do
  r.ensureOpen
  let d ← r.declared c
  r.checkArity d.name shape.arity
  let (ref, group, r) ← r.registerEntry d.constructors shape ⟨d.name, flags.union .static, id, code⟩
  return (ref, r.update c fun d => { d with constructors := group })

/-- Declare a method, a property accessor or a static member of a class. -/
def declareMember (r : Registry Upcast Code) (c : Class) (key : GroupKey) (flags : TypeFlags)
    (shape : CallShape) (id : NameHash) (code : Code) :
    Except RegistrationError (EntryRef × Registry Upcast Code) := do
  r.ensureOpen
  let d ← r.declared c
  r.checkArity key.name shape.arity
  let flags := flags.union (if key.kind.isStatic then .static else .method)
  let group := (d.group? key).getD (.empty key.name (.cls c))
  let (ref, group, r) ← r.registerEntry group shape ⟨key.name, flags, id, code⟩
  return (ref, r.update c fun d => (d.withGroup key).setGroup key group)

def functionGroup? (r : Registry Upcast Code) (name : String) : Option OverloadGroup :=
  r.functions.find? (·.name = name)

/-- Replace the function group of a name, or append it. -/
def setFunctionGroup (r : Registry Upcast Code) (group : OverloadGroup) : Registry Upcast Code :=
  if (r.functionGroup? group.name).isSome then
    { r with functions := r.functions.map fun g => if g.name = group.name then group else g }
  else { r with functions := r.functions ++ [group] }

/-- Declare a free function. -/
def declareFunction (r : Registry Upcast Code) (name : String) (flags : TypeFlags) (shape : CallShape)
    (id : NameHash) (code : Code) : Except RegistrationError (EntryRef × Registry Upcast Code) := do
  r.ensureOpen
  r.checkArity name shape.arity
  let group := (r.functionGroup? name).getD (.empty name .global)
  let (ref, group, r) ← r.registerEntry group shape ⟨name, flags.union .static, id, code⟩
  return (ref, r.setFunctionGroup group)

/-- Close the declarations. -/
def finalize (r : Registry Upcast Code) : Except RegistrationError (Registry Upcast Code) := do
  r.ensureOpen
  let h ← Hierarchy.build r.classes
  return { r with
    classes := r.classes.map (·.markReady)
    functions := r.functions.map (·.freeze)
    exposure := some (.ofDeclarations h r.classes r.functions) }

/-! ## Queries -/

def hierarchy? (r : Registry Upcast Code) : Option (Hierarchy Upcast) :=
  r.exposure.map (·.hierarchy)

/-- The upcasts from a class to an ancestor. Before the declarations are closed a class has no ancestors. -/
def upcastPath? (r : Registry Upcast Code) (source target : Class) : Option (List Upcast) :=
  if source = target then some []
  else r.hierarchy?.bind fun h => h.upcastPath? source target

def exposedClasses (r : Registry Upcast Code) : List ExposedClass :=
  (r.exposure.map (·.classes)).getD []

def exposedClass? (r : Registry Upcast Code) (c : Class) : Option ExposedClass :=
  r.exposure.bind (·.class? c)

def exposedNamed? (r : Registry Upcast Code) (name : String) : Option ExposedClass :=
  (r.names.lookup name).bind r.exposedClass?

def exposedFunctions (r : Registry Upcast Code) : List ExposedFunction :=
  (r.exposure.map (·.functions)).getD []

def functionTag? (r : Registry Upcast Code) (name : String) : Option CallTag :=
  (r.exposedFunctions.find? (·.name = name)).map (·.tag)

def findMember? (r : Registry Upcast Code) (c : Class) (name : String) (kind : MemberKind) :
    Option ExposedMember :=
  r.exposure.bind (·.findMember? c name kind)

/-- What a tag invokes. -/
def target (r : Registry Upcast Code) (tag : CallTag) : Except CallError TagTarget :=
  match r.exposure.bind (·.tags[tag.index]?) with
  | some t => .ok t
  | none => .error (.unknownEntry tag.text)

/-- The overload group behind a target; a release has none. -/
def group? (r : Registry Upcast Code) : TagTarget → Option OverloadGroup
  | .constructor c => (r.class? c).map (·.constructors)
  | .member c i => (r.class? c).bind fun d => d.members[i]?.map (·.group)
  | .function i => r.functions[i]?
  | .release _ => none

/-- An entry with its signature. -/
def entry (r : Registry Upcast Code) (ref : EntryRef) :
    Except CallError (Signature Code × SignatureEntry Code) :=
  match r.signatures.entry? ref with
  | some e => .ok e
  | none => .error (.unknownEntry ref.outline)

def outline (r : Registry Upcast Code) : String :=
  Outline.record "BindingRegistry"
    [("classes", toString r.classes.length), ("functions", toString r.functions.length),
     ("signatures", toString r.signatures.size), ("types", toString r.types.size),
     ("initialized", Outline.bool r.isClosed)]

end Registry
end NativeBridge
