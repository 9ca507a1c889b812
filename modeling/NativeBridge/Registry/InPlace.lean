import NativeBridge.Registry.Basic
/-!
# Declarations in place

The declarations as they are carried out on the one registry: each change is made where it falls due, and what was
changed before a step fails stays changed. Nothing takes a change back, so a refused declaration leaves the registry
alone only as far as nothing that can fail comes after the first change.
-/
namespace NativeBridge.Registry
variable {Upcast Code : Type}

/-- An operation on the registry in place. It leaves a registry whether it succeeds or fails. -/
abbrev InPlace (Upcast Code : Type) :=
  EStateM RegistrationError (Registry Upcast Code)

namespace InPlace

/-- Ask the registry, without a change to it. -/
def ask {α : Type} (f : Registry Upcast Code → Except RegistrationError α) : InPlace Upcast Code α := fun r =>
  match f r with
  | .ok a => .ok a r
  | .error e => .error e r

/-- Fail if the registry has a property. -/
def refuseIf (p : Registry Upcast Code → Bool) (e : RegistrationError) : InPlace Upcast Code Unit :=
  ask fun r => if p r then .error e else .ok ()

/-- Declare the class of a type under the name that the host will see. -/
def declareClass (info : TypeInfo) : InPlace Upcast Code Unit := do
  let c := info.token.asClass
  ask (·.ensureOpen)
  refuseIf (fun r => (r.names.lookup info.name).any (· ≠ c)) (.duplicateClass info.name)
  modify (·.mention c info.name info.size)
  refuseIf (fun r => ((r.class? c).map (·.declared)).getD false) (.duplicateClass info.name)
  modify (·.update c (·.declare info.name info.size))
  modify fun r => { r with names := r.names ++ [(info.name, c)] }
  modify fun r => { r with types := r.types.register info }

/-- Declare the class of a type as the next superclass of `derived`. -/
def declareSuper (derived : Class) (base : TypeInfo) (upcast : Upcast) : InPlace Upcast Code Unit := do
  let c := base.token.asClass
  ask (·.ensureOpen)
  let d ← ask (·.declared derived)
  refuseIf (fun _ => derived = c) (.inheritanceCycle d.name)
  modify (·.mention c base.name base.size)
  modify (·.update derived (·.addSuper c upcast))

/-- Marshal a declared class by value. -/
def declareValueType (c : Class) : InPlace Upcast Code Unit := do
  ask (·.ensureOpen)
  let _ ← ask (·.declared c)
  modify (·.update c fun d => { d with valueType := true })

/-- Register an entry: its types, its signature, and its place in the group that `find` finds and `put` puts back. -/
def registerEntry (find : Registry Upcast Code → OverloadGroup)
    (put : OverloadGroup → Registry Upcast Code → Registry Upcast Code) (shape : CallShape)
    (entry : SignatureEntry Code) : InPlace Upcast Code EntryRef := do
  let group := find (← get)
  refuseIf (fun _ => group.frozen) .alreadyInitialized
  refuseIf (fun _ => (group.overload? shape.arity).isSome) (.duplicateArity group.name shape.arity)
  modify fun r => { r with types := r.types.registerAll shape.describe }
  let (ref, signatures) := (← get).signatures.register shape entry
  modify fun r => { r with signatures }
  let group ← ask fun r => (find r).insert shape.arity ref
  modify (put group)
  return ref

/-- Declare a constructor of a class. -/
def declareConstructor (c : Class) (flags : TypeFlags) (shape : CallShape) (id : NameHash) (code : Code) :
    InPlace Upcast Code EntryRef := do
  ask (·.ensureOpen)
  let d ← ask (·.declared c)
  ask (·.checkArity d.name shape.arity)
  registerEntry (fun r => ((r.class? c).map (·.constructors)).getD d.constructors)
    (fun group r => r.update c fun d => { d with constructors := group })
    shape ⟨d.name, flags.union .static, id, code⟩

/-- Declare a method, a property accessor or a static member of a class. The group is there before the entry. -/
def declareMember (c : Class) (key : GroupKey) (flags : TypeFlags) (shape : CallShape) (id : NameHash)
    (code : Code) : InPlace Upcast Code EntryRef := do
  ask (·.ensureOpen)
  let _ ← ask (·.declared c)
  ask (·.checkArity key.name shape.arity)
  let flags := flags.union (if key.kind.isStatic then .static else .method)
  modify (·.update c (·.withGroup key))
  registerEntry (fun r => ((r.class? c).bind (·.group? key)).getD (.empty key.name (.cls c)))
    (fun group r => r.update c (·.setGroup key group))
    shape ⟨key.name, flags, id, code⟩

/-- The registry in which a group of functions of the name exists. -/
def withFunctionGroup (r : Registry Upcast Code) (name : String) : Registry Upcast Code :=
  if (r.functionGroup? name).isSome then r
  else { r with functions := r.functions ++ [.empty name .global] }

/-- Declare a free function. The group is there before the entry. -/
def declareFunction (name : String) (flags : TypeFlags) (shape : CallShape) (id : NameHash) (code : Code) :
    InPlace Upcast Code EntryRef := do
  ask (·.ensureOpen)
  ask (·.checkArity name shape.arity)
  modify (withFunctionGroup · name)
  registerEntry (fun r => (r.functionGroup? name).getD (.empty name .global)) (fun group r => r.setFunctionGroup group)
    shape ⟨name, flags.union .static, id, code⟩

/-- Close the declarations. -/
def finalize : InPlace Upcast Code Unit := do
  ask (·.ensureOpen)
  let h ← ask fun r => Hierarchy.build r.classes
  let r ← get
  let exposure := Exposure.ofDeclarations h r.classes r.functions
  modify fun r => { r with classes := r.classes.map (·.markReady) }
  modify fun r => { r with functions := r.functions.map (·.freeze) }
  modify fun r => { r with exposure := some exposure }

end InPlace
end NativeBridge.Registry
