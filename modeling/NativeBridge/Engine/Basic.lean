import NativeBridge.Engine.Environment
/-!
# The engine

Calls by tag or by name, the making and releasing of wrapped objects, and conversions on the host's behalf,
over the declarations that `start` has closed.
-/
namespace NativeBridge

variable {Ω : Type} [ObjectModel Ω]

namespace Environment

/-- The first declared entry with more arguments than the limit allows. -/
def overlong? (r : Registry (Upcast Ω) (Code Ω)) (max : Nat) : Option RegistrationError :=
  r.signatures.signatures.findSome? fun s =>
    match s.entries with
    | [] => none
    | e :: _ => if max < s.arity then some (.arityLimit e.name s.arity max) else none

/-- Close the declarations and start the engine. -/
def start (r : Registry (Upcast Ω) (Code Ω)) (config : EngineConfig) (program : NativeProgram Ω) :
    Except RegistrationError (Environment Ω) := do
  if let some e := overlong? r config.maxArity then throw e
  let registry ← r.finalize
  let bound := if config.isOn .defaultRecordBinding then registry.classes.filter (·.valueType) else []
  return { registry, config, program, bindings := bound.map fun d => (d.cls, .record) }

/-! ## Host bindings -/

/-- Bind a value type to the host's half, instead of any binding before. -/
def bind (env : Environment Ω) (c : Class) (binding : HostBinding) : Environment Ω :=
  { env with bindings := (c, binding) :: env.bindings.filter (·.1 ≠ c) }

/-- Take the binding of a class away. -/
def unbind (env : Environment Ω) (c : Class) : Environment Ω :=
  { env with bindings := env.bindings.filter (·.1 ≠ c) }

/-! ## Calls -/

/-- Run an overload group in a call of its own. -/
def callGroup (env : Environment Ω) (group : OverloadGroup) (receiver : Option Handle) (args : List Wire) :
    Act Ω Wire := do
  let sink ← Act.newSink
  Act.inCall (.new args receiver sink) (env.dispatch env.services group)

/-- The name under which a class is expected. -/
def expectedName (env : Environment Ω) (c : Class) : String :=
  ((env.registry.class? c).map (·.name)).getD "object"

/-- Bind a raw pointer to a wrapper. The wrapper owns the object only if the pointer is the sole strong
reference and the flags do not say that it is shared. -/
def rewrap (env : Environment Ω) (c : Class) (p : Pointer) (flags : Wire) : Act Ω Wire := do
  let (flags, owned) ← ((do
    if (env.registry.upcastPath? p.cls c).isNone then
      Act.fail (.mismatch (env.expectedName c) p.cls.name)
    let some bits := flags.asInt?
      | Act.fail ((CallError.mismatch "int" flags.typeName).atArgument 1)
    let flags := TypeFlags.ofWord bits.toUInt64
    let sole := !p.weak && (← get).heap.strong p.address == 1
    return (flags, !flags.contains .shared && sole)).thenDrop flags.refs).orDrop p.refs
  return .object (← Act.wrap p owned flags)

/-- Construct an object of a class and wrap it for the host. Two arguments of which the first is a raw
pointer bind that pointer instead; the second holds the wrapper's flags. -/
def construct (env : Environment Ω) (c : Class) (args : List Wire) : Act Ω Wire :=
  match args with
  | [.pointer p, flags] => env.rewrap c p flags
  | args =>
    match (env.registry.exposedClass? c).bind fun _ => env.registry.class? c with
    | none => (Act.fail (.unknownEntry c.qualified)).orDrop (Wire.refsAll args)
    | some d => do
      let p ← constructed d.name (← env.callGroup d.constructors none args)
      return .object (← Act.wrap p true .none)

/-- Release a wrapper. -/
def release (h : Handle) : Act Ω Unit := do
  let b ← get
  let s ← Act.ofExcept (b.toHoldings.release h)
  set { b with toHoldings := s }

/-- Release the receiver as an object of a class. -/
def releaseAs (env : Environment Ω) (c : Class) (receiver : Option Handle) : Act Ω Wire := do
  let some h := receiver
    | Act.fail (.mismatch (env.expectedName c) "undefined")
  let w ← Act.ofExcept ((← get).table.get h)
  if (env.registry.upcastPath? w.cls c).isNone then
    Act.fail (.mismatch (env.expectedName c) w.cls.name)
  release h
  return .undefined

/-- Invoke the entry point behind a tag. -/
def call (env : Environment Ω) (tag : CallTag) (receiver : Option Handle) (args : List Wire) : Act Ω Wire :=
  match env.registry.target tag with
  | .error e => (Act.fail e).orDrop (Wire.refsAll args)
  | .ok (.constructor c) => env.construct c args
  | .ok (.release c) => (env.releaseAs c receiver).thenDrop (Wire.refsAll args)
  | .ok target =>
    match env.registry.group? target with
    | some group => env.callGroup group receiver args
    | none => (Act.fail (.unknownEntry tag.text)).orDrop (Wire.refsAll args)

/-- Construct an exposed class by name. -/
def constructNamed (env : Environment Ω) (name : String) (args : List Wire) : Act Ω Wire :=
  match env.registry.exposedNamed? name with
  | some c => env.construct c.cls args
  | none => (Act.fail (.unknownEntry name)).orDrop (Wire.refsAll args)

/-- Call a free function by name. -/
def callFunction (env : Environment Ω) (name : String) (args : List Wire) : Act Ω Wire :=
  match env.registry.functionTag? name with
  | some tag => env.call tag none args
  | none => (Act.fail (.unknownEntry name)).orDrop (Wire.refsAll args)

/-- The member of a wrapped object under the first of the kinds that has one. -/
def memberTag (env : Environment Ω) (b : Boundary Ω) (h : Handle) (name : String) (kinds : List MemberKind) :
    Except CallError (CallTag × MemberKind) := do
  let w ← b.table.get h
  let found := kinds.findSome? fun kind =>
    (env.registry.findMember? w.cls name kind).map fun m => (m.tag, kind)
  match found with
  | some m => return m
  | none => throw (.unknownEntry (w.cls.name ++ "." ++ name))

/-- Call a member of a wrapped object. A static member gets no receiver. -/
def callMember (env : Environment Ω) (h : Handle) (name : String) (kinds : List MemberKind)
    (args : List Wire) : Act Ω Wire := do
  let (tag, kind) ← (do Act.ofExcept (env.memberTag (← get) h name kinds)).orDrop (Wire.refsAll args)
  env.call tag (if kind.isStatic then none else some h) args

/-- Call a method, or else a static member, of a wrapped object by name. -/
def callMethod (env : Environment Ω) (h : Handle) (name : String) (args : List Wire) : Act Ω Wire :=
  env.callMember h name [.method, .staticMethod] args

/-- Read a property of a wrapped object. -/
def getProperty (env : Environment Ω) (h : Handle) (name : String) : Act Ω Wire :=
  env.callMember h name [.getter] []

/-- Write a property of a wrapped object. -/
def setProperty (env : Environment Ω) (h : Handle) (name : String) (value : Wire) : Act Ω Unit := do
  let w ← env.callMember h name [.setter] [value]
  Act.drop w.refs

/-- Release every wrapper, and tell how many there were. -/
def shutdown : Act Ω Nat := do
  let b ← get
  set { b with toHoldings := b.toHoldings.clear }
  return b.table.liveCount

/-! ## Conversions for the host -/

/-- Run an action in a call of its own with the given arguments. -/
def aside {α : Type} (args : List Wire) (act : Act Ω α) : Act Ω α := do
  let sink ← Act.newSink
  Act.inCall (.new args none sink) act

/-- Convert a native value to its boundary form. -/
def toWire (env : Environment Ω) (t : NativeType) (x : t.Value Ω) : Act Ω Wire :=
  aside [] (Convert.toWire (env.services 0) t x)

/-- Convert a boundary value to a native one. -/
def fromWire (env : Environment Ω) (t : NativeType) (w : Wire) : Act Ω (t.Value Ω) :=
  aside [w] (Entry.arg (env.services w.depth) t 0)

/-- The engine as diagnostics show it. -/
def outline (env : Environment Ω) (b : Boundary Ω) : String :=
  Outline.openRecord "Engine" [("registry", env.registry.outline), ("objects", b.table.outline)]

end Environment
end NativeBridge
