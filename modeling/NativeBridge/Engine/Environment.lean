import NativeBridge.Call.Entry
import NativeBridge.Engine.Config
/-!
# Dispatch

Everything that a call reads but does not change: the closed registry, the configuration, the host's value
bindings and the native program's own half of them. A call resolves the overload by the number of its
arguments, checks the arguments where that is due, refuses what a const receiver does not allow, runs the
entry, and reports the first error that was recorded on the way.

A value import runs constructors while a call is in progress, and their arguments may be imports again; how
deep they may nest is bounded by how deeply the values nest (`Environment.services`).
-/
namespace NativeBridge

/-- What runs behind an entry point: a typed entry, or native code with free access to the call. -/
inductive Code (Ω : Type) [ObjectModel Ω] where
  | typed (entry : Entry Ω)
  /-- Given are the services for each depth to which constructors may nest. -/
  | raw (run : (Nat → Services Ω) → Act Ω Unit)

variable (Ω : Type) [ObjectModel Ω]

/-- The native program: its half of the value types, and the host that it meets. -/
structure NativeProgram where
  exporter : Class → Exporter Ω
  host : HostBehaviour

/-- What a call reads but does not change. -/
structure Environment where
  registry : Registry (Upcast Ω) (Code Ω)
  config : EngineConfig
  bindings : List (Class × HostBinding)
  program : NativeProgram Ω

variable {Ω}

namespace Environment

/-- The message of a panic as an error. -/
def panicMessage : Panic → String
  | .text s => s
  | .other => "native code panicked"

/-- Run native code. Its panics become errors where the configuration says so. -/
def runCode (env : Environment Ω) (services : Nat → Services Ω) (code : Code Ω) : Act Ω Unit := do
  let act : Act Ω Unit := match code with
    | .typed entry => do entry.run (services (Wire.depthAll (← get).call.args))
    | .raw run => run services
  if env.config.isOn .catchNativePanics then
    match ← act.outcome with
    | .error (.panic p) => Act.fail (.native (panicMessage p))
    | r => Act.ofOutcome r
  else act

/-- What a const receiver does not allow: a method that is not declared const. -/
def checkConst (b : Boundary Ω) (name : String) (flags : TypeFlags) : Except CallError Unit := do
  if flags.contains .method && !flags.contains .const then
    if let some h := b.call.receiver then
      let w ← b.table.get h
      if w.isConst then
        throw (.constViolation ("'" ++ name ++ "' needs mutable access, " ++ h.text ++ " is const"))

/-- Resolve and run the overload of a group for the call in progress. -/
def dispatch (env : Environment Ω) (services : Nat → Services Ω) (group : OverloadGroup) : Act Ω Wire := do
  let args := (← get).call.args
  let ref ← Act.ofExcept (group.resolve args.length)
  let (signature, entry) ← Act.ofExcept (env.registry.entry ref)
  if signature.key.strict || env.config.isOn .strictTypeChecks || !group.isSingle then
    Act.ofExcept (signature.checkArgs args)
  Act.ofExcept (checkConst (← get) entry.name entry.flags)
  if let .error e := ← (env.runCode services entry.code).attempt then Act.record e
  match ← Act.takeError with
  | some e => Act.fail e
  | none => Act.takeResult

/-- The pointer that a constructor left behind. -/
def constructed (name : String) : Wire → Act Ω Pointer
  | .pointer p => pure p
  | w => Convert.refuse name w

/-- Run a constructor of a class in a call of its own that shares the error sink of the call in progress. -/
def constructNested (env : Environment Ω) (services : Nat → Services Ω) (c : Class) (args : List Wire) :
    Act Ω Pointer := do
  match (env.registry.class? c).filter (·.declared) with
  | none => (Act.fail (.unknownEntry c.qualified)).orDrop (Wire.refsAll args)
  | some d =>
    let sink := (← get).call.sink
    Act.inCall (.new args none sink) do
      constructed d.name (← env.dispatch services d.constructors)

/-- The engine as conversions see it, given how constructors are run. -/
def servicesWith (env : Environment Ω) (construct : Class → List Wire → Act Ω Pointer) : Services Ω where
  className c := (env.registry.class? c).map (·.name)
  upcastPath := env.registry.upcastPath?
  exporter c :=
    match env.registry.class? c with
    | some d => if d.valueType then some (env.program.exporter c) else none
    | none => none
  binding c := env.bindings.lookup c
  wrapFallback c := env.config.isOn .valueTypeFallback && (env.registry.exposedClass? c).isSome
  construct
  host := env.program.host

/-- The engine as conversions see it when constructors may nest at most `depth` deep. -/
def services (env : Environment Ω) : Nat → Services Ω
  | 0 => env.servicesWith fun _ args => (throw .nesting : Act Ω Pointer).orDrop (Wire.refsAll args)
  | depth + 1 => env.servicesWith (env.constructNested fun _ => env.services depth)

end Environment
end NativeBridge
