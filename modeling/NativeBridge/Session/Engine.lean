import NativeBridge.Engine.Basic
import NativeBridge.Session.Declaring
import NativeBridge.Session.Values
/-!
# Requests about an engine

An engine is declared, started and then used step by step. After every step the number of live wrappers is
told, and what host functions and scripts have written down meanwhile.
-/
namespace NativeBridge.Session
open Catalog

/-- A running engine and the objects around it. -/
structure Running where
  env : Environment Specimen
  state : State

/-- The native program of the catalog. -/
def program : NativeProgram Specimen where
  exporter := exporter
  host := host

/-! ## Starting -/

def configOf (d : Doc) : EngineConfig :=
  match d.field "config" with
  | .fields entries => entries.foldl (fun c (name, value) =>
      match EngineProperty.ofName? name with
      | some p => c.set p (value.asWord?.getD 0).toNat
      | none => c) .new
  | _ => .new

/-- The direct superclasses of every class, as declared. -/
def lineageOf (r : Declarations) : List (Class × List Class) :=
  r.classes.map fun d => (d.cls, d.supers.map (·.cls))

/-- A session around an engine that has just been started. -/
def Running.begin (env : Environment Specimen) : Running :=
  ⟨env, { Boundary.empty with program := ⟨none, lineageOf env.registry⟩ }⟩

/-! ## Steps -/

def receiverOf (d : Doc) : Option Handle :=
  if d.has "this" then some (handleOf (d.field "this")) else none

/-- Report the result of a call. If it is a pointer it may be kept under a name. -/
def resultOf (d : Doc) (act : Action Wire) : Action Doc :=
  reportedWire do
    let w ← act
    if let (some name, .pointer p) := (d.textAt? "save", w) then
      Act.retain p.refs
      keepPointer name p
    return w

/-- Calls and conversions. -/
def callStep? (env : Environment Specimen) (d : Doc) : Option (Action Doc) :=
  let this := handleOf (d.field "this")
  let name := d.textAt "name"
  let calling (act : List Wire → Action Wire) : Option (Action Doc) :=
    some do
      let args ← argsAt d
      resultOf d (act args)
  match d.textAt "do" with
  | "call" => calling (env.call ⟨d.indexAt "tag"⟩ (receiverOf d))
  | "new" => calling (env.constructNamed name)
  | "construct" => calling (env.construct (classAt d "class"))
  | "fn" => calling (env.callFunction name)
  | "method" => calling (env.callMethod this name)
  | "get" => some (resultOf d (env.getProperty this name))
  | "set" => some do
    let value ← wireOf (d.field "value")
    resultOf d do
      env.setProperty this name value
      return .undefined
  | "round" => some do
    let value ← wireOf (d.field "value")
    match argumentNamed? (d.textAt "type") with
    | some t => resultOf d do env.toWire t (← env.fromWire t value)
    | none =>
      Act.drop value.refs
      return .null
  | "to_wire" => (Species.ofName? (d.textAt "class")).map fun s => do
    let x ← makeObject s (d.itemsAt "args")
    resultOf d (env.toWire (.object s.cls) x)
  | _ => none

/-- Steps on the wrappers, and questions that need the objects. -/
def wrapperStep? (env : Environment Specimen) (d : Doc) : Option (Action Doc) :=
  let this := handleOf (d.field "this")
  match d.textAt "do" with
  | "release" => some (reported nothing (Environment.release this))
  | "shutdown" => some do return .ofNat (← Environment.shutdown)
  | "handles" => some do return handlesDoc (← get).table
  | "wrapper" => some do
    let b ← get
    return reportOutcome (wrapperDoc b.heap) (b.table.get this)
  | "config" => some (return configDoc env.config)
  | "engine_debug" => some do return .text (env.outline (← get))
  | _ => none

/-- Steps on the host's value bindings. -/
def bindStep? (d : Doc) (env : Environment Specimen) : Option (Doc × Environment Specimen) :=
  let c := classAt d "class"
  match d.textAt "do" with
  | "bind" => some (.null, env.bind c (bindingNamed (d.textAt "binding")))
  | "unbind" => some (.bool (env.bindings.lookup c).isSome, env.unbind c)
  | _ => none

/-- Answer one step. -/
def stepAnswer (d : Doc) (run : Running) : Doc × Running :=
  match bindStep? d run.env with
  | some (out, env) => (out, { run with env })
  | none =>
    match (callStep? run.env d <|> wrapperStep? run.env d) <|> pointerStep? d with
    | some act =>
      let (out, state) := settle act run.state
      (out, { run with state })
    | none => ((registryQuery? lengthDoc run.env.registry d).getD .null, run)

/-- One step, with what is told after it. -/
def engineStep (d : Doc) (run : Running) : Doc × Running :=
  let (out, run) := stepAnswer d { run with state := { run.state with journal := [] } }
  let log := if run.state.journal.isEmpty then [] else [("log", Doc.list run.state.journal)]
  (.fields ([("out", out), ("live", .ofNat run.state.table.liveCount)] ++ log), run)

def engineAnswer (d : Doc) : Doc :=
  let config := configOf d
  let maxArity := if d.flagAt "plain" then Registry.defaultMaxArity else config.maxArity
  let (declared, r) := runSteps declareEntry (d.itemsAt "declare") (.empty maxArity)
  match Environment.start r config program with
  | .error e => .fields [("declare", .list declared), ("init", e.report)]
  | .ok env =>
    let (answers, _) := runSteps engineStep (d.itemsAt "steps") (.begin env)
    .fields [("declare", .list declared), ("init", .text "ok"), ("steps", .list answers)]

end NativeBridge.Session
