import NativeBridge.Engine.Environment
import NativeBridge.Session.Table
/-!
# Scripts

Native code with free access to its call, written as a list of operations. Each operation appends its answer
to the journal, and the script ends with its last operation. An operation that fails the native ends the
script at once.
-/
namespace NativeBridge.Session
open Catalog

/-- The engine as a script sees it, for each depth to which constructors may nest. -/
abbrev Reach := Nat → Services Specimen

/-- The engine as conversions of the present arguments see it. -/
def servicesHere (reach : Reach) : Action (Services Specimen) := do
  return reach (Wire.depthAll (← get).call.args)

def journalize (d : Doc) : Action Unit :=
  modify fun b => { b with journal := b.journal ++ [d] }

/-- Report a boundary value that is held, and give it up. -/
def reportedWire (act : Action Wire) : Action Doc := do
  match ← act.attempt with
  | .ok w =>
    Act.drop w.refs
    return .success w.report
  | .error e => return e.report

def nothing (_ : Unit) : Doc := .null

def checked (check : State → Except CallError Unit) : Action Doc := do
  return reportOutcome nothing (check (← get))

/-! ## Arguments and result -/

/-- Do something with the type that a field names. One that is never an argument gives no answer. -/
def withArgumentType (d : Doc) (act : NativeType → Action Doc) : Action Doc :=
  match argumentNamed? (d.textAt "type") with
  | some t => act t
  | none => return .null

/-- Convert an argument and convert it back, through the result slot. -/
def convertArg (reach : Reach) (i : Nat) (t : NativeType) : Action Doc :=
  reportedWire do
    let sv ← servicesHere reach
    let x ← Entry.arg sv t i
    Act.setResult (← Convert.toWire sv t x)
    Act.takeResult

def foresee (i : Nat) (t : NativeType) : Action Doc := do
  let b ← get
  match b.call.args[i]? with
  | some w => return reportOutcome nothing (Convert.precheck b t w)
  | none => return .null

/-- Move all arguments out. -/
def takeArgs : Action Doc := do
  let args := (← get).call.args
  modify fun b => { b with call := { b.call with args := [] } }
  Act.drop (Wire.refsAll args)
  return .list [.list (Wire.reportAll args), .ofNat (← get).call.args.length]

def answerWith (w : Wire) : Action Doc := do
  Act.setResult w
  return .null

/-- A copy of an argument as the result. -/
def answerArg (i : Nat) : Action Doc := do
  let w := ((← get).call.args[i]?).getD .undefined
  Act.retain w.refs
  answerWith w

/-- Call the callback in an argument. A failure to take it fails the native. -/
def callArg (reach : Reach) (i : Nat) (args : List Doc) : Action Doc := do
  let c ← Entry.arg (← servicesHere reach) .callback i
  let ws ← wiresOf args
  reportedWire do Act.ofExcept (← c.invoke host ws)

/-! ## Objects -/

/-- Count the strong references to an object that is held once for that, and give it up. -/
def counted (act : Action Address) : Action Doc :=
  reported Doc.ofNat do
    let a ← act
    let n := (← get).heap.strong a
    Act.drop [a]
    return n

/-- Show the object behind a copy of a named pointer. -/
def readNamed (sv : Services Specimen) (name : String) (c : Class) : Action Doc := do
  match ← copyPointer name with
  | some p => (reported .text (Access.readPointer sv p c shown)).thenDrop p.refs
  | none => return .null

def sharedNamed (name : String) (c : Class) : Action Doc := do
  match ← copyPointer name with
  | some p => (counted (Access.sharedPointer p c)).thenDrop p.refs
  | none => return .null

/-- Show and change the receiver. -/
def readThis (sv : Services Specimen) (c : Class) : Action Doc :=
  reported .text do
    let h ← Act.ofExcept (Access.requireThis (← get) c)
    Access.readObject sv h c shown

def writeThis (sv : Services Specimen) (c : Class) (n : Int64) : Action Doc :=
  reported .text do
    let h ← Act.ofExcept (Access.requireThis (← get) c)
    changeBy (Access.writeObject sv h c) (pokeAndShow n)

/-! ## The engine -/

/-- Give the exporter of a class an object of another. -/
def exportForeign (sv : Services Specimen) (c : Class) : Doc :=
  match sv.exporter c with
  | some _ => (CallError.mismatch c.name "foreign value").report
  | none => .null

def constructHere (reach : Reach) (c : Class) (args : List Doc) : Action Doc := do
  let ws ← wiresOf args
  reportedWire do return .pointer (← (reach (Wire.depthAll ws + 1)).construct c ws)

def importHere (reach : Reach) (c : Class) (value : Doc) : Action Doc := do
  let w ← wireOf value
  reported .text do shownOnce (← Convert.importValue (reach w.depth) c w)

def contextOutline (b : State) : String :=
  Outline.openRecord "CallContext"
    [("arg_count", toString b.call.args.length),
     ("this", Outline.option (b.call.receiver.map Handle.outline)),
     ("errors", Outline.tuple "ErrorSink" [Outline.bool (b.errorIn b.call.sink).isSome])]

/-- Questions about what the engine knows of classes. -/
def classQuery? (sv : Services Specimen) (d : Doc) : Option Doc :=
  let c := classAt d "class"
  match d.textAt "x" with
  | "class_name" => some (.optional .text (sv.className c))
  | "upcast" =>
    some (.optional (fun p => .ofNat p.length) (sv.upcastPath (classAt d "from") (classAt d "to")))
  | "exporter" => some (.bool (sv.exporter c).isSome)
  | "host" => some (.bool (sv.binding c).isSome)
  | "fallback" => some (.bool (sv.wrapFallback c))
  | "export_foreign" => some (exportForeign sv c)
  | _ => none

/-- Operations on the arguments, the result and the errors of the call. -/
def callOp? (reach : Reach) (d : Doc) : Option (Action Doc) :=
  let i := d.countAt "index"
  match d.textAt "x" with
  | "arg" => some (withArgumentType d (convertArg reach i))
  | "precheck" => some (withArgumentType d (foresee i))
  | "args" => some do return .list (Wire.reportAll (← get).call.args)
  | "argc" => some do return .ofNat (← get).call.args.length
  | "take_args" => some takeArgs
  | "ret" => some do answerWith (← wireOf (d.field "value"))
  | "ret_arg" => some (answerArg i)
  | "take_return" => some do
    let w ← Act.takeResult
    Act.drop w.refs
    return w.report
  | "record" => some do
    Act.record (.native (d.textAt "message"))
    return .null
  | "has_error" => some do
    let b ← get
    return .bool (b.errorIn b.call.sink).isSome
  | "take_error" => some do return .optional CallError.report (← Act.takeError)
  | "call" => some (callArg reach i (d.itemsAt "args"))
  | "this" => some do return .optional handleDoc (← get).call.receiver
  | "debug" => some do return .text (contextOutline (← get))
  | "fail" => some (Act.fail (.native (d.textAt "message")))
  | "mismatch" => some (Act.fail (.mismatch (d.textAt "expected") (d.textAt "actual")))
  | "panic" => some (throw (.panic (.text (d.textAt "message"))))
  | _ => none

/-- Operations on objects. -/
def objectOp? (reach : Reach) (d : Doc) : Option (Action Doc) :=
  let c := classAt d "class"
  let h := handleOf (d.field "obj")
  let n := d.intAt "n"
  let name := d.textAt "var"
  let sv := reach 0
  match d.textAt "x" with
  | "check_this" => some (checked fun b => Access.checkThis sv b c (d.flagAt "mut"))
  | "read_this" => some (readThis sv c)
  | "write_this" => some (writeThis sv c n)
  | "read" => some (reported .text (Access.readObject sv h c shown))
  | "write" => some (reported .text (changeBy (Access.writeObject sv h c) (pokeAndShow n)))
  | "read_ptr" => some (readNamed sv name c)
  | "shared" => some (counted (Access.sharedObject h c (d.flagAt "const")))
  | "shared_ptr" => some (sharedNamed name c)
  | "check_unique" => some (checked fun b => Access.checkUnique b c h)
  | "take_unique" => some (reported .text do shownOnce (← Access.takeUnique c h))
  | "import" => some (importHere reach c (d.field "value"))
  | "construct" => some (constructHere reach c (d.itemsAt "args"))
  | "wrap" => some (wrapNamed d)
  | "release" => some (reported nothing (releaseHandle h))
  | "drop" => some do return .bool (← dropPointer name)
  | "live" => some do return .ofNat (← get).table.liveCount
  | _ => none

/-- An operation that contains no others. -/
def simpleOp (reach : Reach) (d : Doc) : Action Doc :=
  match classQuery? (reach 0) d with
  | some answer => return answer
  | none => ((callOp? reach d <|> objectOp? reach d)).getD (return .null)

/-! ## Operations that contain others -/

/-- Run an operation in a call of its own that shares the error sink, for its result. -/
def nestedCall (d : Doc) (act : Action Unit) : Action Doc := do
  let args ← argsAt d
  let receiver := if d.has "this" then some (handleOf (d.field "this")) else none
  let sink := (← get).call.sink
  reportedWire <| Act.inCall (.new args receiver sink) do
    act
    Act.takeResult

/-- Run operations while an object is being read or written, for the list of their answers. -/
def whileBorrowed (sv : Services Specimen) (d : Doc) (act : Action (List Doc)) : Action Doc :=
  let c := classAt d "class"
  let h := handleOf (d.field "obj")
  reported .list <|
    if d.flagAt "mut" then Access.writeObject sv h c fun x => do return (.ok (← act), x)
    else Access.readObject sv h c fun _ => act

/-- The items of a field are no larger than the document. -/
theorem sizeOf_itemsAt (d : Doc) (name : String) : sizeOf (d.itemsAt name) ≤ sizeOf d := by
  cases d with
  | fields entries =>
    have key : ∀ es : List (String × Doc), sizeOf (((es.lookup name).getD .null).items) ≤ sizeOf es := by
      intro es
      induction es with
      | nil => simp [List.lookup_nil, Doc.items]
      | cons e es ih =>
        obtain ⟨k, v⟩ := e
        simp only [List.lookup_cons]
        split
        · cases v <;> simp [Doc.items] <;> omega
        · simp only [List.cons.sizeOf_spec]
          omega
    have h := key entries
    simp only [Doc.itemsAt, Doc.field, Doc.field?, Doc.fields.sizeOf_spec]
    omega
  | null => simp [Doc.itemsAt, Doc.field, Doc.field?, Doc.items]
  | bool b => simp [Doc.itemsAt, Doc.field, Doc.field?, Doc.items]
  | int n => simp [Doc.itemsAt, Doc.field, Doc.field?, Doc.items]
  | text s => simp [Doc.itemsAt, Doc.field, Doc.field?, Doc.items]
  | list ds => simp [Doc.itemsAt, Doc.field, Doc.field?, Doc.items]

mutual

/-- Run an operation for its answer. -/
def runOp (reach : Reach) (d : Doc) : Action Doc :=
  match d.textAt "x" with
  | "nested" => nestedCall d (runScript reach (d.itemsAt "then"))
  | "borrow" => whileBorrowed (reach 0) d (runOps reach (d.itemsAt "then"))
  | _ => simpleOp reach d
termination_by (sizeOf d, 1)
decreasing_by
  all_goals
    have := sizeOf_itemsAt d "then"
    simp only [Prod.lex_def]
    omega

/-- Run operations for their answers. -/
def runOps (reach : Reach) : List Doc → Action (List Doc)
  | [] => pure []
  | d :: ds => do
    let answer ← runOp reach d
    return answer :: (← runOps reach ds)
termination_by ds => (sizeOf ds, 0)

/-- Run a script: every answer goes to the journal. -/
def runScript (reach : Reach) : List Doc → Action Unit
  | [] => pure ()
  | d :: ds => do
    journalize (← runOp reach d)
    runScript reach ds
termination_by ds => (sizeOf ds, 0)

end

/-- A script as native code. -/
def scriptCode (ops : List Doc) : Code Specimen :=
  .raw fun reach => runScript reach ops

end NativeBridge.Session
