import NativeBridge.Session.Objects
/-!
# Requests about the object table

Wrapping, looking up, releasing and moving out, with the number of live wrappers after every step.
-/
namespace NativeBridge.Session
open Catalog

def wrapperDoc (heap : Heap Specimen) (w : Wrapper) : Doc :=
  .fields
    [("class", .text w.cls.name), ("flags", flagsDoc w.flags), ("const", .bool w.isConst),
     ("ownership", .text w.ownership.name), ("alive", .bool (w.isAlive heap))]

def handleDoc (h : Handle) : Doc :=
  (Wire.object h).report

def handlesDoc (t : ObjectTable) : Doc :=
  .list (t.handles.map handleDoc)

/-- Bind a named pointer to a wrapper, by a copy or by moving it in. -/
def wrapNamed (d : Doc) : Action Doc := do
  let name := d.textAt "var"
  let p ← if d.flagAt "take" then takePointer name else copyPointer name
  match p with
  | some p => return handleDoc (← Act.wrap p (d.flagAt "owned") (flagsAt d "flags"))
  | none => return .null

/-- Name a strong pointer whose reference is held. -/
def keepCell (name : String) (a : Address) : Action Unit := do
  let heap := (← get).heap
  match heap.classAt? a with
  | some c => keepPointer name ⟨c, a, false⟩
  | none => return

/-- Show the object behind a handle, and keep a pointer to it if that is asked for. -/
def showHandle (d : Doc) (h : Handle) : Action Doc :=
  reported id do
    let a ← Act.ofExcept ((← get).toHoldings.cell h)
    let seen ← showCell a
    if let some name := d.textAt? "save" then
      Act.retain [a]
      keepCell name a
    return seen

def releaseHandle (h : Handle) : Action Unit := do
  let b ← get
  set { b with toHoldings := ← Act.ofExcept (b.toHoldings.release h) }

/-- Move the object behind a handle out of its wrapper: into a named pointer, or to be shown. -/
def moveOut (d : Doc) (h : Handle) : Action Doc := do
  let taken : Action Address := do
    let b ← get
    let (a, s) ← Act.ofExcept (b.toHoldings.takeUnique h)
    set { b with toHoldings := s }
    return a
  match d.textAt? "save" with
  | some name => reported (fun _ => .null) do keepCell name (← taken)
  | none => reported .text do
    let a ← taken
    let b ← get
    let (x, s) := b.toHoldings.takeCell (classAt d "class") a
    set { b with toHoldings := s }
    shownOnce (← Act.ofExcept x)

/-- The steps that work on the object table. -/
def tableAction (d : Doc) : Action Doc :=
  let h := handleOf (d.field "obj")
  match d.textAt "do" with
  | "wrap" => wrapNamed d
  | "get" => do
    let b ← get
    return reportOutcome (wrapperDoc b.heap) (b.table.get h)
  | "cell" => showHandle d h
  | "release" => reported (fun _ => .null) (releaseHandle h)
  | "check_unique" => do return reportOutcome (fun _ => .null) ((← get).toHoldings.uniqueCell h)
  | "take_unique" => moveOut d h
  | "contains" => do return .bool ((← get).table.contains h)
  | "handles" => do return handlesDoc (← get).table
  | "clear" => do
    modify fun b => { b with toHoldings := b.toHoldings.clear }
    return .null
  | "debug" => do return .text (← get).table.outline
  | _ => return .null

def tableStep (d : Doc) (b : State) : Doc × State :=
  let (out, b) := settle ((pointerStep? d).getD (tableAction d)) b
  (.list [out, .ofNat b.table.liveCount], b)

def tableAnswer (d : Doc) : Doc :=
  answersOf tableStep d .empty

end NativeBridge.Session
