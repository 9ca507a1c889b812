import NativeBridge.Call.Entry
import NativeBridge.Catalog.Behaviour
import NativeBridge.Session.Dump
import NativeBridge.Session.Request
/-!
# Objects of a session

Making, showing and poking native objects, and the steps that work on the session's named pointers.
-/
namespace NativeBridge.Session
open Catalog

/-! ## Making, showing, poking -/

/-- Run a body that makes an object. -/
def built {c : Class} (body : Body Specimen Unit (Instance Specimen c)) : Action (Instance Specimen c) := do
  let ended ← Body.run host () body
  (Entry.harvest Instance.refs ended).thenDrop ended.fresh

/-- Make an object of a species from plain data. -/
def makeObject (s : Species) (args : List Doc) : Action (Of s) :=
  built (make args s)

/-- Show an object. -/
def shown {c : Class} (x : Instance Specimen c) : Action String := do
  return x.object.display (← get).heap

/-- Show an object that is held, and give it up. -/
def shownOnce {c : Class} (x : Instance Specimen c) : Action String :=
  (shown x).thenDrop x.refs

/-- A way to change an object in place: what the use makes of it is kept. -/
abbrev Writing (c : Class) :=
  ∀ {β : Type}, (Instance Specimen c → Action (Except Interrupt β × Instance Specimen c)) → Action β

/-- Change an object by a body. -/
def changeBy {c : Class} {α : Type} (write : Writing c) (body : Body Specimen (Instance Specimen c) α) :
    Action α := do
  let (outcome, fresh) ← write fun x => do
    let ended ← Body.run host x body
    return (.ok (ended.outcome, ended.fresh), ended.receiver)
  (Act.ofOutcome outcome).thenDrop fresh

/-- Poke the receiver and show it. -/
def pokeAndShow {c : Class} (n : Int64) : Body Specimen (Instance Specimen c) String := do
  pokeReceiver n
  showOf (← Body.receiver).object

/-! ## Cells -/

def showAt (a : Address) (path : List (Upcast Specimen)) (c : Class) : Action String :=
  Access.reading a path c shown

def writingAt (a : Address) (path : List (Upcast Specimen)) (c : Class) : Writing c :=
  Access.writing a path c

/-- Show the object in a cell as what it is. -/
def showCell (a : Address) : Action Doc := do
  match (← get).heap.classAt? a with
  | some c => reported .text (showAt a [] c)
  | none => return .null

/-- The steps of a path by name. -/
def stepNamed : String → Upcast Specimen
  | "sprite_point" => Specimen.spritePoint
  | "rect_a" => Specimen.rectFirst
  | "rect_b" => Specimen.rectSecond
  | "point" => Specimen.pointSelf
  | _ => Specimen.refusing

/-! ## Named pointers -/

/-- Do something with the pointer `var`, if it is set. -/
def withPointer (name : String) (act : Pointer → Action Doc) : Action Doc := do
  match pointer? (← get) name with
  | some p => act p
  | none => return .null

/-- Do something with the object behind the pointer `var`, if it is set and the object is there. -/
def withObject (name : String) (act : Address → Action Doc) : Action Doc :=
  withPointer name fun p => do
    if (← get).heap.isAlive p.address then act p.address else return .null

/-- Name a pointer to the object behind another one. -/
def derivePointer (d : Doc) (weak : Bool) : Action Doc := do
  let b ← get
  match pointer? b (d.textAt "from") with
  | none => return .bool false
  | some p =>
    if b.heap.isAlive p.address then
      let q := { p with weak }
      Act.retain q.refs
      keepPointer (d.textAt "var") q
      return .bool true
    else return .bool false

/-- Name a copy of a pointer. -/
def duplicatePointer (d : Doc) : Action Doc := do
  match ← copyPointer (d.textAt "from") with
  | some p =>
    keepPointer (d.textAt "var") p
    return .bool true
  | none => return .bool false

def describePointer (p : Pointer) : Action Doc := do
  let heap := (← get).heap
  let alive := heap.isAlive p.address
  let seen ← if alive then showCell p.address else pure .null
  return .fields
    [("class", .text p.cls.name), ("token", classDoc p.cls), ("weak", .bool p.weak),
     ("link", .text (if p.weak then "weak" else "strong")),
     ("sole", .bool (!p.weak && heap.strong p.address == 1)), ("alive", .bool alive),
     ("strong", .ofNat (heap.strong p.address)), ("show", seen)]

/-- Use a node while it is being used already. -/
def nestedUse (a : Address) (outerWrite innerWrite : Bool) : Action Doc := do
  let node := Species.node.cls
  let inner : Action Doc :=
    reported .text (if innerWrite then changeBy (writingAt a [] node) (pokeAndShow 9) else showAt a [] node)
  reported id <|
    if outerWrite then Access.writing a [] node fun x => do return (.ok (← inner), x)
    else Access.reading a [] node fun _ => inner

/-- What remains of a node that nothing holds. -/
def deadHandle : Action Doc := do
  let p ← Act.newObject (Specimen.ofNode "anon" : Of .node)
  Act.drop p.refs
  let alive := (← get).heap.isAlive p.address
  return .list [.bool alive, .bool alive, .bool alive,
    .text (Outline.tuple "Borrowed<Node>" ["alive: " ++ Outline.bool alive])]

/-- The steps that work on named pointers. -/
def pointerStep? (d : Doc) : Option (Action Doc) :=
  let var := d.textAt "var"
  let c := classAt d "class"
  let n := d.intAt "n"
  let path := (d.textsAt "path").map stepNamed
  match d.textAt "do" with
  | "native" => some do
    if let some s := Species.ofName? (d.textAt "class") then
      let x ← makeObject s (d.itemsAt "args")
      keepPointer var (← Act.newObject x)
    return .null
  | "share" => some (derivePointer d false)
  | "weak" => some (derivePointer d true)
  | "copy" => some (duplicatePointer d)
  | "drop" => some do return .bool (← dropPointer var)
  | "var" => some (withPointer var describePointer)
  | "same" => some <| withPointer var fun p => withPointer (d.textAt "from") fun q =>
    return .list [.bool (p.address == q.address), .bool ((Wire.pointer p).equal (.pointer q))]
  | "into_owned" => some do
    match ← takePointer var with
    | some p => reported .text do shownOnce (← Access.intoOwned c p)
    | none => return .null
  | "read" => some <| withObject var fun a => reported .text (showAt a path c)
  | "write" => some <| withObject var fun a =>
    reported .text (changeBy (writingAt a path c) (pokeAndShow n))
  | "nested" => some <| withObject var fun a =>
    nestedUse a (d.flagAt "outer_write") (d.flagAt "inner_write")
  | "poison" => some <| withObject var fun a =>
    reported .text (changeBy (writingAt a [] c) do
      pokeReceiver n
      Body.panicWith "poisoned")
  | "weak_dead" => some deadHandle
  | _ => none

end NativeBridge.Session
