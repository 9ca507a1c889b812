import NativeBridge.Call.Body
import NativeBridge.Session.Request
/-!
# Requests about callbacks

Named callbacks and two error sinks to bind them to.
-/
namespace NativeBridge.Session
open Catalog

/-- Named callbacks over a session, and the serial number of the next new function. -/
structure CallbackDesk where
  state : State
  named : List (String × Callback)
  serial : Nat

namespace CallbackDesk

def start : CallbackDesk :=
  ⟨{ Boundary.empty with sinks := [none, none] }, [], 1⟩

def put (desk : CallbackDesk) (name : String) (c : Callback) : CallbackDesk :=
  { desk with named := (name, c) :: desk.named.filter (·.1 ≠ name) }

/-- The number of named copies of a function. -/
def copies (desk : CallbackDesk) (c : Callback) : Nat :=
  (desk.named.filter fun (_, d) => c.same d).length

/-- Name what is made of the callback `from`. -/
def derive (desk : CallbackDesk) (d : Doc) (make : Callback → Callback) : Doc × CallbackDesk :=
  match desk.named.lookup (d.textAt "from") with
  | some c => (.null, desk.put (d.textAt "var") (make c))
  | none => (.text "missing", desk)

/-- Answer about the callback `var`. -/
def about (desk : CallbackDesk) (d : Doc) (answer : Callback → Doc × CallbackDesk) : Doc × CallbackDesk :=
  match desk.named.lookup (d.textAt "var") with
  | some c => answer c
  | none => (.text "missing", desk)

def call (desk : CallbackDesk) (d : Doc) (c : Callback) : Doc × CallbackDesk :=
  let act : Action Doc := do
    let args ← argsAt d
    return reportOutcome Wire.report (← c.invoke host args)
  let (answer, state) := settle act desk.state
  (answer, { desk with state })

def info (desk : CallbackDesk) (c : Callback) : Doc :=
  .fields [("scoped", .bool c.isScoped), ("refs", .ofNat (desk.copies c)), ("debug", .text c.outline)]

def step (d : Doc) (desk : CallbackDesk) : Doc × CallbackDesk :=
  let var := d.textAt "var"
  let sink := d.countAt "sink" % 2
  match d.textAt "do" with
  | "new" => (.null, { desk.put var ⟨⟨d.textAt "fn", desk.serial⟩, none⟩ with serial := desk.serial + 1 })
  | "clone" => desk.derive d id
  | "scoped" => desk.derive d (·.bindTo sink)
  | "detach" => desk.derive d Callback.detach
  | "drop" =>
    (.bool (desk.named.lookup var).isSome, { desk with named := desk.named.filter (·.1 ≠ var) })
  | "call" => desk.about d (desk.call d)
  | "info" => desk.about d fun c => (desk.info c, desk)
  | "same" => desk.about d fun c =>
    match desk.named.lookup (d.textAt "from") with
    | some other =>
      (.list [.bool (c.same other), .bool ((Wire.function c).equal (.function other))], desk)
    | none => (.text "missing", desk)
  | "record" =>
    match callErrorOf? (d.field "err") with
    | some e => (.null, { desk with state.sinks := recordIn desk.state.sinks sink e })
    | none => (.null, desk)
  | "has" =>
    let has := (desk.state.errorIn sink).isSome
    (.list [.bool has, .text (Outline.tuple "ErrorSink" [Outline.bool has])], desk)
  | "take" =>
    (.optional CallError.report (desk.state.errorIn sink),
     { desk with state.sinks := desk.state.sinks.set sink none })
  | _ => (.null, desk)

end CallbackDesk

def callbackAnswer (d : Doc) : Doc :=
  let (answers, desk) := runSteps CallbackDesk.step (d.itemsAt "steps") .start
  .fields [("steps", .list answers), ("log", .list desk.state.journal)]

end NativeBridge.Session
