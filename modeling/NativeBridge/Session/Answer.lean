import NativeBridge.Session.Callbacks
import NativeBridge.Session.Engine
/-!
# Answers

One request, one answer. Every request begins a session of its own.
-/
namespace NativeBridge.Session

/-- Run an action in a session of its own. -/
def alone (act : Action Doc) : Doc :=
  (settle act .empty).1

/-- Answer a request. -/
def answer (d : Doc) : Doc :=
  match d.textAt "op" with
  | "hash" => hashAnswer d
  | "error" => errorAnswer d
  | "wire" => alone (wireAnswer d)
  | "from" => alone (fromAnswer d)
  | "type" => alone (typeAnswer d)
  | "slot" => answersOf slotStep d none
  | "member_kind" => memberKindAnswer d
  | "flags" => flagsAnswer d
  | "config" => configAnswer d
  | "callback" => callbackAnswer d
  | "types" => typesAnswer d
  | "overload" => overloadAnswer d
  | "signatures" => signaturesAnswer d
  | "class" => classAnswer d
  | "hierarchy" => hierarchyAnswer d
  | "registry" => registryAnswer d
  | "table" => tableAnswer d
  | "engine" => engineAnswer d
  | _ => .null

end NativeBridge.Session
