import NativeBridge.Call.Services
import NativeBridge.Report
/-!
# The host of the catalog

Functions of the host by name, and the ways in which the host can hold the value types.
-/
namespace NativeBridge.Catalog

/-! ## Functions -/

/-- What a function does: the part of its name before the first `#`. Several functions may do the same. -/
def deed (f : HostFunction) : String :=
  String.ofList (f.name.toList.takeWhile (· != '#'))

/-- The first argument as the text of an error. -/
def firstNumber : List Wire → String
  | .int n :: _ => toString n.toInt
  | _ => "nothing"

/-- What a function answers. -/
def answer (f : HostFunction) (args : List Wire) : Except Interrupt Wire :=
  match deed f with
  | "double" =>
    match args with
    | .int n :: _ => .ok (.int (n * 2))
    | _ => .error (.error (.mismatch "int" "nothing"))
  | "fail" => .error (.error (.native ("host failed on " ++ firstNumber args)))
  | "arity" => .error (.error (.arityMismatch "host" args.length))
  | "echo" => .ok (.array args)
  | "first" => .ok (args.head?.getD .undefined)
  | "big" => .ok (.int 300)
  | "log" => .ok .null
  | "panic" => .error (.panic (.text "host panic"))
  | _ => .ok .undefined

/-- The functions of the host; `log` writes its arguments down. -/
def host : HostBehaviour := fun f args journal =>
  (answer f args, if deed f = "log" then journal ++ [.list (Wire.reportAll args)] else journal)

/-! ## Value bindings -/

/-- The constructor arguments in a value: the items of an array, or the fields of a record from the last to
the first. -/
def itemsOf (name : String) : Wire → Except CallError (List Wire)
  | .array ws => .ok ws
  | .record _ ws => .ok ws.reverse
  | w => .error (.mismatch name w.typeName)

/-- A binding that holds values as arrays and reads them as told. -/
def arrayBinding (read : String → List Wire → ImportScript) : HostBinding where
  construct _ fields := .ok (.array fields)
  read name w :=
    match itemsOf name w with
    | .ok items => read name items
    | .error e => .done (.error e)

/-- Hand the items over once. -/
def handOver (_ : String) (items : List Wire) : ImportScript :=
  .emit items .done

/-- The host's half of a value type by name; an unknown name means plain arrays. -/
def bindingNamed : String → HostBinding
  | "record" => .record
  | "fail" => { arrayBinding (fun name _ => .done (.error (.native ("cannot read " ++ name)))) with
      construct := fun name _ => .error (.native ("cannot build " ++ name)) }
  | "count" => { arrayBinding handOver with
      construct := fun _ fields => .ok (.int (Int64.ofNat fields.length)) }
  | "reverse" => { arrayBinding handOver with
      construct := fun name fields => .ok (.record name.toLower fields.reverse) }
  | "never" => arrayBinding fun _ _ => .done (.ok ())
  | "twice" => arrayBinding fun _ items => .emit items fun
      | .ok () => .emit items.reverse .done
      | .error e => .done (.error e)
  | "swallow" => arrayBinding fun _ items => .emit items fun _ => .done (.ok ())
  | _ => arrayBinding handOver

end NativeBridge.Catalog
