/-!
# Outlines of values

Diagnostics show a value by its name and parts: `Name(a, b)` for a tuple, `[a, b]` for a sequence, and
named fields in braces for a record, which ends in `..` when it leaves some out.
-/
namespace NativeBridge.Outline

def commas (parts : List String) : String :=
  ", ".intercalate parts

def sequence (items : List String) : String :=
  "[" ++ commas items ++ "]"

def tuple (name : String) (parts : List String) : String :=
  name ++ "(" ++ commas parts ++ ")"

/-- A record all of whose fields are shown. -/
def record (name : String) (entries : List (String × String)) : String :=
  name ++ " \x7b " ++ commas (entries.map fun (k, v) => k ++ ": " ++ v) ++ " \x7d"

/-- A record that leaves fields out. -/
def openRecord (name : String) (entries : List (String × String)) : String :=
  name ++ " \x7b " ++ commas ((entries.map fun (k, v) => k ++ ": " ++ v) ++ [".."]) ++ " \x7d"

def bool (b : Bool) : String :=
  if b then "true" else "false"

def option (shown : Option String) : String :=
  match shown with
  | none => "None"
  | some s => "Some(" ++ s ++ ")"

end NativeBridge.Outline
