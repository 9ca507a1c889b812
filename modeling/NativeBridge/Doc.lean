/-!
# Documents

A document is a tree of plain data: the form in which a script of requests reaches the library and in
which its answers leave it. Reading a field never fails: a missing field reads as `null`, a field of
another form as the neutral value of the form asked for.
-/
namespace NativeBridge

/-- A tree of plain data. The fields of a record keep the order in which they were written. -/
inductive Doc where
  | null
  | bool (value : Bool)
  | int (value : Int)
  | text (value : String)
  | list (items : List Doc)
  | fields (entries : List (String × Doc))
deriving Inhabited, Repr

namespace Doc

/-- The field called `name`, if the document is a record that has one. -/
def field? (d : Doc) (name : String) : Option Doc :=
  match d with
  | .fields entries => entries.lookup name
  | _ => none

/-- The field called `name`; a missing one is `null`. -/
def field (d : Doc) (name : String) : Doc :=
  (d.field? name).getD .null

def asText? : Doc → Option String
  | .text s => some s
  | _ => none

/-- An integer of 64 bits with a sign. -/
def asInt64? : Doc → Option Int64
  | .int n => if -0x8000000000000000 ≤ n ∧ n < 0x8000000000000000 then some (Int64.ofInt n) else none
  | _ => none

/-- An integer of 64 bits without a sign. -/
def asWord? : Doc → Option UInt64
  | .int n => if 0 ≤ n ∧ n < 0x10000000000000000 then some (UInt64.ofNat n.toNat) else none
  | _ => none

def asBool? : Doc → Option Bool
  | .bool b => some b
  | _ => none

/-- The items of a list; any other document has none. -/
def items : Doc → List Doc
  | .list ds => ds
  | _ => []

/-- Whether the field is present and not `null`. -/
def has (d : Doc) (name : String) : Bool :=
  match d.field? name with
  | none | some .null => false
  | some _ => true

def textAt? (d : Doc) (name : String) : Option String :=
  (d.field name).asText?

/-- The named field as text, `""` when it is none. -/
def textAt (d : Doc) (name : String) : String :=
  (d.textAt? name).getD ""

/-- The named field as an integer, zero when it is none. -/
def intAt (d : Doc) (name : String) : Int64 :=
  ((d.field name).asInt64?).getD 0

/-- The named field as a number of things: an integer taken modulo `2 ^ 64`. -/
def countAt (d : Doc) (name : String) : Nat :=
  (d.intAt name).toUInt64.toNat

/-- The named field as a position in a table: an integer taken modulo `2 ^ 32`. -/
def indexAt (d : Doc) (name : String) : Nat :=
  (d.intAt name).toUInt64.toUInt32.toNat

def wordAt? (d : Doc) (name : String) : Option UInt64 :=
  (d.field name).asWord?

/-- The named field as an integer without a sign, zero when it is none. -/
def wordAt (d : Doc) (name : String) : UInt64 :=
  (d.wordAt? name).getD 0

def flagAt (d : Doc) (name : String) : Bool :=
  ((d.field name).asBool?).getD false

def itemsAt (d : Doc) (name : String) : List Doc :=
  (d.field name).items

def textsAt (d : Doc) (name : String) : List String :=
  (d.itemsAt name).filterMap asText?

/-- The answer for an optional value: `null` for none. -/
def optional {α : Type} (f : α → Doc) : Option α → Doc
  | none => .null
  | some a => f a

def ofNat (n : Nat) : Doc :=
  .int n

def ofNats (ns : List Nat) : Doc :=
  .list (ns.map ofNat)

def ofTexts (ss : List String) : Doc :=
  .list (ss.map .text)

end Doc
end NativeBridge
