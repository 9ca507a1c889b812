import NativeBridge.Error
import NativeBridge.Hash.NameHash
import NativeBridge.Native.Accepts
import NativeBridge.Native.Info
/-!
# Signatures

Entry points of one shape share a signature: the receiver, the result, the arguments and whether they are
always checked. The table only grows, so a reference to an entry stays good.
-/
namespace NativeBridge

/-- The typed shape of a declaration. -/
structure CallShape where
  receiver : Option Class
  args : List NativeType
  ret : NativeType
deriving Inhabited

namespace CallShape

/-- The shape of a function without receiver. -/
def function (args : List NativeType) (ret : NativeType) : CallShape :=
  ⟨none, args, ret⟩

/-- The shape of a member called on an object of class `c`. -/
def method (c : Class) (args : List NativeType) (ret : NativeType) : CallShape :=
  ⟨some c, args, ret⟩

def arity (s : CallShape) : Nat :=
  s.args.length

/-- The metadata that a shape registers: that of the empty result, of the arguments and of the result. -/
def describe (s : CallShape) : List TypeInfo :=
  NativeType.unit.describe ++ s.args.flatMap NativeType.describe ++ s.ret.describe

def outline (s : CallShape) : String :=
  Outline.record "CallShape"
    [("receiver", Outline.option (s.receiver.map Class.outline)),
     ("args", Outline.sequence (s.args.map fun t => Outline.tuple "ArgSpec" [Text.quoted t.name])),
     ("ret", Text.quoted s.ret.name)]

end CallShape

/-- What makes two shapes one signature. -/
structure SignatureKey where
  receiver : Option Class
  ret : NativeType
  args : List NativeType
  /-- Arguments are checked before every call. -/
  strict : Bool
deriving DecidableEq, Inhabited

def CallShape.key (s : CallShape) (strict : Bool) : SignatureKey :=
  ⟨s.receiver, s.ret.token, s.args.map NativeType.token, strict⟩

/-- A signature and the position of one of its entries. -/
structure EntryRef where
  signature : Nat
  index : Nat
deriving DecidableEq, Repr, Inhabited

def EntryRef.outline (r : EntryRef) : String :=
  Outline.record "EntryRef"
    [("signature", Outline.tuple "SignatureId" [toString r.signature]), ("index", toString r.index)]

/-- An entry point under a signature; `Code` is what runs. -/
structure SignatureEntry (Code : Type) where
  name : String
  flags : TypeFlags
  id : NameHash
  code : Code

/-- A signature with its entries. -/
structure Signature (Code : Type) where
  key : SignatureKey
  args : List NativeType
  ret : NativeType
  entries : List (SignatureEntry Code)

namespace Signature
variable {Code : Type}

def arity (s : Signature Code) : Nat :=
  s.args.length

/-- The first argument that its type refuses. -/
def firstRefused : List NativeType → List Wire → Nat → Option CallError
  | t :: ts, w :: ws, i =>
    if t.accepts w then firstRefused ts ws (i + 1) else some (.typeMismatch t.name w.typeName (some i))
  | _, _, _ => none

/-- Check the arguments of a call against the signature, before anything runs. -/
def checkArgs (s : Signature Code) (args : List Wire) : Except CallError Unit :=
  if args.length ≠ s.args.length then
    .error (.mismatch (toString s.args.length ++ " argument(s)") (toString args.length ++ " argument(s)"))
  else
    match firstRefused s.args args 0 with
    | some e => .error e
    | none => .ok ()

end Signature

/-- Every signature, in order of creation. -/
structure SignatureTable (Code : Type) where
  signatures : List (Signature Code)

namespace SignatureTable
variable {Code : Type}

def empty : SignatureTable Code := ⟨[]⟩

def find? (t : SignatureTable Code) (key : SignatureKey) : Option Nat :=
  t.signatures.findIdx? (·.key = key)

/-- The signature of a shape, created on first use. -/
def create (t : SignatureTable Code) (shape : CallShape) (strict : Bool) : Nat × SignatureTable Code :=
  match t.find? (shape.key strict) with
  | some id => (id, t)
  | none => (t.signatures.length, ⟨t.signatures ++ [⟨shape.key strict, shape.args, shape.ret, []⟩]⟩)

def get? (t : SignatureTable Code) (id : Nat) : Option (Signature Code) :=
  t.signatures[id]?

/-- Append an entry to the signature of its shape. The entry's own flags say whether it is strict. -/
def register (t : SignatureTable Code) (shape : CallShape) (entry : SignatureEntry Code) :
    EntryRef × SignatureTable Code :=
  let (id, t) := t.create shape (entry.flags.contains .strict)
  let index := ((t.get? id).map (·.entries.length)).getD 0
  (⟨id, index⟩, ⟨t.signatures.modify id fun s => { s with entries := s.entries ++ [entry] }⟩)

/-- An entry with the signature that it belongs to. -/
def entry? (t : SignatureTable Code) (r : EntryRef) : Option (Signature Code × SignatureEntry Code) :=
  (t.get? r.signature).bind fun s => s.entries[r.index]?.map fun e => (s, e)

def size (t : SignatureTable Code) : Nat :=
  t.signatures.length

end SignatureTable
end NativeBridge
