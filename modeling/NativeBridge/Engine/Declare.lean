import NativeBridge.Engine.Environment
/-!
# Declaring

Functions are declared one by one, a class through a builder that collects its members and commits them in
one go. The builder refuses at once what it can: a second overload of one arity, a class that is its own
superclass. A commit that fails leaves behind what it had committed before.
-/
namespace NativeBridge
variable {Ω : Type} [ObjectModel Ω]

namespace Registry

/-- Declare a free function; its hash comes from its name and arity. -/
def addFunction (r : Registry (Upcast Ω) (Code Ω)) (name : String) (flags : TypeFlags) (shape : CallShape)
    (code : Code Ω) : Except RegistrationError (Registry (Upcast Ω) (Code Ω)) :=
  (r.declareFunction name flags shape (.ofFunction name shape.arity.toUInt64) code).map (·.2)

/-- Declare a typed free function. -/
def addTyped (r : Registry (Upcast Ω) (Code Ω)) (name : String) (flags : TypeFlags) (entry : Entry Ω) :
    Except RegistrationError (Registry (Upcast Ω) (Code Ω)) :=
  r.addFunction name flags entry.shape (.typed entry)

end Registry

/-- An entry that waits for its class to be committed. -/
structure PendingEntry (Ω : Type) [ObjectModel Ω] where
  key : GroupKey
  flags : TypeFlags
  shape : CallShape
  id : NameHash
  code : Code Ω

/-- A class in the making. -/
structure ClassBuilder (Ω : Type) [ObjectModel Ω] where
  cls : Class
  entries : List (PendingEntry Ω)
  supers : List (Class × Upcast Ω)
  valueType : Bool
  /-- Entries added from now on are strict. -/
  strict : Bool

namespace ClassBuilder

def new (c : Class) : ClassBuilder Ω :=
  ⟨c, [], [], false, false⟩

/-- Add an entry, unless its group has one of the same arity. -/
def push (b : ClassBuilder Ω) (key : GroupKey) (flags : TypeFlags) (shape : CallShape) (code : Code Ω) :
    Except RegistrationError (ClassBuilder Ω) :=
  if b.entries.any fun e => e.key = key && e.shape.arity = shape.arity then
    .error (.duplicateArity key.name shape.arity)
  else
    let owner := NameHash.ofName b.cls.name
    let arity := shape.arity.toUInt64
    let id := if key.kind = .constructor then .ofConstructor owner arity else .ofMember owner key.name arity
    let flags := if b.strict then flags.union .strict else flags
    .ok { b with entries := b.entries ++ [⟨key, flags, shape, id, code⟩] }

def beStrict (b : ClassBuilder Ω) : ClassBuilder Ω :=
  { b with strict := true }

def asValueType (b : ClassBuilder Ω) : ClassBuilder Ω :=
  { b with valueType := true }

def constructor (b : ClassBuilder Ω) (entry : Entry Ω) : Except RegistrationError (ClassBuilder Ω) :=
  b.push ⟨b.cls.name, .constructor⟩ .none entry.shape (.typed entry)

/-- Add a method that reads its receiver; it may be called on a const one. -/
def method (b : ClassBuilder Ω) (name : String) (entry : Entry Ω) :
    Except RegistrationError (ClassBuilder Ω) :=
  b.push ⟨name, .method⟩ .const entry.shape (.typed entry)

/-- Add a method that may change its receiver. -/
def methodMut (b : ClassBuilder Ω) (name : String) (entry : Entry Ω) :
    Except RegistrationError (ClassBuilder Ω) :=
  b.push ⟨name, .method⟩ .none entry.shape (.typed entry)

/-- Add a method with free access to the call. -/
def methodRaw (b : ClassBuilder Ω) (name : String) (shape : CallShape)
    (run : (Nat → Services Ω) → Act Ω Unit) : Except RegistrationError (ClassBuilder Ω) :=
  b.push ⟨name, .method⟩ .none shape (.raw run)

def staticMethod (b : ClassBuilder Ω) (name : String) (entry : Entry Ω) :
    Except RegistrationError (ClassBuilder Ω) :=
  b.push ⟨name, .staticMethod⟩ .none entry.shape (.typed entry)

/-- Add a property that can only be read. -/
def readonly (b : ClassBuilder Ω) (name : String) (getter : Entry Ω) :
    Except RegistrationError (ClassBuilder Ω) :=
  b.push ⟨name, .getter⟩ .const getter.shape (.typed getter)

/-- Add a property that can be read and written. -/
def property (b : ClassBuilder Ω) (name : String) (getter setter : Entry Ω) :
    Except RegistrationError (ClassBuilder Ω) := do
  let b ← b.readonly name getter
  b.push ⟨name, .setter⟩ .none setter.shape (.typed setter)

/-- Add a superclass. The class itself is refused, a superclass that is there already is passed over. -/
def superclass (b : ClassBuilder Ω) (base : Class) (upcast : Upcast Ω) :
    Except RegistrationError (ClassBuilder Ω) :=
  if base = b.cls then .error (.inheritanceCycle b.cls.name)
  else if b.supers.any (·.1 = base) then .ok b
  else .ok { b with supers := b.supers ++ [(base, upcast)] }

/-- Commit one entry. -/
def commitEntry (c : Class) (e : PendingEntry Ω) (r : Registry (Upcast Ω) (Code Ω)) :
    Except RegistrationError (Registry (Upcast Ω) (Code Ω)) :=
  if e.key.kind = .constructor then (r.declareConstructor c e.flags e.shape e.id e.code).map (·.2)
  else (r.declareMember c e.key e.flags e.shape e.id e.code).map (·.2)

/-- The declarations that make up the class, in order: the class, its superclasses, its value form, its
entries. -/
def commits (b : ClassBuilder Ω) :
    List (Registry (Upcast Ω) (Code Ω) → Except RegistrationError (Registry (Upcast Ω) (Code Ω))) :=
  (·.declareClass b.cls.info)
    :: b.supers.map (fun (base, upcast) r => r.declareSuper b.cls base.info upcast)
    ++ (if b.valueType then [(·.declareValueType b.cls)] else [])
    ++ b.entries.map (commitEntry b.cls)

/-- Make declarations one after another, up to the first that is refused. -/
def commitAll {R E : Type} : List (R → Except E R) → R → Except E Unit × R
  | [], r => (.ok (), r)
  | step :: steps, r =>
    match step r with
    | .ok r => commitAll steps r
    | .error e => (.error e, r)

/-- Commit the class. -/
def build (b : ClassBuilder Ω) (r : Registry (Upcast Ω) (Code Ω)) :
    Except RegistrationError Unit × Registry (Upcast Ω) (Code Ω) :=
  commitAll b.commits r

end ClassBuilder
end NativeBridge
