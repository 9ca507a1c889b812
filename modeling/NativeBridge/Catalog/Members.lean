import NativeBridge.Catalog.Constructors
/-!
# Members of the specimens

Every species has a common set of members, all but trees a few more that copy objects, and some have members
of their own. Members are looked up by the name of the native, which need not be the name under which they
are declared.
-/
namespace NativeBridge.Catalog
open NativeType (Values Curried uncurry)

/-- A method that reads its receiver. -/
def methodOf (s : Species) (params : List NativeType) (ret : NativeType)
    (body : Of s → Curried Specimen params (Body Specimen Unit (ret.Value Specimen))) : Entry Specimen :=
  .method s.cls params ret fun this => uncurry params (body this)

/-- A method that may change its receiver. -/
def mutatorOf (s : Species) (params : List NativeType) (ret : NativeType)
    (body : Curried Specimen params (Body Specimen (Of s) (ret.Value Specimen))) : Entry Specimen :=
  .methodMut s.cls params ret (uncurry params body)

def functionOf (params : List NativeType) (ret : NativeType)
    (body : Curried Specimen params (Body Specimen Unit (ret.Value Specimen))) : Entry Specimen :=
  .function params ret (uncurry params body)

/-- What the host made of a call, as the result of a native that passes its error on as a text. -/
def passedOn (r : Except CallError α) : Except String α :=
  r.mapError CallError.message

/-! ## Methods -/

/-- The methods that every species has. -/
def commonMethods (s : Species) : List (String × Entry Specimen) :=
  [("show", methodOf s [] .text fun this => showOf this.object),
   ("num", methodOf s [] int64 fun this => numOf this.object),
   ("fail", methodOf s [] (.result int64) fun _ => give (.error "no")),
   ("panic", methodOf s [] int64 fun _ => Body.panicWith "boom"),
   ("echo", methodOf s [.any] .any fun _ (w : Wire) => give w),
   ("join", methodOf s [.text, .optional int32] .text fun this (t : String) (o : Option Int32) => native do
      let last := match o with
        | some n => toString n.toInt
        | none => "-"
      return (← showOf this.object) ++ "|" ++ t ++ "|" ++ last),
   ("add3", methodOf s [int64, int32, uint8] int64 fun this (a : Int64) (b : Int32) (c : UInt8) => native do
      return (← numOf this.object) + a + b.toInt64 + Int64.ofNat c.toNat),
   ("call", methodOf s [.callback] (.result .any) fun this (f : Callback) => native do
      return passedOn (← Body.invoke f [.int (← numOf this.object)])),
   ("eat", methodOf s [handle .unique s] int64 fun this (other : Of s) => native do
      return (← numOf this.object) + (← numOf other.object))]

/-- The methods of every species whose objects can be copied. -/
def copyMethods (s : Species) : List (String × Entry Specimen) :=
  [("clone", methodOf s [] (byValue s) fun this => give this),
   ("sum", methodOf s [byValue s] int64 fun this (other : Of s) => native do
      return (← numOf this.object) + (← numOf other.object))]

/-- The getters of a tree's root, one for each kind of handle that shares it. -/
def rootGetters : List (String × Entry Specimen) :=
  [("root", methodOf .tree [] (handle .shared .node) fun this => give this.object.asRoot),
   ("root_const", methodOf .tree [] (handle .constShared .node) fun this => give this.object.asRoot),
   ("root_borrowed", methodOf .tree [] (handle .borrowed .node) fun this => give this.object.asRoot),
   ("root_const_borrowed", methodOf .tree [] (handle .constBorrowed .node) fun this =>
      give this.object.asRoot)]

/-- The methods that only one species has. -/
def ownMethods : Species → List (String × Entry Specimen)
  | .rect => [("corner", methodOf .rect [.bool] (byValue .point) fun this (second : Bool) =>
      let r := this.object.asRect
      give (Specimen.ofPoint (if second then r.b else r.a)))]
  | .huge => [("u64", methodOf .huge [] uint64 fun this => give this.object.asWord)]
  | .tree =>
    rootGetters ++
    [("root_value", methodOf .tree [] (byValue .node) fun this => native do
        let name := Specimen.nodeName (← Body.scene).heap this.object.asRoot
        return Specimen.ofNode name),
     ("root_pointer", methodOf .tree [] .pointer fun this =>
        give ⟨Species.node.cls, this.object.asRoot, false⟩),
     ("roots", methodOf .tree [] (.vector (.optional (handle .shared .node))) fun this =>
        give [some this.object.asRoot, none, some this.object.asRoot]),
     ("is_root", methodOf .tree [handle .constShared .node] .bool fun this (n : Address) =>
        give (n == this.object.asRoot))]
  | _ => []

/-- A method by the name of its native. -/
def methodNamed? (s : Species) (name : String) : Option (Entry Specimen) :=
  ((commonMethods s).lookup name
    <|> (if s = .tree then none else (copyMethods s).lookup name))
    <|> (ownMethods s).lookup name

/-! ## Methods that change their receiver -/

/-- Poke the receiver and go on. -/
def pokeThen {s : Species} {α : Type} (n : Int64) (rest : Body Specimen (Of s) α) :
    Body Specimen (Of s) α := do
  pokeReceiver n
  rest

/-- The mutating methods that every species has. -/
def commonMutators (s : Species) : List (String × Entry Specimen) :=
  [("poke", mutatorOf s [int64] .unit fun (n : Int64) => pokeReceiver n),
   ("poke_panic", mutatorOf s [int64] .unit fun (n : Int64) =>
      pokeThen n (native (if n < 0 then give () else Body.panicWith ("poked " ++ toString n.toInt)))),
   ("poke_fail", mutatorOf s [int64] (.result .unit) fun (n : Int64) =>
      pokeThen n (give (.error ("poked " ++ toString n.toInt)))),
   ("absorb", mutatorOf s [handle .unique s] .text fun (other : Of s) => native do
      Body.setReceiver other
      showOf other.object),
   ("bump", mutatorOf s [] int64 <| native do
      let n := (← numOf (← Body.receiver).object) + 1
      pokeThen n (give n))]

/-- Replace the root of the receiver and give the old one. -/
def replaceRoot (new : Address) : Body Specimen (Of .tree) Address := do
  let old := (← Body.receiver).object.asRoot
  Body.setReceiver (Specimen.ofTree new)
  return old

/-- Move the receiver by the sum of some points. -/
def shiftBy (ps : List Point) : Body Specimen (Of .point) Unit :=
  Body.updateReceiver fun this =>
    let shifted := ps.foldl (fun p q => ⟨p.x + q.x, p.y + q.y⟩) this.object.asPoint
    Specimen.ofPoint shifted

/-- The mutating methods that only one species has. -/
def ownMutators : Species → List (String × Entry Specimen)
  | .point =>
    [("add", mutatorOf .point [byValue .point] .unit fun (p : Of .point) => shiftBy [p.object.asPoint]),
     ("addall", mutatorOf .point [.vector (byValue .point)] .unit fun (ps : List (Of .point)) =>
        shiftBy (ps.map (·.object.asPoint)))]
  | .node => [("rename", mutatorOf .node [.text] .unit fun (name : String) =>
      Body.setReceiver (Specimen.ofNode name))]
  | .tree =>
    [("replace_root", mutatorOf .tree [.text] .unit fun (name : String) => native do
        let _ ← replaceRoot (← Body.alloc (.node name))),
     ("replace_old", mutatorOf .tree [.text] (handle .borrowed .node) fun (name : String) => native do
        replaceRoot (← Body.alloc (.node name))),
     ("adopt", mutatorOf .tree [handle .shared .node] .unit fun (n : Address) => native do
        let _ ← replaceRoot n),
     ("take", mutatorOf .tree [handle .unique .node] .unit fun (n : Of .node) => native do
        let _ ← replaceRoot (← Body.alloc n.object))]
  | _ => []

/-- A mutating method by the name of its native. -/
def mutatorNamed? (s : Species) (name : String) : Option (Entry Specimen) :=
  ((commonMutators s).lookup name
    <|> (if name = "assign" ∧ s ≠ .tree then
          some (mutatorOf s [byValue s] .unit fun (other : Of s) => Body.setReceiver other)
        else none))
    <|> (ownMutators s).lookup name

/-! ## Static members -/

/-- An object made of nothing and poked. -/
def makePoked (s : Species) (n : Int64) : Body Specimen Unit (Of s) := do
  poke n (← make [] s)

def staticMembers (s : Species) : List (String × Entry Specimen) :=
  [("kind", functionOf [] .staticText (give s.name)),
   ("sadd", functionOf [int64, int64] int64 fun (a b : Int64) => give (a + b)),
   ("sfail", functionOf [] (.result .unit) (give (.error "static no"))),
   ("make", functionOf [int64] (byValue s) fun (n : Int64) => makePoked s n),
   ("unique", functionOf [int64] (handle .unique s) fun (n : Int64) => makePoked s n)]

/-- A static member by the name of its native. -/
def staticNamed? (s : Species) (name : String) : Option (Entry Specimen) :=
  (staticMembers s).lookup name

/-! ## Properties -/

/-- A getter and a setter. -/
abbrev Accessors := Entry Specimen × Entry Specimen

def commonProperties (s : Species) : List (String × Accessors) :=
  [("num", methodOf s [] int64 fun this => numOf this.object,
    mutatorOf s [int64] .unit fun (n : Int64) => pokeReceiver n),
   ("small", methodOf s [] uint8 fun this => native do return (← numOf this.object).toUInt64.toUInt8,
    mutatorOf s [uint8] .unit fun (n : UInt8) => pokeReceiver (Int64.ofNat n.toNat)),
   ("opt", methodOf s [] (.optional int64) fun this => native do return some (← numOf this.object),
    mutatorOf s [.optional int64] .unit fun (n : Option Int64) => pokeReceiver (n.getD 0))]

/-- A coordinate of a point. -/
def coordinate (get : Point → Int32) (put : Point → Int32 → Point) : Accessors :=
  (methodOf .point [] int32 fun this => give (get this.object.asPoint),
   mutatorOf .point [int32] .unit fun (n : Int32) =>
    Body.updateReceiver fun this => Specimen.ofPoint (put this.object.asPoint n))

def ownProperties : Species → List (String × Accessors)
  | .point =>
    [("x", coordinate Point.x fun p n => { p with x := n }),
     ("y", coordinate Point.y fun p n => { p with y := n })]
  | .tree =>
    [("root", methodOf .tree [] (handle .shared .node) fun this => give this.object.asRoot,
      mutatorOf .tree [handle .shared .node] .unit fun (n : Address) => native do let _ ← replaceRoot n)]
  | _ => []

/-- A property by the name of its native. -/
def propertyNamed? (s : Species) (name : String) : Option Accessors :=
  (commonProperties s).lookup name <|> (ownProperties s).lookup name

/-- A property that can only be read, by the name of its native. -/
def readonlyNamed? (s : Species) (name : String) : Option (Entry Specimen) :=
  match name with
  | "show" => some (methodOf s [] .text fun this => showOf this.object)
  | "none" => some (methodOf s [] (.optional int64) fun _ => give none)
  | "self" => if s = .tree then none else some (methodOf s [] (byValue s) fun this => give this)
  | _ => none

end NativeBridge.Catalog
