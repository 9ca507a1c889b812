import NativeBridge.Catalog.Behaviour
import NativeBridge.Catalog.Types
/-!
# Constructors of the specimens
-/
namespace NativeBridge.Catalog
open NativeType (Values Curried uncurry)

/-- A constructor of a species from a function of one argument after another. -/
def constructorOf (s : Species) (params : List NativeType)
    (body : Curried Specimen params (Body Specimen Unit (Of s))) : Entry Specimen :=
  .constructor s.cls params (uncurry params body)

/-- A text repeated. -/
def repeated (n : Nat) (s : String) : String :=
  String.join (List.replicate n s)

/-- An integer as a count between zero and `most`. -/
def clamped (most : Nat) (n : Int64) : Nat :=
  min n.toInt.toNat most

/-- The number of the first boundary value, if it is an integer. -/
def answered (r : Except CallError Wire) (otherwise : Int32) : Int32 :=
  match r with
  | .ok (.int n) => n.toInt32
  | _ => otherwise

/-- The members of an array of two. -/
def first {α : Type} (v : Vector α 2) : α := v[0]
def second {α : Type} (v : Vector α 2) : α := v[1]

/-- What the constructor `wide` of each size takes. -/
def wideParams : List NativeType :=
  [int32, .bool, double, .text, uint8, .char, .optional int32, .vector int32]

def pointConstructors : List (String × Entry Specimen) :=
  [("new", constructorOf .point [] (give (Specimen.ofPoint ⟨0, 0⟩))),
   ("x", constructorOf .point [int32] fun (x : Int32) => give (Specimen.ofPoint ⟨x, x⟩)),
   ("xy", constructorOf .point [int32, int32] fun (x y : Int32) => give (Specimen.ofPoint ⟨x, y⟩)),
   ("arr", constructorOf .point [.array int32 2] fun (v : Vector Int32 2) =>
      give (Specimen.ofPoint ⟨first v, second v⟩)),
   ("cb", constructorOf .point [.callback, int32] fun (f : Callback) (y : Int32) => native do
      return Specimen.ofPoint ⟨answered (← Body.invoke f [.int 7]) (-1), y⟩)]

def rectConstructors : List (String × Entry Specimen) :=
  [("ab", constructorOf .rect [byValue .point, byValue .point] fun (a b : Of .point) =>
      give (Specimen.ofRect ⟨a.object.asPoint, b.object.asPoint⟩)),
   ("xyxy", constructorOf .rect [int32, int32, int32, int32] fun (x y z w : Int32) =>
      give (Specimen.ofRect ⟨⟨x, y⟩, ⟨z, w⟩⟩))]

def nodeConstructors : List (String × Entry Specimen) :=
  [("new", constructorOf .node [] (give (Specimen.ofNode "anon"))),
   ("name", constructorOf .node [.text] fun (name : String) => give (Specimen.ofNode name)),
   ("eat", constructorOf .node [handle .unique .node, int64] fun (o : Of .node) (t : Int64) =>
      give (Specimen.ofNode (repeated (clamped 4 t) o.object.asName)))]

def treeConstructors : List (String × Entry Specimen) :=
  [("new", constructorOf .tree [] (makeTree "root")),
   ("with", constructorOf .tree [handle .shared .node] fun (root : Address) =>
      give (Specimen.ofTree root))]

/-- The constructors of a class of kin: each computes a value and grows the bases from it. -/
def kinConstructors (i : Fin 8) : List (String × Entry Specimen) :=
  let of (params : List NativeType) (body : Curried Specimen params (Body Specimen Unit (Of (.kin i)))) :=
    constructorOf (.kin i) params body
  [("new", of [] (makeKin i 0)),
   ("v", of [int64] fun (v : Int64) => makeKin i v),
   ("s", of [.text] fun (s : String) => makeKin i (Int64.ofNat s.length)),
   ("ab", of [int32, int32] fun (a b : Int32) => makeKin i (a.toInt64 * 100 + b.toInt64)),
   ("abc", of [uint8, uint8, uint8] fun (a b c : UInt8) =>
      makeKin i (Int64.ofNat ((a.toNat * 256 + b.toNat) * 256 + c.toNat))),
   ("absorb", of [handle .unique .kin0, int64] fun (o : Of .kin0) (n : Int64) => native do
      makeKin i ((← numOf o.object) + n)),
   ("panic", of [.bool] fun (now : Bool) => native (if now then Body.panicWith "ctor" else makeKin i 1)),
   ("eight", of [int32, int32, int32, int32, int32, int32, int32, int32]
      fun (a b c d e f g h : Int32) =>
        makeKin i (a.toInt64 + b.toInt64 + c.toInt64 + d.toInt64 + e.toInt64 + f.toInt64 + g.toInt64
          + h.toInt64))]

/-- The constructor of a wide object from the first `n` of the listed types. -/
def wideConstructor (n : Nat) : Entry Specimen :=
  .constructor Species.wide.cls (wideParams.take n) fun _ =>
    give (Specimen.ofWide (Int64.ofNat n))

/-- The constructors that only one species has. -/
def ownConstructors : Species → List (String × Entry Specimen)
  | .point => pointConstructors
  | .rect => rectConstructors
  | .poly => [("pts", constructorOf .poly [.vector (byValue .point)] fun (ps : List (Of .point)) =>
      give (Specimen.ofPoly (ps.map (·.object.asPoint))))]
  | .huge => [("v", constructorOf .huge [int64] fun (v : Int64) =>
      give (Specimen.ofHuge v.toUInt64))]
  | .mute => [("new", constructorOf .mute [] (give (Specimen.ofMute)))]
  | .twice => [("v", constructorOf .twice [int32] fun (v : Int32) =>
      give (Specimen.ofTwice v))]
  | .wide => (List.range 9).map fun n => (toString n, wideConstructor n)
  | .node => nodeConstructors
  | .tree => treeConstructors
  | .sprite =>
    [("new", constructorOf .sprite [] (make [] .sprite)),
     ("ps", constructorOf .sprite [byValue .point, .text] fun (p : Of .point) (name : String) =>
        give (Specimen.ofSprite ⟨p.object.asPoint, name⟩))]
  | .kin i => kinConstructors i

/-- A constructor by name. All but trees can be copied. -/
def constructorNamed? (s : Species) (name : String) : Option (Entry Specimen) :=
  if name = "copy" ∧ s ≠ .tree then
    some (constructorOf s [byValue s] fun (o : Of s) => give o)
  else (ownConstructors s).lookup name

end NativeBridge.Catalog
