import NativeBridge.Object.Model
/-!
# The native classes

Eighteen classes to bind: plain values (points, rectangles, polygons and a few with awkward exports), nodes,
trees that keep a node alive, sprites that have a point as their superclass, and eight classes of kin that
may have one another as superclasses in any way.
-/
namespace NativeBridge.Catalog

/-- The native classes, by what their objects are. -/
inductive Species where
  | point
  | rect
  | poly
  | huge
  | mute
  | twice
  | wide
  | node
  | tree
  | sprite
  | kin (index : Fin 8)
deriving DecidableEq, Repr

namespace Species

/-- The classes of kin that native functions take and give by value. -/
abbrev kin0 : Species := .kin 0
abbrev kin1 : Species := .kin 1

def allKin : List Species :=
  (List.finRange 8).map .kin

def all : List Species :=
  [.point, .rect, .poly, .huge, .mute, .twice, .wide, .node, .tree, .sprite] ++ allKin

def name : Species → String
  | .point => "Point"
  | .rect => "Rect"
  | .poly => "Poly"
  | .huge => "Huge"
  | .mute => "Mute"
  | .twice => "Twice"
  | .wide => "Wide"
  | .node => "Node"
  | .tree => "Tree"
  | .sprite => "Sprite"
  | .kin i => "K" ++ toString i.val

def layout : Species → Layout
  | .point => ⟨8, 4, 0⟩
  | .rect => ⟨16, 4, 0⟩
  | .poly => .buffer
  | .huge => .word 8
  | .mute => ⟨0, 1, 0⟩
  | .twice => .word 4
  | .wide => .word 8
  | .node => .buffer
  | .tree => .reference
  | .sprite => ⟨32, 8, 0x8000000000000000⟩
  | .kin _ => ⟨32, 8, 0x8000000000000000⟩

/-- The class of the objects of a species. -/
def cls (s : Species) : Class :=
  ⟨s.name, "driver::classes::" ++ s.name, s.layout⟩

def ofName? (name : String) : Option Species :=
  all.find? (·.name = name)

def ofClass? (c : Class) : Option Species :=
  all.find? (·.cls = c)

end Species

/-- A point of the plane. -/
structure Point where
  x : Int32
  y : Int32
deriving DecidableEq, Repr, Inhabited

/-- An axis-parallel rectangle, by two corners. -/
structure Rect where
  a : Point
  b : Point
deriving DecidableEq, Repr, Inhabited

/-- A sprite: a named point. -/
structure Sprite where
  pos : Point
  name : String
deriving DecidableEq, Repr, Inhabited

/-- An object of one of the eight classes of kin, with the objects of its superclasses. -/
inductive Kin where
  | mk (index : Fin 8) (val : Int64) (bases : List Kin)
deriving Repr, Inhabited

namespace Kin

def index : Kin → Fin 8
  | .mk i _ _ => i

def val : Kin → Int64
  | .mk _ v _ => v

def bases : Kin → List Kin
  | .mk _ _ bs => bs

/-- The same object with another value. -/
def withVal (k : Kin) (v : Int64) : Kin :=
  .mk k.index v k.bases

/-- The base of a class. -/
def base? (k : Kin) (i : Fin 8) : Option Kin :=
  k.bases.find? (·.index = i)

/-- Replace the base of the class that the new base is of. -/
def setBase (k base : Kin) : Kin :=
  .mk k.index k.val (k.bases.map fun b => if b.index = base.index then base else b)

/-- An object of class `i` and value `v`, with one base for each superclass: the `k`-th gets ten times the
value plus `k`, and bases of its own. No chain of superclasses is longer than `depth`. -/
def grow (supers : Fin 8 → List (Fin 8)) : (depth : Nat) → (i : Fin 8) → (v : Int64) → Kin
  | 0, i, v => .mk i v []
  | depth + 1, i, v =>
    .mk i v ((supers i).zipIdx.map fun (s, k) => grow supers depth s (v * 10 + Int64.ofNat (k + 1)))

theorem index_grow (supers : Fin 8 → List (Fin 8)) (depth : Nat) (i : Fin 8) (v : Int64) :
    (grow supers depth i v).index = i := by
  cases depth <;> rfl

end Kin

/-- A native object. -/
inductive Specimen where
  | point (p : Point)
  | rect (r : Rect)
  | poly (points : List Point)
  | huge (v : UInt64)
  | mute
  | twice (v : Int32)
  | wide (n : Int64)
  | node (name : String)
  /-- A tree keeps its root, a node, alive. -/
  | tree (root : Address)
  | sprite (s : Sprite)
  | kin (k : Kin)
deriving Repr, Inhabited

namespace Specimen

def species : Specimen → Species
  | .point _ => .point
  | .rect _ => .rect
  | .poly _ => .poly
  | .huge _ => .huge
  | .mute => .mute
  | .twice _ => .twice
  | .wide _ => .wide
  | .node _ => .node
  | .tree _ => .tree
  | .sprite _ => .sprite
  | .kin k => .kin k.index

def refs : Specimen → List Address
  | .tree root => [root]
  | _ => []

end Specimen

instance : ObjectModel Specimen where
  classOf s := s.species.cls
  refs := Specimen.refs

/-- An object of a species. -/
abbrev Of (s : Species) := Instance Specimen s.cls

namespace Specimen

/-! ## Objects of a known species -/

def ofPoint (p : Point) : Of .point := ⟨.point p, rfl⟩

def ofRect (r : Rect) : Of .rect := ⟨.rect r, rfl⟩

def ofPoly (points : List Point) : Of .poly := ⟨.poly points, rfl⟩

def ofHuge (v : UInt64) : Of .huge := ⟨.huge v, rfl⟩

def ofMute : Of .mute := ⟨.mute, rfl⟩

def ofTwice (v : Int32) : Of .twice := ⟨.twice v, rfl⟩

def ofWide (n : Int64) : Of .wide := ⟨.wide n, rfl⟩

def ofNode (name : String) : Of .node := ⟨.node name, rfl⟩

def ofTree (root : Address) : Of .tree := ⟨.tree root, rfl⟩

def ofSprite (s : Sprite) : Of .sprite := ⟨.sprite s, rfl⟩

/-- A whole object of kin, with the objects of its superclasses. -/
def growKin (supers : Fin 8 → List (Fin 8)) (i : Fin 8) (v : Int64) : Of (.kin i) :=
  ⟨.kin (Kin.grow supers 8 i v), congrArg (Species.cls ∘ Species.kin) (Kin.index_grow supers 8 i v)⟩

/-! ## Parts of an object, by what it is -/

def asPoint : Specimen → Point
  | .point p => p
  | _ => default

def asRect : Specimen → Rect
  | .rect r => r
  | _ => default

def asWord : Specimen → UInt64
  | .huge v => v
  | _ => 0

def asName : Specimen → String
  | .node name => name
  | _ => ""

def asRoot : Specimen → Address
  | .tree a => a
  | _ => 0

/-! ## Upcasts -/

/-- The step from one class of kin to another. -/
def kinUpcast (source target : Fin 8) : Upcast Specimen where
  view
    | .kin k => if k.index = source then (k.base? target).map .kin else none
    | _ => none
  put o part :=
    match o, part with
    | .kin k, .kin base => .kin (k.setBase base)
    | _, _ => o

/-- The step from a sprite to its position. -/
def spritePoint : Upcast Specimen where
  view
    | .sprite s => some (.point s.pos)
    | _ => none
  put o part :=
    match o, part with
    | .sprite s, .point p => .sprite { s with pos := p }
    | _, _ => o

/-- The step from a rectangle to its first corner. -/
def rectFirst : Upcast Specimen where
  view
    | .rect r => some (.point r.a)
    | _ => none
  put o part :=
    match o, part with
    | .rect r, .point p => .rect { r with a := p }
    | _, _ => o

/-- The step from a rectangle to its second corner. -/
def rectSecond : Upcast Specimen where
  view
    | .rect r => some (.point r.b)
    | _ => none
  put o part :=
    match o, part with
    | .rect r, .point p => .rect { r with b := p }
    | _, _ => o

/-- The step from a point to itself. -/
def pointSelf : Upcast Specimen where
  view
    | .point p => some (.point p)
    | _ => none
  put o part :=
    match o, part with
    | .point _, .point p => .point p
    | _, _ => o

/-- A step that never leads anywhere. -/
def refusing : Upcast Specimen where
  view _ := none
  put o _ := o

/-- The step from one species to another, where there is one. -/
def upcast? : Species → Species → Option (Upcast Specimen)
  | .sprite, .point => some spritePoint
  | .sprite, .sprite => some refusing
  | .kin i, .kin j => some (kinUpcast i j)
  | _, _ => none

end Specimen
end NativeBridge.Catalog
