import NativeBridge.Call.Entry
import NativeBridge.Catalog.Specimen
/-!
# What the specimens do

Every object can be shown, has a number and can be poked with one; every class makes objects from plain data;
the value types export themselves.
-/
namespace NativeBridge.Catalog
open NativeBridge (Typed ExportScript Exporter)

def Point.display (p : Point) : String :=
  "(" ++ toString p.x.toInt ++ "," ++ toString p.y.toInt ++ ")"

namespace Specimen

/-! ## Showing and counting -/

/-- The node at an address by name, without waiting for whoever writes it. -/
def nodeName (h : Heap Specimen) (a : Address) : String :=
  match h.cells[a]? with
  | some c => if c.writing then "locked" else c.object.asName
  | none => ""

def display (h : Heap Specimen) : Specimen → String
  | .point p => p.display
  | .rect r => "[" ++ r.a.display ++ " " ++ r.b.display ++ "]"
  | .poly ps => "<" ++ " ".intercalate (ps.map Point.display) ++ ">"
  | .huge v => toString v.toNat
  | .mute => "mute"
  | .twice v => "twice" ++ toString v.toInt
  | .wide n => "wide" ++ toString n.toInt
  | .node name => name
  | .tree root => "tree:" ++ nodeName h root
  | .sprite s => s.name ++ "@" ++ s.pos.display
  | .kin k => (Species.kin k.index).name ++ ":" ++ toString k.val.toInt

def num (h : Heap Specimen) : Specimen → Int64
  | .point p => p.x.toInt64
  | .rect r => r.a.x.toInt64
  | .poly ps => Int64.ofNat ps.length
  | .huge v => v.toInt64
  | .mute => 0
  | .twice v => v.toInt64
  | .wide n => n
  | .node name => Int64.ofNat name.length
  | .tree root => Int64.ofNat (nodeName h root).length
  | .sprite s => s.pos.x.toInt64
  | .kin k => k.val

/-! ## Poking -/

def Point.poked (p : Point) (n : Int64) : Point :=
  { p with x := n.toInt32 }

/-- The object after a poke. A tree takes on the new root. -/
def poked (n : Int64) (newRoot : Address) : Specimen → Specimen
  | .point p => .point (Point.poked p n)
  | .rect r => .rect { r with a := Point.poked r.a n }
  | .poly ps => .poly (ps ++ [⟨n.toInt32, 0⟩])
  | .huge _ => .huge n.toUInt64
  | .mute => .mute
  | .twice _ => .twice n.toInt32
  | .wide _ => .wide n
  | .node _ => .node ("n" ++ toString n.toInt)
  | .tree _ => .tree newRoot
  | .sprite s => .sprite { s with pos := Point.poked s.pos n }
  | .kin k => .kin (k.withVal n)

theorem species_poked (n : Int64) (a : Address) (o : Specimen) : (o.poked n a).species = o.species := by
  cases o <;> rfl

end Specimen

variable {ρ α : Type} {c : Class}

/-- The body of a native function, written as a sequence of steps. -/
abbrev native (body : Body Specimen ρ α) : Body Specimen ρ α := body

/-- The body that only gives a value. -/
abbrev give (a : α) : Body Specimen ρ α := .done a

/-- A poke of an object. A tree gets a new node as its root. -/
def poke (n : Int64) (o : Instance Specimen c) : Body Specimen ρ (Instance Specimen c) := do
  let newRoot ← match o.object with
    | .tree _ => Body.alloc (.node ("n" ++ toString n.toInt))
    | _ => pure 0
  let same := congrArg Species.cls (Specimen.species_poked n newRoot o.object)
  return ⟨o.object.poked n newRoot, same.trans o.isOf⟩

/-- A poke of the receiver. -/
def pokeReceiver (n : Int64) : Body Specimen (Instance Specimen c) Unit := do
  let this ← Body.receiver
  Body.setReceiver (← poke n this)

def showOf (o : Specimen) : Body Specimen ρ String := do
  return o.display (← Body.scene).heap

def numOf (o : Specimen) : Body Specimen ρ Int64 := do
  return o.num (← Body.scene).heap

/-! ## Making objects from plain data -/

/-- The integer at a place of a list, zero where there is none. -/
def intArg (args : List Doc) (i : Nat) : Int64 :=
  (args[i]?.bind Doc.asInt64?).getD 0

def textArg (args : List Doc) (i : Nat) (otherwise : String) : String :=
  (args[i]?.bind Doc.asText?).getD otherwise

def pointArg (args : List Doc) (i : Nat) : Point :=
  ⟨(intArg args i).toInt32, (intArg args (i + 1)).toInt32⟩

/-- The superclasses among the kin that the program has declared for a class of kin. -/
def kinSupers (p : Program) (i : Fin 8) : List (Fin 8) :=
  ((p.lineage.lookup (Species.kin i).cls).getD []).filterMap fun c =>
    match Species.ofClass? c with
    | some (.kin j) => some j
    | _ => none

/-- An object of kin with all its bases. -/
def makeKin (i : Fin 8) (v : Int64) : Body Specimen ρ (Of (.kin i)) := do
  let supers := kinSupers (← Body.program)
  return Specimen.growKin supers i v

/-- A new tree with a root of its own. -/
def makeTree (name : String) : Body Specimen ρ (Of .tree) := do
  return Specimen.ofTree (← Body.alloc (.node name))

/-- Make an object of a species. What is missing is zero, or the species' usual name. -/
def make (args : List Doc) : (s : Species) → Body Specimen ρ (Of s)
  | .point => pure (Specimen.ofPoint (pointArg args 0))
  | .rect => pure (Specimen.ofRect ⟨pointArg args 0, pointArg args 2⟩)
  | .poly => pure (Specimen.ofPoly [])
  | .huge => pure (Specimen.ofHuge (intArg args 0).toUInt64)
  | .mute => pure (Specimen.ofMute)
  | .twice => pure (Specimen.ofTwice (intArg args 0).toInt32)
  | .wide => pure (Specimen.ofWide (intArg args 0))
  | .node => pure (Specimen.ofNode (textArg args 0 "anon"))
  | .tree => makeTree (textArg args 0 "root")
  | .sprite => pure (Specimen.ofSprite ⟨pointArg args 0, textArg args 2 "sprite"⟩)
  | .kin i => makeKin i (intArg args 0)

/-! ## Exports -/

private abbrev exportField (t : NativeType) (x : t.Value Specimen) : Typed Specimen := ⟨t, x⟩

private abbrev pointField (p : Point) : Typed Specimen :=
  exportField (.object Species.point.cls) (Specimen.ofPoint p)

/-- Emit one tuple and answer for it. -/
private def emitOnce (fields : List (Typed Specimen)) : ExportScript Specimen :=
  .emit fields .done

/-- The fields of a wide object: the first few of eight, or three of which two are too large for the
boundary. -/
def wideFields (n : Int64) : List (Typed Specimen) :=
  if 0 ≤ n ∧ n ≤ 8 then
    [exportField (.int .int32) (1 : Int32), exportField .bool true,
     exportField (.float .double) ⟨0x3fe0000000000000⟩, exportField .staticText "s",
     exportField (.int .uint8) (5 : UInt8), exportField .char 'c',
     exportField (.optional (.int .int32)) (if n = 8 then some (7 : Int32) else none),
     exportField (.vector (.int .int32)) [(8 : Int32)]].take n.toInt.toNat
  else
    [exportField (.int .int32) (1 : Int32), exportField (.int .uint64) (0xffffffffffffffff),
     exportField (.int .uintSize) (0xffffffffffffffff)]

/-- How an object exports itself. A mute one emits nothing; a twofold one emits a second tuple, and answers
for that unless its number is zero. -/
def exportScript : Specimen → ExportScript Specimen
  | .point p => emitOnce [exportField (.int .int32) p.x, exportField (.int .int32) p.y]
  | .rect r => emitOnce [pointField r.a, pointField r.b]
  | .poly ps =>
    emitOnce [exportField (.vector (.object Species.point.cls)) (ps.map fun p => Specimen.ofPoint p)]
  | .huge v => emitOnce [exportField (.int .uint64) v]
  | .twice v =>
    .emit [exportField (.int .int32) v] fun
      | .error e => .done (.error e)
      | .ok () => .emit [exportField (.int .int32) v, exportField (.int .int32) v] fun second =>
          .done (if v = 0 then .ok () else second)
  | .wide n => emitOnce (wideFields n)
  | .kin k => emitOnce [exportField (.int .int64) k.val]
  | .mute | .node _ | .tree _ | .sprite _ => .done (.ok ())

/-- The native half of the value types: rectangles and polygons hold points, the others plain data. -/
def exporter (_ : Class) : Exporter Specimen where
  script := exportScript
  depth
    | .rect _ | .poly _ => 2
    | _ => 1

end NativeBridge.Catalog
