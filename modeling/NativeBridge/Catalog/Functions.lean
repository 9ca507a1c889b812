import NativeBridge.Catalog.Members
/-!
# Free functions of the catalog

The functions that a script of requests may declare, by the name of the native: plain arithmetic and text,
functions that panic or fail, value objects, nodes in every kind of handle, and callbacks.
-/
namespace NativeBridge.Catalog
open NativeType (Values Curried uncurry)

/-- The identity function of a type. -/
def identityOn (t : NativeType) : Entry Specimen :=
  .function [t] t fun (x, _) => give x

/-! ## Arithmetic and text -/

/-- The sum of integers, wrapping. -/
def sumOf (ns : List Int64) : Int64 :=
  ns.foldl (· + ·) 0

def byteSum (bs : List UInt8) : Int64 :=
  sumOf (bs.map fun b => Int64.ofNat b.toNat)

def arithmetic : List (String × Entry Specimen) :=
  [("noop", functionOf [] .unit (give ())),
   ("ready", functionOf [] .text (give "ready")),
   ("sub", functionOf [int32, int32] int32 fun (a b : Int32) => give (a - b)),
   ("mulf", functionOf [int32, double] double fun (a : Int32) (b : Binary64) =>
      give ((Binary64.ofInt a.toInt64).mul b)),
   ("narrow", functionOf [double] single fun (a : Binary64) => give a.toSingle),
   ("widen", functionOf [single] double fun (a : Binary64) => give a),
   ("sum4", functionOf [int8, int16, int32, int64] int64 fun (a : Int8) (b : Int16) (c : Int32) (d : Int64) =>
      give (sumOf [a.toInt64, b.toInt64, c.toInt64, d])),
   ("sum5", functionOf [uint8, uint8, uint8, uint8, uint8] int64 fun (a b c d e : UInt8) =>
      give (byteSum [a, b, c, d, e])),
   ("sum6", functionOf [uint8, uint8, uint8, uint8, uint8, uint8] int64 fun (a b c d e f : UInt8) =>
      give (byteSum [a, b, c, d, e, f])),
   ("sum7", functionOf [uint8, uint8, uint8, uint8, uint8, uint8, uint8] int64 fun (a b c d e f g : UInt8) =>
      give (byteSum [a, b, c, d, e, f, g])),
   ("sum8", functionOf [uint8, uint8, uint8, uint8, uint8, uint8, uint8, uint8] int64
      fun (a b c d e f g h : UInt8) => give (byteSum [a, b, c, d, e, f, g, h])),
   ("sum", functionOf [.vector int64] int64 fun (ns : List Int64) => give (sumOf ns)),
   ("reverse", functionOf [.array int32 3] (.array int32 3) fun (v : Vector Int32 3) => give v.reverse),
   ("u64max", functionOf [] uint64 (give (0xffffffffffffffff))),
   ("usize_of", functionOf [int64] uintSize fun (n : Int64) => give n.toUInt64),
   ("u64s", functionOf [int64] (.vector uint64) fun (n : Int64) =>
      give [1, n.toUInt64, 0xffffffffffffffff]),
   ("opt_u64", functionOf [.optional int64] (.optional uint64) fun (n : Option Int64) =>
      give (n.map Int64.toUInt64))]

def textual : List (String × Entry Specimen) :=
  [("concat", functionOf [.text, .text] .text fun (a b : String) => give (a ++ b)),
   ("tell3", functionOf [uint8, int16, .bool] .text fun (a : UInt8) (b : Int16) (c : Bool) =>
      give (",".intercalate [toString a.toNat, toString b.toInt, Outline.bool c])),
   ("greet", functionOf [.optional .text] .text fun (name : Option String) =>
      give ("hello " ++ name.getD "world")),
   ("initial", functionOf [.text] (.optional .char) fun (s : String) => give s.toList.head?),
   ("chars", functionOf [.text] (.vector .char) fun (s : String) => give s.toList),
   ("static_str", functionOf [] .staticText (give "static")),
   ("strs", functionOf [] (.vector .staticText) (give ["a", "b"])),
   ("parse", functionOf [.text] (.result int32) fun (s : String) =>
      give (if s = "12" then .ok 12 else .error ("bad number " ++ s))),
   ("check", functionOf [int32] (.result (.optional uint8)) fun (n : Int32) =>
      give (if n < 0 then .error "" else if n = 0 then .ok none else .ok (some n.toUInt32.toUInt8)))]

/-! ## Panics and failures -/

def failing : List (String × Entry Specimen) :=
  [("boom", functionOf [] int32 (Body.panicWith "exploded")),
   ("boom_fmt", functionOf [int32] int32 fun (n : Int32) =>
      Body.panicWith ("exploded " ++ toString n.toInt)),
   ("boom_any", functionOf [] int32 (.panic .other)),
   ("call_err", functionOf [int32] (.result int32) fun (n : Int32) =>
      give (passedOn (
        if n = 0 then .error ((CallError.mismatch "a" "b").atArgument 3)
        else if n = 1 then .error (.arityMismatch "x" 9)
        else .ok n)))]

/-! ## Value objects -/

/-- The points of the diagonal, at most fifty. -/
def diagonal (n : Int32) : List Point :=
  (List.range (min n.toInt.toNat 50)).map fun i => ⟨Int32.ofNat i, Int32.ofNat i⟩

/-- The mean of each coordinate, toward zero; that of no points is zero. -/
def centroid (ps : List Point) : Point :=
  let mean (get : Point → Int32) : Int32 :=
    (sumOf (ps.map fun p => (get p).toInt64) / Int64.ofNat ps.length).toInt32
  if ps.isEmpty then ⟨0, 0⟩ else ⟨mean Point.x, mean Point.y⟩

/-- A function that makes an object of a species from its number. -/
def numbered (s : Species) : Entry Specimen :=
  functionOf [int64] (byValue s) fun (n : Int64) => make [.int n.toInt] s

/-- A function that shows an object of a species. -/
def showing (s : Species) : Entry Specimen :=
  functionOf [byValue s] .text fun (o : Of s) => showOf o.object

def valueObjects : List (String × Entry Specimen) :=
  [("mirror", functionOf [byValue .point] (byValue .point) fun (p : Of .point) =>
      let q := p.object.asPoint
      give (Specimen.ofPoint ⟨q.y, q.x⟩)),
   ("line", functionOf [int32] (.vector (byValue .point)) fun (n : Int32) =>
      give ((diagonal n).map Specimen.ofPoint)),
   ("pair", functionOf [byValue .point] (.array (byValue .point) 2) fun (p : Of .point) => give #v[p, p]),
   ("centroid", functionOf [.vector (byValue .point)] (byValue .point) fun (ps : List (Of .point)) =>
      give (Specimen.ofPoint (centroid (ps.map (·.object.asPoint))))),
   ("bound", functionOf [byValue .point, byValue .point] (byValue .rect) fun (a b : Of .point) =>
      give (Specimen.ofRect ⟨a.object.asPoint, b.object.asPoint⟩)),
   ("poly", functionOf [int32] (byValue .poly) fun (n : Int32) =>
      give (Specimen.ofPoly (diagonal n))),
   ("mute", functionOf [] (byValue .mute) (give (Specimen.ofMute))),
   ("twice", functionOf [int32] (byValue .twice) fun (n : Int32) => give (Specimen.ofTwice n)),
   ("huge", functionOf [int64] (byValue .huge) fun (n : Int64) => give (Specimen.ofHuge n.toUInt64)),
   ("wide", functionOf [int64] (byValue .wide) fun (n : Int64) => give (Specimen.ofWide n)),
   ("huges", functionOf [int64] (.vector (byValue .huge)) fun (n : Int64) =>
      give [Specimen.ofHuge 1, Specimen.ofHuge n.toUInt64]),
   ("sprite", functionOf [int32, .text] (byValue .sprite) fun (x : Int32) (name : String) =>
      give (Specimen.ofSprite ⟨⟨x, 0⟩, name⟩)),
   ("k0", numbered .kin0), ("k1", numbered .kin1),
   ("show_k0", showing .kin0), ("show_k1", showing .kin1), ("show_point", showing .point),
   ("show_rect", showing .rect), ("show_poly", showing .poly)]

/-! ## Nodes -/

/-- The name of the node at an address, if the node is there. -/
def nameAt? (a : Address) : Body Specimen Unit (Option String) := do
  return (← Body.load? a).map Specimen.asName

def nameAt (a : Address) : Body Specimen Unit String := do
  return (← nameAt? a).getD ""

abbrev nodeHandle (k : HandleKind) : NativeType := handle k .node

def madeNodes : List (String × Entry Specimen) :=
  [("make_node", functionOf [.text] (nodeHandle .unique) fun (name : String) => give (Specimen.ofNode name)),
   ("make_shared", functionOf [.text] (nodeHandle .shared) fun (name : String) => Body.alloc (.node name)),
   ("make_const", functionOf [.text] (nodeHandle .constShared) fun (name : String) =>
      Body.alloc (.node name)),
   ("make_dead", functionOf [.text] (nodeHandle .borrowed) fun (name : String) => Body.alloc (.node name)),
   ("make_dead_const", functionOf [.text] (nodeHandle .constBorrowed) fun (name : String) =>
      Body.alloc (.node name)),
   ("make_pointer", functionOf [.text] .pointer fun (name : String) => native do
      return ⟨Species.node.cls, ← Body.alloc (.node name), false⟩)]

def consumedNodes : List (String × Entry Specimen) :=
  let nameOf (o : Of .node) : String := o.object.asName
  [("consume", functionOf [nodeHandle .unique] .text fun (n : Of .node) => give (nameOf n)),
   ("consume_times", functionOf [nodeHandle .unique, int64] .text fun (n : Of .node) (t : Int64) =>
      give (repeated (clamped 9 t) (nameOf n))),
   ("consume_two", functionOf [nodeHandle .unique, nodeHandle .unique] .text fun (a b : Of .node) =>
      give (nameOf a ++ "+" ++ nameOf b)),
   ("consume_all", functionOf [.vector (nodeHandle .unique)] (.vector .text) fun (ns : List (Of .node)) =>
      give (ns.map nameOf)),
   ("consume_pair", functionOf [.array (nodeHandle .unique) 2] .text fun (v : Vector (Of .node) 2) =>
      give (nameOf (first v) ++ "+" ++ nameOf (second v))),
   ("consume_opt", functionOf [.optional (nodeHandle .unique)] (.optional .text)
      fun (n : Option (Of .node)) => give (n.map nameOf)),
   ("shared_unique", functionOf [nodeHandle .shared, nodeHandle .unique] .text
      fun (a : Address) (n : Of .node) => native do return (← nameAt a) ++ "/" ++ nameOf n),
   ("unique_shared", functionOf [nodeHandle .unique, nodeHandle .shared] .text
      fun (n : Of .node) (a : Address) => native do return nameOf n ++ "/" ++ (← nameAt a)),
   ("unique_borrowed", functionOf [nodeHandle .unique, nodeHandle .borrowed] .text
      fun (n : Of .node) (a : Address) => native do
      return nameOf n ++ "/" ++ Outline.bool (← Body.isAlive a))]

def watchedNodes : List (String × Entry Specimen) :=
  [("peek", functionOf [byValue .node] .text fun (n : Of .node) => give n.object.asName),
   ("peek_shared", functionOf [nodeHandle .shared] .text fun (a : Address) => nameAt a),
   ("peek_const", functionOf [nodeHandle .constShared] .text fun (a : Address) => nameAt a),
   ("peek_borrowed", functionOf [nodeHandle .borrowed] (.optional .text) fun (a : Address) => nameAt? a),
   ("peek_pointer", functionOf [.pointer] .text fun (p : Pointer) => native do
      let sole := !p.weak && (← Body.strong p.address) == 1
      return " ".intercalate [p.cls.name, Outline.bool p.weak, Outline.bool sole]),
   ("rename_shared", functionOf [nodeHandle .shared, .text] .unit fun (a : Address) (name : String) =>
      Body.store a (.node name)),
   ("same", functionOf [nodeHandle .shared, nodeHandle .constShared] .bool fun (a b : Address) =>
      give (a == b)),
   ("count", functionOf [nodeHandle .shared] int64 fun (a : Address) => native do
      return Int64.ofNat (← Body.strong a)),
   ("names", functionOf [.vector (byValue .node)] (.vector .text) fun (ns : List (Of .node)) =>
      give (ns.map (·.object.asName))),
   ("both_views", functionOf [nodeHandle .shared] (.vector (.optional (nodeHandle .shared)))
      fun (a : Address) => give [some a, none, some a]),
   ("show_tree", functionOf [handle .shared .tree] .text fun (a : Address) => native do
      match ← Body.load? a with
      | some o => showOf o
      | none => return "")]

/-! ## Callbacks -/

/-- The integer that a callback answered with. -/
def integerAnswer (r : Except CallError Wire) : Except String Int64 :=
  passedOn (r.bind fun
    | .int n => .ok n
    | w => .error (.mismatch "int" w.typeName))

def callbacks : List (String × Entry Specimen) :=
  [("apply", functionOf [.callback, int32] (.result .any) fun (f : Callback) (n : Int32) => native do
      return passedOn (← Body.invoke f [.int n.toInt64])),
   ("apply_twice_quietly", functionOf [.callback] int32 fun (f : Callback) => native do
      let _ ← Body.invoke f [.int 1]
      let _ ← Body.invoke f [.int 2]
      return 0),
   ("apply_two", functionOf [.callback, .callback] (.vector .bool) fun (f g : Callback) => native do
      let first ← Body.invoke f []
      let second ← Body.invoke g [.int 3]
      return [first.isOk, second.isOk]),
   ("apply_then_fail", functionOf [.callback] (.result .unit) fun (f : Callback) => native do
      let _ ← Body.invoke f []
      return .error "after"),
   ("apply_then_panic", functionOf [.callback] .unit fun (f : Callback) => native do
      let _ ← Body.invoke f []
      Body.panicWith "after panic"),
   ("apply_int", functionOf [.callback, int64] (.result int64) fun (f : Callback) (n : Int64) => native do
      return integerAnswer (← Body.invoke f [.int n])),
   ("keep", functionOf [.callback] .bool fun (f : Callback) => native do
      Body.setKept (some f.detach)
      return f.isScoped),
   ("keep_scoped", functionOf [.callback] .unit fun (f : Callback) => Body.setKept (some f)),
   ("call_kept", functionOf [int64] .any fun (n : Int64) => native do
      match (← Body.program).kept with
      | none => return .null
      | some f =>
        match ← Body.invoke f [.int n] with
        | .ok w => return w
        | .error _ => return .text "failed"),
   ("kept", functionOf [] (.optional .callback) (native do return (← Body.program).kept))]

/-- All functions but the identities. -/
def functions : List (String × Entry Specimen) :=
  arithmetic ++ textual ++ failing ++ valueObjects ++ madeNodes ++ consumedNodes ++ watchedNodes ++ callbacks

/-- A free function by the name of its native. Each type that may be an argument has an identity function. -/
def functionNamed? (name : String) : Option (Entry Specimen) :=
  match functions.lookup name with
  | some e => some e
  | none =>
    (types.find? fun t => t.argument && name == "id:" ++ t.key).map fun t => identityOn t.type

end NativeBridge.Catalog
