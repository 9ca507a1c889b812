import NativeBridge.Catalog.Specimen
import NativeBridge.Native.Info
/-!
# The types of the catalog

The types that a signature may use, by key. Some describe themselves only and cannot be arguments.
-/
namespace NativeBridge.Catalog

abbrev int8 : NativeType := .int .int8
abbrev int16 : NativeType := .int .int16
abbrev int32 : NativeType := .int .int32
abbrev int64 : NativeType := .int .int64
abbrev uint8 : NativeType := .int .uint8
abbrev uint64 : NativeType := .int .uint64
abbrev uintSize : NativeType := .int .uintSize
abbrev single : NativeType := .float .single
abbrev double : NativeType := .float .double

/-- A species by value. -/
abbrev byValue (s : Species) : NativeType := .object s.cls

abbrev handle (k : HandleKind) (s : Species) : NativeType := .handle k s.cls

/-- A type with its key. -/
structure TypeEntry where
  key : String
  type : NativeType
  /-- Whether it may be an argument. -/
  argument : Bool := true

/-- The types that are built from no class. -/
def plainTypes : List TypeEntry :=
  [⟨"i8", int8, true⟩, ⟨"i16", int16, true⟩, ⟨"i32", int32, true⟩, ⟨"i64", int64, true⟩,
   ⟨"isize", .int .intSize, true⟩, ⟨"u8", uint8, true⟩, ⟨"u16", .int .uint16, true⟩,
   ⟨"u32", .int .uint32, true⟩, ⟨"u64", uint64, true⟩, ⟨"usize", uintSize, true⟩, ⟨"f32", single, true⟩,
   ⟨"f64", double, true⟩, ⟨"bool", .bool, true⟩, ⟨"char", .char, true⟩, ⟨"String", .text, true⟩,
   ⟨"()", .unit, true⟩, ⟨"WireValue", .any, true⟩, ⟨"Callback", .callback, true⟩,
   ⟨"NativePointer", .pointer, true⟩,
   ⟨"Vec<i32>", .vector int32, true⟩, ⟨"Vec<i64>", .vector int64, true⟩, ⟨"Vec<u8>", .vector uint8, true⟩,
   ⟨"Vec<f32>", .vector single, true⟩, ⟨"Vec<String>", .vector .text, true⟩,
   ⟨"Vec<char>", .vector .char, true⟩, ⟨"Vec<()>", .vector .unit, true⟩,
   ⟨"Vec<WireValue>", .vector .any, true⟩, ⟨"Vec<Vec<i32>>", .vector (.vector int32), true⟩,
   ⟨"Vec<Option<i32>>", .vector (.optional int32), true⟩,
   ⟨"[i32; 0]", .array int32 0, true⟩, ⟨"[i32; 2]", .array int32 2, true⟩, ⟨"[i32; 3]", .array int32 3, true⟩,
   ⟨"[f32; 2]", .array single 2, true⟩, ⟨"[[u8; 2]; 2]", .array (.array uint8 2) 2, true⟩,
   ⟨"Vec<[f32; 2]>", .vector (.array single 2), true⟩,
   ⟨"Option<i32>", .optional int32, true⟩, ⟨"Option<i64>", .optional int64, true⟩,
   ⟨"Option<u8>", .optional uint8, true⟩, ⟨"Option<bool>", .optional .bool, true⟩,
   ⟨"Option<String>", .optional .text, true⟩, ⟨"Option<Option<i32>>", .optional (.optional int32), true⟩,
   ⟨"Option<()>", .optional .unit, true⟩, ⟨"Option<Vec<i32>>", .optional (.vector int32), true⟩,
   ⟨"Option<Callback>", .optional .callback, true⟩]

/-- The types that are built from classes, and may be arguments. -/
def classTypes : List TypeEntry :=
  Species.all.map (fun s => ⟨s.name, byValue s, true⟩) ++
  [⟨"Vec<Point>", .vector (byValue .point), true⟩, ⟨"[Point; 2]", .array (byValue .point) 2, true⟩,
   ⟨"Option<Point>", .optional (byValue .point), true⟩, ⟨"Vec<Node>", .vector (byValue .node), true⟩,
   ⟨"Vec<K0>", .vector (byValue .kin0), true⟩,
   ⟨"Shared<Node>", handle .shared .node, true⟩, ⟨"Borrowed<Node>", handle .borrowed .node, true⟩,
   ⟨"Unique<Node>", handle .unique .node, true⟩, ⟨"Const<Shared<Node>>", handle .constShared .node, true⟩,
   ⟨"Const<Borrowed<Node>>", handle .constBorrowed .node, true⟩,
   ⟨"Vec<Shared<Node>>", .vector (handle .shared .node), true⟩,
   ⟨"Option<Shared<Node>>", .optional (handle .shared .node), true⟩,
   ⟨"Vec<Option<Shared<Node>>>", .vector (.optional (handle .shared .node)), true⟩,
   ⟨"Vec<Unique<Node>>", .vector (handle .unique .node), true⟩,
   ⟨"[Unique<Node>; 2]", .array (handle .unique .node) 2, true⟩,
   ⟨"Option<Unique<Node>>", .optional (handle .unique .node), true⟩,
   ⟨"Shared<Point>", handle .shared .point, true⟩, ⟨"Unique<Point>", handle .unique .point, true⟩,
   ⟨"Shared<Tree>", handle .shared .tree, true⟩, ⟨"Unique<Tree>", handle .unique .tree, true⟩,
   ⟨"Shared<K0>", handle .shared .kin0, true⟩, ⟨"Unique<K0>", handle .unique .kin0, true⟩,
   ⟨"Const<Shared<K0>>", handle .constShared .kin0, true⟩]

/-- The classes whose objects are given away but never taken. -/
def givenOnly : List Species :=
  .mute :: Species.allKin.drop 1 ++ [.sprite, .rect, .poly, .huge, .twice, .wide]

/-- The types that only describe themselves. -/
def resultTypes : List TypeEntry :=
  [⟨"&str", .staticText, false⟩, ⟨"Vec<&str>", .vector .staticText, false⟩,
   ⟨"Result<i32, String>", .result int32, false⟩,
   ⟨"Result<Vec<Shared<Node>>, String>", .result (.vector (handle .shared .node)), false⟩,
   ⟨"Option<Result<u8, String>>", .optional (.result uint8), false⟩] ++
  givenOnly.map fun s => ⟨"Unique<" ++ s.name ++ ">", handle .unique s, false⟩

/-- All types. -/
def types : List TypeEntry :=
  plainTypes ++ classTypes ++ resultTypes

/-- The entry of a key. -/
def typeNamed? (key : String) : Option TypeEntry :=
  types.find? (·.key = key)

/-- The type of a key, if it may be an argument. -/
def argumentNamed? (key : String) : Option NativeType :=
  (typeNamed? key).bind fun e => if e.argument then some e.type else none

/-- The type of a key; an unknown key stands for no value. -/
def typeNamed (key : String) : NativeType :=
  ((typeNamed? key).map (·.type)).getD .unit

/-- The first key whose type has the given identity. A type that is only part of others is spelled out. -/
def keyOf (token : NativeType) : String :=
  match types.find? (·.type.token = token) with
  | some e => e.key
  | none =>
    match token with
    | .array t n => "[" ++ keyOf t ++ "; " ++ toString n ++ "]"
    | t => t.name

/-- The class of a key. Any type may stand where a class is only named. -/
def classNamed (key : String) : Class :=
  match typeNamed? key with
  | some e => e.type.asClass
  | none => ⟨key, key, .word 1⟩

/-- The first key whose type is the class. -/
def classKey (c : Class) : String :=
  match types.find? (·.type.asClass = c) with
  | some e => e.key
  | none => c.name

end NativeBridge.Catalog
