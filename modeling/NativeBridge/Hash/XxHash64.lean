/-!
# XXH64

The 64-bit xxHash of a sequence of bytes. Input is taken in stripes of 32 bytes by four lanes, the rest
in words of eight, four and one byte, and the result is stirred once more. All arithmetic is modulo
`2 ^ 64`.
-/
namespace NativeBridge.XxHash64

def prime1 : UInt64 := 0x9E3779B185EBCA87
def prime2 : UInt64 := 0xC2B2AE3D27D4EB4F
def prime3 : UInt64 := 0x165667B19E3779F9
def prime4 : UInt64 := 0x85EBCA77C2B2AE63
def prime5 : UInt64 := 0x27D4EB2F165667C5

def rotateLeft (x : UInt64) (n : UInt64) : UInt64 :=
  (x <<< n) ||| (x >>> (64 - n))

/-- The little-endian word of up to eight bytes. -/
def word (bytes : List UInt8) : UInt64 :=
  bytes.foldr (fun b acc => (acc <<< 8) ||| b.toUInt64) 0

/-- One lane takes in one word. -/
def round (acc input : UInt64) : UInt64 :=
  rotateLeft (acc + input * prime2) 31 * prime1

/-- The four running lanes of the striped part. -/
structure Lanes where
  a : UInt64
  b : UInt64
  c : UInt64
  d : UInt64

def Lanes.start (seed : UInt64) : Lanes :=
  ⟨seed + prime1 + prime2, seed + prime2, seed, seed - prime1⟩

/-- All lanes take in one stripe of 32 bytes. -/
def Lanes.stripe (s : Lanes) (bytes : List UInt8) : Lanes :=
  ⟨round s.a (word (bytes.take 8)),
   round s.b (word ((bytes.drop 8).take 8)),
   round s.c (word ((bytes.drop 16).take 8)),
   round s.d (word ((bytes.drop 24).take 8))⟩

/-- Every whole stripe of the input, and the bytes that are left. -/
def Lanes.consume (s : Lanes) (bytes : List UInt8) : Lanes × List UInt8 :=
  if 32 ≤ bytes.length then (s.stripe (bytes.take 32)).consume (bytes.drop 32) else (s, bytes)
termination_by bytes.length
decreasing_by simp; omega

def mergeLane (acc lane : UInt64) : UInt64 :=
  (acc ^^^ round 0 lane) * prime1 + prime4

/-- The four lanes folded into one word. -/
def Lanes.merge (s : Lanes) : UInt64 :=
  let sum := rotateLeft s.a 1 + rotateLeft s.b 7 + rotateLeft s.c 12 + rotateLeft s.d 18
  mergeLane (mergeLane (mergeLane (mergeLane sum s.a) s.b) s.c) s.d

/-- The bytes behind the last whole stripe. -/
def tail (acc : UInt64) (bytes : List UInt8) : UInt64 :=
  if 8 ≤ bytes.length then
    tail (rotateLeft (acc ^^^ round 0 (word (bytes.take 8))) 27 * prime1 + prime4) (bytes.drop 8)
  else if 4 ≤ bytes.length then
    tail (rotateLeft (acc ^^^ (word (bytes.take 4) * prime1)) 23 * prime2 + prime3) (bytes.drop 4)
  else
    bytes.foldl (fun acc b => rotateLeft (acc ^^^ (b.toUInt64 * prime5)) 11 * prime1) acc
termination_by bytes.length
decreasing_by all_goals (simp; omega)

def avalanche (h : UInt64) : UInt64 :=
  let h := (h ^^^ (h >>> 33)) * prime2
  let h := (h ^^^ (h >>> 29)) * prime3
  h ^^^ (h >>> 32)

/-- The hash of `bytes` under `seed`. -/
def hash (bytes : List UInt8) (seed : UInt64) : UInt64 :=
  let (lanes, rest) := (Lanes.start seed).consume bytes
  let start := if 32 ≤ bytes.length then lanes.merge else seed + prime5
  avalanche (tail (start + bytes.length.toUInt64) rest)

end NativeBridge.XxHash64
