/-!
# Hexadecimal text

Words written with a fixed number of lower-case hexadecimal digits, and read back.
-/
namespace NativeBridge.Hex

/-- The lower-case digits of `n`, padded with zeros to at least `width`. -/
def digits (width n : Nat) : String :=
  let ds := Nat.toDigits 16 n
  String.ofList (List.replicate (width - ds.length) '0' ++ ds)

/-- A word as `0x` and sixteen digits. -/
def ofWord (w : UInt64) : String :=
  "0x" ++ digits 16 w.toNat

def digit? (c : Char) : Option Nat :=
  if '0' ≤ c ∧ c ≤ '9' then some (c.toNat - '0'.toNat)
  else if 'a' ≤ c ∧ c ≤ 'f' then some (c.toNat - 'a'.toNat + 10)
  else if 'A' ≤ c ∧ c ≤ 'F' then some (c.toNat - 'A'.toNat + 10)
  else none

/-- The number written by hexadecimal digits, with or without a leading `0x`; characters that are no
digit are passed over. -/
def parse (s : String) : Nat :=
  let cs := match s.toList with
    | '0' :: 'x' :: rest => rest
    | cs => cs
  (cs.filterMap digit?).foldl (fun n d => 16 * n + d) 0

end NativeBridge.Hex
