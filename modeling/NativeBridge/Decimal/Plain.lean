import NativeBridge.Decimal.Shortest
/-!
# Plain decimal text

A double written without exponent: its shortest digits, padded with zeros up to the point, a point only
when digits follow it, and words for what is no number.
-/
namespace NativeBridge

/-- A decimal written out in full. -/
def Shortest.Decimal.plain (d : Shortest.Decimal) : String :=
  let digits := Nat.toDigits 10 d.digits
  match d.exponent with
  | .ofNat k => String.ofList (digits ++ List.replicate k '0')
  | .negSucc k =>
    let places := k + 1
    let padded := List.replicate (places + 1 - digits.length) '0' ++ digits
    let whole := padded.take (padded.length - places)
    let part := padded.drop (padded.length - places)
    let part := (part.reverse.dropWhile (· = '0')).reverse
    String.ofList whole ++ (if part.isEmpty then "" else "." ++ String.ofList part)

/-- The text of a double. -/
def Binary64.plain (x : Binary64) : String :=
  if x.isNaN then "NaN"
  else
    let sign := if x.negative then "-" else ""
    if x.isInfinite then sign ++ "inf"
    else if x.isZero then sign ++ "0"
    else
      let (m, e) := x.scaled
      sign ++ (Shortest.ofScaled m e).plain

end NativeBridge
