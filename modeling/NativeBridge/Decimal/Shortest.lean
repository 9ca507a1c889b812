import NativeBridge.Decimal.Binary64
/-!
# Shortest decimals

The fewest digits that read back as the same double, and of those the nearest to it. A double `m * 2 ^ q`
stands for all reals that round to it; that interval includes its ends exactly when `m` is even. For one
digit, two digits and so on, the two neighbours of the value on that decimal grid are tried: the first grid
with a neighbour in the interval wins, and of two the nearer.
-/
namespace NativeBridge.Shortest

/-- A positive real `num / den`, with the ends of the interval of reals that round to it over the same
denominator. -/
structure Target where
  num : Nat
  low : Nat
  high : Nat
  den : Nat
  closed : Bool

/-- The interval of the finite positive double `m * 2 ^ (e - 1075)`. Below a power of two the lower half is
half as wide. -/
def Target.ofScaled (m e : Nat) : Target :=
  let lower := if m = 0x10000000000000 ∧ 1 < e then 1 else 2
  let grown := 1 <<< e
  { num := 4 * m * grown
    low := (4 * m - lower) * grown
    high := (4 * m + 2) * grown
    den := 4 * (1 <<< 1075)
    closed := m % 2 == 0 }

/-- A decimal `digits * 10 ^ exponent`. -/
structure Decimal where
  digits : Nat
  exponent : Int
deriving Repr, DecidableEq

/-- A fraction times a power of ten, as numerator and denominator. -/
def scale (num den : Nat) (power : Int) : Nat × Nat :=
  match power with
  | .ofNat k => (num * Nat.pow 10 k, den)
  | .negSucc k => (num, den * Nat.pow 10 (k + 1))

/-- Whether the decimal lies in the target's interval. -/
def Target.admits (t : Target) (d : Decimal) : Bool :=
  let (n, k) := scale d.digits 1 d.exponent
  if t.closed then
    t.low * k ≤ n * t.den && n * t.den ≤ t.high * k
  else
    t.low * k < n * t.den && n * t.den < t.high * k

/-- The neighbours of the target on the grid of step `10 ^ exponent`, nearer first; an exact tie goes up. -/
def Target.neighbours (t : Target) (exponent : Int) : List Decimal :=
  let (n, k) := scale t.num t.den (-exponent)
  let below := n / k
  let rest := n % k
  let down : Decimal := ⟨below, exponent⟩
  let up : Decimal := ⟨below + 1, exponent⟩
  if 2 * rest < k then [down, up] else [up, down]

/-- The number of digits before the point of `num / den`, negative when zeros follow the point. -/
def magnitude (num den : Nat) : Int :=
  let guess : Int := (num.log2 : Int) - den.log2
  let estimate := guess * 30103 / 100000
  let fits (e : Int) : Bool := let (n, k) := scale 1 1 e; num * k < n * den
  if fits (estimate - 1) then estimate - 1
  else if fits estimate then estimate
  else if fits (estimate + 1) then estimate + 1
  else estimate + 2

/-- The first grid with an admitted neighbour, starting with `digits` digits and trying `fuel` grids. -/
def Target.search (t : Target) (size : Int) (digits : Nat) : Nat → Decimal
  | 0 => (t.neighbours (size - digits)).headD ⟨0, 0⟩
  | fuel + 1 =>
    match (t.neighbours (size - digits)).find? t.admits with
    | some d => d
    | none => t.search size (digits + 1) fuel

/-- The shortest decimal of a finite positive double. Seventeen digits always suffice. -/
def ofScaled (m e : Nat) : Decimal :=
  let t := Target.ofScaled m e
  t.search (magnitude t.num t.den) 1 17

end NativeBridge.Shortest
