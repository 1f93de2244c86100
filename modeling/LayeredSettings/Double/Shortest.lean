/-
The shortest decimal that reads back as a given double.

The reals that round to a double `m · 2 ^ q` form an interval around it, ends
included exactly when `m` is even. Among the decimals of `n` significant digits
only the two neighbours of the value can be the nearest one in that interval;
the first `n` for which one of them lies in the interval gives the answer, and
of two the nearer is taken. A value half way between them, such as
`694403206548407.25`, goes as a choice of the text form says.
-/
import LayeredSettings.Double

namespace LayeredSettings.Double

/-- A decimal `0.d₁d₂… · 10 ^ point`, digits without trailing zeros. -/
structure Decimal where
  digits : List Nat
  point : Int
  deriving DecidableEq, Repr

/-- Where a value goes that lies half way between two decimals. -/
inductive Tie where
  /-- To the one whose last digit is even. -/
  | toEven
  /-- To the greater one. -/
  | up
  deriving DecidableEq, Repr, Inhabited

/-- The decimal digits of a natural, most significant first. -/
def natDigits (n : Nat) : List Nat := (Nat.toDigits 10 n).map (fun c => c.toNat - 48)

/-- Drops the zeros at the end. -/
def dropTrailingZeros (ds : List Nat) : List Nat :=
  (ds.reverse.dropWhile (· == 0)).reverse

/-- The interval of a positive double, every number multiplied by a common
denominator: `low` and `high` are its ends. -/
structure Interval where
  low : Nat
  value : Nat
  high : Nat
  closed : Bool
  denominator : Nat

/-- The interval of reals that round to `m · 2 ^ q`. Below a power of two the
doubles lie twice as dense. -/
def interval (m : Nat) (q : Int) : Interval :=
  let lower := if m = pow2 52 ∧ -1074 < q then 4 * m - 1 else 4 * m - 2
  let up := pow2 q.toNat
  let down := 4 * pow2 (-q).toNat
  ⟨lower * up, 4 * m * up, (4 * m + 2) * up, m % 2 = 0, down⟩

/-- Whether `num / den` lies in the interval. -/
def Interval.contains (i : Interval) (num den : Nat) : Bool :=
  let x := num * i.denominator
  if i.closed then i.low * den ≤ x ∧ x ≤ i.high * den
  else i.low * den < x ∧ x < i.high * den

/-- The least `k` with `value < 10 ^ k`, searched upwards from `k`. -/
def decimalPoint (num den : Nat) : Nat → Int → Int
  | 0, k => k
  | fuel + 1, k =>
    let below := if 0 ≤ k then num < den * pow10 k.toNat else num * pow10 (-k).toNat < den
    if below then k else decimalPoint num den fuel (k + 1)

/-- The nearest decimal with `n` digits in the interval, if there is one. -/
def Interval.nearest (tie : Tie) (i : Interval) (n : Nat) (point : Int) : Option Decimal :=
  let e : Int := point - n
  let gridNum := pow10 e.toNat
  let gridDen := pow10 (-e).toNat
  let down := i.value * gridDen / (i.denominator * gridNum)
  let up := down + 1
  let decimal (k : Nat) : Decimal :=
    let ds := natDigits k
    ⟨dropTrailingZeros ds, e + ds.length⟩
  let downIn := i.contains (down * gridNum) gridDen
  let upIn := i.contains (up * gridNum) gridDen
  let twice := 2 * (i.value * gridDen)
  let both := (down + up) * (i.denominator * gridNum)
  let downNearer := twice < both ∨ (twice = both ∧ tie = .toEven ∧ down % 2 = 0)
  match downIn, upIn with
  | true, true => some (decimal (if downNearer then down else up))
  | true, false => some (decimal down)
  | false, true => some (decimal up)
  | false, false => none

/-- The fewest digits, the nearest of those, that read back as a positive finite
double; seventeen always suffice. -/
def shortest (tie : Tie) (d : Double) : Decimal :=
  let p := d.parts
  let i := interval p.significand p.exponent
  let bits : Int := (p.significand.log2 : Int) + p.exponent
  let start : Int := bits * 30103 / 100000
  let point := decimalPoint i.value i.denominator 400 (start - 1)
  ((List.range 17).findSome? (fun n => i.nearest tie (n + 1) point)).getD ⟨[], 0⟩

end LayeredSettings.Double
