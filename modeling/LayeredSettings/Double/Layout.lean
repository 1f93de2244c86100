/-
How the digits of a double are laid out as text: positional within a range of
exponents, in scientific form outside it.

* `Layout.json`: positional for `-5 ≤ e ≤ 15`, the exponent always signed, ties to
  an even digit;
* `Layout.plain`: positional for `-4 ≤ e ≤ 15`, no plus sign, ties upwards.

Both keep one digit after the point in positional form and show the sign of a
negative zero.
-/
import LayeredSettings.Double.Shortest

namespace LayeredSettings.Double

/-- The choices of a text form for doubles. -/
structure Layout where
  /-- The least decimal exponent written positionally. -/
  least : Int
  /-- The greatest decimal exponent written positionally. -/
  greatest : Int
  /-- Whether a non-negative exponent carries a plus sign. -/
  plusSign : Bool
  /-- Which of two nearest decimals is taken. -/
  tie : Tie

namespace Layout

/-- The form used in JSON text. -/
def json : Layout := ⟨-5, 15, true, .toEven⟩

/-- The form used where a number is shown for reading. -/
def plain : Layout := ⟨-4, 15, false, .up⟩

/-- Digits as characters. -/
def digitChars (ds : List Nat) : List Char := ds.map Nat.digitChar

/-- Positional text of `0.d₁d₂… · 10 ^ point`, at least one digit on each side of
the point. -/
def positional (d : Decimal) : List Char :=
  let n := d.digits.length
  if d.point ≤ 0 then
    ['0', '.'] ++ List.replicate (-d.point).toNat '0' ++ digitChars d.digits
  else
    let whole := d.point.toNat
    if n ≤ whole then
      digitChars d.digits ++ List.replicate (whole - n) '0' ++ ['.', '0']
    else digitChars (d.digits.take whole) ++ ['.'] ++ digitChars (d.digits.drop whole)

/-- Text of the form `d.ddde±x`, without a point after a lone digit. -/
def scientific (l : Layout) (d : Decimal) : List Char :=
  let e := d.point - 1
  let mantissa :=
    match d.digits with
    | [] => ['0']
    | [x] => digitChars [x]
    | x :: rest => digitChars [x] ++ ['.'] ++ digitChars rest
  let sign := if e < 0 then ['-'] else if l.plusSign then ['+'] else []
  mantissa ++ ['e'] ++ sign ++ Nat.toDigits 10 e.natAbs

/-- The text of a finite double. -/
def chars (l : Layout) (d : Double) : List Char :=
  let sign := if d.parts.negative then ['-'] else []
  if d.isZero then sign ++ ['0', '.', '0']
  else
    let s := d.shortest l.tie
    let e := s.point - 1
    sign ++ (if l.least ≤ e ∧ e ≤ l.greatest then positional s else scientific l s)

end Layout

end LayeredSettings.Double
