/-
Numbers as settings hold them: integers, and finite doubles.

* `same`: equality of values within a kind; an integer never equals a double,
  and the two zeros of a double are equal;
* `chars`: the JSON text of a number;
* `ofLiteral`: the number a JSON literal stands for.
-/
import LayeredSettings.Double.Layout

namespace LayeredSettings

/-- An integer of 64 bits, signed or unsigned, or a finite double. -/
inductive Number where
  | int (value : Int)
  | double (value : Double)
  deriving DecidableEq, Repr, Inhabited

namespace Number

/-- Equality of numbers of one kind. -/
def same : Number → Number → Bool
  | .int a, .int b => a == b
  | .double a, .double b => a == b || (a.isZero && b.isZero)
  | _, _ => false

/-- The JSON text of a number. -/
def chars : Number → List Char
  | .int i => if i < 0 then '-' :: Nat.toDigits 10 i.natAbs else Nat.toDigits 10 i.natAbs
  | .double d => Double.Layout.json.chars d

/-- The JSON text of a number. -/
def text (n : Number) : String := String.ofList n.chars

/-- The number as a signed 64-bit integer. -/
def toInt64? : Number → Option Int
  | .int i => if -0x8000000000000000 ≤ i ∧ i < 0x8000000000000000 then some i else none
  | .double _ => none

/-- The nearest double. -/
def toDouble : Number → Double
  | .int i => Double.ofInt i
  | .double d => d

/-! ### Literals -/

/-- The leading digits that fit 64 bits, as a number, and how many digits are
left over: once a digit does not fit, it and all later ones are dropped. -/
def leadingDigits : List Nat → Nat → Nat × Nat
  | [], n => (n, 0)
  | d :: ds, n =>
    if n * 10 + d < 0x10000000000000000 then leadingDigits ds (n * 10 + d) else (n, ds.length + 1)

/-- A significand scaled by a power of ten: one multiplication or division by a
rounded power, after divisions by `10 ^ 308` while the exponent lies below the
table of powers. None where the result overflows. -/
def scaled (d : Double) (exponent : Int) : Nat → Option Double
  | 0 => none
  | fuel + 1 =>
    if exponent.natAbs ≤ 308 then
      if 0 ≤ exponent then d.mulPow10 exponent.natAbs else d.divPow10 exponent.natAbs
    else if d.isZero then some d
    else if 0 ≤ exponent then none
    else (d.divPow10 308).bind fun d' => scaled d' (exponent + 308) fuel

/-- The double of a literal with significand and decimal exponent. -/
def ofParts (negative : Bool) (significand : Nat) (exponent : Int) : Option Number :=
  (scaled (Double.ofInt significand) exponent (exponent.natAbs / 308 + 1)).map fun d =>
    .double (if negative then d.neg else d)

/-- The number of a JSON literal, given by its sign, its digits before and after
the point, and its exponent. A literal with neither point nor exponent is an
integer if 64 bits hold it; the literal `-0` is a double. -/
def ofLiteral (negative : Bool) (whole fraction : List Nat) (exponent : Option Int) :
    Option Number :=
  let (w, dropped) := leadingDigits whole 0
  if fraction.isEmpty ∧ exponent.isNone ∧ dropped = 0 then
    if ¬ negative then some (.int w)
    else if 0 < w ∧ w ≤ 0x8000000000000000 then some (.int (-(w : Int)))
    else some (.double (Double.ofInt w).neg)
  else
    let (significand, left) := leadingDigits fraction w
    let used := fraction.length - left
    ofParts negative significand ((dropped : Int) - used + exponent.getD 0)

end Number

end LayeredSettings
