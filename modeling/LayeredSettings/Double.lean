/-
IEEE 754 doubles as 64-bit patterns, in exact integer arithmetic.

* `parts`: a pattern as sign, integer significand and power of two;
* `ofRatio`: the double nearest to a quotient of naturals, ties to even, or
  nothing where the quotient is too large;
* `ofInt`, `scale`: integers and powers of ten as doubles.
-/

namespace LayeredSettings

/-- A double, given by its 64-bit pattern. -/
structure Double where
  bits : UInt64
  deriving DecidableEq, Repr, Inhabited

namespace Double

/-- The power of two with a natural exponent. -/
def pow2 (n : Nat) : Nat := Nat.pow 2 n

/-- The power of ten with a natural exponent. -/
def pow10 (n : Nat) : Nat := Nat.pow 10 n

/-- The sign, `m` and `q` with the value `± m · 2 ^ q` (finite patterns). -/
structure Parts where
  negative : Bool
  significand : Nat
  exponent : Int
  deriving DecidableEq, Repr

/-- Reads a pattern: a zero exponent field means a subnormal number, any other
field an implicit leading bit. -/
def parts (d : Double) : Parts :=
  let n := d.bits.toNat
  let field : Nat := (n / pow2 52) % pow2 11
  let fraction : Nat := n % pow2 52
  let negative := n / pow2 63 = 1
  if field = 0 then ⟨negative, fraction, -1074⟩
  else ⟨negative, pow2 52 + fraction, (field : Int) - 1075⟩

/-- Whether the value is zero, of either sign. -/
def isZero (d : Double) : Bool := d.bits.toNat % pow2 63 = 0

/-- The number of opposite sign. -/
def neg (d : Double) : Double := ⟨d.bits ^^^ 0x8000000000000000⟩

/-- `num / den` rounded to the nearest natural, a half to the even one. -/
def divRound (num den : Nat) : Nat :=
  let quotient := num / den
  let twice := 2 * (num % den)
  if twice < den then quotient
  else if twice = den then quotient + quotient % 2
  else quotient + 1

/-- `num / den` divided by `2 ^ q` and rounded. -/
def roundAt (num den : Nat) (q : Int) : Nat :=
  if 0 ≤ q then divRound num (den * pow2 q.toNat) else divRound (num * pow2 (-q).toNat) den

/-- The power of two of the last place of the double next to `num / den`: the
quotient has 53 bits there, unless it is subnormal. -/
def lastPlace (num den : Nat) : Int :=
  let q : Int := (num.log2 : Int) - den.log2 - 52
  let wide : Bool :=
    if 0 ≤ q then decide (den * pow2 (q.toNat + 52) ≤ num)
    else decide (den * pow2 52 ≤ num * pow2 (-q).toNat)
  max (if wide then q else q - 1) (-1074)

/-- The double nearest to `num / den` (`0 < den`), ties to even; none beyond the
largest finite double. -/
def ofRatio (num den : Nat) : Option Double :=
  if num = 0 then some ⟨0⟩
  else
    let q := lastPlace num den
    let m := roundAt num den q
    let (m, q) := if m = pow2 53 then (pow2 52, q + 1) else (m, q)
    if 971 < q then none
    else if m < pow2 52 then some ⟨UInt64.ofNat m⟩
    else some ⟨UInt64.ofNat ((q + 1075).toNat * pow2 52 + (m - pow2 52))⟩

/-- The value without its sign, as a quotient of naturals. -/
def ratio (d : Double) : Nat × Nat :=
  let p := d.parts
  if 0 ≤ p.exponent then (p.significand * pow2 p.exponent.toNat, 1)
  else (p.significand, pow2 (-p.exponent).toNat)

/-- The double nearest to an integer of at most 1024 bits. -/
def ofInt (i : Int) : Double :=
  let magnitude := (ofRatio i.natAbs 1).getD ⟨0x7FF0000000000000⟩
  if i < 0 then magnitude.neg else magnitude

/-- The product with the double nearest to `10 ^ k` (`k ≤ 308`). -/
def mulPow10 (d : Double) (k : Nat) : Option Double :=
  let (n, m) := d.ratio
  let (tn, tm) := ((ofRatio (pow10 k) 1).getD ⟨0⟩).ratio
  ofRatio (n * tn) (m * tm)

/-- The quotient by the double nearest to `10 ^ k` (`k ≤ 308`). -/
def divPow10 (d : Double) (k : Nat) : Option Double :=
  let (n, m) := d.ratio
  let (tn, tm) := ((ofRatio (pow10 k) 1).getD ⟨0⟩).ratio
  ofRatio (n * tm) (m * tn)

/-- The double nearest to `digits · 10 ^ exponent`. -/
def ofDecimal (digits : Nat) (exponent : Int) : Option Double :=
  if digits = 0 then some ⟨0⟩
  else if 0 ≤ exponent then
    if 400 < exponent then none else ofRatio (digits * pow10 exponent.toNat) 1
  else ofRatio digits (pow10 (-exponent).toNat)

end Double

end LayeredSettings
