/-
The text of a number determines it.

A numeral without its sign is read as digits around a point, times a power of ten. What the text
of a double is read as rounds to the double and to no other one; the text of an integer has
neither a point nor an exponent. Since all characters of a number are those of numerals, it ends
where another character follows.

* `Text.amount`: what a numeral stands for;
* `Double.Layout.amount_positional`, `Double.Layout.amount_scientific`: both layouts write the
  value of a decimal;
* `Double.Layout.exists_spelled`: the text of a double, without its sign, rounds to the double;
* `Number.chars_inj`: numbers are the same if their texts are;
* `Number.chars_append_inj`: a number and what follows it are told apart.
-/
import LayeredSettings.Number
import LayeredSettings.Proofs.Rounding

namespace LayeredSettings

/-! ### Numerals -/

namespace Text

variable {c : Char} {cs front rest whole fraction : List Char}

/-- What stands in front of a character, or all if it does not occur. -/
def before (c : Char) (cs : List Char) : List Char := cs.takeWhile (· ≠ c)

/-- What stands behind the first occurrence of a character, or nothing. -/
def behind (c : Char) (cs : List Char) : List Char := (cs.dropWhile (· ≠ c)).tail

lemma before_append (h : c ∉ front) : before c (front ++ c :: rest) = front := by
  rw [before, List.takeWhile_append_of_pos]
  · simp
  · intro a ha
    simpa using ne_of_mem_of_not_mem ha h

lemma behind_append (h : c ∉ front) : behind c (front ++ c :: rest) = rest := by
  rw [behind, List.dropWhile_append_of_pos]
  · simp
  · intro a ha
    simpa using ne_of_mem_of_not_mem ha h

lemma before_of_notMem (h : c ∉ cs) : before c cs = cs := by
  rw [before, List.takeWhile_eq_self_iff]
  intro a ha
  simpa using ne_of_mem_of_not_mem ha h

lemma behind_of_notMem (h : c ∉ cs) : behind c cs = [] := by
  rw [behind, List.dropWhile_eq_nil_iff.mpr, List.tail_nil]
  intro a ha
  simpa using ne_of_mem_of_not_mem ha h

/-- The integer that digits stand for, with a sign in front or without one. -/
def signed : List Char → ℤ
  | '-' :: digits => -(Nat.ofDigitChars 10 digits 0 : ℕ)
  | '+' :: digits => (Nat.ofDigitChars 10 digits 0 : ℕ)
  | digits => (Nat.ofDigitChars 10 digits 0 : ℕ)

/-- What a numeral without a sign stands for: digits, a point and more digits, then the letter
`e` and an exponent. -/
def amount (cs : List Char) : ℚ :=
  let mantissa := before 'e' cs
  let fraction := behind '.' mantissa
  (Nat.ofDigitChars 10 (before '.' mantissa ++ fraction) 0 : ℕ) *
    10 ^ (signed (behind 'e' cs) - fraction.length)

/-- Texts of digits. -/
def Digits (cs : List Char) : Prop := ∀ c ∈ cs, c.isDigit = true

lemma Digits.notMem (h : Digits cs) (hc : c.isDigit = false) : c ∉ cs := by
  intro hmem
  rw [h c hmem] at hc
  cases hc

lemma Digits.append (h : Digits front) (h' : Digits rest) : Digits (front ++ rest) := by
  intro c hc
  exact (List.mem_append.mp hc).elim (h c) (h' c)

lemma digits_toDigits (n : ℕ) : Digits (Nat.toDigits 10 n) := fun _ hc =>
  Nat.isDigit_of_mem_toDigits (by decide) (by decide) hc

lemma digits_replicate (n : ℕ) : Digits (List.replicate n '0') := by
  intro c hc
  rw [List.eq_of_mem_replicate hc]
  rfl

lemma Digits.exists_eq_cons (h : Digits cs) (hne : cs ≠ []) :
    ∃ c rest, cs = c :: rest ∧ c.isDigit = true := by
  cases cs with
  | nil => exact absurd rfl hne
  | cons c rest => exact ⟨c, rest, rfl, h c List.mem_cons_self⟩

/-- The characters of numbers. -/
def isNumeral (c : Char) : Bool := c.isDigit || ['.', 'e', '+', '-'].contains c

/-- Texts of such characters only. -/
def Numeral (cs : List Char) : Prop := ∀ c ∈ cs, isNumeral c = true

@[simp] lemma numeral_append : Numeral (front ++ rest) ↔ Numeral front ∧ Numeral rest := by
  simp [Numeral, or_imp, forall_and]

@[simp] lemma numeral_cons : Numeral (c :: rest) ↔ isNumeral c = true ∧ Numeral rest := by
  simp [Numeral]

@[simp] lemma numeral_nil : Numeral [] := by simp [Numeral]

lemma Digits.numeral (h : Digits cs) : Numeral cs := fun c hc => by simp [isNumeral, h c hc]

/-- Digits alone. -/
lemma amount_digits (h : Digits cs) : amount cs = (Nat.ofDigitChars 10 cs 0 : ℕ) := by
  have he : 'e' ∉ cs := h.notMem rfl
  have hpoint : '.' ∉ cs := h.notMem rfl
  simp [amount, before_of_notMem he, behind_of_notMem he, before_of_notMem hpoint,
    behind_of_notMem hpoint, signed]

/-- Digits around a point. -/
lemma amount_point (hwhole : Digits whole) (hfraction : Digits fraction) :
    amount (whole ++ '.' :: fraction) =
      (Nat.ofDigitChars 10 (whole ++ fraction) 0 : ℕ) * 10 ^ (-(fraction.length : ℤ)) := by
  have he : 'e' ∉ whole ++ '.' :: fraction := by
    simp [hwhole.notMem (c := 'e') rfl, hfraction.notMem (c := 'e') rfl]
  have hpoint : '.' ∉ whole := hwhole.notMem rfl
  simp [amount, before_of_notMem he, behind_of_notMem he, before_append hpoint,
    behind_append hpoint, signed]

/-- Digits, with a point between them or without one. -/
inductive Plain : List Char → Prop
  | whole {cs : List Char} (h : Digits cs) (hne : cs ≠ []) : Plain cs
  | point {whole fraction : List Char} (hwhole : Digits whole) (hne : whole ≠ [])
      (hfraction : Digits fraction) : Plain (whole ++ '.' :: fraction)

lemma Plain.numeral (h : Plain cs) : Numeral cs := by
  cases h with
  | whole h => exact h.numeral
  | point hwhole _ hfraction =>
      exact numeral_append.mpr ⟨hwhole.numeral, numeral_cons.mpr ⟨rfl, hfraction.numeral⟩⟩

lemma Plain.notMem (h : Plain cs) : 'e' ∉ cs := by
  cases h with
  | whole h => exact h.notMem rfl
  | point hwhole _ hfraction =>
      rw [List.mem_append, List.mem_cons, not_or, not_or]
      exact ⟨hwhole.notMem rfl, by decide, hfraction.notMem rfl⟩

lemma Plain.exists_eq_cons (h : Plain cs) : ∃ c rest, cs = c :: rest ∧ c.isDigit = true := by
  cases h with
  | whole h hne => exact h.exists_eq_cons hne
  | point hwhole hne =>
      obtain ⟨c, rest, rfl, hc⟩ := hwhole.exists_eq_cons hne
      exact ⟨c, _, rfl, hc⟩

/-- An exponent scales what stands in front of it. -/
lemma amount_exponent (h : 'e' ∉ front) :
    amount (front ++ 'e' :: rest) = amount front * 10 ^ signed rest := by
  have hzpow : ∀ i j : ℤ, (10 : ℚ) ^ (i - j) = 10 ^ (signed [] - j) * 10 ^ i := by
    intro i j
    rw [← zpow_add₀ (by norm_num)]
    congr 1
    simp [signed]
    ring
  simp only [amount, before_append h, behind_append h, before_of_notMem h, behind_of_notMem h]
  rw [hzpow, mul_assoc]

/-- Digits are read without a sign. -/
lemma signed_of_digits (h : Digits cs) : signed cs = (Nat.ofDigitChars 10 cs 0 : ℕ) := by
  rw [signed.eq_def]
  split
  · exact absurd (h '-' List.mem_cons_self) (by decide)
  · exact absurd (h '+' List.mem_cons_self) (by decide)
  · rfl

end Text

open Text

namespace Double

/-! ### Decimals -/

namespace Decimal

variable {s : Decimal}

/-- The value of a decimal. -/
def value (s : Decimal) : ℚ :=
  (Nat.ofDigitChars 10 (Layout.digitChars s.digits) 0 : ℕ) * 10 ^ (s.point - s.digits.length)

/-- The digits of a decimal are those of base ten. -/
def Proper (s : Decimal) : Prop := ∀ x ∈ s.digits, x < 10

lemma isDigit_digitChar {x : ℕ} (h : x < 10) : (Nat.digitChar x).isDigit = true := by
  revert x
  decide

lemma digits_digitChars {ds : List ℕ} (h : ∀ x ∈ ds, x < 10) : Digits (Layout.digitChars ds) := by
  intro c hc
  obtain ⟨x, hx, rfl⟩ := List.mem_map.mp hc
  exact isDigit_digitChar (h x hx)

/-- A digit as a number is below ten, and is written as it was. -/
lemma digitChar_toNat_sub {c : Char} (h : c.isDigit = true) :
    c.toNat - 48 < 10 ∧ Nat.digitChar (c.toNat - 48) = c := by
  simp only [Char.isDigit, Bool.and_eq_true, decide_eq_true_eq] at h
  have hleast : 48 ≤ c.toNat := h.1
  have hgreatest : c.toNat ≤ 57 := h.2
  refine ⟨by omega, ?_⟩
  have hchars : ∀ x < 10, Nat.digitChar x = Char.ofNat (x + 48) := by decide
  rw [hchars _ (by omega), Nat.sub_add_cancel hleast, Char.ofNat_toNat]

lemma natDigits_lt {k x : ℕ} (h : x ∈ natDigits k) : x < 10 := by
  obtain ⟨c, hc, rfl⟩ := List.mem_map.mp h
  exact (digitChar_toNat_sub (digits_toDigits k c hc)).1

lemma digitChars_natDigits (k : ℕ) : Layout.digitChars (natDigits k) = Nat.toDigits 10 k := by
  rw [Layout.digitChars, natDigits, List.map_map]
  refine (List.map_congr_left fun c hc => ?_).trans (List.map_id _)
  exact (digitChar_toNat_sub (digits_toDigits k c hc)).2

/-- Only zeros are dropped at the end. -/
lemma exists_dropTrailingZeros (ds : List ℕ) :
    ∃ n, ds = dropTrailingZeros ds ++ List.replicate n 0 := by
  refine ⟨(ds.reverse.takeWhile (· == 0)).length, ?_⟩
  have hzeros : (ds.reverse.takeWhile (· == 0)).reverse =
      List.replicate (ds.reverse.takeWhile (· == 0)).length 0 := by
    rw [List.eq_replicate_iff, List.length_reverse]
    refine ⟨rfl, fun x hx => ?_⟩
    simpa using List.mem_takeWhile_imp (List.mem_reverse.mp hx)
  rw [← hzeros, dropTrailingZeros, ← List.reverse_append, List.takeWhile_append_dropWhile,
    List.reverse_reverse]

lemma proper_ofNat (k : ℕ) (e : ℤ) : (ofNat k e).Proper := by
  obtain ⟨n, hn⟩ := exists_dropTrailingZeros (natDigits k)
  intro x hx
  refine natDigits_lt (k := k) ?_
  rw [hn]
  exact List.mem_append_left _ hx

lemma value_ofNat (k : ℕ) (e : ℤ) : (ofNat k e).value = k * 10 ^ e := by
  obtain ⟨n, hn⟩ := exists_dropTrailingZeros (natDigits k)
  generalize hds : dropTrailingZeros (natDigits k) = ds at hn
  have hchars : Nat.toDigits 10 k = Layout.digitChars ds ++ List.replicate n '0' := by
    rw [← digitChars_natDigits, hn, Layout.digitChars, List.map_append, List.map_replicate]
    rfl
  have hnumber : k = 10 ^ n * Nat.ofDigitChars 10 (Layout.digitChars ds) 0 := by
    rw [← Nat.ofDigitChars_replicate_zero, ← Nat.ofDigitChars_append, ← hchars,
      Nat.ofDigitChars_ten_toDigits]
  have hlength : (natDigits k).length = ds.length + n := by
    rw [hn, List.length_append, List.length_replicate]
  have hpoint : e + (natDigits k).length - ds.length = n + e := by
    rw [hlength]
    push_cast
    ring
  rw [value, ofNat, hds, hpoint, zpow_add₀ (by norm_num), zpow_natCast]
  conv_rhs => rw [hnumber]
  push_cast
  ring

end Decimal

/-! ### Layouts -/

namespace Layout

variable {l : Layout} {s : Decimal}

/-- The positional text of a decimal has a point in it and stands for its value. -/
lemma positional_reads (h : s.Proper) :
    Plain (positional s) ∧ '.' ∈ positional s ∧ amount (positional s) = s.value := by
  have hdigits := Decimal.digits_digitChars h
  have hzero : Digits ['0'] := digits_replicate 1
  have hlength : ∀ ds, (digitChars ds).length = ds.length := fun ds => List.length_map _
  obtain ⟨whole, fraction, htext, hwhole, hne, hfraction, hvalue⟩ : ∃ whole fraction,
      positional s = whole ++ '.' :: fraction ∧ Digits whole ∧ whole ≠ [] ∧ Digits fraction ∧
        (Nat.ofDigitChars 10 (whole ++ fraction) 0 : ℕ) * 10 ^ (-(fraction.length : ℤ)) =
          s.value := by
    simp only [positional, Decimal.value]
    split_ifs with hpoint hwhole
    · -- zeros behind the point, in front of the digits
      refine ⟨['0'], List.replicate (-s.point).toNat '0' ++ digitChars s.digits, rfl, hzero,
        by simp, (digits_replicate _).append hdigits, ?_⟩
      rw [Nat.ofDigitChars_append, Nat.ofDigitChars_append, Nat.ofDigitChars_cons,
        Nat.ofDigitChars_nil, Nat.ofDigitChars_replicate_zero, List.length_append,
        List.length_replicate, hlength]
      congr 2
      omega
    · -- zeros behind the digits, in front of the point
      refine ⟨_, ['0'], rfl, hdigits.append (digits_replicate _), ?_, hzero, ?_⟩
      · rw [Ne, ← List.length_eq_zero_iff, List.length_append, hlength, List.length_replicate]
        omega
      · have hexponent : ((s.point.toNat - s.digits.length : ℕ) : ℤ) =
            s.point - s.digits.length := by omega
        rw [Nat.ofDigitChars_append, Nat.ofDigitChars_append, Nat.ofDigitChars_replicate_zero,
          Nat.ofDigitChars_cons, Nat.ofDigitChars_nil, ← hexponent, zpow_natCast,
          List.length_singleton]
        push_cast
        norm_num
        ring
    · -- the point stands between the digits
      refine ⟨digitChars (s.digits.take s.point.toNat), digitChars (s.digits.drop s.point.toNat),
        by simp, Decimal.digits_digitChars fun x hx => h x (List.mem_of_mem_take hx), ?_,
        Decimal.digits_digitChars fun x hx => h x (List.mem_of_mem_drop hx), ?_⟩
      · rw [Ne, ← List.length_eq_zero_iff, hlength, List.length_take]
        omega
      · rw [hlength, List.length_drop]
        simp only [digitChars, ← List.map_append, List.take_append_drop]
        congr 2
        omega
  rw [htext, ← hvalue]
  exact ⟨.point hwhole hne hfraction, by simp, amount_point hwhole hfraction⟩

/-- The sign and the digits of an exponent. -/
def exponentChars (l : Layout) (e : ℤ) : List Char :=
  (if e < 0 then ['-'] else if l.plusSign then ['+'] else []) ++ Nat.toDigits 10 e.natAbs

lemma signed_exponentChars (l : Layout) (e : ℤ) : signed (exponentChars l e) = e := by
  rw [exponentChars]
  split_ifs with hneg hplus
  · rw [List.singleton_append, signed, Nat.ofDigitChars_ten_toDigits]
    omega
  · rw [List.singleton_append, signed, Nat.ofDigitChars_ten_toDigits]
    omega
  · rw [List.nil_append, signed_of_digits (digits_toDigits _), Nat.ofDigitChars_ten_toDigits]
    omega

lemma numeral_exponentChars (l : Layout) (e : ℤ) : Numeral (exponentChars l e) := by
  have hdigits := (digits_toDigits e.natAbs).numeral
  have hsigns : isNumeral '-' = true ∧ isNumeral '+' = true := by decide
  rw [exponentChars]
  split_ifs <;> simp [hdigits, hsigns]

/-- The digits of a decimal with the point behind the first one. -/
def mantissa : List ℕ → List Char
  | [] => ['0']
  | [x] => digitChars [x]
  | x :: rest => digitChars [x] ++ '.' :: digitChars rest

lemma mantissa_reads {ds : List ℕ} (h : ∀ x ∈ ds, x < 10) :
    Plain (mantissa ds) ∧ amount (mantissa ds) =
      (Nat.ofDigitChars 10 (digitChars ds) 0 : ℕ) * 10 ^ (1 - (ds.length : ℤ)) := by
  have hzero : Digits ['0'] := digits_replicate 1
  rcases ds with _ | ⟨x, _ | ⟨y, rest⟩⟩
  · refine ⟨.whole hzero (by simp [mantissa]), ?_⟩
    rw [mantissa, amount_digits hzero]
    simp [digitChars, Nat.ofDigitChars_cons]
  · refine ⟨.whole (Decimal.digits_digitChars h) (by simp [mantissa, digitChars]), ?_⟩
    rw [mantissa, amount_digits (Decimal.digits_digitChars h)]
    simp
  · obtain ⟨hx, hrest⟩ := List.forall_mem_cons.mp h
    have hfirst : Digits (digitChars [x]) := Decimal.digits_digitChars (by simpa using hx)
    have htext : mantissa (x :: y :: rest) = digitChars [x] ++ '.' :: digitChars (y :: rest) := rfl
    have hjoined : digitChars [x] ++ digitChars (y :: rest) = digitChars (x :: y :: rest) := rfl
    have hexponent : -((digitChars (y :: rest)).length : ℤ) = 1 - (x :: y :: rest).length := by
      simp [digitChars]
    rw [htext]
    refine ⟨.point hfirst (by simp [digitChars]) (Decimal.digits_digitChars hrest), ?_⟩
    rw [amount_point hfirst (Decimal.digits_digitChars hrest), hjoined, hexponent]

lemma scientific_eq (l : Layout) (s : Decimal) :
    scientific l s = mantissa s.digits ++ 'e' :: exponentChars l (s.point - 1) := by
  rcases hds : s.digits with _ | ⟨x, _ | ⟨y, rest⟩⟩ <;>
    simp [scientific, hds, mantissa, exponentChars]

/-- The scientific text of a decimal has an exponent and stands for its value. -/
lemma scientific_reads (h : s.Proper) :
    Numeral (scientific l s) ∧ (∃ c rest, scientific l s = c :: rest ∧ c.isDigit = true) ∧
      'e' ∈ scientific l s ∧ amount (scientific l s) = s.value := by
  obtain ⟨hplain, hamount⟩ := mantissa_reads h
  rw [scientific_eq]
  refine ⟨?_, ?_, by simp, ?_⟩
  · exact numeral_append.mpr
      ⟨hplain.numeral, numeral_cons.mpr ⟨rfl, numeral_exponentChars l _⟩⟩
  · obtain ⟨c, rest, htext, hc⟩ := hplain.exists_eq_cons
    exact ⟨c, _, by rw [htext, List.cons_append], hc⟩
  · rw [amount_exponent hplain.notMem, signed_exponentChars, hamount, mul_assoc,
      ← zpow_add₀ (by norm_num), Decimal.value]
    congr 2
    ring

/-! ### Doubles -/

/-- A text that is read as a double without its sign. -/
structure Spelled (d : Double) (body : List Char) : Prop where
  numeral : Numeral body
  opens : ∃ c rest, body = c :: rest ∧ c.isDigit = true
  marked : '.' ∈ body ∨ 'e' ∈ body
  zero : d.isZero = true → amount body = 0
  rounds : d.isZero = false → Rounds d.parts.significand d.parts.exponent (amount body)

/-- The text of a double is its sign and a text that is read as the double. -/
lemma exists_spelled (l : Layout) (d : Double) : ∃ body,
    l.chars d = (if d.parts.negative then ['-'] else []) ++ body ∧ Spelled d body := by
  cases hzero : d.isZero with
  | true =>
      have hdigits : Digits ['0'] := digits_replicate 1
      refine ⟨['0'] ++ '.' :: ['0'], by simp [chars, hzero], ?_, ⟨'0', _, rfl, rfl⟩, by simp,
        ?_, ?_⟩
      · exact (Plain.point hdigits (by simp) hdigits).numeral
      · intro _
        rw [amount_point hdigits hdigits]
        simp [Nat.ofDigitChars_cons]
      · intro h
        rw [hzero] at h
        cases h
  | false =>
      obtain ⟨k, e, hshortest, hrounds⟩ := rounds_shortest l.tie hzero
      rw [← Decimal.value_ofNat, ← hshortest] at hrounds
      have hproper : (d.shortest l.tie).Proper := hshortest ▸ Decimal.proper_ofNat k e
      have hnot : ∀ {p : Prop}, d.isZero = true → p := by
        intro p h
        rw [hzero] at h
        cases h
      rw [chars, hzero, if_neg Bool.false_ne_true]
      dsimp only
      generalize (if d.parts.negative then ['-'] else []) = sign
      split_ifs
      · obtain ⟨hplain, hpoint, hamount⟩ := positional_reads hproper
        exact ⟨_, rfl, hplain.numeral, hplain.exists_eq_cons, .inl hpoint, hnot,
          fun _ => hamount ▸ hrounds⟩
      · obtain ⟨hnumeral, hopens, hmarked, hamount⟩ := scientific_reads hproper
        exact ⟨_, rfl, hnumeral, hopens, .inr hmarked, hnot, fun _ => hamount ▸ hrounds⟩

variable {d d' : Double} {body : List Char}

lemma Spelled.isZero_iff (h : Spelled d body) : d.isZero = true ↔ amount body = 0 := by
  refine ⟨h.zero, fun hamount => ?_⟩
  by_contra hzero
  have hpos : 0 < d.parts.significand :=
    Nat.pos_of_ne_zero fun hsignificand => hzero (isZero_eq_true_iff.mpr hsignificand)
  exact ((h.rounds (Bool.eq_false_of_not_eq_true hzero)).pos hpos).ne' hamount

/-- A text is read as one double only, up to its sign. -/
lemma Spelled.parts_eq (h : Spelled d body) (h' : Spelled d' body) :
    d.parts.significand = d'.parts.significand ∧ d.parts.exponent = d'.parts.exponent := by
  have hlegal := legal_parts d
  have hlegal' := legal_parts d'
  have hzeros : d.isZero = d'.isZero := Bool.eq_iff_iff.mpr (h.isZero_iff.trans h'.isZero_iff.symm)
  cases hzero : d.isZero with
  | true =>
      have hsignificand := isZero_eq_true_iff.mp hzero
      have hsignificand' := isZero_eq_true_iff.mp (hzeros ▸ hzero)
      have hle := hlegal.le
      have hle' := hlegal'.le
      have hleast := hlegal.least
      have hleast' := hlegal'.least
      omega
  | false => exact (h.rounds hzero).unique (h'.rounds (hzeros ▸ hzero)) hlegal hlegal'

end Layout

end Double

/-! ### Numbers -/

/-- A sign is told apart from a digit. -/
lemma Text.sign_append_inj {negative negative' : Bool} {body body' : List Char}
    (hopens : ∃ c rest, body = c :: rest ∧ c.isDigit = true)
    (hopens' : ∃ c rest, body' = c :: rest ∧ c.isDigit = true)
    (h : (if negative then ['-'] else []) ++ body = (if negative' then ['-'] else []) ++ body') :
    negative = negative' ∧ body = body' := by
  obtain ⟨c, rest, rfl, hc⟩ := hopens
  obtain ⟨c', rest', rfl, hc'⟩ := hopens'
  cases negative <;> cases negative' <;>
    simp only [Bool.false_eq_true, if_true, if_false, List.nil_append, List.singleton_append] at h
  · exact ⟨rfl, h⟩
  · rw [(List.cons.inj h).1] at hc
    cases hc
  · rw [← (List.cons.inj h).1] at hc'
    cases hc'
  · exact ⟨rfl, (List.cons.inj h).2⟩

namespace Number

variable {n n' : Number} {r r' : List Char}

/-- The text of an integer is its sign and its digits. -/
lemma chars_int (i : ℤ) : (Number.int i).chars =
    (if decide (i < 0) then ['-'] else []) ++ Nat.toDigits 10 i.natAbs := by
  rw [chars]
  by_cases hneg : i < 0 <;> simp [hneg]

lemma exists_toDigits_eq_cons (k : ℕ) :
    ∃ c rest, Nat.toDigits 10 k = c :: rest ∧ c.isDigit = true :=
  (digits_toDigits k).exists_eq_cons Nat.toDigits_ne_nil

/-- Integers are not written like doubles. -/
lemma chars_int_ne (i : ℤ) (d : Double) : (Number.int i).chars ≠ (Number.double d).chars := by
  intro h
  obtain ⟨body, htext, hbody⟩ := Double.Layout.exists_spelled .json d
  rw [chars_int, chars, htext] at h
  obtain ⟨-, rfl⟩ := sign_append_inj (exists_toDigits_eq_cons _) hbody.opens h
  rcases hbody.marked with hmem | hmem
  · exact (digits_toDigits _).notMem rfl hmem
  · exact (digits_toDigits _).notMem rfl hmem

/-- **Numbers are the same if their texts are.** -/
theorem chars_inj (h : n.chars = n'.chars) : n = n' := by
  cases n with
  | int i =>
      cases n' with
      | int j =>
          rw [chars_int, chars_int] at h
          obtain ⟨hneg, hdigits⟩ :=
            sign_append_inj (exists_toDigits_eq_cons _) (exists_toDigits_eq_cons _) h
          have habs : i.natAbs = j.natAbs := by
            rw [← Nat.ofDigitChars_ten_toDigits (n := i.natAbs), hdigits,
              Nat.ofDigitChars_ten_toDigits]
          rw [decide_eq_decide] at hneg
          rw [show i = j by omega]
      | double d => exact absurd h (chars_int_ne i d)
  | double d =>
      cases n' with
      | int j => exact absurd h.symm (chars_int_ne j d)
      | double d' =>
          obtain ⟨body, htext, hbody⟩ := Double.Layout.exists_spelled .json d
          obtain ⟨body', htext', hbody'⟩ := Double.Layout.exists_spelled .json d'
          rw [chars, chars, htext, htext'] at h
          obtain ⟨hnegative, rfl⟩ := sign_append_inj hbody.opens hbody'.opens h
          obtain ⟨hsignificand, hexponent⟩ := hbody.parts_eq hbody'
          rw [Double.eq_of_parts hnegative hsignificand hexponent]

/-- The text of a number begins with a sign or with a digit. -/
lemma exists_chars_eq (n : Number) :
    ∃ c rest, n.chars = c :: rest ∧ (c = '-' ∨ c.isDigit = true) := by
  have hsign : ∀ {negative : Bool} {body : List Char},
      (∃ c rest, body = c :: rest ∧ c.isDigit = true) →
        ∃ c rest, (if negative then ['-'] else []) ++ body = c :: rest ∧
          (c = '-' ∨ c.isDigit = true) := by
    rintro (_ | _) body ⟨c, rest, rfl, hc⟩
    · exact ⟨c, rest, rfl, .inr hc⟩
    · exact ⟨'-', c :: rest, rfl, .inl rfl⟩
  cases n with
  | int i =>
      rw [chars_int]
      exact hsign (exists_toDigits_eq_cons _)
  | double d =>
      obtain ⟨body, htext, hbody⟩ := Double.Layout.exists_spelled .json d
      rw [chars, htext]
      exact hsign hbody.opens

lemma numeral_chars (n : Number) : Numeral n.chars := by
  have hsign : ∀ negative : Bool, Numeral (if negative then ['-'] else []) := by
    rintro (_ | _)
    · exact numeral_nil
    · exact numeral_cons.mpr ⟨rfl, numeral_nil⟩
  cases n with
  | int i =>
      rw [chars_int]
      exact numeral_append.mpr ⟨hsign _, (digits_toDigits _).numeral⟩
  | double d =>
      obtain ⟨body, htext, hbody⟩ := Double.Layout.exists_spelled .json d
      rw [chars, htext]
      exact numeral_append.mpr ⟨hsign _, hbody.numeral⟩

end Number

namespace Text

variable {c : Char} {r : List Char}

/-- What follows does not go on with a number. -/
def Halts (r : List Char) : Prop := ∀ c ∈ r.head?, isNumeral c = false

lemma halts_nil : Halts [] := by
  rintro c ⟨⟩

lemma halts_cons (h : isNumeral c = false) (r : List Char) : Halts (c :: r) := by
  rintro _ ⟨⟩
  exact h

/-- A numeral ends where it does not go on. -/
lemma takeWhile_numeral {cs : List Char} (h : Numeral cs) (hr : Halts r) :
    (cs ++ r).takeWhile isNumeral = cs := by
  rw [List.takeWhile_append_of_pos h]
  cases r with
  | nil => simp
  | cons c r => simp [hr c rfl]

end Text

/-- The text of a number and what follows it are told apart. -/
lemma Number.chars_append_inj {n n' : Number} {r r' : List Char} (hr : Halts r) (hr' : Halts r')
    (h : n.chars ++ r = n'.chars ++ r') : n = n' ∧ r = r' := by
  have hchars : n.chars = n'.chars := by
    rw [← takeWhile_numeral n.numeral_chars hr, h, takeWhile_numeral n'.numeral_chars hr']
  exact ⟨Number.chars_inj hchars, List.append_cancel_left (hchars ▸ h)⟩

end LayeredSettings
