import TolPlatform.Library.ShortestDecimal

/-!
# Numbers

A `number` of the language is a binary64 double, an infinity or not a number. The two zeros are one
here, as they are to every comparison; a quotient by zero takes it as positive.

* `toNumber` converts a `bigint`; it is exact up to `2 ^ 53` (`toNumber_eq_ofInt`) and never turns a
  comparison around (`not_toNumber_lt_of_le`).
* `toText` writes a number as the language does, and two doubles are never written alike
  (`Double.chars_injective`).
-/

namespace TolPlatform

def binary64 : BinaryFormat where
  precision := 53
  minExponent := -1074

/-- A finite number. -/
@[ext] structure Double where
  value : ℚ
  has_value : binary64.Has value
  abs_lt : |value| < 2 ^ 1024
  deriving Repr

inductive Number
  | finite (x : Double)
  | infinity (negative : Bool)
  | nan
  deriving Repr

instance : DecidableEq Double := fun _ _ ↦ decidable_of_iff' _ Double.ext_iff

deriving instance DecidableEq for Number

/-- A whole number that a double holds. -/
def Double.ofInt (n : Int) (h : |n| ≤ 2 ^ 53) : Double where
  value := n
  has_value := by
    rcases h.lt_or_eq with hlt | heq
    · exact ⟨n, 0, hlt, by decide, by rw [zpow_zero, mul_one]⟩
    · rcases eq_or_eq_neg_of_abs_eq heq with rfl | rfl
      · exact ⟨1, 53, by decide, by decide, by norm_num⟩
      · exact ⟨-1, 53, by decide, by decide, by norm_num⟩
  abs_lt := by
    have hcast : |(n : ℚ)| ≤ 2 ^ 53 := by exact_mod_cast h
    exact hcast.trans_lt (pow_lt_pow_right₀ one_lt_two (by decide))

namespace Number

/-! ### Arithmetic -/

/-- To nearest, ties to even; what is too large becomes an infinity. -/
def round (x : ℚ) : Number :=
  if h : |binary64.round x| < 2 ^ 1024 then .finite ⟨binary64.round x, binary64.has_round x, h⟩
  else .infinity (x < 0)

def add : Number → Number → Number
  | .nan, _ | _, .nan => .nan
  | .finite x, .finite y => round (x.value + y.value)
  | .finite _, .infinity negative | .infinity negative, .finite _ => .infinity negative
  | .infinity negative, .infinity negative' =>
    if negative = negative' then .infinity negative else .nan

def div : Number → Number → Number
  | .nan, _ | _, .nan => .nan
  | .finite x, .finite y =>
    if y.value ≠ 0 then round (x.value / y.value)
    else if x.value ≠ 0 then .infinity (x.value < 0)
    else .nan
  | .finite _, .infinity _ => round 0
  | .infinity negative, .finite y => .infinity (negative != decide (y.value < 0))
  | .infinity _, .infinity _ => .nan

/-- `x < y`, false where either is not a number. -/
def Less : Number → Number → Prop
  | .nan, _ | _, .nan => False
  | .finite x, .finite y => x.value < y.value
  | .finite _, .infinity negative => negative = false
  | .infinity negative, .finite _ => negative = true
  | .infinity negative, .infinity negative' => negative = true ∧ negative' = false

instance : LT Number := ⟨Less⟩

instance : DecidableRel Less
  | .nan, _ => .isFalse id
  | .finite _, .nan | .infinity _, .nan => .isFalse id
  | .finite x, .finite y => inferInstanceAs (Decidable (x.value < y.value))
  | .finite _, .infinity negative => inferInstanceAs (Decidable (negative = false))
  | .infinity negative, .finite _ => inferInstanceAs (Decidable (negative = true))
  | .infinity negative, .infinity negative' =>
    inferInstanceAs (Decidable (negative = true ∧ negative' = false))

instance (x y : Number) : Decidable (x < y) := inferInstanceAs (Decidable (Less x y))

/-- The integer that a number is, if it is one. -/
def toInt? : Number → Option Int
  | .finite x => if x.value.den = 1 then some x.value.num else none
  | _ => none

end Number

/-- `Number(n)` of a `bigint`. -/
def toNumber (n : Int) : Number := .round n

namespace Number

@[simp] theorem finite_lt_finite {x y : Double} : finite x < finite y ↔ x.value < y.value := Iff.rfl

theorem round_value (x : Double) : round x.value = .finite x := by
  have hround := binary64.round_eq_self x.has_value
  rw [round, dif_pos (by rw [hround]; exact x.abs_lt)]
  exact congrArg finite (Double.ext hround)

theorem round_eq_finite {q : ℚ} {x : Double} (h : round q = .finite x) :
    binary64.round q = x.value := by
  unfold round at h
  split at h
  · exact congrArg Double.value (finite.inj h)
  · exact absurd h (by simp)

theorem toInt?_eq_some {x : Number} {n : Int} :
    x.toInt? = some n ↔ ∃ d, x = .finite d ∧ d.value = n := by
  cases x with
  | infinity negative => simp [toInt?]
  | nan => simp [toInt?]
  | finite d =>
    rw [toInt?, Option.ite_none_right_eq_some, Option.some.injEq]
    constructor
    · rintro ⟨hden, rfl⟩
      exact ⟨d, rfl, (Rat.coe_int_num_of_den_eq_one hden).symm⟩
    · rintro ⟨d', hd, hvalue⟩
      obtain rfl := finite.inj hd
      rw [hvalue]
      exact ⟨Rat.den_intCast n, Rat.num_intCast n⟩

end Number

/-- **A `bigint` of at most `2 ^ 53` is converted exactly.** -/
theorem toNumber_eq_ofInt {n : Int} (h : |n| ≤ 2 ^ 53) : toNumber n = .finite (.ofInt n h) :=
  Number.round_value (.ofInt n h)

theorem toInt?_toNumber {n : Int} (h : |n| ≤ 2 ^ 53) : (toNumber n).toInt? = some n :=
  Number.toInt?_eq_some.2 ⟨_, toNumber_eq_ofInt h, rfl⟩

/-- A number that is an integer is what the integer is converted to. -/
theorem eq_toNumber_of_toInt? {x : Number} {n : Int} (h : x.toInt? = some n) : x = toNumber n := by
  obtain ⟨d, rfl, hvalue⟩ := Number.toInt?_eq_some.1 h
  rw [toNumber, ← hvalue, Number.round_value]

/-- Whole sums up to `2 ^ 53` are exact. -/
theorem add_toNumber {m n : Int} (hm : |m| ≤ 2 ^ 53) (hn : |n| ≤ 2 ^ 53) (h : |m + n| ≤ 2 ^ 53) :
    (toNumber m).add (toNumber n) = toNumber (m + n) := by
  rw [toNumber_eq_ofInt hm, toNumber_eq_ofInt hn, toNumber_eq_ofInt h]
  show Number.round ((m : ℚ) + (n : ℚ)) = _
  rw [← Int.cast_add]
  exact Number.round_value (.ofInt (m + n) h)

/-- What is not below zero is added up upwards: a finite sum is at least as large as either part. -/
theorem Number.le_of_add_eq_finite {x y : Number} {z : Double} (hx : ¬ x < toNumber 0)
    (hy : ¬ y < toNumber 0) (h : x.add y = .finite z) :
    ∃ x' y', x = .finite x' ∧ y = .finite y' ∧ x'.value ≤ z.value ∧ y'.value ≤ z.value := by
  rcases x with x' | negative | -
  · rcases y with y' | negative | -
    · rw [toNumber_eq_ofInt (n := 0) (by decide), finite_lt_finite, not_lt] at hx hy
      have hx' : 0 ≤ x'.value := by exact_mod_cast hx
      have hy' : 0 ≤ y'.value := by exact_mod_cast hy
      have hround := round_eq_finite h
      refine ⟨x', y', rfl, rfl, ?_, ?_⟩
      · rw [← hround]
        exact binary64.le_round x'.has_value hx' (le_add_of_nonneg_right hy')
      · rw [← hround]
        exact binary64.le_round y'.has_value hy' (le_add_of_nonneg_left hx')
    · exact absurd h (by simp [add])
    · exact absurd h (by simp [add])
  · rcases y with y' | negative' | -
    · exact absurd h (by simp [add])
    · refine absurd h ?_
      rw [add]
      split <;> simp
    · exact absurd h (by simp [add])
  · exact absurd h (by simp [add])

/-! ### Comparisons -/

namespace Number

/-- A rounded number is below a finite one exactly when the value it is rounded to is. -/
theorem round_lt_finite {q : ℚ} (hq : 0 ≤ q) {x : Double} :
    round q < .finite x ↔ binary64.round q < x.value := by
  unfold round
  split
  · exact Iff.rfl
  · rename_i hlarge
    have hnonneg := binary64.round_nonneg hq
    rw [abs_of_nonneg hnonneg, not_lt] at hlarge
    rw [decide_eq_false (not_lt.2 hq)]
    refine iff_of_false Bool.noConfusion (not_lt.2 ?_)
    exact (le_abs_self _).trans (x.abs_lt.le.trans hlarge)

/-- What is not negative is rounded to what is not negative, or overflows upwards. -/
theorem round_cases {q : ℚ} (hq : 0 ≤ q) :
    (∃ x : Double, round q = .finite x ∧ x.value = binary64.round q) ∨
      round q = .infinity false ∧ 2 ^ 1024 ≤ binary64.round q := by
  unfold round
  split
  · exact .inl ⟨_, rfl, rfl⟩
  · rename_i hlarge
    rw [abs_of_nonneg (binary64.round_nonneg hq), not_lt] at hlarge
    exact .inr ⟨by rw [decide_eq_false (not_lt.2 hq)], hlarge⟩

/-- Rounding does not turn a comparison around. -/
theorem not_round_lt_of_le {p q : ℚ} (hp : 0 ≤ p) (h : p ≤ q) : ¬ round q < round p := by
  have hmono := binary64.round_mono hp h
  rcases round_cases hp with ⟨x, hx, hvalue⟩ | ⟨hx, hlarge⟩
  · rw [hx, round_lt_finite (hp.trans h), hvalue]
    exact not_lt.2 hmono
  · rcases round_cases (hp.trans h) with ⟨y, -, hy⟩ | ⟨hy, -⟩
    · have hsmall := (le_abs_self y.value).trans_lt y.abs_lt
      rw [hy] at hsmall
      exact absurd (hlarge.trans hmono) (not_le.2 hsmall)
    · rw [hx, hy]
      exact fun hlt ↦ Bool.noConfusion hlt.1

end Number

/-- A sum of what is not below zero is not below zero. -/
theorem Number.not_add_lt_zero {x y : Number} (hx : ¬ x < toNumber 0) (hy : ¬ y < toNumber 0) :
    ¬ x.add y < toNumber 0 := by
  have hzero : toNumber 0 = .finite (.ofInt 0 (by decide)) := toNumber_eq_ofInt (by decide)
  rcases x with x' | negative | -
  · rcases y with y' | negative | -
    · rw [hzero, finite_lt_finite, not_lt] at hx hy
      have hx' : 0 ≤ x'.value := by exact_mod_cast hx
      have hy' : 0 ≤ y'.value := by exact_mod_cast hy
      exact not_round_lt_of_le (by norm_num) (by simpa using add_nonneg hx' hy')
    · rwa [hzero] at hy ⊢
    · exact id
  · rcases y with y' | negative' | -
    · rwa [hzero] at hx ⊢
    · rw [add]
      split
      · exact hx
      · exact id
    · exact id
  · exact id

theorem not_toNumber_lt_of_le {m n : Int} (hm : 0 ≤ m) (h : m ≤ n) : ¬ toNumber n < toNumber m :=
  Number.not_round_lt_of_le (by exact_mod_cast hm) (by exact_mod_cast h)

/-- Up to `2 ^ 53` conversion keeps every comparison. -/
theorem toNumber_lt_iff {m n : Int} (hm : 0 ≤ m) (hn : 0 ≤ n) (h : n ≤ 2 ^ 53) :
    toNumber m < toNumber n ↔ m < n := by
  constructor
  · intro hlt
    by_contra hnot
    exact not_toNumber_lt_of_le hn (not_lt.1 hnot) hlt
  · intro hlt
    have hm' : |m| ≤ 2 ^ 53 := by rw [abs_of_nonneg hm]; omega
    have hn' : |n| ≤ 2 ^ 53 := by rwa [abs_of_nonneg hn]
    rw [toNumber_eq_ofInt hm', toNumber_eq_ofInt hn']
    show ((m : ℤ) : ℚ) < n
    exact_mod_cast hlt

theorem one_le_round_intCast {n : Int} (hn : 0 < n) : 1 ≤ binary64.round (n : ℚ) :=
  binary64.le_round (binary64.has_one (by decide)) zero_le_one (by exact_mod_cast hn)

/-- **A quotient is below one exactly when the converted dividend is below the converted divisor.** -/
theorem div_toNumber_lt_one_iff {m n : Int} (hm : 0 ≤ m) (hn : 0 < n) :
    (toNumber m).div (toNumber n) < toNumber 1 ↔ toNumber m < toNumber n := by
  have hm' : (0 : ℚ) ≤ (m : ℚ) := by exact_mod_cast hm
  have hn' : (0 : ℚ) ≤ (n : ℚ) := by exact_mod_cast hn.le
  have hone : toNumber 1 = .finite (.ofInt 1 (by decide)) := toNumber_eq_ofInt (by decide)
  rw [hone, toNumber, toNumber]
  rcases Number.round_cases hm' with ⟨x, hx, hxvalue⟩ | ⟨hx, -⟩ <;>
    rcases Number.round_cases hn' with ⟨y, hy, hyvalue⟩ | ⟨hy, -⟩ <;>
    rw [hx, hy]
  · have hypos : 0 < y.value := hyvalue ▸ zero_lt_one.trans_le (one_le_round_intCast hn)
    have hxnonneg : 0 ≤ x.value := hxvalue ▸ binary64.round_nonneg hm'
    rw [Number.div, if_pos hypos.ne', Number.round_lt_finite (div_nonneg hxnonneg hypos.le),
      Number.finite_lt_finite, ← binary64.round_div_lt_one_iff (by decide) x.has_value y.has_value
        hxnonneg hypos]
    exact_mod_cast Iff.rfl
  · -- what overflows is above every finite number
    have hzero := binary64.round_eq_self (Double.ofInt 0 (by decide)).has_value
    refine iff_of_true ((Number.round_lt_finite le_rfl).2 ?_) rfl
    show binary64.round 0 < ((1 : ℤ) : ℚ)
    rw [show binary64.round (0 : ℚ) = 0 by exact_mod_cast hzero]
    norm_num
  · have hynonneg : ¬ y.value < 0 := not_lt.2 (hyvalue ▸ binary64.round_nonneg hn')
    rw [Number.div, decide_eq_false hynonneg]
    exact iff_of_false Bool.noConfusion Bool.noConfusion
  · exact iff_of_false id fun hlt ↦ Bool.noConfusion hlt.1

/-! ### Text -/

def fractionChars (fraction : List Char) : List Char :=
  if fraction = [] then [] else '.' :: fraction

def exponentChars : Option ℤ → List Char
  | none => []
  | some e => 'e' :: (if e < 0 then '-' else '+') :: Nat.toDigits 10 e.natAbs

/-- Digits before and after the point, and an exponent. -/
def numeral (whole fraction : List Char) (exponent : Option ℤ) : List Char :=
  whole ++ fractionChars fraction ++ exponentChars exponent

/-- A positive number of these digits: plainly where the point is not far off, with an exponent
otherwise. -/
def decimalChars (d : Decimal) : List Char :=
  let digits := Nat.toDigits 10 d.digits
  let n := d.exponent + digits.length
  if 0 ≤ d.exponent ∧ n ≤ 21 then numeral (digits ++ List.replicate d.exponent.toNat '0') [] none
  else if 0 < n ∧ n ≤ 21 then numeral (digits.take n.toNat) (digits.drop n.toNat) none
  else if -6 < n ∧ n ≤ 0 then numeral ['0'] (List.replicate (-n).toNat '0' ++ digits) none
  else numeral (digits.take 1) (digits.drop 1) (some (n - 1))

/-- `String(x)` of a finite number, as characters. -/
def Double.chars (x : Double) : List Char :=
  if x.value = 0 then ['0']
  else if x.value < 0 then '-' :: decimalChars (Decimal.shortest binary64 (-x.value))
  else decimalChars (Decimal.shortest binary64 x.value)

/-- `String(x)`. -/
def Number.toText : Number → String
  | .finite x => String.ofList x.chars
  | .infinity negative => if negative then "-Infinity" else "Infinity"
  | .nan => "NaN"

instance : ToString Number := ⟨Number.toText⟩

/-! ### Reading a text back -/

/-- The exponent of a numeral, sign first. -/
def exponentValue : List Char → ℤ
  | '-' :: digits => -(Nat.ofDigitChars 10 digits 0 : ℕ)
  | '+' :: digits => (Nat.ofDigitChars 10 digits 0 : ℕ)
  | _ => 0

/-- The value of a numeral. -/
def numeralValue (s : List Char) : ℚ :=
  let mantissa := s.takeWhile (· ≠ 'e')
  let exponent := (s.dropWhile (· ≠ 'e')).drop 1
  let whole := mantissa.takeWhile (· ≠ '.')
  let fraction := (mantissa.dropWhile (· ≠ '.')).drop 1
  Nat.ofDigitChars 10 (whole ++ fraction) 0 * 10 ^ (exponentValue exponent - fraction.length)

theorem isDigit_toDigits (n : ℕ) : ∀ c ∈ Nat.toDigits 10 n, c.isDigit :=
  fun _ ↦ Nat.isDigit_of_mem_toDigits (by decide) (by decide)

theorem ne_of_isDigit {c d : Char} (hc : c.isDigit) (hd : d.isDigit = false) : c ≠ d := by
  rintro rfl
  exact Bool.noConfusion (hd.symm.trans hc)

/-- Cutting a text at the first `c`. -/
theorem takeWhile_append_of_ne {c : Char} {l rest : List Char} (hl : ∀ d ∈ l, d ≠ c)
    (hrest : rest = [] ∨ ∃ rest', rest = c :: rest') :
    (l ++ rest).takeWhile (· ≠ c) = l ∧ (l ++ rest).dropWhile (· ≠ c) = rest := by
  have hne : ∀ d ∈ l, decide (d ≠ c) = true := fun d hd ↦ decide_eq_true (hl d hd)
  rw [List.takeWhile_append_of_pos hne, List.dropWhile_append_of_pos hne]
  rcases hrest with rfl | ⟨rest', rfl⟩
  · exact ⟨List.append_nil l, rfl⟩
  · simp

/-- The fraction, behind a point or left out. -/
theorem fractionChars_cases (fraction : List Char) :
    fraction = [] ∧ fractionChars fraction = [] ∨ fractionChars fraction = '.' :: fraction := by
  rcases fraction with - | ⟨c, rest⟩
  · exact .inl ⟨rfl, rfl⟩
  · exact .inr rfl

theorem exponentValue_exponentChars (exponent : Option ℤ) :
    exponentValue ((exponentChars exponent).drop 1) = exponent.getD 0 := by
  rcases exponent with - | e
  · rfl
  · rw [exponentChars, List.drop_one, List.tail_cons, Option.getD_some]
    split
    · show -((Nat.ofDigitChars 10 _ 0 : ℕ) : ℤ) = e
      rw [Nat.ofDigitChars_ten_toDigits]
      omega
    · show ((Nat.ofDigitChars 10 _ 0 : ℕ) : ℤ) = e
      rw [Nat.ofDigitChars_ten_toDigits]
      omega

theorem numeralValue_numeral {whole fraction : List Char} (hwhole : ∀ c ∈ whole, c.isDigit)
    (hfraction : ∀ c ∈ fraction, c.isDigit) (exponent : Option ℤ) :
    numeralValue (numeral whole fraction exponent) =
      Nat.ofDigitChars 10 (whole ++ fraction) 0 * 10 ^ (exponent.getD 0 - fraction.length) := by
  have hmantissa : ∀ c ∈ whole ++ fractionChars fraction, c ≠ 'e' := by
    intro c hc
    rcases List.mem_append.1 hc with hc | hc
    · exact ne_of_isDigit (hwhole c hc) (by decide)
    · rcases fractionChars_cases fraction with ⟨-, hnil⟩ | hpoint
      · rw [hnil] at hc
        exact absurd hc List.not_mem_nil
      · rcases List.mem_cons.1 (hpoint ▸ hc) with rfl | hc
        · decide
        · exact ne_of_isDigit (hfraction c hc) (by decide)
  have htail : exponentChars exponent = [] ∨ ∃ rest, exponentChars exponent = 'e' :: rest := by
    rcases exponent with - | e
    · exact .inl rfl
    · exact .inr ⟨_, rfl⟩
  have hpoint : fractionChars fraction = [] ∨ ∃ rest, fractionChars fraction = '.' :: rest :=
    (fractionChars_cases fraction).imp And.right fun h ↦ ⟨_, h⟩
  have hdrop : (fractionChars fraction).drop 1 = fraction := by
    rcases fractionChars_cases fraction with ⟨hnil, h⟩ | h
    · rw [h, hnil, List.drop_nil]
    · rw [h, List.drop_one, List.tail_cons]
  -- cut at the exponent, then at the point
  obtain ⟨hcut, hcut'⟩ := takeWhile_append_of_ne hmantissa htail
  obtain ⟨hsplit, hsplit'⟩ := takeWhile_append_of_ne
    (fun c hc ↦ ne_of_isDigit (hwhole c hc) (by decide)) hpoint
  rw [numeral, numeralValue, hcut, hcut', hsplit, hsplit', hdrop, exponentValue_exponentChars]

/-- What is written for a decimal is a numeral of its value. -/
theorem decimalChars_eq_numeral (d : Decimal) :
    ∃ whole fraction exponent, decimalChars d = numeral whole fraction exponent ∧ whole ≠ [] ∧
      (∀ c ∈ whole, c.isDigit) ∧ (∀ c ∈ fraction, c.isDigit) ∧
      Nat.ofDigitChars 10 (whole ++ fraction) 0 * 10 ^ (exponent.getD 0 - fraction.length) =
        d.value := by
  have hdigits := isDigit_toDigits d.digits
  have hlength := Nat.length_toDigits_pos (b := 10) (n := d.digits)
  have hzero {m : ℕ} : ∀ c ∈ List.replicate m '0', c.isDigit := by
    intro c hc
    obtain rfl := List.eq_of_mem_replicate hc
    decide
  rw [decimalChars, Decimal.value]
  -- an integer, a point among the digits, zeros behind the point, an exponent
  split_ifs with hplain hpoint hsmall
  · refine ⟨_, _, _, rfl, by simp, fun c hc ↦ (List.mem_append.1 hc).elim (hdigits c) (hzero c),
      by simp, ?_⟩
    rw [List.append_nil, Nat.ofDigitChars_append, Nat.ofDigitChars_ten_toDigits,
      Nat.ofDigitChars_replicate_zero, Option.getD_none, List.length_nil, Nat.cast_zero, sub_zero,
      zpow_zero, mul_one, mul_comm]
    push_cast
    rw [← zpow_natCast, Int.toNat_of_nonneg hplain.1]
  · refine ⟨_, _, _, rfl, ?_, fun c hc ↦ hdigits c (List.mem_of_mem_take hc),
      fun c hc ↦ hdigits c (List.mem_of_mem_drop hc), ?_⟩
    · rw [← List.length_pos_iff, List.length_take]
      omega
    · rw [List.take_append_drop, Nat.ofDigitChars_ten_toDigits, Option.getD_none, List.length_drop]
      congr 2
      omega
  · refine ⟨_, _, _, rfl, by simp, List.forall_mem_singleton.2 (by decide),
      fun c hc ↦ (List.mem_append.1 hc).elim (hzero c) (hdigits c), ?_⟩
    rw [← List.append_assoc, Nat.ofDigitChars_append, ← List.replicate_one,
      List.replicate_append_replicate, Nat.ofDigitChars_replicate_zero, Nat.mul_zero,
      Nat.ofDigitChars_ten_toDigits, Option.getD_none, List.length_append, List.length_replicate]
    congr 2
    omega
  · refine ⟨_, _, _, rfl, ?_, fun c hc ↦ hdigits c (List.mem_of_mem_take hc),
      fun c hc ↦ hdigits c (List.mem_of_mem_drop hc), ?_⟩
    · rw [← List.length_pos_iff, List.length_take]
      omega
    · rw [List.take_append_drop, Nat.ofDigitChars_ten_toDigits, Option.getD_some, List.length_drop]
      congr 2
      omega

/-- A decimal is read back from its text. -/
theorem numeralValue_decimalChars (d : Decimal) : numeralValue (decimalChars d) = d.value := by
  obtain ⟨whole, fraction, exponent, hchars, -, hwhole, hfraction, hvalue⟩ :=
    decimalChars_eq_numeral d
  rw [hchars, numeralValue_numeral hwhole hfraction, hvalue]

theorem isDigit_head_decimalChars (d : Decimal) :
    ∃ c rest, decimalChars d = c :: rest ∧ c.isDigit := by
  obtain ⟨whole, fraction, exponent, hchars, hne, hwhole, -, -⟩ := decimalChars_eq_numeral d
  obtain ⟨c, rest, rfl⟩ := List.exists_cons_of_ne_nil hne
  exact ⟨c, _, hchars, hwhole c List.mem_cons_self⟩

/-- The characters of a number's text. -/
def isNumberChar (c : Char) : Bool := c.isDigit ∨ c ∈ ['.', 'e', '-', '+']

theorem isNumberChar_of_isDigit {c : Char} (h : c.isDigit) : isNumberChar c :=
  decide_eq_true (.inl h)

theorem isNumberChar_decimalChars {d : Decimal} : ∀ c ∈ decimalChars d, isNumberChar c := by
  obtain ⟨whole, fraction, exponent, hchars, -, hwhole, hfraction, -⟩ := decimalChars_eq_numeral d
  have hpoint : ∀ c ∈ fractionChars fraction, isNumberChar c := by
    rcases fractionChars_cases fraction with ⟨-, h⟩ | h <;> rw [h]
    · exact fun c hc ↦ absurd hc List.not_mem_nil
    · exact List.forall_mem_cons.2 ⟨by decide, fun c hc ↦ isNumberChar_of_isDigit (hfraction c hc)⟩
  have hexponent : ∀ c ∈ exponentChars exponent, isNumberChar c := by
    rcases exponent with - | e
    · exact fun c hc ↦ absurd hc List.not_mem_nil
    · refine List.forall_mem_cons.2 ⟨by decide, List.forall_mem_cons.2 ⟨?_, fun c hc ↦
        isNumberChar_of_isDigit (isDigit_toDigits _ c hc)⟩⟩
      split <;> decide
  intro c hc
  rw [hchars, numeral, List.mem_append, List.mem_append] at hc
  rcases hc with (hc | hc) | hc
  · exact isNumberChar_of_isDigit (hwhole c hc)
  · exact hpoint c hc
  · exact hexponent c hc

namespace Double

theorem chars_of_pos {x : Double} (h : 0 < x.value) :
    x.chars = decimalChars (Decimal.shortest binary64 x.value) := by
  rw [chars, if_neg h.ne', if_neg h.not_gt]

theorem chars_of_neg {x : Double} (h : x.value < 0) :
    x.chars = '-' :: decimalChars (Decimal.shortest binary64 (-x.value)) := by
  rw [chars, if_neg h.ne, if_pos h]

theorem chars_of_zero {x : Double} (h : x.value = 0) : x.chars = ['0'] := if_pos h

theorem has_neg (x : Double) : binary64.Has (-x.value) := by
  obtain ⟨m, e, hm, he, hx⟩ := x.has_value
  exact ⟨-m, e, by rwa [abs_neg], he, by rw [hx, Int.cast_neg, neg_mul]⟩

/-- The double that a text stands for. -/
def ofChars : List Char → ℚ
  | '-' :: s => -binary64.round (numeralValue s)
  | s => binary64.round (numeralValue s)

theorem ofChars_decimalChars (d : Decimal) :
    ofChars (decimalChars d) = binary64.round d.value := by
  obtain ⟨c, rest, hchars, hc⟩ := isDigit_head_decimalChars d
  rw [← numeralValue_decimalChars, hchars, ofChars]
  rintro s ⟨⟩
  exact Bool.noConfusion hc

/-- Rounding what is written gives the number back. -/
theorem ofChars_chars (x : Double) : ofChars x.chars = x.value := by
  rcases lt_trichotomy x.value 0 with h | h | h
  · rw [chars_of_neg h, ofChars, numeralValue_decimalChars,
      Decimal.round_shortest binary64 (by decide) x.has_neg (neg_pos.2 h), neg_neg]
  · rw [chars_of_zero h, h]
    show binary64.round (numeralValue ['0']) = 0
    decide +kernel
  · rw [chars_of_pos h, ofChars_decimalChars,
      Decimal.round_shortest binary64 (by decide) x.has_value h]

/-- **Two doubles are never written alike.** -/
theorem chars_injective : Function.Injective chars := by
  intro x y h
  have hvalue := congrArg ofChars h
  rw [ofChars_chars, ofChars_chars] at hvalue
  exact Double.ext hvalue

theorem isNumberChar_chars (x : Double) : ∀ c ∈ x.chars, isNumberChar c := by
  rcases lt_trichotomy x.value 0 with h | h | h
  · rw [chars_of_neg h]
    exact List.forall_mem_cons.2 ⟨by decide, isNumberChar_decimalChars⟩
  · rw [chars_of_zero h]
    exact List.forall_mem_singleton.2 (by decide)
  · rw [chars_of_pos h]
    exact isNumberChar_decimalChars

/-- A number's text starts with a digit or a minus. -/
theorem head_chars (x : Double) : ∃ c rest, x.chars = c :: rest ∧ (c.isDigit ∨ c = '-') := by
  rcases lt_trichotomy x.value 0 with h | h | h
  · exact ⟨_, _, chars_of_neg h, .inr rfl⟩
  · exact ⟨_, _, chars_of_zero h, .inl (by decide)⟩
  · obtain ⟨c, rest, hchars, hc⟩ := isDigit_head_decimalChars (Decimal.shortest binary64 x.value)
    exact ⟨c, rest, (chars_of_pos h).trans hchars, .inl hc⟩

end Double

example : [Number.round (1 / 10), .round (-5 / 2), .round (10 ^ 21), .round (1 / 10 ^ 7)].map Number.toText =
    ["0.1", "-2.5", "1e+21", "1e-7"] := by decide +kernel

end TolPlatform
