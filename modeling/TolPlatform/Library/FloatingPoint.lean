import Mathlib.Algebra.Order.Field.Basic
import Mathlib.Algebra.Order.Floor.Ring
import Mathlib.Algebra.Order.Ring.Abs
import Mathlib.Data.Int.Log
import Mathlib.Tactic.Linarith
import Mathlib.Tactic.Ring

/-!
# Rounding to a binary format

The numbers of a binary format are the `m * 2 ^ e` with fewer than `precision + 1` bits in `m` and `e` at
least `minExponent`; a bound from above is not part of the format. `BinaryFormat.round` takes the nearest
of them, the even one on a tie. It is monotone on what is not negative (`round_mono`), it returns a number
of the format (`has_round`), and it leaves the numbers of the format alone (`round_eq_self`). A rounded
quotient is on the same side of one as the exact one (`round_div_lt_one_iff`).
-/

section

variable {K : Type*} [Field K] [LinearOrder K] [IsStrictOrderedRing K] [FloorRing K]

/-! ### Halves to even -/

/-- The nearest integer, the even one on a tie. -/
def roundHalfEven (x : K) : ℤ :=
  if x - ⌊x⌋ < 1 / 2 ∨ x - ⌊x⌋ = 1 / 2 ∧ 2 ∣ ⌊x⌋ then ⌊x⌋ else ⌊x⌋ + 1

theorem floor_le_roundHalfEven (x : K) : ⌊x⌋ ≤ roundHalfEven x := by
  unfold roundHalfEven
  split <;> omega

theorem roundHalfEven_le_floor_add_one (x : K) : roundHalfEven x ≤ ⌊x⌋ + 1 := by
  unfold roundHalfEven
  split <;> omega

@[simp] theorem roundHalfEven_intCast (n : ℤ) : roundHalfEven (n : K) = n := by
  rw [roundHalfEven, Int.floor_intCast, sub_self, if_pos (.inl (by norm_num))]

theorem roundHalfEven_mono {x y : K} (h : x ≤ y) : roundHalfEven x ≤ roundHalfEven y := by
  rcases (Int.floor_le_floor h).lt_or_eq with hlt | heq
  · have hx := roundHalfEven_le_floor_add_one x
    have hy := floor_le_roundHalfEven y
    omega
  · -- in one unit interval, what rounds down is below what rounds up
    have hsub : x - ⌊x⌋ ≤ y - ⌊y⌋ := by rw [heq]; linarith
    unfold roundHalfEven
    rw [← heq] at hsub ⊢
    by_cases hy : y - ⌊x⌋ < 1 / 2 ∨ y - ⌊x⌋ = 1 / 2 ∧ 2 ∣ ⌊x⌋
    · have hx : x - ⌊x⌋ < 1 / 2 ∨ x - ⌊x⌋ = 1 / 2 ∧ 2 ∣ ⌊x⌋ := by
        rcases hy with hlt | ⟨hhalf, heven⟩
        · exact .inl (hsub.trans_lt hlt)
        · exact (hhalf ▸ hsub).lt_or_eq.imp_right fun h ↦ ⟨h, heven⟩
      rw [if_pos hx, if_pos hy]
    · rw [if_neg hy]
      split <;> omega

theorem le_roundHalfEven {n : ℤ} {x : K} (h : (n : K) ≤ x) : n ≤ roundHalfEven x :=
  (roundHalfEven_intCast (K := K) n).symm.le.trans (roundHalfEven_mono h)

theorem roundHalfEven_le {n : ℤ} {x : K} (h : x ≤ n) : roundHalfEven x ≤ n :=
  (roundHalfEven_mono h).trans (roundHalfEven_intCast (K := K) n).le

end

/-! ### Formats -/

structure BinaryFormat where
  /-- The bits of a significand. -/
  precision : ℕ
  minExponent : ℤ
  precision_pos : 0 < precision := by decide

namespace BinaryFormat

variable {K : Type*} [Field K] [LinearOrder K] [IsStrictOrderedRing K] [FloorRing K]
  (F : BinaryFormat) {x y : K}

/-- The numbers of a format. -/
def Has (x : K) : Prop :=
  ∃ m e : ℤ, |m| < 2 ^ F.precision ∧ F.minExponent ≤ e ∧ x = m * 2 ^ e

/-- The exponent of the last bit around `x`. -/
def lastBit (x : K) : ℤ := max (Int.log 2 |x| + 1 - F.precision) F.minExponent

/-- To nearest, ties to even. -/
def round (x : K) : K := roundHalfEven (x / 2 ^ F.lastBit x) * 2 ^ F.lastBit x

theorem abs_lt_two_zpow (x : K) : |x| < 2 ^ (F.lastBit x + F.precision) := by
  refine (Int.lt_zpow_succ_log_self one_lt_two |x|).trans_le ?_
  have hle : Int.log 2 |x| + 1 ≤ F.lastBit x + F.precision := by
    have := le_max_left (Int.log 2 |x| + 1 - F.precision) F.minExponent
    unfold lastBit
    omega
  rw [Nat.cast_ofNat]
  exact zpow_le_zpow_right₀ one_le_two hle

theorem lastBit_mono (hx : 0 < x) (h : x ≤ y) : F.lastBit x ≤ F.lastBit y := by
  have hlog : Int.log 2 |x| ≤ Int.log 2 |y| := by
    rw [abs_of_pos hx, abs_of_pos (hx.trans_le h)]
    exact Int.log_mono_right hx h
  unfold lastBit
  omega

/-- **A number of the format is left alone.** -/
theorem round_eq_self (h : F.Has x) : F.round x = x := by
  obtain ⟨m, e, hm, he, rfl⟩ := h
  have htwo : (2 : K) ≠ 0 := two_ne_zero
  rcases eq_or_ne m 0 with rfl | hm0
  · rw [Int.cast_zero, zero_mul, round, zero_div, ← Int.cast_zero, roundHalfEven_intCast,
      Int.cast_zero, zero_mul]
  have hpos : 0 < |(m : K) * 2 ^ e| := abs_pos.2 (mul_ne_zero (by exact_mod_cast hm0) (zpow_ne_zero _ htwo))
  have hle : F.lastBit ((m : K) * 2 ^ e) ≤ e := by
    have hlt : |(m : K) * 2 ^ e| < 2 ^ (F.precision + e) := by
      rw [abs_mul, abs_of_pos (zpow_pos two_pos e : (0 : K) < 2 ^ e), zpow_add₀ htwo]
      refine mul_lt_mul_of_pos_right ?_ (zpow_pos two_pos e)
      exact_mod_cast hm
    have hlog : Int.log 2 |(m : K) * 2 ^ e| < F.precision + e := by
      refine (Int.lt_zpow_iff_log_lt one_lt_two hpos).1 ?_
      exact_mod_cast hlt
    unfold lastBit
    omega
  -- in units of the last bit it is an integer
  have hint : (m : K) * 2 ^ e / 2 ^ F.lastBit ((m : K) * 2 ^ e) =
      ((m * 2 ^ (e - F.lastBit ((m : K) * 2 ^ e)).toNat : ℤ) : K) := by
    rw [mul_div_assoc, ← zpow_sub₀ htwo]
    push_cast
    rw [← zpow_natCast, Int.toNat_of_nonneg (sub_nonneg.2 hle)]
  rw [round, hint, roundHalfEven_intCast, ← hint, div_mul_cancel₀ _ (zpow_ne_zero _ htwo)]

/-- In units of its last bit a number is rounded to an integer that is at most one bit too long. -/
theorem abs_roundHalfEven_le (x : K) : |roundHalfEven (x / 2 ^ F.lastBit x)| ≤ 2 ^ F.precision := by
  have hpow : (0 : K) < 2 ^ F.lastBit x := zpow_pos two_pos _
  have hunits : |x / 2 ^ F.lastBit x| < ((2 ^ F.precision : ℤ) : K) := by
    have hlt := F.abs_lt_two_zpow x
    rw [zpow_add₀ two_ne_zero, zpow_natCast] at hlt
    rw [abs_div, abs_of_pos hpow, div_lt_iff₀ hpow, mul_comm]
    exact_mod_cast hlt
  have hbounds := abs_le.1 hunits.le
  exact abs_le.2 ⟨le_roundHalfEven (by exact_mod_cast hbounds.1), roundHalfEven_le hbounds.2⟩

/-- **Rounding returns a number of the format.** -/
theorem has_round (x : K) : F.Has (F.round x) := by
  have htwo : (2 : K) ≠ 0 := two_ne_zero
  have hmin : F.minExponent ≤ F.lastBit x := le_max_right _ _
  rcases (F.abs_roundHalfEven_le x).lt_or_eq with hlt | heq
  · exact ⟨_, _, hlt, hmin, rfl⟩
  · -- one bit too long, and all further bits are zero
    have hhalf : (2 : ℤ) ^ F.precision = 2 ^ (F.precision - 1) * 2 := by
      rw [← pow_succ, Nat.sub_add_cancel F.precision_pos]
    have hshort : ((2 : ℤ) ^ (F.precision - 1)) < 2 ^ F.precision :=
      pow_lt_pow_right₀ one_lt_two (Nat.sub_lt F.precision_pos one_pos)
    have habs : |(2 : ℤ) ^ (F.precision - 1)| = 2 ^ (F.precision - 1) := abs_of_pos (by positivity)
    have hshift (m : ℤ) : ((m * 2 : ℤ) : K) * 2 ^ F.lastBit x = m * 2 ^ (F.lastBit x + 1) := by
      rw [zpow_add_one₀ htwo]
      push_cast
      ring
    rcases eq_or_eq_neg_of_abs_eq heq with h | h
    · refine ⟨2 ^ (F.precision - 1), F.lastBit x + 1, by rwa [habs], by omega, ?_⟩
      rw [round, h, hhalf, hshift]
    · refine ⟨-2 ^ (F.precision - 1), F.lastBit x + 1, by rwa [abs_neg, habs], by omega, ?_⟩
      rw [round, h, hhalf, ← neg_mul, hshift]

theorem round_nonneg (h : 0 ≤ x) : 0 ≤ F.round x := by
  have hpow : (0 : K) < 2 ^ F.lastBit x := zpow_pos two_pos _
  have hm : 0 ≤ roundHalfEven (x / 2 ^ F.lastBit x) :=
    le_roundHalfEven (by rw [Int.cast_zero]; exact div_nonneg h hpow.le)
  exact mul_nonneg (by exact_mod_cast hm) hpow.le

/-- A number is not rounded beyond the power of two above it. -/
theorem round_le_two_zpow (x : K) : F.round x ≤ 2 ^ (F.precision + F.lastBit x) := by
  have hpow : (0 : K) < 2 ^ F.lastBit x := zpow_pos two_pos _
  have hle : roundHalfEven (x / 2 ^ F.lastBit x) ≤ 2 ^ F.precision :=
    (le_abs_self _).trans (F.abs_roundHalfEven_le x)
  calc F.round x ≤ ((2 ^ F.precision : ℤ) : K) * 2 ^ F.lastBit x := by
        refine mul_le_mul_of_nonneg_right ?_ hpow.le
        exact_mod_cast hle
    _ = 2 ^ (F.precision + F.lastBit x) := by
        rw [zpow_add₀ two_ne_zero]
        push_cast
        rw [zpow_natCast]

/-- A number whose last bit is not the least one is not rounded below the power of two below it. -/
theorem two_zpow_le_round (hx : 0 < x) (h : F.minExponent < F.lastBit x) :
    2 ^ (F.precision - 1 + F.lastBit x) ≤ F.round x := by
  have hpow : (0 : K) < 2 ^ F.lastBit x := zpow_pos two_pos _
  have hlast : F.precision - 1 + F.lastBit x = Int.log 2 |x| := by
    unfold lastBit at h ⊢
    omega
  have hprecision : (2 : K) ^ ((F.precision : ℤ) - 1) = ((2 ^ (F.precision - 1) : ℤ) : K) := by
    push_cast
    rw [← zpow_natCast, Nat.cast_pred F.precision_pos]
  have hlow : (2 : K) ^ (F.precision - 1 + F.lastBit x) ≤ x := by
    have hlog := Int.zpow_log_le_self one_lt_two (abs_pos.2 hx.ne')
    rw [← hlast, abs_of_pos hx] at hlog
    exact_mod_cast hlog
  rw [zpow_add₀ two_ne_zero, hprecision] at hlow ⊢
  have hle : 2 ^ (F.precision - 1) ≤ roundHalfEven (x / 2 ^ F.lastBit x) :=
    le_roundHalfEven ((le_div_iff₀ hpow).2 hlow)
  refine mul_le_mul_of_nonneg_right ?_ hpow.le
  exact_mod_cast hle

/-- **Rounding is monotone**: where the last bits are the same, as rounding to integers is; otherwise a
power of two lies between. -/
theorem round_mono (hx : 0 ≤ x) (h : x ≤ y) : F.round x ≤ F.round y := by
  rcases hx.eq_or_lt with rfl | hx
  · rw [F.round_eq_self ⟨0, F.minExponent, by simp, le_rfl, by simp⟩]
    exact F.round_nonneg h
  have hpow (e : ℤ) : (0 : K) < 2 ^ e := zpow_pos two_pos e
  rcases (F.lastBit_mono hx h).eq_or_lt with heq | hlt
  · rw [round, round, heq]
    refine mul_le_mul_of_nonneg_right ?_ (hpow _).le
    exact_mod_cast roundHalfEven_mono (div_le_div_of_nonneg_right h (hpow _).le)
  · have hmin : F.minExponent ≤ F.lastBit x := le_max_right _ _
    calc F.round x ≤ 2 ^ (F.precision + F.lastBit x) := F.round_le_two_zpow x
      _ ≤ 2 ^ (F.precision - 1 + F.lastBit y) := zpow_le_zpow_right₀ one_le_two (by omega)
      _ ≤ F.round y := F.two_zpow_le_round (hx.trans_le h) (hmin.trans_lt hlt)

/-- What is not below a number of the format is not rounded below it. -/
theorem le_round (hx : F.Has x) (h0 : 0 ≤ x) (h : x ≤ y) : x ≤ F.round y :=
  (F.round_eq_self hx).ge.trans (F.round_mono h0 h)

/-! ### Quotients below one -/

/-- A multiple of a power of two is one of every lower power. -/
theorem mul_zpow_eq (m : ℤ) {e g : ℤ} (h : g ≤ e) :
    (m : K) * 2 ^ e = ((m * 2 ^ (e - g).toNat : ℤ) : K) * 2 ^ g := by
  push_cast
  rw [← zpow_natCast, Int.toNat_of_nonneg (sub_nonneg.2 h), mul_assoc, ← zpow_add₀ two_ne_zero,
    sub_add_cancel]

/-- In units of the lower last place both are integers. -/
theorem two_zpow_le_sub {k f m e : ℤ} (h : (k : K) * 2 ^ f < m * 2 ^ e) :
    (2 : K) ^ min e f ≤ m * 2 ^ e - k * 2 ^ f := by
  have hpow : (0 : K) < 2 ^ min e f := zpow_pos two_pos _
  rw [mul_zpow_eq k (min_le_right e f), mul_zpow_eq m (min_le_left e f)] at h ⊢
  rw [mul_lt_mul_iff_left₀ hpow, Int.cast_lt, ← Int.add_one_le_iff] at h
  have hone : (((k * 2 ^ (f - min e f).toNat + 1 : ℤ)) : K) ≤
      ((m * 2 ^ (e - min e f).toNat : ℤ) : K) := by exact_mod_cast h
  have hmul := mul_le_mul_of_nonneg_right hone hpow.le
  rw [Int.cast_add, add_mul, Int.cast_one, one_mul] at hmul
  linarith

/-- The next number below is further away than the precision, relative to the greater of the two. -/
theorem le_sub_mul_two_pow (hx : F.Has x) (hy : F.Has y) (h : x < y) :
    y ≤ (y - x) * 2 ^ F.precision := by
  obtain ⟨k, f, hk, -, hxeq⟩ := hx
  obtain ⟨m, e, hm, -, hyeq⟩ := hy
  have hpow (g : ℤ) : (0 : K) < 2 ^ g := zpow_pos two_pos g
  have hunit : (2 : K) ^ min e f ≤ y - x := by
    rw [hxeq, hyeq] at h ⊢
    exact two_zpow_le_sub h
  have hone : (1 : K) ≤ 2 ^ F.precision := one_le_pow₀ one_le_two
  rcases le_or_gt y (2 ^ min e f * 2 ^ F.precision) with hle | hgt
  · exact hle.trans (mul_le_mul_of_nonneg_right hunit (by positivity))
  · -- the greater one is far above the lower last place, so that one is the smaller number's
    have hfe : f < e := by
      by_contra hnot
      rw [min_eq_left (not_lt.1 hnot), hyeq, mul_comm, mul_lt_mul_iff_left₀ (hpow e)] at hgt
      have hm' : (m : K) < 2 ^ F.precision := by exact_mod_cast (le_abs_self m).trans_lt hm
      exact hgt.not_gt hm'
    rw [min_eq_right hfe.le] at hgt
    have hk' : (k : K) ≤ 2 ^ F.precision - 1 := by
      have hle : k ≤ 2 ^ F.precision - 1 := Int.le_sub_one_of_lt ((le_abs_self k).trans_lt hk)
      exact_mod_cast hle
    have hx' : x ≤ (2 ^ F.precision - 1) * 2 ^ f :=
      hxeq ▸ mul_le_mul_of_nonneg_right hk' (hpow f).le
    nlinarith [mul_le_mul_of_nonneg_left hx' (zero_le_one.trans hone),
      mul_le_mul_of_nonneg_left hgt.le (sub_nonneg.2 hone)]

theorem has_one (hmin : F.minExponent ≤ 1 - F.precision) : F.Has (1 : K) := by
  refine ⟨2 ^ (F.precision - 1), 1 - F.precision, ?_, hmin, ?_⟩
  · rw [abs_of_pos (by positivity)]
    exact pow_lt_pow_right₀ one_lt_two (Nat.sub_lt F.precision_pos one_pos)
  · push_cast
    rw [← zpow_natCast, ← zpow_add₀ two_ne_zero, Nat.cast_pred F.precision_pos,
      sub_add_sub_cancel', sub_self, zpow_zero]

/-- The greatest number below one. -/
theorem has_one_sub (hmin : F.minExponent ≤ -F.precision) : F.Has (1 - 1 / 2 ^ F.precision : K) := by
  have hP : (0 : K) < 2 ^ F.precision := by positivity
  refine ⟨2 ^ F.precision - 1, -F.precision, ?_, hmin, ?_⟩
  · have : (1 : ℤ) ≤ 2 ^ F.precision := one_le_pow₀ one_le_two
    rw [abs_of_nonneg (by omega)]
    omega
  · push_cast
    rw [zpow_neg, zpow_natCast, sub_mul, mul_inv_cancel₀ hP.ne', one_mul, one_div]

/-- **The quotient of two numbers of the format is rounded to less than one exactly when it is.** -/
theorem round_div_lt_one_iff (hmin : F.minExponent ≤ -F.precision) (hx : F.Has x) (hy : F.Has y)
    (h0 : 0 ≤ x) (hypos : 0 < y) : F.round (x / y) < 1 ↔ x < y := by
  constructor
  · intro hlt
    by_contra hnot
    have hle : (1 : K) ≤ x / y := (one_le_div hypos).2 (not_lt.1 hnot)
    exact (F.le_round (F.has_one (by omega)) zero_le_one hle).not_gt hlt
  · intro hlt
    have hP : (0 : K) < 2 ^ F.precision := by positivity
    have hle : x / y ≤ 1 - 1 / 2 ^ F.precision := by
      have hsub := F.le_sub_mul_two_pow hx hy hlt
      rw [div_le_iff₀ hypos, sub_mul, one_mul, one_div, inv_mul_eq_div, le_sub_comm,
        div_le_iff₀ hP]
      exact hsub
    have hround := F.round_mono (div_nonneg h0 hypos.le) hle
    rw [F.round_eq_self (F.has_one_sub hmin)] at hround
    exact hround.trans_lt (sub_lt_self _ (by positivity))

end BinaryFormat
