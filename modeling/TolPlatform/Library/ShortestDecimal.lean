import Mathlib.Data.Rat.Floor
import Mathlib.Tactic.FieldSimp
import TolPlatform.Library.FloatingPoint

/-!
# The shortest decimal of a number

A positive number of a binary format, written with as few decimal digits as bring it back when they are
rounded (`round_shortest`). With `k` digits only the two decimals next to the number come into question;
the search ends because a last place at or below the format's own makes the lower one exact.
-/

/-- `digits * 10 ^ exponent`. -/
structure Decimal where
  digits : ℕ
  exponent : ℤ
  deriving DecidableEq, Repr

namespace Decimal

def value (d : Decimal) : ℚ := d.digits * 10 ^ d.exponent

/-! ### The decimals next to a number -/

/-- The exponent of the last of `k` digits of `x`. -/
def lastPlace (x : ℚ) (k : ℕ) : ℤ := Int.log 10 x + 1 - k

/-- The last decimal of `k` digits that is not above `x`. -/
def below (x : ℚ) (k : ℕ) : Decimal where
  digits := ⌊x / 10 ^ lastPlace x k⌋.toNat
  exponent := lastPlace x k

/-- The first one above, where a carry into a new digit moves the exponent. -/
def above (x : ℚ) (k : ℕ) : Decimal :=
  if (below x k).digits + 1 = 10 ^ k then ⟨10 ^ (k - 1), lastPlace x k + 1⟩
  else ⟨(below x k).digits + 1, lastPlace x k⟩

theorem lastPlace_add (x : ℚ) (k fuel : ℕ) : lastPlace x (k + fuel) = lastPlace x k - fuel := by
  unfold lastPlace
  push_cast
  omega

section

variable (F : BinaryFormat) {x : ℚ}

/-- In units of the format's last place, a number of the format is an integer. -/
theorem exists_int_of_has (hmin : F.minExponent ≤ 0) (h : F.Has x) {p : ℤ}
    (hp : p ≤ F.minExponent) : ∃ n : ℤ, x / 10 ^ p = n := by
  obtain ⟨m, e, -, he, rfl⟩ := h
  refine ⟨m * 2 ^ (e - p).toNat * 5 ^ (-p).toNat, ?_⟩
  push_cast
  rw [← zpow_natCast, ← zpow_natCast, Int.toNat_of_nonneg (by omega), Int.toNat_of_nonneg (by omega),
    show (10 : ℚ) = 2 * 5 by norm_num, mul_zpow, zpow_sub₀ (by norm_num), zpow_neg]
  field_simp

theorem value_below_of_has (hmin : F.minExponent ≤ 0) (h : F.Has x) (hpos : 0 < x) {k : ℕ}
    (hk : lastPlace x k ≤ F.minExponent) : (below x k).value = x := by
  obtain ⟨n, hn⟩ := exists_int_of_has F hmin h hk
  have hten : (0 : ℚ) < 10 ^ lastPlace x k := zpow_pos (by norm_num) _
  have hnonneg : (0 : ℚ) ≤ n := hn ▸ (div_pos hpos hten).le
  have hdigits : (((below x k).digits : ℤ) : ℚ) = n := by
    show ((⌊x / 10 ^ lastPlace x k⌋.toNat : ℤ) : ℚ) = n
    rw [hn, Int.floor_intCast, Int.toNat_of_nonneg (by exact_mod_cast hnonneg)]
  rw [value, show (((below x k).digits : ℕ) : ℚ) = n by exact_mod_cast hdigits, ← hn]
  exact div_mul_cancel₀ _ hten.ne'

/-! ### The search -/

/-- Whether `d` is nearer to `x` than `d'`, or as near and `d'` is odd. -/
def isNearer (d d' : Decimal) (x : ℚ) : Bool :=
  |d.value - x| < |d'.value - x| ∨ |d.value - x| = |d'.value - x| ∧ ¬ 2 ∣ d'.digits

/-- The decimal of `k` digits that stands for `x`, if one does: the nearer one, the even one on a tie. -/
def candidate (x : ℚ) (k : ℕ) : Option Decimal :=
  if F.round (below x k).value = x then
    if F.round (above x k).value = x ∧ isNearer (above x k) (below x k) x then some (above x k)
    else some (below x k)
  else if F.round (above x k).value = x then some (above x k)
  else none

/-- The first of the candidates from `k` digits on. -/
def shortestFrom (x : ℚ) : ℕ → ℕ → Decimal
  | 0, k => below x k
  | fuel + 1, k => (candidate F x k).getD (shortestFrom x fuel (k + 1))

/-- The shortest decimal that stands for a positive `x`. -/
def shortest (x : ℚ) : Decimal := shortestFrom F x (lastPlace x 1 - F.minExponent).toNat 1

theorem round_candidate {k : ℕ} {d : Decimal} (h : candidate F x k = some d) :
    F.round d.value = x := by
  unfold candidate at h
  split_ifs at h with hbelow hboth habove
  · exact Option.some.inj h ▸ hboth.1
  · exact Option.some.inj h ▸ hbelow
  · exact Option.some.inj h ▸ habove

/-- Whatever the search returns stands for `x`, if its last round is exact. -/
theorem round_shortestFrom (hmin : F.minExponent ≤ 0) (h : F.Has x) (hpos : 0 < x) (fuel k : ℕ)
    (hfuel : lastPlace x (k + fuel) ≤ F.minExponent) :
    F.round (shortestFrom F x fuel k).value = x := by
  induction fuel generalizing k with
  | zero =>
    show F.round (below x k).value = x
    rw [value_below_of_has F hmin h hpos (k := k) hfuel, F.round_eq_self h]
  | succ fuel ih =>
    show F.round ((candidate F x k).getD _).value = x
    rcases hd : candidate F x k with - | d
    · exact ih (k + 1) (by rwa [Nat.add_right_comm])
    · exact round_candidate F hd

/-- **The shortest decimal of a number stands for it.** -/
theorem round_shortest (hmin : F.minExponent ≤ 0) (h : F.Has x) (hpos : 0 < x) :
    F.round (shortest F x).value = x := by
  refine round_shortestFrom F hmin h hpos _ 1 ?_
  rw [lastPlace_add]
  omega

end

end Decimal
