import TolPlatform.Shared.Numbers

/-!
# What the language supplies

The roundings and strings of the language, as far as the engines use them. A score is taken as the
rational it stands for, and sums, products and quotients of scores as exact; `Shared.Numbers` has the
numbers that round. `round1` moves a score by at most `1 / 20` (`abs_round1_sub_le`).
-/

namespace TolPlatform

/-! ### Rounding -/

/-- `Math.round`: to the nearest integer, halves up. -/
def mathRound (x : ℚ) : Int := ⌊x + 1 / 2⌋

/-- To one decimal, as the engines round their scores. -/
def round1 (n : ℚ) : ℚ := mathRound (n * 10) / 10

theorem abs_mathRound_sub_le (x : ℚ) : |(mathRound x : ℚ) - x| ≤ 1 / 2 := by
  have hle : (mathRound x : ℚ) ≤ x + 1 / 2 := Int.floor_le _
  have hlt : x + 1 / 2 < mathRound x + 1 := Int.lt_floor_add_one _
  rw [abs_le]
  constructor <;> linarith

theorem abs_round1_sub_le (x : ℚ) : |round1 x - x| ≤ 1 / 20 := by
  have h := abs_le.1 (abs_mathRound_sub_le (x * 10))
  rw [round1, abs_le]
  constructor <;> linarith

theorem round1_mono {x y : ℚ} (h : x ≤ y) : round1 x ≤ round1 y := by
  have hfloor : mathRound (x * 10) ≤ mathRound (y * 10) := Int.floor_mono (by linarith)
  have hcast : (mathRound (x * 10) : ℚ) ≤ mathRound (y * 10) := by exact_mod_cast hfloor
  rw [round1, round1]
  linarith

/-- A number of tenths stays as it is. -/
theorem round1_tenths (n : Int) : round1 (n / 10) = n / 10 := by
  have hround : mathRound n = n := by
    rw [mathRound, Int.floor_eq_iff]
    constructor <;> linarith
  rw [round1, div_mul_cancel₀ _ (by norm_num), hround]

theorem round1_intCast (n : Int) : round1 n = n := by
  have htenths := round1_tenths (n * 10)
  push_cast at htenths
  rwa [mul_div_cancel_right₀ _ (by norm_num)] at htenths

theorem round1_nonneg {x : ℚ} (h : 0 ≤ x) : 0 ≤ round1 x := by
  have hzero : round1 0 = 0 := round1_intCast 0
  exact hzero ▸ round1_mono h

theorem round1_le_hundred {x : ℚ} (h : x ≤ 100) : round1 x ≤ 100 := by
  have hhundred : round1 100 = 100 := round1_intCast 100
  exact hhundred ▸ round1_mono h

/-! ### Texts -/

/-- The text of `n / 10`. -/
def tenthsText (n : Int) : String :=
  let minus := if n < 0 then "-" else ""
  let whole := n.natAbs / 10
  let digit := n.natAbs % 10
  if digit = 0 then s!"{minus}{whole}" else s!"{minus}{whole}.{digit}"

/-- The text of `round1(n)`. -/
def round1Text (n : ℚ) : String := tenthsText (mathRound (n * 10))

/-- `n.toFixed(2)` of a number that is not too large for it. -/
def toFixed2 (n : ℚ) : String :=
  let hundredths := ⌊|n| * 100 + 1 / 2⌋.natAbs
  let minus := if n < 0 then "-" else ""
  let whole := hundredths / 100
  let tens := hundredths / 10 % 10
  let units := hundredths % 10
  s!"{minus}{whole}.{tens}{units}"

/-- `s.length`, in UTF-16 code units. -/
def utf16Length (s : String) : ℕ :=
  (s.toList.map fun c ↦ if c.toNat < 0x10000 then 1 else 2).sum

/-- What `trim()` removes. -/
def isSpace (c : Char) : Bool :=
  c.toNat ∈ [0x9, 0xA, 0xB, 0xC, 0xD, 0x20, 0xA0, 0x1680, 0x2028, 0x2029, 0x202F, 0x205F, 0x3000,
    0xFEFF] ∨ 0x2000 ≤ c.toNat ∧ c.toNat ≤ 0x200A

/-- `s.trim()`. -/
def trim (s : String) : String :=
  String.ofList ((s.toList.dropWhile isSpace).reverse.dropWhile isSpace).reverse

/-- `s.trim().length === 0`. -/
def isBlank (s : String) : Bool := s.toList.all isSpace

/-- `a.join(separator)`. -/
def join (separator : String) (l : List String) : String := separator.intercalate l

example : [toFixed2 (5 / 2), toFixed2 (1 / 3), round1Text (200 / 3), round1Text 100] =
    ["2.50", "0.33", "66.7", "100"] := by decide +kernel

end TolPlatform
