import Mathlib.Algebra.Field.MinimalAxioms
import Mathlib.Data.FinEnum
import Mathlib.Data.Nat.Bitwise
import Mathlib.Dynamics.PeriodicPts.Defs
import Mathlib.NumberTheory.Divisors
import Mathlib.Tactic.Positivity
import Mathlib.Tactic.Ring

/-!
# GF(2^8)

`packages/crypto/src/gf256.ts`: the exponent and logarithm tables of the generator 3, and addition,
multiplication and division on top of them.

The arithmetic is translated on JavaScript numbers (`Num`), where reading a table out of its range
gives `undefined` and not an exception. On bytes it is a field, `Gf256`. The argument is not a
case check over pairs: multiplication by a power of the generator is an iterate of one step of the
table loop (`gfMul_power_left`), a step is linear for XOR (`tableStep_xor`), and the generator is
primitive because 255 is its least period (`minimalPeriod_tableStep`).
-/

namespace TolPlatform.Crypto

/-! ### Numbers and tables -/

/-- A JavaScript number as this arithmetic meets it: an integer, or `none` for `undefined` and
`NaN`. -/
abbrev Num := Option ℤ

/-- A byte read from a buffer. -/
def ofByte (b : UInt8) : Num := some (b.toNat : ℤ)

/-- Storing a number into a `Uint8Array`: its low byte, and 0 for `NaN`. -/
def toByte (a : Num) : UInt8 := UInt8.ofInt (a.getD 0)

/-- `table[i]`. -/
def lookup (table : List UInt8) : Num → Num
  | some (.ofNat i) => (table[i]?).bind ofByte
  | _ => none

/-- The doubling of a byte: XOR with the full 9-bit polynomial `0x11b` exactly on overflow. -/
def xtime (x : ℕ) : ℕ :=
  let shifted := x <<< 1
  if x &&& 0x80 ≠ 0 then (shifted ^^^ 0x11b) &&& 0xff else shifted &&& 0xff

/-- `x = xtime(x) ^ x`: multiplication by the generator 3. -/
def tableStep (x : ℕ) : ℕ := xtime x ^^^ x

structure Tables where
  exp : List UInt8
  log : List UInt8
  /-- The loop variable `x`. -/
  x : ℕ

def Tables.init : Tables := ⟨List.replicate 256 0, List.replicate 256 0, 1⟩

/-- One pass through the loop body at index `i`. -/
def Tables.fill (t : Tables) (i : ℕ) : Tables :=
  ⟨t.exp.set i (UInt8.ofNat t.x), t.log.set t.x (UInt8.ofNat i), tableStep t.x⟩

/-- The loop after `n` passes. -/
def Tables.after (n : ℕ) : Tables := (List.range n).foldl Tables.fill Tables.init

def buildTables : Tables := Tables.after 255

def EXP : List UInt8 := buildTables.exp

def LOG : List UInt8 := buildTables.log

/-- An operand as the `^` operator sees it, a 32-bit integer. -/
def toInt32 (a : Num) : BitVec 32 := BitVec.ofInt 32 (a.getD 0)

def gfAdd (a b : Num) : Num := some (((toInt32 a ^^^ toInt32 b) &&& 0xff#32).toNat : ℤ)

def gfMul (a b : Num) : Num :=
  if a = some 0 ∨ b = some 0 then some 0
  else lookup EXP (do return ((← lookup LOG a) + (← lookup LOG b)).tmod 255)

/-- The `RangeError` of a division by zero. -/
def divisionByZero : String := "gfDiv: division by zero in GF(256)"

def gfDiv (a b : Num) : Except String Num :=
  if b = some 0 then .error divisionByZero
  else if a = some 0 then .ok (some 0)
  else .ok (lookup EXP (do return ((← lookup LOG a) - (← lookup LOG b) + 255).tmod 255))

@[simp] theorem toByte_ofByte (b : UInt8) : toByte (ofByte b) = b := by
  have hmod : ((b.toNat : ℤ) % 2 ^ 8).toNat = b.toNat := by
    have hlt := b.toNat_lt
    omega
  rw [toByte, ofByte, Option.getD_some, UInt8.ofInt, hmod, UInt8.ofNat_toNat]

theorem ofByte_injective : Function.Injective ofByte := fun a b h ↦ by
  rw [← toByte_ofByte a, h, toByte_ofByte]

@[simp] theorem ofByte_zero : ofByte 0 = some 0 := rfl

@[simp] theorem ofByte_one : ofByte 1 = some 1 := rfl

@[simp] theorem ofByte_eq_zero_iff {b : UInt8} : ofByte b = some 0 ↔ b = 0 :=
  ⟨fun h ↦ ofByte_injective (h.trans ofByte_zero.symm), fun h ↦ h ▸ ofByte_zero⟩

/-- On bytes, addition is XOR. -/
theorem gfAdd_ofByte (a b : UInt8) : gfAdd (ofByte a) (ofByte b) = ofByte (a ^^^ b) := by
  have hbits : ∀ b : UInt8, (toInt32 (ofByte b)).toNat = b.toNat := fun b ↦ by
    simp [toInt32, ofByte]
  have hlt : a.toNat ^^^ b.toNat < 2 ^ 8 := Nat.xor_lt_two_pow a.toNat_lt b.toNat_lt
  show some _ = some _
  rw [BitVec.toNat_and, BitVec.toNat_xor, hbits, hbits, UInt8.toNat_xor]
  exact congrArg (fun n : ℕ ↦ some (n : ℤ)) (Nat.and_two_pow_sub_one_of_lt_two_pow hlt)

/-! ### One step of the table loop -/

theorem xtime_eq (x : ℕ) :
    xtime x = ((x <<< 1) ^^^ (if x.testBit 7 then 0x11b else 0)) &&& 0xff := by
  have hbit : x &&& 0x80 = (x.testBit 7).toNat * 2 ^ 7 := Nat.and_two_pow x 7
  unfold xtime
  rw [hbit]
  cases x.testBit 7 <;> simp

/-- A step is linear: `3(x + y) = 3x + 3y`. -/
theorem tableStep_xor (x y : ℕ) : tableStep (x ^^^ y) = tableStep x ^^^ tableStep y := by
  have hxtime : xtime (x ^^^ y) = xtime x ^^^ xtime y := by
    rw [xtime_eq, xtime_eq, xtime_eq, ← Nat.and_xor_distrib_right, Nat.shiftLeft_xor_distrib,
      Nat.testBit_xor]
    refine congrArg (· &&& 0xff) ?_
    cases x.testBit 7 <;> cases y.testBit 7 <;>
      simp [Nat.xor_assoc, Nat.xor_left_comm, Nat.xor_comm]
  rw [tableStep, tableStep, tableStep, hxtime, Nat.xor_assoc, Nat.xor_assoc,
    Nat.xor_left_comm (xtime y) x y]

theorem tableStep_lt {x : ℕ} (h : x < 256) : tableStep x < 256 :=
  (by decide +kernel : ∀ x < 256, tableStep x < 256) x h

theorem tableStep_ne_zero {x : ℕ} (h : x < 256) (hx : x ≠ 0) : tableStep x ≠ 0 :=
  (by decide +kernel : ∀ x < 256, x ≠ 0 → tableStep x ≠ 0) x h hx

theorem iterate_tableStep_xor (k x y : ℕ) :
    tableStep^[k] (x ^^^ y) = tableStep^[k] x ^^^ tableStep^[k] y := by
  induction k generalizing x y with
  | zero => rfl
  | succ k ih => rw [Function.iterate_succ_apply, tableStep_xor, ih]; rfl

@[simp] theorem iterate_tableStep_zero (k : ℕ) : tableStep^[k] 0 = 0 :=
  Function.iterate_fixed rfl k

/-! ### The generator is primitive -/

/-- The `k`-th power of the generator. -/
def power (k : ℕ) : ℕ := tableStep^[k] 1

theorem power_succ (k : ℕ) : power (k + 1) = tableStep (power k) :=
  Function.iterate_succ_apply' tableStep k 1

theorem iterate_tableStep_power (i j : ℕ) : tableStep^[i] (power j) = power (i + j) :=
  (Function.iterate_add_apply tableStep i j 1).symm

theorem power_lt (k : ℕ) : power k < 256 := by
  induction k with
  | zero => decide
  | succ k ih => rw [power_succ]; exact tableStep_lt ih

theorem power_ne_zero (k : ℕ) : power k ≠ 0 := by
  induction k with
  | zero => decide
  | succ k ih => rw [power_succ]; exact tableStep_ne_zero (power_lt k) ih

theorem power_period : power 255 = 1 := by decide +kernel

/-- 255 is the least period: no proper divisor of it (a divisor of 85, 51 or 15) is one. -/
theorem minimalPeriod_tableStep : Function.minimalPeriod tableStep 1 = 255 := by
  have hdvd : Function.minimalPeriod tableStep 1 ∣ 255 :=
    Function.IsPeriodicPt.minimalPeriod_dvd power_period
  have hne : ∀ m, power m ≠ 1 → ¬ Function.minimalPeriod tableStep 1 ∣ m := fun m hm hd ↦
    hm ((Function.isPeriodicPt_iff_minimalPeriod_dvd).2 hd)
  have h85 := hne 85 (by decide +kernel)
  have h51 := hne 51 (by decide +kernel)
  have h15 := hne 15 (by decide +kernel)
  have hmem : Function.minimalPeriod tableStep 1 ∈ Nat.divisors 255 :=
    Nat.mem_divisors.2 ⟨hdvd, by decide⟩
  rw [show Nat.divisors 255 = {1, 3, 5, 15, 17, 51, 85, 255} from by decide +kernel] at hmem
  simp only [Finset.mem_insert, Finset.mem_singleton] at hmem
  rcases hmem with h | h | h | h | h | h | h | h <;> rw [h] at h85 h51 h15 <;>
    first | exact h | omega

theorem power_injOn : Set.InjOn power (Set.Iio 255) := by
  rw [← minimalPeriod_tableStep]
  exact Function.iterate_injOn_Iio_minimalPeriod

theorem power_mod (k : ℕ) : power (k % 255) = power k := by
  rw [← minimalPeriod_tableStep]
  exact Function.iterate_mod_minimalPeriod_eq

/-- Every nonzero byte is a power of the generator. -/
theorem exists_power_eq {x : ℕ} (hlt : x < 256) (hx : x ≠ 0) : ∃ k < 255, power k = x := by
  have hsub : (Finset.range 255).image power ⊆ Finset.Ico 1 256 := by
    intro y hy
    obtain ⟨k, -, rfl⟩ := Finset.mem_image.1 hy
    have hne := power_ne_zero k
    have hlt := power_lt k
    rw [Finset.mem_Ico]
    omega
  have hcard : ((Finset.range 255).image power).card = 255 := by
    rw [Finset.card_image_of_injOn, Finset.card_range]
    rw [Finset.coe_range]
    exact power_injOn
  have hall := Finset.eq_of_subset_of_card_le hsub (by rw [hcard, Nat.card_Ico])
  have hmem : x ∈ (Finset.range 255).image power := by
    rw [hall, Finset.mem_Ico]
    omega
  obtain ⟨k, hk, rfl⟩ := Finset.mem_image.1 hmem
  exact ⟨k, Finset.mem_range.1 hk, rfl⟩

/-! ### What the tables hold -/

/-- The tables after `n` passes: `EXP` holds the powers below `n` and `LOG` inverts it there. -/
structure Tables.Filled (n : ℕ) (t : Tables) : Prop where
  x_eq : t.x = power n
  exp_length : t.exp.length = 256
  log_length : t.log.length = 256
  exp_eq : ∀ k < n, t.exp[k]? = some (UInt8.ofNat (power k))
  log_eq : ∀ k < n, t.log[power k]? = some (UInt8.ofNat k)

theorem Tables.Filled.fill {n : ℕ} {t : Tables} (h : t.Filled n) (hn : n < 255) :
    (t.fill n).Filled (n + 1) where
  x_eq := by rw [power_succ, ← h.x_eq]; rfl
  exp_length := by simp [Tables.fill, h.exp_length]
  log_length := by simp [Tables.fill, h.log_length]
  exp_eq := by
    intro k hk
    have hlen := h.exp_length
    rw [Tables.fill, List.getElem?_set]
    by_cases hkn : n = k
    · rw [if_pos hkn, if_pos (by omega), h.x_eq, hkn]
    · rw [if_neg hkn]
      exact h.exp_eq k (by omega)
  log_eq := by
    intro k hk
    have hlen := h.log_length
    have hpow := power_lt n
    rw [Tables.fill, List.getElem?_set, h.x_eq]
    by_cases hkn : n = k
    · rw [if_pos (by rw [hkn]), if_pos (by omega), hkn]
    · -- a later pass never overwrites an entry, the powers being distinct
      rw [if_neg fun hp ↦ hkn (power_injOn (Set.mem_Iio.2 hn) (Set.mem_Iio.2 (by omega)) hp)]
      exact h.log_eq k (by omega)

theorem Tables.filled_after {n : ℕ} (hn : n ≤ 255) : (Tables.after n).Filled n := by
  induction n with
  | zero => exact ⟨rfl, List.length_replicate, List.length_replicate, by simp, by simp⟩
  | succ n ih =>
    rw [Tables.after, List.range_succ, List.foldl_append]
    exact (ih (by omega)).fill (by omega)

theorem lookup_EXP (k : ℕ) (hk : k < 255) :
    lookup EXP (some (k : ℤ)) = some (power k : ℤ) := by
  have hlt := power_lt k
  have h := (Tables.filled_after le_rfl).exp_eq k hk
  show (EXP[k]?).bind ofByte = _
  rw [EXP, buildTables, h, Option.bind_some, ofByte, UInt8.toNat_ofNat', Nat.mod_eq_of_lt hlt]

theorem lookup_LOG_power (k : ℕ) (hk : k < 255) :
    lookup LOG (some (power k : ℤ)) = some (k : ℤ) := by
  have h := (Tables.filled_after le_rfl).log_eq k hk
  show (LOG[power k]?).bind ofByte = _
  rw [LOG, buildTables, h, Option.bind_some, ofByte, UInt8.toNat_ofNat',
    Nat.mod_eq_of_lt (by omega)]

/-! ### Multiplication and division of powers -/

theorem some_power_ne_zero (k : ℕ) : (some (power k : ℤ) : Num) ≠ some 0 := fun h ↦
  power_ne_zero k (by exact_mod_cast Option.some.inj h)

theorem gfMul_power (i j : ℕ) (hi : i < 255) (hj : j < 255) :
    gfMul (some (power i : ℤ)) (some (power j : ℤ)) = some (power (i + j) : ℤ) := by
  have hmod : ((i : ℤ) + j).tmod 255 = (((i + j) % 255 : ℕ) : ℤ) := by
    rw [Int.tmod_eq_emod_of_nonneg (by positivity)]
    norm_cast
  rw [gfMul, if_neg (by simp only [some_power_ne_zero, or_self, not_false_eq_true]),
    lookup_LOG_power i hi, lookup_LOG_power j hj]
  show lookup EXP (some (((i : ℤ) + j).tmod 255)) = _
  rw [hmod, lookup_EXP _ (Nat.mod_lt _ (by decide)), power_mod]

theorem gfDiv_power (i j : ℕ) (hi : i < 255) (hj : j < 255) :
    gfDiv (some (power i : ℤ)) (some (power j : ℤ)) =
      .ok (some (power (i + (255 - j)) : ℤ)) := by
  have hmod : ((i : ℤ) - j + 255).tmod 255 = (((i + (255 - j)) % 255 : ℕ) : ℤ) := by
    rw [Int.tmod_eq_emod_of_nonneg (by omega)]
    push_cast [Nat.cast_sub hj.le]
    congr 1
    ring
  rw [gfDiv, if_neg (some_power_ne_zero j), if_neg (some_power_ne_zero i), lookup_LOG_power i hi,
    lookup_LOG_power j hj]
  show Except.ok (lookup EXP (some (((i : ℤ) - j + 255).tmod 255))) = _
  rw [hmod, lookup_EXP _ (Nat.mod_lt _ (by decide)), power_mod]

/-! ### The field of bytes -/

/-- A byte, read as a field element. -/
@[ext] structure Gf256 where
  byte : UInt8
  deriving DecidableEq

namespace Gf256

/-- The number the code holds for a field element. -/
def num (a : Gf256) : Num := ofByte a.byte

instance : Zero Gf256 := ⟨⟨0⟩⟩
instance : One Gf256 := ⟨⟨1⟩⟩
instance : Add Gf256 := ⟨fun a b ↦ ⟨a.byte ^^^ b.byte⟩⟩
instance : Neg Gf256 := ⟨id⟩
instance : Mul Gf256 := ⟨fun a b ↦ ⟨toByte (gfMul a.num b.num)⟩⟩

/-- The quotient `1 / a` of the code, and 0 where it throws. -/
instance : Inv Gf256 := ⟨fun a ↦ ⟨((gfDiv (some 1) a.num).map toByte).toOption.getD 0⟩⟩

@[simp] theorem byte_zero : (0 : Gf256).byte = 0 := rfl

@[simp] theorem byte_add (a b : Gf256) : (a + b).byte = a.byte ^^^ b.byte := rfl

theorem byte_mul (a b : Gf256) : (a * b).byte = toByte (gfMul a.num b.num) := rfl

@[simp] theorem num_zero : (0 : Gf256).num = some 0 := rfl

@[simp] theorem num_one : (1 : Gf256).num = some 1 := rfl

/-- The powers of the generator as field elements. -/
def pow (k : ℕ) : Gf256 := ⟨UInt8.ofNat (power k)⟩

theorem toNat_pow (k : ℕ) : (pow k).byte.toNat = power k := by
  rw [pow, UInt8.toNat_ofNat', Nat.mod_eq_of_lt (power_lt k)]

theorem num_pow (k : ℕ) : (pow k).num = some (power k : ℤ) := by
  rw [num, ofByte, toNat_pow]

theorem pow_mod (k : ℕ) : pow (k % 255) = pow k := by rw [pow, power_mod, pow]

theorem eq_zero_or_pow (a : Gf256) : a = 0 ∨ ∃ k < 255, a = pow k := by
  by_cases ha : a.byte.toNat = 0
  · exact Or.inl (Gf256.ext (UInt8.toNat_inj.1 ha))
  · obtain ⟨k, hk, hpow⟩ := exists_power_eq a.byte.toNat_lt ha
    exact Or.inr ⟨k, hk, Gf256.ext (UInt8.toNat_inj.1 (by rw [toNat_pow, hpow]))⟩

theorem zero_mul' (a : Gf256) : 0 * a = 0 := by
  refine Gf256.ext ?_
  rw [byte_mul, gfMul, if_pos (Or.inl num_zero)]
  rfl

theorem mul_zero' (a : Gf256) : a * 0 = 0 := by
  refine Gf256.ext ?_
  rw [byte_mul, gfMul, if_pos (Or.inr num_zero)]
  rfl

theorem pow_mul_pow (i j : ℕ) : pow i * pow j = pow (i + j) := by
  have hlt : ∀ k, k % 255 < 255 := fun k ↦ Nat.mod_lt k (by decide)
  have hsum : pow (i + j) = pow (i % 255 + j % 255) := by
    rw [← pow_mod (i + j), Nat.add_mod, pow_mod]
  rw [hsum, ← pow_mod i, ← pow_mod j]
  refine Gf256.ext ?_
  rw [byte_mul, num_pow, num_pow, gfMul_power _ _ (hlt i) (hlt j), ← num_pow]
  exact toByte_ofByte _

/-- Multiplying by a power of the generator iterates the step of the table loop. -/
theorem toNat_pow_mul (i : ℕ) (a : Gf256) :
    (pow i * a).byte.toNat = tableStep^[i] a.byte.toNat := by
  rcases eq_zero_or_pow a with rfl | ⟨j, -, rfl⟩
  · rw [mul_zero']
    exact (iterate_tableStep_zero i).symm
  · rw [pow_mul_pow, toNat_pow, toNat_pow, iterate_tableStep_power]

theorem mul_add' (a b c : Gf256) : a * (b + c) = a * b + a * c := by
  rcases eq_zero_or_pow a with rfl | ⟨i, -, rfl⟩
  · rw [zero_mul', zero_mul', zero_mul']
    rfl
  · refine Gf256.ext (UInt8.toNat_inj.1 ?_)
    rw [byte_add, UInt8.toNat_xor, toNat_pow_mul, toNat_pow_mul, toNat_pow_mul, byte_add,
      UInt8.toNat_xor, iterate_tableStep_xor]

theorem mul_comm' (a b : Gf256) : a * b = b * a := by
  rcases eq_zero_or_pow a with rfl | ⟨i, -, rfl⟩
  · rw [zero_mul', mul_zero']
  · rcases eq_zero_or_pow b with rfl | ⟨j, -, rfl⟩
    · rw [zero_mul', mul_zero']
    · rw [pow_mul_pow, pow_mul_pow, Nat.add_comm]

theorem mul_assoc' (a b c : Gf256) : a * b * c = a * (b * c) := by
  rcases eq_zero_or_pow a with rfl | ⟨i, -, rfl⟩
  · rw [zero_mul', zero_mul', zero_mul']
  · rcases eq_zero_or_pow b with rfl | ⟨j, -, rfl⟩
    · rw [mul_zero', zero_mul', mul_zero']
    · rcases eq_zero_or_pow c with rfl | ⟨k, -, rfl⟩
      · rw [mul_zero', mul_zero', mul_zero']
      · rw [pow_mul_pow, pow_mul_pow, pow_mul_pow, pow_mul_pow, Nat.add_assoc]

theorem one_eq_pow : (1 : Gf256) = pow 0 := rfl

theorem one_mul' (a : Gf256) : 1 * a = a := by
  rcases eq_zero_or_pow a with rfl | ⟨k, -, rfl⟩
  · rw [mul_zero']
  · rw [one_eq_pow, pow_mul_pow, Nat.zero_add]

theorem inv_pow (k : ℕ) (hk : k < 255) : (pow k)⁻¹ = pow (255 - k) := by
  have hdiv : gfDiv (some 1) (pow k).num = .ok (pow (255 - k)).num := by
    have hone : (some 1 : Num) = some (power 0 : ℤ) := rfl
    rw [hone, num_pow, gfDiv_power 0 k (by decide) hk, Nat.zero_add, num_pow]
  refine Gf256.ext ?_
  show ((gfDiv (some 1) (pow k).num).map toByte).toOption.getD 0 = _
  rw [hdiv]
  exact toByte_ofByte _

theorem mul_inv_cancel' (a : Gf256) (ha : a ≠ 0) : a * a⁻¹ = 1 := by
  obtain ⟨k, hk, rfl⟩ := (eq_zero_or_pow a).resolve_left ha
  rw [inv_pow k hk, pow_mul_pow, Nat.add_sub_cancel' hk.le, ← pow_mod, one_eq_pow]

instance : Field Gf256 :=
  Field.ofMinimalAxioms Gf256 (fun _ _ _ ↦ Gf256.ext (UInt8.xor_assoc _ _ _))
    (fun _ ↦ Gf256.ext UInt8.zero_xor) (fun _ ↦ Gf256.ext UInt8.xor_self) mul_assoc' mul_comm'
    one_mul' mul_inv_cancel' rfl mul_add' ⟨0, 1, by decide⟩

/-! ### The code's operations on bytes are the field's -/

theorem gfAdd_num (a b : Gf256) : gfAdd a.num b.num = (a + b).num := gfAdd_ofByte a.byte b.byte

/-- Subtraction is addition, as in any field of characteristic two. -/
theorem add_eq_sub (a b : Gf256) : a + b = a - b := (sub_eq_add_neg a b).symm

theorem gfMul_num (a b : Gf256) : gfMul a.num b.num = (a * b).num := by
  rcases eq_zero_or_pow a with rfl | ⟨i, hi, rfl⟩
  · rw [zero_mul, gfMul, if_pos (Or.inl num_zero), num_zero]
  · rcases eq_zero_or_pow b with rfl | ⟨j, hj, rfl⟩
    · rw [mul_zero, gfMul, if_pos (Or.inr num_zero), num_zero]
    · rw [num_pow, num_pow, gfMul_power i j hi hj, pow_mul_pow, num_pow]

theorem gfDiv_num (a : Gf256) {b : Gf256} (hb : b ≠ 0) :
    gfDiv a.num b.num = .ok (a / b).num := by
  obtain ⟨j, hj, rfl⟩ := (eq_zero_or_pow b).resolve_left hb
  rcases eq_zero_or_pow a with rfl | ⟨i, hi, rfl⟩
  · rw [zero_div, num_zero, num_pow, gfDiv, if_neg (some_power_ne_zero j), if_pos rfl]
  · rw [num_pow, num_pow, gfDiv_power i j hi hj, div_eq_mul_inv, inv_pow j hj, pow_mul_pow,
      num_pow]

end Gf256

end TolPlatform.Crypto
