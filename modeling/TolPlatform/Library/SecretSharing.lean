import Mathlib.LinearAlgebra.Lagrange
import Mathlib.LinearAlgebra.Vandermonde
import Mathlib.LinearAlgebra.Matrix.NonsingularInverse

/-!
# Threshold secret sharing over a field

The share of a secret `s` at the point `x` is the value at `x` of a polynomial with constant
coefficient `s` and `k` further coefficients. Two facts, each about an arbitrary field:

* `reconstruct_eq` — any set of more than `k` distinct points determines the secret, by the
  interpolation weights at zero. The weights are written as the quotients a program computes.
* `existsUnique_coefficients` — `k` distinct nonzero points determine nothing: for *every* secret and
  every vector of `k` observed values there is exactly one choice of coefficients behind it.

The second needs the points to be nonzero and the leading coefficient to be free; it is the
invertibility of the Vandermonde matrix, once a factor `x` is divided out of every row.
-/

open Polynomial

namespace SecretSharing

variable {F : Type*} [Field F] {k : ℕ}

/-- The share of `s` at `x` under the coefficients `a`. -/
def share (s : F) (a : Fin k → F) (x : F) : F := s + ∑ c, a c * x ^ ((c : ℕ) + 1)

/-- The polynomial whose values the shares are. -/
noncomputable def polynomial (s : F) (a : Fin k → F) : F[X] :=
  C s + ∑ c, C (a c) * X ^ ((c : ℕ) + 1)

theorem eval_polynomial (s : F) (a : Fin k → F) (x : F) :
    (polynomial s a).eval x = share s a x := by
  simp [polynomial, share, eval_finsetSum]

theorem degree_polynomial_lt (s : F) (a : Fin k → F) :
    (polynomial s a).degree < ((k + 1 : ℕ) : WithBot ℕ) := by
  have hconst : (C s).degree < ((k + 1 : ℕ) : WithBot ℕ) :=
    degree_C_le.trans_lt (by exact_mod_cast k.succ_pos)
  refine (degree_add_le _ _).trans_lt (max_lt hconst ?_)
  refine (degree_sum_le _ _).trans_lt ((Finset.sup_lt_iff (WithBot.bot_lt_coe _)).2 fun c _ ↦ ?_)
  refine (degree_C_mul_X_pow_le _ _).trans_lt ?_
  have hc : (c : ℕ) + 1 < k + 1 := by omega
  exact_mod_cast hc

@[simp] theorem share_zero (s : F) (a : Fin k → F) : share s a 0 = s := by
  simp [share]

/-! ### Any `k + 1` shares determine the secret -/

variable {ι : Type*} [DecidableEq ι]

/-- The interpolation weight of node `i` at zero. -/
def weight (nodes : Finset ι) (v : ι → F) (i : ι) : F :=
  (∏ j ∈ nodes.erase i, v j) / ∏ j ∈ nodes.erase i, (v j - v i)

theorem eval_basis_zero (nodes : Finset ι) (v : ι → F) (i : ι) :
    (Lagrange.basis nodes v i).eval 0 = weight nodes v i := by
  rw [Lagrange.basis, eval_prod, weight, ← Finset.prod_div_distrib]
  refine Finset.prod_congr rfl fun j _ ↦ ?_
  rw [Lagrange.basisDivisor, eval_mul, eval_C, eval_sub, eval_X, eval_C, zero_sub, mul_neg,
    ← neg_mul, ← inv_neg, neg_sub, div_eq_inv_mul]

/-- **Reconstruction.** More than `k` shares at distinct points give the secret back, whichever
points they are. -/
theorem reconstruct_eq (s : F) (a : Fin k → F) {nodes : Finset ι} {v : ι → F}
    (hv : Set.InjOn v nodes) (hcard : k + 1 ≤ nodes.card) :
    ∑ i ∈ nodes, share s a (v i) * weight nodes v i = s := by
  have hdegree : (polynomial s a).degree < (nodes.card : WithBot ℕ) :=
    (degree_polynomial_lt s a).trans_le (by exact_mod_cast hcard)
  have hpoly := Lagrange.eq_interpolate hv hdegree
  calc ∑ i ∈ nodes, share s a (v i) * weight nodes v i
      = (Lagrange.interpolate nodes v fun i ↦ (polynomial s a).eval (v i)).eval 0 := by
        simp only [Lagrange.interpolate_apply, eval_finsetSum, eval_mul, eval_C, eval_basis_zero,
          eval_polynomial]
    _ = (polynomial s a).eval 0 := by rw [← hpoly]
    _ = s := by rw [eval_polynomial, share_zero]

/-! ### `k` shares determine nothing -/

omit [DecidableEq ι] in
theorem share_eq_iff_mulVec (s : F) (a v y : Fin k → F) (hv : ∀ i, v i ≠ 0) :
    (∀ i, share s a (v i) = y i) ↔
      (Matrix.vandermonde v).mulVec a = fun i ↦ (y i - s) / v i := by
  have hrow : ∀ i, share s a (v i) = s + (Matrix.vandermonde v).mulVec a i * v i := by
    intro i
    rw [share, Matrix.mulVec, dotProduct, Finset.sum_mul]
    refine congrArg (s + ·) (Finset.sum_congr rfl fun c _ ↦ ?_)
    rw [Matrix.vandermonde_apply]
    ring
  refine ⟨fun h ↦ funext fun i ↦ ?_, fun h i ↦ ?_⟩
  · rw [eq_div_iff (hv i), ← h i, hrow i]
    ring
  · rw [hrow i, h, div_mul_cancel₀ _ (hv i)]
    ring

/-- **Secrecy.** Whatever the secret is, every vector of `k` values observed at distinct nonzero
points comes from exactly one choice of the `k` coefficients. -/
theorem existsUnique_coefficients (s : F) {v : Fin k → F} (hinj : Function.Injective v)
    (hv : ∀ i, v i ≠ 0) (y : Fin k → F) : ∃! a : Fin k → F, ∀ i, share s a (v i) = y i := by
  have hdet : IsUnit (Matrix.vandermonde v).det :=
    (Matrix.det_vandermonde_ne_zero_iff.2 hinj).isUnit
  have hunit : IsUnit (Matrix.vandermonde v) := (Matrix.isUnit_iff_isUnit_det _).2 hdet
  have hbij : Function.Bijective (Matrix.vandermonde v).mulVec :=
    ⟨Matrix.mulVec_injective_iff_isUnit.2 hunit, Matrix.mulVec_surjective_iff_isUnit.2 hunit⟩
  simp only [share_eq_iff_mulVec s _ v y hv]
  exact hbij.existsUnique _

end SecretSharing
