import Mathlib.Algebra.Order.BigOperators.Group.List
import Mathlib.Algebra.Order.Group.Int
import Mathlib.Data.Prod.Lex
import Mathlib.Tactic.Linarith
import TolPlatform.Library.Sorting

/-!
# Apportionment by largest remainder

An amount is divided over claimants in proportion to their weights, in whole units: each gets its quota
rounded down, and what is left over goes one unit each to the claimants with the largest remainders, by a
tie-breaking key among equals.

The shares add up to the amount (`sum_share`). A share is its quota rounded down or up
(`share_eq_or`), a greater weight never gets less (`share_mono`), and the order of the claimants does not
matter (`share_eq_of_perm`).
-/

namespace Apportionment

variable {α κ : Type*} [LinearOrder κ] (amount total : ℤ) (weight : α → ℤ) (tie : α → κ)

/-- The quota, rounded down. -/
def floorShare (a : α) : ℤ := amount * weight a / total

def remainder (a : α) : ℤ := amount * weight a % total

/-- What the rounded quotas leave over. -/
def leftover (l : List α) : ℤ := amount - (l.map (floorShare amount total weight)).sum

/-- Larger remainders first, then by the key. -/
def rank (a : α) : Lex (ℤᵒᵈ × κ) := toLex (.toDual (remainder amount total weight a), tie a)

/-- How many claimants come before one. -/
def place (l : List α) (a : α) : ℕ :=
  l.countP fun b ↦ rank amount total weight tie b < rank amount total weight tie a

def share (l : List α) (a : α) : ℤ :=
  floorShare amount total weight a +
    if (place amount total weight tie l a : ℤ) < leftover amount total weight l then 1 else 0

section

variable {amount total weight tie} {l : List α} {a b : α}

/-- The order of the claimants does not matter. -/
theorem share_eq_of_perm {l' : List α} (h : l.Perm l') (a : α) :
    share amount total weight tie l a = share amount total weight tie l' a := by
  have hplace : place amount total weight tie l a = place amount total weight tie l' a :=
    h.countP_eq _
  have hleftover : leftover amount total weight l = leftover amount total weight l' := by
    rw [leftover, leftover, (h.map _).sum_eq]
  rw [share, share, hplace, hleftover]

/-! ### What is left over -/

theorem sum_floorShare_remainder (l : List α) :
    total * (l.map (floorShare amount total weight)).sum +
      (l.map (remainder amount total weight)).sum = amount * (l.map weight).sum := by
  induction l with
  | nil => simp
  | cons a l ih =>
    have hdiv : total * floorShare amount total weight a + remainder amount total weight a =
        amount * weight a := Int.mul_ediv_add_emod _ _
    simp only [List.map_cons, List.sum_cons, mul_add]
    linarith

/-- The remainders make up whole units. -/
theorem total_mul_leftover (hsum : (l.map weight).sum = total) :
    total * leftover amount total weight l = (l.map (remainder amount total weight)).sum := by
  have h : total * (l.map (floorShare amount total weight)).sum +
      (l.map (remainder amount total weight)).sum = amount * (l.map weight).sum :=
    sum_floorShare_remainder l
  rw [hsum] at h
  rw [leftover, mul_sub]
  linarith

variable (htotal : 0 < total)
include htotal

theorem remainder_nonneg (a : α) : 0 ≤ remainder amount total weight a :=
  Int.emod_nonneg _ htotal.ne'

theorem remainder_lt (a : α) : remainder amount total weight a < total :=
  Int.emod_lt_of_pos _ htotal

theorem leftover_nonneg (hsum : (l.map weight).sum = total) : 0 ≤ leftover amount total weight l := by
  have hremainders : 0 ≤ (l.map (remainder amount total weight)).sum := by
    refine List.sum_nonneg fun r hr ↦ ?_
    obtain ⟨a, -, rfl⟩ := List.mem_map.1 hr
    exact remainder_nonneg htotal a
  rw [← total_mul_leftover hsum] at hremainders
  exact nonneg_of_mul_nonneg_right hremainders htotal

theorem sum_remainder_le (l : List α) : (l.map (remainder amount total weight)).sum ≤
    total * l.countP (fun a ↦ 0 < remainder amount total weight a) := by
  induction l with
  | nil => simp
  | cons a l ih =>
    have hlt : remainder amount total weight a < total := remainder_lt htotal a
    have hnonneg : 0 ≤ remainder amount total weight a := remainder_nonneg htotal a
    rw [List.map_cons, List.sum_cons, List.countP_cons]
    split_ifs with hpos
    · push_cast
      linarith
    · have hzero : remainder amount total weight a = 0 := by
        rw [decide_eq_true_iff] at hpos
        omega
      rw [hzero, zero_add, Nat.add_zero]
      exact ih

/-- **There is a claimant with a remainder for every unit that is left over.** -/
theorem leftover_le (hsum : (l.map weight).sum = total) : leftover amount total weight l ≤
    l.countP (fun a ↦ 0 < remainder amount total weight a) := by
  have h : (l.map (remainder amount total weight)).sum ≤
      total * l.countP (fun a ↦ 0 < remainder amount total weight a) := sum_remainder_le htotal l
  rw [← total_mul_leftover hsum] at h
  exact le_of_mul_le_mul_left h htotal

/-! ### Who gets it -/

/-- Who gets a unit on top has a remainder. -/
theorem remainder_pos_of_place_lt (hsum : (l.map weight).sum = total)
    (hplace : (place amount total weight tie l a : ℤ) < leftover amount total weight l) :
    0 < remainder amount total weight a := by
  by_contra hnot
  -- otherwise everyone with a remainder comes before
  have hbefore : l.countP (fun b ↦ 0 < remainder amount total weight b) ≤
      place amount total weight tie l a := by
    refine List.countP_mono_left fun b _ hb ↦ ?_
    rw [decide_eq_true_iff] at hb ⊢
    exact Prod.Lex.toLex_lt_toLex.2 (.inl (OrderDual.toDual_lt_toDual.2 (by omega)))
  have hle : leftover amount total weight l ≤
      l.countP (fun a ↦ 0 < remainder amount total weight a) := leftover_le htotal hsum
  omega

/-- One unit each goes to as many claimants as there are units left over. -/
theorem countP_place_lt (hsum : (l.map weight).sum = total)
    (hrank : (l.map (rank amount total weight tie)).Nodup) :
    (l.countP fun a ↦ (place amount total weight tie l a : ℤ) < leftover amount total weight l : ℤ) =
      leftover amount total weight l := by
  have hnonneg : 0 ≤ leftover amount total weight l := leftover_nonneg htotal hsum
  have hle : leftover amount total weight l ≤
      l.countP (fun a ↦ 0 < remainder amount total weight a) := leftover_le htotal hsum
  have hcount : l.countP (fun a ↦ 0 < remainder amount total weight a) ≤ l.length :=
    List.countP_le_length
  have hplaces := List.countP_countP_lt (k := (leftover amount total weight l).toNat) hrank (by omega)
  have hsame : (l.countP fun a ↦ (place amount total weight tie l a : ℤ) <
      leftover amount total weight l) = l.countP fun a ↦ l.countP (fun b ↦
        rank amount total weight tie b < rank amount total weight tie a) <
      (leftover amount total weight l).toNat := by
    refine List.countP_congr fun a _ ↦ ?_
    rw [decide_eq_true_iff, decide_eq_true_iff, place]
    omega
  rw [hsame, hplaces, Int.toNat_of_nonneg hnonneg]

/-! ### The shares -/

omit [LinearOrder κ] htotal in
theorem sum_map_ite (p : α → Prop) [DecidablePred p] (l : List α) :
    (l.map fun a ↦ if p a then (1 : ℤ) else 0).sum = l.countP p := by
  induction l with
  | nil => rfl
  | cons a l ih =>
    rw [List.map_cons, List.sum_cons, ih, List.countP_cons]
    by_cases h : p a
    · rw [if_pos h, if_pos (decide_eq_true h)]
      push_cast
      omega
    · rw [if_neg h, if_neg (by simpa using h)]
      push_cast
      omega

/-- **The shares add up to the amount.** -/
theorem sum_share (hsum : (l.map weight).sum = total)
    (hrank : (l.map (rank amount total weight tie)).Nodup) :
    (l.map (share amount total weight tie l)).sum = amount := by
  have hsplit : (l.map (share amount total weight tie l)).sum =
      (l.map (floorShare amount total weight)).sum + (l.map fun a ↦
        if (place amount total weight tie l a : ℤ) < leftover amount total weight l
        then (1 : ℤ) else 0).sum := List.sum_map_add
  rw [hsplit, sum_map_ite, countP_place_lt htotal hsum hrank, leftover]
  omega

/-- **A share is its quota rounded down, or up if there is a remainder.** -/
theorem share_eq_or (hsum : (l.map weight).sum = total) (a : α) :
    share amount total weight tie l a = floorShare amount total weight a ∨
      0 < remainder amount total weight a ∧
        share amount total weight tie l a = floorShare amount total weight a + 1 := by
  unfold share
  split_ifs with hplace
  · exact .inr ⟨remainder_pos_of_place_lt htotal hsum hplace, rfl⟩
  · exact .inl (add_zero _)

/-- **A greater weight never gets less.** -/
theorem share_mono (hamount : 0 ≤ amount) (hsum : (l.map weight).sum = total)
    (h : weight a < weight b) :
    share amount total weight tie l a ≤ share amount total weight tie l b := by
  have ha : total * floorShare amount total weight a + remainder amount total weight a =
      amount * weight a := Int.mul_ediv_add_emod _ _
  have hb : total * floorShare amount total weight b + remainder amount total weight b =
      amount * weight b := Int.mul_ediv_add_emod _ _
  have hfloor : floorShare amount total weight a ≤ floorShare amount total weight b :=
    Int.ediv_le_ediv htotal (mul_le_mul_of_nonneg_left h.le hamount)
  have hshare : floorShare amount total weight b ≤ share amount total weight tie l b := by
    unfold share
    split_ifs <;> omega
  rcases (share_eq_or htotal hsum a : share amount total weight tie l a = _ ∨ _) with
    heq | ⟨hpos, heq⟩
  · rw [heq]
    exact hfloor.trans hshare
  rcases hfloor.lt_or_eq with hlt | hsame
  · rw [heq]
    exact (Int.add_one_le_iff.2 hlt).trans hshare
  · -- in one unit interval the greater weight has the greater remainder
    have hamount' : 0 < amount := by
      refine hamount.lt_of_ne ?_
      rintro rfl
      rw [remainder, zero_mul, Int.zero_emod] at hpos
      exact hpos.false
    have hrem : remainder amount total weight a < remainder amount total weight b := by
      have := mul_lt_mul_of_pos_left h hamount'
      rw [hsame] at ha
      linarith
    have hrank : rank amount total weight tie b < rank amount total weight tie a :=
      Prod.Lex.toLex_lt_toLex.2 (.inl (OrderDual.toDual_lt_toDual.2 hrem))
    have hplace : place amount total weight tie l b ≤ place amount total weight tie l a := by
      refine List.countP_mono_left fun c _ hc ↦ ?_
      rw [decide_eq_true_iff] at hc ⊢
      exact hc.trans hrank
    unfold share at heq ⊢
    split_ifs at heq ⊢ <;> omega

end

end Apportionment
