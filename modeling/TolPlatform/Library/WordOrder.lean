import Mathlib

/-!
# The order of words of one length

Words of one length are compared lexicographically like the numbers that they write.

* Words of equal front parts are compared front part first (`lt_append_iff`), so a symbol that both have at
  the same place changes nothing (`lt_append_cons_congr`).
* A code of one length for each letter that keeps the order of the letters keeps the order of words of one
  length (`flatMap_lt_flatMap_iff`).
* The digits of two numbers, most significant first and equally many, are in the order of the numbers
  (`bigEndian_lt_bigEndian_iff`).
-/

namespace List

variable {α β : Type*} [LinearOrder α] [LinearOrder β] {a b x y x' y' : List α}

theorem lt_append_iff (h : a.length = b.length) : a ++ x < b ++ y ↔ a < b ∨ a = b ∧ x < y := by
  induction a generalizing b with
  | nil =>
    obtain rfl := length_eq_zero_iff.1 h.symm
    simp
  | cons c a ih =>
    rcases b with - | ⟨d, b⟩
    · cases h
    · have hcd : a ++ x < b ++ y ↔ a < b ∨ a = b ∧ x < y := ih (Nat.succ.inj h)
      rw [cons_append, cons_append, cons_lt_cons_iff, cons_lt_cons_iff, hcd, cons.injEq]
      tauto

theorem lt_append_cons_congr (h : a.length = b.length) (s : α) (hrest : x < y ↔ x' < y') :
    a ++ s :: x < b ++ s :: y ↔ a ++ x' < b ++ y' := by
  rw [lt_append_iff h, lt_append_iff h, cons_lt_cons_iff, hrest]
  simp

theorem flatMap_lt_flatMap_iff {P : α → Prop} {f : α → List β}
    (hlength : ∀ c d, (f c).length = (f d).length)
    (hf : ∀ c d, P c → P d → (f c < f d ↔ c < d)) (ha : ∀ c ∈ a, P c) (hb : ∀ c ∈ b, P c)
    (h : a.length = b.length) : a.flatMap f < b.flatMap f ↔ a < b := by
  induction a generalizing b with
  | nil =>
    obtain rfl := length_eq_zero_iff.1 h.symm
    simp
  | cons c a ih =>
    rcases b with - | ⟨d, b⟩
    · cases h
    · obtain ⟨hc, ha⟩ := forall_mem_cons.1 ha
      obtain ⟨hd, hb⟩ := forall_mem_cons.1 hb
      have heq : f c = f d ↔ c = d := by
        rw [le_antisymm_iff, le_antisymm_iff, ← not_lt, ← not_lt, ← not_lt, ← not_lt]
        exact and_congr (not_congr (hf d c hd hc)) (not_congr (hf c d hc hd))
      rw [flatMap_cons, flatMap_cons, lt_append_iff (hlength c d), hf c d hc hd, heq,
        ih ha hb (Nat.succ.inj h), cons_lt_cons_iff]

/-- The last `k` digits of a number, the most significant first. -/
def bigEndian (base : ℕ) : ℕ → ℕ → List ℕ
  | 0, _ => []
  | k + 1, n => n / base ^ k % base :: bigEndian base k n

theorem length_bigEndian (base k n : ℕ) : (bigEndian base k n).length = k := by
  induction k with
  | zero => rfl
  | succ k ih => rw [bigEndian, length_cons, ih]

/-- A leading digit counts more than what comes after it. -/
theorem mul_add_lt_mul_add_iff {b p q r s : ℕ} (hr : r < b) (hs : s < b) :
    b * p + r < b * q + s ↔ p < q ∨ p = q ∧ r < s := by
  have hless {p q : ℕ} (hpq : p < q) : b * p + b ≤ b * q := by
    rw [← Nat.mul_succ]
    exact Nat.mul_le_mul_left b hpq
  rcases lt_trichotomy p q with hpq | rfl | hpq
  · have hle := hless hpq
    exact iff_of_true (by omega) (Or.inl hpq)
  · simp
  · have hle := hless hpq
    exact iff_of_false (by omega) (by omega)

theorem bigEndian_lt_bigEndian_iff {base k m n : ℕ} (hbase : 0 < base) :
    bigEndian base k m < bigEndian base k n ↔ m % base ^ k < n % base ^ k := by
  induction k with
  | zero => simp [bigEndian, Nat.mod_one]
  | succ k ih =>
    have hpos : 0 < base ^ k := Nat.pow_pos hbase
    have hsplit (l : ℕ) : l % base ^ (k + 1) = base ^ k * (l / base ^ k % base) + l % base ^ k := by
      rw [Nat.pow_succ, Nat.mod_mul, Nat.add_comm]
    rw [bigEndian, bigEndian, cons_lt_cons_iff, ih, hsplit, hsplit,
      mul_add_lt_mul_add_iff (Nat.mod_lt m hpos) (Nat.mod_lt n hpos)]

theorem bigEndian_inj_iff {base k m n : ℕ} (hbase : 0 < base) :
    bigEndian base k m = bigEndian base k n ↔ m % base ^ k = n % base ^ k := by
  rw [le_antisymm_iff, le_antisymm_iff, ← not_lt, ← not_lt, ← not_lt, ← not_lt]
  exact and_congr (not_congr (bigEndian_lt_bigEndian_iff hbase))
    (not_congr (bigEndian_lt_bigEndian_iff hbase))

end List
