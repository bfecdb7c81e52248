import TolPlatform.Crypto.Shamir
import TolPlatform.Library.Traced

/-!
# What `combineShares` rejects

The documented rejections of `combineShares` (`packages/crypto/src/shamir.ts`) and the arithmetic
behind them, step by step.

The loops of `combineShares` are written a second time with every field operation and every table
read logged (`Instrumented`); erasing the log gives them back (`Instrumented.result_combineShares`).
On share lists that are not malformed every logged step is clean, because the numbers met are
field elements and the denominators are nonzero (`WellFormed.logged_clean`).

The index check asks for 0 and for more than 255 and lets negative indexes pass, so the documented
rejection holds exactly where no index is negative or something else is wrong with the shares
(`combineShares_rejectsCleanly_iff`).
-/

namespace TolPlatform.Crypto

/-! ### The arithmetic with its steps logged -/

/-- A step of the field arithmetic: an operation with its operands, or the read of a table. -/
inductive Step
  | add (a b : Num)
  | mul (a b : Num)
  | div (a b : Num)
  | lookup (table : List UInt8) (index : Num)

/-- A number that is a byte. -/
def IsByte (a : Num) : Prop := ∃ b : UInt8, a = ofByte b

/-- Operands are bytes, divisors are nonzero, and tables are read where they have an entry. -/
def Step.Clean : Step → Prop
  | .add a b => IsByte a ∧ IsByte b
  | .mul a b => IsByte a ∧ IsByte b
  | .div a b => IsByte a ∧ IsByte b ∧ b ≠ some 0
  | .lookup table index => ∃ i : ℕ, index = some (i : ℤ) ∧ i < table.length

/-- The code, logging its steps. -/
abbrev Logged (α : Type) : Type := Traced Step ShamirError α

namespace Instrumented

open Traced

def lookup (table : List UInt8) (index : Num) : Logged Num := do
  emit (.lookup table index)
  return Crypto.lookup table index

def gfAdd (a b : Num) : Logged Num := do
  emit (.add a b)
  return Crypto.gfAdd a b

def gfMul (a b : Num) : Logged Num := do
  emit (.mul a b)
  if a = some 0 ∨ b = some 0 then return some 0
  else
    let la ← lookup LOG a
    let lb ← lookup LOG b
    lookup EXP (do return ((← la) + (← lb)).tmod 255)

def gfDiv (a b : Num) : Logged Num := do
  emit (.div a b)
  if b = some 0 then silent (.error (.rangeError divisionByZero))
  else if a = some 0 then return some 0
  else
    let la ← lookup LOG a
    let lb ← lookup LOG b
    lookup EXP (do return ((← la) - (← lb) + 255).tmod 255)

/-- One pass of the loop over `j`. -/
def lagrangeStep (shares : List ShamirShare) (i : Fin shares.length) (acc : Num × Num)
    (j : Fin shares.length) : Logged (Num × Num) :=
  if j = i then return acc
  else do
    let num ← gfMul acc.1 (some (shares.get j).index)
    let difference ← gfAdd (some (shares.get j).index) (some (shares.get i).index)
    let den ← gfMul acc.2 difference
    return (num, den)

def lagrangeLoop (shares : List ShamirShare) (i : Fin shares.length) : Logged (Num × Num) :=
  (List.finRange shares.length).foldlM (lagrangeStep shares i) (some 1, some 1)

def lagrangeAtZero (shares : List ShamirShare) (i : Fin shares.length) : Logged Num := do
  let acc ← lagrangeLoop shares i
  gfDiv acc.1 acc.2

def combineByte (shares : List ShamirShare) (byteIdx : ℕ) : Logged Num :=
  (List.finRange shares.length).foldlM (fun acc i ↦ do
    let li0 ← lagrangeAtZero shares i
    let term ← gfMul (((shares.get i).ys[byteIdx]?).bind ofByte) li0
    gfAdd acc term) (some 0)

def combineShares (shares : List ShamirShare) : Logged (List UInt8) :=
  if shares.length < 2 then
    silent (.error (.insufficientShares s!"combineShares: need at least 2 shares, got {shares.length}"))
  else do
    silent (shares.forM (checkShare (secretLengthOf shares)))
    silent (checkDistinct shares)
    (List.range (secretLengthOf shares)).mapM fun byteIdx ↦ toByte <$> combineByte shares byteIdx

/-! ### Erasing the log -/

theorem result_gfMul (a b : Num) : (gfMul a b).result = .ok (Crypto.gfMul a b) := by
  rw [gfMul, Crypto.gfMul, result_bind, result_emit]
  split_ifs <;> rfl

theorem result_gfDiv (a b : Num) : (gfDiv a b).result = (Crypto.gfDiv a b).mapError .rangeError := by
  rw [gfDiv, Crypto.gfDiv, result_bind, result_emit]
  split_ifs <;> rfl

theorem result_lagrangeLoop (shares : List ShamirShare) (i : Fin shares.length) :
    (lagrangeLoop shares i).result = .ok (Crypto.lagrangeLoop shares i) := by
  rw [lagrangeLoop, Crypto.lagrangeLoop]
  refine (result_foldlM (g := fun acc j ↦ .ok (if j = i then acc
    else (Crypto.gfMul acc.1 (some (shares.get j).index), Crypto.gfMul acc.2
      (Crypto.gfAdd (some (shares.get j).index) (some (shares.get i).index))))) ?_ _ _).trans
    List.foldlM_pure
  intro acc j
  rw [lagrangeStep]
  split_ifs
  · rfl
  · simp only [result_bind, result_gfMul]
    rfl

theorem result_lagrangeAtZero (shares : List ShamirShare) (i : Fin shares.length) :
    (lagrangeAtZero shares i).result = Crypto.lagrangeAtZero shares i := by
  rw [lagrangeAtZero, result_bind, result_lagrangeLoop]
  exact result_gfDiv _ _

theorem result_combineByte (shares : List ShamirShare) (byteIdx : ℕ) :
    (combineByte shares byteIdx).result = Crypto.combineByte shares byteIdx := by
  refine result_foldlM (fun acc i ↦ ?_) _ _
  simp only [result_bind, result_lagrangeAtZero, result_gfMul]
  rfl

/-- **Erasure**: the instrumented code returns and throws what the code does. -/
theorem result_combineShares (shares : List ShamirShare) :
    (combineShares shares).result = Crypto.combineShares shares := by
  have hbytes := result_mapM (fun byteIdx ↦ (result_map toByte (combineByte shares byteIdx)).trans
    (congrArg _ (result_combineByte shares byteIdx))) (List.range (secretLengthOf shares))
  rw [combineShares, Crypto.combineShares]
  split_ifs
  · rfl
  · simp only [result_bind, result_silent, hbytes]

/-! ### Steps on field elements -/

theorem isByte_num (a : Gf256) : IsByte a.num := ⟨a.byte, rfl⟩

theorem num_ne_zero {a : Gf256} (ha : a ≠ 0) : a.num ≠ some 0 := fun h ↦
  ha (Gf256.ext (ofByte_eq_zero_iff.1 h))

/-- A read that finds an entry is within the table. -/
theorem ensures_lookup {table : List UInt8} {index : Num} {v : ℤ}
    (h : Crypto.lookup table index = some v) :
    Ensures Step.Clean (lookup table index) (· = some v) := by
  have hclean : (Step.lookup table index).Clean := by
    rcases index with _ | ⟨i⟩ | i
    · cases h
    · obtain ⟨b, hb, -⟩ := Option.bind_eq_some_iff.1 h
      exact ⟨i, rfl, (List.getElem?_eq_some_iff.1 hb).1⟩
    · cases h
  exact (Ensures.emit hclean).bind fun _ _ ↦ Ensures.pure h

/-- The reads behind a product or a quotient of powers of the generator. -/
theorem ensures_reads {i j k : ℕ} (hi : i < 255) (hj : j < 255) (hk : k < 255)
    {f : Num → Num → Num} (hf : f (some (i : ℤ)) (some (j : ℤ)) = some (k : ℤ)) :
    Ensures Step.Clean (do
      let la ← lookup LOG (some (power i : ℤ))
      let lb ← lookup LOG (some (power j : ℤ))
      lookup EXP (f la lb)) fun _ ↦ True := by
  refine (ensures_lookup (lookup_LOG_power i hi)).bind fun la hla ↦ ?_
  refine (ensures_lookup (lookup_LOG_power j hj)).bind fun lb hlb ↦ ?_
  rw [hla, hlb, hf]
  exact (ensures_lookup (lookup_EXP k hk)).with_result rfl trivial

theorem ensures_gfAdd (a b : Gf256) :
    Ensures Step.Clean (gfAdd a.num b.num) (· = (a + b).num) := by
  have hclean : (Step.add a.num b.num).Clean := ⟨isByte_num a, isByte_num b⟩
  exact (Ensures.emit hclean).bind fun _ _ ↦ Ensures.pure (Gf256.gfAdd_num a b)

theorem ensures_gfMul (a b : Gf256) :
    Ensures Step.Clean (gfMul a.num b.num) (· = (a * b).num) := by
  have hclean : (Step.mul a.num b.num).Clean := ⟨isByte_num a, isByte_num b⟩
  have hsteps : Ensures Step.Clean (gfMul a.num b.num) fun _ ↦ True := by
    refine (Ensures.emit hclean).bind fun _ _ ↦ ?_
    split_ifs with h0
    · exact Ensures.pure trivial
    · rw [not_or] at h0
      obtain ⟨i, hi, rfl⟩ := a.eq_zero_or_pow.resolve_left fun h ↦ h0.1 (h ▸ Gf256.num_zero)
      obtain ⟨j, hj, rfl⟩ := b.eq_zero_or_pow.resolve_left fun h ↦ h0.2 (h ▸ Gf256.num_zero)
      rw [Gf256.num_pow, Gf256.num_pow]
      refine ensures_reads hi hj (Nat.mod_lt (i + j) (by decide : 0 < 255))
        (f := fun la lb ↦ do return ((← la) + (← lb)).tmod 255) ?_
      show some (((i : ℤ) + j).tmod 255) = _
      rw [Int.tmod_eq_emod_of_nonneg (by positivity)]
      norm_cast
  exact hsteps.with_result (result_gfMul _ _) (Gf256.gfMul_num a b)

theorem ensures_gfDiv (a : Gf256) {b : Gf256} (hb : b ≠ 0) :
    Ensures Step.Clean (gfDiv a.num b.num) (· = (a / b).num) := by
  have hclean : (Step.div a.num b.num).Clean := ⟨isByte_num a, isByte_num b, num_ne_zero hb⟩
  have hsteps : Ensures Step.Clean (gfDiv a.num b.num) fun _ ↦ True := by
    refine (Ensures.emit hclean).bind fun _ _ ↦ ?_
    rw [if_neg (num_ne_zero hb)]
    split_ifs with h0
    · exact Ensures.pure trivial
    · obtain ⟨i, hi, rfl⟩ := a.eq_zero_or_pow.resolve_left fun h ↦ h0 (h ▸ Gf256.num_zero)
      obtain ⟨j, hj, rfl⟩ := b.eq_zero_or_pow.resolve_left hb
      rw [Gf256.num_pow, Gf256.num_pow]
      refine ensures_reads hi hj (Nat.mod_lt (i + (255 - j)) (by decide : 0 < 255))
        (f := fun la lb ↦ do return ((← la) - (← lb) + 255).tmod 255) ?_
      show some (((i : ℤ) - j + 255).tmod 255) = _
      rw [Int.tmod_eq_emod_of_nonneg (by omega)]
      refine congrArg some ?_
      omega
  have hresult := result_gfDiv a.num b.num
  rw [Gf256.gfDiv_num a hb] at hresult
  exact hsteps.with_result hresult rfl

/-! ### Shares that are not malformed -/

section

variable {secretLength : ℕ} {shares : List ShamirShare} (h : WellFormed secretLength shares)
include h

/-- The numerator and the denominator stay field elements, the denominator a nonzero one. -/
theorem ensures_lagrangeLoop (i : Fin shares.length) :
    Ensures Step.Clean (lagrangeLoop shares i) fun acc ↦
      ∃ num den : Gf256, den ≠ 0 ∧ acc = (num.num, den.num) := by
  refine Ensures.foldlM (fun acc j _ hacc ↦ ?_) ⟨1, 1, one_ne_zero, rfl⟩
  obtain ⟨num, den, hden, rfl⟩ := hacc
  rw [lagrangeStep]
  split_ifs with hji
  · exact Ensures.pure ⟨num, den, hden, rfl⟩
  · -- distinct indexes: no factor of the denominator is zero
    have hdifference : node shares j + node shares i ≠ 0 := by
      rw [Gf256.add_eq_sub]
      exact sub_ne_zero.2 (h.node_injective.ne hji)
    rw [← h.num_node, ← h.num_node]
    refine (ensures_gfMul _ _).bind fun num' hnum' ↦ ?_
    refine (ensures_gfAdd _ _).bind fun difference hdifference' ↦ ?_
    rw [hdifference']
    refine (ensures_gfMul _ _).bind fun den' hden' ↦ Ensures.pure ?_
    exact ⟨_, _, mul_ne_zero hden hdifference, by rw [hnum', hden']⟩

theorem ensures_lagrangeAtZero (i : Fin shares.length) :
    Ensures Step.Clean (lagrangeAtZero shares i) fun li0 ↦ ∃ a : Gf256, li0 = a.num := by
  refine (ensures_lagrangeLoop h i).bind fun acc hacc ↦ ?_
  obtain ⟨num, den, hden, rfl⟩ := hacc
  exact (ensures_gfDiv num hden).with_result
    (by rw [result_gfDiv, Gf256.gfDiv_num num hden]; rfl) ⟨num / den, rfl⟩

theorem ensures_combineByte {byteIdx : ℕ} (hlt : byteIdx < secretLength) :
    Ensures Step.Clean (combineByte shares byteIdx) fun acc ↦ ∃ a : Gf256, acc = a.num := by
  refine Ensures.foldlM (fun acc i _ hacc ↦ ?_) ⟨0, rfl⟩
  obtain ⟨a, rfl⟩ := hacc
  refine (ensures_lagrangeAtZero h i).bind fun li0 hli0 ↦ ?_
  obtain ⟨l, rfl⟩ := hli0
  rw [h.bind_ofByte_eq hlt]
  refine (ensures_gfMul _ _).bind fun term hterm ↦ ?_
  rw [hterm]
  exact (ensures_gfAdd _ _).with_result rfl ⟨_, Gf256.gfAdd_num _ _⟩

/-- On well-formed shares every step is clean. -/
theorem ensures_combineShares :
    Ensures Step.Clean (combineShares shares) fun _ ↦ True := by
  rw [combineShares, if_neg (not_lt.2 h.two_le), h.secretLengthOf_eq]
  -- the two loops of checks pass, and only then is anything looked up
  refine (Ensures.silent (Q := fun _ ↦ True) h.forM_checkShare trivial).bind fun _ _ ↦ ?_
  refine (Ensures.silent (Q := fun _ ↦ True) h.checkDistinct_eq trivial).bind fun _ _ ↦ ?_
  refine Ensures.mapM fun byteIdx hmem ↦ Ensures.map ?_
  exact (ensures_combineByte h (List.mem_range.1 hmem)).mono fun _ _ ↦ trivial

end

end Instrumented

/-! ### The documented rejections -/

/-- Shares `combineShares` is to reject. -/
def Malformed (shares : List ShamirShare) : Prop :=
  shares.length < 2 ∨ (∃ s ∈ shares, ∃ t ∈ shares, s.ys.length ≠ t.ys.length) ∨
    (∃ s ∈ shares, ¬ (1 ≤ s.index ∧ s.index ≤ 255)) ∨ ¬ (shares.map fun s ↦ s.index).Nodup

/-- Shares with something wrong other than a negative index. -/
def MalformedOtherwise (shares : List ShamirShare) : Prop :=
  shares.length < 2 ∨ (∃ s ∈ shares, ∃ t ∈ shares, s.ys.length ≠ t.ys.length) ∨
    (∃ s ∈ shares, s.index = 0 ∨ 255 < s.index) ∨ ¬ (shares.map fun s ↦ s.index).Nodup

/-- Malformed shares, and they alone, are thrown out with an `InsufficientSharesError`; any others
give a byte string of their length, by clean steps. -/
structure RejectsCleanly (shares : List ShamirShare) : Prop where
  throws_iff : (∃ message, combineShares shares = .error (.insufficientShares message)) ↔
    Malformed shares
  returns : ¬ Malformed shares →
    ∃ secret, combineShares shares = .ok secret ∧ ∀ s ∈ shares, secret.length = s.ys.length
  clean : ¬ Malformed shares → ∀ step ∈ (Instrumented.combineShares shares).log, step.Clean

theorem Malformed.otherwise {shares : List ShamirShare} (h : Malformed shares)
    (hneg : ∀ s ∈ shares, 0 ≤ s.index) : MalformedOtherwise shares := by
  rcases h with h | h | ⟨s, hs, hindex⟩ | h
  · exact Or.inl h
  · exact Or.inr (Or.inl h)
  · have hs0 := hneg s hs
    exact Or.inr (Or.inr (Or.inl ⟨s, hs, by omega⟩))
  · exact Or.inr (Or.inr (Or.inr h))

theorem MalformedOtherwise.malformed {shares : List ShamirShare} (h : MalformedOtherwise shares) :
    Malformed shares := by
  rcases h with h | h | ⟨s, hs, hindex⟩ | h
  · exact Or.inl h
  · exact Or.inr (Or.inl h)
  · exact Or.inr (Or.inr (Or.inl ⟨s, hs, by omega⟩))
  · exact Or.inr (Or.inr (Or.inr h))

theorem mem_length_eq_secretLengthOf {shares : List ShamirShare}
    (h : ∀ s ∈ shares, ∀ t ∈ shares, s.ys.length = t.ys.length) :
    ∀ s ∈ shares, s.ys.length = secretLengthOf shares := by
  intro s hs
  cases shares with
  | nil => exact absurd hs List.not_mem_nil
  | cons t rest => exact h s hs t List.mem_cons_self

theorem wellFormed_of_not_malformed {shares : List ShamirShare} (h : ¬ Malformed shares) :
    WellFormed (secretLengthOf shares) shares := by
  simp only [Malformed, not_or, not_lt, not_exists, not_and_or, not_not] at h
  obtain ⟨h2, hlength, hindex, hnodup⟩ := h
  have hrange : ∀ s ∈ shares, 1 ≤ s.index ∧ s.index ≤ 255 := fun s hs ↦
    (hindex s).resolve_left (not_not.2 hs)
  refine ⟨h2, mem_length_eq_secretLengthOf fun s hs t ht ↦ ?_, fun s hs ↦ (hrange s hs).1,
    fun s hs ↦ (hrange s hs).2, hnodup⟩
  exact ((hlength s).resolve_left (not_not.2 hs) t).resolve_left (not_not.2 ht)

/-! ### What the code rejects -/

theorem checkShare_eq_ok_iff {secretLength : ℕ} {s : ShamirShare} :
    checkShare secretLength s = .ok () ↔
      s.ys.length = secretLength ∧ ¬ (s.index = 0 ∨ 255 < s.index) := by
  rw [checkShare]
  split_ifs with hlen hindex
  · exact iff_of_false (by simp) fun h ↦ hlen h.1
  · exact iff_of_false (by simp) fun h ↦ h.2 hindex
  · exact iff_of_true rfl ⟨not_not.1 hlen, hindex⟩

theorem checkDistinct_eq_ok_iff {shares : List ShamirShare} :
    checkDistinct shares = .ok () ↔ (shares.map fun s ↦ s.index).Nodup := by
  rw [checkDistinct]
  split_ifs with hnodup
  · exact iff_of_true rfl hnodup
  · exact iff_of_false (by simp) hnodup

/-- The checks pass exactly when nothing but negative indexes is wrong. -/
theorem checks_eq_ok_iff {shares : List ShamirShare} (h2 : 2 ≤ shares.length) :
    (shares.forM (checkShare (secretLengthOf shares)) = .ok () ∧ checkDistinct shares = .ok ()) ↔
      ¬ MalformedOtherwise shares := by
  rw [Except.forM_eq_ok, checkDistinct_eq_ok_iff]
  constructor
  · rintro ⟨hcheck, hnodup⟩ (h | ⟨s, hs, t, ht, hne⟩ | ⟨s, hs, hindex⟩ | h)
    · omega
    · have hlen := fun s hs ↦ (checkShare_eq_ok_iff.1 (hcheck s hs)).1
      exact hne ((hlen s hs).trans (hlen t ht).symm)
    · exact (checkShare_eq_ok_iff.1 (hcheck s hs)).2 hindex
    · exact h hnodup
  · intro h
    refine ⟨fun s hs ↦ checkShare_eq_ok_iff.2 ⟨?_, fun hindex ↦ ?_⟩, by_contra fun hnodup ↦ ?_⟩
    · refine mem_length_eq_secretLengthOf (fun s hs t ht ↦ by_contra fun hne ↦ ?_) s hs
      exact h (Or.inr (Or.inl ⟨s, hs, t, ht, hne⟩))
    · exact h (Or.inr (Or.inr (Or.inl ⟨s, hs, hindex⟩)))
    · exact h (Or.inr (Or.inr (Or.inr hnodup)))

def IsInsufficientShares (e : ShamirError) : Prop := ∃ message, e = .insufficientShares message

def IsRangeError (e : ShamirError) : Prop := ∃ message, e = .rangeError message

theorem throwsIn_checkShare (secretLength : ℕ) (s : ShamirShare) :
    (checkShare secretLength s).ThrowsIn IsInsufficientShares := by
  intro e he
  rw [checkShare] at he
  split_ifs at he
  · exact ⟨_, (Except.error.inj he).symm⟩
  · exact ⟨_, (Except.error.inj he).symm⟩

theorem throwsIn_checkDistinct (shares : List ShamirShare) :
    (checkDistinct shares).ThrowsIn IsInsufficientShares := by
  intro e he
  rw [checkDistinct] at he
  split_ifs at he
  exact ⟨_, (Except.error.inj he).symm⟩

/-- Past the checks only a division can throw. -/
theorem throwsIn_combineByte (shares : List ShamirShare) (byteIdx : ℕ) :
    (combineByte shares byteIdx).ThrowsIn IsRangeError := by
  refine Except.throwsIn_foldlM (fun acc i ↦ Except.ThrowsIn.bind (fun e he ↦ ?_)
    fun li0 ↦ Except.throwsIn_ok _) _ _
  rw [lagrangeAtZero] at he
  rcases hdiv : gfDiv (lagrangeLoop shares i).1 (lagrangeLoop shares i).2 with message | a
  · rw [hdiv] at he
    exact ⟨message, (Except.error.inj he).symm⟩
  · rw [hdiv] at he
    cases he

/-- **The rejections of the code.** -/
theorem combineShares_insufficientShares_iff (shares : List ShamirShare) :
    (∃ message, combineShares shares = .error (.insufficientShares message)) ↔
      MalformedOtherwise shares := by
  rcases lt_or_ge shares.length 2 with h2 | h2
  · exact iff_of_true ⟨_, if_pos h2⟩ (Or.inl h2)
  have hchecks := checks_eq_ok_iff h2
  rw [combineShares, if_neg (not_lt.2 h2)]
  rcases hforM : shares.forM (checkShare (secretLengthOf shares)) with e | _
  · obtain ⟨message, rfl⟩ := Except.throwsIn_forM (throwsIn_checkShare _) shares e hforM
    refine iff_of_true ⟨message, rfl⟩ (by_contra fun h ↦ ?_)
    rw [(hchecks.2 h).1] at hforM
    cases hforM
  rcases hdistinct : checkDistinct shares with e | _
  · obtain ⟨message, rfl⟩ := throwsIn_checkDistinct shares e hdistinct
    refine iff_of_true ⟨message, rfl⟩ (by_contra fun h ↦ ?_)
    rw [(hchecks.2 h).2] at hdistinct
    cases hdistinct
  · refine iff_of_false (fun h ↦ ?_) (hchecks.1 ⟨hforM, hdistinct⟩)
    obtain ⟨message, hmessage⟩ := h
    have hbytes : (((List.range (secretLengthOf shares)).mapM fun byteIdx ↦
        toByte <$> combineByte shares byteIdx)).ThrowsIn IsRangeError :=
      Except.throwsIn_mapM (fun byteIdx ↦ (throwsIn_combineByte shares byteIdx).map toByte) _
    obtain ⟨_, hrange⟩ := hbytes _ hmessage
    cases hrange

/-- **`combineShares` rejects malformed shares cleanly exactly where no index is negative or
something else is wrong with the shares as well.** -/
theorem combineShares_rejectsCleanly_iff (shares : List ShamirShare) :
    RejectsCleanly shares ↔ (∀ s ∈ shares, 0 ≤ s.index) ∨ MalformedOtherwise shares := by
  constructor
  · intro h
    by_contra hcon
    obtain ⟨hneg, hother⟩ := not_or.1 hcon
    obtain ⟨s, hs⟩ := not_forall.1 hneg
    obtain ⟨hs, hindex⟩ := Classical.not_imp.1 hs
    have hmalformed : Malformed shares := Or.inr (Or.inr (Or.inl ⟨s, hs, by omega⟩))
    exact hother ((combineShares_insufficientShares_iff shares).1 (h.throws_iff.2 hmalformed))
  · intro h
    have hiff : MalformedOtherwise shares ↔ Malformed shares :=
      ⟨MalformedOtherwise.malformed, fun hm ↦ h.elim hm.otherwise id⟩
    refine ⟨(combineShares_insufficientShares_iff shares).trans hiff, fun hgood ↦ ?_, fun hgood ↦ ?_⟩
    · have hwf := wellFormed_of_not_malformed hgood
      refine ⟨_, hwf.combineShares_eq, fun s hs ↦ ?_⟩
      rw [List.length_map, List.length_range, hwf.length_eq s hs]
    · exact (Instrumented.ensures_combineShares (wellFormed_of_not_malformed hgood)).logged

/-- The indexes -1 and 1 pass the checks and combine to a byte string, and with the indexes
-1 and 255 the code divides by zero. -/
theorem combineShares_negative_index :
    ¬ RejectsCleanly [⟨-1, [7]⟩, ⟨1, [9]⟩] ∧ ¬ RejectsCleanly [⟨-1, [7]⟩, ⟨255, [9]⟩] ∧
      combineShares [⟨-1, [7]⟩, ⟨1, [9]⟩] = .ok [220] ∧
      combineShares [⟨-1, [7]⟩, ⟨255, [9]⟩] = .error (.rangeError divisionByZero) := by
  have hbyte : combineShares [⟨-1, [7]⟩, ⟨1, [9]⟩] = .ok [220] := by decide +kernel
  have hdivision :
      combineShares [⟨-1, [7]⟩, ⟨255, [9]⟩] = .error (.rangeError divisionByZero) := by
    decide +kernel
  have hmalformed : ∀ t, Malformed [⟨-1, [7]⟩, t] := fun t ↦
    Or.inr (Or.inr (Or.inl ⟨⟨-1, [7]⟩, List.mem_cons_self, by decide⟩))
  refine ⟨fun h ↦ ?_, fun h ↦ ?_, hbyte, hdivision⟩
  · obtain ⟨message, hthrow⟩ := h.throws_iff.2 (hmalformed _)
    rw [hbyte] at hthrow
    cases hthrow
  · obtain ⟨message, hthrow⟩ := h.throws_iff.2 (hmalformed _)
    rw [hdivision] at hthrow
    cases hthrow

end TolPlatform.Crypto
