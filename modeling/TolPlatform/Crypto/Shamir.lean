import TolPlatform.Crypto.Gf256
import TolPlatform.Library.SecretSharing
import TolPlatform.Library.Transaction

/-!
# Shamir secret sharing of byte strings

`packages/crypto/src/shamir.ts`. `splitSecret` deals `n` shares of a byte string, each byte under
its own random coefficients, and `combineShares` interpolates any shares at zero.

Read over the field `Gf256`, the loop of one byte is `SecretSharing.share` (`evaluate_eq`) and the
two nested loops of `combineShares` are the weighted sum of `SecretSharing.reconstruct_eq`
(`combineShares_eq`), so both directions of the scheme are the library's two facts.
-/

namespace TolPlatform.Crypto

@[ext] structure ShamirShare where
  /-- The x-coordinate. -/
  index : ℤ
  /-- The y-values, one per secret byte. -/
  ys : List UInt8
  deriving DecidableEq, Repr

/-- What the two functions throw. -/
inductive ShamirError
  | rangeError (message : String)
  | insufficientShares (message : String)
  deriving DecidableEq, Repr

/-! ### Splitting -/

/-- The random coefficients of one split: `randomBytes(threshold - 1)` for each secret byte. -/
abbrev Draws (secretLength threshold : ℕ) : Type :=
  Fin secretLength → Fin (threshold - 1) → UInt8

/-- The loop over the coefficients of one byte at one share: `y` and `xPow`. -/
def evaluateLoop (secretByte : UInt8) {k : ℕ} (coeffs : Fin k → UInt8) (index : Num) : Num × Num :=
  (List.finRange k).foldl (fun acc c ↦
    let xPow := gfMul acc.2 index
    (gfAdd acc.1 (gfMul (ofByte (coeffs c)) xPow), xPow)) (ofByte secretByte, some 1)

/-- The number stored as one byte of one share. -/
def evaluate (secretByte : UInt8) {k : ℕ} (coeffs : Fin k → UInt8) (index : ℤ) : Num :=
  (evaluateLoop secretByte coeffs (some index)).1

def dealShare (secret : List UInt8) {threshold : ℕ} (draws : Draws secret.length threshold)
    (shareIdx : ℕ) : ShamirShare where
  index := shareIdx
  ys := List.ofFn fun byteIdx ↦ toByte (evaluate (secret.get byteIdx) (draws byteIdx) shareIdx)

def splitSecret (secret : List UInt8) (threshold n : ℕ) (draws : Draws secret.length threshold) :
    Except ShamirError (List ShamirShare) :=
  if threshold < 2 then
    .error (.rangeError s!"splitSecret: threshold must be >= 2 (got {threshold}) — threshold 1 provides no secret-sharing security property")
  else if n < threshold then
    .error (.rangeError s!"splitSecret: n ({n}) must be >= threshold ({threshold})")
  else if n > 255 then
    .error (.rangeError s!"splitSecret: n must be <= 255 (share x-coordinates are single nonzero bytes), got {n}")
  else if secret.length = 0 then
    .error (.rangeError "splitSecret: secret must be non-empty")
  else .ok ((List.range' 1 n).map (dealShare secret draws))

/-! ### Combining -/

/-- The numerator and denominator of `L_i(0)`, over all positions `j` but `i`. -/
def lagrangeLoop (shares : List ShamirShare) (i : Fin shares.length) : Num × Num :=
  (List.finRange shares.length).foldl (fun acc j ↦
    if j = i then acc
    else (gfMul acc.1 (some (shares.get j).index),
      gfMul acc.2 (gfAdd (some (shares.get j).index) (some (shares.get i).index))))
    (some 1, some 1)

/-- `L_i(0)`. -/
def lagrangeAtZero (shares : List ShamirShare) (i : Fin shares.length) :
    Except ShamirError Num :=
  (gfDiv (lagrangeLoop shares i).1 (lagrangeLoop shares i).2).mapError .rangeError

/-- `acc` after the loop over the shares, for one byte of the secret. -/
def combineByte (shares : List ShamirShare) (byteIdx : ℕ) : Except ShamirError Num :=
  (List.finRange shares.length).foldlM (fun acc i ↦ do
    let li0 ← lagrangeAtZero shares i
    return gfAdd acc (gfMul (((shares.get i).ys[byteIdx]?).bind ofByte) li0)) (some 0)

/-- The checks on one share. -/
def checkShare (secretLength : ℕ) (s : ShamirShare) : Except ShamirError Unit :=
  if s.ys.length ≠ secretLength then
    .error (.insufficientShares "combineShares: all shares must encode the same secret length")
  else if s.index = 0 ∨ s.index > 255 then
    .error (.insufficientShares s!"combineShares: share index out of range (1..255): {s.index}")
  else .ok ()

/-- `secretLength`: the length of the first share. -/
def secretLengthOf (shares : List ShamirShare) : ℕ := (shares.map fun s ↦ s.ys.length).headD 0

def checkDistinct (shares : List ShamirShare) : Except ShamirError Unit :=
  if (shares.map fun s ↦ s.index).Nodup then .ok ()
  else .error (.insufficientShares "combineShares: duplicate share index — cannot interpolate (division by zero)")

def combineShares (shares : List ShamirShare) : Except ShamirError (List UInt8) :=
  if shares.length < 2 then
    .error (.insufficientShares s!"combineShares: need at least 2 shares, got {shares.length}")
  else do
    shares.forM (checkShare (secretLengthOf shares))
    checkDistinct shares
    (List.range (secretLengthOf shares)).mapM fun byteIdx ↦ toByte <$> combineByte shares byteIdx

/-! ### One byte of one share -/

open SecretSharing

/-- The x-coordinate of a share as a field element. -/
def point (index : ℤ) : Gf256 := ⟨UInt8.ofInt index⟩

theorem num_point {index : ℤ} (h0 : 0 ≤ index) (h255 : index ≤ 255) :
    (point index).num = some index := by
  have hmod : (index % 2 ^ 8).toNat = index.toNat := by omega
  have hnat : index.toNat % 2 ^ 8 = index.toNat := by omega
  rw [point, Gf256.num, ofByte, UInt8.ofInt, hmod, UInt8.toNat_ofNat', hnat,
    Int.toNat_of_nonneg h0]

theorem point_ne_zero {index : ℤ} (h0 : 0 < index) (h255 : index ≤ 255) : point index ≠ 0 := by
  intro h
  have hnum := num_point h0.le h255
  rw [h, Gf256.num_zero, Option.some.injEq] at hnum
  omega

theorem point_inj {i j : ℤ} (hi : 0 ≤ i ∧ i ≤ 255) (hj : 0 ≤ j ∧ j ≤ 255)
    (h : point i = point j) : i = j :=
  Option.some.inj ((num_point hi.1 hi.2).symm.trans (h ▸ num_point hj.1 hj.2))

theorem evaluateLoop_eq (secretByte : UInt8) {k : ℕ} (coeffs : Fin k → UInt8) (x : Gf256) :
    evaluateLoop secretByte coeffs x.num =
      ((share ⟨secretByte⟩ (fun c ↦ ⟨coeffs c⟩) x : Gf256).num, (x ^ k).num) := by
  induction k with
  | zero =>
    rw [share, Finset.univ_eq_empty, Finset.sum_empty, add_zero, pow_zero]
    rfl
  | succ k ih =>
    have hbyte : ofByte (coeffs (Fin.last k)) = (⟨coeffs (Fin.last k)⟩ : Gf256).num := rfl
    have hinit := ih fun c ↦ coeffs c.castSucc
    rw [evaluateLoop] at hinit ⊢
    rw [List.finRange_succ_last, List.foldl_append, List.foldl_map, hinit]
    show (gfAdd _ (gfMul _ (gfMul _ _)), gfMul _ _) = _
    rw [hbyte, Gf256.gfMul_num, Gf256.gfMul_num, Gf256.gfAdd_num, ← pow_succ, share, share,
      Fin.sum_univ_castSucc, add_assoc]
    rfl

/-- On indexes a share can have, the loop of one byte is the generic scheme's share. -/
theorem evaluate_eq (secretByte : UInt8) {k : ℕ} (coeffs : Fin k → UInt8) {index : ℤ}
    (h0 : 0 ≤ index) (h255 : index ≤ 255) :
    toByte (evaluate secretByte coeffs index) =
      (share ⟨secretByte⟩ (fun c ↦ ⟨coeffs c⟩) (point index) : Gf256).byte := by
  rw [evaluate, ← num_point h0 h255, evaluateLoop_eq]
  exact toByte_ofByte _

/-! ### The interpolation loops -/

/-- Shares `combineShares` accepts. -/
structure WellFormed (secretLength : ℕ) (shares : List ShamirShare) : Prop where
  two_le : 2 ≤ shares.length
  length_eq : ∀ s ∈ shares, s.ys.length = secretLength
  index_pos : ∀ s ∈ shares, 0 < s.index
  index_le : ∀ s ∈ shares, s.index ≤ 255
  nodup : (shares.map fun s ↦ s.index).Nodup

/-- The points of the shares, by position. -/
def node (shares : List ShamirShare) (i : Fin shares.length) : Gf256 :=
  point (shares.get i).index

/-- The values of the shares at one byte. -/
def value (shares : List ShamirShare) (byteIdx : ℕ) (i : Fin shares.length) : Gf256 :=
  ⟨(shares.get i).ys[byteIdx]?.getD 0⟩

theorem WellFormed.num_node {secretLength : ℕ} {shares : List ShamirShare}
    (h : WellFormed secretLength shares) (i : Fin shares.length) :
    (node shares i).num = some (shares.get i).index :=
  num_point (h.index_pos _ (shares.get_mem i)).le (h.index_le _ (shares.get_mem i))

theorem WellFormed.node_injective {secretLength : ℕ} {shares : List ShamirShare}
    (h : WellFormed secretLength shares) : Function.Injective (node shares) := by
  intro i j hij
  have hindex : (shares.get i).index = (shares.get j).index :=
    Option.some.inj ((h.num_node i).symm.trans (hij ▸ h.num_node j))
  have hshare : shares.get i = shares.get j :=
    List.inj_on_of_nodup_map h.nodup (shares.get_mem i) (shares.get_mem j) hindex
  exact List.nodup_iff_injective_get.1 h.nodup.of_map hshare

theorem foldl_lagrange {m : ℕ} (v : Fin m → Gf256) (i : Fin m) (l : List (Fin m))
    (a b : Gf256) :
    l.foldl (fun acc j ↦ if j = i then acc
        else (gfMul acc.1 (v j).num, gfMul acc.2 (gfAdd (v j).num (v i).num))) (a.num, b.num) =
      ((a * (l.map fun j ↦ if j = i then 1 else v j).prod).num,
        (b * (l.map fun j ↦ if j = i then 1 else v j - v i).prod).num) := by
  induction l generalizing a b with
  | nil => simp
  | cons j l ih =>
    rw [List.foldl_cons, List.map_cons, List.map_cons, List.prod_cons, List.prod_cons]
    by_cases hj : j = i
    · rw [if_pos hj, if_pos hj, if_pos hj, one_mul, one_mul]
      exact ih a b
    · rw [if_neg hj, if_neg hj, if_neg hj, Gf256.gfMul_num, Gf256.gfAdd_num, Gf256.gfMul_num, ih,
        mul_assoc, mul_assoc, Gf256.add_eq_sub]

theorem prod_finRange_eq {m : ℕ} (f : Fin m → Gf256) (i : Fin m) :
    ((List.finRange m).map fun j ↦ if j = i then 1 else f j).prod =
      ∏ j ∈ Finset.univ.erase i, f j := by
  have hi : (if i = i then 1 else f i) = 1 := if_pos rfl
  rw [← Fin.prod_univ_def, ← Finset.prod_erase (f := fun j ↦ if j = i then 1 else f j) _ hi]
  exact Finset.prod_congr rfl fun j hj ↦ if_neg (Finset.ne_of_mem_erase hj)

/-- `L_i(0)` is the interpolation weight, and computing it never divides by zero. -/
theorem WellFormed.lagrangeAtZero_eq {secretLength : ℕ} {shares : List ShamirShare}
    (h : WellFormed secretLength shares) (i : Fin shares.length) :
    lagrangeAtZero shares i = .ok (weight Finset.univ (node shares) i).num := by
  have hden : ∏ j ∈ Finset.univ.erase i, (node shares j - node shares i) ≠ 0 :=
    Finset.prod_ne_zero_iff.2 fun j hj ↦
      sub_ne_zero.2 fun hji ↦ Finset.ne_of_mem_erase hj (h.node_injective hji)
  have hloop := foldl_lagrange (node shares) i (List.finRange shares.length) 1 1
  simp only [h.num_node, Gf256.num_one, one_mul, prod_finRange_eq] at hloop
  rw [lagrangeAtZero, lagrangeLoop, hloop, Gf256.gfDiv_num _ hden]
  rfl

/-- Every share has a byte at every position of the secret. -/
theorem WellFormed.bind_ofByte_eq {secretLength : ℕ} {shares : List ShamirShare}
    (h : WellFormed secretLength shares) {byteIdx : ℕ} (hlt : byteIdx < secretLength)
    (i : Fin shares.length) :
    ((shares.get i).ys[byteIdx]?).bind ofByte = (value shares byteIdx i).num := by
  have hb : byteIdx < (shares.get i).ys.length := by
    rw [h.length_eq _ (shares.get_mem i)]
    exact hlt
  rw [value, List.getElem?_eq_getElem hb]
  rfl

theorem WellFormed.combineByte_eq {secretLength : ℕ} {shares : List ShamirShare}
    (h : WellFormed secretLength shares) {byteIdx : ℕ} (hlt : byteIdx < secretLength) :
    combineByte shares byteIdx =
      .ok (∑ i, value shares byteIdx i * weight Finset.univ (node shares) i).num := by
  have hfold : ∀ (l : List (Fin shares.length)) (a : Gf256),
      l.foldlM (fun acc i ↦ do
        let li0 ← lagrangeAtZero shares i
        return gfAdd acc (gfMul (((shares.get i).ys[byteIdx]?).bind ofByte) li0)) a.num =
      .ok (a + (l.map fun i ↦ value shares byteIdx i * weight Finset.univ (node shares) i).sum).num
      := by
    intro l
    induction l with
    | nil => intro a; simp; rfl
    | cons i l ih =>
      intro a
      rw [List.foldlM_cons, h.lagrangeAtZero_eq, h.bind_ofByte_eq hlt, List.map_cons, List.sum_cons]
      show List.foldlM _ (gfAdd _ (gfMul _ _)) l = _
      rw [Gf256.gfMul_num, Gf256.gfAdd_num, ih, add_assoc]
  rw [combineByte, ← Gf256.num_zero, hfold, zero_add, Fin.sum_univ_def]

theorem checkShare_eq_ok {secretLength : ℕ} {s : ShamirShare} (hlen : s.ys.length = secretLength)
    (hpos : 0 < s.index) (hle : s.index ≤ 255) : checkShare secretLength s = .ok () := by
  rw [checkShare, if_neg (not_not.2 hlen), if_neg (by omega)]

theorem WellFormed.secretLengthOf_eq {secretLength : ℕ} {shares : List ShamirShare}
    (h : WellFormed secretLength shares) : secretLengthOf shares = secretLength := by
  cases hshares : shares with
  | nil => exact absurd h.two_le (by simp [hshares])
  | cons s rest => exact h.length_eq s (hshares ▸ List.mem_cons_self)

theorem WellFormed.forM_checkShare {secretLength : ℕ} {shares : List ShamirShare}
    (h : WellFormed secretLength shares) : shares.forM (checkShare secretLength) = .ok () :=
  Except.forM_eq_ok.2 fun s hs ↦
    checkShare_eq_ok (h.length_eq s hs) (h.index_pos s hs) (h.index_le s hs)

theorem WellFormed.checkDistinct_eq {secretLength : ℕ} {shares : List ShamirShare}
    (h : WellFormed secretLength shares) : checkDistinct shares = .ok () := if_pos h.nodup

/-- **What `combineShares` returns**: on well-formed shares, at every byte the weighted sum of the
values. -/
theorem WellFormed.combineShares_eq {secretLength : ℕ} {shares : List ShamirShare}
    (h : WellFormed secretLength shares) :
    combineShares shares = .ok ((List.range secretLength).map fun byteIdx ↦
      (∑ i, value shares byteIdx i * weight Finset.univ (node shares) i).byte) := by
  have hbytes : ((List.range secretLength).mapM fun byteIdx ↦
      toByte <$> combineByte shares byteIdx) = .ok ((List.range secretLength).map fun byteIdx ↦
        (∑ i, value shares byteIdx i * weight Finset.univ (node shares) i).byte) := by
    refine Except.mapM_eq_ok.2 (List.forall₂_map_right_iff.2 (List.forall₂_same.2 fun b hb ↦ ?_))
    rw [h.combineByte_eq (List.mem_range.1 hb)]
    exact congrArg Except.ok (toByte_ofByte _)
  rw [combineShares, if_neg (not_lt.2 h.two_le), h.secretLengthOf_eq, h.forM_checkShare,
    h.checkDistinct_eq]
  exact hbytes

/-! ### Round trip -/

/-- The shares of a split, once its arguments pass the guards. -/
theorem splitSecret_eq_ok {secret : List UInt8} (hsecret : secret ≠ []) {threshold n : ℕ}
    (h2 : 2 ≤ threshold) (htn : threshold ≤ n) (hn : n ≤ 255)
    (draws : Draws secret.length threshold) :
    splitSecret secret threshold n draws = .ok ((List.range' 1 n).map (dealShare secret draws)) := by
  have hlen : secret.length ≠ 0 := fun h ↦ hsecret (List.length_eq_zero_iff.1 h)
  rw [splitSecret, if_neg (by omega), if_neg (by omega), if_neg (by omega), if_neg hlen]

/-- Each share of a split is dealt at an x-coordinate in `1..n`. -/
theorem mem_dealt {secret : List UInt8} {threshold n : ℕ} {draws : Draws secret.length threshold}
    {s : ShamirShare} (hs : s ∈ (List.range' 1 n).map (dealShare secret draws)) :
    ∃ i, 1 ≤ i ∧ i ≤ n ∧ s = dealShare secret draws i := by
  obtain ⟨i, hi, rfl⟩ := List.mem_map.1 hs
  rw [List.mem_range'_1] at hi
  exact ⟨i, by omega, by omega, rfl⟩

/-- Distinct shares of one split are what `combineShares` accepts. -/
theorem wellFormed_of_dealt {secret : List UInt8} {threshold n : ℕ} (h2 : 2 ≤ threshold)
    (hn : n ≤ 255) {draws : Draws secret.length threshold} {chosen : List ShamirShare}
    (hnodup : chosen.Nodup) (hsub : chosen ⊆ (List.range' 1 n).map (dealShare secret draws))
    (hcard : threshold ≤ chosen.length) : WellFormed secret.length chosen where
  two_le := h2.trans hcard
  length_eq := by
    intro s hs
    obtain ⟨i, -, -, rfl⟩ := mem_dealt (hsub hs)
    exact List.length_ofFn
  index_pos := by
    intro s hs
    obtain ⟨i, hi, -, rfl⟩ := mem_dealt (hsub hs)
    show (0 : ℤ) < i
    omega
  index_le := by
    intro s hs
    obtain ⟨i, -, hi, rfl⟩ := mem_dealt (hsub hs)
    show (i : ℤ) ≤ 255
    omega
  nodup := by
    refine List.Nodup.map_on (fun s hs s' hs' hindex ↦ ?_) hnodup
    obtain ⟨i, -, -, rfl⟩ := mem_dealt (hsub hs)
    obtain ⟨j, -, -, rfl⟩ := mem_dealt (hsub hs')
    have hij : (i : ℤ) = j := hindex
    rw [Int.ofNat.inj hij]

/-- A byte of a share of a split, as a share of the generic scheme. -/
theorem value_of_dealt {secret : List UInt8} {threshold n : ℕ} (hn : n ≤ 255)
    {draws : Draws secret.length threshold} {chosen : List ShamirShare}
    (hsub : chosen ⊆ (List.range' 1 n).map (dealShare secret draws)) (b : Fin secret.length)
    (i : Fin chosen.length) :
    value chosen b i =
      share ⟨secret.get b⟩ (fun c ↦ (⟨draws b c⟩ : Gf256)) (node chosen i) := by
  obtain ⟨x, -, hx, hget⟩ := mem_dealt (hsub (chosen.get_mem i))
  have hys : (chosen.get i).ys[(b : ℕ)]? = some (toByte (evaluate (secret.get b) (draws b) x)) := by
    rw [hget]
    show (List.ofFn _)[(b : ℕ)]? = _
    rw [List.getElem?_ofFn, dif_pos b.isLt]
  rw [value, hys, Option.getD_some, evaluate_eq _ _ (by omega) (by omega), node, hget]
  rfl

/-- **Shamir round trip.** Any list of at least `threshold` distinct shares of a split, in any order,
combines to exactly the secret. -/
theorem combineShares_splitSecret (secret : List UInt8) (hsecret : secret ≠ []) (threshold n : ℕ)
    (h2 : 2 ≤ threshold) (htn : threshold ≤ n) (hn : n ≤ 255)
    (draws : Draws secret.length threshold) :
    ∃ shares, splitSecret secret threshold n draws = .ok shares ∧ shares.length = n ∧
      ∀ chosen : List ShamirShare, chosen.Nodup → chosen ⊆ shares → threshold ≤ chosen.length →
        combineShares chosen = .ok secret := by
  refine ⟨_, splitSecret_eq_ok hsecret h2 htn hn draws, by simp, fun chosen hnodup hsub hcard ↦ ?_⟩
  have hwf := wellFormed_of_dealt h2 hn hnodup hsub hcard
  have hnodes : (threshold - 1) + 1 ≤ (Finset.univ : Finset (Fin chosen.length)).card := by
    rw [Finset.card_univ, Fintype.card_fin]
    omega
  rw [hwf.combineShares_eq]
  refine congrArg Except.ok (List.ext_getElem (by simp) fun b hb hb' ↦ ?_)
  rw [List.getElem_map, List.getElem_range]
  have hsum := reconstruct_eq (⟨secret.get ⟨b, hb'⟩⟩ : Gf256) (fun c ↦ ⟨draws ⟨b, hb'⟩ c⟩)
    (hwf.node_injective.injOn (s := (Finset.univ : Finset (Fin chosen.length)))) hnodes
  have hvalue := fun i ↦ value_of_dealt hn hsub ⟨b, hb'⟩ i
  simp only [hvalue]
  rw [hsum]
  rfl
namespace Sample

def word : List UInt8 := [83, 104]

def wordDraws : Draws word.length 2 := fun b _ ↦ if (b : ℕ) = 0 then 17 else 200

/-- Shares 3 and 1 of a 2-of-3 split, combined in that order. -/
theorem combineShares_word :
    combineShares [dealShare word wordDraws 3, dealShare word wordDraws 1] = .ok word := by
  obtain ⟨shares, hsplit, -, hcombine⟩ := combineShares_splitSecret word (by decide) 2 3
    (by decide) (by decide) (by decide) wordDraws
  rw [splitSecret_eq_ok (by decide) (by decide) (by decide) (by decide)] at hsplit
  obtain rfl := Except.ok.inj hsplit
  refine hcombine _ (by decide +kernel) (fun s hs ↦ ?_) (by decide)
  rcases List.mem_cons.1 hs with rfl | hs
  · exact List.mem_map_of_mem (by decide)
  · rw [List.mem_singleton.1 hs]
    exact List.mem_map_of_mem (by decide)

end Sample

/-! ### Secrecy -/

/-- Below the threshold one byte of the shares fixes nothing: every observed vector comes from
exactly one choice of the byte's coefficients, whatever the secret byte is. -/
theorem existsUnique_coeffs (secretByte : UInt8) {k : ℕ} {x : Fin k → ℤ}
    (hinj : Function.Injective x) (hx : ∀ j, 0 < x j ∧ x j ≤ 255) (y : Fin k → UInt8) :
    ∃! coeffs : Fin k → UInt8, ∀ j, toByte (evaluate secretByte coeffs (x j)) = y j := by
  have hpoints : Function.Injective fun j ↦ point (x j) := fun i j hij ↦
    hinj (point_inj ⟨(hx i).1.le, (hx i).2⟩ ⟨(hx j).1.le, (hx j).2⟩ hij)
  obtain ⟨a, ha, hunique⟩ := existsUnique_coefficients (⟨secretByte⟩ : Gf256) hpoints
    (fun j ↦ point_ne_zero (hx j).1 (hx j).2) fun j ↦ ⟨y j⟩
  have hbyte : ∀ (coeffs : Fin k → UInt8) (j : Fin k),
      toByte (evaluate secretByte coeffs (x j)) = y j ↔
        share ⟨secretByte⟩ (fun c ↦ (⟨coeffs c⟩ : Gf256)) (point (x j)) = ⟨y j⟩ := by
    intro coeffs j
    rw [evaluate_eq _ _ (hx j).1.le (hx j).2, Gf256.ext_iff]
  refine ⟨fun c ↦ (a c).byte, fun j ↦ (hbyte _ j).2 (ha j), fun coeffs hcoeffs ↦ ?_⟩
  have heq := hunique (fun c ↦ ⟨coeffs c⟩) fun j ↦ (hbyte coeffs j).1 (hcoeffs j)
  exact funext fun c ↦ congrArg Gf256.byte (congrFun heq c)

/-- What the holders of the shares at `indexes` see. -/
def observe (indexes : Finset ℕ) (shares : List ShamirShare) : List ShamirShare :=
  shares.filter fun s ↦ s.index.toNat ∈ indexes

/-- The choices of coefficients under which a split shows `view` at `indexes`. -/
def drawsBehind (secret : List UInt8) (threshold n : ℕ) (indexes : Finset ℕ)
    (view : List ShamirShare) : Finset (Draws secret.length threshold) :=
  {draws | (splitSecret secret threshold n draws).map (observe indexes) = .ok view}

/-- A vector of one byte string of the secret's length for each index, in the order dealt. -/
structure IsView (n : ℕ) (indexes : Finset ℕ) (secretLength : ℕ) (view : List ShamirShare) :
    Prop where
  index_eq : view.map (fun s ↦ s.index) =
    ((List.range' 1 n).filter (· ∈ indexes)).map ((↑) : ℕ → ℤ)
  length_eq : ∀ s ∈ view, s.ys.length = secretLength

/-- The shares seen are those dealt at the indexes. -/
theorem observe_dealt (secret : List UInt8) {threshold : ℕ} (draws : Draws secret.length threshold)
    (n : ℕ) (indexes : Finset ℕ) :
    observe indexes ((List.range' 1 n).map (dealShare secret draws)) =
      ((List.range' 1 n).filter (· ∈ indexes)).map (dealShare secret draws) := by
  rw [observe, List.filter_map]
  rfl

/-- What is seen is always such a vector. -/
theorem isView_of_dealt (secret : List UInt8) {threshold : ℕ}
    (draws : Draws secret.length threshold) (n : ℕ) (indexes : Finset ℕ) :
    IsView n indexes secret.length
      (((List.range' 1 n).filter (· ∈ indexes)).map (dealShare secret draws)) where
  index_eq := by
    rw [List.map_map]
    rfl
  length_eq := by
    intro s hs
    obtain ⟨i, -, rfl⟩ := List.mem_map.1 hs
    exact List.length_ofFn

/-- A byte of a view, by position of the share and of the byte. -/
def viewByte (view : List ShamirShare) (j b : ℕ) : UInt8 :=
  ((view[j]?).bind fun s ↦ s.ys[b]?).getD 0

/-- Being seen, byte by byte. -/
theorem map_dealShare_eq_iff {secret : List UInt8} {threshold : ℕ}
    {draws : Draws secret.length threshold} {xs : List ℕ} {view : List ShamirShare}
    (hindex : view.map (fun s ↦ s.index) = xs.map ((↑) : ℕ → ℤ))
    (hlength : ∀ s ∈ view, s.ys.length = secret.length) :
    xs.map (dealShare secret draws) = view ↔
      ∀ (b : Fin secret.length) (j : Fin xs.length),
        toByte (evaluate (secret.get b) (draws b) (xs.get j)) = viewByte view j b := by
  have hlen : view.length = xs.length := by simpa using congrArg List.length hindex
  have hdealt : ∀ (b : Fin secret.length) (x : ℕ), (dealShare secret draws x).ys[(b : ℕ)]? =
      some (toByte (evaluate (secret.get b) (draws b) x)) := by
    intro b x
    show (List.ofFn _)[(b : ℕ)]? = _
    rw [List.getElem?_ofFn, dif_pos b.isLt]
  constructor
  · rintro rfl b j
    rw [viewByte, List.getElem?_map, List.getElem?_eq_getElem j.isLt, Option.map_some,
      Option.bind_some, hdealt, Option.getD_some]
    rfl
  · intro h
    refine List.ext_getElem (by rw [List.length_map, hlen]) fun j hj hj' ↦ ?_
    rw [List.length_map] at hj
    have hys : (view[j]).ys.length = secret.length := hlength _ (List.getElem_mem hj')
    have hidx : (view[j]).index = ((xs[j] : ℕ) : ℤ) := by
      have hget := List.getElem_of_eq hindex (i := j) (by rw [List.length_map]; exact hj')
      rwa [List.getElem_map, List.getElem_map] at hget
    rw [List.getElem_map]
    have hbytes : (dealShare secret draws xs[j]).ys = (view[j]).ys := by
      refine List.ext_getElem (by rw [hys]; exact List.length_ofFn) fun b hb hb' ↦ ?_
      have hb'' : b < secret.length := by rw [← hys]; exact hb'
      have hbyte := h ⟨b, hb''⟩ ⟨j, hj⟩
      rw [viewByte, List.getElem?_eq_getElem hj', Option.bind_some,
        List.getElem?_eq_getElem hb', Option.getD_some] at hbyte
      rw [← hbyte]
      exact Option.some.inj ((List.getElem?_eq_getElem hb).symm.trans (hdealt ⟨b, hb''⟩ xs[j]))
    exact ShamirShare.ext hidx.symm hbytes

/-- One choice of coefficients deals a given vector at `threshold - 1` distinct indexes: byte by byte,
`existsUnique_coeffs`. -/
theorem existsUnique_map_dealShare {secret : List UInt8} {threshold : ℕ} {xs : List ℕ}
    (hnodup : xs.Nodup) (hrange : ∀ x ∈ xs, 1 ≤ x ∧ x ≤ 255) (hlen : xs.length = threshold - 1)
    {view : List ShamirShare} (hindex : view.map (fun s ↦ s.index) = xs.map ((↑) : ℕ → ℤ))
    (hlength : ∀ s ∈ view, s.ys.length = secret.length) :
    ∃! draws : Draws secret.length threshold, xs.map (dealShare secret draws) = view := by
  let x : Fin (threshold - 1) → ℤ := fun j ↦ (xs.get (Fin.cast hlen.symm j) : ℤ)
  have hinj : Function.Injective x := fun i j hij ↦
    Fin.cast_injective hlen.symm (hnodup.injective_get (Int.ofNat.inj hij))
  have hx : ∀ j, 0 < x j ∧ x j ≤ 255 := by
    intro j
    have hmem := hrange _ (xs.get_mem (Fin.cast hlen.symm j))
    show (0 : ℤ) < (xs.get (Fin.cast hlen.symm j) : ℤ) ∧ (xs.get (Fin.cast hlen.symm j) : ℤ) ≤ 255
    omega
  have hbyte := fun b : Fin secret.length ↦
    existsUnique_coeffs (secret.get b) hinj hx fun j ↦ viewByte view j b
  -- the positions of the list and those below the threshold are the same
  have hiff : ∀ draws : Draws secret.length threshold, xs.map (dealShare secret draws) = view ↔
      ∀ b j, toByte (evaluate (secret.get b) (draws b) (x j)) = viewByte view j b := by
    intro draws
    rw [map_dealShare_eq_iff hindex hlength]
    exact ⟨fun h b j ↦ h b (Fin.cast hlen.symm j), fun h b j ↦ h b (Fin.cast hlen j)⟩
  refine ⟨fun b ↦ (hbyte b).choose, (hiff _).2 fun b ↦ (hbyte b).choose_spec.1,
    fun draws hdraws ↦ funext fun b ↦ ?_⟩
  exact (hbyte b).choose_spec.2 _ ((hiff draws).1 hdraws b)

theorem length_filter_range' {n : ℕ} {indexes : Finset ℕ} (h : ∀ i ∈ indexes, 1 ≤ i ∧ i ≤ n) :
    ((List.range' 1 n).filter (· ∈ indexes)).length = indexes.card := by
  rw [← List.toFinset_card_of_nodup ((List.nodup_range').filter _)]
  refine congrArg Finset.card (Finset.ext fun i ↦ ?_)
  rw [List.mem_toFinset, List.mem_filter, List.mem_range'_1, decide_eq_true_iff]
  refine ⟨fun hi ↦ hi.2, fun hi ↦ ⟨?_, hi⟩⟩
  have hrange := h i hi
  omega

section

variable {threshold n : ℕ} (h2 : 2 ≤ threshold) (htn : threshold ≤ n) (hn : n ≤ 255)
  {indexes : Finset ℕ} (hrange : ∀ i ∈ indexes, 1 ≤ i ∧ i ≤ n)
  (hcard : indexes.card = threshold - 1)
include h2 htn hn

theorem mem_drawsBehind_iff {secret : List UInt8} (hsecret : secret ≠ []) {view : List ShamirShare}
    {draws : Draws secret.length threshold} :
    draws ∈ drawsBehind secret threshold n indexes view ↔
      ((List.range' 1 n).filter (· ∈ indexes)).map (dealShare secret draws) = view := by
  rw [drawsBehind, Finset.mem_filter_univ, splitSecret_eq_ok hsecret h2 htn hn draws, Except.map,
    observe_dealt]
  exact ⟨Except.ok.inj, congrArg Except.ok⟩

include hrange hcard

/-- Exactly one choice of the coefficients of all bytes is behind a view. -/
theorem card_drawsBehind_of_isView {secret : List UInt8} (hsecret : secret ≠ [])
    {view : List ShamirShare} (hview : IsView n indexes secret.length view) :
    (drawsBehind secret threshold n indexes view).card = 1 := by
  refine Finset.card_eq_one_iff_existsUnique.2 ?_
  simp only [mem_drawsBehind_iff h2 htn hn hsecret]
  refine existsUnique_map_dealShare ((List.nodup_range').filter _) (fun i hi ↦ ?_)
    ((length_filter_range' hrange).trans hcard) hview.index_eq hview.length_eq
  have hi' := hrange i (of_decide_eq_true (List.mem_filter.1 hi).2)
  omega

/-- **Perfect secrecy.** For any two secrets of one length and any `threshold - 1` indexes, as many
choices of coefficients are behind an observed vector of shares for the one as for the other, and
exactly one where the vector is one that can be observed at all. -/
theorem card_drawsBehind (secret secret' : List UInt8) (hsecret : secret ≠ [])
    (hlength : secret.length = secret'.length) (view : List ShamirShare) :
    (drawsBehind secret threshold n indexes view).card =
        (drawsBehind secret' threshold n indexes view).card ∧
      (IsView n indexes secret.length view →
        (drawsBehind secret threshold n indexes view).card = 1) := by
  have hsecret' : secret' ≠ [] := by
    rintro rfl
    exact hsecret (List.length_eq_zero_iff.1 hlength)
  refine ⟨?_, card_drawsBehind_of_isView h2 htn hn hrange hcard hsecret⟩
  by_cases hview : IsView n indexes secret.length view
  · rw [card_drawsBehind_of_isView h2 htn hn hrange hcard hsecret hview,
      card_drawsBehind_of_isView h2 htn hn hrange hcard hsecret' (hlength ▸ hview)]
  · -- a vector of another shape is never observed, under either secret
    have hempty : drawsBehind secret threshold n indexes view = ∅ :=
      Finset.eq_empty_of_forall_notMem fun draws hdraws ↦
        hview ((mem_drawsBehind_iff h2 htn hn hsecret).1 hdraws ▸ isView_of_dealt secret draws n _)
    have hempty' : drawsBehind secret' threshold n indexes view = ∅ :=
      Finset.eq_empty_of_forall_notMem fun draws hdraws ↦ hview <| by
        rw [hlength, ← (mem_drawsBehind_iff h2 htn hn hsecret').1 hdraws]
        exact isView_of_dealt secret' draws n _
    rw [hempty, hempty', Finset.card_empty, Finset.card_empty]

end

namespace Sample

/-- What one shareholder of a 2-of-3 split might see. -/
def secondShare : List ShamirShare := [⟨2, [5, 6]⟩]

/-- That share is behind either of two words in exactly one way. -/
theorem card_drawsBehind_word :
    (drawsBehind word 2 3 {2} secondShare).card = (drawsBehind [1, 2] 2 3 {2} secondShare).card ∧
      (drawsBehind word 2 3 {2} secondShare).card = 1 := by
  have hview : IsView 3 {2} word.length secondShare := ⟨by decide, by decide⟩
  have h := card_drawsBehind (by decide : 2 ≤ 2) (by decide : 2 ≤ 3) (by decide)
    (by decide : ∀ i ∈ ({2} : Finset ℕ), 1 ≤ i ∧ i ≤ 3) rfl word [1, 2] (by decide) rfl secondShare
  exact ⟨h.1, h.2 hview⟩

end Sample

end TolPlatform.Crypto
