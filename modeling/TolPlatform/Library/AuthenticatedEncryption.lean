import TolPlatform.Library.Grouping

/-!
# Authenticated encryption

An authenticated encryption scheme with associated data, and what is asked of an ideal one: a
ciphertext opens to its message, and it opens under no other key and for no other data. What an ideal
scheme opens is therefore known (`Ideal.decrypt_encrypt_iff`).

Some answers of a scheme can be replaced by given ones (`withVectors`), which keeps it ideal as long
as the ciphertexts stay apart (`Ideal.withVectors`).
-/

structure Aead (Key Nonce Data Msg Cipher : Type*) where
  encrypt : Key → Nonce → Data → Msg → Cipher
  decrypt : Key → Nonce → Data → Cipher → Option Msg

namespace Aead

variable {Key Nonce Data Msg Cipher : Type*} (A : Aead Key Nonce Data Msg Cipher)

/-- An ideal scheme. -/
structure Ideal : Prop where
  decrypt_encrypt : ∀ k n d m, A.decrypt k n d (A.encrypt k n d m) = some m
  binds : ∀ {k n d m k' d' m'}, A.decrypt k' n d' (A.encrypt k n d m) = some m' → k' = k ∧ d' = d

variable {A}

/-- **What an ideal scheme opens.** -/
theorem Ideal.decrypt_encrypt_iff (h : A.Ideal) {k k' : Key} {n : Nonce} {d d' : Data} {m m' : Msg} :
    A.decrypt k' n d' (A.encrypt k n d m) = some m' ↔ k' = k ∧ d' = d ∧ m' = m := by
  constructor
  · intro hopen
    obtain ⟨rfl, rfl⟩ := h.binds hopen
    rw [h.decrypt_encrypt] at hopen
    exact ⟨rfl, rfl, (Option.some.inj hopen).symm⟩
  · rintro ⟨rfl, rfl, rfl⟩
    exact h.decrypt_encrypt _ _ _ _

/-! ### Given answers -/

/-- An input of `encrypt` and its ciphertext. -/
structure Vector (Key Nonce Data Msg Cipher : Type*) where
  key : Key
  nonce : Nonce
  data : Data
  msg : Msg
  cipher : Cipher

section

variable [DecidableEq Key] [DecidableEq Nonce] [DecidableEq Data] [DecidableEq Msg]
  [DecidableEq Cipher] {vectors : List (Vector Key Nonce Data Msg Cipher)}

variable (A vectors) in
/-- The scheme that answers as the vectors say. -/
def withVectors : Aead Key Nonce Data Msg Cipher where
  encrypt k n d m :=
    match vectors.find? fun v ↦ v.key = k ∧ v.nonce = n ∧ v.data = d ∧ v.msg = m with
    | some v => v.cipher
    | none => A.encrypt k n d m
  decrypt k n d c :=
    match vectors.find? (·.cipher = c) with
    | some v => if v.key = k ∧ v.nonce = n ∧ v.data = d then some v.msg else none
    | none => A.decrypt k n d c

variable (A vectors) in
/-- A ciphertext is that of a vector, or of the scheme itself. -/
theorem withVectors_encrypt_cases (k : Key) (n : Nonce) (d : Data) (m : Msg) :
    (∃ v ∈ vectors, v.key = k ∧ v.nonce = n ∧ v.data = d ∧ v.msg = m ∧
      (A.withVectors vectors).encrypt k n d m = v.cipher) ∨
    (A.withVectors vectors).encrypt k n d m = A.encrypt k n d m := by
  rcases hfind : vectors.find? fun v ↦ v.key = k ∧ v.nonce = n ∧ v.data = d ∧ v.msg = m with _ | v
  · refine Or.inr ?_
    simp only [withVectors, hfind]
  · obtain ⟨hk, hn, hd, hm⟩ := of_decide_eq_true (List.find?_some hfind :)
    refine Or.inl ⟨v, List.mem_of_find?_eq_some hfind, hk, hn, hd, hm, ?_⟩
    simp only [withVectors, hfind]

omit [DecidableEq Key] [DecidableEq Nonce] [DecidableEq Data] [DecidableEq Msg] in
theorem find?_cipher (hnodup : (vectors.map Vector.cipher).Nodup)
    {v : Vector Key Nonce Data Msg Cipher} (hv : v ∈ vectors) :
    vectors.find? (·.cipher = v.cipher) = some v :=
  (List.find?_eq_some_iff_of_nodup hnodup).2 ⟨hv, rfl⟩

/-- An ideal scheme stays ideal if the ciphertexts of the vectors are distinct and none of its own. -/
theorem Ideal.withVectors (h : A.Ideal) (hnodup : (vectors.map Vector.cipher).Nodup)
    (hapart : ∀ v ∈ vectors, ∀ k n d m, A.encrypt k n d m ≠ v.cipher) :
    (A.withVectors vectors).Ideal := by
  have hown (k n d m) : vectors.find? (·.cipher = A.encrypt k n d m) = none :=
    List.find?_eq_none.2 fun v hv hcipher ↦ hapart v hv k n d m (of_decide_eq_true hcipher).symm
  constructor
  · intro k n d m
    rcases withVectors_encrypt_cases A vectors k n d m with
      ⟨v, hv, rfl, rfl, rfl, rfl, hcipher⟩ | hcipher
    · rw [hcipher]
      simp only [Aead.withVectors, find?_cipher hnodup hv, and_self, if_true]
    · rw [hcipher]
      simp only [Aead.withVectors, hown]
      exact h.decrypt_encrypt k n d m
  · intro k n d m k' d' m' hopen
    rcases withVectors_encrypt_cases A vectors k n d m with
      ⟨v, hv, rfl, rfl, rfl, rfl, hcipher⟩ | hcipher
    · rw [hcipher] at hopen
      simp only [Aead.withVectors, find?_cipher hnodup hv] at hopen
      split_ifs at hopen with hsame
      exact ⟨hsame.1.symm, hsame.2.2.symm⟩
    · rw [hcipher] at hopen
      simp only [Aead.withVectors, hown] at hopen
      exact h.binds hopen

end

end Aead
