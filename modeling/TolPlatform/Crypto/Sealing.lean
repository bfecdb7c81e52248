import TolPlatform.Crypto.Envelope
import TolPlatform.Library.AuthenticatedEncryption

/-!
# Sealing an envelope

`encrypt` and `decrypt` of `packages/crypto/src/aes-gcm.ts` around the platform's AES-256-GCM, and
`sealPayload` of `envelope.ts`. Everything drawn at random is an argument: the data-encryption key, the
coefficients of its split and the IVs. No associated data is the same as empty associated data.

Sealing always succeeds with key-encryption keys of the right length, and every choice of at least two of
its shares releases the payload. With an ideal cipher nothing else can come out of a release: the key
that opens the envelope is its own, and so is the associated data (`releasePayload_sealPayload`).
-/

namespace TolPlatform.Crypto

/-! ### AES-256-GCM -/

/-- `AES_KEY_BYTES`. -/
def aesKeyBytes : ℕ := 32

/-- `GCM_IV_BYTES`. -/
def gcmIvBytes : ℕ := 12

/-- `GCM_AUTH_TAG_BYTES`. -/
def gcmAuthTagBytes : ℕ := 16

/-- What Node's `crypto` computes: ciphertext and tag from key, IV, associated data and message. -/
abbrev Gcm : Type := Aead Bytes Bytes Bytes Bytes (Bytes × Bytes)

/-- What is drawn for one encryption. -/
abbrev Iv : Type := { iv : Bytes // iv.length = gcmIvBytes }

def assertKeyLength (key : Bytes) : Except EnvelopeError Unit :=
  if key.length ≠ aesKeyBytes then
    .error (.shamir (.rangeError s!"AES-256-GCM key must be exactly {aesKeyBytes} bytes, got {key.length}"))
  else .ok ()

def encrypt (gcm : Gcm) (iv : Iv) (plaintext key : Bytes) (aad : Option Bytes) :
    Except EnvelopeError AesGcmCiphertext := do
  assertKeyLength key
  let (ciphertext, authTag) := gcm.encrypt key iv (aad.getD []) plaintext
  return ⟨iv, ciphertext, authTag⟩

def decrypt (gcm : Gcm) : Decrypt := fun input key aad ↦ do
  assertKeyLength key
  -- a tag of another length does not reach the cipher
  if input.authTag.length ≠ gcmAuthTagBytes then .error .tamperOrWrongKey
  else
    match gcm.decrypt key input.iv (aad.getD []) (input.ciphertext, input.authTag) with
    | none => .error .tamperOrWrongKey
    | some plaintext => .ok plaintext

/-! ### `sealPayload` -/

/-- `LOCKBOX_SHARE_ROLES`. -/
def lockboxShareRoles : List LockboxShareRole := [.sealer, .operator, .escrow]

def roleToIndex (role : LockboxShareRole) : ℤ := lockboxShareRoles.idxOf role + 1

def indexToRole (index : ℤ) : Except EnvelopeError LockboxShareRole :=
  let role := match index - 1 with
    | .ofNat i => lockboxShareRoles[i]?
    | .negSucc _ => none
  match role with
  | some role => .ok role
  | none => .error (.shamir (.rangeError s!"indexToRole: no role for index {index}"))

structure SealedEnvelope extends AesGcmCiphertext where
  /-- SHA-256 of the ciphertext, hex. -/
  ciphertextHash : String
  shares : List WrappedShare
  deriving DecidableEq, Repr

/-- What one sealing draws. -/
structure SealDraws where
  dek : Bytes
  dek_length : dek.length = aesKeyBytes
  iv : Iv
  coefficients : Draws dek.length lockboxShareThreshold
  /-- For the share of each role. -/
  shareIv : LockboxShareRole → Iv

def wrapShare (gcm : Gcm) (shareIv : LockboxShareRole → Iv) (keks : RoleKeks) (share : ShamirShare) :
    Except EnvelopeError WrappedShare := do
  let role ← indexToRole share.index
  let wrapped ← encrypt gcm (shareIv role) share.ys (keks role) none
  return { role, index := share.index, wrapped }

def sealPayload (gcm : Gcm) (sha256 : Bytes → String) (d : SealDraws) (plaintext : Bytes)
    (keks : RoleKeks) (aad : Option Bytes) : Except EnvelopeError SealedEnvelope := do
  let envelope ← encrypt gcm d.iv plaintext d.dek aad
  let rawShares ← (splitSecret d.dek lockboxShareThreshold lockboxShareTotal d.coefficients).mapError
    .shamir
  let shares ← rawShares.mapM (wrapShare gcm d.shareIv keks)
  return { envelope with ciphertextHash := sha256 envelope.ciphertext, shares }

/-! ### Roles and indexes -/

theorem roleToIndex_injective : Function.Injective roleToIndex := by
  intro role role' h
  cases role <;> cases role' <;> first | rfl | exact absurd h (by decide)

/-- The two directions agree. -/
theorem indexToRole_roleToIndex (role : LockboxShareRole) :
    indexToRole (roleToIndex role) = .ok role := by
  cases role <;> rfl

/-! ### What a sealing holds -/

/-- An ideal cipher with tags of the length that is checked. -/
structure IdealGcm (gcm : Gcm) : Prop where
  ideal : gcm.Ideal
  tag_length : ∀ key iv aad m, (gcm.encrypt key iv aad m).2.length = gcmAuthTagBytes

/-- The result of an encryption under a key of the right length. -/
def ciphertextOf (gcm : Gcm) (iv : Iv) (plaintext key : Bytes) (aad : Option Bytes) :
    AesGcmCiphertext :=
  let c := gcm.encrypt key iv (aad.getD []) plaintext
  ⟨iv, c.1, c.2⟩

section

variable {gcm : Gcm} {iv : Iv} {plaintext plaintext' key key' : Bytes} {aad aad' : Option Bytes}

theorem assertKeyLength_eq_ok_iff {u : Unit} :
    assertKeyLength key = .ok u ↔ key.length = aesKeyBytes := by
  rw [assertKeyLength]
  split_ifs with h
  · exact iff_of_false (fun h ↦ nomatch h) h
  · exact iff_of_true rfl (not_not.1 h)

theorem encrypt_eq_ok_iff {c : AesGcmCiphertext} : encrypt gcm iv plaintext key aad = .ok c ↔
    key.length = aesKeyBytes ∧ c = ciphertextOf gcm iv plaintext key aad := by
  rw [encrypt, Except.bind_eq_ok']
  constructor
  · rintro ⟨u, hkey, hret⟩
    exact ⟨assertKeyLength_eq_ok_iff.1 hkey, (Except.ok.inj hret).symm⟩
  · rintro ⟨hkey, rfl⟩
    exact ⟨(), assertKeyLength_eq_ok_iff.2 hkey, rfl⟩

theorem decrypt_eq_ok_iff {c : AesGcmCiphertext} : decrypt gcm c key aad = .ok plaintext ↔
    key.length = aesKeyBytes ∧ c.authTag.length = gcmAuthTagBytes ∧
      gcm.decrypt key c.iv (aad.getD []) (c.ciphertext, c.authTag) = some plaintext := by
  rw [decrypt, Except.bind_eq_ok']
  constructor
  · rintro ⟨u, hkey, h⟩
    split_ifs at h with htag
    refine ⟨assertKeyLength_eq_ok_iff.1 hkey, not_not.1 htag, ?_⟩
    rcases hopen : gcm.decrypt key c.iv (aad.getD []) (c.ciphertext, c.authTag) with _ | m
    · rw [hopen] at h
      cases h
    · rw [hopen] at h
      exact congrArg some (Except.ok.inj h)
  · rintro ⟨hkey, htag, hopen⟩
    refine ⟨(), assertKeyLength_eq_ok_iff.2 hkey, ?_⟩
    rw [if_neg (not_not.2 htag), hopen]

/-- **What opens**: a ciphertext of an ideal cipher, under its own key and data, and to its own
message. -/
theorem IdealGcm.decrypt_ciphertextOf_iff (h : IdealGcm gcm) (hkey : key.length = aesKeyBytes) :
    decrypt gcm (ciphertextOf gcm iv plaintext key aad) key' aad' = .ok plaintext' ↔
      key' = key ∧ aad'.getD [] = aad.getD [] ∧ plaintext' = plaintext := by
  rw [decrypt_eq_ok_iff]
  constructor
  · rintro ⟨-, -, hopen⟩
    exact h.ideal.decrypt_encrypt_iff.1 hopen
  · rintro ⟨rfl, haad, rfl⟩
    exact ⟨hkey, h.tag_length _ _ _ _, h.ideal.decrypt_encrypt_iff.2 ⟨rfl, haad, rfl⟩⟩

end

theorem SealDraws.dek_ne_nil (d : SealDraws) : d.dek ≠ [] := by
  intro h
  have hlength := d.dek_length
  rw [h] at hlength
  exact absurd hlength (by decide)

/-- The share of a role, before it is wrapped. -/
def rawShare (d : SealDraws) (role : LockboxShareRole) : ShamirShare :=
  dealShare d.dek d.coefficients (lockboxShareRoles.idxOf role + 1)

/-- The same share under the role's key. -/
def sealedShare (gcm : Gcm) (d : SealDraws) (keks : RoleKeks) (role : LockboxShareRole) :
    WrappedShare where
  role := role
  index := roleToIndex role
  wrapped := ciphertextOf gcm (d.shareIv role) (rawShare d role).ys (keks role) none

theorem splitSecret_dek (d : SealDraws) :
    splitSecret d.dek lockboxShareThreshold lockboxShareTotal d.coefficients =
      .ok (lockboxShareRoles.map (rawShare d)) :=
  splitSecret_eq_ok d.dek_ne_nil (by decide) (by decide) (by decide) d.coefficients

section

variable {gcm : Gcm} {sha256 : Bytes → String} {d : SealDraws} {plaintext : Bytes}
  {keks keks' : RoleKeks} {aad aad' : Option Bytes} {role : LockboxShareRole}

theorem wrapShare_eq_ok_iff {w : WrappedShare} :
    wrapShare gcm d.shareIv keks (rawShare d role) = .ok w ↔
      (keks role).length = aesKeyBytes ∧ w = sealedShare gcm d keks role := by
  have hrole : indexToRole (rawShare d role).index = .ok role := indexToRole_roleToIndex role
  rw [wrapShare, hrole]
  show (encrypt gcm (d.shareIv role) (rawShare d role).ys (keks role) none >>= fun wrapped ↦
    Except.ok (⟨role, (rawShare d role).index, wrapped⟩ : WrappedShare)) = _ ↔ _
  rw [Except.bind_eq_ok']
  constructor
  · rintro ⟨c, hc, hret⟩
    obtain ⟨hkey, rfl⟩ := encrypt_eq_ok_iff.1 hc
    exact ⟨hkey, (Except.ok.inj hret).symm⟩
  · rintro ⟨hkey, rfl⟩
    exact ⟨_, encrypt_eq_ok_iff.2 ⟨hkey, rfl⟩, rfl⟩

/-- What a sealing leaves. -/
structure SealedAs (gcm : Gcm) (d : SealDraws) (plaintext : Bytes) (keks : RoleKeks)
    (aad : Option Bytes) (envelope : SealedEnvelope) : Prop where
  kek_length : ∀ role, (keks role).length = aesKeyBytes
  ciphertext_eq : envelope.toAesGcmCiphertext = ciphertextOf gcm d.iv plaintext d.dek aad
  shares_eq : envelope.shares = lockboxShareRoles.map (sealedShare gcm d keks)

theorem mem_lockboxShareRoles (role : LockboxShareRole) : role ∈ lockboxShareRoles := by
  cases role <;> decide

/-- Sealing succeeds with key-encryption keys of the right length. -/
theorem exists_sealPayload (gcm : Gcm) (sha256 : Bytes → String) (d : SealDraws) (plaintext : Bytes)
    (hkeks : ∀ role, (keks role).length = aesKeyBytes) (aad : Option Bytes) :
    ∃ envelope, sealPayload gcm sha256 d plaintext keks aad = .ok envelope := by
  -- three steps of the `do` block, each of which succeeds
  have hwrapped : (lockboxShareRoles.map (rawShare d)).mapM (wrapShare gcm d.shareIv keks) =
      .ok (lockboxShareRoles.map (sealedShare gcm d keks)) := by
    refine Except.mapM_eq_ok.2 (List.forall₂_map_left_iff.2 (List.forall₂_map_right_iff.2 ?_))
    exact List.forall₂_same.2 fun role _ ↦ wrapShare_eq_ok_iff.2 ⟨hkeks role, rfl⟩
  have hsealed : encrypt gcm d.iv plaintext d.dek aad =
      .ok (ciphertextOf gcm d.iv plaintext d.dek aad) :=
    encrypt_eq_ok_iff.2 ⟨d.dek_length, rfl⟩
  rw [sealPayload, hsealed]
  show ∃ envelope, ((splitSecret d.dek lockboxShareThreshold lockboxShareTotal
    d.coefficients).mapError EnvelopeError.shamir >>= _) = .ok envelope
  rw [splitSecret_dek]
  show ∃ envelope, ((lockboxShareRoles.map (rawShare d)).mapM (wrapShare gcm d.shareIv keks) >>= _) =
    .ok envelope
  rw [hwrapped]
  exact ⟨_, rfl⟩

theorem sealPayload_eq_ok {envelope : SealedEnvelope}
    (h : sealPayload gcm sha256 d plaintext keks aad = .ok envelope) :
    SealedAs gcm d plaintext keks aad envelope := by
  obtain ⟨c, hc, hrest⟩ := Except.bind_eq_ok'.1 h
  obtain ⟨raw, hraw, hwrap⟩ := Except.bind_eq_ok'.1 hrest
  obtain ⟨shares, hshares, hret⟩ := Except.bind_eq_ok'.1 hwrap
  obtain ⟨-, rfl⟩ := encrypt_eq_ok_iff.1 hc
  rw [splitSecret_dek] at hraw
  obtain rfl := Except.ok.inj hraw
  obtain rfl := Except.ok.inj hret
  have hall := List.forall₂_map_left_iff.1 (Except.mapM_eq_ok.1 hshares)
  refine ⟨fun role ↦ ?_, rfl, ?_⟩
  · obtain ⟨w, -, hw⟩ := hall.exists_right (mem_lockboxShareRoles role)
    exact (wrapShare_eq_ok_iff.1 hw).1
  · have heq := hall.map_eq (f := sealedShare gcm d keks) (g := id) fun role w hw ↦
      (wrapShare_eq_ok_iff.1 hw).2.symm
    rw [heq, List.map_id]

end

/-! ### Releasing -/

/-- Nothing is dropped exactly when nothing is there twice. -/
theorem not_length_dedup_lt_iff {α : Type} [DecidableEq α] {l : List α} :
    ¬ l.dedup.length < l.length ↔ l.Nodup := by
  rw [← List.dedup_eq_self, not_lt]
  exact ⟨fun h ↦ l.dedup_sublist.eq_of_length (le_antisymm l.dedup_sublist.length_le h),
    fun h ↦ (congrArg List.length h).ge⟩

theorem releasePayload_eq_ok_iff {dec : Decrypt} {c : AesGcmCiphertext} {shares : List WrappedShare}
    {keks : RoleKeks} {aad : Option Bytes} {m : Bytes} :
    releasePayload dec c shares keks aad = .ok m ↔
      lockboxShareThreshold ≤ shares.length ∧ (shares.map (·.role)).Nodup ∧
        ∃ unwrapped dek, shares.mapM (unwrapShare dec keks) = .ok unwrapped ∧
          combineShares unwrapped = .ok dek ∧ dec c dek aad = .ok m := by
  have hroles := not_length_dedup_lt_iff (l := shares.map (·.role))
  rw [List.length_map] at hroles
  rw [releasePayload, ← hroles]
  split_ifs with h2 hdup
  · exact iff_of_false (fun h ↦ nomatch h) fun h ↦ absurd h.1 (by omega)
  · exact iff_of_false (fun h ↦ nomatch h) fun h ↦ h.2.1 hdup
  · rw [Except.bind_eq_ok']
    constructor
    · rintro ⟨unwrapped, hunwrapped, h⟩
      obtain ⟨dek, hdek, hopen⟩ := Except.bind_eq_ok'.1 h
      exact ⟨by omega, hdup, unwrapped, dek, hunwrapped, Except.mapError_eq_ok.1 hdek, hopen⟩
    · rintro ⟨-, -, unwrapped, dek, hunwrapped, hcombine, hopen⟩
      refine ⟨unwrapped, hunwrapped, ?_⟩
      rw [hcombine]
      exact hopen

/-- At least two shares of an envelope, of distinct roles and in any order. -/
structure Choice (envelope : SealedEnvelope) (chosen : List WrappedShare) : Prop where
  two_le : lockboxShareThreshold ≤ chosen.length
  roles_nodup : (chosen.map (·.role)).Nodup
  subset : chosen ⊆ envelope.shares

section

variable {gcm : Gcm} {d : SealDraws} {plaintext : Bytes} {keks keks' : RoleKeks}
  {aad : Option Bytes} {envelope : SealedEnvelope} {chosen : List WrappedShare}

/-- A share of an envelope is that of its role. -/
theorem SealedAs.eq_sealedShare (h : SealedAs gcm d plaintext keks aad envelope) {s : WrappedShare}
    (hs : s ∈ envelope.shares) : s = sealedShare gcm d keks s.role := by
  rw [h.shares_eq] at hs
  obtain ⟨role, -, rfl⟩ := List.mem_map.1 hs
  rfl

/-- It unwraps under its own key, and to the share that was dealt. -/
theorem SealedAs.unwrapShare_iff (hgcm : IdealGcm gcm)
    (h : SealedAs gcm d plaintext keks aad envelope) {s : WrappedShare} (hs : s ∈ envelope.shares)
    {share : ShamirShare} : unwrapShare (decrypt gcm) keks' s = .ok share ↔
      keks' s.role = keks s.role ∧ share = rawShare d s.role := by
  have hopen (m : Bytes) : decrypt gcm s.wrapped (keks' s.role) none = .ok m ↔
      keks' s.role = keks s.role ∧ m = (rawShare d s.role).ys := by
    rw [h.eq_sealedShare hs]
    refine (hgcm.decrypt_ciphertextOf_iff (h.kek_length _)).trans ?_
    exact ⟨fun h ↦ ⟨h.1, h.2.2⟩, fun h ↦ ⟨h.1, rfl, h.2⟩⟩
  have hindex : s.index = (rawShare d s.role).index := by rw [h.eq_sealedShare hs]; rfl
  rw [unwrapShare, Except.bind_eq_ok']
  constructor
  · rintro ⟨ys, hys, hret⟩
    obtain ⟨hkek, rfl⟩ := (hopen ys).1 hys
    exact ⟨hkek, (Except.ok.inj hret).symm.trans (ShamirShare.ext hindex rfl)⟩
  · rintro ⟨hkek, rfl⟩
    refine ⟨(rawShare d s.role).ys, (hopen _).2 ⟨hkek, rfl⟩, ?_⟩
    exact congrArg Except.ok (ShamirShare.ext hindex rfl)

/-- **The shares that a sealing has dealt to the chosen roles combine to its key.** -/
theorem Choice.combineShares_eq (hchosen : Choice envelope chosen) (d : SealDraws) :
    combineShares (chosen.map fun s ↦ rawShare d s.role) = .ok d.dek := by
  obtain ⟨shares, hsplit, -, hcombine⟩ := combineShares_splitSecret d.dek d.dek_ne_nil
    lockboxShareThreshold lockboxShareTotal (by decide) (by decide) (by decide) d.coefficients
  rw [splitSecret_dek] at hsplit
  obtain rfl := Except.ok.inj hsplit
  refine hcombine _ ?_ (fun share hshare ↦ ?_) ?_
  · -- shares of distinct roles are dealt at distinct indexes
    have hroles : (chosen.map fun s ↦ s.role).Nodup := hchosen.roles_nodup
    have hmap : (chosen.map fun s ↦ rawShare d s.role) =
        (chosen.map fun s ↦ s.role).map (rawShare d) := by
      rw [List.map_map]
      rfl
    rw [hmap]
    refine hroles.map fun role role' hraw ↦ roleToIndex_injective ?_
    exact congrArg ShamirShare.index hraw
  · obtain ⟨s, -, rfl⟩ := List.mem_map.1 hshare
    exact List.mem_map_of_mem (mem_lockboxShareRoles s.role)
  · rw [List.length_map]
    exact hchosen.two_le

/-- A choice releases the payload. -/
theorem Choice.releasePayload_eq (hgcm : IdealGcm gcm)
    (h : SealedAs gcm d plaintext keks aad envelope) (hchosen : Choice envelope chosen) :
    releasePayload (decrypt gcm) envelope.toAesGcmCiphertext chosen keks aad = .ok plaintext := by
  refine releasePayload_eq_ok_iff.2 ⟨hchosen.two_le, hchosen.roles_nodup, _, d.dek, ?_,
    hchosen.combineShares_eq d, ?_⟩
  · refine Except.mapM_eq_ok.2 (List.forall₂_map_right_iff.2 (List.forall₂_same.2 fun s hs ↦ ?_))
    exact (h.unwrapShare_iff hgcm (hchosen.subset hs)).2 ⟨rfl, rfl⟩
  · rw [h.ciphertext_eq]
    exact (hgcm.decrypt_ciphertextOf_iff d.dek_length).2 ⟨rfl, rfl, rfl⟩

/-- Whatever is released, with whichever shares, is the payload, and for its own data. -/
theorem SealedAs.of_releasePayload (hgcm : IdealGcm gcm)
    (h : SealedAs gcm d plaintext keks aad envelope) {shares : List WrappedShare}
    {aad' : Option Bytes} {m : Bytes}
    (hrelease : releasePayload (decrypt gcm) envelope.toAesGcmCiphertext shares keks' aad' = .ok m) :
    m = plaintext ∧ aad'.getD [] = aad.getD [] := by
  obtain ⟨-, -, _, dek, -, -, hopen⟩ := releasePayload_eq_ok_iff.1 hrelease
  rw [h.ciphertext_eq] at hopen
  obtain ⟨-, haad, hm⟩ := (hgcm.decrypt_ciphertextOf_iff d.dek_length).1 hopen
  exact ⟨hm, haad⟩

/-- With the shares of another envelope it is the other key that is rebuilt. -/
theorem Choice.dek_eq_of_releasePayload (hgcm : IdealGcm gcm)
    (h : SealedAs gcm d plaintext keks aad envelope) {d' : SealDraws} {plaintext' : Bytes}
    {aad' aad'' : Option Bytes} {envelope' : SealedEnvelope} {m : Bytes}
    (h' : SealedAs gcm d' plaintext' keks' aad' envelope') (hchosen : Choice envelope' chosen)
    (hrelease : releasePayload (decrypt gcm) envelope.toAesGcmCiphertext chosen keks aad'' = .ok m) :
    d'.dek = d.dek := by
  obtain ⟨-, -, unwrapped, dek, hunwrap, hcombine, hopen⟩ := releasePayload_eq_ok_iff.1 hrelease
  -- each share unwraps to what the other sealing has dealt
  have hraw : unwrapped = chosen.map fun s ↦ rawShare d' s.role := by
    refine List.ext_getElem ?_ fun i hi hi' ↦ ?_
    · rw [List.length_map]
      exact (Except.mapM_eq_ok.1 hunwrap).length_eq.symm
    · rw [List.getElem_map]
      have hs := (Except.mapM_eq_ok.1 hunwrap).get (by rwa [List.length_map] at hi') hi
      exact ((h'.unwrapShare_iff hgcm (hchosen.subset (List.get_mem chosen _))).1 hs).2
  rw [hraw, hchosen.combineShares_eq d'] at hcombine
  rw [h.ciphertext_eq] at hopen
  exact (Except.ok.inj hcombine).trans ((hgcm.decrypt_ciphertextOf_iff d.dek_length).1 hopen).1

end

/-- **Round trip and binding of an envelope.** With an ideal cipher, and key-encryption keys of the
right length, a payload is sealed such that any choice of at least two of its shares releases exactly
the payload. With different associated data, or with shares of another sealing under its own fresh
key, a release fails; and no release at all, whatever it is given, returns other bytes. -/
theorem releasePayload_sealPayload (gcm : Gcm) (hgcm : IdealGcm gcm) (sha256 : Bytes → String)
    (d : SealDraws) (plaintext : Bytes) (keks : RoleKeks)
    (hkeks : ∀ role, (keks role).length = aesKeyBytes) (aad : Option Bytes) :
    ∃ envelope, sealPayload gcm sha256 d plaintext keks aad = .ok envelope ∧
      (∀ chosen, Choice envelope chosen →
        releasePayload (decrypt gcm) envelope.toAesGcmCiphertext chosen keks aad = .ok plaintext) ∧
      (∀ chosen aad', Choice envelope chosen → aad'.getD [] ≠ aad.getD [] →
        ∃ e, releasePayload (decrypt gcm) envelope.toAesGcmCiphertext chosen keks aad' = .error e) ∧
      (∀ d' plaintext' keks' aad' envelope',
        sealPayload gcm sha256 d' plaintext' keks' aad' = .ok envelope' → d'.dek ≠ d.dek →
          ∀ chosen aad'', Choice envelope' chosen →
            ∃ e, releasePayload (decrypt gcm) envelope.toAesGcmCiphertext chosen keks aad'' =
              .error e) ∧
      ∀ shares keks' aad' m,
        releasePayload (decrypt gcm) envelope.toAesGcmCiphertext shares keks' aad' = .ok m →
          m = plaintext := by
  obtain ⟨envelope, hsealed⟩ := exists_sealPayload gcm sha256 d plaintext hkeks aad
  have h := sealPayload_eq_ok hsealed
  refine ⟨envelope, hsealed, fun chosen hchosen ↦ hchosen.releasePayload_eq hgcm h,
    fun chosen aad' _ haad ↦ ?_, fun d' plaintext' keks' aad' envelope' hsealed' hdek chosen aad''
      hchosen ↦ ?_, fun shares keks' aad' m hrelease ↦ (h.of_releasePayload hgcm hrelease).1⟩
  · exact Except.exists_eq_error fun m hrelease ↦ haad (h.of_releasePayload hgcm hrelease).2
  · exact Except.exists_eq_error fun m hrelease ↦
      hdek (hchosen.dek_eq_of_releasePayload hgcm h (sealPayload_eq_ok hsealed') hrelease)

namespace Sample

/-! An ideal cipher that answers as AES-256-GCM does, on two sealings. -/

/-- A byte string that tells where it ends. -/
def frame : Bytes → Bytes
  | [] => [0]
  | b :: x => 1 :: b :: frame x

theorem frame_append_inj {x y r s : Bytes} (h : frame x ++ r = frame y ++ s) : x = y ∧ r = s := by
  induction x generalizing y with
  | nil =>
    cases y with
    | nil => exact ⟨rfl, (List.cons.inj h).2⟩
    | cons b y => exact absurd (List.cons.inj h).1 (by decide)
  | cons a x ih =>
    cases y with
    | nil => exact absurd (List.cons.inj h).1 (by decide)
    | cons b y =>
      obtain ⟨rfl, hrest⟩ := List.cons.inj (List.cons.inj h).2
      obtain ⟨rfl, rfl⟩ := ih hrest
      exact ⟨rfl, rfl⟩

def header (key iv aad : Bytes) : Bytes := frame key ++ frame iv ++ frame aad

/-- A ciphertext that carries its key, IV and data in front of the message. -/
def framed : Gcm where
  encrypt key iv aad m := (header key iv aad ++ m, List.replicate gcmAuthTagBytes 0)
  decrypt key iv aad c :=
    if header key iv aad <+: c.1 then some (c.1.drop (header key iv aad).length) else none

theorem framed_ideal : framed.Ideal where
  decrypt_encrypt key iv aad m := by
    show (if header key iv aad <+: header key iv aad ++ m then _ else none) = _
    rw [if_pos (List.prefix_append _ _)]
    exact congrArg some List.drop_left
  binds := by
    intro key iv aad m key' aad' m' h
    replace h : (if header key' iv aad' <+: header key iv aad ++ m then _ else none) = some m' := h
    split_ifs at h with hprefix
    obtain ⟨r, hr⟩ := hprefix
    simp only [header, List.append_assoc] at hr
    obtain ⟨rfl, hrest⟩ := frame_append_inj hr
    obtain ⟨rfl, -⟩ := frame_append_inj (frame_append_inj hrest).2
    exact ⟨rfl, rfl⟩

/-- The bytes of a number, the most significant first. -/
def bytesOf (length n : ℕ) : Bytes :=
  (List.range length).map fun i ↦ UInt8.ofNat (n >>> (8 * (length - 1 - i)))

/-- `length` times the same byte. -/
def fill (length : ℕ) (b : UInt8) : Bytes := List.replicate length b

def label : Bytes := [0x6c, 0x62, 0x31]

def payload : Bytes := [0x68, 0x69]

def otherPayload : Bytes := [0x6e, 0x6f]

/-- The answers of AES-256-GCM, for the payload and the three shares of each sealing. -/
def vectors : List (Aead.Vector Bytes Bytes Bytes Bytes (Bytes × Bytes)) :=
  [⟨fill 32 7, fill 12 10, label, payload,
      (bytesOf 2 0x5df7, bytesOf 16 0x35e7df357385b7804a12d5edd1ad845a)⟩,
   ⟨fill 32 1, fill 12 11, [], fill 32 2,
      (bytesOf 32 0xbf20d16b2b0ae11ac3467f7b636eb5448df6a1dca99f49bde17f09fb8960cfb3,
        bytesOf 16 0x89c2ba6647d50b0590d83bb9548e1033)⟩,
   ⟨fill 32 2, fill 12 12, [], fill 32 13,
      (bytesOf 32 0xf90398f90c12322744d27748367beb732f01877c477ed250cf406718ba04e514,
        bytesOf 16 0xb60d82af665c0ed5ffd18b2e4fff046d)⟩,
   ⟨fill 32 3, fill 12 13, [], fill 32 8,
      (bytesOf 32 0x51f67307644507b2ff7fae93f0bac442caa79b94a7bbdc4fa9353f89bec25812,
        bytesOf 16 0x26232300a19938ffa9c9af7cedf57361)⟩,
   ⟨fill 32 9, fill 12 26, label, otherPayload,
      (bytesOf 2 0xc873, bytesOf 16 0xdb075447e627a991d9be57f0e129c178)⟩,
   ⟨fill 32 1, fill 12 27, [], fill 32 13,
      (bytesOf 32 0x64335038c0425e6dfc5bceeeff1eb2597a049e791b244099d6aa371a3df6f9df,
        bytesOf 16 0x045d95ca22eb29e48c02174d427e9cdb)⟩,
   ⟨fill 32 2, fill 12 28, [], fill 32 1,
      (bytesOf 32 0x15e10ea1599849b9ca1809ca151c318ec694f9c49e55e7fa4330c13dbd12ad92,
        bytesOf 16 0xbc3215e016a97ea10a19a43bac1a2af2)⟩,
   ⟨fill 32 3, fill 12 29, [], fill 32 5,
      (bytesOf 32 0x6e9aeba2466b488ffa0d873601594ff5ea9b93736f4a76388eaeb7e025033b85,
        bytesOf 16 0x488c9f96c4c45748e80c1f33bc4089ff)⟩]

def gcm : Gcm := framed.withVectors vectors

theorem gcm_ideal : IdealGcm gcm where
  ideal := by
    refine framed_ideal.withVectors (by decide +kernel) fun v hv key iv aad m h ↦ ?_
    -- no vector has a tag of zeros
    have htag : v.cipher.2 = List.replicate gcmAuthTagBytes 0 := congrArg Prod.snd h.symm
    exact absurd htag ((by decide +kernel : ∀ v ∈ vectors,
      v.cipher.2 ≠ List.replicate gcmAuthTagBytes 0) v hv)
  tag_length key iv aad m := by
    rcases Aead.withVectors_encrypt_cases framed vectors key iv aad m with
      ⟨v, hv, -, -, -, -, hcipher⟩ | hcipher
    · rw [gcm, hcipher]
      exact (by decide +kernel : ∀ v ∈ vectors, v.cipher.2.length = gcmAuthTagBytes) v hv
    · rw [gcm, hcipher]
      exact List.length_replicate

def keks : RoleKeks
  | .sealer => fill 32 1
  | .operator => fill 32 2
  | .escrow => fill 32 3

/-- A sealing that draws constant bytes. -/
def constantDraws (dek coefficient iv sealerIv operatorIv escrowIv : UInt8) : SealDraws where
  dek := fill 32 dek
  dek_length := List.length_replicate
  iv := ⟨fill 12 iv, List.length_replicate⟩
  coefficients := fun _ _ ↦ coefficient
  shareIv
    | .sealer => ⟨fill 12 sealerIv, List.length_replicate⟩
    | .operator => ⟨fill 12 operatorIv, List.length_replicate⟩
    | .escrow => ⟨fill 12 escrowIv, List.length_replicate⟩

def sealing : SealDraws := constantDraws 7 5 10 11 12 13

def otherSealing : SealDraws := constantDraws 9 4 26 27 28 29

/-- The envelope of `payload` is released by its escrow and sealer shares, but not for another label,
and not by the shares of the other envelope. -/
theorem releasePayload_sealPayload_payload :
    ∃ envelope otherEnvelope,
      sealPayload gcm (fun _ ↦ "") sealing payload keks (some label) = .ok envelope ∧
      sealPayload gcm (fun _ ↦ "") otherSealing otherPayload keks (some label) = .ok otherEnvelope ∧
      envelope.ciphertext = bytesOf 2 0x5df7 ∧
      releasePayload (decrypt gcm) envelope.toAesGcmCiphertext
        [sealedShare gcm sealing keks .escrow, sealedShare gcm sealing keks .sealer] keks
        (some label) = .ok payload ∧
      (∃ e, releasePayload (decrypt gcm) envelope.toAesGcmCiphertext
        [sealedShare gcm sealing keks .escrow, sealedShare gcm sealing keks .sealer] keks
        none = .error e) ∧
      ∃ e, releasePayload (decrypt gcm) envelope.toAesGcmCiphertext
        [sealedShare gcm otherSealing keks .operator, sealedShare gcm otherSealing keks .sealer] keks
        (some label) = .error e := by
  have hkeks : ∀ role, (keks role).length = aesKeyBytes := fun role ↦ by cases role <;> rfl
  obtain ⟨envelope, hsealed, hrelease, hdata, hother, -⟩ := releasePayload_sealPayload gcm gcm_ideal
    (fun _ ↦ "") sealing payload keks hkeks (some label)
  obtain ⟨otherEnvelope, hotherSealed⟩ :=
    exists_sealPayload gcm (fun _ ↦ "") otherSealing otherPayload hkeks (some label)
  have hshares := (sealPayload_eq_ok hsealed).shares_eq
  have hotherShares := (sealPayload_eq_ok hotherSealed).shares_eq
  have hchosen : Choice envelope
      [sealedShare gcm sealing keks .escrow, sealedShare gcm sealing keks .sealer] := by
    refine ⟨le_rfl, by decide, ?_⟩
    rw [hshares]
    simp [lockboxShareRoles]
  have hotherChosen : Choice otherEnvelope
      [sealedShare gcm otherSealing keks .operator, sealedShare gcm otherSealing keks .sealer] := by
    refine ⟨le_rfl, by decide, ?_⟩
    rw [hotherShares]
    simp [lockboxShareRoles]
  have hciphertext : envelope.ciphertext = bytesOf 2 0x5df7 :=
    (congrArg AesGcmCiphertext.ciphertext (sealPayload_eq_ok hsealed).ciphertext_eq).trans
      (by decide +kernel)
  exact ⟨envelope, otherEnvelope, hsealed, hotherSealed, hciphertext, hrelease _ hchosen,
    hdata _ none hchosen (by decide),
    hother otherSealing otherPayload keks (some label) otherEnvelope hotherSealed (by decide) _
      (some label) hotherChosen⟩

end Sample

end TolPlatform.Crypto
