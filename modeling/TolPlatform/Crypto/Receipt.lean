import TolPlatform.Crypto.CanonicalJson
import TolPlatform.Crypto.Sealing

/-!
# Receipts

`signReceipt` and `verifyReceipt` of `packages/crypto/src/receipt.ts` around the platform's HMAC-SHA256.
The payload is any value, as `canonicalJson` takes it: the receipt of a lockbox is one object
(`LockboxReceiptPayload.toValue`), and a payload that comes unchecked may be anything else.

A signature verifies when it is the digest of the payload's text, in digits of either case
(`verifyReceipt_eq_true_iff`). So a signature of one payload verifies another exactly when their texts
have one digest, and without a collision of these two when the payloads are equal up to the order of keys.
A signature that holds half of a surrogate pair is refused as any other that is not hexadecimal.
-/

namespace TolPlatform.Crypto

/-- The length of a SHA-256 digest. -/
def sha256Bytes : ℕ := 32

/-- `createHmac("sha256", key).update(message).digest()`. -/
abbrev Hmac : Type := Bytes → Bytes → { digest : Bytes // digest.length = sha256Bytes }

/-- What is hashed. -/
def message (payload : Value) : Bytes := utf8 (canonicalJson payload)

def signReceipt (hmac : Hmac) (payload : Value) (hmacKey : Bytes) : List Char :=
  toHex (hmac hmacKey (message payload))

def timingSafeEqual (a b : Bytes) : Except String Bool :=
  if a.length ≠ b.length then .error "Input buffers must have the same byte length" else .ok (a = b)

def verifyReceipt (hmac : Hmac) (payload : Value) (signature : List Char) (hmacKey : Bytes) : Bool :=
  -- what the source guards by `try`
  let body : Except String Bool :=
    let expected := signReceipt hmac payload hmacKey
    let expectedBuf := bufferFromHex expected
    if ¬ signature.all (fun c ↦ (hexValue? c).isSome) ∨ signature.length % 2 ≠ 0 then .ok false
    else
      let actualBuf := bufferFromHex signature
      if actualBuf.length ≠ expectedBuf.length then .ok false
      else timingSafeEqual expectedBuf actualBuf
  match body with
  | .ok equal => equal
  | .error _ => false

@[ext] structure LockboxReceiptPayload where
  lockboxId : Text
  /-- SHA-256 of the ciphertext, hex. -/
  ciphertextHash : Text
  sealerOrgId : Text
  /-- ISO 8601. -/
  sealedAt : Text
  state : Text

/-- The code units of a text in the source. -/
def text (s : String) : Text := s.toList.flatMap fun c ↦ (CodePoint.char c).units

def LockboxReceiptPayload.fields (p : LockboxReceiptPayload) : Fin 5 → Text :=
  ![p.lockboxId, p.ciphertextHash, p.sealerOrgId, p.sealedAt, p.state]

def LockboxReceiptPayload.toValue (p : LockboxReceiptPayload) : Value :=
  .object (["lockboxId", "ciphertextHash", "sealerOrgId", "sealedAt", "state"].map text) (by decide)
    fun i : Fin 5 ↦ .string (p.fields i)

variable {hmac : Hmac} {hmacKey a b : Bytes} {payload : Value}

theorem timingSafeEqual_eq_ok (h : a.length = b.length) : timingSafeEqual a b = .ok (a = b) :=
  if_neg (not_not.2 h)

/-- **What verifies**: digits of the payload's digest. -/
theorem verifyReceipt_eq_true_iff {signature : List Char} :
    verifyReceipt hmac payload signature hmacKey = true ↔
      signature.all (fun c ↦ (hexValue? c).isSome) ∧ signature.length % 2 = 0 ∧
        bufferFromHex signature = hmac hmacKey (message payload) := by
  have hexpected : bufferFromHex (signReceipt hmac payload hmacKey) =
      hmac hmacKey (message payload) := bufferFromHex_toHex _
  simp only [verifyReceipt, hexpected]
  split_ifs with hhex hlength
  · refine iff_of_false id fun h ↦ ?_
    exact hhex.elim (fun hnot ↦ hnot h.1) fun hnot ↦ hnot h.2.1
  · refine iff_of_false id fun h ↦ ?_
    exact hlength (congrArg List.length h.2.2)
  · obtain ⟨hdigits, heven⟩ := not_or.1 hhex
    rw [timingSafeEqual_eq_ok (not_not.1 hlength).symm]
    show decide _ = true ↔ _
    rw [decide_eq_true_iff, eq_comm]
    exact ⟨fun h ↦ ⟨not_not.1 hdigits, not_not.1 heven, h⟩, fun h ↦ h.2.2⟩

theorem verifyReceipt_signReceipt {payload' : Value} :
    verifyReceipt hmac payload (signReceipt hmac payload' hmacKey) hmacKey = true ↔
      hmac hmacKey (message payload') = hmac hmacKey (message payload) := by
  rw [verifyReceipt_eq_true_iff, signReceipt, bufferFromHex_toHex, length_toHex, ← Subtype.ext_iff]
  exact ⟨fun h ↦ h.2.2, fun h ↦ ⟨List.all_eq_true.2 isSome_hexValue?_toHex, Nat.mul_mod_right _ _, h⟩⟩

/-- Two messages are one when their payloads have one text. -/
theorem message_eq_iff {payload' : Value} :
    message payload = message payload' ↔ canonicalJson payload = canonicalJson payload' :=
  utf8_injective.eq_iff

/-- Without a collision, what verifies is the text that was signed. -/
theorem verifyReceipt_signReceipt_of_injOn {payload' : Value}
    (h : Set.InjOn (hmac hmacKey) {message payload, message payload'}) :
    verifyReceipt hmac payload (signReceipt hmac payload' hmacKey) hmacKey = true ↔
      canonicalJson payload = canonicalJson payload' := by
  rw [verifyReceipt_signReceipt, h.eq_iff (.inr rfl) (.inl rfl), message_eq_iff, eq_comm]

/-- **A receipt identifies its payload.** Two JSON values have one text exactly when they are equal up to
the order of object keys; and then only, unless HMAC maps the two texts to one digest, a signature of the
one verifies the other. -/
theorem verifyReceipt_signReceipt_iff {a b : Value} (ha : a.IsJson) (hb : b.IsJson) :
    (canonicalJson a = canonicalJson b ↔ a.EqualUpToKeyOrder b) ∧
      ∀ (hmac : Hmac) (hmacKey : Bytes), Set.InjOn (hmac hmacKey) {message a, message b} →
        (verifyReceipt hmac a (signReceipt hmac b hmacKey) hmacKey = true ↔ a.EqualUpToKeyOrder b) :=
  ⟨canonicalJson_eq_iff ha hb, fun _ _ hinj ↦
    (verifyReceipt_signReceipt_of_injOn hinj).trans (canonicalJson_eq_iff ha hb)⟩

namespace Sample

/-- `state` and `versions`, in this order. -/
def versioned (state : String) : Value :=
  .object [text "state", text "versions"] (by decide)
    ![.string (text state), .array ![.number (toNumber 1), .null]]

/-- The same object with its keys the other way round. -/
def reversed (state : String) : Value :=
  .object [text "versions", text "state"] (by decide)
    ![.array ![.number (toNumber 1), .null], .string (text state)]

def receiptKey : Bytes := fill 32 7

/-- The digests of HMAC-SHA256 under `receiptKey` for two payloads. -/
def receiptHmac : Hmac := fun key m ↦
  if key = receiptKey ∧ m = message (versioned "SEALED") then
    ⟨bytesOf 32 0x5a471a02aa44f7794714259d9da2ad2e022dce8dbdf0c4bdf78687b06762538e,
      List.length_map _ |>.trans List.length_range⟩
  else if key = receiptKey ∧ m = message (versioned "OPENED") then
    ⟨bytesOf 32 0x990972acebe29cd51e312ad6e90d642c7cd6947b5da539f5a983f5a8b23b8b8f,
      List.length_map _ |>.trans List.length_range⟩
  else ⟨fill 32 0, List.length_replicate⟩

theorem isJson_versioned (state : String) : (versioned state).IsJson :=
  Fin.forall_fin_two.2 ⟨trivial, Fin.forall_fin_two.2 ⟨⟨_, toNumber_eq_ofInt (by decide)⟩, trivial⟩⟩

theorem isJson_reversed (state : String) : (reversed state).IsJson :=
  Fin.forall_fin_two.2 ⟨Fin.forall_fin_two.2 ⟨⟨_, toNumber_eq_ofInt (by decide)⟩, trivial⟩, trivial⟩

/-- A signature verifies its payload with the keys in another order, but not in another state. -/
theorem verifyReceipt_signReceipt_versioned :
    verifyReceipt receiptHmac (reversed "SEALED")
        (signReceipt receiptHmac (versioned "SEALED") receiptKey) receiptKey = true ∧
      verifyReceipt receiptHmac (versioned "OPENED")
        (signReceipt receiptHmac (versioned "SEALED") receiptKey) receiptKey ≠ true := by
  have htext : canonicalJson (reversed "SEALED") = canonicalJson (versioned "SEALED") := by
    decide +kernel
  have hopened : canonicalJson (versioned "OPENED") ≠ canonicalJson (versioned "SEALED") := by
    decide +kernel
  have hdigest : receiptHmac receiptKey (message (versioned "OPENED")) ≠
      receiptHmac receiptKey (message (versioned "SEALED")) := by decide +kernel
  obtain ⟨heq, hverify⟩ := verifyReceipt_signReceipt_iff (isJson_reversed "SEALED")
    (isJson_versioned "SEALED")
  obtain ⟨hne, hverify'⟩ := verifyReceipt_signReceipt_iff (isJson_versioned "OPENED")
    (isJson_versioned "SEALED")
  refine ⟨(hverify receiptHmac receiptKey ?_).2 (heq.1 htext), fun h ↦ hopened (hne.2 ?_)⟩
  · exact Set.injOn_pair.2 fun _ ↦ message_eq_iff.2 htext
  · exact (hverify' receiptHmac receiptKey (Set.injOn_pair.2 fun h ↦ absurd h hdigest)).1 h

end Sample

/-! ### The receipt of a lockbox -/

namespace LockboxReceiptPayload

theorem isJson_toValue (p : LockboxReceiptPayload) : p.toValue.IsJson := fun _ ↦ trivial

/-- Two payloads that are equal as objects agree in every field. -/
theorem equalUpToKeyOrder_toValue_iff {p q : LockboxReceiptPayload} :
    p.toValue.EqualUpToKeyOrder q.toValue ↔ p = q := by
  refine ⟨fun h ↦ ?_, fun h ↦ h ▸ .refl _⟩
  have hvalues := (Value.equalUpToKeyOrder_object_iff.1 h).2
  have hfields : ∀ i, p.fields i = q.fields i := fun i ↦
    Value.equalUpToKeyOrder_string_iff.1 (hvalues i i rfl)
  exact LockboxReceiptPayload.ext (hfields 0) (hfields 1) (hfields 2) (hfields 3) (hfields 4)

/-- **A signature of one receipt verifies no other.** -/
theorem verifyReceipt_iff_eq {p q : LockboxReceiptPayload}
    (h : Set.InjOn (hmac hmacKey) {message p.toValue, message q.toValue}) :
    verifyReceipt hmac p.toValue (signReceipt hmac q.toValue hmacKey) hmacKey = true ↔ p = q := by
  rw [verifyReceipt_signReceipt_of_injOn h, canonicalJson_eq_iff p.isJson_toValue q.isJson_toValue,
    equalUpToKeyOrder_toValue_iff]

end LockboxReceiptPayload

end TolPlatform.Crypto
