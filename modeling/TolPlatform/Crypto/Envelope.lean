import TolPlatform.Crypto.Shamir

/-!
# Releasing an envelope

`releasePayload` of `packages/crypto/src/envelope.ts`: unwrap each share under the key of its role,
combine the shares, decrypt the payload. AES-256-GCM is the platform's own and is a parameter: the
function that verifies and decrypts.
-/

namespace TolPlatform.Crypto

abbrev Bytes : Type := List UInt8

/-- `LOCKBOX_SHARE_ROLES`. -/
inductive LockboxShareRole
  | sealer | operator | escrow
  deriving DecidableEq, Repr

instance : ToString LockboxShareRole where
  toString
    | .sealer => "SEALER"
    | .operator => "OPERATOR"
    | .escrow => "ESCROW"

structure AesGcmCiphertext where
  iv : Bytes
  ciphertext : Bytes
  authTag : Bytes
  deriving DecidableEq, Repr

structure WrappedShare where
  role : LockboxShareRole
  index : ℤ
  wrapped : AesGcmCiphertext
  deriving DecidableEq, Repr

/-- The key-encryption key of each role. -/
abbrev RoleKeks : Type := LockboxShareRole → Bytes

inductive EnvelopeError
  | shamir (e : ShamirError)
  | tamperOrWrongKey
  deriving DecidableEq, Repr

/-- `LOCKBOX_SHARE_THRESHOLD`. -/
def lockboxShareThreshold : ℕ := 2

/-- `LOCKBOX_SHARE_TOTAL`. -/
def lockboxShareTotal : ℕ := 3

/-- Verify and decrypt, under a key and perhaps additional authenticated data. -/
abbrev Decrypt : Type := AesGcmCiphertext → Bytes → Option Bytes → Except EnvelopeError Bytes

def unwrapShare (decrypt : Decrypt) (keks : RoleKeks) (s : WrappedShare) :
    Except EnvelopeError ShamirShare := do
  let ys ← decrypt s.wrapped (keks s.role) none
  return ⟨s.index, ys⟩

def releasePayload (decrypt : Decrypt) (envelope : AesGcmCiphertext)
    (wrappedShares : List WrappedShare) (keks : RoleKeks) (aad : Option Bytes) :
    Except EnvelopeError Bytes :=
  if wrappedShares.length < lockboxShareThreshold then
    .error (.shamir (.insufficientShares s!"releasePayload: need at least {lockboxShareThreshold} shares, got {wrappedShares.length}"))
  else if (wrappedShares.map (·.role)).dedup.length < wrappedShares.length then
    .error (.shamir (.insufficientShares "releasePayload: duplicate share roles supplied"))
  else do
    let unwrapped ← wrappedShares.mapM (unwrapShare decrypt keks)
    let dek ← (combineShares unwrapped).mapError .shamir
    decrypt envelope dek aad

end TolPlatform.Crypto
