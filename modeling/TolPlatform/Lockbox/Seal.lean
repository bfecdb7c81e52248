import TolPlatform.Crypto.Keys
import TolPlatform.Crypto.Receipt
import TolPlatform.Library.Extension
import TolPlatform.Lockbox.Payload

/-!
# Sealing a lockbox

`seal` and `getReceipt` of `apps/api/src/modules/lockbox/service.ts`, and with `withdraw` and `release` all
calls that write a lockbox: the vault. Sealing draws an id, encrypts the payload under a key of its own with
the id as associated data, splits that key among the three roles, signs a receipt, and writes all of it in
one transaction. The configured keys, AES-GCM, HMAC-SHA256 and SHA-256 are what they are in
`packages/crypto`; here a release reads the keys and the payload through the functions that the sealing
used.

The tables are those of `Db`. The columns that neither `withdraw` nor `release` reads or writes stand beside
them, by the id of their row. Left out are the columns that always hold a constant here (`threshold`,
`keyVersion`, `privacyClass`, …) and the ids of the key shares.
-/

namespace TolPlatform.Lockboxes

open Crypto (Bytes RoleKeks SealDraws SealedEnvelope EnvelopeError)

/-! ### Tables -/

inductive LockboxRelationshipType
  | acquirerRelationship | processorRelationship | pspRelationship | merchantRelationship
  | bankingRelationship | infrastructureRelationship | qualifiedOpportunity
  deriving DecidableEq, Repr

instance : ToString LockboxRelationshipType where
  toString
    | .acquirerRelationship => "ACQUIRER_RELATIONSHIP"
    | .processorRelationship => "PROCESSOR_RELATIONSHIP"
    | .pspRelationship => "PSP_RELATIONSHIP"
    | .merchantRelationship => "MERCHANT_RELATIONSHIP"
    | .bankingRelationship => "BANKING_RELATIONSHIP"
    | .infrastructureRelationship => "INFRASTRUCTURE_RELATIONSHIP"
    | .qualifiedOpportunity => "QUALIFIED_OPPORTUNITY"

inductive LockboxRegion
  | eu | uk | us | latam | apac | mena | global
  deriving DecidableEq, Repr

instance : ToString LockboxRegion where
  toString
    | .eu => "EU"
    | .uk => "UK"
    | .us => "US"
    | .latam => "LATAM"
    | .apac => "APAC"
    | .mena => "MENA"
    | .global => "GLOBAL"

/-- The columns of a lockbox that its sealing writes and nothing else does. -/
structure LockboxColumns where
  lockboxId : Uuid
  relationshipType : LockboxRelationshipType
  region : LockboxRegion
  metadataSummary : Option String
  aad : Bytes
  sealedAt : Instant
  createdByUserId : Uuid
  createdByOrgId : Uuid
  deriving DecidableEq, Repr

/-- The columns of a receipt beside its id, its lockbox and its version. -/
structure ReceiptColumns where
  receiptId : Uuid
  ciphertextHash : String
  sealerOrgId : Uuid
  sealedAt : Instant
  /-- Hexadecimal. -/
  signature : List Char
  algorithm : String
  deriving DecidableEq, Repr

structure Vault extends Db where
  lockboxColumns : List LockboxColumns := []
  receiptColumns : List ReceiptColumns := []
  deriving DecidableEq, Repr

namespace Vault

/-- The tables that `withdraw` and `release` work on. -/
def base : SubState Vault Db where
  get v := v.toDb
  put db v := { v with toDb := db }

def lockboxTable : Table Vault Lockbox Uuid where
  rows v := v.lockboxes
  put l v := { v with lockboxes := l }
  key := Lockbox.id

def receiptTable : Table Vault LockboxReceipt Uuid where
  rows v := v.lockboxReceipts
  put l v := { v with lockboxReceipts := l }
  key := LockboxReceipt.id

end Vault

/-! ### Requests -/

structure SealLockboxRequest where
  relationshipType : LockboxRelationshipType
  region : LockboxRegion
  metadataSummary : Option String := none
  payload : PayloadTexts
  /-- `SealLockboxRequestSchema` holds the payload's own schema. -/
  payload_admissible : payload.Admissible

/-- The keys of `getConfig()`. -/
structure KeyConfig where
  lockboxKekSealer : Option String
  lockboxKekOperator : Option String
  lockboxKekEscrow : Option String
  lockboxReceiptHmacKey : Option String

/-- What the vault takes from outside. -/
structure VaultEnv where
  hashtext : String → Int
  config : KeyConfig
  gcm : Crypto.Gcm
  hmac : Crypto.Hmac
  /-- Hexadecimal. -/
  sha256 : Bytes → String
  toISOString : Instant → String
  /-- What `toString("utf8")` shows of bytes that are no UTF-8. -/
  replaced : Bytes → List Char

structure VaultDraws extends Draws where
  sealing : SealDraws

/-- The arguments of `seal`, with what it has computed when its transaction begins. -/
structure SealCall where
  actor : Actor
  input : SealLockboxRequest
  context : RequestContext
  organizationId : Uuid
  lockboxId : Uuid
  sealed : SealedEnvelope
  sealedAt : Instant
  signature : List Char

/-! ### Before the transaction -/

def loadRoleKeks (config : KeyConfig) : Except Thrown RoleKeks := do
  let sealer ← Crypto.parseKeyHex config.lockboxKekSealer "LOCKBOX_KEK_SEALER"
  let operator ← Crypto.parseKeyHex config.lockboxKekOperator "LOCKBOX_KEK_OPERATOR"
  let escrow ← Crypto.parseKeyHex config.lockboxKekEscrow "LOCKBOX_KEK_ESCROW"
  return fun
    | .sealer => sealer
    | .operator => operator
    | .escrow => escrow

def loadReceiptHmacKey (config : KeyConfig) : Except Thrown Bytes :=
  Crypto.parseKeyHex config.lockboxReceiptHmacKey "LOCKBOX_RECEIPT_HMAC_KEY"

def lockboxAad (lockboxId : Uuid) : Bytes := utf8 lockboxId.toList

/-- An error of `packages/crypto`, which `seal` lets through. -/
def ofEnvelopeError : EnvelopeError → Thrown
  | .shamir (.rangeError message) => .rangeError message
  | .shamir (.insufficientShares message) => .error message
  | .tamperOrWrongKey =>
    .error "AES-GCM authentication failed — ciphertext/IV/authTag mismatch or wrong key"

def receiptPayload (toISOString : Instant → String) (lockboxId : Uuid) (ciphertextHash : String)
    (sealerOrgId : Uuid) (sealedAt : Instant) : Crypto.LockboxReceiptPayload where
  lockboxId := codeUnits lockboxId
  ciphertextHash := codeUnits ciphertextHash
  sealerOrgId := codeUnits sealerOrgId
  sealedAt := codeUnits (toISOString sealedAt)
  state := codeUnits "SEALED"

def prepareSeal (env : VaultEnv) (d : VaultDraws) (actor : Actor) (input : SealLockboxRequest)
    (context : RequestContext) : Except Thrown SealCall := do
  let organizationId ← orThrow actor.organizationId (forbidden "No active organization membership.")
  requireAllowed (can actor .lockboxSeal ⟨.lockbox, some organizationId⟩)
  let lockboxId := d.ids 0
  let keks ← loadRoleKeks env.config
  let plaintext := serializePayload input.payload
  let sealed ← (Crypto.sealPayload env.gcm env.sha256 d.sealing plaintext keks
    (some (lockboxAad lockboxId))).mapError ofEnvelopeError
  let payload := receiptPayload env.toISOString lockboxId sealed.ciphertextHash organizationId d.now
  let hmacKey ← loadReceiptHmacKey env.config
  return { actor, input, context, organizationId, lockboxId, sealed, sealedAt := d.now,
           signature := Crypto.signReceipt env.hmac payload.toValue hmacKey }

/-! ### The transaction -/

/-- The row that is created. -/
def SealCall.row (call : SealCall) : Lockbox where
  id := call.lockboxId
  sealerOrgId := call.organizationId
  status := .sealed
  envelope := call.sealed.toAesGcmCiphertext
  ciphertextHash := call.sealed.ciphertextHash

def SealCall.columns (call : SealCall) : LockboxColumns where
  lockboxId := call.lockboxId
  relationshipType := call.input.relationshipType
  region := call.input.region
  metadataSummary := call.input.metadataSummary
  aad := lockboxAad call.lockboxId
  sealedAt := call.sealedAt
  createdByUserId := call.actor.userId
  createdByOrgId := call.organizationId

def SealCall.shareRows (call : SealCall) : List LockboxKeyShare :=
  call.sealed.shares.map fun share ↦
    { lockboxId := call.lockboxId, holderRole := share.role, shareIndex := share.index,
      wrapped := some share.wrapped }

def SealCall.receipt (call : SealCall) (id : Uuid) : LockboxReceipt where
  id := id
  lockboxId := call.lockboxId
  version := 1

def SealCall.receiptColumns (call : SealCall) (id : Uuid) : ReceiptColumns where
  receiptId := id
  ciphertextHash := call.sealed.ciphertextHash
  sealerOrgId := call.organizationId
  sealedAt := call.sealedAt
  signature := call.signature
  algorithm := "HMAC-SHA256"

def shareKey (share : LockboxKeyShare) : Uuid × Crypto.LockboxShareRole :=
  (share.lockboxId, share.holderRole)

/-- One share of each role for a lockbox: `@@unique([lockboxId, holderRole])`. -/
def createMany (rows : List LockboxKeyShare) : Tx Vault Thrown PUnit := do
  let v ← get
  Tx.check (throwIf (¬ ((v.lockboxKeyShares ++ rows).map shareKey).Nodup) .uniqueViolation)
  modify fun v : Vault ↦ { v with lockboxKeyShares := v.lockboxKeyShares ++ rows }

def sealTrails (call : SealCall) (t : Trails) : Trails :=
  (t.audit call.actor call.context (some call.organizationId) "lockbox.sealed" "lockbox"
    call.lockboxId
    [("relationshipType", .string (toString call.input.relationshipType)),
     ("region", .string (toString call.input.region)),
     ("ciphertextHash", .string call.sealed.ciphertextHash),
     ("metadataSummary", orNull call.input.metadataSummary)]).timeline call.actor call.context
    "lockbox.sealed" "lockbox" call.lockboxId
    [("sealerOrgId", .string call.organizationId),
     ("relationshipType", .string (toString call.input.relationshipType)),
     ("region", .string (toString call.input.region)),
     ("ciphertextHash", .string call.sealed.ciphertextHash)]

def sealTx (d : Draws) (call : SealCall) : Tx Vault Thrown Lockbox := do
  let lockbox ← Vault.lockboxTable.insert .uniqueViolation call.row
  modify fun v : Vault ↦ { v with lockboxColumns := v.lockboxColumns ++ [call.columns] }
  createMany call.shareRows
  let receipt ← Vault.receiptTable.insert .uniqueViolation (call.receipt (d.ids 0))
  modify fun v : Vault ↦
    { v with receiptColumns := v.receiptColumns ++ [call.receiptColumns receipt.id] }
  modify fun v : Vault ↦ { v with trails := sealTrails call v.trails }
  return lockbox

/-! ### Reading a receipt -/

/-- The latest version, with all of its columns. -/
def Vault.findLatestReceipt (v : Vault) (lockboxId : Uuid) :
    Option (LockboxReceipt × ReceiptColumns) := do
  let receipt ← LockboxReceiptRepository.findLatestByLockbox v.toDb lockboxId
  let columns ← v.receiptColumns.find? (·.receiptId = receipt.id)
  return (receipt, columns)

def getById (v : Vault) (actor : Actor) (lockboxId : Uuid) : Except Thrown Lockbox := do
  let box ← loadLockbox v.toDb lockboxId
  requireAllowed (can actor .lockboxReadReceipt ⟨.lockbox, some box.sealerOrgId⟩)
  return box

def getReceipt (v : Vault) (actor : Actor) (lockboxId : Uuid) :
    Except Thrown (LockboxReceipt × ReceiptColumns) := do
  let box ← loadLockbox v.toDb lockboxId
  requireAllowed (can actor .lockboxReadReceipt ⟨.lockbox, some box.sealerOrgId⟩)
  orThrow (v.findLatestReceipt lockboxId)
    (internal "Lockbox has no receipt on record — this should never happen for a sealed lockbox.")

/-! ### Calls -/

/-- What a release reads of the configuration and of a plaintext. -/
def VaultEnv.toEnv (env : VaultEnv) : Env where
  hashtext := env.hashtext
  utf8 := lockboxAad
  roleKeks := loadRoleKeks env.config
  decrypt := Crypto.decrypt env.gcm
  parsePayload plaintext := (deserializePayload env.replaced plaintext).map PayloadTexts.shown

/-- How far a call has got. -/
inductive VaultLocal
  | calledSeal (actor : Actor) (context : RequestContext) (input : SealLockboxRequest)
  | sealing (call : SealCall)
  | sealed (call : SealCall) (box : Lockbox)
  /-- A withdrawal or a release; and where a sealing that threw or crashed ends. -/
  | other (l : Local)

def vaultCalls (env : VaultEnv) : CallSystem Vault Thrown Int VaultDraws VaultLocal where
  next d
    | .calledSeal actor context input => .query fun _ ↦ do
      let call ← prepareSeal env d actor input context
      return .sealing call
    | .sealing call => .commit (VaultLocal.sealed call <$> sealTx d.toDraws call)
    | .sealed _ _ => .stop
    | .other l => ((calls env.toEnv).next d.toDraws l).zoom Vault.base .other
  ended
    | .sealed _ _ => true
    | .other l => (calls env.toEnv).ended l
    | .calledSeal _ _ _ | .sealing _ => false
  failed e := .other (.threw e)
  crashed := .other .crashed

/-! ### What a sealing has computed -/

/-- A call that `prepareSeal` returns. -/
structure SealCall.Prepared (env : VaultEnv) (call : SealCall) : Prop where
  organization : call.actor.organizationId = some call.organizationId
  sealed : ∃ d keks, loadRoleKeks env.config = .ok keks ∧
    Crypto.SealedAs env.gcm d (serializePayload call.input.payload) keks
      (some (lockboxAad call.lockboxId)) call.sealed
  hash : call.sealed.ciphertextHash = env.sha256 call.sealed.ciphertext
  signature : ∃ hmacKey, loadReceiptHmacKey env.config = .ok hmacKey ∧
    call.signature = Crypto.signReceipt env.hmac (receiptPayload env.toISOString call.lockboxId
      call.sealed.ciphertextHash call.organizationId call.sealedAt).toValue hmacKey

section

variable {env : VaultEnv} {d : VaultDraws} {actor : Actor} {input : SealLockboxRequest}
  {context : RequestContext} {call : SealCall}

theorem ciphertextHash_of_sealPayload {gcm : Crypto.Gcm} {sha256 : Bytes → String} {d : SealDraws}
    {plaintext : Bytes} {keks : RoleKeks} {aad : Option Bytes} {sealed : SealedEnvelope}
    (h : Crypto.sealPayload gcm sha256 d plaintext keks aad = .ok sealed) :
    sealed.ciphertextHash = sha256 sealed.ciphertext := by
  obtain ⟨envelope, -, h⟩ := Except.bind_eq_ok'.1 h
  obtain ⟨_, -, h⟩ := Except.bind_eq_ok'.1 h
  obtain ⟨_, -, h⟩ := Except.bind_eq_ok'.1 h
  obtain rfl := Except.ok.inj h
  rfl

theorem prepareSeal_eq_ok (h : prepareSeal env d actor input context = .ok call) :
    call.Prepared env ∧ call.actor = actor ∧ call.input = input ∧ call.lockboxId = d.ids 0 := by
  obtain ⟨organizationId, horg, h⟩ := Except.bind_eq_ok'.1 h
  obtain ⟨_, -, h⟩ := Except.bind_eq_ok'.1 h
  obtain ⟨keks, hkeks, h⟩ := Except.bind_eq_ok'.1 h
  obtain ⟨sealed, hsealed, h⟩ := Except.bind_eq_ok'.1 h
  obtain ⟨hmacKey, hkey, h⟩ := Except.bind_eq_ok'.1 h
  obtain rfl := Except.ok.inj h
  have hsealed' := Except.mapError_eq_ok.1 hsealed
  exact ⟨⟨orThrow_eq_ok_iff.1 horg, ⟨d.sealing, keks, hkeks, Crypto.sealPayload_eq_ok hsealed'⟩,
    ciphertextHash_of_sealPayload hsealed', hmacKey, hkey, rfl⟩, rfl, rfl, rfl⟩

end

/-! ### What its transaction writes -/

/-- The vault with the rows of a sealing. -/
def Vault.withSeal (v : Vault) (call : SealCall) (receiptId : Uuid) : Vault :=
  { v with
    lockboxes := v.lockboxes ++ [call.row]
    lockboxColumns := v.lockboxColumns ++ [call.columns]
    lockboxKeyShares := v.lockboxKeyShares ++ call.shareRows
    lockboxReceipts := v.lockboxReceipts ++ [call.receipt receiptId]
    receiptColumns := v.receiptColumns ++ [call.receiptColumns receiptId]
    trails := sealTrails call v.trails }

theorem createMany_eq_ok_iff {rows : List LockboxKeyShare} {v v' : Vault} {u : PUnit} :
    createMany rows v = .ok (u, v') ↔ ((v.lockboxKeyShares ++ rows).map shareKey).Nodup ∧
      v' = { v with lockboxKeyShares := v.lockboxKeyShares ++ rows } := by
  rw [createMany, Tx.get_bind_eq_ok, Tx.check_bind_eq_ok]
  constructor
  · rintro ⟨_, hunique, h⟩
    exact ⟨not_not.1 (throwIf_eq_ok_iff.1 hunique), (Prod.mk.inj (Except.ok.inj h)).2.symm⟩
  · rintro ⟨hunique, rfl⟩
    exact ⟨(), throwIf_eq_ok_iff.2 (not_not.2 hunique), rfl⟩

/-- A sealing commits when its ids are free, and writes its rows. -/
theorem sealTx_eq_ok_iff {d : Draws} {call : SealCall} {v v' : Vault} {box : Lockbox} :
    sealTx d call v = .ok (box, v') ↔
      call.lockboxId ∉ v.lockboxes.map (·.id) ∧
      ((v.lockboxKeyShares ++ call.shareRows).map shareKey).Nodup ∧
      d.ids 0 ∉ v.lockboxReceipts.map (·.id) ∧ box = call.row ∧ v' = v.withSeal call (d.ids 0) := by
  rw [sealTx, Tx.bind_eq_ok]
  constructor
  · rintro ⟨row, v₁, hrow, h⟩
    obtain ⟨hfresh, rfl, rfl⟩ := Table.insert_eq_ok_iff.1 hrow
    rw [Tx.modify_bind_eq_ok] at h
    obtain ⟨_, v₂, hshares, h⟩ := Tx.bind_eq_ok.1 h
    obtain ⟨hunique, rfl⟩ := createMany_eq_ok_iff.1 hshares
    obtain ⟨receipt, v₃, hreceipt, h⟩ := Tx.bind_eq_ok.1 h
    obtain ⟨hfresh', rfl, rfl⟩ := Table.insert_eq_ok_iff.1 hreceipt
    obtain ⟨rfl, rfl⟩ := Prod.mk.inj (Except.ok.inj h)
    exact ⟨hfresh, hunique, hfresh', rfl, rfl⟩
  · rintro ⟨hfresh, hunique, hfresh', rfl, rfl⟩
    refine ⟨_, _, Table.insert_eq_ok_iff.2 ⟨hfresh, rfl, rfl⟩, ?_⟩
    rw [Tx.modify_bind_eq_ok]
    refine Tx.bind_eq_ok.2 ⟨⟨⟩, _, createMany_eq_ok_iff.2 ⟨hunique, rfl⟩, ?_⟩
    exact Tx.bind_eq_ok.2 ⟨_, _, Table.insert_eq_ok_iff.2 ⟨hfresh', rfl, rfl⟩, rfl⟩

end TolPlatform.Lockboxes
