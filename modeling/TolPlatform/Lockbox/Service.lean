import TolPlatform.Crypto.Envelope
import TolPlatform.Domain.StateMachines
import TolPlatform.Library.LockedCalls
import TolPlatform.Library.Table
import TolPlatform.Shared.Support

/-!
# Withdrawing and releasing a lockbox

`withdraw` and `release` of `apps/api/src/modules/lockbox/service.ts`, with the tables and
repositories they go through, as calls that interleave. Both check a first time outside any lock, take
the advisory lock of the lockbox's id, check again on fresh rows, and only then write. A release
decrypts in the transaction that opens the box; its plaintext is in nothing but the returned value.

The database records every status `UPDATE` in `statusUpdates`, which the code does not: a release runs
a whole cascade of them in one transaction, and this is where a statement can see the single hops.
Left out are the columns that neither function reads or writes (`relationshipType`, `region`,
`metadataSummary`, the stored `aad`, …) and `reason` of the audit rows. AES-GCM, the configured keys
and the payload's parser are parameters.
-/

namespace TolPlatform.Lockboxes

open Crypto (Bytes AesGcmCiphertext LockboxShareRole WrappedShare RoleKeks)

/-! ### Tables -/

structure Lockbox where
  id : Uuid
  sealerOrgId : Uuid
  status : LockboxStatus
  /-- `iv`, `ciphertext` and `authTag`. -/
  envelope : AesGcmCiphertext
  ciphertextHash : String
  withdrawnAt : Option Instant := none
  withdrawnByUserId : Option Uuid := none
  withdrawReason : Option String := none
  recipientOrgId : Option Uuid := none
  releasedAt : Option Instant := none
  conditionRef : Option Uuid := none
  deriving DecidableEq, Repr

structure LockboxKeyShare where
  lockboxId : Uuid
  holderRole : LockboxShareRole
  shareIndex : ℤ
  /-- `wrappedShare`, `shareIv` and `shareAuthTag`, which are nulled together. -/
  wrapped : Option AesGcmCiphertext
  destroyedAt : Option Instant := none
  destroyedReason : Option String := none
  deriving DecidableEq, Repr

structure LockboxReceipt where
  id : Uuid
  lockboxId : Uuid
  version : Int
  deriving DecidableEq, Repr

structure LockboxReleaseEvidence where
  id : Uuid
  lockboxId : Uuid
  recipientOrgId : Uuid
  releasedAt : Instant
  authorizedByUserId : Uuid
  authorizedRoles : List LockboxShareRole
  conditionRef : Uuid
  ciphertextHash : String
  receiptId : Option Uuid
  deriving DecidableEq, Repr

/-- One status `UPDATE`. -/
structure StatusUpdate where
  lockboxId : Uuid
  move : LockboxStatus × LockboxStatus
  deriving DecidableEq, Repr

structure Db where
  organizations : List Uuid
  lockboxes : List Lockbox
  lockboxKeyShares : List LockboxKeyShare
  lockboxReceipts : List LockboxReceipt := []
  lockboxReleaseEvidence : List LockboxReleaseEvidence := []
  statusUpdates : List StatusUpdate := []
  trails : Trails := {}
  deriving DecidableEq, Repr

def lockboxes : Table Db Lockbox Uuid where
  rows := Db.lockboxes
  put l db := { db with lockboxes := l }
  key := Lockbox.id

def lockboxReleaseEvidence : Table Db LockboxReleaseEvidence Uuid where
  rows := Db.lockboxReleaseEvidence
  put l db := { db with lockboxReleaseEvidence := l }
  key := LockboxReleaseEvidence.id

/-! ### Repositories -/

namespace LockboxRepository

def findById (db : Db) (id : Uuid) : Option Lockbox := db.lockboxes.find? (·.id = id)

def withStatus (status : LockboxStatus) (columns : Lockbox → Lockbox) (box : Lockbox) : Lockbox :=
  { columns box with id := box.id, status }

@[simp] theorem withStatus_id (status : LockboxStatus) (columns : Lockbox → Lockbox)
    (box : Lockbox) : (withStatus status columns box).id = box.id := rfl

@[simp] theorem withStatus_status (status : LockboxStatus) (columns : Lockbox → Lockbox)
    (box : Lockbox) : (withStatus status columns box).status = status := rfl

/-- An `UPDATE` that sets the status, and perhaps other columns. -/
def setStatus (id : Uuid) (status : LockboxStatus) (columns : Lockbox → Lockbox) :
    Tx Db Thrown Lockbox := do
  let db ← get
  let old ← Tx.check (orThrow (findById db id) .recordNotFound)
  modify fun db : Db ↦ { db with statusUpdates := db.statusUpdates ++ [⟨id, old.status, status⟩] }
  lockboxes.update .recordNotFound id (withStatus status columns)

def updateStatus (id : Uuid) (status : LockboxStatus) : Tx Db Thrown Lockbox :=
  setStatus id status fun box ↦ box

def withdraw (id : Uuid) (withdrawnAt : Instant) (withdrawnByUserId : Uuid)
    (withdrawReason : Option String) : Tx Db Thrown Lockbox :=
  setStatus id .withdrawn fun box ↦
    { box with withdrawnAt := some withdrawnAt, withdrawnByUserId := some withdrawnByUserId,
               withdrawReason }

def markOpened (id : Uuid) (releasedAt : Instant) (recipientOrgId conditionRef : Uuid) :
    Tx Db Thrown Lockbox :=
  setStatus id .opened fun box ↦
    { box with releasedAt := some releasedAt, recipientOrgId := some recipientOrgId,
               conditionRef := some conditionRef }

end LockboxRepository

namespace LockboxKeyShareRepository

def findActiveByLockboxAndRoles (db : Db) (lockboxId : Uuid) (roles : List LockboxShareRole) :
    List LockboxKeyShare :=
  db.lockboxKeyShares.filter fun share ↦
    share.lockboxId = lockboxId ∧ share.holderRole ∈ roles ∧ share.wrapped.isSome

/-- A share of this box that has not been destroyed. -/
def isActive (lockboxId : Uuid) (share : LockboxKeyShare) : Bool :=
  share.lockboxId = lockboxId ∧ share.wrapped.isSome

def destroy (destroyedAt : Instant) (destroyedReason : String) (share : LockboxKeyShare) :
    LockboxKeyShare :=
  { share with wrapped := none, destroyedAt := some destroyedAt,
               destroyedReason := some destroyedReason }

def destroyIfActive (lockboxId : Uuid) (destroyedAt : Instant) (destroyedReason : String)
    (share : LockboxKeyShare) : LockboxKeyShare :=
  if isActive lockboxId share then destroy destroyedAt destroyedReason share else share

/-- Nulls every wrapped share of the box, and counts them. -/
def destroyAllByLockbox (lockboxId : Uuid) (destroyedAt : Instant) (destroyedReason : String) :
    Tx Db Thrown ℕ := fun db ↦
  .ok ((db.lockboxKeyShares.filter (isActive lockboxId)).length,
    { db with
      lockboxKeyShares :=
        db.lockboxKeyShares.map (destroyIfActive lockboxId destroyedAt destroyedReason) })

end LockboxKeyShareRepository

/-- The latest version. -/
def LockboxReceiptRepository.findLatestByLockbox (db : Db) (lockboxId : Uuid) :
    Option LockboxReceipt :=
  ((db.lockboxReceipts.filter (·.lockboxId = lockboxId)).mergeSort
    fun a b ↦ decide (b.version ≤ a.version)).head?

/-! ### Requests -/

structure LockboxPayload where
  counterpartyPrivate : String
  evidenceSummary : String
  priorDealHistory : String
  deriving DecidableEq, Repr

structure WithdrawLockboxRequest where
  withdrawReason : Option String := none
  deriving DecidableEq, Repr

structure ReleaseLockboxRequest where
  recipientOrgId : Uuid
  conditionRef : Uuid
  deriving DecidableEq, Repr

/-- What the service takes from outside. -/
structure Env where
  hashtext : String → Int
  /-- `Buffer.from(lockboxId, "utf8")`. -/
  utf8 : String → Bytes
  /-- `loadRoleKeks`: the configured keys, or what `parseKeyHex` throws. -/
  roleKeks : Except Thrown RoleKeks
  decrypt : Crypto.Decrypt
  /-- `JSON.parse` and `LockboxPayloadSchema.parse`. -/
  parsePayload : Bytes → Option LockboxPayload

/-- The arguments of `withdraw`, with the sealer it read first. -/
structure WithdrawCall where
  actor : Actor
  lockboxId : Uuid
  input : WithdrawLockboxRequest
  context : RequestContext
  sealerOrgId : Uuid
  deriving DecidableEq, Repr

structure ReleaseCall where
  actor : Actor
  lockboxId : Uuid
  input : ReleaseLockboxRequest
  context : RequestContext
  sealerOrgId : Uuid
  deriving DecidableEq, Repr

structure ReleaseResult where
  lockbox : Lockbox
  releaseEvidence : LockboxReleaseEvidence
  disclosedPayload : LockboxPayload
  deriving DecidableEq, Repr

/-! ### Checks -/

def loadLockbox (db : Db) (lockboxId : Uuid) : Except Thrown Lockbox :=
  orThrow (LockboxRepository.findById db lockboxId) (notFound "Lockbox not found.")

def reloadLockbox (db : Db) (lockboxId : Uuid) : Except Thrown Lockbox :=
  orThrow (LockboxRepository.findById db lockboxId)
    (internal "Lockbox disappeared mid-transaction.")

def assertWithdrawable (box : Lockbox) : Except Thrown Unit := do
  throwIf (canWithdrawFrom box.status = false)
    (conflict s!"Lockbox cannot be withdrawn from its current state ({box.status}).")
  assertValidLockboxTransition box.status .withdrawn

def precheckWithdraw (db : Db) (actor : Actor) (lockboxId : Uuid) : Except Thrown Lockbox := do
  let box ← loadLockbox db lockboxId
  requireAllowed (can actor .lockboxWithdraw ⟨.lockbox, some box.sealerOrgId⟩)
  assertWithdrawable box
  return box

/-- The organizations are read by a statement of its own; nothing here writes them. -/
def precheckRelease (db : Db) (actor : Actor) (lockboxId : Uuid) (input : ReleaseLockboxRequest) :
    Except Thrown Lockbox := do
  let box ← loadLockbox db lockboxId
  requireAllowed (can actor .lockboxRelease ⟨.lockbox, some box.sealerOrgId⟩)
  throwIf (input.recipientOrgId ∉ db.organizations)
    (badRequest "recipientOrgId does not reference a real organization.")
  assertValidLockboxReleaseCascade box.status
  return box

/-- `RELEASE_AUTHORIZING_ROLES`. -/
def releaseAuthorizingRoles : List LockboxShareRole := [.operator, .escrow]

def revalidateWithdraw (db : Db) (call : WithdrawCall) : Except Thrown Unit := do
  let box ← reloadLockbox db call.lockboxId
  assertWithdrawable box

/-- The fresh row, and the shares that authorize a release. -/
def revalidateRelease (db : Db) (call : ReleaseCall) :
    Except Thrown (Lockbox × List WrappedShare) := do
  let box ← reloadLockbox db call.lockboxId
  assertValidLockboxReleaseCascade box.status
  let active := LockboxKeyShareRepository.findActiveByLockboxAndRoles db call.lockboxId
    releaseAuthorizingRoles
  throwIf (active.length < 2)
    (conflict s!"Release requires OPERATOR+ESCROW shares; only {active.length} active share(s) found (lockbox may have been withdrawn).")
  return (box, active.filterMap fun row ↦ row.wrapped.map (⟨row.holderRole, row.shareIndex, ·⟩))

/-! ### Transactions -/

def record (f : Trails → Trails) : Tx Db Thrown PUnit :=
  modify fun db : Db ↦ { db with trails := f db.trails }

def orNull (s : Option String) : JsonValue := (s.map .string).getD .null

def withdrawTrails (call : WithdrawCall) (destroyedCount : ℕ) (t : Trails) : Trails :=
  (t.audit call.actor call.context (some call.sealerOrgId) "lockbox.withdrawn" "lockbox"
    call.lockboxId
    [("withdrawReason", orNull call.input.withdrawReason),
     ("sharesDestroyed", .number destroyedCount)]).timeline call.actor call.context
    "lockbox.withdrawn" "lockbox" call.lockboxId
    [("withdrawReason", orNull call.input.withdrawReason)]

def withdrawTx (d : Draws) (call : WithdrawCall) : Tx Db Thrown Lockbox := do
  let organizationId := call.actor.organizationId.getD "null"
  let updated ← LockboxRepository.withdraw call.lockboxId d.now call.actor.userId
    call.input.withdrawReason
  let destroyedCount ← LockboxKeyShareRepository.destroyAllByLockbox call.lockboxId d.now
    s!"withdrawn by sealer org {organizationId}"
  Tx.check (throwIf (destroyedCount ≠ 3)
    (internal s!"Expected to destroy 3 key shares on withdraw, destroyed {destroyedCount} — internal consistency error."))
  record (withdrawTrails call destroyedCount)
  return updated

/-- Combines the shares and decrypts; whatever throws on the way becomes one answer. -/
def disclose (env : Env) (call : ReleaseCall) (box : Lockbox) (shares : List WrappedShare)
    (keks : RoleKeks) : Except Thrown LockboxPayload :=
  match Crypto.releasePayload env.decrypt box.envelope shares keks (some (env.utf8 call.lockboxId)) with
  | .error _ => .error (.problem
      { status := 500, code := "internal_error",
        message := "Lockbox release failed cryptographic verification — the release was NOT performed and no plaintext was disclosed." })
  | .ok plaintext => orThrow (env.parsePayload plaintext)
      (internal "Lockbox release decrypted successfully but the resulting content did not match the expected payload shape — internal consistency error.")

/-- `for (let i = startIdx; i < LOCKBOX_RELEASE_CASCADE.length - 2; i++)`: every hop but the last. -/
def releaseHops (lockboxId : Uuid) (current : LockboxStatus) :
    List LockboxStatus → Tx Db Thrown LockboxStatus
  | next :: last :: rest => do
    Tx.check (assertValidLockboxTransition current next)
    let _ ← LockboxRepository.updateStatus lockboxId next
    releaseHops lockboxId next (last :: rest)
  | _ => pure current

def releaseTrails (call : ReleaseCall) (box : Lockbox) (t : Trails) : Trails :=
  let released : List (String × JsonValue) :=
    [("recipientOrgId", .string call.input.recipientOrgId),
     ("conditionRef", .string call.input.conditionRef),
     ("authorizedRoles", .strings (releaseAuthorizingRoles.map toString)),
     ("ciphertextHash", .string box.ciphertextHash)]
  ((t.audit call.actor call.context (some call.sealerOrgId) "lockbox.released" "lockbox"
    call.lockboxId released).timeline call.actor call.context "lockbox.committed" "lockbox"
    call.lockboxId [("ciphertextHash", .string box.ciphertextHash)]).timeline call.actor call.context
    "lockbox.opened" "lockbox" call.lockboxId released

def createEvidence (d : Draws) (call : ReleaseCall) (box : Lockbox) :
    Tx Db Thrown LockboxReleaseEvidence := do
  let db ← get
  lockboxReleaseEvidence.insert .uniqueViolation
    { id := d.ids 0, lockboxId := call.lockboxId, recipientOrgId := call.input.recipientOrgId,
      releasedAt := d.now, authorizedByUserId := call.actor.userId,
      authorizedRoles := releaseAuthorizingRoles, conditionRef := call.input.conditionRef,
      ciphertextHash := box.ciphertextHash,
      receiptId := (LockboxReceiptRepository.findLatestByLockbox db call.lockboxId).map (·.id) }

/-- The statuses that are left of the cascade. -/
def remainingCascade (status : LockboxStatus) : List LockboxStatus :=
  lockboxReleaseCascade.drop (lockboxReleaseCascade.idxOf status + 1)

def releaseTx (env : Env) (d : Draws) (call : ReleaseCall) (box : Lockbox)
    (shares : List WrappedShare) (keks : RoleKeks) : Tx Db Thrown ReleaseResult := do
  let disclosedPayload ← Tx.check (disclose env call box shares keks)
  let current ← releaseHops call.lockboxId box.status (remainingCascade box.status)
  Tx.check (assertValidLockboxTransition current .opened)
  let lockbox ← LockboxRepository.markOpened call.lockboxId d.now call.input.recipientOrgId
    call.input.conditionRef
  let releaseEvidence ← createEvidence d call box
  record (releaseTrails call box)
  return { lockbox, releaseEvidence, disclosedPayload }

/-! ### Calls -/

inductive Request
  | withdraw (lockboxId : Uuid) (input : WithdrawLockboxRequest)
  | release (lockboxId : Uuid) (input : ReleaseLockboxRequest)
  deriving DecidableEq, Repr

/-- How far a call has got. -/
inductive Local
  | called (actor : Actor) (context : RequestContext) (request : Request)
  /-- `withdraw`: the first checks passed; the lock is taken; the checks passed again. -/
  | withdrawChecked (call : WithdrawCall)
  | withdrawLocked (call : WithdrawCall)
  | withdrawValidated (call : WithdrawCall)
  /-- `release`, likewise; what is left to do once it is validated begins with the decryption. -/
  | releaseChecked (call : ReleaseCall) (keks : RoleKeks)
  | releaseLocked (call : ReleaseCall) (keks : RoleKeks)
  | releaseValidated (call : ReleaseCall) (keks : RoleKeks) (box : Lockbox)
      (shares : List WrappedShare)
  | withdrew (box : Lockbox)
  | released (result : ReleaseResult)
  | threw (thrown : Thrown)
  | crashed

def enter (env : Env) (db : Db) (actor : Actor) (context : RequestContext) :
    Request → Except Thrown Local
  | .withdraw lockboxId input => do
    let box ← precheckWithdraw db actor lockboxId
    return .withdrawChecked ⟨actor, lockboxId, input, context, box.sealerOrgId⟩
  | .release lockboxId input => do
    let box ← precheckRelease db actor lockboxId input
    let keks ← env.roleKeks
    return .releaseChecked ⟨actor, lockboxId, input, context, box.sealerOrgId⟩ keks

def calls (env : Env) : CallSystem Db Thrown Int Draws Local where
  next d
    | .called actor context request => .query fun db ↦ enter env db actor context request
    | .withdrawChecked call => .lock (env.hashtext call.lockboxId) (.withdrawLocked call)
    | .withdrawLocked call => .query fun db ↦ do
      revalidateWithdraw db call
      return .withdrawValidated call
    | .withdrawValidated call => .commit (Local.withdrew <$> withdrawTx d call)
    | .releaseChecked call keks => .lock (env.hashtext call.lockboxId) (.releaseLocked call keks)
    | .releaseLocked call keks => .query fun db ↦ do
      let fresh ← revalidateRelease db call
      return .releaseValidated call keks fresh.1 fresh.2
    | .releaseValidated call keks box shares =>
      .commit (Local.released <$> releaseTx env d call box shares keks)
    | .withdrew _ | .released _ | .threw _ | .crashed => .stop
  ended
    | .withdrew _ | .released _ | .threw _ | .crashed => true
    | _ => false
  failed := .threw
  crashed := .crashed

end TolPlatform.Lockboxes
