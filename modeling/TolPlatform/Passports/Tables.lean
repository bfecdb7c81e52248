import Mathlib.Data.Prod.Lex
import Mathlib.Data.String.Basic
import TolPlatform.Domain.StateMachines
import TolPlatform.Evidence.Readiness
import TolPlatform.Library.Sorting
import TolPlatform.Library.Table
import TolPlatform.Shared.JobIdempotency
import TolPlatform.Shared.Support

/-!
# The tables of a passport

The rows that `apps/api/src/modules/passport/service.ts` and
`apps/worker/src/jobs/passport-readiness.job.ts` read and write, and their repositories. The unique
constraints are those of the schema: of a passport `organizationId`, of a fact `(passportId, fieldKey)`.
Readiness results are only ever added.

JSON values are kept as text, `none` being JSON's `null`. Left out are the columns that nothing here
reads, base audit columns and `privacyClass` among them.
-/

namespace TolPlatform.Passports

/-! ### Rows -/

structure Passport where
  id : Uuid
  organizationId : Uuid
  status : PassportStatus := .draft
  createdAt : Instant
  deriving DecidableEq, Repr

structure Fact where
  id : Uuid
  passportId : Uuid
  sectionType : PassportSectionType
  fieldKey : String
  normalizedValue : Option String
  verification : FactProvenance
  evidenceId : Option Uuid
  version : ℕ := 1
  updatedAt : Instant
  deriving DecidableEq, Repr

inductive EvidenceSourceKind
  | file | api | attestation
  deriving DecidableEq, Repr

instance : ToString EvidenceSourceKind where
  toString
    | .file => "FILE"
    | .api => "API"
    | .attestation => "ATTESTATION"

structure Evidence where
  id : Uuid
  passportId : Uuid
  type : EvidenceSourceKind
  objectRef : String
  checksum : Option String
  issuer : Option String
  collectedAt : Instant
  expiresAt : Option Instant
  createdAt : Instant
  deriving DecidableEq, Repr

structure ReadinessResult extends ReadinessResultShape where
  id : Uuid
  passportId : Uuid
  computedAt : Instant
  deriving DecidableEq, Repr

/-- What the handler of a recompute returns: `{ recomputed: true }`. -/
structure Recomputed where
  deriving DecidableEq, Repr

structure Db where
  passports : List Passport := []
  facts : List Fact := []
  evidence : List Evidence := []
  readinessResults : List ReadinessResult := []
  idempotencyKeys : List (IdempotencyKey Recomputed) := []
  trails : Trails := {}
  deriving DecidableEq, Repr

def passports : Table Db Passport Uuid where
  rows := Db.passports
  put l db := { db with passports := l }
  key := Passport.id

def facts : Table Db Fact Uuid where
  rows := Db.facts
  put l db := { db with facts := l }
  key := Fact.id

def evidence : Table Db Evidence Uuid where
  rows := Db.evidence
  put l db := { db with evidence := l }
  key := Evidence.id

def readinessResults : Table Db ReadinessResult Uuid where
  rows := Db.readinessResults
  put l db := { db with readinessResults := l }
  key := ReadinessResult.id

def idempotencyKeys : Table Db (IdempotencyKey Recomputed) Uuid where
  rows := Db.idempotencyKeys
  put l db := { db with idempotencyKeys := l }
  key := IdempotencyKey.id

/-! ### Repositories -/

namespace PassportRepository

def findById (db : Db) (id : Uuid) : Option Passport := db.passports.find? (·.id = id)

def findByOrganizationId (db : Db) (organizationId : Uuid) : Option Passport :=
  db.passports.find? (·.organizationId = organizationId)

/-- Newest first. -/
def list (db : Db) (limit : ℕ := 100) : List Passport :=
  (db.passports.sortOn fun p ↦ OrderDual.toDual p.createdAt).take limit

def create (row : Passport) : Tx Db Thrown Passport := do
  let db ← get
  Tx.check (throwIf (findByOrganizationId db row.organizationId ≠ none) .uniqueViolation)
  passports.insert .uniqueViolation row

def setStatus (status : PassportStatus) (p : Passport) : Passport := { p with status }

@[simp] theorem setStatus_id (status : PassportStatus) (p : Passport) :
    (setStatus status p).id = p.id := rfl

@[simp] theorem setStatus_status (status : PassportStatus) (p : Passport) :
    (setStatus status p).status = status := rfl

def updateStatus (id : Uuid) (status : PassportStatus) : Tx Db Thrown Passport :=
  passports.update .recordNotFound id (setStatus status)

end PassportRepository

namespace EvidenceRepository

def findById (db : Db) (id : Uuid) : Option Evidence := db.evidence.find? (·.id = id)

/-- Newest first; `take: 500`. -/
def listByPassport (db : Db) (passportId : Uuid) : List Evidence :=
  ((db.evidence.filter (·.passportId = passportId)).sortOn
    fun e ↦ OrderDual.toDual e.createdAt).take 500

end EvidenceRepository

/-- The order in which the schema declares the sections. -/
def sectionOrder : PassportSectionType → ℕ
  | .identity => 0
  | .relationshipHistory => 1
  | .processingMetrics => 2
  | .risk => 3
  | .commercial => 4
  | .technical => 5

namespace FactRepository

/-- By section, then by field key. -/
def listByPassport (db : Db) (passportId : Uuid) : List Fact :=
  (db.facts.filter (·.passportId = passportId)).sortOn
    fun f ↦ toLex (sectionOrder f.sectionType, f.fieldKey)

/-- The `@@unique([passportId, fieldKey])` lookup. -/
def findByFieldKey (db : Db) (passportId : Uuid) (fieldKey : String) : Option Fact :=
  db.facts.find? fun f ↦ f.passportId = passportId ∧ f.fieldKey = fieldKey

/-- What an upsert makes of the fact that is there: everything but its identity, under a new
version. -/
def setFact (row old : Fact) : Fact :=
  { row with
    id := old.id
    version := old.version + 1 }

/-- Inserts the row, or updates the one there is for its field key. -/
def upsertByFieldKey (assertJsonSerializableValue : Option String → String → Except Thrown Unit)
    (row : Fact) : Tx Db Thrown Fact := do
  Tx.check (assertJsonSerializableValue row.normalizedValue s!"Fact({row.fieldKey}).normalizedValue")
  let db ← get
  match findByFieldKey db row.passportId row.fieldKey with
  | none => facts.insert .uniqueViolation row
  | some old => facts.update .recordNotFound old.id (setFact row)

end FactRepository

namespace ReadinessResultRepository

/-- Newest first. Which of two results of one instant comes first is left to the database; here it is
the one stored first. -/
def listByPassport (db : Db) (passportId : Uuid) : List ReadinessResult :=
  (db.readinessResults.filter (·.passportId = passportId)).sortOn
    fun r ↦ OrderDual.toDual r.computedAt

def findLatestByPassport (db : Db) (passportId : Uuid) : Option ReadinessResult :=
  (listByPassport db passportId).head?

theorem mem_listByPassport {db : Db} {passportId : Uuid} {r : ReadinessResult} :
    r ∈ listByPassport db passportId ↔ r ∈ db.readinessResults ∧ r.passportId = passportId := by
  rw [listByPassport, List.mem_sortOn, List.mem_filter, decide_eq_true_iff]

/-- The latest result is one of the passport, and none of the passport's is later. -/
theorem findLatestByPassport_eq_some {db : Db} {passportId : Uuid} {r : ReadinessResult}
    (h : findLatestByPassport db passportId = some r) :
    r ∈ db.readinessResults ∧ r.passportId = passportId ∧
      ∀ r' ∈ db.readinessResults, r'.passportId = passportId → r'.computedAt ≤ r.computedAt := by
  obtain ⟨hr, hpassport⟩ := mem_listByPassport.1 (List.mem_of_head? h)
  refine ⟨hr, hpassport, fun r' hr' hpassport' ↦ ?_⟩
  have hfirst : OrderDual.toDual r.computedAt ≤ OrderDual.toDual r'.computedAt :=
    List.key_le_of_head?_sortOn (fun r : ReadinessResult ↦ OrderDual.toDual r.computedAt) h
      (List.mem_filter.2 ⟨hr', decide_eq_true hpassport'⟩)
  exact OrderDual.toDual_le_toDual.1 hfirst

end ReadinessResultRepository

end TolPlatform.Passports
