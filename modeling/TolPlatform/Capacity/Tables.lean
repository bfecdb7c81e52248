import Mathlib.Order.OrderDual
import TolPlatform.Evidence.Readiness
import TolPlatform.Library.Evolution
import TolPlatform.Library.Sorting
import TolPlatform.Shared.JobIdempotency
import TolPlatform.Shared.Support

/-!
# Capacity profiles

The rows of `capacity_profiles` with the repository of
`packages/db/src/repositories/capacity-profile.repository.ts`, and the other tables that the worker's
`capacity-freshness` job writes. The JSON columns hold what their guards let in: lists of texts, and
an object of flat values. Base audit columns are left out, but for the version.
-/

namespace TolPlatform.Capacity

inductive RecordStatus
  | active | retired
  deriving DecidableEq, Repr

structure CapacityProfile where
  id : Uuid
  providerOrgId : Uuid
  asOf : Instant
  freshnessClass : FreshnessClass := .unknown
  acceptingNewVolume : Bool := true
  jurisdictions : List String := []
  mccsAccepted : List String := []
  mccsExcluded : List String := []
  currency : String
  monthlyCapacityMinor : Int := 0
  minTicketMinor : Int := 0
  maxTicketMinor : Int := 0
  maxChargebackBps : Int := 0
  maxFraudBps : Int := 0
  maxRefundBps : Int := 0
  settlementRail : String
  settlementCadenceDays : Int := 1
  commercialTerms : Option (List (String × JsonValue)) := none
  createdAt : Instant
  status : RecordStatus := .active
  sourceType : SourceType := .platform
  version : ℕ := 1
  deriving DecidableEq, Repr

/-- What the handler of a reclassification returns: `{ reclassified: true }`. -/
structure Reclassified where
  deriving DecidableEq, Repr

structure Db where
  profiles : List CapacityProfile := []
  idempotencyKeys : List (IdempotencyKey Reclassified) := []
  trails : Trails := {}
  deriving DecidableEq, Repr

def profiles : Table Db CapacityProfile Uuid where
  rows := Db.profiles
  put l db := { db with profiles := l }
  key := CapacityProfile.id

def idempotencyKeys : Table Db (IdempotencyKey Reclassified) Uuid where
  rows := Db.idempotencyKeys
  put l db := { db with idempotencyKeys := l }
  key := IdempotencyKey.id

namespace CapacityProfileRepository

def findById (db : Db) (id : Uuid) : Option CapacityProfile := db.profiles.find? (·.id = id)

/-- Newest first. -/
def list (db : Db) (limit : ℕ := 100) : List CapacityProfile :=
  ((db.profiles.filter (·.status = .active)).sortOn fun p ↦ OrderDual.toDual p.createdAt).take limit

def setFreshnessClass (freshnessClass : FreshnessClass) (p : CapacityProfile) : CapacityProfile :=
  { p with freshnessClass, version := p.version + 1 }

@[simp] theorem setFreshnessClass_id (freshnessClass : FreshnessClass) (p : CapacityProfile) :
    (setFreshnessClass freshnessClass p).id = p.id := rfl

@[simp] theorem setFreshnessClass_freshnessClass (freshnessClass : FreshnessClass)
    (p : CapacityProfile) : (setFreshnessClass freshnessClass p).freshnessClass = freshnessClass := rfl

def updateFreshnessClass (id : Uuid) (freshnessClass : FreshnessClass) :
    Tx Db Thrown CapacityProfile :=
  profiles.update .recordNotFound id (setFreshnessClass freshnessClass)

end CapacityProfileRepository

end TolPlatform.Capacity
