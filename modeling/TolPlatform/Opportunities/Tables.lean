import Mathlib.Data.Prod.Lex
import Mathlib.Data.String.Basic
import TolPlatform.Domain.VolumeReconciliation
import TolPlatform.Library.Sorting
import TolPlatform.Library.Table
import TolPlatform.Shared.Support

/-!
# The volume slices of an opportunity

The rows that the volume-slice half of `apps/api/src/modules/opportunities/service.ts` reads and writes,
and their repositories. A slice is unique under `(opportunityId, jurisdiction, mcc, cardOrigin, channel,
period)`.

Rows are in the order in which they were inserted. Texts are ordered by their code points, where a
database may collate otherwise; nothing depends on it. An amount that a `BIGINT` column cannot hold makes
an insertion fail, which is left out, as are base audit columns.
-/

namespace TolPlatform.Opportunities

structure Opportunity where
  id : Uuid
  ownerOrgId : Uuid
  currency : String
  offeredCardGpvMinor : Int
  movableNowMinor : Int
  movable30dMinor : Int
  movable90dMinor : Int
  deriving DecidableEq, Repr

def Opportunity.summary (o : Opportunity) : OpportunityVolumeSummary where
  currency := o.currency
  offeredCardGpvMinor := o.offeredCardGpvMinor
  movableNowMinor := o.movableNowMinor
  movable30dMinor := o.movable30dMinor
  movable90dMinor := o.movable90dMinor

structure VolumeSlice where
  id : Uuid
  opportunityId : Uuid
  jurisdiction : String
  mcc : String
  cardOrigin : String
  channel : String
  currency : String
  amountMinor : Int
  period : String
  deriving DecidableEq, Repr

namespace VolumeSlice

/-- The columns of the unique constraint. -/
def cell (s : VolumeSlice) : Uuid × String × String × String × String × String :=
  (s.opportunityId, s.jurisdiction, s.mcc, s.cardOrigin, s.channel, s.period)

/-- What the reconciliation takes of a row. -/
def toInput (s : VolumeSlice) : VolumeSliceInput where
  jurisdiction := s.jurisdiction
  mcc := s.mcc
  cardOrigin := s.cardOrigin
  channel := s.channel
  period := s.period
  currency := s.currency
  amountMinor := s.amountMinor

/-- The row of a submitted slice. -/
def ofInput (id opportunityId : Uuid) (s : VolumeSliceInput) : VolumeSlice where
  id := id
  opportunityId := opportunityId
  jurisdiction := s.jurisdiction
  mcc := s.mcc
  cardOrigin := s.cardOrigin
  channel := s.channel
  currency := s.currency
  amountMinor := s.amountMinor
  period := s.period

@[simp] theorem toInput_ofInput (id opportunityId : Uuid) (s : VolumeSliceInput) :
    (ofInput id opportunityId s).toInput = s := rfl

@[simp] theorem opportunityId_ofInput (id opportunityId : Uuid) (s : VolumeSliceInput) :
    (ofInput id opportunityId s).opportunityId = opportunityId := rfl

end VolumeSlice

structure Db where
  opportunities : List Opportunity
  volumeSlices : List VolumeSlice := []
  trails : Trails := {}
  deriving DecidableEq, Repr

def volumeSlices : Table Db VolumeSlice Uuid where
  rows := Db.volumeSlices
  put l db := { db with volumeSlices := l }
  key := VolumeSlice.id

def OpportunityRepository.findById (db : Db) (id : Uuid) : Option Opportunity :=
  db.opportunities.find? (·.id = id)

namespace VolumeSliceRepository

def listByOpportunity (db : Db) (opportunityId : Uuid) : List VolumeSlice :=
  List.sortOn (fun s : VolumeSlice ↦ toLex (s.jurisdiction, toLex (s.mcc, s.period)))
    (db.volumeSlices.filter (·.opportunityId = opportunityId))

/-- `DuplicateVolumeSliceCellError`. -/
def duplicateVolumeSliceCellError (s : VolumeSlice) : Thrown :=
  .error s!"a volume slice already exists for (jurisdiction={s.jurisdiction}, mcc={s.mcc}, cardOrigin={s.cardOrigin}, channel={s.channel}, period={s.period})"

/-- An insertion, refused by either unique constraint. -/
def create (opportunityId id : Uuid) (s : VolumeSliceInput) : Tx Db Thrown VolumeSlice := do
  let row := VolumeSlice.ofInput id opportunityId s
  let db ← get
  Tx.check (throwIf (row.cell ∈ db.volumeSlices.map (·.cell)) (duplicateVolumeSliceCellError row))
  volumeSlices.insert (duplicateVolumeSliceCellError row) row

def deleteAllByOpportunity (opportunityId : Uuid) : Tx Db Thrown PUnit :=
  modify fun db : Db ↦
    { db with volumeSlices := db.volumeSlices.filter (·.opportunityId ≠ opportunityId) }

theorem create_eq_ok {opportunityId id : Uuid} {s : VolumeSliceInput} {db db' : Db} {row : VolumeSlice}
    (h : create opportunityId id s db = .ok (row, db')) :
    row = VolumeSlice.ofInput id opportunityId s ∧ row.cell ∉ db.volumeSlices.map (·.cell) ∧
      id ∉ db.volumeSlices.map (·.id) ∧ db' = { db with volumeSlices := db.volumeSlices ++ [row] } := by
  obtain ⟨_, hcell, h⟩ := Tx.check_bind_eq_ok.1 (Tx.get_bind_eq_ok.1 h)
  obtain ⟨hfresh, rfl, rfl⟩ := Table.insert_eq_ok_iff.1 h
  exact ⟨rfl, throwIf_eq_ok_iff.1 hcell, hfresh, rfl⟩

end VolumeSliceRepository

end TolPlatform.Opportunities
