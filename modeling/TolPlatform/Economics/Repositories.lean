import Mathlib.Data.List.Sort
import TolPlatform.Economics.Tables

/-!
# The economics repositories

`packages/db/src/repositories/*.repository.ts`, one namespace each. A repository is a set of single
statements: lookups are functions of the database, writes are transaction statements that check
their input, the primary key and the unique columns, and insert one row. The id of a new row and the
clock are the caller's to supply. An `orderBy` is a stable sort of the matching rows; rows with equal
sort keys keep insertion order, which the database does not promise and no result below relies on.

Each write has one lemma, named after it, that says what a successful call did.
-/

namespace TolPlatform

/-- The truth value of an optional string: absent, `null` and empty are all false. -/
def truthy (s : Option String) : Bool := s.getD "" ≠ ""

/-! ### Deal rooms -/

def DealRoomRepository.findById (db : Db) (id : Uuid) : Option DealRoom :=
  db.dealRooms.find? (·.id = id)

/-! ### Commission schedules -/

structure CreateCommissionScheduleInput where
  dealRoomId : Uuid
  basis : CommissionBasis
  status : CommissionScheduleStatus := .draft
  capMinor : Option Int
  floorMinor : Option Int
  survivalMonths : Option Int
  description : Option String
  previousVersionId : Option Uuid
  createdByUserId : Option Uuid
  createdByOrgId : Option Uuid

namespace CommissionScheduleRepository

def findById (db : Db) (id : Uuid) : Option CommissionSchedule :=
  db.commissionSchedules.find? (·.id = id)

/-- Newest first. -/
def listActiveByDealRoom (db : Db) (dealRoomId : Uuid) : List CommissionSchedule :=
  (db.commissionSchedules.filter fun s ↦ s.dealRoomId = dealRoomId ∧ s.status = .active).insertionSort
    fun a b ↦ b.createdAt ≤ a.createdAt

/-- Family by family, the newest version first. -/
def listByDealRoom (db : Db) (dealRoomId : Uuid) : List CommissionSchedule :=
  (db.commissionSchedules.filter (·.dealRoomId = dealRoomId)).insertionSort fun a b ↦
    a.scheduleFamilyId < b.scheduleFamilyId ∨
      (a.scheduleFamilyId = b.scheduleFamilyId ∧ b.versionNumber ≤ a.versionNumber)

/-- A new family starts at version 1; a new version continues the family of the version it
supersedes, which is fetched again and must exist. -/
def familyAndVersion (db : Db) (id : Uuid) : Option Uuid → Except Thrown (Uuid × Int)
  | none => .ok (id, 1)
  | some previousVersionId =>
    match findById db previousVersionId with
    | none => .error .recordNotFound
    | some previous => .ok (previous.scheduleFamilyId, previous.versionNumber + 1)

/-- The row that an input becomes, in the given family and at the given version. -/
def toRow (input : CreateCommissionScheduleInput) (now : Instant) (id : Uuid) (fv : Uuid × Int) :
    CommissionSchedule :=
  { id, dealRoomId := input.dealRoomId, scheduleFamilyId := fv.1, versionNumber := fv.2,
    previousVersionId := input.previousVersionId, basis := input.basis, status := input.status,
    capMinor := input.capMinor, floorMinor := input.floorMinor,
    survivalMonths := input.survivalMonths, description := input.description, createdAt := now,
    createdByUserId := input.createdByUserId, createdByOrgId := input.createdByOrgId }

def create (now : Instant) (id : Uuid) (input : CreateCommissionScheduleInput) :
    Tx Db Thrown CommissionSchedule := do
  let db ← get
  let fv ← Tx.check (familyAndVersion db id input.previousVersionId)
  Db.schedules.insert .uniqueViolation (toRow input now id fv)

/-- The row after a status update. -/
def withStatus (status : CommissionScheduleStatus) (updatedByUserId : Option Uuid)
    (s : CommissionSchedule) : CommissionSchedule :=
  { s with status, updatedByUserId, version := s.version + 1 }

def updateStatus (id : Uuid) (status : CommissionScheduleStatus) (updatedByUserId : Option Uuid) :
    Tx Db Thrown CommissionSchedule :=
  Db.schedules.update .recordNotFound id (withStatus status updatedByUserId)

variable {db db' : Db} {now : Instant} {id : Uuid}

theorem create_eq_ok {input : CreateCommissionScheduleInput} {row : CommissionSchedule}
    (h : create now id input db = .ok (row, db')) :
    ∃ fv, familyAndVersion db id input.previousVersionId = .ok fv ∧
      row = toRow input now id fv ∧ id ∉ db.commissionSchedules.map (·.id) ∧
      db' = { db with commissionSchedules := db.commissionSchedules ++ [row] } := by
  have hbody := Tx.get_bind_eq_ok.1 h
  obtain ⟨fv, hfv, hinsert⟩ := Tx.check_bind_eq_ok.1 hbody
  obtain ⟨hfresh, rfl, rfl⟩ := Table.insert_eq_ok_iff.1 hinsert
  exact ⟨fv, hfv, rfl, hfresh, rfl⟩

theorem updateStatus_eq_ok {status : CommissionScheduleStatus} {updatedByUserId : Option Uuid}
    {row : CommissionSchedule} (h : updateStatus id status updatedByUserId db = .ok (row, db')) :
    ∃ old, findById db id = some old ∧ row = withStatus status updatedByUserId old ∧
      db' = { db with commissionSchedules := db.commissionSchedules.map fun s ↦
        if s.id = id then withStatus status updatedByUserId s else s } :=
  Table.update_eq_ok_iff.1 h

end CommissionScheduleRepository

/-! ### Commission components -/

structure CreateCommissionComponentInput where
  scheduleId : Uuid
  recipientType : CommissionRecipientType
  recipientOrgId : Uuid
  componentType : CommissionComponentType
  bps : Option Int
  fixedAmountMinor : Option Int
  calculationBasis : Option CommissionBasis
  priority : Int
  claimId : Option Uuid
  createdByUserId : Option Uuid
  createdByOrgId : Option Uuid

namespace CommissionComponentRepository

def inputError (message : String) : Thrown :=
  .inputError s!"invalid CommissionComponent input: {message}"

def validateComponentTypeFields (input : CreateCommissionComponentInput) : Except Thrown Unit :=
  match input.componentType with
  | .percentageBps =>
    match input.bps with
    | none => .error (inputError "componentType PERCENTAGE_BPS requires bps")
    | some bps => do
      throwIf (bps < 0 ∨ 10000 < bps) (inputError s!"bps must be an integer 0-10000, got {bps}")
      throwIf (input.fixedAmountMinor ≠ none)
        (inputError "componentType PERCENTAGE_BPS must not carry a non-null fixedAmountMinor")
  | .fixedAmount =>
    match input.fixedAmountMinor with
    | none => .error (inputError "componentType FIXED_AMOUNT requires fixedAmountMinor")
    | some fixedAmountMinor => do
      throwIf (fixedAmountMinor < 0)
        (inputError s!"fixedAmountMinor must not be negative, got {fixedAmountMinor}")
      throwIf (input.bps ≠ none)
        (inputError "componentType FIXED_AMOUNT must not carry a non-null bps")

/-- By priority. -/
def listBySchedule (db : Db) (scheduleId : Uuid) : List CommissionComponent :=
  (db.commissionComponents.filter (·.scheduleId = scheduleId)).insertionSort
    fun a b ↦ a.priority ≤ b.priority

/-- The row that an input becomes. -/
def toRow (input : CreateCommissionComponentInput) (id : Uuid) : CommissionComponent :=
  { id, scheduleId := input.scheduleId, recipientType := input.recipientType,
    recipientOrgId := input.recipientOrgId, componentType := input.componentType,
    bps := input.bps, fixedAmountMinor := input.fixedAmountMinor,
    calculationBasis := input.calculationBasis, priority := input.priority,
    claimId := input.claimId, createdByUserId := input.createdByUserId,
    createdByOrgId := input.createdByOrgId }

def create (id : Uuid) (input : CreateCommissionComponentInput) :
    Tx Db Thrown CommissionComponent := do
  Tx.check (validateComponentTypeFields input)
  Db.components.insert .uniqueViolation (toRow input id)

def createMany (ids : ℕ → Uuid) (inputs : List CreateCommissionComponentInput) :
    Tx Db Thrown (List CommissionComponent) :=
  Table.insertEach create ids inputs

variable {db db' : Db} {ids : ℕ → Uuid} {inputs : List CreateCommissionComponentInput}

theorem createMany_eq_ok {rows : List CommissionComponent}
    (h : createMany ids inputs db = .ok (rows, db')) :
    List.Forall₂ (fun input row ↦ row = toRow input row.id) inputs rows ∧
      (rows.map (·.id)).Nodup ∧
      (∀ row ∈ rows, row.id ∉ db.commissionComponents.map (·.id)) ∧
      db' = { db with commissionComponents := db.commissionComponents ++ rows } := by
  have hloop := Table.insertEach_eq_ok (T := Db.components)
    (R := fun input row ↦ row = toRow input row.id) ?_ h
  · obtain ⟨hdb, hrows, hnodup, hfresh⟩ := hloop
    exact ⟨hrows, hnodup, hfresh, hdb⟩
  · intro id input s row s' hcreate
    obtain ⟨-, -, hinsert⟩ := Tx.check_bind_eq_ok.1 hcreate
    obtain ⟨hfresh, rfl, rfl⟩ := Table.insert_eq_ok_iff.1 hinsert
    exact ⟨rfl, hfresh, rfl⟩

end CommissionComponentRepository

/-! ### Revenue events -/

structure CreateRevenueEventInput where
  dealRoomId : Uuid
  scheduleId : Uuid
  basis : CommissionBasis
  period : String
  source : String
  grossAmountMinor : Int
  deductionsMinor : Int
  netDistributableMinor : Int
  currency : String
  recognizedAt : Instant
  createdByUserId : Option Uuid
  createdByOrgId : Option Uuid

namespace RevenueEventRepository

def inputError (message : String) : Thrown :=
  .inputError s!"invalid RevenueEvent input: {message}"

def findById (db : Db) (id : Uuid) : Option RevenueEvent := db.revenueEvents.find? (·.id = id)

/-- The `@@unique([dealRoomId, period, source])` lookup. -/
def findByDealPeriodSource (db : Db) (dealRoomId : Uuid) (period source : String) :
    Option RevenueEvent :=
  db.revenueEvents.find? fun e ↦
    e.dealRoomId = dealRoomId ∧ e.period = period ∧ e.source = source

/-- The most recently recognized first. -/
def listByDealRoom (db : Db) (dealRoomId : Uuid) : List RevenueEvent :=
  (db.revenueEvents.filter (·.dealRoomId = dealRoomId)).insertionSort
    fun a b ↦ b.recognizedAt ≤ a.recognizedAt

def checkInput (input : CreateRevenueEventInput) : Except Thrown Unit := do
  throwIf (input.grossAmountMinor < 0)
    (inputError s!"grossAmountMinor must not be negative, got {input.grossAmountMinor}")
  throwIf (input.deductionsMinor < 0)
    (inputError s!"deductionsMinor must not be negative, got {input.deductionsMinor}")
  throwIf (input.netDistributableMinor < 0)
    (inputError s!"netDistributableMinor must not be negative, got {input.netDistributableMinor}")

/-- The row that an input becomes. -/
def toRow (input : CreateRevenueEventInput) (id : Uuid) : RevenueEvent :=
  { id, dealRoomId := input.dealRoomId, scheduleId := input.scheduleId, basis := input.basis,
    period := input.period, source := input.source, grossAmountMinor := input.grossAmountMinor,
    deductionsMinor := input.deductionsMinor,
    netDistributableMinor := input.netDistributableMinor, currency := input.currency,
    recognizedAt := input.recognizedAt, createdByUserId := input.createdByUserId,
    createdByOrgId := input.createdByOrgId }

def create (id : Uuid) (input : CreateRevenueEventInput) : Tx Db Thrown RevenueEvent := do
  Tx.check (checkInput input)
  let db ← get
  Tx.check (throwIf
    (findByDealPeriodSource db input.dealRoomId input.period input.source ≠ none) .uniqueViolation)
  Db.events.insert .uniqueViolation (toRow input id)

theorem create_eq_ok {db db' : Db} {id : Uuid} {input : CreateRevenueEventInput}
    {row : RevenueEvent} (h : create id input db = .ok (row, db')) :
    row = toRow input id ∧ 0 ≤ input.netDistributableMinor ∧
      id ∉ db.revenueEvents.map (·.id) ∧
      findByDealPeriodSource db input.dealRoomId input.period input.source = none ∧
      db' = { db with revenueEvents := db.revenueEvents ++ [row] } := by
  obtain ⟨_, hcheck, hbody⟩ := Tx.check_bind_eq_ok.1 h
  obtain ⟨_, hunique, hinsert⟩ := Tx.check_bind_eq_ok.1 (Tx.get_bind_eq_ok.1 hbody)
  obtain ⟨hfresh, rfl, rfl⟩ := Table.insert_eq_ok_iff.1 hinsert
  simp only [checkInput, Except.bind_eq_ok', throwIf_eq_ok_iff] at hcheck
  obtain ⟨-, -, -, -, hnet⟩ := hcheck
  exact ⟨rfl, Int.not_lt.1 hnet, hfresh, not_not.1 (throwIf_eq_ok_iff.1 hunique), rfl⟩

end RevenueEventRepository

/-! ### Commission accruals -/

structure CreateCommissionAccrualInput where
  /-- Absent on a fresh `ACCRUAL`, whose own id becomes its root. -/
  accrualRootId : Option Uuid := none
  entryType : LedgerEntryType
  direction : LedgerDirection
  amountMinor : Int
  currency : String
  dealRoomId : Uuid
  revenueEventId : Uuid
  scheduleId : Uuid
  scheduleVersion : Int
  componentId : Uuid
  recipientOrgId : Uuid
  claimId : Option Uuid
  paymentId : Option Uuid := none
  reason : Option String := none
  approverUserId : Option Uuid := none
  approverOrgId : Option Uuid := none
  calculationVersion : String
  inputVersions : List String
  computedAt : Instant
  createdByUserId : Option Uuid
  createdByOrgId : Option Uuid

namespace CommissionAccrualRepository

def inputError (message : String) : Thrown :=
  .inputError s!"invalid CommissionAccrual input: {message}"

/-- The whole chain of one accrual, oldest first. -/
def listByAccrualRoot (db : Db) (accrualRootId : Uuid) : List CommissionAccrual :=
  (db.commissionAccruals.filter (·.accrualRootId = accrualRootId)).insertionSort
    fun a b ↦ a.createdAt ≤ b.createdAt

/-- Every ledger row of one revenue event, oldest first. -/
def listByRevenueEvent (db : Db) (revenueEventId : Uuid) : List CommissionAccrual :=
  (db.commissionAccruals.filter (·.revenueEventId = revenueEventId)).insertionSort
    fun a b ↦ a.createdAt ≤ b.createdAt

/-- The whole ledger of one deal room, newest first. -/
def listByDealRoom (db : Db) (dealRoomId : Uuid) : List CommissionAccrual :=
  (db.commissionAccruals.filter (·.dealRoomId = dealRoomId)).insertionSort
    fun a b ↦ b.createdAt ≤ a.createdAt

/-- Over the `ACCRUAL` rows of one schedule version; a sum over no rows is 0. -/
def sumAccrualAmountByScheduleId (db : Db) (scheduleId : Uuid) : Int :=
  ((db.commissionAccruals.filter fun r ↦ r.scheduleId = scheduleId ∧ r.entryType = .accrual).map
    (·.amountMinor)).sum

/-- The guards that `create` makes before it writes. -/
def checkInput (input : CreateCommissionAccrualInput) : Except Thrown Unit := do
  throwIf (input.inputVersions.length = 0) (inputError s!"inputVersions must not be empty — a {input.entryType} ledger entry with zero recorded input versions has no traceable provenance, contradicting this gate's own exit condition")
  if input.entryType = .accrual then
    throwIf (truthy input.paymentId ∨ truthy input.reason ∨ truthy input.approverUserId ∨
        truthy input.approverOrgId)
      (inputError "entryType ACCRUAL must not carry paymentId/reason/approverUserId/approverOrgId — those belong to ADJUSTMENT/PAYMENT/REVERSAL rows")
    throwIf (input.direction ≠ .credit) (inputError "entryType ACCRUAL must have direction CREDIT — a fresh accrual is always newly-owed money")
  else
    throwIf (¬ truthy input.accrualRootId) (inputError s!"entryType {input.entryType} requires accrualRootId — only a fresh ACCRUAL row may omit it")
    throwIf (input.entryType = .payment ∧ ¬ truthy input.paymentId)
      (inputError "entryType PAYMENT requires paymentId")
    throwIf (input.entryType = .payment ∧ input.direction ≠ .debit) (inputError "entryType PAYMENT must have direction DEBIT — a payment always reduces what's outstanding")
    throwIf (input.entryType = .reversal ∧ input.direction ≠ .debit) (inputError "entryType REVERSAL must have direction DEBIT — a reversal always reduces what's outstanding")
    throwIf ((input.entryType = .adjustment ∨ input.entryType = .reversal) ∧ ¬ truthy input.reason)
      (inputError s!"entryType {input.entryType} requires a reason")

/-- The row that an input becomes. -/
def toRow (input : CreateCommissionAccrualInput) (now : Instant) (id : Uuid) : CommissionAccrual :=
  { id
    accrualRootId := if input.entryType = .accrual then id else input.accrualRootId.getD ""
    entryType := input.entryType, direction := input.direction, amountMinor := input.amountMinor,
    currency := input.currency, dealRoomId := input.dealRoomId,
    revenueEventId := input.revenueEventId, scheduleId := input.scheduleId,
    scheduleVersion := input.scheduleVersion, componentId := input.componentId,
    recipientOrgId := input.recipientOrgId, claimId := input.claimId, paymentId := input.paymentId,
    reason := input.reason, approverUserId := input.approverUserId,
    approverOrgId := input.approverOrgId, calculationVersion := input.calculationVersion,
    inputVersions := input.inputVersions, computedAt := input.computedAt, createdAt := now,
    createdByUserId := input.createdByUserId, createdByOrgId := input.createdByOrgId }

def create (now : Instant) (id : Uuid) (input : CreateCommissionAccrualInput) :
    Tx Db Thrown CommissionAccrual := do
  Tx.check (checkInput input)
  Db.accruals.insert .uniqueViolation (toRow input now id)

def createMany (now : Instant) (ids : ℕ → Uuid) (inputs : List CreateCommissionAccrualInput) :
    Tx Db Thrown (List CommissionAccrual) :=
  Table.insertEach (create now) ids inputs

variable {db db' : Db} {now : Instant}

theorem create_eq_ok {id : Uuid} {input : CreateCommissionAccrualInput} {row : CommissionAccrual}
    (h : create now id input db = .ok (row, db')) :
    row = toRow input now id ∧ id ∉ db.commissionAccruals.map (·.id) ∧
      db' = { db with commissionAccruals := db.commissionAccruals ++ [row] } := by
  obtain ⟨-, -, hinsert⟩ := Tx.check_bind_eq_ok.1 h
  obtain ⟨hfresh, rfl, rfl⟩ := Table.insert_eq_ok_iff.1 hinsert
  exact ⟨rfl, hfresh, rfl⟩

theorem createMany_eq_ok {ids : ℕ → Uuid} {inputs : List CreateCommissionAccrualInput}
    {rows : List CommissionAccrual} (h : createMany now ids inputs db = .ok (rows, db')) :
    List.Forall₂ (fun input row ↦ row = toRow input now row.id) inputs rows ∧
      (rows.map (·.id)).Nodup ∧
      (∀ row ∈ rows, row.id ∉ db.commissionAccruals.map (·.id)) ∧
      db' = { db with commissionAccruals := db.commissionAccruals ++ rows } := by
  have hloop := Table.insertEach_eq_ok (T := Db.accruals)
    (R := fun input row ↦ row = toRow input now row.id) ?_ h
  · obtain ⟨hdb, hrows, hnodup, hfresh⟩ := hloop
    exact ⟨hrows, hnodup, hfresh, hdb⟩
  · intro id input s row s' hcreate
    obtain ⟨rfl, hfresh, rfl⟩ := create_eq_ok hcreate
    exact ⟨rfl, hfresh, rfl⟩

/-! A chain is its rows, whatever the order of the query. -/

theorem listByAccrualRoot_perm (db : Db) (accrualRootId : Uuid) :
    (listByAccrualRoot db accrualRootId).Perm
      (db.commissionAccruals.filter (·.accrualRootId = accrualRootId)) :=
  List.perm_insertionSort _ _

theorem mem_listByAccrualRoot {accrualRootId : Uuid} {row : CommissionAccrual} :
    row ∈ listByAccrualRoot db accrualRootId ↔
      row ∈ db.commissionAccruals ∧ row.accrualRootId = accrualRootId := by
  rw [(listByAccrualRoot_perm db accrualRootId).mem_iff, List.mem_filter, decide_eq_true_eq]

theorem listByRevenueEvent_eq_nil_iff {revenueEventId : Uuid} :
    listByRevenueEvent db revenueEventId = [] ↔
      ∀ row ∈ db.commissionAccruals, row.revenueEventId ≠ revenueEventId := by
  rw [listByRevenueEvent, ← List.length_eq_zero_iff, List.length_insertionSort,
    List.length_eq_zero_iff, List.filter_eq_nil_iff]
  simp only [decide_eq_true_eq, ne_eq]

end CommissionAccrualRepository

/-! ### Commission payments -/

structure CreateCommissionPaymentInput where
  dealRoomId : Uuid
  recipientOrgId : Uuid
  totalAmountMinor : Int
  currency : String
  paidAt : Instant
  reference : String
  evidenceRef : Option String
  createdByUserId : Option Uuid
  createdByOrgId : Option Uuid

namespace CommissionPaymentRepository

/-- `reference` is `@unique`. -/
def create (id : Uuid) (input : CreateCommissionPaymentInput) :
    Tx Db Thrown CommissionPayment := do
  let db ← get
  Tx.check (throwIf (input.reference ∈ db.commissionPayments.map (·.reference)) .uniqueViolation)
  Db.payments.insert .uniqueViolation
    { id, dealRoomId := input.dealRoomId, recipientOrgId := input.recipientOrgId,
      totalAmountMinor := input.totalAmountMinor, currency := input.currency,
      paidAt := input.paidAt, reference := input.reference, evidenceRef := input.evidenceRef,
      createdByUserId := input.createdByUserId, createdByOrgId := input.createdByOrgId }

theorem create_eq_ok {db db' : Db} {id : Uuid} {input : CreateCommissionPaymentInput}
    {row : CommissionPayment} (h : create id input db = .ok (row, db')) :
    row.id = id ∧ db' = { db with commissionPayments := db.commissionPayments ++ [row] } := by
  obtain ⟨-, -, hinsert⟩ := Tx.check_bind_eq_ok.1 (Tx.get_bind_eq_ok.1 h)
  obtain ⟨-, rfl, rfl⟩ := Table.insert_eq_ok_iff.1 hinsert
  exact ⟨rfl, rfl⟩

end CommissionPaymentRepository

/-! ### The trails -/

def AuditRepository.write (event : AuditEvent) : Tx Db Thrown PUnit :=
  modify fun db ↦ { db with auditEvents := db.auditEvents ++ [event] }

def DomainEventRepository.write (event : DomainEvent) : Tx Db Thrown PUnit :=
  modify fun db ↦ { db with domainEvents := db.domainEvents ++ [event] }

end TolPlatform
