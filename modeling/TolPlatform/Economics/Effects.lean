import TolPlatform.Economics.AccrualJob

/-!
# What the transactions write

One lemma for each transaction body of the service and the job: a body that succeeds has done exactly
what the corresponding structure says, guards included. Everything proved later about runs of the
system goes through these structures and never opens a body again.

* `ScheduleWritten`: one new active version, its components, and its predecessor superseded.
* `EventWritten`: one revenue event together with its `ACCRUAL` rows.
* `PaymentWritten`, `AdjustmentWritten`: correction rows on existing chains.
* `JobWritten`: the `ACCRUAL` rows of an event that is already there.
-/

namespace TolPlatform

variable {db db' : Db}

/-! ### Statements that write no ledger row -/

/-- Equal but for the two trails. -/
structure SameTables (db db' : Db) : Prop where
  dealRooms_eq : db'.dealRooms = db.dealRooms
  schedules_eq : db'.commissionSchedules = db.commissionSchedules
  components_eq : db'.commissionComponents = db.commissionComponents
  events_eq : db'.revenueEvents = db.revenueEvents
  accruals_eq : db'.commissionAccruals = db.commissionAccruals
  payments_eq : db'.commissionPayments = db.commissionPayments
  keys_eq : db'.idempotencyKeys = db.idempotencyKeys

theorem SameTables.trans {db₁ db₂ db₃ : Db} (h : SameTables db₁ db₂) (h' : SameTables db₂ db₃) :
    SameTables db₁ db₃ :=
  ⟨h'.dealRooms_eq.trans h.dealRooms_eq, h'.schedules_eq.trans h.schedules_eq,
    h'.components_eq.trans h.components_eq, h'.events_eq.trans h.events_eq,
    h'.accruals_eq.trans h.accruals_eq, h'.payments_eq.trans h.payments_eq,
    h'.keys_eq.trans h.keys_eq⟩

theorem sameTables_of_audit {event : AuditEvent} {u : PUnit}
    (h : AuditRepository.write event db = .ok (u, db')) : SameTables db db' := by
  obtain ⟨-, rfl⟩ := Prod.mk.inj (Except.ok.inj h)
  exact ⟨rfl, rfl, rfl, rfl, rfl, rfl, rfl⟩

theorem sameTables_of_timeline {event : DomainEvent} {u : PUnit}
    (h : DomainEventRepository.write event db = .ok (u, db')) : SameTables db db' := by
  obtain ⟨-, rfl⟩ := Prod.mk.inj (Except.ok.inj h)
  exact ⟨rfl, rfl, rfl, rfl, rfl, rfl, rfl⟩

/-- The two trail writes that end every transaction. -/
theorem sameTables_of_trails {α : Type} {audit : AuditEvent} {timeline : DomainEvent}
    {rest : PUnit → Tx Db Thrown α} {r : α × Db}
    (h : (do AuditRepository.write audit; DomainEventRepository.write timeline >>= rest) db =
      .ok r) :
    ∃ db₂, SameTables db db₂ ∧ rest ⟨⟩ db₂ = .ok r := by
  obtain ⟨_, db₁, haudit, h⟩ := Tx.bind_eq_ok.1 h
  obtain ⟨_, db₂, htimeline, h⟩ := Tx.bind_eq_ok.1 h
  exact ⟨db₂, (sameTables_of_audit haudit).trans (sameTables_of_timeline htimeline), h⟩

/-- Rows appended to the ledger under new, distinct ids, each made from its input. -/
structure RowsAppended (db db' : Db) (now : Instant) (inputs : List CreateCommissionAccrualInput)
    (rows : List CommissionAccrual) : Prop where
  accruals_eq : db'.commissionAccruals = db.commissionAccruals ++ rows
  made : List.Forall₂ (fun input row ↦ row = CommissionAccrualRepository.toRow input now row.id)
    inputs rows
  nodup : (rows.map (·.id)).Nodup
  fresh : ∀ row ∈ rows, row.id ∉ db.commissionAccruals.map (·.id)

/-- Every appended row is made from some input. -/
theorem RowsAppended.exists_input {now : Instant} {inputs : List CreateCommissionAccrualInput}
    {rows : List CommissionAccrual} (h : RowsAppended db db' now inputs rows)
    {row : CommissionAccrual} (hrow : row ∈ rows) :
    ∃ input ∈ inputs, row = CommissionAccrualRepository.toRow input now row.id :=
  h.made.exists_left hrow

/-! ### Creating a schedule -/

/-- The rows of the schedule table once `previous` is superseded. -/
def retire (actor : Actor) (previous : Option CommissionSchedule) (s : CommissionSchedule) :
    CommissionSchedule :=
  if previous.map (·.id) = some s.id then
    CommissionScheduleRepository.withStatus .superseded (some actor.userId) s
  else s

/-- A committed `createSchedule`. -/
structure ScheduleWritten (call : ServiceCall CreateScheduleRequest) (plan : SchedulePlan)
    (db db' : Db) (new : CommissionSchedule) (components : List CommissionComponent) : Prop where
  schedules_eq : db'.commissionSchedules =
    db.commissionSchedules.map (retire call.actor plan.previous) ++ [new]
  components_eq : db'.commissionComponents = db.commissionComponents ++ components
  fresh : new.id ∉ db.commissionSchedules.map (·.id)
  active : new.status = .active
  basis : new.basis = call.input.basis
  dealRoom : new.dealRoomId = call.dealRoomId
  previousVersion : new.previousVersionId = plan.previous.map (·.id)
  familyAndVersion : CommissionScheduleRepository.familyAndVersion db new.id
    (plan.previous.map (·.id)) = .ok (new.scheduleFamilyId, new.versionNumber)
  own : ∀ c ∈ components, c.scheduleId = new.id
  components_nodup : (components.map (·.id)).Nodup
  components_fresh : ∀ c ∈ components, c.id ∉ db.commissionComponents.map (·.id)
  dealRooms_eq : db'.dealRooms = db.dealRooms
  events_eq : db'.revenueEvents = db.revenueEvents
  accruals_eq : db'.commissionAccruals = db.commissionAccruals
  payments_eq : db'.commissionPayments = db.commissionPayments
  keys_eq : db'.idempotencyKeys = db.idempotencyKeys

/-- `supersede` rewrites the previous version's row and nothing else. -/
theorem supersede_eq_ok {actor : Actor} {previous : Option CommissionSchedule} {u : PUnit}
    (h : supersede actor previous db = .ok (u, db')) :
    db' = { db with
      commissionSchedules := db.commissionSchedules.map (retire actor previous) } := by
  rcases previous with - | previous
  · obtain ⟨-, rfl⟩ := Prod.mk.inj (Tx.pure_eq_ok.1 h)
    have hid : db'.commissionSchedules.map (retire actor none) = db'.commissionSchedules :=
      List.map_id'' (fun s ↦ by simp [retire]) _
    rw [hid]
  · obtain ⟨row, s₁, hupdate, hret⟩ := Tx.bind_eq_ok.1 h
    obtain ⟨-, rfl⟩ := Prod.mk.inj (Tx.pure_eq_ok.1 hret)
    obtain ⟨-, -, -, rfl⟩ := CommissionScheduleRepository.updateStatus_eq_ok hupdate
    have hretire : retire actor (some previous) = fun s ↦ if s.id = previous.id then
        CommissionScheduleRepository.withStatus .superseded (some actor.userId) s else s := by
      funext s
      simp only [retire, Option.map_some, Option.some.injEq, eq_comm]
    rw [hretire]

/-- Rewriting the row just inserted leaves the other rows alone. -/
theorem map_activate_append {id : Uuid} {rows : List CommissionSchedule}
    (hfresh : id ∉ rows.map (·.id)) {f : CommissionSchedule → CommissionSchedule}
    {new : CommissionSchedule} (hnew : new.id = id) :
    ((rows ++ [new]).map fun s ↦ if s.id = id then f s else s) = rows ++ [f new] := by
  have hrows : (rows.map fun s ↦ if s.id = id then f s else s) = rows.map fun s ↦ s := by
    refine List.map_congr_left fun s hs ↦ ?_
    have hne : s.id ≠ id := fun heq ↦ hfresh (heq ▸ List.mem_map_of_mem hs)
    exact if_neg hne
  rw [List.map_append, hrows, List.map_id']
  simp [hnew]

/-- A predecessor that `familyAndVersion` found is not the version being created. -/
theorem retire_of_fresh {actor : Actor} {previous : Option CommissionSchedule}
    {new : CommissionSchedule} {fv : Uuid × Int}
    (hfv : CommissionScheduleRepository.familyAndVersion db new.id (previous.map (·.id)) = .ok fv)
    (hfresh : new.id ∉ db.commissionSchedules.map (·.id)) : retire actor previous new = new := by
  refine if_neg fun hprev ↦ hfresh ?_
  rw [hprev] at hfv
  rcases hfind : CommissionScheduleRepository.findById db new.id with - | found
  · simp [CommissionScheduleRepository.familyAndVersion, hfind] at hfv
  · have hid : found.id = new.id := by simpa using List.find?_some hfind
    exact hid ▸ List.mem_map_of_mem (List.mem_of_find?_eq_some hfind)

theorem toComponentInput_scheduleId {actor : Actor} {scheduleId : Uuid} {c : CommissionComponentInput}
    {input : CreateCommissionComponentInput} (h : toComponentInput actor scheduleId c = .ok input) :
    input.scheduleId = scheduleId := by
  obtain ⟨_, -, hret⟩ := Except.bind_eq_ok'.1 h
  rw [← Except.ok.inj hret]

/-- **What `createSchedule` commits.** -/
theorem commitSchedule_eq_ok {e : Draws} {call : ServiceCall CreateScheduleRequest}
    {plan : SchedulePlan} {detail : ScheduleDetail}
    (h : commitSchedule e call plan db = .ok (detail, db')) :
    ∃ new components, ScheduleWritten call plan db db' new components := by
  obtain ⟨draft, s₁, hcreate, h⟩ := Tx.bind_eq_ok.1 h
  obtain ⟨fv, hfv, hdraft, hfresh, rfl⟩ := CommissionScheduleRepository.create_eq_ok hcreate
  obtain ⟨-, -, h⟩ := Tx.check_bind_eq_ok.1 h
  obtain ⟨activated, s₂, hactivate, h⟩ := Tx.bind_eq_ok.1 h
  obtain ⟨-, -, -, rfl⟩ := CommissionScheduleRepository.updateStatus_eq_ok hactivate
  obtain ⟨-, -, h⟩ := Tx.check_bind_eq_ok.1 h
  obtain ⟨inputs, hinputs, h⟩ := Tx.check_bind_eq_ok.1 h
  obtain ⟨components, s₃, hcomponents, h⟩ := Tx.bind_eq_ok.1 h
  obtain ⟨hmade, hnodup, hnew, rfl⟩ := CommissionComponentRepository.createMany_eq_ok hcomponents
  obtain ⟨_, s₄, hsupersede, h⟩ := Tx.bind_eq_ok.1 h
  obtain rfl := supersede_eq_ok hsupersede
  obtain ⟨s₅, htrails, h⟩ := sameTables_of_trails h
  obtain ⟨_, -, h⟩ := Tx.check_bind_eq_ok.1 h
  obtain ⟨-, rfl⟩ := Prod.mk.inj (Tx.pure_eq_ok.1 h)
  have hid : draft.id = e.ids 0 := by rw [hdraft]; rfl
  rw [← hid] at hfresh hfv
  have hschedules : db'.commissionSchedules =
      db.commissionSchedules.map (retire call.actor plan.previous) ++
        [CommissionScheduleRepository.withStatus .active (some call.actor.userId) draft] := by
    rw [htrails.schedules_eq]
    show ((db.commissionSchedules ++ [draft]).map _).map _ = _
    rw [map_activate_append hfresh rfl, List.map_append]
    exact congrArg (fun s ↦ _ ++ [s]) (retire_of_fresh hfv hfresh)
  have hown : ∀ c ∈ components, c.scheduleId = draft.id := by
    intro c hc
    obtain ⟨input, hinput, hc⟩ := hmade.exists_left hc
    obtain ⟨submitted, -, hsubmitted⟩ := (Except.mapM_eq_ok.1 hinputs).exists_left hinput
    rw [hc]
    exact toComponentInput_scheduleId hsubmitted
  exact ⟨CommissionScheduleRepository.withStatus .active (some call.actor.userId) draft, components,
    { schedules_eq := hschedules, components_eq := htrails.components_eq, fresh := hfresh,
      active := rfl, basis := by rw [hdraft]; rfl, dealRoom := by rw [hdraft]; rfl,
      previousVersion := by rw [hdraft]; rfl,
      familyAndVersion := by rw [hdraft] at hfv ⊢; exact hfv, own := hown,
      components_nodup := hnodup, components_fresh := hnew, dealRooms_eq := htrails.dealRooms_eq,
      events_eq := htrails.events_eq, accruals_eq := htrails.accruals_eq,
      payments_eq := htrails.payments_eq, keys_eq := htrails.keys_eq }⟩

/-! ### Recording a revenue event -/

/-- A committed `recordRevenueEvent`. -/
structure EventWritten (e : Draws) (call : ServiceCall RecordRevenueEventRequest)
    (plan : RevenuePlan) (db db' : Db) (event : RevenueEvent) (rows : List CommissionAccrual) :
    Prop where
  events_eq : db'.revenueEvents = db.revenueEvents ++ [event]
  fresh : event.id ∉ db.revenueEvents.map (·.id)
  dealRoom : event.dealRoomId = call.dealRoomId
  schedule : event.scheduleId = plan.schedule.id
  basis : event.basis = call.input.basis
  net : event.netDistributableMinor = plan.netDistributableMinor
  rows : RowsAppended db db' e.now (plan.split.entries.map (accrualInput event plan.schedule
    plan.split (some call.actor.userId) call.actor.organizationId)) rows
  dealRooms_eq : db'.dealRooms = db.dealRooms
  schedules_eq : db'.commissionSchedules = db.commissionSchedules
  components_eq : db'.commissionComponents = db.commissionComponents
  payments_eq : db'.commissionPayments = db.commissionPayments
  keys_eq : db'.idempotencyKeys = db.idempotencyKeys

/-- **What `recordRevenueEvent` commits.** -/
theorem commitRevenueEvent_eq_ok {e : Draws} {call : ServiceCall RecordRevenueEventRequest}
    {dealRoom : DealRoom} {plan : RevenuePlan} {event : RevenueEvent}
    {rows : List CommissionAccrual}
    (h : commitRevenueEvent e call dealRoom plan db = .ok ((event, rows), db')) :
    EventWritten e call plan db db' event rows := by
  obtain ⟨event, s₁, hcreate, h⟩ := Tx.bind_eq_ok.1 h
  obtain ⟨hevent, -, hfresh, -, rfl⟩ := RevenueEventRepository.create_eq_ok hcreate
  obtain ⟨rows, s₂, hrows, h⟩ := Tx.bind_eq_ok.1 h
  obtain ⟨hmade, hnodup, hnew, rfl⟩ := CommissionAccrualRepository.createMany_eq_ok hrows
  obtain ⟨s₃, htrails, h⟩ := sameTables_of_trails h
  obtain ⟨hret, rfl⟩ := Prod.mk.inj (Tx.pure_eq_ok.1 h)
  obtain ⟨rfl, rfl⟩ := Prod.mk.inj hret
  exact
    { events_eq := htrails.events_eq, fresh := by rw [hevent]; exact hfresh
      dealRoom := by rw [hevent]; rfl, schedule := by rw [hevent]; rfl
      basis := by rw [hevent]; rfl, net := by rw [hevent]; rfl
      rows := ⟨htrails.accruals_eq, hmade, hnodup, hnew⟩, dealRooms_eq := htrails.dealRooms_eq
      schedules_eq := htrails.schedules_eq, components_eq := htrails.components_eq
      payments_eq := htrails.payments_eq, keys_eq := htrails.keys_eq }

/-! ### Payments and adjustments -/

/-- A committed `recordPayment`. -/
structure PaymentWritten (e : Draws) (call : ServiceCall RecordPaymentRequest) (plan : PaymentPlan)
    (valid : ValidatedPayment) (db db' : Db) (rows : List CommissionAccrual) : Prop where
  rows : ∃ paymentId, RowsAppended db db' e.now
    (valid.loaded.map (paymentInput call plan valid.currency paymentId)) rows
  dealRooms_eq : db'.dealRooms = db.dealRooms
  schedules_eq : db'.commissionSchedules = db.commissionSchedules
  components_eq : db'.commissionComponents = db.commissionComponents
  events_eq : db'.revenueEvents = db.revenueEvents
  keys_eq : db'.idempotencyKeys = db.idempotencyKeys

/-- **What `recordPayment` commits.** -/
theorem commitPayment_eq_ok {e : Draws} {call : ServiceCall RecordPaymentRequest}
    {plan : PaymentPlan} {valid : ValidatedPayment} {payment : CommissionPayment}
    {rows : List CommissionAccrual}
    (h : commitPayment e call plan valid db = .ok ((payment, rows), db')) :
    PaymentWritten e call plan valid db db' rows := by
  obtain ⟨payment, s₁, hcreate, h⟩ := Tx.bind_eq_ok.1 h
  obtain ⟨-, rfl⟩ := CommissionPaymentRepository.create_eq_ok hcreate
  obtain ⟨rows, s₂, hrows, h⟩ := Tx.bind_eq_ok.1 h
  obtain ⟨hmade, hnodup, hnew, rfl⟩ := CommissionAccrualRepository.createMany_eq_ok hrows
  obtain ⟨s₃, htrails, h⟩ := sameTables_of_trails h
  obtain ⟨hret, rfl⟩ := Prod.mk.inj (Tx.pure_eq_ok.1 h)
  obtain ⟨rfl, rfl⟩ := Prod.mk.inj hret
  exact
    { rows := ⟨_, htrails.accruals_eq, hmade, hnodup, hnew⟩, dealRooms_eq := htrails.dealRooms_eq
      schedules_eq := htrails.schedules_eq, components_eq := htrails.components_eq
      events_eq := htrails.events_eq, keys_eq := htrails.keys_eq }

/-- A committed `adjustLedger`. -/
structure AdjustmentWritten (P : Platform) (e : Draws) (call : ServiceCall AdjustLedgerRequest)
    (plan : AdjustmentPlan) (root : CommissionAccrual) (db db' : Db) (row : CommissionAccrual) :
    Prop where
  rows : RowsAppended db db' e.now [adjustmentInput P e.now call plan root] [row]
  dealRooms_eq : db'.dealRooms = db.dealRooms
  schedules_eq : db'.commissionSchedules = db.commissionSchedules
  components_eq : db'.commissionComponents = db.commissionComponents
  events_eq : db'.revenueEvents = db.revenueEvents
  keys_eq : db'.idempotencyKeys = db.idempotencyKeys

/-- **What `adjustLedger` commits.** -/
theorem commitAdjustment_eq_ok {P : Platform} {e : Draws} {call : ServiceCall AdjustLedgerRequest}
    {plan : AdjustmentPlan} {root row : CommissionAccrual}
    (h : commitAdjustment P e call plan root db = .ok (row, db')) :
    AdjustmentWritten P e call plan root db db' row := by
  obtain ⟨row, s₁, hcreate, h⟩ := Tx.bind_eq_ok.1 h
  obtain ⟨hrow, hfresh, rfl⟩ := CommissionAccrualRepository.create_eq_ok hcreate
  obtain ⟨s₂, htrails, h⟩ := sameTables_of_trails h
  obtain ⟨rfl, rfl⟩ := Prod.mk.inj (Tx.pure_eq_ok.1 h)
  have hid : row.id = e.ids 0 := by rw [hrow]; rfl
  refine
    { rows := ⟨htrails.accruals_eq, .cons ?_ .nil, by simp, ?_⟩
      dealRooms_eq := htrails.dealRooms_eq, schedules_eq := htrails.schedules_eq
      components_eq := htrails.components_eq, events_eq := htrails.events_eq
      keys_eq := htrails.keys_eq }
  · rw [hid]
    exact hrow
  · intro r hr
    obtain rfl := List.mem_singleton.1 hr
    rw [hid]
    exact hfresh

/-! ### The accrual job -/

/-- The accruals of a job's event. -/
structure JobWritten (e : Draws) (plan : JobPlan) (db db' : Db)
    (split : ComputeCommissionSplitsResult) (rows : List CommissionAccrual) : Prop where
  computed : computeCommissionSplits
    { netDistributableMinor := plan.revenueEvent.netDistributableMinor
      components := targetedComponents db plan.schedule plan.revenueEvent.basis
      scheduleId := plan.schedule.id, scheduleVersion := plan.schedule.versionNumber
      now := plan.revenueEvent.recognizedAt } = .ok split
  rows : RowsAppended db db' e.now
    (split.entries.map (accrualInput plan.revenueEvent plan.schedule split none none)) rows
  dealRooms_eq : db'.dealRooms = db.dealRooms
  schedules_eq : db'.commissionSchedules = db.commissionSchedules
  components_eq : db'.commissionComponents = db.commissionComponents
  events_eq : db'.revenueEvents = db.revenueEvents

theorem splitOrError_eq_ok_iff {revenueEventId : Uuid} {input : ComputeCommissionSplitsInput}
    {split : ComputeCommissionSplitsResult} :
    splitOrError revenueEventId input = .ok split ↔ computeCommissionSplits input = .ok split := by
  unfold splitOrError
  split
  · next hsplit => simp [hsplit]
  · exact Iff.rfl

theorem accrueEvent_eq_ok {e : Draws} {plan : JobPlan} {result : EconomicsAccrualJobResult}
    (h : accrueEvent e plan db = .ok (result, db')) :
    ∃ split rows, JobWritten e plan db db' split rows := by
  obtain ⟨revenueEvent, dealRoom, schedule⟩ := plan
  have h := Tx.get_bind_eq_ok.1 h
  obtain ⟨-, -, h⟩ := Tx.check_bind_eq_ok.1 h
  obtain ⟨split, hsplit, h⟩ := Tx.check_bind_eq_ok.1 h
  obtain ⟨rows, s₁, hrows, h⟩ := Tx.bind_eq_ok.1 h
  obtain ⟨hmade, hnodup, hnew, rfl⟩ := CommissionAccrualRepository.createMany_eq_ok hrows
  obtain ⟨s₂, htrails, h⟩ := sameTables_of_trails h
  obtain ⟨-, rfl⟩ := Prod.mk.inj (Tx.pure_eq_ok.1 h)
  exact ⟨split, rows,
    { computed := splitOrError_eq_ok_iff.1 hsplit
      rows := ⟨htrails.accruals_eq, hmade, hnodup, hnew⟩, dealRooms_eq := htrails.dealRooms_eq
      schedules_eq := htrails.schedules_eq, components_eq := htrails.components_eq
      events_eq := htrails.events_eq }⟩

/-- Bookkeeping of the job's own key: every other table is as it was. -/
structure OnlyKeys (db db' : Db) : Prop where
  dealRooms_eq : db'.dealRooms = db.dealRooms
  schedules_eq : db'.commissionSchedules = db.commissionSchedules
  components_eq : db'.commissionComponents = db.commissionComponents
  events_eq : db'.revenueEvents = db.revenueEvents
  accruals_eq : db'.commissionAccruals = db.commissionAccruals

theorem onlyKeys_of_catch {body : Tx Db Thrown PUnit} {aborted : Bool}
    (hbody : ∀ {u s s'}, body s = .ok (u, s') → OnlyKeys s s')
    (h : catchUniqueViolation body db = .ok (aborted, db')) : OnlyKeys db db' := by
  rcases hb : body db with thrown | ⟨u, s⟩
  · cases thrown <;> simp [catchUniqueViolation, hb] at h
    obtain ⟨-, rfl⟩ := h
    exact ⟨rfl, rfl, rfl, rfl, rfl⟩
  · simp only [catchUniqueViolation, hb, Except.ok.injEq, Prod.mk.injEq] at h
    obtain ⟨-, rfl⟩ := h
    exact hbody hb

theorem JobWritten.onlyKeys {e : Draws} {plan : JobPlan} {db₁ db₂ db₃ : Db}
    {split : ComputeCommissionSplitsResult} {rows : List CommissionAccrual}
    (h : JobWritten e plan db₁ db₂ split rows) (hk : OnlyKeys db₂ db₃) :
    JobWritten e plan db₁ db₃ split rows :=
  { computed := h.computed
    rows := { h.rows with accruals_eq := hk.accruals_eq.trans h.rows.accruals_eq }
    dealRooms_eq := hk.dealRooms_eq.trans h.dealRooms_eq
    schedules_eq := hk.schedules_eq.trans h.schedules_eq
    components_eq := hk.components_eq.trans h.components_eq
    events_eq := hk.events_eq.trans h.events_eq }

/-- **What the job commits**: nothing, when its key already has an answer, or the event's rows. -/
theorem commitJob_eq_ok {P : Platform} {e : Draws} {plan : JobPlan} {outcome : JobOutcome}
    (h : commitJob P e plan db = .ok (outcome, db')) :
    db' = db ∨ ∃ split rows, JobWritten e plan db db' split rows := by
  have h := Tx.get_bind_eq_ok.1 h
  rcases hfind : (IdempotencyRepository.find Db.jobKeys db "worker.economics-accrual"
      plan.revenueEvent.id).filter (·.responseStatus ≠ none) with - | existing
  · simp only [hfind] at h
    obtain ⟨result, s₁, hhandler, h⟩ := Tx.bind_eq_ok.1 h
    obtain ⟨aborted, s₂, hrecord, h⟩ := Tx.bind_eq_ok.1 h
    obtain ⟨-, rfl⟩ := Prod.mk.inj (Tx.pure_eq_ok.1 h)
    obtain ⟨split, rows, hwritten⟩ := accrueEvent_eq_ok hhandler
    refine .inr ⟨split, rows, hwritten.onlyKeys (onlyKeys_of_catch ?_ hrecord)⟩
    intro u s s' hbody
    obtain ⟨reservation, t, hreserve, hbody⟩ := Tx.bind_eq_ok.1 hbody
    obtain ⟨_, t', hcomplete, hret⟩ := Tx.bind_eq_ok.1 hbody
    obtain ⟨-, rfl⟩ := Prod.mk.inj (Tx.pure_eq_ok.1 hret)
    obtain ⟨-, -, hinsert⟩ := Tx.check_bind_eq_ok.1 (Tx.get_bind_eq_ok.1 hreserve)
    obtain ⟨-, -, rfl⟩ := Table.insert_eq_ok_iff.1 hinsert
    obtain ⟨-, -, -, rfl⟩ := Table.update_eq_ok_iff.1 hcomplete
    exact ⟨rfl, rfl, rfl, rfl, rfl⟩
  · simp only [hfind] at h
    obtain ⟨_, -, h⟩ := Tx.check_bind_eq_ok.1 h
    obtain ⟨-, rfl⟩ := Prod.mk.inj (Tx.pure_eq_ok.1 h)
    exact .inl rfl

end TolPlatform
