import TolPlatform.Economics.Consistency

/-!
# What each party may rely on

The proof outline of the economics system. Between any two steps the database is `Consistent`; a
party inside a locked transaction holds its lock (`Local.lockKey`), and a party that has read
something still knows it (`Knows`).

What a party knows is the interesting part. A payment or an adjustment knows that reading its chains
again would give exactly what it read: nobody else writes to the chains of a deal room whose lock is
held. A job knows that its event has no accruals yet: whoever accrues a recorded event holds the lock
on that event. `recordRevenueEvent` knows that its split is a split of its schedule's components,
but *not* that the schedule is still active, and `createSchedule` knows of the version it supersedes
only that it is active or already superseded by somebody (`PreviousKnown`).
-/

namespace TolPlatform

/-! ### What the reads establish -/

/-- The amount that a payment entry asks for. -/
def PaymentEntry.minorUnits (p : PaymentEntry) : Int := (bigIntOfString p.amountMinor).getD 0

/-- The amount that an adjustment asks for. -/
def AdjustLedgerRequest.minorUnits (r : AdjustLedgerRequest) : Int :=
  (bigIntOfString r.amountMinor).getD 0

section Reads

variable {db : Db}

theorem loadAndValidatePayment_eq_ok {dealRoomId : Uuid} {p : PaymentEntry} {l : LoadedPayment}
    (h : loadAndValidatePayment db dealRoomId p = .ok l) :
    ∃ rest, CommissionAccrualRepository.listByAccrualRoot db p.accrualRootId = l.root :: rest ∧
      l.root.dealRoomId = dealRoomId ∧ l.accrualRootId = p.accrualRootId ∧
      l.amountMinor = p.minorUnits ∧ 0 < l.amountMinor ∧
      Rooted ((l.root :: rest).map CommissionAccrual.toLike) ∧
      l.amountMinor ≤ outstandingOf ((l.root :: rest).map CommissionAccrual.toLike) := by
  unfold loadAndValidatePayment at h
  rcases hchain : CommissionAccrualRepository.listByAccrualRoot db p.accrualRootId with
    - | ⟨root, rest⟩
  · simp [hchain] at h
  · simp only [hchain, Except.bind_eq_ok', throwIf_eq_ok_iff, computeAccrualBalance_eq_ok_iff] at h
    obtain ⟨_, hdeal, _, ⟨hrooted, rfl⟩, _, -, amountMinor, hparse, _, hpos, _, hle, hret⟩ := h
    obtain rfl := Except.ok.inj hret
    have hamount : amountMinor = p.minorUnits := by
      rw [PaymentEntry.minorUnits, bigIntOfString_of_parseBigIntMinorUnits hparse]
      rfl
    exact ⟨rest, rfl, not_not.1 hdeal, rfl, hamount, not_le.1 hpos, hrooted, not_lt.1 hle⟩

theorem loadAdjustableChain_eq_ok {call : ServiceCall AdjustLedgerRequest}
    {root : CommissionAccrual} {chain : List CommissionAccrual}
    (h : loadAdjustableChain db call = .ok (root, chain)) :
    chain = CommissionAccrualRepository.listByAccrualRoot db call.input.accrualRootId ∧
      root ∈ chain ∧ root.dealRoomId = call.dealRoomId ∧
      Rooted (chain.map CommissionAccrual.toLike) := by
  unfold loadAdjustableChain at h
  rcases hchain : CommissionAccrualRepository.listByAccrualRoot db call.input.accrualRootId with
    - | ⟨root, rest⟩
  · simp [hchain] at h
  · simp only [hchain, Except.bind_eq_ok', throwIf_eq_ok_iff, computeAccrualBalance_eq_ok_iff] at h
    obtain ⟨-, hdeal, balance, ⟨hrooted, -⟩, -, -, hret⟩ := h
    obtain ⟨rfl, rfl⟩ := Prod.mk.inj (Except.ok.inj hret)
    exact ⟨rfl, List.mem_cons_self, not_not.1 hdeal, hrooted⟩

theorem revalidatePayment_eq_ok {call : ServiceCall RecordPaymentRequest} {valid : ValidatedPayment}
    (h : revalidatePayment db call = .ok valid) :
    loadAndValidatePayments db call.dealRoomId call.input.payments = .ok valid.loaded := by
  obtain ⟨loaded, hloaded, h⟩ := Except.bind_eq_ok'.1 h
  obtain ⟨single, -, hret⟩ := Except.bind_eq_ok'.1 h
  obtain rfl := Except.ok.inj hret
  exact hloaded

/-- Every entry of a validated batch was validated on its own. -/
theorem exists_entry_of_mem_loaded {call : ServiceCall RecordPaymentRequest}
    {valid : ValidatedPayment} (h : revalidatePayment db call = .ok valid) {l : LoadedPayment}
    (hl : l ∈ valid.loaded) :
    ∃ p ∈ call.input.payments, loadAndValidatePayment db call.dealRoomId p = .ok l :=
  (Except.mapM_eq_ok.1 (revalidatePayment_eq_ok h)).exists_left hl

theorem precheckAdjustment_eq_ok {call : ServiceCall AdjustLedgerRequest} {plan : AdjustmentPlan}
    (h : precheckAdjustment db call = .ok plan) :
    0 < plan.amountMinor ∧ plan.amountMinor = call.input.minorUnits := by
  simp only [precheckAdjustment, Except.bind_eq_ok', throwIf_eq_ok_iff] at h
  obtain ⟨_, -, _, -, _, -, amountMinor, hparse, _, hpos, hret⟩ := h
  obtain rfl := Except.ok.inj hret
  refine ⟨not_le.1 hpos, ?_⟩
  rw [AdjustLedgerRequest.minorUnits, bigIntOfString_of_parseBigIntMinorUnits hparse]
  rfl

theorem splitOrBadRequest_eq_ok_iff {input : ComputeCommissionSplitsInput}
    {split : ComputeCommissionSplitsResult} :
    splitOrBadRequest input = .ok split ↔ computeCommissionSplits input = .ok split := by
  unfold splitOrBadRequest
  split
  · next hsplit => simp [hsplit]
  · exact Iff.rfl

theorem chooseSchedule_eq_ok_iff {dealRoomId : Uuid} {basis : CommissionBasis}
    {schedule : CommissionSchedule} : chooseSchedule db dealRoomId basis = .ok schedule ↔
      (CommissionScheduleRepository.listActiveByDealRoom db dealRoomId).find? (·.basis = basis) =
        some schedule := by
  unfold chooseSchedule
  split
  · next hfind => simp [hfind]
  · next found hfind => rw [hfind, Except.ok.injEq, Option.some.injEq]

theorem mem_listActiveByDealRoom {dealRoomId : Uuid} {s : CommissionSchedule} :
    s ∈ CommissionScheduleRepository.listActiveByDealRoom db dealRoomId ↔
      s ∈ db.commissionSchedules ∧ s.dealRoomId = dealRoomId ∧ s.status = .active := by
  rw [CommissionScheduleRepository.listActiveByDealRoom, List.mem_insertionSort, List.mem_filter,
    decide_eq_true_eq]

/-- The schedule that an event is booked against was active when it was chosen. -/
theorem mem_of_chooseSchedule {dealRoomId : Uuid} {basis : CommissionBasis}
    {schedule : CommissionSchedule} (h : chooseSchedule db dealRoomId basis = .ok schedule) :
    schedule ∈ db.commissionSchedules ∧ schedule.dealRoomId = dealRoomId ∧
      schedule.status = .active ∧ schedule.basis = basis := by
  have hfind := chooseSchedule_eq_ok_iff.1 h
  obtain ⟨hmem, hdeal, hactive⟩ := mem_listActiveByDealRoom.1 (List.mem_of_find?_eq_some hfind)
  exact ⟨hmem, hdeal, hactive, by simpa using List.find?_some hfind⟩

/-- What the remainder of the planning returns. -/
theorem planAgainst_eq_ok {call : ServiceCall RecordRevenueEventRequest} {now : Instant}
    {schedule : CommissionSchedule} {plan : RevenuePlan}
    (h : planAgainst db call now schedule = .ok plan) :
    plan.schedule = schedule ∧ IsSplitOf plan.netDistributableMinor
      (targetedComponents db schedule call.input.basis) plan.split.entries := by
  simp only [planAgainst, Except.bind_eq_ok', throwIf_eq_ok_iff, splitOrBadRequest_eq_ok_iff] at h
  obtain ⟨gross, -, deductions, -, -, -, -, -, split, hsplit, hret⟩ := h
  obtain rfl := Except.ok.inj hret
  exact ⟨rfl, isSplitOf_of_computeCommissionSplits hsplit⟩

theorem planRevenueEvent_eq_ok {call : ServiceCall RecordRevenueEventRequest} {now : Instant}
    {plan : RevenuePlan} (h : planRevenueEvent db call now = .ok plan) :
    chooseSchedule db call.dealRoomId call.input.basis = .ok plan.schedule ∧
      IsSplitOf plan.netDistributableMinor (targetedComponents db plan.schedule call.input.basis)
        plan.split.entries := by
  obtain ⟨schedule, hschedule, hplan⟩ := Except.bind_eq_ok'.1 h
  obtain ⟨rfl, hsplit⟩ := planAgainst_eq_ok hplan
  exact ⟨hschedule, hsplit⟩

theorem clearJob_eq_inr {revenueEventId : Uuid} {plan : JobPlan}
    (h : clearJob db revenueEventId = .ok (.inr plan)) :
    plan.revenueEvent.id = revenueEventId ∧ plan.revenueEvent ∈ db.revenueEvents ∧
      (∀ row ∈ db.commissionAccruals, row.revenueEventId ≠ revenueEventId) ∧
      plan.schedule ∈ db.commissionSchedules ∧ plan.schedule.id = plan.revenueEvent.scheduleId := by
  unfold clearJob at h
  rcases hevent : RevenueEventRepository.findById db revenueEventId with - | event
  · simp [hevent] at h
  · simp only [hevent] at h
    split_ifs at h with hrows
    · simp at h
    rcases hdeal : DealRoomRepository.findById db event.dealRoomId with - | dealRoom
    · simp [hdeal] at h
    rcases hschedule : CommissionScheduleRepository.findById db event.scheduleId with - | schedule
    · simp [hdeal, hschedule] at h
    simp only [hdeal, hschedule] at h
    split_ifs at h with hactive
    · simp at h
    obtain rfl := Sum.inr.inj (Except.ok.inj h)
    have hnil : CommissionAccrualRepository.listByRevenueEvent db revenueEventId = [] :=
      List.length_eq_zero_iff.1 (by omega)
    exact ⟨by simpa using List.find?_some hevent, List.mem_of_find?_eq_some hevent,
      CommissionAccrualRepository.listByRevenueEvent_eq_nil_iff.1 hnil,
      List.mem_of_find?_eq_some hschedule, by simpa using List.find?_some hschedule⟩

theorem loadPrevious_eq_ok {dealRoomId : Uuid} {supersedesScheduleId : Option Uuid}
    {previous : Option CommissionSchedule}
    (h : loadPrevious db dealRoomId supersedesScheduleId = .ok previous) :
    previous.map (·.id) = supersedesScheduleId ∧
      ∀ v, previous = some v → v ∈ db.commissionSchedules ∧ v.status = .active := by
  rcases supersedesScheduleId with - | id
  · obtain rfl := Except.ok.inj h
    exact ⟨rfl, fun v hv ↦ by cases hv⟩
  · simp only [loadPrevious] at h
    rcases hfind : CommissionScheduleRepository.findById db id with - | found
    · simp [hfind] at h
    · simp only [hfind, Except.bind_eq_ok', throwIf_eq_ok_iff] at h
      obtain ⟨-, -, -, hactive, -, -, hret⟩ := h
      obtain rfl := Except.ok.inj hret
      have hid : found.id = id := by simpa using List.find?_some hfind
      refine ⟨congrArg some hid, fun v hv ↦ ?_⟩
      obtain rfl := Option.some.inj hv
      exact ⟨List.mem_of_find?_eq_some hfind, not_not.1 hactive⟩

theorem prepareSchedule_eq_ok {call : ServiceCall CreateScheduleRequest} {plan : SchedulePlan}
    (h : prepareSchedule db call = .ok plan) :
    plan.previous.map (·.id) = call.input.supersedesScheduleId ∧
      ∀ v, plan.previous = some v → v ∈ db.commissionSchedules ∧ v.status = .active := by
  simp only [prepareSchedule, Except.bind_eq_ok'] at h
  obtain ⟨_, -, _, -, _, -, _, -, _, -, previous, hload, hret⟩ := h
  obtain rfl := Except.ok.inj hret
  exact loadPrevious_eq_ok hload

end Reads

/-! ### Locks and knowledge -/

/-- The lock that a party holds while it is at a state. -/
def Local.lockKey (P : Platform) : Local → Option Int
  | .paymentLocked call _ => some (P.hashtext call.dealRoomId)
  | .paymentValidated call _ _ => some (P.hashtext call.dealRoomId)
  | .adjustmentLocked call _ => some (P.hashtext call.dealRoomId)
  | .adjustmentValidated call _ _ _ => some (P.hashtext call.dealRoomId)
  | .jobLocked revenueEventId => some (P.hashtext revenueEventId)
  | .jobCleared plan => some (P.hashtext plan.revenueEvent.id)
  | _ => none

/-- The version to be superseded is there; if it is no longer active, some version has superseded
it. -/
def PreviousKnown (db : Db) (previous : Option CommissionSchedule) : Prop :=
  ∀ v, previous = some v → ∃ row ∈ db.commissionSchedules, row.id = v.id ∧
    (row.status = .active ∨ ∃ s ∈ db.commissionSchedules, s.previousVersionId = some v.id)

/-- An adjustment's amount is the one asked for, and positive. -/
def AmountKnown (call : ServiceCall AdjustLedgerRequest) (plan : AdjustmentPlan) : Prop :=
  0 < plan.amountMinor ∧ plan.amountMinor = call.input.minorUnits

/-- What a party has read that still holds. -/
def Knows (db : Db) : Local → Prop
  | .schedulePrepared call plan =>
    plan.previous.map (·.id) = call.input.supersedesScheduleId ∧ PreviousKnown db plan.previous
  | .revenuePlanned call _ plan => PlanSound db call plan
  | .paymentValidated call _ valid => revalidatePayment db call = .ok valid
  | .adjustmentChecked call plan => AmountKnown call plan
  | .adjustmentLocked call plan => AmountKnown call plan
  | .adjustmentValidated call plan root chain =>
    AmountKnown call plan ∧ loadAdjustableChain db call = .ok (root, chain)
  | .jobCleared plan => JobSound db plan
  | _ => True

/-! ### The rows a write appends -/

section Writes

variable {P : Platform} {e : Draws} {db db' : Db}

/-- A payment row settles one loaded entry, on the chain that the entry was checked against. -/
theorem PaymentWritten.row {call : ServiceCall RecordPaymentRequest} {plan : PaymentPlan}
    {valid : ValidatedPayment} {rows : List CommissionAccrual}
    (h : PaymentWritten e call plan valid db db' rows) (hvalid : revalidatePayment db call = .ok valid)
    {row : CommissionAccrual} (hrow : row ∈ rows) :
    ∃ l ∈ valid.loaded, row.entryType = .payment ∧ row.amountMinor = l.amountMinor ∧
      0 < l.amountMinor ∧ row.accrualRootId = l.accrualRootId ∧ l.root ∈ db.commissionAccruals ∧
      l.root.accrualRootId = l.accrualRootId ∧ l.root.dealRoomId = call.dealRoomId ∧
      SameAccrual l.root row := by
  obtain ⟨paymentId, hrows⟩ := h.rows
  obtain ⟨input, hinput, hmade⟩ := hrows.exists_input hrow
  obtain ⟨l, hl, rfl⟩ := List.mem_map.1 hinput
  obtain ⟨entry, -, hentry⟩ := exists_entry_of_mem_loaded hvalid hl
  obtain ⟨rest, hchain, hdeal, hid, -, hpos, -⟩ := loadAndValidatePayment_eq_ok hentry
  have hroot : l.root ∈ CommissionAccrualRepository.listByAccrualRoot db entry.accrualRootId :=
    hchain ▸ List.mem_cons_self
  obtain ⟨hmem, hrootId⟩ := CommissionAccrualRepository.mem_listByAccrualRoot.1 hroot
  rw [hmade]
  exact ⟨l, hl, rfl, rfl, hpos, rfl, hmem, hrootId.trans hid.symm, hdeal, hdeal.symm, rfl, rfl⟩

/-- An adjustment row corrects the chain that was loaded. -/
theorem AdjustmentWritten.row_eq {call : ServiceCall AdjustLedgerRequest} {plan : AdjustmentPlan}
    {root : CommissionAccrual} {row : CommissionAccrual}
    (h : AdjustmentWritten P e call plan root db db' row) :
    row = CommissionAccrualRepository.toRow (adjustmentInput P e.now call plan root) e.now row.id := by
  obtain ⟨input, hinput, hmade⟩ := h.rows.exists_input List.mem_cons_self
  rw [List.mem_singleton.1 hinput] at hmade
  exact hmade

theorem AdjustmentWritten.row {call : ServiceCall AdjustLedgerRequest} {plan : AdjustmentPlan}
    {root : CommissionAccrual} {chain : List CommissionAccrual} {row : CommissionAccrual}
    (h : AdjustmentWritten P e call plan root db db' row)
    (hchain : loadAdjustableChain db call = .ok (root, chain)) :
    row.entryType = .adjustment ∧ row.amountMinor = plan.amountMinor ∧
      row.accrualRootId = call.input.accrualRootId ∧ root ∈ db.commissionAccruals ∧
      root.accrualRootId = call.input.accrualRootId ∧ root.dealRoomId = call.dealRoomId ∧
      SameAccrual root row := by
  obtain ⟨rfl, hroot, hdeal, -⟩ := loadAdjustableChain_eq_ok hchain
  obtain ⟨hmem, hrootId⟩ := CommissionAccrualRepository.mem_listByAccrualRoot.1 hroot
  rw [h.row_eq]
  exact ⟨rfl, rfl, rfl, hmem, hrootId, hdeal, hdeal.symm, rfl, rfl⟩

/-- Where an appended row comes from: it opens a chain of its own, or it joins a chain of the deal
room whose lock its writer holds. -/
inductive RowOrigin (P : Platform) (l : Local) (db : Db) (row : CommissionAccrual) : Prop
  | accrual : row.accrualRootId = row.id → row.id ∉ db.commissionAccruals.map (·.id) →
    (row.revenueEventId ∉ db.revenueEvents.map (·.id) ∨
      l.lockKey P = some (P.hashtext row.revenueEventId)) → RowOrigin P l db row
  | correction (sibling : CommissionAccrual) : sibling ∈ db.commissionAccruals →
    sibling.accrualRootId = row.accrualRootId → SameAccrual sibling row →
    l.lockKey P = some (P.hashtext sibling.dealRoomId) → RowOrigin P l db row

variable {l : Local}

/-- **Every write appends to the ledger**, and only to chains of its own or under its lock. -/
theorem wrote_rows (hk : Knows db l) (h : Wrote P e l db db') :
    ∃ rows, db'.commissionAccruals = db.commissionAccruals ++ rows ∧
      ∀ row ∈ rows, RowOrigin P l db row := by
  cases h with
  | schedule hw => exact ⟨[], by rw [hw.accruals_eq, List.append_nil], by simp⟩
  | event hw =>
    refine ⟨_, hw.rows.accruals_eq, fun row hrow ↦ ?_⟩
    obtain ⟨-, hself, hevent, -⟩ := hw.rows.accrual_row hrow
    exact .accrual hself (hw.rows.fresh row hrow) (.inl (hevent ▸ hw.fresh))
  | payment hw =>
    obtain ⟨paymentId, hrows⟩ := hw.rows
    refine ⟨_, hrows.accruals_eq, fun row hrow ↦ ?_⟩
    obtain ⟨l, -, -, -, -, hid, hroot, hrootId, hdeal, hsame⟩ := hw.row hk hrow
    exact .correction l.root hroot (hrootId.trans hid.symm) hsame (by rw [hdeal]; rfl)
  | adjustment hw =>
    refine ⟨_, hw.rows.accruals_eq, fun row hrow ↦ ?_⟩
    obtain rfl := List.mem_singleton.1 hrow
    obtain ⟨-, -, hid, hroot, hrootId, hdeal, hsame⟩ := hw.row hk.2
    exact .correction _ hroot (hrootId.trans hid.symm) hsame (by rw [hdeal]; rfl)
  | job hw =>
    refine ⟨_, hw.rows.accruals_eq, fun row hrow ↦ ?_⟩
    obtain ⟨-, hself, hevent, -⟩ := hw.rows.accrual_row hrow
    exact .accrual hself (hw.rows.fresh row hrow) (.inr (by rw [hevent]; rfl))

/-- **Every write keeps the database consistent.** -/
theorem wrote_consistent (hc : Consistent db) (hk : Knows db l) (h : Wrote P e l db db') :
    Consistent db' := by
  cases h with
  | schedule hw => exact hw.consistent hc
  | event hw => exact hw.consistent hc hk
  | payment hw =>
    obtain ⟨paymentId, hrows⟩ := hw.rows
    refine hrows.consistent_of_corrections hc ?_ hw.schedules_eq hw.components_eq hw.events_eq
    intro row hrow
    obtain ⟨l, -, htype, hamount, hpos, hid, hroot, hrootId, -, hsame⟩ := hw.row hk hrow
    rw [htype, hamount]
    exact ⟨by decide, by decide, hpos.le, l.root, hroot, hrootId.trans hid.symm, hsame⟩
  | adjustment hw =>
    refine hw.rows.consistent_of_corrections hc ?_ hw.schedules_eq hw.components_eq hw.events_eq
    intro row hrow
    obtain rfl := List.mem_singleton.1 hrow
    obtain ⟨htype, hamount, hid, hroot, hrootId, -, hsame⟩ := hw.row hk.2
    rw [htype, hamount]
    exact ⟨by decide, by decide, hk.1.1.le, _, hroot, hrootId.trans hid.symm, hsame⟩
  | job hw => exact hw.consistent hc hk

theorem wrote_events (h : Wrote P e l db db') {event : RevenueEvent}
    (hevent : event ∈ db.revenueEvents) : event ∈ db'.revenueEvents := by
  cases h with
  | schedule hw => exact hw.events_eq ▸ hevent
  | event hw => exact hw.events_eq ▸ List.mem_append_left _ hevent
  | payment hw => exact hw.events_eq ▸ hevent
  | adjustment hw => exact hw.events_eq ▸ hevent
  | job hw => exact hw.events_eq ▸ hevent

/-- No write takes a schedule away, changes its basis or changes its targets. -/
theorem wrote_schedules (h : Wrote P e l db db') {s : CommissionSchedule}
    (hs : s ∈ db.commissionSchedules) : ∃ s' ∈ db'.commissionSchedules, s'.id = s.id ∧
      s'.basis = s.basis ∧ ∀ basis, targetedComponents db' s' basis = targetedComponents db s basis := by
  have hsame : db'.commissionSchedules = db.commissionSchedules →
      db'.commissionComponents = db.commissionComponents →
      ∃ s' ∈ db'.commissionSchedules, s'.id = s.id ∧ s'.basis = s.basis ∧
        ∀ basis, targetedComponents db' s' basis = targetedComponents db s basis := by
    intro hschedules hcomponents
    exact ⟨s, hschedules ▸ hs, rfl, rfl, fun basis ↦
      targetedComponents_congr rfl rfl (listBySchedule_of_eq hcomponents _) basis⟩
  cases h with
  | schedule hw =>
    exact ⟨_, hw.retire_mem hs, retire_id, retire_basis, fun basis ↦ hw.targets_kept hs⟩
  | event hw => exact hsame hw.schedules_eq hw.components_eq
  | payment hw => exact hsame hw.schedules_eq hw.components_eq
  | adjustment hw => exact hsame hw.schedules_eq hw.components_eq
  | job hw => exact hsame hw.schedules_eq hw.components_eq

theorem wrote_previousKnown (h : Wrote P e l db db') {previous : Option CommissionSchedule}
    (hk : PreviousKnown db previous) : PreviousKnown db' previous := by
  have hsame : db'.commissionSchedules = db.commissionSchedules → PreviousKnown db' previous := by
    intro hschedules v hv
    rw [hschedules]
    exact hk v hv
  cases h with
  | schedule hw =>
    rename_i call plan new components
    intro v hv
    obtain ⟨row, hrow, hid, hstatus⟩ := hk v hv
    refine ⟨_, hw.retire_mem hrow, retire_id.trans hid, ?_⟩
    rcases hstatus with hactive | ⟨s, hs, hprevious⟩
    · rcases eq_or_ne (plan.previous.map (·.id)) (some row.id) with hretired | hne
      · -- this write supersedes the row itself
        refine .inr ⟨new, hw.mem_schedules.2 (.inr rfl), ?_⟩
        rw [hw.previousVersion, hretired, hid]
      · refine .inl ?_
        rw [retire, if_neg hne]
        exact hactive
    · refine .inr ⟨_, hw.retire_mem hs, ?_⟩
      rw [← hprevious]
      unfold retire
      split_ifs <;> rfl
  | event hw => exact hsame hw.schedules_eq
  | payment hw => exact hsame hw.schedules_eq
  | adjustment hw => exact hsame hw.schedules_eq
  | job hw => exact hsame hw.schedules_eq

end Writes

/-! ### Knowledge survives other parties -/

section Interference

variable {P : Platform} {e : Draws} {db db' : Db} {l m : Local}

/-- The chains of a deal room read the same. -/
def ChainsKept (dealRoomId : Uuid) (db db' : Db) : Prop :=
  ∀ row ∈ db.commissionAccruals, row.dealRoomId = dealRoomId →
    CommissionAccrualRepository.listByAccrualRoot db' row.accrualRootId =
      CommissionAccrualRepository.listByAccrualRoot db row.accrualRootId

/-- **What the deal room's lock protects**: a writer that does not hold it leaves the deal room's
chains alone. -/
theorem wrote_chainsKept (hc : Consistent db) (hk : Knows db l) (h : Wrote P e l db db')
    {dealRoomId : Uuid} (hlock : l.lockKey P ≠ some (P.hashtext dealRoomId)) :
    ChainsKept dealRoomId db db' := by
  intro old hold hdeal
  obtain ⟨rows, haccruals, horigin⟩ := wrote_rows hk h
  have hnil : rows.filter (·.accrualRootId = old.accrualRootId) = [] := by
    rw [List.filter_eq_nil_iff]
    intro row hrow
    rw [decide_eq_true_eq]
    intro heq
    rcases horigin row hrow with ⟨hself, hfresh, -⟩ | ⟨sibling, hsibling, hid, -, hkey⟩
    · -- a fresh accrual: the old chain's root would have the fresh id
      obtain ⟨root, hroot, -, hrootId, -⟩ := hc.row_root old hold
      refine hfresh ?_
      rw [← hself, heq, ← hrootId]
      exact List.mem_map_of_mem hroot
    · have hsame := hc.same_chain hold hsibling (heq.symm.trans hid.symm)
      rw [hsame.dealRoom, hdeal] at hkey
      exact hlock hkey
  rw [CommissionAccrualRepository.listByAccrualRoot, CommissionAccrualRepository.listByAccrualRoot,
    haccruals, List.filter_append, hnil, List.append_nil]

theorem loadAndValidatePayment_kept {dealRoomId : Uuid} (h : ChainsKept dealRoomId db db')
    {p : PaymentEntry} {l : LoadedPayment} (hl : loadAndValidatePayment db dealRoomId p = .ok l) :
    loadAndValidatePayment db' dealRoomId p = .ok l := by
  obtain ⟨rest, hchain, hdeal, -⟩ := loadAndValidatePayment_eq_ok hl
  have hroot : l.root ∈ CommissionAccrualRepository.listByAccrualRoot db p.accrualRootId :=
    hchain ▸ List.mem_cons_self
  obtain ⟨hmem, hid⟩ := CommissionAccrualRepository.mem_listByAccrualRoot.1 hroot
  have hkept := h l.root hmem hdeal
  rw [hid] at hkept
  rw [← hl, loadAndValidatePayment, loadAndValidatePayment, hkept]

theorem revalidatePayment_kept {call : ServiceCall RecordPaymentRequest}
    (h : ChainsKept call.dealRoomId db db') {valid : ValidatedPayment}
    (hvalid : revalidatePayment db call = .ok valid) : revalidatePayment db' call = .ok valid := by
  have hloaded := revalidatePayment_eq_ok hvalid
  have hloaded' : loadAndValidatePayments db' call.dealRoomId call.input.payments =
      .ok valid.loaded :=
    Except.mapM_eq_ok.2 ((Except.mapM_eq_ok.1 hloaded).imp fun _ _ ↦ loadAndValidatePayment_kept h)
  rw [← hvalid, revalidatePayment, revalidatePayment, hloaded, hloaded']

theorem loadAdjustableChain_kept {call : ServiceCall AdjustLedgerRequest}
    (h : ChainsKept call.dealRoomId db db') {root : CommissionAccrual}
    {chain : List CommissionAccrual} (hchain : loadAdjustableChain db call = .ok (root, chain)) :
    loadAdjustableChain db' call = .ok (root, chain) := by
  obtain ⟨rfl, hroot, hdeal, -⟩ := loadAdjustableChain_eq_ok hchain
  obtain ⟨hmem, hid⟩ := CommissionAccrualRepository.mem_listByAccrualRoot.1 hroot
  have hkept := h root hmem hdeal
  rw [hid] at hkept
  rw [← hchain, loadAdjustableChain, loadAdjustableChain, hkept]

/-- **What the event's lock protects**: a writer that does not hold it does not accrue a recorded
event. -/
theorem jobSound_kept (hk : Knows db l) (h : Wrote P e l db db') {plan : JobPlan}
    (hlock : l.lockKey P ≠ some (P.hashtext plan.revenueEvent.id)) (hplan : JobSound db plan) :
    JobSound db' plan := by
  obtain ⟨s, hs, hid, hbasis⟩ := hplan.schedule
  obtain ⟨s', hs', hid', hbasis', -⟩ := wrote_schedules h hs
  refine ⟨wrote_events h hplan.event, ⟨s', hs', hid'.trans hid, hbasis'.trans hbasis⟩,
    hplan.same_schedule, ?_⟩
  obtain ⟨rows, haccruals, horigin⟩ := wrote_rows hk h
  intro row hrow heq
  rw [haccruals, List.mem_append] at hrow
  rcases hrow with hold | hnew
  · exact hplan.no_rows row hold heq
  · rcases horigin row hnew with ⟨-, -, hevent | hkey⟩ | ⟨sibling, hsibling, -, hsame, -⟩
    · exact hevent (heq ▸ List.mem_map_of_mem hplan.event)
    · exact hlock (heq ▸ hkey)
    · exact hplan.no_rows sibling hsibling (hsame.revenueEvent.symm.trans heq)

/-- **Non-interference.** A write by a party that holds another lock, or none, falsifies nothing that
a party knows. -/
theorem knows_of_wrote (hc : Consistent db) (hk : Knows db l) (h : Wrote P e l db db')
    (hm : Knows db m) (hlock : ∀ key, m.lockKey P = some key → l.lockKey P ≠ some key) :
    Knows db' m := by
  cases m with
  | schedulePrepared call plan => exact ⟨hm.1, wrote_previousKnown h hm.2⟩
  | revenuePlanned call dealRoom plan =>
    obtain ⟨s, hs, hid, hsplit⟩ := hm
    obtain ⟨s', hs', hid', -, htarget⟩ := wrote_schedules h hs
    exact ⟨s', hs', hid'.trans hid, htarget _ ▸ hsplit⟩
  | paymentValidated call plan valid =>
    exact revalidatePayment_kept (wrote_chainsKept hc hk h (hlock _ rfl)) hm
  | adjustmentChecked call plan => exact hm
  | adjustmentLocked call plan => exact hm
  | adjustmentValidated call plan root chain =>
    exact ⟨hm.1, loadAdjustableChain_kept (wrote_chainsKept hc hk h (hlock _ rfl)) hm.2⟩
  | jobCleared plan => exact jobSound_kept hk h (hlock _ rfl) hm
  | start | revenueAdmitted | paymentChecked | paymentLocked | jobFound | jobLocked | finished
  | crashed => trivial

end Interference

/-! ### The outline -/

section Outline

variable {Pid : Type} [DecidableEq Pid] (P : Platform)

/-- A party's assertion: it holds the lock of its state, and knows what it has read. -/
structure Asserts (p : Pid) (s : Shared Pid) (l : Local) : Prop where
  holds : ∀ key, l.lockKey P = some key → s.locks.Holds p key
  knows : Knows s.db l

variable {P} {p q : Pid} {e : Env} {s s' : Shared Pid} {l l' m : Local}

/-- A party's own step keeps the database consistent and establishes its next assertion. -/
theorem own_step (hc : Consistent s.db) (hl : Asserts P p s l)
    (h : step P p e s l = some (s', l')) : Consistent s'.db ∧ Asserts P p s' l' := by
  have hnone : ∀ {s : Shared Pid} {l : Local}, l.lockKey P = none → Knows s.db l →
      Asserts P p s l := fun hkey hknows ↦ ⟨by simp [hkey], hknows⟩
  cases step_cases h with
  | prepared hread =>
    obtain ⟨hid, hprevious⟩ := prepareSchedule_eq_ok hread
    refine ⟨hc, hnone rfl ⟨hid, fun v hv ↦ ?_⟩⟩
    obtain ⟨hmem, hactive⟩ := hprevious v hv
    exact ⟨v, hmem, rfl, .inl hactive⟩
  | admitted hread => exact ⟨hc, hnone rfl trivial⟩
  | planned hread =>
    obtain ⟨hchoose, hsplit⟩ := planRevenueEvent_eq_ok hread
    exact ⟨hc, hnone rfl ⟨_, (mem_of_chooseSchedule hchoose).1, rfl, hsplit⟩⟩
  | paymentChecked hread => exact ⟨hc, hnone rfl trivial⟩
  | paymentLocked hacq =>
    exact ⟨hc, fun key hkey ↦ Option.some.inj hkey ▸ LockTable.holds_of_acquire hacq, trivial⟩
  | paymentValidated hread => exact ⟨hc, hl.holds, hread⟩
  | adjustmentChecked hread => exact ⟨hc, hnone rfl (precheckAdjustment_eq_ok hread)⟩
  | adjustmentLocked hacq =>
    exact ⟨hc, fun key hkey ↦ Option.some.inj hkey ▸ LockTable.holds_of_acquire hacq, hl.knows⟩
  | adjustmentValidated hread => exact ⟨hc, hl.holds, hl.knows, hread⟩
  | jobFound hread => exact ⟨hc, hnone rfl trivial⟩
  | jobLocked hacq =>
    exact ⟨hc, fun key hkey ↦ Option.some.inj hkey ▸ LockTable.holds_of_acquire hacq, trivial⟩
  | jobCleared hread =>
    obtain ⟨hid, hevent, hrows, hschedule, hsame⟩ := clearJob_eq_inr hread
    refine ⟨hc, fun key hkey ↦ hl.holds key ?_, hevent, ⟨_, hschedule, rfl, rfl⟩, hsame, ?_⟩
    · rw [← hkey]
      exact congrArg (fun id ↦ some (P.hashtext id)) hid.symm
    · rw [hid]
      exact hrows
  | skipped => exact ⟨hc, hnone rfl trivial⟩
  | ended => exact ⟨hc, hnone rfl trivial⟩
  | crashed => exact ⟨hc, hnone rfl trivial⟩
  | wrote hwrote => exact ⟨wrote_consistent hc hl.knows hwrote, hnone rfl trivial⟩

/-- No step of one party falsifies another's assertion. -/
theorem other_step (hq : q ≠ p) (hc : Consistent s.db) (hl : Asserts P p s l)
    (hm : Asserts P q s m) (h : step P p e s l = some (s', l')) : Asserts P q s' m := by
  refine ⟨fun key hkey ↦ holds_of_step hq (hm.holds key hkey) h, ?_⟩
  rcases (db_of_step h).1 with hdb | hwrote
  · rw [hdb]
    exact hm.knows
  · refine knows_of_wrote hc hl.knows hwrote hm.knows fun key hmkey hlkey ↦ hq ?_
    exact LockTable.Holds.unique (hm.holds key hmkey) (hl.holds key hlkey)

variable (P) in
/-- **The proof outline of the economics system.** -/
def economicsOutline (Pid : Type) [DecidableEq Pid] : (economicsSystem P Pid).ProofOutline where
  inv s := Consistent s.db
  asrt := Asserts P
  own := own_step
  stable := other_step

end Outline

/-! ### Runs -/

section Runs

variable {Pid : Type} [DecidableEq Pid]

/-- Where a run starts: distinct ids, resolvable references, an empty ledger and no job answers. The
deal rooms, schedules, components and recorded events are arbitrary otherwise; in particular events
that nobody has accrued yet may be there. -/
structure InitialDb (db : Db) : Prop where
  schedules_nodup : (db.commissionSchedules.map (·.id)).Nodup
  components_nodup : (db.commissionComponents.map (·.id)).Nodup
  events_nodup : (db.revenueEvents.map (·.id)).Nodup
  component_schedule : ∀ c ∈ db.commissionComponents,
    ∃ s ∈ db.commissionSchedules, s.id = c.scheduleId
  event_schedule : ∀ event ∈ db.revenueEvents,
    ∃ s ∈ db.commissionSchedules, s.id = event.scheduleId
  no_accruals : db.commissionAccruals = []
  no_payments : db.commissionPayments = []
  no_keys : db.idempotencyKeys = []

/-- Nobody has done anything yet. -/
structure Start (c : PartySystem.Config Pid (Shared Pid) Local) : Prop where
  db : InitialDb c.shared.db
  locks : c.shared.locks = .free
  locals : ∀ p, ∃ call, c.locals p = .start call

theorem InitialDb.consistent {db : Db} (h : InitialDb db) : Consistent db := by
  have hnone : ∀ row, row ∉ db.commissionAccruals := by simp [h.no_accruals]
  exact
    { schedules_nodup := h.schedules_nodup, components_nodup := h.components_nodup
      events_nodup := h.events_nodup, component_schedule := h.component_schedule
      event_schedule := h.event_schedule, accruals_nodup := by simp [h.no_accruals]
      row_event := fun row hrow ↦ absurd hrow (hnone row)
      row_root := fun row hrow ↦ absurd hrow (hnone row)
      accrual_self := fun row hrow ↦ absurd hrow (hnone row)
      amount_nonneg := fun row hrow ↦ absurd hrow (hnone row)
      not_reversal := fun row hrow ↦ absurd hrow (hnone row)
      accrued := fun event _ ↦ .inl (by simp [accrualRows, h.no_accruals]) }

variable (P : Platform)

/-- The configurations of the economics system. -/
abbrev EconomicsConfig (Pid : Type) := PartySystem.Config Pid (Shared Pid) Local

/-- Reached by some interleaving of the calls of some start. -/
abbrev EconomicsReachable (c : EconomicsConfig Pid) : Prop :=
  (economicsSystem P Pid).Reachable Start c

variable {P}

/-- **The outline describes every reachable configuration**, however the steps are restricted. -/
theorem outline_of_reachableBy {Ok : PartySystem.StepCond Pid Env (Shared Pid) Local}
    {c : EconomicsConfig Pid} (h : (economicsSystem P Pid).ReachableBy Ok Start c) :
    Consistent c.shared.db ∧ ∀ p, Asserts P p c.shared (c.locals p) := by
  refine (economicsOutline P Pid).sound (fun c hstart ↦ ⟨hstart.db.consistent, fun p ↦ ?_⟩) h
  obtain ⟨call, hcall⟩ := hstart.locals p
  rw [hcall]
  exact ⟨fun key hkey ↦ absurd hkey (by simp [Local.lockKey]), trivial⟩

theorem outline_of_reachable {c : EconomicsConfig Pid} (h : EconomicsReachable P c) :
    Consistent c.shared.db ∧ ∀ p, Asserts P p c.shared (c.locals p) :=
  outline_of_reachableBy h

end Runs

/-! ### A deal room to run calls on

One live deal room with one active schedule, which gives everything to one recipient, and one
revenue event that nobody has accrued. -/

namespace Sample

def dealRoomId : Uuid := "3f0b7c1e-58f2-4d0e-9a64-1c2d5e7f9a01"

def ownerOrgId : Uuid := "3f0b7c1e-58f2-4d0e-9a64-1c2d5e7f9a02"

def recipientOrgId : Uuid := "3f0b7c1e-58f2-4d0e-9a64-1c2d5e7f9a03"

def scheduleId : Uuid := "3f0b7c1e-58f2-4d0e-9a64-1c2d5e7f9a04"

def eventId : Uuid := "3f0b7c1e-58f2-4d0e-9a64-1c2d5e7f9a0e"

def component : CommissionComponent :=
  { id := "3f0b7c1e-58f2-4d0e-9a64-1c2d5e7f9a05", scheduleId, recipientType := .contributor,
    recipientOrgId, componentType := .percentageBps, bps := some 10000, fixedAmountMinor := none,
    calculationBasis := none, priority := 0, claimId := none, createdByUserId := none,
    createdByOrgId := none }

def schedule : CommissionSchedule :=
  { id := scheduleId, dealRoomId, scheduleFamilyId := scheduleId, versionNumber := 1,
    previousVersionId := none, basis := .netPlatformRevenue, status := .active, capMinor := none,
    floorMinor := none, survivalMonths := none, description := none, createdAt := 1767513600000,
    createdByUserId := none, createdByOrgId := none }

def db : Db :=
  { dealRooms := [{ id := dealRoomId, merchantOrgId := ownerOrgId, status := .live }]
    commissionSchedules := [schedule]
    commissionComponents := [component]
    revenueEvents := [{
      id := eventId, dealRoomId, scheduleId, basis := .netPlatformRevenue, period := "2025-12",
      source := "acquirer", grossAmountMinor := 90, deductionsMinor := 0,
      netDistributableMinor := 90, currency := "EUR", recognizedAt := 1767513600000,
      createdByUserId := none, createdByOrgId := none }] }

/-- The platform on the arguments that the calls below give it. -/
def platform : Platform where
  hashtext id := if id = dealRoomId then -1364838694 else if id = eventId then 404460984 else 0
  sha256 text :=
    if text = "\x7b\"revenueEventId\":\"3f0b7c1e-58f2-4d0e-9a64-1c2d5e7f9a0e\",\"scheduleId\":\"3f0b7c1e-58f2-4d0e-9a64-1c2d5e7f9a04\",\"scheduleVersion\":1\x7d"
    then "cbac3311de9bd79599f7642b4f864f23fc60295136cb51ba9b96b4e2cb8538c3" else ""
  toISOString now := if now = 1767603600000 then "2026-01-05T09:00:00.000Z" else ""

/-- A call by the platform owner. -/
def call {Input : Type} (input : Input) : ServiceCall Input :=
  { actor := { userId := "3f0b7c1e-58f2-4d0e-9a64-1c2d5e7f9a06", organizationId := some ownerOrgId,
               role := some .platformOwner, membershipId := none }
    dealRoomId, input
    context := { requestId := "req-1", correlationId := "cor-1", ipClass := "private",
                 userAgentClass := "browser" } }

/-- The ids that a transaction draws, at nine o'clock. -/
def draws (ids : List Uuid) : Env :=
  { ids := fun n ↦ ids.getD n "", now := 1767603600000 }

def start (calls : ℕ → Call) : EconomicsConfig ℕ :=
  ⟨⟨db, .free⟩, fun p ↦ .start (calls p)⟩

theorem initialDb : InitialDb db where
  schedules_nodup := by decide
  components_nodup := by decide
  events_nodup := by decide
  component_schedule := by decide
  event_schedule := by decide
  no_accruals := rfl
  no_payments := rfl
  no_keys := rfl

theorem start_start (calls : ℕ → Call) : Start (start calls) :=
  ⟨initialDb, rfl, fun p ↦ ⟨calls p, rfl⟩⟩

/-- What a run of some calls ends in is reachable. -/
theorem reachable_of_run {calls : ℕ → Call} {steps : List (ℕ × Env)} {c : EconomicsConfig ℕ}
    (h : (economicsSystem platform ℕ).run (start calls) steps = some c) :
    EconomicsReachable platform c :=
  PartySystem.Reachable.run (.start (start_start calls)) h

/-- Record an event of 100. -/
def recordEvent : Call :=
  .recordRevenueEvent (call
    { basis := .netPlatformRevenue, period := "2026-01", source := "acquirer",
      grossAmountMinor := "100", currency := "EUR" })

/-- The row that the event of 100 is accrued in. -/
def accrualId : Uuid := "3f0b7c1e-58f2-4d0e-9a64-1c2d5e7f9a11"

/-- The steps of party 0 recording the event. -/
def recordEventSteps : List (ℕ × Env) :=
  List.replicate 3 (0, draws ["3f0b7c1e-58f2-4d0e-9a64-1c2d5e7f9a10", accrualId])

end Sample

end TolPlatform
