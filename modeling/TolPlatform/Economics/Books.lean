import TolPlatform.Economics.Outline
import TolPlatform.Library.Vouchers

/-!
# The books of the economics system

Two kinds of vouchers are posted in ledger rows: a payment in the rows that carry its id, and an accrued
revenue event in its `ACCRUAL` rows. The second kind balances in every consistent database
(`Consistent.accruals_balanced`). The first is a matter of runs. A payment and its rows are entered
together, and nothing else enters a row that pays (`entered_of_step`), so payments balance in every
reachable configuration, between rows and payments of one deal room, recipient and currency
(`PaymentsBooked`).

A row also has the deal room, the schedule and the currency of its revenue event (`RowsOfEvents`).
Corrections copy them from the chain that they correct, and a payment its currency from the batch, which
has a single one.
-/

namespace TolPlatform

/-! ### Vouchers -/

/-- A payment, in the rows that carry its id. -/
def paymentPosting : Posting CommissionPayment CommissionAccrual Uuid Int where
  key := (·.id)
  total := (·.totalAmountMinor)
  names := (·.paymentId)
  amount := (·.amountMinor)

/-- A revenue event, in its `ACCRUAL` rows. -/
def accrualPosting : Posting RevenueEvent CommissionAccrual Uuid Int where
  key := (·.id)
  total := (·.netDistributableMinor)
  names row := if row.entryType = .accrual then some row.revenueEventId else none
  amount := (·.amountMinor)

/-- The revenue events that have been accrued. -/
def accruedEvents (db : Db) : List RevenueEvent :=
  db.revenueEvents.filter fun event ↦ accrualRows db event ≠ []

section Accruals

variable {db : Db}

theorem accrualPosting_names {row : CommissionAccrual} {event : RevenueEvent} :
    accrualPosting.names row = some event.id ↔
      row.entryType = .accrual ∧ row.revenueEventId = event.id := by
  show (if row.entryType = .accrual then some row.revenueEventId else none) = some event.id ↔ _
  split_ifs with htype <;> simp [htype]

theorem posted_accruals (event : RevenueEvent) :
    accrualPosting.posted db.commissionAccruals event.id =
      ((accrualRows db event).map (·.amountMinor)).sum := by
  have hrows : db.commissionAccruals.filter (accrualPosting.names · = some event.id) =
      accrualRows db event :=
    List.filter_congr fun row _ ↦ decide_eq_decide.2 accrualPosting_names
  rw [Posting.posted, hrows]
  rfl

/-- **Accrued events are what their rows come to.** -/
theorem Consistent.accruals_balanced (h : Consistent db) :
    accrualPosting.Balanced (accruedEvents db) db.commissionAccruals := by
  refine ⟨h.events_nodup.sublist (List.filter_sublist.map _), fun row hrow id hname ↦ ?_,
    fun event hevent ↦ ?_⟩
  · obtain ⟨event, hevent, hid⟩ := h.row_event row hrow
    have htype : row.entryType = .accrual ∧ row.revenueEventId = id := by
      change (if row.entryType = .accrual then some row.revenueEventId else none) = some id at hname
      split_ifs at hname with htype
      exact ⟨htype, Option.some.inj hname⟩
    have hhas : accrualRows db event ≠ [] :=
      List.ne_nil_of_mem (List.mem_filter.2 ⟨hrow, by simp [htype.1, hid]⟩)
    rw [← htype.2, ← hid]
    exact List.mem_map_of_mem (List.mem_filter.2 ⟨hevent, decide_eq_true hhas⟩)
  · obtain ⟨hmem, hhas⟩ := List.mem_filter.1 hevent
    rcases h.accrued event hmem with hnil | ⟨schedule, -, -, hsplit⟩
    · exact absurd hnil (of_decide_eq_true hhas)
    · exact hsplit.sum_eq.symm.trans (posted_accruals event).symm

end Accruals

/-! ### Rows and their revenue events -/

structure OfEvent (event : RevenueEvent) (row : CommissionAccrual) : Prop where
  dealRoom : row.dealRoomId = event.dealRoomId
  schedule : row.scheduleId = event.scheduleId
  currency : row.currency = event.currency

def RowsOfEvents (db : Db) : Prop :=
  ∀ event ∈ db.revenueEvents, ∀ row ∈ db.commissionAccruals, row.revenueEventId = event.id →
    OfEvent event row

/-- A new row agrees with a revenue event, or with an older row of the same one. -/
inductive JoinsEvent (db : Db) (events : List RevenueEvent) (row : CommissionAccrual) : Prop
  | event (event : RevenueEvent) : event ∈ events → row.revenueEventId = event.id →
    OfEvent event row → JoinsEvent db events row
  | sibling (sibling : CommissionAccrual) : sibling ∈ db.commissionAccruals →
    row.revenueEventId = sibling.revenueEventId → row.dealRoomId = sibling.dealRoomId →
    row.scheduleId = sibling.scheduleId → row.currency = sibling.currency → JoinsEvent db events row

theorem RowsOfEvents.append {db db' : Db} (h : RowsOfEvents db) (hc : Consistent db)
    (hc' : Consistent db') {rows : List CommissionAccrual}
    (haccruals : db'.commissionAccruals = db.commissionAccruals ++ rows)
    (hevents : ∀ event ∈ db.revenueEvents, event ∈ db'.revenueEvents)
    (hrows : ∀ row ∈ rows, JoinsEvent db db'.revenueEvents row) : RowsOfEvents db' := by
  -- the event of an older row is the one it had
  have hold {event : RevenueEvent} (hevent : event ∈ db'.revenueEvents) {row : CommissionAccrual}
      (hrow : row ∈ db.commissionAccruals) (hid : row.revenueEventId = event.id) :
      OfEvent event row := by
    obtain ⟨before, hbefore, hbeforeId⟩ := hc.row_event row hrow
    obtain rfl := hc'.event_unique (hevents before hbefore) hevent (hbeforeId.trans hid)
    exact h before hbefore row hrow hid
  intro event hevent row hrow hid
  rw [haccruals, List.mem_append] at hrow
  rcases hrow with hrow | hrow
  · exact hold hevent hrow hid
  · rcases hrows row hrow with ⟨own, hown, hownId, hof⟩ | ⟨sibling, hsibling, hsame, hdeal,
      hschedule, hcurrency⟩
    · obtain rfl := hc'.event_unique hown hevent (hownId.symm.trans hid)
      exact hof
    · have hof := hold hevent hsibling (hsame.symm.trans hid)
      exact ⟨hdeal.trans hof.dealRoom, hschedule.trans hof.schedule,
        hcurrency.trans hof.currency⟩

/-! ### What a batch has in common -/

theorem eq_of_dedup_length_le_one {xs : List String} (h : xs.dedup.length ≤ 1) {a b : String}
    (ha : a ∈ xs) (hb : b ∈ xs) : a = b := by
  rw [← List.mem_dedup] at ha hb
  rcases hxs : xs.dedup with - | ⟨x, - | ⟨y, rest⟩⟩
  · rw [hxs] at ha
    cases ha
  · rw [hxs, List.mem_singleton] at ha hb
    rw [ha, hb]
  · rw [hxs] at h
    simp at h

/-- **A validated batch has one recipient and one currency.** -/
theorem revalidatePayment_single {db : Db} {call : ServiceCall RecordPaymentRequest}
    {valid : ValidatedPayment} (h : revalidatePayment db call = .ok valid) {l : LoadedPayment}
    (hl : l ∈ valid.loaded) :
    l.root.recipientOrgId = valid.recipientOrgId ∧ l.root.currency = valid.currency := by
  obtain ⟨loaded, -, h⟩ := Except.bind_eq_ok'.1 h
  obtain ⟨single, hsingle, hret⟩ := Except.bind_eq_ok'.1 h
  obtain rfl := Except.ok.inj hret
  unfold validateSingleRecipientAndCurrency at hsingle
  simp only [Except.bind_eq_ok', throwIf_eq_ok_iff, not_lt] at hsingle
  obtain ⟨-, hrecipients, -, hcurrencies, hsingle⟩ := hsingle
  rcases loaded with - | ⟨first, rest⟩
  · cases hl
  · obtain rfl := Except.ok.inj hsingle
    exact ⟨eq_of_dedup_length_le_one hrecipients (List.mem_map_of_mem hl)
      (List.mem_map_of_mem List.mem_cons_self), eq_of_dedup_length_le_one hcurrencies
      (List.mem_map_of_mem hl) (List.mem_map_of_mem List.mem_cons_self)⟩

section Writes

variable {P : Platform} {e : Draws} {db db' : Db} {l : Local}

/-- **Every write enters rows of the right revenue event.** -/
theorem wrote_rowsOfEvents (h : RowsOfEvents db) (hc : Consistent db) (hk : Knows db l)
    (hw : Wrote P e l db db') : RowsOfEvents db' := by
  have hc' := wrote_consistent hc hk hw
  have hevents : ∀ event ∈ db.revenueEvents, event ∈ db'.revenueEvents :=
    fun event hevent ↦ wrote_events hw hevent
  cases hw with
  | schedule hwritten =>
    have hrows : db'.commissionAccruals = db.commissionAccruals ++ [] := by
      rw [hwritten.accruals_eq, List.append_nil]
    exact h.append hc hc' hrows hevents (by simp)
  | event hwritten =>
    refine h.append hc hc' hwritten.rows.accruals_eq hevents fun row hrow ↦ ?_
    obtain ⟨input, hinput, hmade⟩ := hwritten.rows.exists_input hrow
    obtain ⟨entry, -, rfl⟩ := List.mem_map.1 hinput
    refine .event _ ?_ (by rw [hmade]; rfl) ⟨by rw [hmade]; rfl, ?_, by rw [hmade]; rfl⟩
    · rw [hwritten.events_eq]
      exact List.mem_append_right _ (List.mem_singleton_self _)
    · rw [hmade, hwritten.schedule]
      rfl
  | payment hwritten =>
    obtain ⟨paymentId, hrows⟩ := hwritten.rows
    refine h.append hc hc' hrows.accruals_eq hevents fun row hrow ↦ ?_
    obtain ⟨input, hinput, hmade⟩ := hrows.exists_input hrow
    obtain ⟨loaded, hloaded, rfl⟩ := List.mem_map.1 hinput
    obtain ⟨-, hcurrency⟩ := revalidatePayment_single hk hloaded
    obtain ⟨entry, -, hentry⟩ := exists_entry_of_mem_loaded hk hloaded
    obtain ⟨rest, hchain, hdeal, -⟩ := loadAndValidatePayment_eq_ok hentry
    have hroot : loaded.root ∈ db.commissionAccruals :=
      (CommissionAccrualRepository.mem_listByAccrualRoot.1 (hchain ▸ List.mem_cons_self)).1
    refine .sibling loaded.root hroot ?_ ?_ ?_ ?_ <;> rw [hmade]
    · rfl
    · exact hdeal.symm
    · rfl
    · exact hcurrency.symm
  | adjustment hwritten =>
    obtain ⟨-, hchain⟩ := hk
    obtain ⟨-, -, -, hroot, -, hdeal, -⟩ := hwritten.row hchain
    refine h.append hc hc' hwritten.rows.accruals_eq hevents fun row hrow ↦ ?_
    obtain rfl := List.mem_singleton.1 hrow
    refine .sibling _ hroot ?_ ?_ ?_ ?_ <;> rw [hwritten.row_eq]
    · rfl
    · exact hdeal.symm
    · rfl
    · rfl
  | job hwritten =>
    refine h.append hc hc' hwritten.rows.accruals_eq hevents fun row hrow ↦ ?_
    obtain ⟨input, hinput, hmade⟩ := hwritten.rows.exists_input hrow
    obtain ⟨entry, -, rfl⟩ := List.mem_map.1 hinput
    refine .event _ (hevents _ hk.event) (by rw [hmade]; rfl)
      ⟨by rw [hmade]; rfl, ?_, by rw [hmade]; rfl⟩
    rw [hmade]
    exact hk.same_schedule

end Writes

/-! ### Payments and their rows -/

/-- A row pays the recipient of the payment that it carries, in its deal room and currency. -/
structure PaidBy (payment : CommissionPayment) (row : CommissionAccrual) : Prop where
  dealRoom : row.dealRoomId = payment.dealRoomId
  recipient : row.recipientOrgId = payment.recipientOrgId
  currency : row.currency = payment.currency

structure PaymentsBooked (db : Db) : Prop where
  balanced : paymentPosting.Balanced db.commissionPayments db.commissionAccruals
  carries : ∀ row ∈ db.commissionAccruals, row.paymentId ≠ none ↔ row.entryType = .payment
  paidBy : ∀ payment ∈ db.commissionPayments, ∀ row ∈ db.commissionAccruals,
    row.paymentId = some payment.id → PaidBy payment row

/-- A committed `recordPayment`, with the payment. -/
structure PaymentPosted (e : Draws) (call : ServiceCall RecordPaymentRequest) (plan : PaymentPlan)
    (valid : ValidatedPayment) (db db' : Db) (payment : CommissionPayment)
    (rows : List CommissionAccrual) : Prop where
  payments_eq : db'.commissionPayments = db.commissionPayments ++ [payment]
  fresh : payment.id ∉ db.commissionPayments.map (·.id)
  total : payment.totalAmountMinor = valid.loaded.foldl (fun sum l ↦ sum + l.amountMinor) 0
  dealRoom : payment.dealRoomId = call.dealRoomId
  recipient : payment.recipientOrgId = valid.recipientOrgId
  currency : payment.currency = valid.currency
  rows : RowsAppended db db' e.now
    (valid.loaded.map (paymentInput call plan valid.currency payment.id)) rows

/-- What a step enters in the books: rows that pay nothing, or a payment with its rows. -/
inductive Entered (e : Draws) : Local → Db → Db → Prop
  | rows {l db db' rows} : db'.commissionAccruals = db.commissionAccruals ++ rows →
    db'.commissionPayments = db.commissionPayments →
    (∀ row ∈ rows, row.paymentId = none ∧ row.entryType ≠ .payment) → Entered e l db db'
  | payment {call plan valid db db' payment rows} :
    PaymentPosted e call plan valid db db' payment rows →
      Entered e (.paymentValidated call plan valid) db db'

section Entries

variable {P : Platform} {e : Draws} {db db' : Db}

theorem commitPayment_posted {call : ServiceCall RecordPaymentRequest} {plan : PaymentPlan}
    {valid : ValidatedPayment} {payment : CommissionPayment} {rows : List CommissionAccrual}
    (h : commitPayment e call plan valid db = .ok ((payment, rows), db')) :
    PaymentPosted e call plan valid db db' payment rows := by
  obtain ⟨payment, s₁, hcreate, h⟩ := Tx.bind_eq_ok.1 h
  obtain ⟨-, -, hinsert⟩ := Tx.check_bind_eq_ok.1 (Tx.get_bind_eq_ok.1 hcreate)
  obtain ⟨hfresh, rfl, rfl⟩ := Table.insert_eq_ok_iff.1 hinsert
  obtain ⟨rows, s₂, hrows, h⟩ := Tx.bind_eq_ok.1 h
  obtain ⟨hmade, hnodup, hnew, rfl⟩ := CommissionAccrualRepository.createMany_eq_ok hrows
  obtain ⟨s₃, htrails, h⟩ := sameTables_of_trails h
  obtain ⟨hret, rfl⟩ := Prod.mk.inj (Tx.pure_eq_ok.1 h)
  obtain ⟨rfl, rfl⟩ := Prod.mk.inj hret
  exact
    { payments_eq := htrails.payments_eq, fresh := hfresh, total := rfl, dealRoom := rfl
      recipient := rfl, currency := rfl, rows := ⟨htrails.accruals_eq, hmade, hnodup, hnew⟩ }

theorem payments_of_commitAdjustment {call : ServiceCall AdjustLedgerRequest} {plan : AdjustmentPlan}
    {root row : CommissionAccrual} (h : commitAdjustment P e call plan root db = .ok (row, db')) :
    db'.commissionPayments = db.commissionPayments := by
  obtain ⟨row, s₁, hcreate, h⟩ := Tx.bind_eq_ok.1 h
  obtain ⟨-, -, rfl⟩ := CommissionAccrualRepository.create_eq_ok hcreate
  obtain ⟨s₂, htrails, h⟩ := sameTables_of_trails h
  obtain ⟨rfl, rfl⟩ := Prod.mk.inj (Tx.pure_eq_ok.1 h)
  exact htrails.payments_eq

theorem payments_of_accrueEvent {plan : JobPlan} {result : EconomicsAccrualJobResult}
    (h : accrueEvent e plan db = .ok (result, db')) :
    db'.commissionPayments = db.commissionPayments := by
  obtain ⟨revenueEvent, dealRoom, schedule⟩ := plan
  have h := Tx.get_bind_eq_ok.1 h
  obtain ⟨-, -, h⟩ := Tx.check_bind_eq_ok.1 h
  obtain ⟨split, -, h⟩ := Tx.check_bind_eq_ok.1 h
  obtain ⟨rows, s₁, hrows, h⟩ := Tx.bind_eq_ok.1 h
  obtain ⟨-, -, -, rfl⟩ := CommissionAccrualRepository.createMany_eq_ok hrows
  obtain ⟨s₂, htrails, h⟩ := sameTables_of_trails h
  obtain ⟨-, rfl⟩ := Prod.mk.inj (Tx.pure_eq_ok.1 h)
  exact htrails.payments_eq

/-- The bookkeeping of a job's key is not that of the ledger. -/
theorem payments_of_catch {body : Tx Db Thrown PUnit} {aborted : Bool}
    (hbody : ∀ {u s s'}, body s = .ok (u, s') → s'.commissionPayments = s.commissionPayments)
    (h : catchUniqueViolation body db = .ok (aborted, db')) :
    db'.commissionPayments = db.commissionPayments := by
  rcases hb : body db with thrown | ⟨u, s⟩
  · cases thrown <;> simp [catchUniqueViolation, hb] at h
    rw [h.2]
  · simp only [catchUniqueViolation, hb, Except.ok.injEq, Prod.mk.injEq] at h
    rw [← h.2]
    exact hbody hb

theorem payments_of_commitJob {plan : JobPlan} {outcome : JobOutcome}
    (h : commitJob P e plan db = .ok (outcome, db')) :
    db'.commissionPayments = db.commissionPayments := by
  have h := Tx.get_bind_eq_ok.1 h
  rcases hfind : (IdempotencyRepository.find Db.jobKeys db "worker.economics-accrual"
      plan.revenueEvent.id).filter (·.responseStatus ≠ none) with - | existing
  · simp only [hfind] at h
    obtain ⟨result, s₁, hhandler, h⟩ := Tx.bind_eq_ok.1 h
    obtain ⟨aborted, s₂, hrecord, h⟩ := Tx.bind_eq_ok.1 h
    obtain ⟨-, rfl⟩ := Prod.mk.inj (Tx.pure_eq_ok.1 h)
    refine (payments_of_catch ?_ hrecord).trans (payments_of_accrueEvent hhandler)
    intro u s s' hbody
    obtain ⟨reservation, t, hreserve, hbody⟩ := Tx.bind_eq_ok.1 hbody
    obtain ⟨_, t', hcomplete, hret⟩ := Tx.bind_eq_ok.1 hbody
    obtain ⟨-, rfl⟩ := Prod.mk.inj (Tx.pure_eq_ok.1 hret)
    obtain ⟨-, -, hinsert⟩ := Tx.check_bind_eq_ok.1 (Tx.get_bind_eq_ok.1 hreserve)
    obtain ⟨-, -, rfl⟩ := Table.insert_eq_ok_iff.1 hinsert
    obtain ⟨-, -, -, rfl⟩ := Table.update_eq_ok_iff.1 hcomplete
    rfl
  · simp only [hfind] at h
    obtain ⟨_, -, h⟩ := Tx.check_bind_eq_ok.1 h
    obtain ⟨-, rfl⟩ := Prod.mk.inj (Tx.pure_eq_ok.1 h)
    rfl

end Entries

section Steps

variable {Pid : Type} [DecidableEq Pid] {P : Platform} {p : Pid} {e : Env} {s s' : Shared Pid}
  {l l' : Local}

/-- What a transaction that ends leaves behind. -/
theorem db_of_close {α : Type} {body : Tx Db Thrown α}
    {respond : Except Thrown α → Except Thrown Response} (h : s.close p body respond = (s', l')) :
    s'.db = s.db ∨ ∃ a, body s.db = .ok (a, s'.db) := by
  obtain ⟨rfl, -⟩ := Prod.mk.inj h
  rcases hbody : body s.db with thrown | ⟨a, db⟩
  · exact Or.inl (by simp [Tx.commit, hbody])
  · exact Or.inr ⟨a, by simp [Tx.commit, hbody]⟩

theorem db_of_closeJob {body : Tx Db Thrown JobOutcome} (h : s.closeJob p body = (s', l')) :
    s'.db = s.db ∨ ∃ outcome, body s.db = .ok (outcome, s'.db) := by
  rcases hbody : body s.db with thrown | ⟨outcome, db⟩
  · simp only [Shared.closeJob, hbody, Prod.mk.injEq] at h
    exact Or.inl (by rw [← h.1]; rfl)
  · simp only [Shared.closeJob, hbody, Prod.mk.injEq] at h
    rcases haborted : outcome.aborted with - | -
    · exact Or.inr ⟨outcome, by rw [← h.1, haborted]; rfl⟩
    · exact Or.inl (by rw [← h.1, haborted]; rfl)

/-- No row at all. -/
theorem Entered.nothing {e : Draws} {db db' : Db}
    (haccruals : db'.commissionAccruals = db.commissionAccruals)
    (hpayments : db'.commissionPayments = db.commissionPayments) : Entered e l db db' := by
  have hrows : db'.commissionAccruals = db.commissionAccruals ++ [] := by
    rw [haccruals, List.append_nil]
  exact .rows hrows hpayments (by simp)

/-- Rows made from the entries of a split pay nothing. -/
theorem RowsAppended.entered {e : Draws} {db db' : Db} {now : Instant} {event : RevenueEvent}
    {schedule : CommissionSchedule} {split : ComputeCommissionSplitsResult}
    {userId orgId : Option Uuid} {rows : List CommissionAccrual} (h : RowsAppended db db' now
      (split.entries.map (accrualInput event schedule split userId orgId)) rows)
    (hpayments : db'.commissionPayments = db.commissionPayments) : Entered e l db db' := by
  refine .rows h.accruals_eq hpayments fun row hrow ↦ ?_
  obtain ⟨input, hinput, hmade⟩ := h.exists_input hrow
  obtain ⟨entry, -, rfl⟩ := List.mem_map.1 hinput
  rw [hmade]
  exact ⟨rfl, LedgerEntryType.noConfusion⟩

/-- **Every step** enters rows that pay nothing, or a payment with its rows. -/
theorem entered_of_step (h : step P p e s l = some (s', l')) :
    Entered e.toDraws l s.db s'.db := by
  cases step_cases h with
  | wrote hwrote =>
    have hadvance := advance_of_step h (by simp)
    cases hwrote with
    | schedule hwritten => exact .nothing hwritten.accruals_eq hwritten.payments_eq
    | event hwritten => exact hwritten.rows.entered hwritten.payments_eq
    | payment _ =>
      rcases db_of_close (Option.some.inj hadvance) with hdb | ⟨⟨payment, rows⟩, hbody⟩
      · exact .nothing (by rw [hdb]) (by rw [hdb])
      · exact .payment (commitPayment_posted hbody)
    | adjustment hwritten =>
      rcases db_of_close (Option.some.inj hadvance) with hdb | ⟨row, hbody⟩
      · exact .nothing (by rw [hdb]) (by rw [hdb])
      · refine .rows hwritten.rows.accruals_eq (payments_of_commitAdjustment hbody) fun r hr ↦ ?_
        obtain rfl := List.mem_singleton.1 hr
        rw [hwritten.row_eq]
        exact ⟨rfl, LedgerEntryType.noConfusion⟩
    | job hwritten =>
      rcases db_of_closeJob (Option.some.inj hadvance) with hdb | ⟨outcome, hbody⟩
      · exact .nothing (by rw [hdb]) (by rw [hdb])
      · exact hwritten.rows.entered (payments_of_commitJob hbody)
  | _ => exact .nothing rfl rfl

/-! ### Preservation -/

variable {db db' : Db}

/-- What a payment row is made of. -/
theorem PaymentPosted.row {e : Draws} {call : ServiceCall RecordPaymentRequest} {plan : PaymentPlan}
    {valid : ValidatedPayment} {payment : CommissionPayment} {rows : List CommissionAccrual}
    (h : PaymentPosted e call plan valid db db' payment rows)
    (hvalid : revalidatePayment db call = .ok valid) {row : CommissionAccrual} (hrow : row ∈ rows) :
    row.paymentId = some payment.id ∧ row.entryType = .payment ∧ PaidBy payment row := by
  obtain ⟨input, hinput, hmade⟩ := h.rows.exists_input hrow
  obtain ⟨loaded, hloaded, rfl⟩ := List.mem_map.1 hinput
  obtain ⟨hrecipient, -⟩ := revalidatePayment_single hvalid hloaded
  rw [hmade]
  exact ⟨rfl, rfl, h.dealRoom.symm, hrecipient.trans h.recipient.symm, h.currency.symm⟩

theorem PaymentPosted.sum_rows {e : Draws} {call : ServiceCall RecordPaymentRequest}
    {plan : PaymentPlan} {valid : ValidatedPayment} {payment : CommissionPayment}
    {rows : List CommissionAccrual} (h : PaymentPosted e call plan valid db db' payment rows) :
    payment.totalAmountMinor = (rows.map (·.amountMinor)).sum := by
  have hamounts := (List.forall₂_map_left_iff.1 h.rows.made).map_eq (f := (·.amountMinor))
    (g := (·.amountMinor)) fun loaded row hrow ↦ by rw [hrow]; rfl
  rw [h.total, ← hamounts, List.sum_eq_foldl, List.foldl_map]

/-- **Every entry keeps payments balanced.** -/
theorem PaymentsBooked.entered {e : Draws} (h : PaymentsBooked db) (hk : Knows db l)
    (hentered : Entered e l db db') : PaymentsBooked db' := by
  cases hentered with
  | rows haccruals hpayments hrows =>
    refine ⟨?_, fun row hrow ↦ ?_, fun payment hpayment row hrow hname ↦ ?_⟩
    · rw [hpayments, haccruals]
      exact h.balanced.append_rows fun row hrow ↦ (hrows row hrow).1
    · rw [haccruals, List.mem_append] at hrow
      rcases hrow with hold | hnew
      · exact h.carries row hold
      · obtain ⟨hnone, htype⟩ := hrows row hnew
        exact iff_of_false (not_not.2 hnone) htype
    · rw [haccruals, List.mem_append] at hrow
      rcases hrow with hold | hnew
      · exact h.paidBy payment (hpayments ▸ hpayment) row hold hname
      · cases (hrows row hnew).1.symm.trans hname
  | payment hposted =>
    rename_i call plan valid posted rows
    refine ⟨?_, fun row hrow ↦ ?_, fun payment hpayment row hrow hname ↦ ?_⟩
    · rw [hposted.payments_eq, hposted.rows.accruals_eq]
      exact h.balanced.post hposted.fresh (fun row hrow ↦ (hposted.row hk hrow).1)
        hposted.sum_rows
    · rw [hposted.rows.accruals_eq, List.mem_append] at hrow
      rcases hrow with hold | hnew
      · exact h.carries row hold
      · obtain ⟨hname, htype, -⟩ := hposted.row hk hnew
        exact iff_of_true (by rw [hname]; exact Option.some_ne_none _) htype
    · rw [hposted.rows.accruals_eq, List.mem_append] at hrow
      rw [hposted.payments_eq, List.mem_append, List.mem_singleton] at hpayment
      rcases hrow with hold | hnew
      · -- an older row carries the id of an older payment
        have hmem := h.balanced.resolves row hold _ hname
        rcases hpayment with hbefore | rfl
        · exact h.paidBy payment hbefore row hold hname
        · exact absurd hmem hposted.fresh
      · obtain ⟨hown, -, hpaid⟩ := hposted.row hk hnew
        have hid : posted.id = payment.id := Option.some.inj (hown.symm.trans hname)
        rcases hpayment with hbefore | rfl
        · exact absurd (List.mem_map.2 ⟨payment, hbefore, hid.symm⟩) hposted.fresh
        · exact hpaid

end Steps

/-! ### Runs -/

structure Booked (db : Db) : Prop where
  rows : RowsOfEvents db
  payments : PaymentsBooked db

theorem InitialDb.booked {db : Db} (h : InitialDb db) : Booked db := by
  have hnone : ∀ row, row ∉ db.commissionAccruals := by simp [h.no_accruals]
  refine ⟨fun _ _ row hrow ↦ absurd hrow (hnone row), ⟨?_, fun row hrow ↦ absurd hrow (hnone row),
    fun _ _ row hrow ↦ absurd hrow (hnone row)⟩⟩
  rw [h.no_accruals, h.no_payments]
  exact ⟨List.nodup_nil, by simp, by simp⟩

/-- **The books are in order** in every reachable configuration. -/
theorem booked_of_reachable {Pid : Type} [DecidableEq Pid] {P : Platform} {c : EconomicsConfig Pid}
    (h : EconomicsReachable P c) : Booked c.shared.db := by
  refine PartySystem.ReachableBy.rec_inv (I := fun c ↦ Booked c.shared.db)
    (fun c hstart ↦ hstart.db.booked) ?_ h
  intro c p e c' hreach hbooked hfire _
  obtain ⟨hc, hlocals⟩ := outline_of_reachable hreach
  have hk := (hlocals p).knows
  have hstep := PartySystem.step_of_fire hfire
  refine ⟨?_, hbooked.payments.entered hk (entered_of_step hstep)⟩
  rcases (db_of_step hstep).1 with hdb | hwrote
  · rw [hdb]
    exact hbooked.rows
  · exact wrote_rowsOfEvents hbooked.rows hc hk hwrote

end TolPlatform
