import TolPlatform.Domain.CommissionSplit
import TolPlatform.Domain.LedgerViews
import TolPlatform.Economics.System

/-!
# What holds of the database between any two steps

`Consistent` collects what every transaction of the economics system keeps: primary keys, the foreign
keys that the arguments follow, and the shape of the ledger. The ledger is a set of chains. Each row
belongs to the chain of one `ACCRUAL` row, whose id is the row's `accrualRootId`, and agrees with it
on deal room, revenue event and recipient. Amounts are not negative, and nothing writes a `REVERSAL`.

Whether an event's accruals are there exactly once (`AccruedOnce`) is part of it, because the split
that the rows came from is only known when they are written.

Each `…Written` structure has one preservation lemma.
-/

namespace TolPlatform

/-! ### The invariant -/

/-- `row` and its chain's root are about the same accrual. -/
structure SameAccrual (root row : CommissionAccrual) : Prop where
  dealRoom : row.dealRoomId = root.dealRoomId
  revenueEvent : row.revenueEventId = root.revenueEventId
  recipient : row.recipientOrgId = root.recipientOrgId

/-- The `ACCRUAL` rows of a revenue event. -/
def accrualRows (db : Db) (event : RevenueEvent) : List CommissionAccrual :=
  db.commissionAccruals.filter fun r ↦ r.entryType = .accrual ∧ r.revenueEventId = event.id

/-- One row for each of the components, adding up to `net`. -/
structure SplitInto (components : List EconomicsComponentInput) (net : Int)
    (rows : List CommissionAccrual) : Prop where
  one_each : (rows.map (·.componentId)).Perm (components.map (·.componentId))
  nodup : (rows.map (·.componentId)).Nodup
  sum_eq : (rows.map (·.amountMinor)).sum = net

/-- An event has no `ACCRUAL` row, or one for each component that its split targets. -/
def AccruedOnce (db : Db) (event : RevenueEvent) : Prop :=
  accrualRows db event = [] ∨ ∃ schedule ∈ db.commissionSchedules, schedule.id = event.scheduleId ∧
    SplitInto (targetedComponents db schedule event.basis) event.netDistributableMinor
      (accrualRows db event)

/-- The ledger is a set of chains. -/
structure LedgerShape (db : Db) : Prop where
  accruals_nodup : (db.commissionAccruals.map (·.id)).Nodup
  row_event : ∀ row ∈ db.commissionAccruals,
    ∃ event ∈ db.revenueEvents, event.id = row.revenueEventId
  row_root : ∀ row ∈ db.commissionAccruals, ∃ root ∈ db.commissionAccruals,
    root.entryType = .accrual ∧ root.id = row.accrualRootId ∧ SameAccrual root row
  accrual_self : ∀ row ∈ db.commissionAccruals, row.entryType = .accrual →
    row.accrualRootId = row.id
  amount_nonneg : ∀ row ∈ db.commissionAccruals, 0 ≤ row.amountMinor
  not_reversal : ∀ row ∈ db.commissionAccruals, row.entryType ≠ .reversal

structure Consistent (db : Db) : Prop extends LedgerShape db where
  schedules_nodup : (db.commissionSchedules.map (·.id)).Nodup
  components_nodup : (db.commissionComponents.map (·.id)).Nodup
  events_nodup : (db.revenueEvents.map (·.id)).Nodup
  component_schedule : ∀ c ∈ db.commissionComponents,
    ∃ s ∈ db.commissionSchedules, s.id = c.scheduleId
  event_schedule : ∀ event ∈ db.revenueEvents,
    ∃ s ∈ db.commissionSchedules, s.id = event.scheduleId
  accrued : ∀ event ∈ db.revenueEvents, AccruedOnce db event

/-! ### Primary keys -/

/-- Rows with the same id are the same row. -/
theorem Consistent.event_unique {db : Db} (h : Consistent db) {a b : RevenueEvent}
    (ha : a ∈ db.revenueEvents) (hb : b ∈ db.revenueEvents) (hid : a.id = b.id) : a = b :=
  List.inj_on_of_nodup_map h.events_nodup ha hb hid

theorem LedgerShape.row_unique {db : Db} (h : LedgerShape db) {a b : CommissionAccrual}
    (ha : a ∈ db.commissionAccruals) (hb : b ∈ db.commissionAccruals) (hid : a.id = b.id) : a = b :=
  List.inj_on_of_nodup_map h.accruals_nodup ha hb hid

/-- Rows of one chain agree with each other. -/
theorem LedgerShape.same_chain {db : Db} (h : LedgerShape db) {a b : CommissionAccrual}
    (ha : a ∈ db.commissionAccruals) (hb : b ∈ db.commissionAccruals)
    (hroot : a.accrualRootId = b.accrualRootId) : SameAccrual a b := by
  obtain ⟨ra, hra, -, hida, hsa⟩ := h.row_root a ha
  obtain ⟨rb, hrb, -, hidb, hsb⟩ := h.row_root b hb
  obtain rfl := h.row_unique hra hrb (hida.trans (hroot.trans hidb.symm))
  exact ⟨hsb.dealRoom.trans hsa.dealRoom.symm, hsb.revenueEvent.trans hsa.revenueEvent.symm,
    hsb.recipient.trans hsa.recipient.symm⟩

/-! ### Appending to the ledger -/

/-- A row that may join the ledger: a fresh accrual of a recorded event, or a correction of a chain
that is already there. -/
inductive JoinsLedger (db : Db) (events : List RevenueEvent) (row : CommissionAccrual) : Prop
  | accrual : row.entryType = .accrual → row.accrualRootId = row.id →
    (∃ event ∈ events, event.id = row.revenueEventId) → JoinsLedger db events row
  | correction (sibling : CommissionAccrual) : row.entryType ≠ .accrual →
    row.entryType ≠ .reversal → sibling ∈ db.commissionAccruals →
    sibling.accrualRootId = row.accrualRootId → SameAccrual sibling row → JoinsLedger db events row

theorem LedgerShape.append {db db' : Db} (h : LedgerShape db) {rows : List CommissionAccrual}
    (haccruals : db'.commissionAccruals = db.commissionAccruals ++ rows)
    (hevents : ∀ event ∈ db.revenueEvents, event ∈ db'.revenueEvents)
    (hnodup : (rows.map (·.id)).Nodup) (hfresh : ∀ row ∈ rows, row.id ∉ db.commissionAccruals.map (·.id))
    (hnonneg : ∀ row ∈ rows, 0 ≤ row.amountMinor)
    (hjoin : ∀ row ∈ rows, JoinsLedger db db'.revenueEvents row) : LedgerShape db' := by
  have hmem : ∀ {row}, row ∈ db'.commissionAccruals ↔ row ∈ db.commissionAccruals ∨ row ∈ rows := by
    intro row
    rw [haccruals, List.mem_append]
  refine ⟨?_, ?_, ?_, ?_, ?_, ?_⟩
  · rw [haccruals]
    exact Table.keys_nodup_append (T := Db.accruals) h.accruals_nodup hnodup hfresh
  · intro row hrow
    rcases hmem.1 hrow with hold | hnew
    · obtain ⟨event, hevent, hid⟩ := h.row_event row hold
      exact ⟨event, hevents event hevent, hid⟩
    · rcases hjoin row hnew with ⟨-, -, hevent⟩ | ⟨sibling, -, -, hsibling, -, hsame⟩
      · exact hevent
      · obtain ⟨event, hevent, hid⟩ := h.row_event sibling hsibling
        exact ⟨event, hevents event hevent, hid.trans hsame.revenueEvent.symm⟩
  · intro row hrow
    rcases hmem.1 hrow with hold | hnew
    · obtain ⟨root, hroot, hrest⟩ := h.row_root row hold
      exact ⟨root, hmem.2 (.inl hroot), hrest⟩
    · rcases hjoin row hnew with ⟨htype, hself, -⟩ | ⟨sibling, -, -, hsibling, hid, hsame⟩
      · exact ⟨row, hrow, htype, hself.symm, rfl, rfl, rfl⟩
      · obtain ⟨root, hroot, htype, hrootId, hs⟩ := h.row_root sibling hsibling
        exact ⟨root, hmem.2 (.inl hroot), htype, hrootId.trans hid,
          hsame.dealRoom.trans hs.dealRoom, hsame.revenueEvent.trans hs.revenueEvent,
          hsame.recipient.trans hs.recipient⟩
  · intro row hrow htype
    rcases hmem.1 hrow with hold | hnew
    · exact h.accrual_self row hold htype
    · rcases hjoin row hnew with ⟨-, hself, -⟩ | ⟨-, hnot, -⟩
      · exact hself
      · exact absurd htype hnot
  · intro row hrow
    rcases hmem.1 hrow with hold | hnew
    · exact h.amount_nonneg row hold
    · exact hnonneg row hnew
  · intro row hrow
    rcases hmem.1 hrow with hold | hnew
    · exact h.not_reversal row hold
    · rcases hjoin row hnew with ⟨htype, -, -⟩ | ⟨-, -, hnot, -⟩
      · rw [htype]
        decide
      · exact hnot

/-- The ledger tables untouched, but for events that only grow. -/
theorem LedgerShape.congr {db db' : Db} (h : LedgerShape db)
    (haccruals : db'.commissionAccruals = db.commissionAccruals)
    (hevents : ∀ event ∈ db.revenueEvents, event ∈ db'.revenueEvents) : LedgerShape db' := by
  have hrows : db'.commissionAccruals = db.commissionAccruals ++ [] := by
    rw [haccruals, List.append_nil]
  exact h.append hrows hevents List.nodup_nil (by simp) (by simp) (by simp)

/-! ### Reads that a write leaves alone -/

section Frame

variable {db db' : Db}

theorem listBySchedule_of_eq (h : db'.commissionComponents = db.commissionComponents) (id : Uuid) :
    CommissionComponentRepository.listBySchedule db' id =
      CommissionComponentRepository.listBySchedule db id := by
  rw [CommissionComponentRepository.listBySchedule, CommissionComponentRepository.listBySchedule, h]

/-- A new schedule's components are not another schedule's. -/
theorem listBySchedule_append {new : List CommissionComponent}
    (h : db'.commissionComponents = db.commissionComponents ++ new) {id : Uuid}
    (hnew : ∀ c ∈ new, c.scheduleId ≠ id) :
    CommissionComponentRepository.listBySchedule db' id =
      CommissionComponentRepository.listBySchedule db id := by
  have hnil : new.filter (·.scheduleId = id) = [] := by
    rw [List.filter_eq_nil_iff]
    intro c hc
    simpa using hnew c hc
  rw [CommissionComponentRepository.listBySchedule, CommissionComponentRepository.listBySchedule, h,
    List.filter_append, hnil, List.append_nil]

/-- The targeted components depend on the schedule's id, its basis and its components only. -/
theorem targetedComponents_congr {schedule schedule' : CommissionSchedule}
    (hid : schedule'.id = schedule.id) (hbasis : schedule'.basis = schedule.basis)
    (hlist : CommissionComponentRepository.listBySchedule db' schedule.id =
      CommissionComponentRepository.listBySchedule db schedule.id) (basis : CommissionBasis) :
    targetedComponents db' schedule' basis = targetedComponents db schedule basis := by
  rw [targetedComponents, targetedComponents, hid, hbasis, hlist]

theorem accrualRows_append {rows : List CommissionAccrual}
    (h : db'.commissionAccruals = db.commissionAccruals ++ rows) (event : RevenueEvent) :
    accrualRows db' event = accrualRows db event ++
      rows.filter fun r ↦ r.entryType = .accrual ∧ r.revenueEventId = event.id := by
  rw [accrualRows, accrualRows, h, List.filter_append]

/-- Rows that are no accruals of the event do not change its accruals. -/
theorem accrualRows_append_of_not {rows : List CommissionAccrual}
    (h : db'.commissionAccruals = db.commissionAccruals ++ rows) {event : RevenueEvent}
    (hnot : ∀ r ∈ rows, r.entryType = .accrual → r.revenueEventId ≠ event.id) :
    accrualRows db' event = accrualRows db event := by
  have hnil : rows.filter (fun r ↦ r.entryType = .accrual ∧ r.revenueEventId = event.id) = [] := by
    rw [List.filter_eq_nil_iff]
    intro r hr
    simpa using hnot r hr
  rw [accrualRows_append h, hnil, List.append_nil]

theorem AccruedOnce.congr {event : RevenueEvent} (h : AccruedOnce db event)
    (hrows : accrualRows db' event = accrualRows db event)
    (hschedule : ∀ s ∈ db.commissionSchedules, ∃ s' ∈ db'.commissionSchedules, s'.id = s.id ∧
      targetedComponents db' s' event.basis = targetedComponents db s event.basis) :
    AccruedOnce db' event := by
  rcases h with hnil | ⟨s, hs, hid, hsplit⟩
  · exact .inl (hrows.trans hnil)
  · obtain ⟨s', hs', hid', htarget⟩ := hschedule s hs
    refine .inr ⟨s', hs', hid'.trans hid, ?_⟩
    rw [hrows, htarget]
    exact hsplit

/-- Schedules and components untouched: every schedule is still there with the same targets. -/
theorem schedules_kept (hschedules : db'.commissionSchedules = db.commissionSchedules)
    (hcomponents : db'.commissionComponents = db.commissionComponents) {basis : CommissionBasis} :
    ∀ s ∈ db.commissionSchedules, ∃ s' ∈ db'.commissionSchedules, s'.id = s.id ∧
      targetedComponents db' s' basis = targetedComponents db s basis := fun s hs ↦
  ⟨s, hschedules ▸ hs, rfl, targetedComponents_congr rfl rfl (listBySchedule_of_eq hcomponents _) _⟩

end Frame

/-! ### Preservation: schedules -/

@[simp] theorem retire_id {actor : Actor} {previous : Option CommissionSchedule}
    {s : CommissionSchedule} : (retire actor previous s).id = s.id := by
  unfold retire
  split_ifs <;> rfl

@[simp] theorem retire_basis {actor : Actor} {previous : Option CommissionSchedule}
    {s : CommissionSchedule} : (retire actor previous s).basis = s.basis := by
  unfold retire
  split_ifs <;> rfl

namespace ScheduleWritten

variable {call : ServiceCall CreateScheduleRequest} {plan : SchedulePlan} {db db' : Db}
  {new : CommissionSchedule} {components : List CommissionComponent}

theorem mem_schedules (h : ScheduleWritten call plan db db' new components)
    {s : CommissionSchedule} : s ∈ db'.commissionSchedules ↔
      (∃ old ∈ db.commissionSchedules, retire call.actor plan.previous old = s) ∨ s = new := by
  rw [h.schedules_eq, List.mem_append, List.mem_map, List.mem_singleton]

theorem retire_mem (h : ScheduleWritten call plan db db' new components) {s : CommissionSchedule}
    (hs : s ∈ db.commissionSchedules) :
    retire call.actor plan.previous s ∈ db'.commissionSchedules :=
  h.mem_schedules.2 (.inl ⟨s, hs, rfl⟩)

/-- An existing schedule keeps its targets, whether superseded or not. -/
theorem targets_kept (h : ScheduleWritten call plan db db' new components)
    {basis : CommissionBasis} {s : CommissionSchedule} (hs : s ∈ db.commissionSchedules) :
    targetedComponents db' (retire call.actor plan.previous s) basis =
      targetedComponents db s basis := by
  refine targetedComponents_congr retire_id retire_basis
    (listBySchedule_append h.components_eq fun c hc heq ↦ h.fresh ?_) _
  rw [← h.own c hc, heq]
  exact List.mem_map_of_mem hs

theorem consistent (h : ScheduleWritten call plan db db' new components) (hc : Consistent db) :
    Consistent db' := by
  have hids : (db'.commissionSchedules.map (·.id)) =
      db.commissionSchedules.map (·.id) ++ [new.id] := by
    rw [h.schedules_eq, List.map_append, List.map_map]
    exact congrArg (· ++ [new.id]) (List.map_congr_left fun s _ ↦ retire_id)
  refine { hc.toLedgerShape.congr h.accruals_eq fun event hevent ↦ h.events_eq ▸ hevent with
    schedules_nodup := ?_, components_nodup := ?_, events_nodup := h.events_eq ▸ hc.events_nodup,
    component_schedule := ?_, event_schedule := ?_, accrued := ?_ }
  · rw [hids]
    exact hc.schedules_nodup.append (List.nodup_singleton _) (by simpa using h.fresh)
  · rw [h.components_eq]
    exact Table.keys_nodup_append (T := Db.components) hc.components_nodup h.components_nodup
      h.components_fresh
  · intro c hmem
    rw [h.components_eq, List.mem_append] at hmem
    rcases hmem with hold | hnew
    · obtain ⟨s, hs, hid⟩ := hc.component_schedule c hold
      exact ⟨_, h.retire_mem hs, retire_id.trans hid⟩
    · exact ⟨new, h.mem_schedules.2 (.inr rfl), (h.own c hnew).symm⟩
  · intro event hevent
    rw [h.events_eq] at hevent
    obtain ⟨s, hs, hid⟩ := hc.event_schedule event hevent
    exact ⟨_, h.retire_mem hs, retire_id.trans hid⟩
  · intro event hevent
    rw [h.events_eq] at hevent
    refine (hc.accrued event hevent).congr ?_ fun s hs ↦
      ⟨_, h.retire_mem hs, retire_id, h.targets_kept hs⟩
    rw [accrualRows, accrualRows, h.accruals_eq]

end ScheduleWritten

/-! ### Preservation: accruals -/

section Accruals

variable {db db' : Db} {now : Instant} {event : RevenueEvent} {schedule : CommissionSchedule}
  {split : ComputeCommissionSplitsResult} {userId orgId : Option Uuid}
  {rows : List CommissionAccrual}

/-- The rows made from the entries of a split. -/
theorem RowsAppended.accrual_row (h : RowsAppended db db' now
    (split.entries.map (accrualInput event schedule split userId orgId)) rows)
    {row : CommissionAccrual} (hrow : row ∈ rows) : row.entryType = .accrual ∧
      row.accrualRootId = row.id ∧ row.revenueEventId = event.id ∧
      ∃ entry ∈ split.entries, row.amountMinor = entry.amountMinor := by
  obtain ⟨input, hinput, hmade⟩ := h.exists_input hrow
  obtain ⟨entry, hentry, rfl⟩ := List.mem_map.1 hinput
  rw [hmade]
  exact ⟨rfl, rfl, rfl, entry, hentry, rfl⟩

/-- Rows made from an exact split are an exact split. -/
theorem RowsAppended.splitInto (h : RowsAppended db db' now
    (split.entries.map (accrualInput event schedule split userId orgId)) rows)
    {net : Int} {components : List EconomicsComponentInput}
    (hsplit : IsSplitOf net components split.entries) : SplitInto components net rows := by
  have hcomponents : split.entries.map (·.componentId) = rows.map (·.componentId) := by
    have hmap := h.made.map_eq (f := (·.componentId)) (g := (·.componentId))
      fun input row hrow ↦ by rw [hrow]; rfl
    rw [← hmap, List.map_map]
    rfl
  have hamounts : split.entries.map (·.amountMinor) = rows.map (·.amountMinor) := by
    have hmap := h.made.map_eq (f := (·.amountMinor)) (g := (·.amountMinor))
      fun input row hrow ↦ by rw [hrow]; rfl
    rw [← hmap, List.map_map]
    rfl
  refine ⟨hcomponents ▸ hsplit.one_each, ?_, hamounts ▸ hsplit.sum_eq⟩
  rw [← hcomponents]
  exact hsplit.one_each.nodup_iff.2 hsplit.components_nodup

/-- Rows made from the entries of a split join the ledger, once their event is recorded. -/
theorem RowsAppended.ledgerShape (h : RowsAppended db db' now
    (split.entries.map (accrualInput event schedule split userId orgId)) rows)
    (hc : LedgerShape db) {net : Int} {components : List EconomicsComponentInput}
    (hsplit : IsSplitOf net components split.entries)
    (hevents : ∀ event ∈ db.revenueEvents, event ∈ db'.revenueEvents)
    (hevent : event ∈ db'.revenueEvents) : LedgerShape db' := by
  refine hc.append h.accruals_eq hevents h.nodup h.fresh ?_ ?_
  · intro row hrow
    obtain ⟨-, -, -, entry, hentry, hamount⟩ := h.accrual_row hrow
    rw [hamount]
    exact hsplit.nonneg entry hentry
  · intro row hrow
    obtain ⟨htype, hself, hid, -⟩ := h.accrual_row hrow
    exact .accrual htype hself ⟨event, hevent, hid.symm⟩

end Accruals

/-- What `recordRevenueEvent` still knows when it commits: the schedule it chose is there, and the
split it computed is the schedule's. -/
def PlanSound (db : Db) (call : ServiceCall RecordRevenueEventRequest) (plan : RevenuePlan) : Prop :=
  ∃ s ∈ db.commissionSchedules, s.id = plan.schedule.id ∧
    IsSplitOf plan.netDistributableMinor (targetedComponents db s call.input.basis)
      plan.split.entries

theorem EventWritten.consistent {e : Draws} {call : ServiceCall RecordRevenueEventRequest}
    {plan : RevenuePlan} {db db' : Db} {event : RevenueEvent} {rows : List CommissionAccrual}
    (h : EventWritten e call plan db db' event rows) (hc : Consistent db)
    (hplan : PlanSound db call plan) : Consistent db' := by
  obtain ⟨s, hs, hsid, hsplit⟩ := hplan
  have hmem : ∀ {x}, x ∈ db'.revenueEvents ↔ x ∈ db.revenueEvents ∨ x = event := by
    intro x
    rw [h.events_eq, List.mem_append, List.mem_singleton]
  have hkept := fun basis ↦ @schedules_kept db db' h.schedules_eq h.components_eq basis
  refine { h.rows.ledgerShape hc.toLedgerShape hsplit (fun x hx ↦ hmem.2 (.inl hx))
      (hmem.2 (.inr rfl)) with
    schedules_nodup := h.schedules_eq ▸ hc.schedules_nodup,
    components_nodup := h.components_eq ▸ hc.components_nodup, events_nodup := ?_,
    component_schedule := ?_, event_schedule := ?_, accrued := ?_ }
  · rw [h.events_eq]
    refine Table.keys_nodup_append (T := Db.events) hc.events_nodup (List.nodup_singleton _) ?_
    intro x hx
    rw [List.mem_singleton.1 hx]
    exact h.fresh
  · rw [h.components_eq, h.schedules_eq]
    exact hc.component_schedule
  · intro x hx
    rw [h.schedules_eq]
    rcases hmem.1 hx with hold | rfl
    · exact hc.event_schedule x hold
    · exact ⟨s, hs, hsid.trans h.schedule.symm⟩
  · intro x hx
    rcases hmem.1 hx with hold | rfl
    · -- an older event has another id, so the new rows are not its accruals
      refine (hc.accrued x hold).congr (accrualRows_append_of_not h.rows.accruals_eq ?_) (hkept _)
      intro row hrow _ heq
      obtain ⟨-, -, hid, -⟩ := h.rows.accrual_row hrow
      exact h.fresh (hid.symm.trans heq ▸ List.mem_map_of_mem hold)
    · -- the new event had no rows, and the new rows are all its own
      have hnone : accrualRows db x = [] := by
        rw [accrualRows, List.filter_eq_nil_iff]
        intro row hrow
        obtain ⟨event, hevent, hid⟩ := hc.row_event row hrow
        have hne : row.revenueEventId ≠ x.id := fun heq ↦
          h.fresh (hid.trans heq ▸ List.mem_map_of_mem hevent)
        simp [hne]
      have hall : rows.filter (fun r ↦ r.entryType = .accrual ∧ r.revenueEventId = x.id) = rows := by
        rw [List.filter_eq_self]
        intro row hrow
        obtain ⟨htype, -, hid, -⟩ := h.rows.accrual_row hrow
        simp [htype, hid]
      obtain ⟨s', hs', hid', htarget⟩ := hkept x.basis s hs
      refine .inr ⟨s', hs', hid'.trans (hsid.trans h.schedule.symm), ?_⟩
      rw [accrualRows_append h.rows.accruals_eq, hnone, hall, List.nil_append, htarget, h.net,
        h.basis]
      exact h.rows.splitInto hsplit

/-- What a job still knows when it commits: its event and schedule are there, and nobody has accrued
the event. -/
structure JobSound (db : Db) (plan : JobPlan) : Prop where
  event : plan.revenueEvent ∈ db.revenueEvents
  schedule : ∃ s ∈ db.commissionSchedules, s.id = plan.schedule.id ∧ s.basis = plan.schedule.basis
  same_schedule : plan.schedule.id = plan.revenueEvent.scheduleId
  no_rows : ∀ row ∈ db.commissionAccruals, row.revenueEventId ≠ plan.revenueEvent.id

theorem JobWritten.consistent {e : Draws} {plan : JobPlan} {db db' : Db}
    {split : ComputeCommissionSplitsResult} {rows : List CommissionAccrual}
    (h : JobWritten e plan db db' split rows) (hc : Consistent db) (hplan : JobSound db plan) :
    Consistent db' := by
  obtain ⟨s, hs, hsid, hsbasis⟩ := hplan.schedule
  have hsplit := isSplitOf_of_computeCommissionSplits h.computed
  have hkept := fun basis ↦ @schedules_kept db db' h.schedules_eq h.components_eq basis
  refine { h.rows.ledgerShape hc.toLedgerShape hsplit (fun x hx ↦ h.events_eq ▸ hx)
      (h.events_eq ▸ hplan.event) with
    schedules_nodup := h.schedules_eq ▸ hc.schedules_nodup,
    components_nodup := h.components_eq ▸ hc.components_nodup,
    events_nodup := h.events_eq ▸ hc.events_nodup,
    component_schedule := ?_, event_schedule := ?_, accrued := ?_ }
  · rw [h.components_eq, h.schedules_eq]
    exact hc.component_schedule
  · rw [h.events_eq, h.schedules_eq]
    exact hc.event_schedule
  · intro x hx
    rw [h.events_eq] at hx
    rcases eq_or_ne x plan.revenueEvent with rfl | hne
    · have hnone : accrualRows db plan.revenueEvent = [] := by
        rw [accrualRows, List.filter_eq_nil_iff]
        intro row hrow
        simp [hplan.no_rows row hrow]
      have hall : rows.filter (fun r ↦ r.entryType = .accrual ∧
          r.revenueEventId = plan.revenueEvent.id) = rows := by
        rw [List.filter_eq_self]
        intro row hrow
        obtain ⟨htype, -, hid, -⟩ := h.rows.accrual_row hrow
        simp [htype, hid]
      have htarget : targetedComponents db' s plan.revenueEvent.basis =
          targetedComponents db plan.schedule plan.revenueEvent.basis :=
        targetedComponents_congr hsid hsbasis (listBySchedule_of_eq h.components_eq _) _
      refine .inr ⟨s, h.schedules_eq ▸ hs, hsid.trans hplan.same_schedule, ?_⟩
      rw [accrualRows_append h.rows.accruals_eq, hnone, hall, List.nil_append, htarget]
      exact h.rows.splitInto hsplit
    · refine (hc.accrued x hx).congr (accrualRows_append_of_not h.rows.accruals_eq ?_) (hkept _)
      intro row hrow _ heq
      obtain ⟨-, -, hid, -⟩ := h.rows.accrual_row hrow
      exact hne (hc.event_unique hx hplan.event (heq.symm.trans hid))

/-! ### Preservation: corrections -/

/-- Rows that correct chains which are already there. -/
def CorrectChains (db : Db) (rows : List CommissionAccrual) : Prop :=
  ∀ row ∈ rows, row.entryType ≠ .accrual ∧ row.entryType ≠ .reversal ∧ 0 ≤ row.amountMinor ∧
    ∃ sibling ∈ db.commissionAccruals, sibling.accrualRootId = row.accrualRootId ∧
      SameAccrual sibling row

theorem RowsAppended.consistent_of_corrections {db db' : Db} {now : Instant}
    {inputs : List CreateCommissionAccrualInput} {rows : List CommissionAccrual}
    (h : RowsAppended db db' now inputs rows) (hc : Consistent db) (hrows : CorrectChains db rows)
    (hschedules : db'.commissionSchedules = db.commissionSchedules)
    (hcomponents : db'.commissionComponents = db.commissionComponents)
    (hevents : db'.revenueEvents = db.revenueEvents) : Consistent db' := by
  have hledger : LedgerShape db' := by
    refine hc.toLedgerShape.append h.accruals_eq (fun x hx ↦ hevents ▸ hx) h.nodup h.fresh
      (fun row hrow ↦ (hrows row hrow).2.2.1) fun row hrow ↦ ?_
    obtain ⟨htype, hreversal, -, sibling, hsibling, hid, hsame⟩ := hrows row hrow
    exact .correction sibling htype hreversal hsibling hid hsame
  refine { hledger with
    schedules_nodup := hschedules ▸ hc.schedules_nodup,
    components_nodup := hcomponents ▸ hc.components_nodup, events_nodup := hevents ▸ hc.events_nodup,
    component_schedule := ?_, event_schedule := ?_, accrued := ?_ }
  · rw [hcomponents, hschedules]
    exact hc.component_schedule
  · rw [hevents, hschedules]
    exact hc.event_schedule
  · intro event hevent
    rw [hevents] at hevent
    refine (hc.accrued event hevent).congr (accrualRows_append_of_not h.accruals_eq ?_)
      (schedules_kept hschedules hcomponents)
    intro row hrow htype
    exact absurd htype (hrows row hrow).1

end TolPlatform
