import TolPlatform.Economics.Statements

/-!
# Caps and floors of schedules

A schedule may carry a cap and a floor on what it distributes in all. Nothing enforces them; they are
disclosed, by `listSchedules`, as how far they are exceeded or missed. `createSchedule` parses them, so
none is negative where none was at the start (`capsValid_of_reachable`), and the total that they are held
against is a sum of ledger rows. So the listing never fails for a reader who may list schedules, and what
it discloses is about the accrued revenue events of the schedule (`listSchedules_of_reachable`), whatever
currency they are in: a schedule has none.
-/

namespace TolPlatform

/-! ### Disclosure -/

/-- The net amount of the accrued events of a schedule. -/
def distributedMinor (db : Db) (scheduleId : Uuid) : Int :=
  (((accruedEvents db).filter (·.scheduleId = scheduleId)).map (·.netDistributableMinor)).sum

/-- What a status says of a total, against the cap and the floor of a schedule. -/
structure Discloses (schedule : CommissionSchedule) (total : Int)
    (status : Option ScheduleCapFloorStatus) : Prop where
  absent : status = none ↔ schedule.capMinor = none ∧ schedule.floorMinor = none
  withinCap : ∀ s, status = some s →
    (s.withinCap = true ↔ ∀ cap, schedule.capMinor = some cap → total ≤ cap)
  exceeded : ∀ s, status = some s → ∀ n, s.capExceededByMinor = some n ↔
    ∃ cap, schedule.capMinor = some cap ∧ cap < total ∧ n = total - cap
  withinFloor : ∀ s, status = some s →
    (s.withinFloor = true ↔ ∀ floor, schedule.floorMinor = some floor → floor ≤ total)
  shortfall : ∀ s, status = some s → ∀ n, s.floorShortfallMinor = some n ↔
    ∃ floor, schedule.floorMinor = some floor ∧ total < floor ∧ n = floor - total

/-- Neither a cap nor a floor is negative. -/
structure CapsValid (capMinor floorMinor : Option Int) : Prop where
  cap : ∀ n, capMinor = some n → 0 ≤ n
  floor : ∀ n, floorMinor = some n → 0 ≤ n

section Reads

variable {schedule : CommissionSchedule} {total : Int}

theorem evaluateScheduleCapFloor_eq_ok {capMinor floorMinor : Option Int}
    (hcaps : CapsValid capMinor floorMinor) (htotal : 0 ≤ total) :
    evaluateScheduleCapFloor ⟨capMinor, floorMinor, total⟩ = .ok
      { withinCap := ((capMinor.filter (· < total)).map (total - ·)).isNone
        capExceededByMinor := (capMinor.filter (· < total)).map (total - ·)
        withinFloor := ((floorMinor.filter (total < ·)).map (· - total)).isNone
        floorShortfallMinor := (floorMinor.filter (total < ·)).map (· - total) } := by
  have hok {n : Int} (fieldName : String) (hn : 0 ≤ n) :
      assertBigIntMinorUnits n fieldName = .ok () := assertBigIntMinorUnits_eq_ok_iff.2 hn
  unfold evaluateScheduleCapFloor
  simp only [hok "cumulativeDistributedMinor" htotal]
  rcases capMinor with - | cap <;> rcases floorMinor with - | floor
  · rfl
  · simp only [hok "floorMinor" (hcaps.floor floor rfl)]
    rfl
  · simp only [hok "capMinor" (hcaps.cap cap rfl)]
    rfl
  · simp only [hok "capMinor" (hcaps.cap cap rfl), hok "floorMinor" (hcaps.floor floor rfl)]
    rfl

/-- The status that is disclosed of a schedule. -/
theorem exists_toCapFloorStatus (hcaps : CapsValid schedule.capMinor schedule.floorMinor)
    (htotal : 0 ≤ total) :
    ∃ status, toCapFloorStatus schedule total = .ok status ∧ Discloses schedule total status := by
  unfold toCapFloorStatus
  by_cases hnone : schedule.capMinor = none ∧ schedule.floorMinor = none
  · rw [if_pos hnone]
    refine ⟨none, rfl, ⟨iff_of_true rfl hnone, ?_, ?_, ?_, ?_⟩⟩ <;> rintro s ⟨⟩
  · rw [if_neg hnone]
    simp only [evaluateScheduleCapFloor_eq_ok hcaps htotal]
    refine ⟨_, rfl, ⟨iff_of_false (Option.some_ne_none _) hnone, ?_, ?_, ?_, ?_⟩⟩
    · rintro s ⟨⟩
      rcases schedule.capMinor with - | cap <;> simp [Option.filter]
    · rintro s ⟨⟩ n
      rcases schedule.capMinor with - | cap <;> simp [Option.filter, eq_comm]
    · rintro s ⟨⟩
      rcases schedule.floorMinor with - | floor <;> simp [Option.filter]
    · rintro s ⟨⟩ n
      rcases schedule.floorMinor with - | floor <;> simp [Option.filter, eq_comm]

/-- **The rows of a schedule add up to its accrued events.** -/
theorem Consistent.sumAccrualAmount_eq {db : Db} (hc : Consistent db) (hbooks : RowsOfEvents db)
    (scheduleId : Uuid) :
    CommissionAccrualRepository.sumAccrualAmountByScheduleId db scheduleId =
      distributedMinor db scheduleId := by
  have haccrued : ((db.commissionAccruals.filter (·.scheduleId = scheduleId)).map
        fun r ↦ r.toLike.accruedMinor).sum = distributedMinor db scheduleId :=
    hc.sum_accrued hbooks fun event row hof ↦ by rw [hof.schedule]
  have hrows : (db.commissionAccruals.filter fun r ↦
        r.scheduleId = scheduleId ∧ r.entryType = .accrual) =
      db.commissionAccruals.filter fun r ↦
        decide (r.entryType = .accrual) && decide (r.scheduleId = scheduleId) :=
    List.filter_congr fun r _ ↦ by rw [Bool.decide_and, Bool.and_comm]
  rw [← haccrued, CommissionAccrualRepository.sumAccrualAmountByScheduleId, hrows, sum_filter_and]
  refine congrArg List.sum (List.map_congr_left fun r _ ↦ ?_)
  simp only [AccrualLedgerEntryLike.accruedMinor, CommissionAccrual.toLike, decide_eq_true_eq]
  rfl

theorem LedgerShape.sumAccrualAmount_nonneg {db : Db} (hc : LedgerShape db) (scheduleId : Uuid) :
    0 ≤ CommissionAccrualRepository.sumAccrualAmountByScheduleId db scheduleId := by
  refine List.sum_nonneg fun n hn ↦ ?_
  obtain ⟨row, hrow, rfl⟩ := List.mem_map.1 hn
  exact hc.amount_nonneg row (List.mem_filter.1 hrow).1

theorem schedule_of_toScheduleDetail {db : Db} {detail : ScheduleDetail}
    (h : toScheduleDetail db schedule = .ok detail) : detail.schedule = schedule := by
  obtain ⟨status, -, hret⟩ := Except.bind_eq_ok'.1 h
  rw [← Except.ok.inj hret]

/-- One schedule of the listing. -/
theorem exists_toScheduleDetail {db : Db} (hc : Consistent db) (hbooks : RowsOfEvents db)
    (hcaps : CapsValid schedule.capMinor schedule.floorMinor) :
    ∃ detail, toScheduleDetail db schedule = .ok detail ∧
      detail.components = CommissionComponentRepository.listBySchedule db schedule.id ∧
      Discloses schedule (distributedMinor db schedule.id) detail.capFloorStatus := by
  have hnonneg := hc.toLedgerShape.sumAccrualAmount_nonneg schedule.id
  rw [← hc.sumAccrualAmount_eq hbooks]
  unfold toScheduleDetail
  by_cases hnone : schedule.capMinor = none ∧ schedule.floorMinor = none
  · have hstatus : toCapFloorStatus schedule 0 = .ok none := if_pos hnone
    obtain ⟨status, hok, hdiscloses⟩ := exists_toCapFloorStatus hcaps hnonneg
    obtain rfl : none = status := Except.ok.inj ((if_pos hnone).symm.trans hok)
    simp only [if_pos hnone, hstatus]
    exact ⟨_, rfl, rfl, hdiscloses⟩
  · obtain ⟨status, hok, hdiscloses⟩ := exists_toCapFloorStatus hcaps hnonneg
    simp only [if_neg hnone, hok]
    exact ⟨_, rfl, rfl, hdiscloses⟩

end Reads

/-! ### Caps and floors over runs -/

def AllCapsValid (db : Db) : Prop := ∀ s ∈ db.commissionSchedules, CapsValid s.capMinor s.floorMinor

/-- What is kept of a schedule's cap and floor. -/
def capFloorOf (s : CommissionSchedule) : Option Int × Option Int := (s.capMinor, s.floorMinor)

theorem allCapsValid_iff {db : Db} : AllCapsValid db ↔
    ∀ cf ∈ db.commissionSchedules.map capFloorOf, CapsValid cf.1 cf.2 := by
  rw [List.forall_mem_map]
  rfl

section Runs

variable {P : Platform} {db db' : Db}

theorem parseOptionalMinorUnits_nonneg {value : Option String} {fieldName : String} {r : Option Int}
    (h : parseOptionalMinorUnits value fieldName = .ok r) : ∀ n, r = some n → 0 ≤ n := by
  rintro n rfl
  unfold parseOptionalMinorUnits at h
  split_ifs at h with hvalue
  · rcases hparse : parseBigIntMinorUnits value fieldName with thrown | m
    · rw [hparse] at h
      cases h
    · rw [hparse] at h
      obtain rfl := Option.some.inj (Except.ok.inj h)
      exact nonneg_of_parseBigIntMinorUnits hparse
  · cases h

/-- What `createSchedule` has parsed. -/
theorem capsValid_of_prepareSchedule {call : ServiceCall CreateScheduleRequest} {plan : SchedulePlan}
    (h : prepareSchedule db call = .ok plan) : CapsValid plan.capMinor plan.floorMinor := by
  simp only [prepareSchedule, Except.bind_eq_ok'] at h
  obtain ⟨_, -, _, -, capMinor, hcap, floorMinor, hfloor, _, -, _, -, hret⟩ := h
  obtain rfl := Except.ok.inj hret
  exact ⟨parseOptionalMinorUnits_nonneg hcap, parseOptionalMinorUnits_nonneg hfloor⟩

/-- A rewrite that keeps caps and floors. -/
theorem map_capFloorOf {f : CommissionSchedule → CommissionSchedule}
    (hf : ∀ s, capFloorOf (f s) = capFloorOf s) (rows : List CommissionSchedule) :
    (rows.map f).map capFloorOf = rows.map capFloorOf := by
  rw [List.map_map]
  exact List.map_congr_left fun s _ ↦ hf s

/-- **A committed schedule** has the cap and the floor that were parsed. -/
theorem capFloor_of_commitSchedule {e : Draws} {call : ServiceCall CreateScheduleRequest}
    {plan : SchedulePlan} {detail : ScheduleDetail}
    (h : commitSchedule e call plan db = .ok (detail, db')) :
    db'.commissionSchedules.map capFloorOf =
      db.commissionSchedules.map capFloorOf ++ [(plan.capMinor, plan.floorMinor)] := by
  obtain ⟨draft, s₁, hcreate, h⟩ := Tx.bind_eq_ok.1 h
  obtain ⟨fv, -, hdraft, -, rfl⟩ := CommissionScheduleRepository.create_eq_ok hcreate
  obtain ⟨-, -, h⟩ := Tx.check_bind_eq_ok.1 h
  obtain ⟨activated, s₂, hactivate, h⟩ := Tx.bind_eq_ok.1 h
  obtain ⟨-, -, -, rfl⟩ := CommissionScheduleRepository.updateStatus_eq_ok hactivate
  obtain ⟨-, -, h⟩ := Tx.check_bind_eq_ok.1 h
  obtain ⟨inputs, -, h⟩ := Tx.check_bind_eq_ok.1 h
  obtain ⟨components, s₃, hcomponents, h⟩ := Tx.bind_eq_ok.1 h
  obtain ⟨-, -, -, rfl⟩ := CommissionComponentRepository.createMany_eq_ok hcomponents
  obtain ⟨_, s₄, hsupersede, h⟩ := Tx.bind_eq_ok.1 h
  obtain rfl := supersede_eq_ok hsupersede
  obtain ⟨s₅, htrails, h⟩ := sameTables_of_trails h
  obtain ⟨_, -, h⟩ := Tx.check_bind_eq_ok.1 h
  obtain ⟨-, rfl⟩ := Prod.mk.inj (Tx.pure_eq_ok.1 h)
  rw [htrails.schedules_eq]
  show ((((db.commissionSchedules ++ [draft]).map _).map _).map capFloorOf) = _
  rw [map_capFloorOf, map_capFloorOf, List.map_append, List.map_singleton, hdraft]
  · rfl
  · intro s
    split_ifs <;> rfl
  · intro s
    unfold retire
    split_ifs <;> rfl

variable {Pid : Type} [DecidableEq Pid] {p : Pid} {e : Env} {s s' : Shared Pid} {l l' : Local}

/-- A call that is about to commit a schedule has parsed its cap and floor. -/
def CapsParsed : Local → Prop
  | .schedulePrepared _ plan => CapsValid plan.capMinor plan.floorMinor
  | _ => True

theorem capsParsed_of_step (h : step P p e s l = some (s', l')) : CapsParsed l' := by
  cases step_cases h with
  | prepared hprepare => exact capsValid_of_prepareSchedule hprepare
  | _ => trivial

theorem allCapsValid_of_step (h : step P p e s l = some (s', l')) (hl : CapsParsed l)
    (hcaps : AllCapsValid s.db) : AllCapsValid s'.db := by
  have hsame (heq : s'.db.commissionSchedules = s.db.commissionSchedules) : AllCapsValid s'.db := by
    rw [AllCapsValid, heq]
    exact hcaps
  cases step_cases h with
  | wrote hwrote =>
    have hadvance := advance_of_step h (by simp)
    cases hwrote with
    | schedule _ =>
      rcases db_of_close (Option.some.inj hadvance) with hdb | ⟨detail, hbody⟩
      · exact hsame (by rw [hdb])
      · rw [allCapsValid_iff, capFloor_of_commitSchedule hbody]
        intro cf hcf
        rcases List.mem_append.1 hcf with hold | hnew
        · exact allCapsValid_iff.1 hcaps cf hold
        · rw [List.mem_singleton.1 hnew]
          exact hl
    | event hwritten => exact hsame hwritten.schedules_eq
    | payment hwritten => exact hsame hwritten.schedules_eq
    | adjustment hwritten => exact hsame hwritten.schedules_eq
    | job hwritten => exact hsame hwritten.schedules_eq
  | _ => exact hsame rfl

variable {c : EconomicsConfig Pid}

/-- A start whose schedules carry no negative cap or floor. -/
def CappedStart (c : EconomicsConfig Pid) : Prop := Start c ∧ AllCapsValid c.shared.db

/-- **No schedule ever carries a negative cap or floor.** -/
theorem capsValid_of_reachable (h : (economicsSystem P Pid).Reachable CappedStart c) :
    AllCapsValid c.shared.db := by
  refine (PartySystem.ReachableBy.rec_inv (I := fun c ↦ AllCapsValid c.shared.db ∧
    ∀ p, CapsParsed (c.locals p)) (fun c hstart ↦ ⟨hstart.2, fun p ↦ ?_⟩) ?_ h).1
  · obtain ⟨call, hcall⟩ := hstart.1.locals p
    rw [hcall]
    trivial
  · rintro c p e c' - ⟨hcaps, hparsed⟩ hfire -
    have hstep := PartySystem.step_of_fire hfire
    refine ⟨allCapsValid_of_step hstep (hparsed p) hcaps, fun q ↦ ?_⟩
    by_cases hqp : q = p
    · subst hqp
      exact capsParsed_of_step hstep
    · rw [PartySystem.locals_of_fire hfire hqp]
      exact hparsed q

/-- **What a listing discloses.** Whoever may list the schedules of a deal room is answered with every
schedule of the room, its components, and how its cap and floor stand against the net amounts of its
accrued revenue events. -/
theorem listSchedules_of_reachable (h : (economicsSystem P Pid).Reachable CappedStart c) {actor : Actor}
    {dealRoomId : Uuid} {dealRoom : DealRoom} (hroom : loadDealRoom c.shared.db dealRoomId = .ok dealRoom)
    (hallowed : (can actor .scheduleList
      { type := .commissionSchedule, ownerOrgId := some dealRoom.merchantOrgId }).allowed = true) :
    ∃ details, listSchedules c.shared.db actor dealRoomId = .ok details ∧
      (details.map (·.schedule)).Perm
        (c.shared.db.commissionSchedules.filter (·.dealRoomId = dealRoomId)) ∧
      ∀ detail ∈ details,
        detail.components =
          CommissionComponentRepository.listBySchedule c.shared.db detail.schedule.id ∧
        Discloses detail.schedule (distributedMinor c.shared.db detail.schedule.id)
          detail.capFloorStatus := by
  have hreach : EconomicsReachable P c := h.mono_start fun _ hstart ↦ hstart.1
  have hc := (outline_of_reachable hreach).1
  have hbooks := (booked_of_reachable hreach).rows
  have hcaps := capsValid_of_reachable h
  have hperm : (CommissionScheduleRepository.listByDealRoom c.shared.db dealRoomId).Perm
      (c.shared.db.commissionSchedules.filter (·.dealRoomId = dealRoomId)) :=
    List.perm_insertionSort _ _
  have hdetail := fun schedule
      (hmem : schedule ∈ CommissionScheduleRepository.listByDealRoom c.shared.db dealRoomId) ↦
    exists_toScheduleDetail hc hbooks (hcaps schedule (List.mem_filter.1 (hperm.mem_iff.1 hmem)).1)
  obtain ⟨details, hdetails⟩ := Except.exists_mapM_eq_ok fun schedule hmem ↦ by
    obtain ⟨detail, hok, -⟩ := hdetail schedule hmem
    exact ⟨detail, hok⟩
  have hmade := Except.mapM_eq_ok.1 hdetails
  refine ⟨details, ?_, ?_, fun detail hmem ↦ ?_⟩
  · have hguard : requireAllowed (can actor .scheduleList
        { type := .commissionSchedule, ownerOrgId := some dealRoom.merchantOrgId }) = .ok () := by
      rw [requireAllowed, hallowed]
      rfl
    exact Except.bind_eq_ok'.2 ⟨dealRoom, hroom, Except.bind_eq_ok'.2 ⟨_, hguard, hdetails⟩⟩
  · have hschedules : details.map (·.schedule) =
        CommissionScheduleRepository.listByDealRoom c.shared.db dealRoomId := by
      have hmap := hmade.map_eq (f := fun schedule ↦ schedule) (g := fun detail ↦ detail.schedule)
        fun _ _ hok ↦ (schedule_of_toScheduleDetail hok).symm
      rw [← hmap, List.map_id']
    rw [hschedules]
    exact hperm
  · obtain ⟨schedule, hlisted, hok⟩ := hmade.exists_left hmem
    obtain ⟨detail', hok', hcomponents, hdiscloses⟩ := hdetail schedule hlisted
    obtain rfl := Except.ok.inj (hok.symm.trans hok')
    rw [schedule_of_toScheduleDetail hok]
    exact ⟨hcomponents, hdiscloses⟩

end Runs

/-! ### A cap of 80 -/

namespace Sample

def cappedSchedule : CommissionSchedule := { schedule with capMinor := some 80 }

def cappedStart : EconomicsConfig ℕ :=
  ⟨⟨{ db with commissionSchedules := [cappedSchedule] }, .free⟩, fun _ ↦ .start recordEvent⟩

theorem cappedStart_start : CappedStart cappedStart where
  left :=
    { db := { initialDb with
        schedules_nodup := by decide
        component_schedule := by decide
        event_schedule := by decide }
      locks := rfl
      locals := fun _ ↦ ⟨recordEvent, rfl⟩ }
  right s hs := by
    obtain rfl : s = cappedSchedule := List.mem_singleton.1 hs
    exact ⟨fun n hn ↦ by rw [← Option.some.inj hn]; decide, fun n hn ↦ by cases hn⟩

/-- The sample event is accrued under a cap of 80. -/
theorem exists_capped : ∃ (c : EconomicsConfig ℕ) (dealRoom : DealRoom),
    (economicsSystem platform ℕ).Reachable CappedStart c ∧
      loadDealRoom c.shared.db dealRoomId = .ok dealRoom ∧ dealRoom.merchantOrgId = ownerOrgId ∧
      c.shared.db.commissionSchedules = [cappedSchedule] ∧
      distributedMinor c.shared.db scheduleId = 100 := by
  have hrun : ((economicsSystem platform ℕ).run cappedStart recordEventSteps).any (fun c ↦
      decide (loadDealRoom c.shared.db dealRoomId =
          .ok { id := dealRoomId, merchantOrgId := ownerOrgId, status := .live } ∧
        c.shared.db.commissionSchedules = [cappedSchedule] ∧
        distributedMinor c.shared.db scheduleId = 100)) = true := by
    decide +kernel
  obtain ⟨c, hrun, h⟩ := (Option.any_eq_true _ _).1 hrun
  obtain ⟨hroom, hschedules, htotal⟩ := of_decide_eq_true h
  exact ⟨c, _, PartySystem.Reachable.run (.start cappedStart_start) hrun, hroom, rfl, hschedules, htotal⟩

end Sample

/-- After an event of 100, a cap of 80 is listed as exceeded by 20. -/
theorem listSchedules_of_cap_80 : ∃ (c : EconomicsConfig ℕ) (details : List ScheduleDetail),
    listSchedules c.shared.db Sample.reader Sample.dealRoomId = .ok details ∧
      details.map (·.schedule) = [Sample.cappedSchedule] ∧
      ∀ detail ∈ details, ∃ status, detail.capFloorStatus = some status ∧
        status.withinCap = false ∧ status.capExceededByMinor = some 20 := by
  obtain ⟨c, dealRoom, hreach, hroom, howner, hschedules, htotal⟩ := Sample.exists_capped
  have hallowed : (can Sample.reader .scheduleList
      { type := .commissionSchedule, ownerOrgId := some dealRoom.merchantOrgId }).allowed = true := by
    rw [howner]
    decide
  obtain ⟨details, hlist, hperm, hdetails⟩ := listSchedules_of_reachable hreach hroom hallowed
  rw [hschedules] at hperm
  have hone : details.map (·.schedule) = [Sample.cappedSchedule] := List.perm_singleton.1 hperm
  refine ⟨c, details, hlist, hone, fun detail hmem ↦ ?_⟩
  obtain ⟨-, hdiscloses⟩ := hdetails detail hmem
  have hcapped : detail.schedule = Sample.cappedSchedule :=
    List.mem_singleton.1 (hone ▸ List.mem_map_of_mem hmem)
  rw [hcapped] at hdiscloses
  obtain ⟨status, hstatus⟩ : ∃ status, detail.capFloorStatus = some status :=
    Option.ne_none_iff_exists'.1 fun hnone ↦ by cases (hdiscloses.absent.1 hnone).1
  refine ⟨status, hstatus, ?_, (hdiscloses.exceeded status hstatus 20).2 ⟨80, rfl, ?_, ?_⟩⟩
  · refine Bool.eq_false_iff.2 fun hwithin ↦ ?_
    have hle := (hdiscloses.withinCap status hstatus).1 hwithin 80 rfl
    rw [show Sample.cappedSchedule.id = Sample.scheduleId from rfl, htotal] at hle
    omega
  all_goals
    rw [show Sample.cappedSchedule.id = Sample.scheduleId from rfl, htotal]
    decide

end TolPlatform
