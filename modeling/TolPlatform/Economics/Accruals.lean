import TolPlatform.Economics.Outline

/-!
# What a revenue event is accrued into

Two results about the rows of a revenue event.

* `accruedOnce_of_reachable`: however service calls and job deliveries interleave, an event has no
  accruals or exactly the accruals of one split.
* `recordRevenueEvent_splits_iff`: which schedule that split is of. An event of a basis that a
  schedule carries through a component's override is split over that schedule only if the schedule's
  *own* basis is the event's as well, because the schedule is looked up by its own basis.
-/

namespace TolPlatform

/-! ### Exactly once -/

section Once

variable {Pid : Type} [DecidableEq Pid] {P : Platform} {c : EconomicsConfig Pid}

/-- **Every event is accrued at most once, and then exactly**, under any interleaving of recordings,
job deliveries and redeliveries, crashes included. -/
theorem accruedOnce_of_reachable (h : EconomicsReachable P c) :
    ∀ event ∈ c.shared.db.revenueEvents, AccruedOnce c.shared.db event :=
  (outline_of_reachable h).1.accrued

end Once

namespace Sample

/-- Party 0 records an event, the others are deliveries of the job for the event that is there. -/
def jobCalls : ℕ → Call
  | 0 => recordEvent
  | _ => .economicsAccrual eventId

/-- Two deliveries of the job look for the event before either takes the lock; the event of 100 is
recorded in between. -/
def jobSteps : List (ℕ × Env) :=
  let first := draws ["3f0b7c1e-58f2-4d0e-9a64-1c2d5e7f9a20", "3f0b7c1e-58f2-4d0e-9a64-1c2d5e7f9a21"]
  let second := draws ["3f0b7c1e-58f2-4d0e-9a64-1c2d5e7f9a22", "3f0b7c1e-58f2-4d0e-9a64-1c2d5e7f9a23"]
  [(1, first), (2, second), (1, first)] ++ recordEventSteps ++
    [(1, first), (1, first), (2, second), (2, second)]

end Sample

/-- Both events end with one accrual, the second delivery having found the first one's. -/
theorem accruedOnce_of_two_deliveries : ∃ c : EconomicsConfig ℕ,
    c.shared.db.commissionAccruals.map (·.amountMinor) = [100, 90] ∧
      c.locals 2 = .finished (.ok (.job (some { status := .alreadyAccrued, entryCount := 1 }))) ∧
      ∀ event ∈ c.shared.db.revenueEvents, AccruedOnce c.shared.db event := by
  have hrun : ((economicsSystem Sample.platform ℕ).run (Sample.start Sample.jobCalls)
      Sample.jobSteps).any (fun c ↦ match c.locals 2 with
        | .finished (.ok (.job result)) =>
          decide (result = some { status := .alreadyAccrued, entryCount := 1 } ∧
            c.shared.db.commissionAccruals.map (·.amountMinor) = [100, 90])
        | _ => false) = true := by
    decide +kernel
  obtain ⟨c, hc, h⟩ := (Option.any_eq_true _ _).1 hrun
  split at h
  · next result hanswer =>
    obtain ⟨rfl, hamounts⟩ := of_decide_eq_true h
    exact ⟨c, hamounts, hanswer, accruedOnce_of_reachable (Sample.reachable_of_run hc)⟩
  · cases h

/-! ### Which schedule -/

/-- The components of a schedule whose effective basis — their own override, else the schedule's — is
the given one. -/
def effectiveComponents (db : Db) (schedule : CommissionSchedule) (basis : CommissionBasis) :
    List CommissionComponent :=
  (CommissionComponentRepository.listBySchedule db schedule.id).filter fun c ↦
    c.calculationBasis.getD schedule.basis = basis

/-- The event is about to be recorded against the schedule, with one accrual for each of its
components of the basis. -/
def BooksOver (db : Db) (schedule : CommissionSchedule) (basis : CommissionBasis) (l : Local) : Prop :=
  ∃ call dealRoom plan, l = .revenuePlanned call dealRoom plan ∧ plan.schedule = schedule ∧
    ∀ {e db₁ event rows db₂},
      commitRevenueEvent e call dealRoom plan db₁ = .ok ((event, rows), db₂) →
        event.scheduleId = schedule.id ∧
          (rows.map (·.componentId)).Perm ((effectiveComponents db schedule basis).map (·.id))

/-- Of the deal room's active schedules, newest first, the first one whose own basis is the given
one. -/
def FirstOfOwnBasis (db : Db) (dealRoomId : Uuid) (basis : CommissionBasis)
    (schedule : CommissionSchedule) : Prop :=
  schedule.basis = basis ∧ ∃ newer older,
    CommissionScheduleRepository.listActiveByDealRoom db dealRoomId = newer ++ schedule :: older ∧
      ∀ s ∈ newer, s.basis ≠ basis

theorem chooseSchedule_iff_firstOfOwnBasis {db : Db} {dealRoomId : Uuid} {basis : CommissionBasis}
    {schedule : CommissionSchedule} : chooseSchedule db dealRoomId basis = .ok schedule ↔
      FirstOfOwnBasis db dealRoomId basis schedule := by
  rw [chooseSchedule_eq_ok_iff, List.find?_eq_some_iff_append, FirstOfOwnBasis]
  simp

/-- The override of a component is found under its id. -/
theorem basisOverrideMap_of_mem {components : List CommissionComponent}
    (h : (components.map (·.id)).Nodup) {c : CommissionComponent} (hc : c ∈ components) :
    basisOverrideMap components c.id = c.calculationBasis := by
  have hfind : components.find? (·.id = c.id) = some c :=
    (List.find?_eq_some_iff_of_nodup h).2 ⟨hc, rfl⟩
  rw [basisOverrideMap, hfind]
  rfl

/-- **The targets of a split are the components of the effective basis.** -/
theorem Consistent.targetedComponents_eq {db : Db} (h : Consistent db)
    (schedule : CommissionSchedule) (basis : CommissionBasis) :
    targetedComponents db schedule basis =
      (effectiveComponents db schedule basis).map CommissionComponent.toEngineInput := by
  have hperm : (CommissionComponentRepository.listBySchedule db schedule.id).Perm
      (db.commissionComponents.filter (·.scheduleId = schedule.id)) := List.perm_insertionSort _ _
  have hnodup : ((CommissionComponentRepository.listBySchedule db schedule.id).map (·.id)).Nodup :=
    (hperm.map _).nodup_iff.2 (h.components_nodup.sublist (List.filter_sublist.map _))
  show selectComponentsForBasis _ _ _ _ = _
  rw [selectComponentsForBasis, List.filter_map, effectiveComponents]
  refine congrArg (List.map _) (List.filter_congr fun c hc ↦ ?_)
  show decide ((basisOverrideMap _ c.id).getD _ = _) = _
  rw [basisOverrideMap_of_mem hnodup hc]

section Which

variable {Pid : Type} [DecidableEq Pid] {P : Platform} {c c' : EconomicsConfig Pid} {p : Pid} {e : Env}

/-- What a plan is booked over. -/
theorem booksOver_of_planned {db : Db} (hc : Consistent db)
    {call : ServiceCall RecordRevenueEventRequest} {dealRoom : DealRoom} {plan : RevenuePlan}
    {now : Instant} (hplan : planRevenueEvent db call now = .ok plan) :
    BooksOver db plan.schedule call.input.basis (.revenuePlanned call dealRoom plan) := by
  refine ⟨call, dealRoom, plan, rfl, rfl, fun hcommit ↦ ?_⟩
  have hwritten := commitRevenueEvent_eq_ok hcommit
  obtain ⟨-, hsplit⟩ := planRevenueEvent_eq_ok hplan
  have hrows := (hwritten.rows.splitInto hsplit).one_each
  rw [hc.targetedComponents_eq, List.map_map] at hrows
  exact ⟨hwritten.schedule, hrows⟩

/-- **Which events a schedule is split for.** Let an admitted event be one that a schedule could be
split for: its amounts are valid, and the schedule's components of the event's basis make a split.
The event is booked over those components exactly when the schedule is the first active one whose own
basis is the event's. -/
theorem recordRevenueEvent_splits_iff {call : ServiceCall RecordRevenueEventRequest}
    {dealRoom : DealRoom} {schedule : CommissionSchedule} {plan : RevenuePlan}
    (h : EconomicsReachable P c) (hp : c.locals p = .revenueAdmitted call dealRoom)
    (hplan : planAgainst c.shared.db call e.now schedule = .ok plan)
    (hfire : (economicsSystem P Pid).fire c p e = some c') (hlive : c'.locals p ≠ .crashed) :
    BooksOver c.shared.db schedule call.input.basis (c'.locals p) ↔
      FirstOfOwnBasis c.shared.db call.dealRoomId call.input.basis schedule := by
  have hc := (outline_of_reachable h).1
  have hadvance := advance_of_fire hfire hlive
  rw [hp] at hadvance
  have hproceed := Option.some.inj hadvance
  rw [← chooseSchedule_iff_firstOfOwnBasis]
  constructor
  · rintro ⟨call', dealRoom', planned, hlocal, rfl, -⟩
    rcases hread : planRevenueEvent c.shared.db call e.now with thrown | read
    · -- a rejected event is not booked over anything
      rw [hread] at hproceed
      have hfinished := (Prod.mk.inj hproceed).2
      rw [hlocal] at hfinished
      cases hfinished
    · rw [hread] at hproceed
      have hnext := (Prod.mk.inj hproceed).2
      rw [hlocal] at hnext
      cases hnext
      exact (planRevenueEvent_eq_ok hread).1
  · intro hchoose
    have hread : planRevenueEvent c.shared.db call e.now = .ok plan :=
      Except.bind_eq_ok'.2 ⟨schedule, hchoose, hplan⟩
    rw [hread] at hproceed
    rw [← (Prod.mk.inj hproceed).2, ← (planAgainst_eq_ok hplan).1]
    exact booksOver_of_planned hc hread

end Which

namespace Sample

/-- The components of a schedule of two bases: its own, and a one-time component at `SETUP_FEE`. -/
def mixedComponents : List CommissionComponentInput :=
  [{ recipientType := .contributor, recipientOrgId, componentType := .percentageBps,
     bps := some 10000, priority := 0 },
   { recipientType := .contributor, recipientOrgId, componentType := .percentageBps,
     bps := some 10000, calculationBasis := some .setupFee, priority := 1 }]

/-- Party 0 creates that schedule, the others record an event of the given basis. -/
def mixedCalls (basis : CommissionBasis) : ℕ → Call
  | 0 => .createSchedule (call { basis := .receivedCommission, components := mixedComponents })
  | _ => .recordRevenueEvent (call
      { basis, period := "2026-01", source := "acquirer", grossAmountMinor := "100",
        currency := "EUR" })

def mixedDraws : Env :=
  draws ["3f0b7c1e-58f2-4d0e-9a64-1c2d5e7f9a30", "3f0b7c1e-58f2-4d0e-9a64-1c2d5e7f9a31",
    "3f0b7c1e-58f2-4d0e-9a64-1c2d5e7f9a32"]

/-- An admitted event of the basis that the active mixed schedule could be split for, and what the
next step of its recording makes of it. -/
structure AtMixed (basis : CommissionBasis) (c c' : EconomicsConfig ℕ)
    (call : ServiceCall RecordRevenueEventRequest) (schedule : CommissionSchedule) : Prop where
  reachable : EconomicsReachable platform c
  admitted : ∃ dealRoom, c.locals 1 = .revenueAdmitted call dealRoom
  basis : call.input.basis = basis
  active : schedule ∈ CommissionScheduleRepository.listActiveByDealRoom c.shared.db call.dealRoomId
  planned : ∃ plan, planAgainst c.shared.db call mixedDraws.now schedule = .ok plan
  fired : (economicsSystem platform ℕ).fire c 1 mixedDraws = some c'

/-- Runs into that state, and tells `f` about it. -/
def runMixed (basis : CommissionBasis)
    (f : Db → ServiceCall RecordRevenueEventRequest → CommissionSchedule → Local → Bool) : Bool :=
  ((economicsSystem platform ℕ).run (start (mixedCalls basis))
    [(0, mixedDraws), (0, mixedDraws), (1, mixedDraws)]).any fun c ↦
      ((economicsSystem platform ℕ).fire c 1 mixedDraws).any fun c' ↦
        match c.locals 1, c.shared.db.commissionSchedules[1]? with
        | .revenueAdmitted call _, some schedule =>
          match planAgainst c.shared.db call mixedDraws.now schedule with
          | .ok _ => decide (call.input.basis = basis ∧ schedule ∈
              CommissionScheduleRepository.listActiveByDealRoom c.shared.db call.dealRoomId) &&
                f c.shared.db call schedule (c'.locals 1)
          | .error _ => false
        | _, _ => false

theorem exists_of_runMixed {basis : CommissionBasis}
    {f : Db → ServiceCall RecordRevenueEventRequest → CommissionSchedule → Local → Bool}
    (h : runMixed basis f = true) : ∃ c c' call schedule,
      AtMixed basis c c' call schedule ∧ f c.shared.db call schedule (c'.locals 1) = true := by
  obtain ⟨c, hrun, h⟩ := (Option.any_eq_true _ _).1 h
  obtain ⟨c', hfire, h⟩ := (Option.any_eq_true _ _).1 h
  split at h
  · next call dealRoom schedule hlocal hschedule =>
    split at h
    · next plan hplan =>
      rw [Bool.and_eq_true, decide_eq_true_eq] at h
      obtain ⟨⟨hbasis, hactive⟩, hf⟩ := h
      exact ⟨c, c', call, schedule, ⟨reachable_of_run hrun, ⟨dealRoom, hlocal⟩, hbasis, hactive,
        ⟨plan, hplan⟩, hfire⟩, hf⟩
    · cases h
  · cases h

end Sample

/-- An event of the mixed schedule's own basis is booked over it. -/
theorem recordRevenueEvent_splits_own_basis : ∃ c c' call schedule,
    Sample.AtMixed .receivedCommission c c' call schedule ∧
      BooksOver c.shared.db schedule call.input.basis (c'.locals 1) := by
  have hrun : Sample.runMixed .receivedCommission (fun db call schedule l ↦
      decide (chooseSchedule db call.dealRoomId call.input.basis = .ok schedule) &&
        match l with | .crashed => false | _ => true) = true := by
    decide +kernel
  obtain ⟨c, c', call, schedule, hat, h⟩ := Sample.exists_of_runMixed hrun
  obtain ⟨dealRoom, hp⟩ := hat.admitted
  obtain ⟨plan, hplan⟩ := hat.planned
  obtain ⟨hchoose, hlive⟩ := Bool.and_eq_true_iff.1 h
  have hlive : c'.locals 1 ≠ .crashed := fun hcrashed ↦ by simp [hcrashed] at hlive
  refine ⟨c, c', call, schedule, hat, ?_⟩
  refine (recordRevenueEvent_splits_iff hat.reachable hp hplan hat.fired hlive).2 ?_
  exact chooseSchedule_iff_firstOfOwnBasis.1 (of_decide_eq_true hchoose)

/-- The request is refused although the schedule has its one component for the basis. -/
def Sample.refused (db : Db) (schedule : CommissionSchedule) : Local → Bool
  | .finished (.error thrown) =>
    decide ((effectiveComponents db schedule .setupFee).length = 1 ∧
      thrown = badRequest "No ACTIVE CommissionSchedule covers basis \"SETUP_FEE\" for this deal room. Create one first (schedule.manage).")
  | _ => false

/-- An event of the overriding component's basis is rejected for lack of a schedule. -/
theorem recordRevenueEvent_rejects_override : ∃ c c' call schedule,
    Sample.AtMixed .setupFee c c' call schedule ∧
      (effectiveComponents c.shared.db schedule .setupFee).length = 1 ∧
      c'.locals 1 = .finished (.error (badRequest "No ACTIVE CommissionSchedule covers basis \"SETUP_FEE\" for this deal room. Create one first (schedule.manage).")) ∧
      ¬ BooksOver c.shared.db schedule .setupFee (c'.locals 1) := by
  have hrun : Sample.runMixed .setupFee (fun db _ schedule l ↦ Sample.refused db schedule l) =
      true := by
    decide +kernel
  obtain ⟨c, c', call, schedule, hat, h⟩ := Sample.exists_of_runMixed hrun
  unfold Sample.refused at h
  split at h
  · next thrown hlocal =>
    obtain ⟨hone, rfl⟩ := of_decide_eq_true h
    refine ⟨c, c', call, schedule, hat, hone, hlocal, ?_⟩
    rintro ⟨call', dealRoom', plan, hplanned, -⟩
    rw [hlocal] at hplanned
    cases hplanned
  · cases h

end TolPlatform
