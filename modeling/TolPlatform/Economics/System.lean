import TolPlatform.Economics.Effects
import TolPlatform.Library.AdvisoryLock
import TolPlatform.Library.Interleaving

/-!
# The economics system

Any number of service calls and job deliveries on one database, interleaved at every point where the
code lets another transaction commit. Each party runs one call: `start` holds the call to make, the
states between say what the call has read so far, `finished` holds its outcome. A redelivered job or
a retried request is another party with the same call.

A transaction is one step, as `READ COMMITTED` shows other parties all of its writes or none — except
that a transaction which takes an advisory lock is three: it waits for the lock, reads under it, and
commits. Other parties' commits happen between those steps, so what the lock protects has to be
proved. Locks are taken on `hashtext` of an id, so two ids may share a lock.

A party may crash at any point: it never moves again, and the database drops its open transaction and
its locks.

`step_cases` says what a step can do to the database; everything about runs is derived from it.
-/

namespace TolPlatform

/-! ### Parties -/

/-- What a party has been asked to do. -/
inductive Call
  | createSchedule (call : ServiceCall CreateScheduleRequest)
  | recordRevenueEvent (call : ServiceCall RecordRevenueEventRequest)
  | recordPayment (call : ServiceCall RecordPaymentRequest)
  | adjustLedger (call : ServiceCall AdjustLedgerRequest)
  | economicsAccrual (revenueEventId : Uuid)
  deriving DecidableEq

/-- What a call returns. -/
inductive Response
  | schedule (detail : ScheduleDetail)
  | revenueEvent (recorded : RevenueEventRecorded)
  | payment (paid : CommissionPayment × List CommissionAccrual)
  | adjustment (adjusted : CommissionAccrual × AccrualBalance)
  | job (result : Option EconomicsAccrualJobResult)
  deriving DecidableEq

/-- Where a party stands. -/
inductive Local
  | start (call : Call)
  | schedulePrepared (call : ServiceCall CreateScheduleRequest) (plan : SchedulePlan)
  | revenueAdmitted (call : ServiceCall RecordRevenueEventRequest) (dealRoom : DealRoom)
  | revenuePlanned (call : ServiceCall RecordRevenueEventRequest) (dealRoom : DealRoom)
      (plan : RevenuePlan)
  | paymentChecked (call : ServiceCall RecordPaymentRequest) (plan : PaymentPlan)
  | paymentLocked (call : ServiceCall RecordPaymentRequest) (plan : PaymentPlan)
  | paymentValidated (call : ServiceCall RecordPaymentRequest) (plan : PaymentPlan)
      (valid : ValidatedPayment)
  | adjustmentChecked (call : ServiceCall AdjustLedgerRequest) (plan : AdjustmentPlan)
  | adjustmentLocked (call : ServiceCall AdjustLedgerRequest) (plan : AdjustmentPlan)
  | adjustmentValidated (call : ServiceCall AdjustLedgerRequest) (plan : AdjustmentPlan)
      (root : CommissionAccrual) (chain : List CommissionAccrual)
  | jobFound (revenueEventId : Uuid)
  | jobLocked (revenueEventId : Uuid)
  | jobCleared (plan : JobPlan)
  | finished (outcome : Except Thrown Response)
  | crashed

/-- What a step draws from outside: ids, the clock, and whether the party crashes. -/
structure Env extends Draws where
  crash : Bool := false

/-- The database and its advisory locks. -/
structure Shared (Pid : Type) where
  db : Db
  locks : LockTable Int Pid

variable {Pid : Type} [DecidableEq Pid]

namespace Shared

/-- The party's transaction ends without a write. -/
def rollback (s : Shared Pid) (p : Pid) : Shared Pid := { s with locks := s.locks.release p }

/-- Go on with what was read, or end the call with what was thrown. -/
def proceed {α : Type} (s : Shared Pid) (p : Pid) (r : Except Thrown α) (next : α → Local) :
    Shared Pid × Local :=
  match r with
  | .ok a => (s, next a)
  | .error thrown => (s.rollback p, .finished (.error thrown))

/-- Wait for a lock. -/
def lock (s : Shared Pid) (p : Pid) (key : Int) (next : Local) : Option (Shared Pid × Local) :=
  (s.locks.acquire key p).map fun locks ↦ ({ s with locks }, next)

/-- Run a transaction body to its end and answer. -/
def close {α : Type} (s : Shared Pid) (p : Pid) (body : Tx Db Thrown α)
    (respond : Except Thrown α → Except Thrown Response) : Shared Pid × Local :=
  let r := body.commit s.db
  (⟨r.2, s.locks.release p⟩, .finished (respond r.1))

/-- The end of the job's transaction: an aborted one is rolled back, and still answers. -/
def closeJob (s : Shared Pid) (p : Pid) (body : Tx Db Thrown JobOutcome) : Shared Pid × Local :=
  match body s.db with
  | .ok (outcome, db) =>
    (⟨if outcome.aborted then s.db else db, s.locks.release p⟩,
      .finished (.ok (.job outcome.result)))
  | .error thrown => (s.rollback p, .finished (.error thrown))

end Shared

/-! ### Steps -/

variable (P : Platform)

/-- What a party does next. -/
def advance (p : Pid) (e : Env) (s : Shared Pid) : Local → Option (Shared Pid × Local)
  | .start (.createSchedule call) =>
    some (s.proceed p (prepareSchedule s.db call) (.schedulePrepared call))
  | .schedulePrepared call plan =>
    some (s.close p (commitSchedule e.toDraws call plan) (·.map .schedule))
  | .start (.recordRevenueEvent call) =>
    some (s.proceed p (admitRevenueEvent s.db call) (.revenueAdmitted call))
  | .revenueAdmitted call dealRoom =>
    some (s.proceed p (planRevenueEvent s.db call e.now) (.revenuePlanned call dealRoom))
  | .revenuePlanned call dealRoom plan =>
    some (s.close p (commitRevenueEvent e.toDraws call dealRoom plan)
      (·.map fun result ↦ .revenueEvent (toRevenueEventRecorded result)))
  | .start (.recordPayment call) =>
    some (s.proceed p (precheckPayment s.db call e.now) (.paymentChecked call))
  | .paymentChecked call plan => s.lock p (P.hashtext call.dealRoomId) (.paymentLocked call plan)
  | .paymentLocked call plan =>
    some (s.proceed p (runUniqueConstraintSafe (revalidatePayment s.db call)
      s!"A payment with reference \"{call.input.reference}\" already exists.")
      (.paymentValidated call plan))
  | .paymentValidated call plan valid =>
    some (s.close p (commitPayment e.toDraws call plan valid) fun r ↦
      (runUniqueConstraintSafe r
        s!"A payment with reference \"{call.input.reference}\" already exists.").map .payment)
  | .start (.adjustLedger call) =>
    some (s.proceed p (precheckAdjustment s.db call) (.adjustmentChecked call))
  | .adjustmentChecked call plan =>
    s.lock p (P.hashtext call.dealRoomId) (.adjustmentLocked call plan)
  | .adjustmentLocked call plan =>
    some (s.proceed p (loadAdjustableChain s.db call) fun rc ↦
      .adjustmentValidated call plan rc.1 rc.2)
  | .adjustmentValidated call plan root chain =>
    some (s.close p (commitAdjustment P e.toDraws call plan root)
      (·.bind fun ledgerEntry ↦ (toLedgerAdjusted chain ledgerEntry).map .adjustment))
  | .start (.economicsAccrual revenueEventId) =>
    some (s, if jobEventExists s.db revenueEventId then .jobFound revenueEventId
      else .finished (.ok (.job (some skippedNoActiveSchedule))))
  | .jobFound revenueEventId => s.lock p (P.hashtext revenueEventId) (.jobLocked revenueEventId)
  | .jobLocked revenueEventId =>
    match clearJob s.db revenueEventId with
    | .ok (.inr plan) => some (s, .jobCleared plan)
    | .ok (.inl result) => some (s.rollback p, .finished (.ok (.job (some result))))
    | .error thrown => some (s.rollback p, .finished (.error thrown))
  | .jobCleared plan => some (s.closeJob p (commitJob P e.toDraws plan))
  | .finished _ => none
  | .crashed => none

/-- A party that is still running moves on or crashes. -/
def step (p : Pid) (e : Env) (s : Shared Pid) (l : Local) : Option (Shared Pid × Local) :=
  (advance P p e s l).map fun r ↦ if e.crash then (s.rollback p, .crashed) else r

/-- All parties together. -/
def economicsSystem (Pid : Type) [DecidableEq Pid] : PartySystem Pid Env (Shared Pid) Local where
  step := step P

/-! ### What a step can do -/

/-- A transaction that commits a write, by the state its party is in. -/
inductive Wrote (e : Draws) : Local → Db → Db → Prop
  | schedule {call plan db db' new components} :
    ScheduleWritten call plan db db' new components → Wrote e (.schedulePrepared call plan) db db'
  | event {call dealRoom plan db db' event rows} :
    EventWritten e call plan db db' event rows → Wrote e (.revenuePlanned call dealRoom plan) db db'
  | payment {call plan valid db db' rows} :
    PaymentWritten e call plan valid db db' rows → Wrote e (.paymentValidated call plan valid) db db'
  | adjustment {call plan root chain db db' row} :
    AdjustmentWritten P e call plan root db db' row →
      Wrote e (.adjustmentValidated call plan root chain) db db'
  | job {plan db db' split rows} :
    JobWritten e plan db db' split rows → Wrote e (.jobCleared plan) db db'

/-- Every step: a read that carries the call on, a lock taken, a call that ends without a write, or a
committed write. -/
inductive Transition (p : Pid) (e : Env) (s : Shared Pid) : Local → Shared Pid → Local → Prop
  | prepared {call plan} : prepareSchedule s.db call = .ok plan →
    Transition p e s (.start (.createSchedule call)) s (.schedulePrepared call plan)
  | admitted {call dealRoom} : admitRevenueEvent s.db call = .ok dealRoom →
    Transition p e s (.start (.recordRevenueEvent call)) s (.revenueAdmitted call dealRoom)
  | planned {call dealRoom plan} : planRevenueEvent s.db call e.now = .ok plan →
    Transition p e s (.revenueAdmitted call dealRoom) s (.revenuePlanned call dealRoom plan)
  | paymentChecked {call plan} : precheckPayment s.db call e.now = .ok plan →
    Transition p e s (.start (.recordPayment call)) s (.paymentChecked call plan)
  | paymentLocked {call plan locks} : s.locks.acquire (P.hashtext call.dealRoomId) p = some locks →
    Transition p e s (.paymentChecked call plan) { s with locks } (.paymentLocked call plan)
  | paymentValidated {call plan valid} : revalidatePayment s.db call = .ok valid →
    Transition p e s (.paymentLocked call plan) s (.paymentValidated call plan valid)
  | adjustmentChecked {call plan} : precheckAdjustment s.db call = .ok plan →
    Transition p e s (.start (.adjustLedger call)) s (.adjustmentChecked call plan)
  | adjustmentLocked {call plan locks} :
    s.locks.acquire (P.hashtext call.dealRoomId) p = some locks →
      Transition p e s (.adjustmentChecked call plan) { s with locks } (.adjustmentLocked call plan)
  | adjustmentValidated {call plan root chain} : loadAdjustableChain s.db call = .ok (root, chain) →
    Transition p e s (.adjustmentLocked call plan) s (.adjustmentValidated call plan root chain)
  | jobFound {id} : jobEventExists s.db id = true →
    Transition p e s (.start (.economicsAccrual id)) s (.jobFound id)
  | jobLocked {id locks} : s.locks.acquire (P.hashtext id) p = some locks →
    Transition p e s (.jobFound id) { s with locks } (.jobLocked id)
  | jobCleared {id plan} : clearJob s.db id = .ok (.inr plan) →
    Transition p e s (.jobLocked id) s (.jobCleared plan)
  | skipped {id} : Transition p e s (.start (.economicsAccrual id)) s
      (.finished (.ok (.job (some skippedNoActiveSchedule))))
  | ended {l outcome} : Transition p e s l (s.rollback p) (.finished outcome)
  | crashed {l} : Transition p e s l (s.rollback p) .crashed
  | wrote {l db outcome} : Wrote P e.toDraws l s.db db →
    Transition p e s l ⟨db, s.locks.release p⟩ (.finished outcome)

variable {P} {p : Pid} {e : Env} {s s' : Shared Pid} {l l' : Local}

theorem transition_of_proceed {α : Type} {r : Except Thrown α} {next : α → Local}
    (h : s.proceed p r next = (s', l'))
    (hnext : ∀ a, r = .ok a → Transition P p e s l s (next a)) : Transition P p e s l s' l' := by
  rcases r with thrown | a
  · obtain ⟨rfl, rfl⟩ := Prod.mk.inj h
    exact .ended
  · obtain ⟨rfl, rfl⟩ := Prod.mk.inj h
    exact hnext a rfl

theorem transition_of_lock {key : Int} {next : Local} (h : s.lock p key next = some (s', l'))
    (hnext : ∀ locks, s.locks.acquire key p = some locks →
      Transition P p e s l { s with locks } next) : Transition P p e s l s' l' := by
  obtain ⟨locks, hlocks, hret⟩ := Option.map_eq_some_iff.1 h
  obtain ⟨rfl, rfl⟩ := Prod.mk.inj hret
  exact hnext locks hlocks

theorem transition_of_close {α : Type} {body : Tx Db Thrown α}
    {respond : Except Thrown α → Except Thrown Response} (h : s.close p body respond = (s', l'))
    (hwrote : ∀ a db, body s.db = .ok (a, db) → Wrote P e.toDraws l s.db db) :
    Transition P p e s l s' l' := by
  obtain ⟨rfl, rfl⟩ := Prod.mk.inj h
  rcases hbody : body s.db with thrown | ⟨a, db⟩
  · have hcommit : body.commit s.db = (.error thrown, s.db) := by rw [Tx.commit, hbody]
    rw [hcommit]
    exact .ended
  · rw [Tx.commit_eq_ok.2 hbody]
    exact .wrote (hwrote a db hbody)

theorem transition_of_closeJob {plan : JobPlan}
    (h : s.closeJob p (commitJob P e.toDraws plan) = (s', l')) :
    Transition P p e s (.jobCleared plan) s' l' := by
  rcases hbody : commitJob P e.toDraws plan s.db with thrown | ⟨outcome, db⟩
  · simp only [Shared.closeJob, hbody] at h
    obtain ⟨rfl, rfl⟩ := Prod.mk.inj h
    exact .ended
  · simp only [Shared.closeJob, hbody] at h
    obtain ⟨rfl, rfl⟩ := Prod.mk.inj h
    rcases habort : outcome.aborted with - | -
    · rcases commitJob_eq_ok hbody with rfl | ⟨split, rows, hwritten⟩
      · exact .ended
      · exact .wrote (.job hwritten)
    · exact .ended

theorem transition_of_advance (h : advance P p e s l = some (s', l')) :
    Transition P p e s l s' l' := by
  cases l with
  | start call =>
    cases call with
    | createSchedule call => exact transition_of_proceed (Option.some.inj h) fun _ ↦ .prepared
    | recordRevenueEvent call => exact transition_of_proceed (Option.some.inj h) fun _ ↦ .admitted
    | recordPayment call => exact transition_of_proceed (Option.some.inj h) fun _ ↦ .paymentChecked
    | adjustLedger call => exact transition_of_proceed (Option.some.inj h) fun _ ↦ .adjustmentChecked
    | economicsAccrual id =>
      obtain ⟨rfl, rfl⟩ := Prod.mk.inj (Option.some.inj h)
      split_ifs with hexists
      · exact .jobFound hexists
      · exact .skipped
  | schedulePrepared call plan =>
    refine transition_of_close (Option.some.inj h) fun detail db hbody ↦ ?_
    obtain ⟨new, components, hwritten⟩ := commitSchedule_eq_ok hbody
    exact .schedule hwritten
  | revenueAdmitted call dealRoom =>
    exact transition_of_proceed (Option.some.inj h) fun _ ↦ .planned
  | revenuePlanned call dealRoom plan =>
    exact transition_of_close (Option.some.inj h) fun result db hbody ↦
      .event (commitRevenueEvent_eq_ok hbody)
  | paymentChecked call plan => exact transition_of_lock h fun _ ↦ .paymentLocked
  | paymentLocked call plan =>
    exact transition_of_proceed (Option.some.inj h) fun _ hvalid ↦
      .paymentValidated (runUniqueConstraintSafe_eq_ok_iff.1 hvalid)
  | paymentValidated call plan valid =>
    exact transition_of_close (Option.some.inj h) fun result db hbody ↦
      .payment (commitPayment_eq_ok hbody)
  | adjustmentChecked call plan => exact transition_of_lock h fun _ ↦ .adjustmentLocked
  | adjustmentLocked call plan =>
    exact transition_of_proceed (Option.some.inj h) fun _ ↦ .adjustmentValidated
  | adjustmentValidated call plan root chain =>
    exact transition_of_close (Option.some.inj h) fun row db hbody ↦
      .adjustment (commitAdjustment_eq_ok hbody)
  | jobFound id => exact transition_of_lock h fun _ ↦ .jobLocked
  | jobLocked id =>
    rcases hclear : clearJob s.db id with thrown | result | plan
    · simp only [advance, hclear, Option.some.injEq, Prod.mk.injEq] at h
      obtain ⟨rfl, rfl⟩ := h
      exact .ended
    · simp only [advance, hclear, Option.some.injEq, Prod.mk.injEq] at h
      obtain ⟨rfl, rfl⟩ := h
      exact .ended
    · simp only [advance, hclear, Option.some.injEq, Prod.mk.injEq] at h
      obtain ⟨rfl, rfl⟩ := h
      exact .jobCleared hclear
  | jobCleared plan => exact transition_of_closeJob (Option.some.inj h)
  | finished outcome => cases h
  | crashed => cases h

/-- **Every step is a transition.** -/
theorem step_cases (h : step P p e s l = some (s', l')) : Transition P p e s l s' l' := by
  obtain ⟨⟨s₁, l₁⟩, hadvance, hret⟩ := Option.map_eq_some_iff.1 h
  rcases hcrash : e.crash with - | -
  · rw [hcrash] at hret
    obtain ⟨rfl, rfl⟩ := Prod.mk.inj hret
    exact transition_of_advance hadvance
  · rw [hcrash] at hret
    obtain ⟨rfl, rfl⟩ := Prod.mk.inj hret
    exact .crashed

/-- A party that has not crashed has done what the code does next. -/
theorem advance_of_step (h : step P p e s l = some (s', l')) (hl : l' ≠ .crashed) :
    advance P p e s l = some (s', l') := by
  obtain ⟨r, hadvance, hret⟩ := Option.map_eq_some_iff.1 h
  rcases hcrash : e.crash with - | -
  · rw [hcrash] at hret
    rw [hadvance, ← hret]
    rfl
  · rw [hcrash] at hret
    exact absurd (Prod.mk.inj hret).2.symm hl

/-- The same of a step of the whole system. -/
theorem advance_of_fire {c c' : PartySystem.Config Pid (Shared Pid) Local}
    (hfire : (economicsSystem P Pid).fire c p e = some c') (hl : c'.locals p ≠ .crashed) :
    advance P p e c.shared (c.locals p) = some (c'.shared, c'.locals p) :=
  advance_of_step (PartySystem.step_of_fire hfire) hl

/-- A transaction that answers with a result has committed. -/
theorem close_eq_ok {α : Type} {body : Tx Db Thrown α}
    {respond : Except Thrown α → Except Thrown Response} {response : Response}
    (hrespond : ∀ {thrown r}, respond (.error thrown) ≠ .ok r)
    (h : s.close p body respond = (s', .finished (.ok response))) :
    ∃ a, body s.db = .ok (a, s'.db) ∧ respond (.ok a) = .ok response := by
  obtain ⟨rfl, hret⟩ := Prod.mk.inj h
  rcases hbody : body s.db with thrown | ⟨a, db⟩
  · simp only [Tx.commit, hbody, Local.finished.injEq] at hret
    exact absurd hret hrespond
  · simp only [Tx.commit, hbody, Local.finished.injEq] at hret ⊢
    exact ⟨a, rfl, hret⟩

/-- What a step does to the database and to the locks. -/
theorem db_of_step (h : step P p e s l = some (s', l')) :
    (s'.db = s.db ∨ Wrote P e.toDraws l s.db s'.db) ∧
      (s'.locks = s.locks ∨ s'.locks = s.locks.release p ∨
        ∃ key, s.locks.acquire key p = some s'.locks) := by
  cases step_cases h with
  | wrote hwrote => exact ⟨.inr hwrote, .inr (.inl rfl)⟩
  | ended | crashed => exact ⟨.inl rfl, .inr (.inl rfl)⟩
  | paymentLocked hacq | adjustmentLocked hacq | jobLocked hacq =>
    exact ⟨.inl rfl, .inr (.inr ⟨_, hacq⟩)⟩
  | _ => exact ⟨.inl rfl, .inl rfl⟩

/-- A lock outlives every step of another party. -/
theorem holds_of_step {q : Pid} {key : Int} (hq : q ≠ p) (hholds : s.locks.Holds q key)
    (h : step P p e s l = some (s', l')) : s'.locks.Holds q key := by
  rcases (db_of_step h).2 with hlocks | hlocks | ⟨k, hlocks⟩
  · rw [hlocks]
    exact hholds
  · rw [hlocks]
    exact hholds.release hq
  · exact hholds.acquire hlocks

end TolPlatform
