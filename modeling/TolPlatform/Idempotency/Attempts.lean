import TolPlatform.Idempotency.System

/-!
# One attempt per key

What holds of every interleaving of requests under one idempotency key.

* The handler is entered at most once, a request with another digest never gets a stored response,
  and from the moment a response is recorded every later request with its digest gets the recorded
  body with the status of its route (`atMostOnce_of_run`).
* The one attempt is also the last. A handler that throws leaves the reservation behind, nothing
  removes it or looks at `expiresAt`, so a retry is told for ever that the request is already being
  processed (`retry_never_enters`).
-/

namespace TolPlatform

section

variable {Pid World Env Local Body : Type} [DecidableEq Pid] {sha256 : String → String}
  {requests : Pid → IdempotencyRequestInfo} {handlers : Pid → Handler World Env Local Body}
  {c c' : PartySystem.Config Pid (ApiDb World Body) (RequestPc Local Body)} {p q : Pid}
  {e : RequestDraws Env}

/-! ### Entering the handler -/

/-- A request under the pair enters its handler. -/
def enters (requests : Pid → IdempotencyRequestInfo) (scope key : String)
    (c : PartySystem.Config Pid (ApiDb World Body) (RequestPc Local Body)) (p : Pid)
    (c' : PartySystem.Config Pid (ApiDb World Body) (RequestPc Local Body)) : Bool :=
  (requests p).scope == scope && (requests p).keyText == key && !(c.locals p).entered &&
    (c'.locals p).entered

omit [DecidableEq Pid] in
theorem enters_eq_true_iff {scope key : String} : enters requests scope key c p c' = true ↔
    (requests p).scope = scope ∧ (requests p).keyText = key ∧ (c.locals p).entered = false ∧
      (c'.locals p).entered = true := by
  simp [enters, and_assoc]

/-- Somebody has entered the handler under the pair. -/
def Spent (requests : Pid → IdempotencyRequestInfo) (scope key : String)
    (c : PartySystem.Config Pid (ApiDb World Body) (RequestPc Local Body)) : Prop :=
  ∃ p, (requests p).scope = scope ∧ (requests p).keyText = key ∧ (c.locals p).entered = true

/-- Once entered, always entered. -/
theorem entered_of_fire (hentered : (c.locals q).entered = true)
    (hfire : (requestSystem sha256 requests handlers).fire c p e = some c') :
    (c'.locals q).entered = true := by
  by_cases hmover : q = p
  · subst hmover
    exact (requestStep_of_fire hfire).entered hentered
  · rwa [PartySystem.locals_of_fire hfire hmover]

theorem Spent.fire {scope key : String} (h : Spent requests scope key c)
    (hfire : (requestSystem sha256 requests handlers).fire c p e = some c') :
    Spent requests scope key c' := by
  obtain ⟨r, hscope, hkeyText, hentered⟩ := h
  exact ⟨r, hscope, hkeyText, entered_of_fire hentered hfire⟩

/-- Under a key the handler is entered at most once in a run. -/
theorem count_enters_le_one {scope key : String} (hkey : key ≠ "")
    (h : (requestSystem sha256 requests handlers).Reachable RequestsStart c)
    (steps : List (Pid × RequestDraws Env)) :
    (requestSystem sha256 requests handlers).countAlong (enters requests scope key) c steps ≤ 1 := by
  refine (PartySystem.countAlong_le_one (Spent requests scope key) ?_ ?_ h steps).1
  · intro c p e c' _ hevent
    obtain ⟨hscope, hkeyText, -, hafter⟩ := enters_eq_true_iff.1 hevent
    exact ⟨p, hscope, hkeyText, hafter⟩
  · intro c p e c' hc hfire hspent
    refine ⟨hspent.fire hfire, ?_⟩
    rw [← Bool.not_eq_true, enters_eq_true_iff]
    rintro ⟨hscope, hkeyText, hbefore, hafter⟩
    obtain ⟨r, hscope', hkeyText', hentered⟩ := hspent
    have hsame : SameKey (requests p) (requests r) :=
      ⟨hkeyText ▸ hkey, hscope.trans hscope'.symm, hkeyText.trans hkeyText'.symm⟩
    rw [not_entered_of_enters hc hfire hbefore hafter hsame] at hentered
    cases hentered

/-! ### Requests that find a row -/

/-- A request's first step, when its pair is taken, is its last. -/
theorem fire_of_taken {existing : IdempotencyKey Body} (hcalled : c.locals q = .called)
    (hkey : (requests q).keyText ≠ "")
    (hfind : c.shared.find (requests q).scope (requests q).keyText = some existing) :
    (requestSystem sha256 requests handlers).fire c q e =
      some ⟨c.shared, Function.update c.locals q
        (.answered (answerExisting sha256 (requests q) existing))⟩ := by
  refine PartySystem.fire_eq_some_iff.2 ⟨_, _, ?_, rfl⟩
  show requestStep sha256 (requests q) (handlers q) e c.shared (c.locals q) = _
  rw [hcalled, requestStep, if_neg hkey, hfind]

/-- A complete row is never written again. -/
theorem find_of_complete (h : (requestSystem sha256 requests handlers).Reachable RequestsStart c)
    (hfire : (requestSystem sha256 requests handlers).fire c p e = some c') {scope key : String}
    {row : IdempotencyKey Body} (hfind : c.shared.find scope key = some row)
    (hstatus : row.responseStatus ≠ none) : c'.shared.find scope key = some row := by
  refine (requestStep_of_fire hfire).find_of_find hfind fun id result hp hid ↦ hstatus ?_
  have hfollows := followed h p
  rw [hp] at hfollows
  have hmem := (IdempotencyRepository.find_eq_some hfind).1
  exact (row_of_recording (takenOutline_holds h).1 hfollows hmem hid).2.2.2

/-- After a response is recorded, a later request with its digest gets the recorded body. -/
theorem called_or_replayed (h : (requestSystem sha256 requests handlers).Reachable RequestsStart c)
    (hkey : (requests q).keyText ≠ "") {row : IdempotencyKey Body}
    (hfind : c.shared.find (requests q).scope (requests q).keyText = some row)
    (hstatus : row.responseStatus ≠ none) (hhash : row.requestHash = (requests q).requestHash sha256)
    (hcalled : c.locals q = .called) {later : List (Pid × RequestDraws Env)}
    (hrun : (requestSystem sha256 requests handlers).run c later = some c') :
    c'.locals q = .called ∨ c'.locals q = .answered (.ok row.responseBody) := by
  have hanswer : answerExisting sha256 (requests q) row = .ok row.responseBody :=
    answerExisting_eq_ok_iff.2 ⟨hhash, hstatus, rfl⟩
  have hfrom : (requestSystem sha256 requests handlers).Reachable (· = c) c' :=
    PartySystem.Reachable.run (.start rfl) hrun
  refine (hfrom.rec_inv (I := fun c ↦
    (requestSystem sha256 requests handlers).Reachable RequestsStart c ∧
      c.shared.find (requests q).scope (requests q).keyText = some row ∧
      (c.locals q = .called ∨ c.locals q = .answered (.ok row.responseBody))) ?_ ?_).2.2
  · rintro c rfl
    exact ⟨h, hfind, .inl hcalled⟩
  · rintro c p e c' - ⟨hc, hrow, hq⟩ hfire -
    refine ⟨hc.fire hfire, find_of_complete hc hfire hrow hstatus, ?_⟩
    by_cases hmover : q = p
    · subst hmover
      rcases hq with hq | hq
      · rw [fire_of_taken hq hkey hrow, Option.some.injEq] at hfire
        rw [← hfire, hanswer]
        exact .inr (Function.update_self ..)
      · have hstep := PartySystem.step_of_fire hfire
        rw [hq] at hstep
        cases hstep
    · rwa [PartySystem.locals_of_fire hfire hmover]

/-! ### At most once -/

/-- **Requests under one key.** In every run: the handler is entered at most once; a request whose
digest differs from the row's is not given a stored response; and once a response is recorded, a
request with its digest that has not begun is answered by its next step, and what its route sends is
the recorded body with the route's own status. -/
theorem atMostOnce_of_run {c₀ : PartySystem.Config Pid (ApiDb World Body) (RequestPc Local Body)}
    {steps : List (Pid × RequestDraws Env)} (hstart : RequestsStart c₀)
    (hrun : (requestSystem sha256 requests handlers).run c₀ steps = some c) :
    (∀ scope key, key ≠ "" →
      (requestSystem sha256 requests handlers).countAlong (enters requests scope key) c₀ steps ≤ 1) ∧
    (∀ q row body, c.shared.find (requests q).scope (requests q).keyText = some row →
      row.requestHash ≠ (requests q).requestHash sha256 → c.locals q ≠ .answered (.ok body)) ∧
    (∀ q row route, (requests q).keyText ≠ "" → (requests q).scope = Route.scope route →
      c.shared.find (requests q).scope (requests q).keyText = some row →
      row.responseStatus ≠ none → row.requestHash = (requests q).requestHash sha256 →
      c.locals q = .called →
        (∀ e, ∃ c', (requestSystem sha256 requests handlers).fire c q e = some c' ∧
          (c'.locals q).response = some (.ok row.responseBody)) ∧
        ∀ later c' response, (requestSystem sha256 requests handlers).run c later = some c' →
          (c'.locals q).response = some response →
            route.respond response =
              .ok { status := route.successStatus, body := row.responseBody }) := by
  have hreach₀ : (requestSystem sha256 requests handlers).Reachable RequestsStart c₀ := .start hstart
  have hreach : (requestSystem sha256 requests handlers).Reachable RequestsStart c :=
    PartySystem.Reachable.run hreach₀ hrun
  refine ⟨fun scope key hkey ↦ count_enters_le_one hkey hreach₀ steps, ?_, ?_⟩
  · intro q row body hfind hhash hanswered
    have hfollows := followed hreach q
    rw [hanswered] at hfollows
    obtain ⟨-, row', hfind', hhash', -⟩ := hfollows
    obtain rfl := Option.some.inj (hfind.symm.trans hfind')
    exact hhash hhash'
  · intro q row route hkey _ hfind hstatus hhash hcalled
    refine ⟨fun e ↦ ⟨_, fire_of_taken hcalled hkey hfind, ?_⟩, fun later c' response hlater hresponse ↦ ?_⟩
    · show (Function.update c.locals q _ q).response = _
      rw [Function.update_self, answerExisting_eq_ok_iff.2 ⟨hhash, hstatus, rfl⟩]
      rfl
    · rcases called_or_replayed hreach hkey hfind hstatus hhash hcalled hlater with hq | hq
      · rw [hq] at hresponse
        cases hresponse
      · rw [hq] at hresponse
        rw [← Option.some.inj hresponse]
        rfl

end

namespace Sample

def paymentPath : String := "/deals/3f0b7c1e-58f2-4d0e-9a64-1c2d5e7f9a01/economics/payments"

def paymentBody (amountMinor : String) : String :=
  "\x7b\"payments\":[\x7b\"accrualRootId\":\"3f0b7c1e-58f2-4d0e-9a64-1c2d5e7f9a11\",\"amountMinor\":\"" ++
    amountMinor ++ "\"\x7d],\"reference\":\"wire 7\"\x7d"

/-- The digests of the two requests below. -/
def paymentDigest (text : String) : String :=
  if text = "POST " ++ paymentPath ++ "\n" ++ paymentBody "90" then
    "5c7267f75230e5e51c539fb4e9036e0894822e0f1ab2c260bebc5d33099d5966"
  else if text = "POST " ++ paymentPath ++ "\n" ++ paymentBody "80" then
    "c68b06f054cf8f1e3fe1ef90769c79d64869ec93c924bcc8a25920b4eea95edc"
  else ""

/-- `POST` of a payment of 90 by every party, except that party 2 uses the same key for 80. -/
def paymentRequests (p : ℕ) : IdempotencyRequestInfo where
  key := some "pay-1"
  scope := Route.scope .economicsPaymentRecord
  method := "POST"
  path := paymentPath
  body := paymentBody (if p = 2 then "80" else "90")
  organizationId := some "3f0b7c1e-58f2-4d0e-9a64-1c2d5e7f9a02"
  userId := some "3f0b7c1e-58f2-4d0e-9a64-1c2d5e7f9a06"

/-- Records the payment, unless it fails first; the rest of the database counts payments. -/
def recordPayments (fails : ℕ → Bool) (p : ℕ) : Handler ℕ Unit Unit String :=
  .atomic fun payments ↦
    if fails p then (.error (.error "Connection terminated unexpectedly"), payments)
    else (.ok "recorded", payments + 1)

def payments (fails : ℕ → Bool) :
    PartySystem ℕ (RequestDraws Unit) (ApiDb ℕ String) (RequestPc Unit String) :=
  requestSystem paymentDigest paymentRequests (recordPayments fails)

def unpaid : PartySystem.Config ℕ (ApiDb ℕ String) (RequestPc Unit String) :=
  ⟨⟨[], 0⟩, fun _ ↦ .called⟩

theorem unpaid_start : RequestsStart unpaid := ⟨List.nodup_nil, fun _ ↦ rfl⟩

/-- At nine o'clock. -/
def nineOClock : RequestDraws Unit := ⟨"019b8d6c-2a40-7c1e-9b7d-5e0f6a1b2c03", 1767603600000, ()⟩

/-- Two days later. -/
def twoDaysLater : RequestDraws Unit := ⟨"019b97b9-0a40-7c1e-9b7d-5e0f6a1b2c04", 1767776400000, ()⟩

/-- Party 0 runs its handler and records the response, then party 2 asks. -/
def paidSteps : List (ℕ × RequestDraws Unit) :=
  [(0, nineOClock), (0, nineOClock), (0, nineOClock), (0, nineOClock), (0, nineOClock),
    (2, nineOClock)]

/-- The state after that: the response is recorded, and party 1 has not begun. -/
structure Paid (c : PartySystem.Config ℕ (ApiDb ℕ String) (RequestPc Unit String))
    (row : IdempotencyKey String) : Prop where
  run : (payments fun _ ↦ false).run unpaid paidSteps = some c
  find : c.shared.find "economics.payment_record" "pay-1" = some row
  status : row.responseStatus = some 200
  body : row.responseBody = some "recorded"
  hash : row.requestHash = (paymentRequests 1).requestHash paymentDigest
  waiting : c.locals 1 = .called

theorem exists_paid : ∃ c row, Paid c row := by
  have hrun : ((payments fun _ ↦ false).run unpaid paidSteps).any (fun c ↦
      (c.shared.find "economics.payment_record" "pay-1").any fun row ↦
        decide (row.responseStatus = some 200 ∧ row.responseBody = some "recorded" ∧
          row.requestHash = (paymentRequests 1).requestHash paymentDigest ∧
          c.locals 1 = .called)) = true := by
    decide +kernel
  obtain ⟨c, hrun, h⟩ := (Option.any_eq_true _ _).1 hrun
  obtain ⟨row, hfind, h⟩ := (Option.any_eq_true _ _).1 h
  obtain ⟨hstatus, hbody, hhash, hwaiting⟩ := of_decide_eq_true h
  exact ⟨c, row, hrun, hfind, hstatus, hbody, hhash, hwaiting⟩

end Sample

/-- A payment, another one under its key, and a redelivery. -/
theorem atMostOnce_of_redelivery : ∃ c row c', Sample.Paid c row ∧
    (Sample.payments fun _ ↦ false).countAlong
      (enters Sample.paymentRequests "economics.payment_record" "pay-1") Sample.unpaid
      Sample.paidSteps ≤ 1 ∧
    (∀ body, c.locals 2 ≠ .answered (.ok body)) ∧
    (Sample.payments fun _ ↦ false).fire c 1 Sample.twoDaysLater = some c' ∧
    (c'.locals 1).response = some (.ok row.responseBody) ∧
    Route.respond .economicsPaymentRecord (.ok row.responseBody) =
      .ok { status := 201, body := row.responseBody } := by
  obtain ⟨c, row, hpaid⟩ := Sample.exists_paid
  have hstatus : row.responseStatus ≠ none := by
    rw [hpaid.status]
    exact Option.some_ne_none _
  obtain ⟨hcount, hother, hlater⟩ := atMostOnce_of_run Sample.unpaid_start hpaid.run
  obtain ⟨hnext, hreply⟩ := hlater 1 row .economicsPaymentRecord (by decide) rfl hpaid.find hstatus
    hpaid.hash hpaid.waiting
  obtain ⟨c', hfire, hresponse⟩ := hnext Sample.twoDaysLater
  refine ⟨c, row, c', hpaid, hcount _ _ (by decide), fun body ↦ ?_, hfire, hresponse, ?_⟩
  · refine hother 2 row body hpaid.find ?_
    rw [hpaid.hash]
    decide +kernel
  · refine hreply [(1, Sample.twoDaysLater)] c' _ ?_ hresponse
    exact Option.bind_eq_some_iff.2 ⟨c', hfire, rfl⟩

/-- The redelivery gets the recorded body, but 201 where 200 is recorded. -/
theorem replay_ignores_recorded_status : ∃ c row c', Sample.Paid c row ∧
    (Sample.payments fun _ ↦ false).fire c 1 Sample.twoDaysLater = some c' ∧
    (c'.locals 1).response = some (.ok row.responseBody) ∧
    ∀ reply, Route.respond .economicsPaymentRecord (.ok row.responseBody) = .ok reply →
      row.responseStatus ≠ some reply.status := by
  obtain ⟨c, row, hpaid⟩ := Sample.exists_paid
  have hstatus : row.responseStatus ≠ none := by
    rw [hpaid.status]
    exact Option.some_ne_none _
  have hanswer : answerExisting Sample.paymentDigest (Sample.paymentRequests 1) row =
      .ok row.responseBody :=
    answerExisting_eq_ok_iff.2 ⟨hpaid.hash, hstatus, rfl⟩
  refine ⟨c, row, _, hpaid, fire_of_taken hpaid.waiting (by decide) hpaid.find, ?_, ?_⟩
  · show (Function.update c.locals 1 _ 1).response = _
    rw [Function.update_self, hanswer]
    rfl
  · intro reply hreply
    rw [hpaid.status, ← Except.ok.inj hreply]
    show some 200 ≠ some 201
    decide

section

variable {Pid World Env Local Body : Type} [DecidableEq Pid] {sha256 : String → String}
  {requests : Pid → IdempotencyRequestInfo} {handlers : Pid → Handler World Env Local Body}
  {c c' : PartySystem.Config Pid (ApiDb World Body) (RequestPc Local Body)} {p q : Pid}
  {e : RequestDraws Env}

/-! ### After a failed attempt -/

variable (sha256 requests handlers) in
/-- The request gets into its handler in some continuation of the run. -/
def EntersHandler (c : PartySystem.Config Pid (ApiDb World Body) (RequestPc Local Body)) (q : Pid) :
    Prop :=
  ∃ later c', (requestSystem sha256 requests handlers).run c later = some c' ∧
    (c'.locals q).entered = true

/-- What a retry finds is the reservation of the attempt that threw. -/
theorem answer_of_threw (h : (requestSystem sha256 requests handlers).Reachable RequestsStart c)
    {thrown : Thrown} (hthrew : c.locals p = .threw thrown) (hkey : SameKey (requests p) (requests q))
    (hhash : (requests p).requestHash sha256 = (requests q).requestHash sha256) :
    ∃ row, c.shared.find (requests q).scope (requests q).keyText = some row ∧
      answerExisting sha256 (requests q) row = .error alreadyProcessing := by
  have hfollows := followed h p
  rw [hthrew] at hfollows
  obtain ⟨row, hfind, hrow, hstatus⟩ := hfollows hkey.1
  rw [hkey.2.1, hkey.2.2] at hfind
  exact ⟨row, hfind, answerExisting_of_incomplete (hrow.trans hhash) hstatus⟩

/-- **A failed attempt is never retried.** Once a request's handler has thrown, a request with the
same key that has not begun does not enter its handler in any continuation of the run; if it has the
same digest, its next step, at whatever time that is taken, tells it that it is already being
processed. -/
theorem retry_never_enters (h : (requestSystem sha256 requests handlers).Reachable RequestsStart c)
    {thrown : Thrown} (hthrew : c.locals p = .threw thrown) (hkey : SameKey (requests p) (requests q))
    (hcalled : c.locals q = .called) :
    ¬ EntersHandler sha256 requests handlers c q ∧
    ((requests p).requestHash sha256 = (requests q).requestHash sha256 →
      ∀ e, ∃ c', (requestSystem sha256 requests handlers).fire c q e = some c' ∧
        (c'.locals q).response = some (.error alreadyProcessing)) := by
  constructor
  · rintro ⟨later, c', hrun, hentered⟩
    have hfrom : (requestSystem sha256 requests handlers).Reachable (· = c) c' :=
      PartySystem.Reachable.run (.start rfl) hrun
    have hp : (c'.locals p).entered = true := by
      refine hfrom.rec_inv (I := fun c ↦ (c.locals p).entered = true) ?_
        fun _ hentered hfire _ ↦ entered_of_fire hentered hfire
      rintro c rfl
      rw [hthrew]
      rfl
    obtain rfl := entered_unique (PartySystem.Reachable.run h hrun) hkey hp hentered
    rw [hthrew] at hcalled
    cases hcalled
  · intro hhash e
    obtain ⟨row, hfind, hrow⟩ := answer_of_threw h hthrew hkey hhash
    refine ⟨_, fire_of_taken hcalled hkey.symm.1 hfind, ?_⟩
    show (Function.update c.locals q _ q).response = _
    rw [Function.update_self, hrow]
    rfl

end

namespace Sample

/-- Party 0's handler throws. -/
def outageSteps : List (ℕ × RequestDraws Unit) :=
  [(0, nineOClock), (0, nineOClock), (0, nineOClock)]

/-- The state after that, in which nobody is at work. -/
structure Outage (c : PartySystem.Config ℕ (ApiDb ℕ String) (RequestPc Unit String))
    (row : IdempotencyKey String) : Prop where
  run : (payments fun p ↦ p = 0).run unpaid outageSteps = some c
  threw : c.locals 0 = .threw (.error "Connection terminated unexpectedly")
  unpaid : c.shared.world = 0
  find : c.shared.find "economics.payment_record" "pay-1" = some row
  expired : row.expiresAt < twoDaysLater.now

theorem exists_outage : ∃ c row, Outage c row := by
  have hrun : ((payments fun p ↦ p = 0).run Sample.unpaid outageSteps).any (fun c ↦
      (c.shared.find "economics.payment_record" "pay-1").any fun row ↦
        decide (c.locals 0 = .threw (.error "Connection terminated unexpectedly") ∧
          c.shared.world = 0 ∧ row.expiresAt < twoDaysLater.now)) = true := by
    decide +kernel
  obtain ⟨c, hrun, h⟩ := (Option.any_eq_true _ _).1 hrun
  obtain ⟨row, hfind, h⟩ := (Option.any_eq_true _ _).1 h
  obtain ⟨hthrew, hunpaid, hexpired⟩ := of_decide_eq_true h
  exact ⟨c, row, hrun, hthrew, hunpaid, hfind, hexpired⟩

theorem Outage.waiting {c : PartySystem.Config ℕ (ApiDb ℕ String) (RequestPc Unit String)}
    {row : IdempotencyKey String} (h : Outage c row) {p : ℕ} (hp : p ≠ 0) : c.locals p = .called := by
  have hsteps : ∀ step ∈ outageSteps, step.1 ≠ p := by
    intro step hstep
    simp only [outageSteps, List.mem_cons, List.not_mem_nil, or_false, or_self] at hstep
    rw [hstep]
    exact hp.symm
  rw [PartySystem.locals_of_run h.run hsteps]
  rfl

end Sample

/-- A payment that failed, and its retries. -/
theorem retry_never_enters_of_outage : ∃ c row, Sample.Outage c row ∧
    ¬ EntersHandler Sample.paymentDigest Sample.paymentRequests (Sample.recordPayments fun p ↦ p = 0)
      c 1 ∧
    ∃ c', (Sample.payments fun p ↦ p = 0).fire c 1 Sample.twoDaysLater = some c' ∧
      (c'.locals 1).response = some (.error alreadyProcessing) := by
  obtain ⟨c, row, houtage⟩ := Sample.exists_outage
  have hreach : (Sample.payments fun p ↦ p = 0).Reachable RequestsStart c :=
    PartySystem.Reachable.run (.start Sample.unpaid_start) houtage.run
  have h := retry_never_enters hreach houtage.threw (by decide) (houtage.waiting Nat.one_ne_zero)
  exact ⟨c, row, houtage, h.1, h.2 rfl Sample.twoDaysLater⟩

/-- With nobody at work and the reservation expired, the retry is rejected. -/
theorem retry_rejected_after_expiry : ∃ c row c', Sample.Outage c row ∧
    (∀ p, p ≠ 0 → c.locals p = .called) ∧
    (Sample.payments fun p ↦ p = 0).fire c 1 Sample.twoDaysLater = some c' ∧
    c'.locals 1 = .answered (.error alreadyProcessing) := by
  obtain ⟨c, row, houtage⟩ := Sample.exists_outage
  have hreach : (Sample.payments fun p ↦ p = 0).Reachable RequestsStart c :=
    PartySystem.Reachable.run (.start Sample.unpaid_start) houtage.run
  obtain ⟨found, hfind, hanswer⟩ :=
    answer_of_threw (q := 1) hreach houtage.threw (by decide) rfl
  refine ⟨c, row, _, houtage, fun p hp ↦ houtage.waiting hp,
    fire_of_taken (houtage.waiting Nat.one_ne_zero) (by decide) hfind, ?_⟩
  rw [hanswer]
  show Function.update c.locals 1 (.answered (.error alreadyProcessing)) 1 = _
  exact Function.update_self ..

end TolPlatform
