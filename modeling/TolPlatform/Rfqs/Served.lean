import TolPlatform.Idempotency.Serving
import TolPlatform.Rfqs.AuditTrail

/-!
# RFQ requests behind idempotency keys

The RFQ routes serve `create`, `submitQuote` and `selectQuote` under an `Idempotency-Key`. So, whatever
interleaves and however often a request is sent again, one audit event is all that a key leaves behind; and
a request under a new key that is answered with a body is answered with what the one call under the key
returned, which is the call of that event (`exactlyOnce_of_run`). Requests without a key and expiry jobs take
part, as handlers that are not protected.
-/

namespace TolPlatform.Rfqs

/-- What a call came to; the route sends `respond response`. -/
def outcome {Body : Type} (respond : Response → Body) : Local → Option (Except Thrown Body)
  | .returned response => some (.ok (respond response))
  | .threw thrown => some (.error thrown)
  | _ => none

/-- The party runs an expiry job. -/
def Local.ofJob : Local → Bool
  | .delivered _ | .expiring _ | .expiryLocked _ | .expiryFresh _ _ | .finished _ => true
  | _ => false

section

variable {env : Env} {d : Draws} {db db' : Db} {l l' : Local}

theorem ofJob_of_read (h : Read db l l') (hjob : l.ofJob = false) :
    l'.ofJob = false ∧ ∀ response, l' ≠ .returned response := by
  cases h with
  | found | expiryFresh => cases hjob
  | _ => exact ⟨rfl, nofun⟩

theorem ofJob_of_lock {key : Int} (h : (calls env).next d l = .lock key l') (hjob : l.ofJob = false) :
    l'.ofJob = false ∧ ∀ response, l' ≠ .returned response := by
  cases l with
  | declineReady | submitReady | withdrawReady | selectReady =>
    obtain ⟨-, rfl⟩ := NextStep.lock.inj h
    exact ⟨rfl, nofun⟩
  | expiring => cases hjob
  | _ => cases h

/-- A request ends with the step that writes, and shows an event then. -/
theorem shown_of_commit (hjob : l.ofJob = false) {body : Tx Db Thrown Local}
    (hnext : (calls env).next d l = .commit body) (hbody : body db = .ok (l', db')) :
    ∃ response event, l' = .returned response ∧ shown db db' l l' = some event := by
  cases l with
  | createReady call =>
    obtain rfl := NextStep.commit.inj hnext
    obtain ⟨detail, -, rfl⟩ := Tx.map_eq_ok.1 hbody
    exact ⟨_, _, rfl, rfl⟩
  | declineLocked call =>
    obtain rfl := NextStep.commit.inj hnext
    obtain ⟨row, -, rfl⟩ := Tx.map_eq_ok.1 hbody
    exact ⟨_, _, rfl, rfl⟩
  | submitNumbered call freshStatus quoteVersion =>
    obtain rfl := NextStep.commit.inj hnext
    obtain ⟨quote, -, rfl⟩ := Tx.map_eq_ok.1 hbody
    exact ⟨_, _, rfl, rfl⟩
  | withdrawFresh call =>
    obtain rfl := NextStep.commit.inj hnext
    obtain ⟨quote, -, rfl⟩ := Tx.map_eq_ok.1 hbody
    exact ⟨_, _, rfl, rfl⟩
  | selectFresh call considered =>
    obtain rfl := NextStep.commit.inj hnext
    obtain ⟨room, -, rfl⟩ := Tx.map_eq_ok.1 hbody
    exact ⟨_, _, rfl, rfl⟩
  | expiryFresh => cases hjob
  | _ => cases hnext

end

section

variable {env : Env} {Pid : Type} [DecidableEq Pid] {c c' : Config Pid} {p : Pid} {t : Tick Draws}

/-- What a step of a request shows, it shows when it returns. -/
theorem seen_of_request (hfire : ((calls env).system Pid).fire c p t = some c')
    (hjob : (c.locals p).ofJob = false) : (c'.locals p).ofJob = false ∧
      (seen c p c' ≠ none ↔ ∃ response, c'.locals p = .returned response) := by
  have htransition := CallSystem.transition_of_fire hfire
  unfold seen
  generalize c'.shared = s, c'.locals p = l at htransition ⊢
  have hquiet (hnone : shown c.shared.db s.db (c.locals p) l = none)
      (hl : ∀ response, l ≠ .returned response) :
      shown c.shared.db s.db (c.locals p) l ≠ none ↔ ∃ response, l = .returned response :=
    iff_of_false (not_not.2 hnone) fun ⟨response, h⟩ ↦ hl response h
  cases htransition with
  | queried hnext hf =>
    have hread := read_of_query hnext hf
    exact ⟨(ofJob_of_read hread hjob).1, hquiet (shown_of_read hread) (ofJob_of_read hread hjob).2⟩
  | locked hnext =>
    obtain ⟨hjob', hl⟩ := ofJob_of_lock hnext hjob
    exact ⟨hjob', hquiet (shown_of_lock hnext) hl⟩
  | committed hnext hbody =>
    obtain ⟨response, event, rfl, hevent⟩ := shown_of_commit hjob hnext hbody
    exact ⟨rfl, iff_of_true (fun hnone ↦ Option.some_ne_none event (hevent.symm.trans hnone)) ⟨response, rfl⟩⟩
  | failed => exact ⟨rfl, hquiet (shown_of_ended (Or.inl ⟨_, rfl⟩)) nofun⟩
  | crashed => exact ⟨rfl, hquiet (shown_of_ended (Or.inr rfl)) nofun⟩

theorem ofJob_of_reachable {c₀ : Config Pid} (h : ((calls env).system Pid).Reachable (· = c₀) c)
    (hjob : (c₀.locals p).ofJob = false) : (c.locals p).ofJob = false := by
  refine h.rec_inv (I := fun c ↦ (c.locals p).ofJob = false) (fun c hc ↦ hc ▸ hjob) ?_
  intro c q t c' _ hq hfire _
  by_cases hqp : p = q
  · subst hqp
    exact (seen_of_request hfire hq).1
  · rwa [PartySystem.locals_of_fire hfire hqp]

theorem step_of_outcome {Body : Type} {respond : Response → Body} {s : CallSystem.Shared Db Int Pid}
    {l : Local} (h : outcome respond l ≠ none) : ((calls env).system Pid).step p t s l = none := by
  cases l with
  | returned | threw =>
    cases t with
    | act d => rfl
    | crash => rfl
  | _ => exact absurd rfl h

end

section

variable {env : Env} {Pid Body : Type} [DecidableEq Pid] {respond : Response → Body} {entry : Pid → Local}
  {sha256 : String → String} {requests : Pid → IdempotencyRequestInfo}
  {c c' : PartySystem.Config Pid (ApiDb (CallSystem.Shared Db Int Pid) Body) (RequestPc Local Body)}

/-- **A request that is sent again is done once.** In every run of the RFQ routes, with requests under keys,
requests without one and expiry jobs: the audit trail is what the calls that were run have been answered and
the jobs have expired. No key has more than one of these events. And when a request under a new key is
answered with a body, the key has one, and the body is what the call under the key returned. -/
theorem exactlyOnce_of_run (hstart : RequestsStart c) (hentry : Initial (callsAt entry c.shared.world))
    (hkeyed : ∀ p, (requests p).keyText ≠ "" → ∃ actor context request,
      entry p = .called actor context request)
    {steps : List (Pid × RequestDraws (Tick Draws))}
    (hrun : (served ((calls env).system Pid) (outcome respond) entry sha256 requests).run c steps =
      some c') :
    ∃ callSteps a', callSteps.Sublist (steps.map (Prod.map id RequestDraws.handler)) ∧
      ((calls env).system Pid).run (callsAt entry c.shared.world) callSteps = some a' ∧
      a'.shared = c'.shared.world ∧
      c'.shared.world.db.trails.auditTrail = c.shared.world.db.trails.auditTrail ++
        ((calls env).system Pid).eventsAlong seen (callsAt entry c.shared.world) callSteps ∧
      (∀ scope key, key ≠ "" → (((calls env).system Pid).eventsAlong (under requests scope key seen)
        (callsAt entry c.shared.world) callSteps).length ≤ 1) ∧
      ∀ p body, (requests p).keyText ≠ "" →
        c.shared.find (requests p).scope (requests p).keyText = none →
        (c'.locals p).response = some (.ok body) →
        (((calls env).system Pid).eventsAlong
          (under requests (requests p).scope (requests p).keyText seen)
          (callsAt entry c.shared.world) callSteps).length = 1 ∧
        ∃ q response, SameKey (requests p) (requests q) ∧ a'.locals q = .returned response ∧
          body = some (respond response) := by
  obtain ⟨callSteps, a', hsub, h⟩ := exists_hasRun hstart hrun
  have hc' := PartySystem.Reachable.run (.start hstart) hrun
  have hrequest {p : Pid} (hkey : (requests p).keyText ≠ "") : (entry p).ofJob = false := by
    obtain ⟨actor, context, request, hp⟩ := hkeyed p hkey
    rw [hp]
    rfl
  have hseen {a a₁ : Config Pid} {p : Pid} {t : Tick Draws}
      (ha : ((calls env).system Pid).Reachable (· = callsAt entry c.shared.world) a)
      (hkey : (requests p).keyText ≠ "") (hfire : ((calls env).system Pid).fire a p t = some a₁) :
      seen a p a₁ ≠ none ↔ ∃ response, a₁.locals p = .returned response :=
    (seen_of_request hfire (ofJob_of_reachable ha (hrequest hkey))).2
  have honce {scope key : String} (hkey : key ≠ "") :
      (((calls env).system Pid).eventsAlong (under requests scope key seen)
        (callsAt entry c.shared.world) callSteps).length ≤ 1 := by
    refine h.length_under_le_one hc' step_of_outcome (fun ha hkey hfire hevent ↦ ?_) hkey
    obtain ⟨response, hreturned⟩ := (hseen ha hkey hfire).1 (hevent ▸ Option.some_ne_none _)
    rw [hreturned]
    exact Option.some_ne_none _
  refine ⟨callSteps, a', hsub, h.run, h.world_eq, ?_, fun _ _ ↦ honce, fun p body hkey hfree hbody ↦ ?_⟩
  · rw [← h.world_eq]
    exact PartySystem.journal_of_run (J := fun s : CallSystem.Shared Db Int Pid ↦ trailOf s.db)
      (I := Sound env) (fun h hfire ↦ h.fire hfire) (fun h hfire ↦ h.trailOf_fire hfire) hentry.sound h.run
  · obtain ⟨q, result, rfl, hq, houtcome⟩ :=
      h.exists_outcome hc' (rowAnswered_of_run hstart hfree hrun) hbody
    have hsame : SameKey (requests p) (requests q) := by
      rcases hq with rfl | hq
      · exact ⟨hkey, rfl, rfl⟩
      · exact hq
    obtain ⟨response, hreturned, rfl⟩ : ∃ response, a'.locals q = .returned response ∧
        result = respond response := by
      generalize a'.locals q = l at houtcome
      cases l with
      | returned response => exact ⟨response, rfl, (Except.ok.inj (Option.some.inj houtcome)).symm⟩
      | threw thrown => cases houtcome
      | _ => cases houtcome
    refine ⟨le_antisymm (honce hkey) (List.length_pos_iff.2 ?_), q, response, hsame, hreturned, rfl⟩
    have hreach : ((calls env).system Pid).Reachable (· = callsAt entry c.shared.world)
        (callsAt entry c.shared.world) := .start rfl
    refine PartySystem.eventsAlong_ne_nil (q := q) (P := fun l ↦ ∃ response, l = .returned response)
      (fun ha hfire hreturned ↦ ?_) hreach h.run ?_ ⟨response, hreturned⟩
    · rw [under, if_pos ⟨hsame.2.1.symm, hsame.2.2.symm⟩]
      exact (hseen ha hsame.symm.1 hfire).2 hreturned
    · obtain ⟨actor, context, request, hp⟩ := hkeyed q hsame.symm.1
      rintro ⟨response, hreturned⟩
      exact Local.noConfusion (hp.symm.trans hreturned)

end

/-! ### A request that is sent again -/

namespace Sample

/-- The operator asks for an RFQ, again and again. -/
def entry (_ : ℕ) : Local := .called operator context (.create ⟨"opp", ["acquirer"], 1000, .qualifiedRfq, ""⟩)

def posted (_ : ℕ) : IdempotencyRequestInfo where
  key := some "k"
  scope := "rfq.create"
  method := "POST"
  path := "/rfqs"
  body := "\x7b\"opportunityId\":\"opp\",\"providerOrgIds\":[\"acquirer\"]\x7d"
  organizationId := some "tol"
  userId := some "olga"

def digestOfPosted (text : String) : String :=
  if text = "POST /rfqs\n\x7b\"opportunityId\":\"opp\",\"providerOrgIds\":[\"acquirer\"]\x7d" then
    "57d9754b19d2f228ec75a0f52d83d21f2f9ff8b4421e34f1011748d44c18bf44"
  else ""

/-- The body that answers a new RFQ, cut down to its id. -/
def respond : Response → String
  | .created detail => detail.rfq.id
  | _ => ""

def posting : PartySystem.Config ℕ (ApiDb (CallSystem.Shared Db Int ℕ) String) (RequestPc Local String) :=
  ⟨⟨[], sending.shared⟩, fun _ ↦ .called⟩

/-- The request, and the same request after it has been answered. -/
def postedTwice : List (ℕ × RequestDraws (Tick Draws)) :=
  List.replicate 7 (0, ⟨"key", 0, .act draws⟩) ++ [(1, ⟨"key2", 100, .act draws⟩)]

theorem initial_posting : Initial (callsAt entry posting.shared.world) where
  consistent := initial_sending.consistent
  new _ := Or.inl ⟨_, _, _, rfl⟩

theorem postedTwice_run :
    ((served ((calls env).system ℕ) (outcome respond) entry digestOfPosted posted).run
      posting postedTwice).any
      (fun c ↦ (c.locals 1).response = some (.ok (some "n0"))) = true := by
  decide +kernel

end Sample

/-- The request that is sent again is answered with the RFQ that is there. -/
theorem exactlyOnce_of_postedTwice : ∃ c', (served ((calls Sample.env).system ℕ) (outcome Sample.respond)
      Sample.entry Sample.digestOfPosted Sample.posted).run Sample.posting Sample.postedTwice = some c' ∧
    ∃ callSteps, c'.shared.world.db.trails.auditTrail =
        ((calls Sample.env).system ℕ).eventsAlong seen (callsAt Sample.entry Sample.posting.shared.world)
          callSteps ∧
      (((calls Sample.env).system ℕ).eventsAlong (under Sample.posted "rfq.create" "k" seen)
        (callsAt Sample.entry Sample.posting.shared.world) callSteps).length = 1 := by
  obtain ⟨c', hrun, hbody⟩ := PartySystem.exists_run_of_test Sample.postedTwice_run
  obtain ⟨callSteps, a', -, -, -, htrail, -, hone⟩ := exactlyOnce_of_run (c := Sample.posting)
    ⟨List.nodup_nil, fun _ ↦ rfl⟩ Sample.initial_posting (fun _ _ ↦ ⟨_, _, _, rfl⟩) hrun
  exact ⟨c', hrun, callSteps, htrail, (hone 1 _ (by decide) rfl hbody).1⟩

end TolPlatform.Rfqs
