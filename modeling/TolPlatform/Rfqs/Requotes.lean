import TolPlatform.Rfqs.Lifecycle

/-!
# Quoting again

The comment in `submitQuote` and the RFQ's own status table provide for a second quote of one provider:
`INVITED`, `ACKNOWLEDGED` and `QUOTED` are to be valid entry points, and versions are numbered. But the
check before the transaction asserts the recipient's move to `QUOTED`, and the table of the recipient
has no such edge from `QUOTED`.

A provider's submissions are taken here one after another, each with whatever submissions of its rivals
run meanwhile. The first succeeds, under version 1 (`Attempt`); every later one is turned away
(`TurnedAway`). So they all succeed exactly if there is one and the provider had not quoted before
(`requoted_iff`).
-/

namespace TolPlatform.Rfqs

/-! ### Turns -/

/-- An RFQ that accepts quotes, and the row of one of its recipients. The service creates no RFQ as
`DRAFT`, so one that is not closed has been sent. -/
structure Accepting (rfqId providerOrgId : Uuid) (recipient : RFQRecipient) (db : Db) : Prop where
  recipientIds : (db.rfqRecipients.map (·.id)).Nodup
  recipient : RfqRecipientRepository.findByRfqAndProviderOrg db rfqId providerOrgId = some recipient
  rfq : ∃ rfq, RfqRepository.findById db rfqId = some rfq ∧
    rfq.status ∈ RfqRepository.expirableStatuses ∧
      rfq.opportunityId ∈ db.opportunities.map (·.id)

/-- A submission of another organization. -/
def Elsewhere (providerOrgId recipientId : Uuid) : Local → Prop
  | .called actor _ (.submitQuote _ _) => actor.organizationId ≠ some providerOrgId
  | .rfqRead actor _ _ (.submitQuote _) => actor.organizationId ≠ some providerOrgId
  | .opportunityRead call (.submitQuote _) => call.actor.organizationId ≠ some providerOrgId
  | .submitReady call | .submitLocked call | .submitFresh call _ | .submitNumbered call _ _ =>
    call.recipient.id ≠ recipientId
  | .returned _ | .threw _ | .crashed => True
  | _ => False

/-- A user of the provider who may quote, with terms that can be stored. -/
structure MayQuote (env : Env) (providerOrgId : Uuid) (actor : Actor) (input : SubmitQuoteRequest) :
    Prop where
  organizationId : actor.organizationId = some providerOrgId
  allowed : ∀ ownerOrgId, (can actor .rfqSubmitQuote ⟨.rfq, some ownerOrgId⟩
    { isParticipant := true }).allowed = true
  terms : env.assertJsonSafePlainObject input.terms "Quote.terms" = .ok ()

variable {Pid : Type} [DecidableEq Pid]

/-- While it is the party's turn, only rivals move besides it; it does not crash, and the id that it
draws is new. -/
def InTurn (rival : Pid → Prop) (p : Pid) : PartySystem.StepCond Pid (Tick Draws)
    (CallSystem.Shared Db Int Pid) Local := fun c q t _ ↦
  (q = p → ∃ d, t = .act d ∧ d.ids 0 ∉ c.shared.db.quotes.map (·.id)) ∧ (q ≠ p → rival q)

/-- One call after another, each with the steps that are taken until it has ended. -/
def Successive (env : Env) (rival : Pid → Prop) :
    Config Pid → List (Pid × List (Pid × Tick Draws)) → Prop
  | _, [] => True
  | c, (p, steps) :: turns => ((calls env).system Pid).Along (InTurn rival p) c steps ∧
    ∃ c', ((calls env).system Pid).run c steps = some c' ∧ (calls env).ended (c'.locals p) = true ∧
      Successive env rival c' turns

/-- Each call returns its quote, under the next version, and no quote that is there changes. -/
def Requoted (env : Env) (quoteVersion : ℕ) :
    Config Pid → List (Pid × List (Pid × Tick Draws)) → Prop
  | _, [] => True
  | c, (p, steps) :: turns => ∀ c', ((calls env).system Pid).run c steps = some c' →
    (∃ quote ∈ c'.shared.db.quotes, quote.quoteVersion = quoteVersion ∧
      c'.locals p = .returned (.submitted quote)) ∧
    (∀ quote ∈ c.shared.db.quotes, quote ∈ c'.shared.db.quotes) ∧
    Requoted env (quoteVersion + 1) c' turns

/-- Where the turns start: the provider's calls and those of its rivals have just come in. A recipient
that has not quoted has no quote. -/
structure TurnsStart (env : Env) (rfqId providerOrgId : Uuid) (recipient : RFQRecipient)
    (rival : Pid → Prop) (turns : List (Pid × List (Pid × Tick Draws))) (c : Config Pid) : Prop where
  accepting : Accepting rfqId providerOrgId recipient c.shared.db
  open_ : recipient.state ≠ .declined ∧ recipient.state ≠ .expired
  unquoted : recipient.state ≠ .quoted → ∀ q ∈ c.shared.db.quotes, q.rfqRecipientId ≠ recipient.id
  own : ∀ turn ∈ turns, ¬ rival turn.1 ∧ ∃ actor context input,
    c.locals turn.1 = .called actor context (.submitQuote rfqId input) ∧
      MayQuote env providerOrgId actor input
  distinct : (turns.map Prod.fst).Nodup
  rivals : ∀ q, rival q → Elsewhere providerOrgId recipient.id (c.locals q)

/-! ### Submissions and the rows of an RFQ -/

section

variable {rfqId providerOrgId : Uuid} {recipient : RFQRecipient} {db db' : Db}

/-- The recipient's row, after a rewrite of states. -/
theorem find_setState {k : Uuid} {state : RfqRecipientState} {reason : Option String}
    {rows : List RFQRecipient}
    (h : rows.find? (fun r ↦ r.rfqId = rfqId ∧ r.providerOrgId = providerOrgId) = some recipient) :
    (Rows.rewrite RFQRecipient.id k (RfqRecipientRepository.setState state reason) rows).find?
        (fun r ↦ r.rfqId = rfqId ∧ r.providerOrgId = providerOrgId) =
      some (if recipient.id = k then RfqRecipientRepository.setState state reason recipient
        else recipient) := by
  have hsame (r : RFQRecipient) :
      decide ((RfqRecipientRepository.setState state reason r).rfqId = rfqId ∧
        (RfqRecipientRepository.setState state reason r).providerOrgId = providerOrgId) =
      decide (r.rfqId = rfqId ∧ r.providerOrgId = providerOrgId) := rfl
  rw [Rows.find_rewrite_of hsame, h]
  rfl

/-- An RFQ that accepts quotes goes on doing so. -/
theorem Accepting.submitted (h : Accepting rfqId providerOrgId recipient db) {call : SubmitCall}
    {freshStatus : RfqStatus} {quote : Quote} (hsubmitted : Submitted db db' call freshStatus quote)
    (hopportunities : db'.opportunities.map (·.id) = db.opportunities.map (·.id)) :
    Accepting rfqId providerOrgId
      (if recipient.id = call.recipient.id ∧ call.recipient.state ≠ .quoted then
        RfqRecipientRepository.setState .quoted none recipient else recipient) db' where
  recipientIds := by
    rw [hsubmitted.recipients_eq]
    split
    · exact h.recipientIds
    · rw [Rows.map_rewrite (RfqRecipientRepository.setState_id _ _)]
      exact h.recipientIds
  recipient := by
    have hfind := h.recipient
    unfold RfqRecipientRepository.findByRfqAndProviderOrg at hfind ⊢
    rw [hsubmitted.recipients_eq]
    by_cases hquoted : call.recipient.state = .quoted
    · simpa [hquoted] using hfind
    · simpa [hquoted] using find_setState hfind
  rfq := by
    obtain ⟨rfq, hfind, hstatus, hopportunity⟩ := h.rfq
    unfold RfqRepository.findById at hfind ⊢
    rw [hsubmitted.rfqs_eq, hopportunities]
    split
    · exact ⟨rfq, hfind, hstatus, hopportunity⟩
    · have hsame (r : RFQ) : decide ((RfqRepository.setStatus .quoted r).id = rfqId) =
          decide (r.id = rfqId) := rfl
      rw [Rows.find_rewrite_of hsame, hfind]
      by_cases hid : rfq.id = call.rfq.id
      · have hquoted : RfqStatus.quoted ∈ RfqRepository.expirableStatuses := by decide
        exact ⟨_, congrArg some (if_pos hid), hquoted, hopportunity⟩
      · exact ⟨rfq, congrArg some (if_neg hid), hstatus, hopportunity⟩

theorem OpportunityWritten.ids {w : Option (Opportunity × OpportunityStatus)}
    (h : OpportunityWritten db db' w) :
    db'.opportunities.map (·.id) = db.opportunities.map (·.id) := by
  cases w with
  | none => rw [h.rows_eq]
  | some w =>
    rw [h.rows_eq]
    exact Rows.map_rewrite (OpportunityRepository.setStatus_id _)

/-! ### Rivals -/

/-- What the step of a rival leaves of the rows that a submission of the provider goes by. -/
structure Undisturbed (rfqId providerOrgId : Uuid) (recipient : RFQRecipient) (db db' : Db) : Prop where
  accepting : Accepting rfqId providerOrgId recipient db'
  opportunities : db'.opportunities.map (·.id) = db.opportunities.map (·.id)
  quotes : ∀ q ∈ db.quotes, q ∈ db'.quotes
  unquoted : (∀ q ∈ db.quotes, q.rfqRecipientId ≠ recipient.id) →
    ∀ q ∈ db'.quotes, q.rfqRecipientId ≠ recipient.id

theorem Accepting.undisturbed (h : Accepting rfqId providerOrgId recipient db) :
    Undisturbed rfqId providerOrgId recipient db db := ⟨h, rfl, fun _ hq ↦ hq, fun h ↦ h⟩

/-- A rival's recipient row is another one. -/
theorem Accepting.ne_of_found (h : Accepting rfqId providerOrgId recipient db)
    {call : RfqCall} (hactor : call.actor.organizationId ≠ some providerOrgId)
    {other : RFQRecipient} (hother : recipientOf db call = some other) : other.id ≠ recipient.id := by
  obtain ⟨organizationId, horg, hfound⟩ := Option.bind_eq_some_iff.1 hother
  obtain ⟨-, hprovider⟩ := of_decide_eq_true (List.find?_some hfound :)
  obtain ⟨-, hown⟩ := of_decide_eq_true (List.find?_some h.recipient :)
  intro hid
  have hsame := Rows.eq_of_key_eq h.recipientIds (List.mem_of_find?_eq_some h.recipient)
    (List.mem_of_find?_eq_some hfound) hid
  refine hactor (horg.trans ?_)
  rw [← hprovider, hsame, hown]

/-- The recipient that a submission goes on with is its own. -/
theorem precheckSubmit_eq_ok {call : RfqCall} {other : RFQRecipient}
    (h : precheckSubmit db call = .ok other) : recipientOf db call = some other := by
  obtain ⟨_, -, h⟩ := Except.bind_eq_ok'.1 h
  obtain ⟨found, hfound, h⟩ := Except.bind_eq_ok'.1 h
  obtain ⟨_, -, h⟩ := Except.bind_eq_ok'.1 h
  obtain rfl := Except.ok.inj h
  exact orThrow_eq_ok_iff.1 hfound

/-- What a rival reads leaves it a rival. -/
theorem Accepting.rival_reads {env : Env} {d : Draws} {l l' : Local}
    {f : Db → Except Thrown Local} (h : Accepting rfqId providerOrgId recipient db)
    (hrival : Elsewhere providerOrgId recipient.id l) (hnext : (calls env).next d l = .query f)
    (hf : f db = .ok l') : Elsewhere providerOrgId recipient.id l' := by
  cases l with
  | called actor context request =>
    cases request with
    | submitQuote rfqId' input =>
      obtain rfl := NextStep.query.inj hnext
      obtain ⟨rfq, -, hret⟩ := Except.bind_eq_ok'.1 hf
      obtain rfl := Except.ok.inj hret
      exact hrival
    | _ => exact hrival.elim
  | rfqRead actor context rfq request =>
    cases request with
    | submitQuote input =>
      obtain rfl := NextStep.query.inj hnext
      obtain ⟨opportunity, -, hret⟩ := Except.bind_eq_ok'.1 hf
      obtain rfl := Except.ok.inj hret
      exact hrival
    | _ => exact hrival.elim
  | opportunityRead call request =>
    cases request with
    | submitQuote input =>
      obtain rfl := NextStep.query.inj hnext
      obtain ⟨other, hother, hret⟩ := Except.bind_eq_ok'.1 hf
      obtain rfl := Except.ok.inj hret
      exact h.ne_of_found hrival (precheckSubmit_eq_ok hother)
    | _ => exact hrival.elim
  | submitLocked call =>
    obtain rfl := NextStep.query.inj hnext
    obtain ⟨freshStatus, -, hret⟩ := Except.bind_eq_ok'.1 hf
    obtain rfl := Except.ok.inj hret
    exact hrival
  | submitFresh call freshStatus =>
    obtain rfl := NextStep.query.inj hnext
    obtain rfl := Except.ok.inj hf
    exact hrival
  | submitReady | submitNumbered | returned | threw | crashed => cases hnext
  | _ => exact hrival.elim

variable {env : Env} {rival : Pid → Prop} {c c' : Config Pid} {q : Pid} {t : Tick Draws}

/-- **A rival's step** leaves it a rival and disturbs nothing. -/
theorem Accepting.rival_step (h : Accepting rfqId providerOrgId recipient c.shared.db)
    (hrival : Elsewhere providerOrgId recipient.id (c.locals q))
    (hfire : ((calls env).system Pid).fire c q t = some c') :
    Elsewhere providerOrgId recipient.id (c'.locals q) ∧
      Undisturbed rfqId providerOrgId recipient c.shared.db c'.shared.db := by
  have htransition := CallSystem.transition_of_fire hfire
  generalize c.locals q = l at hrival htransition
  generalize c'.locals q = l' at htransition ⊢
  generalize c'.shared = s' at htransition ⊢
  cases htransition with
  | failed | crashed => exact ⟨trivial, h.undisturbed⟩
  | locked hnext =>
    refine ⟨?_, h.undisturbed⟩
    cases l with
    | submitReady call =>
      obtain ⟨-, rfl⟩ := NextStep.lock.inj hnext
      exact hrival
    | declineReady | withdrawReady | selectReady | expiring => exact hrival.elim
    | _ => cases hnext
  | queried hnext hf => exact ⟨h.rival_reads hrival hnext hf, h.undisturbed⟩
  | committed hnext hbody =>
    have hwrote := wrote_of_commit hnext hbody
    obtain ⟨hrfq, hopportunity⟩ := hwrote
    cases hrfq with
    | submitted hsubmitted =>
      obtain rfl := NextStep.commit.inj hnext
      obtain ⟨_, -, rfl⟩ := Tx.map_eq_ok.1 hbody
      have haccepting := h.submitted hsubmitted hopportunity.ids
      rw [if_neg fun hown ↦ hrival hown.1.symm] at haccepting
      refine ⟨trivial, haccepting, hopportunity.ids, fun q hq ↦ ?_, fun hunquoted q hq ↦ ?_⟩
      · exact hsubmitted.quotes_eq ▸ List.mem_append_left _ hq
      · have hquotes := hsubmitted.quotes_eq
        replace hq := hquotes ▸ hq
        rcases List.mem_append.1 hq with hq | hq
        · exact hunquoted q hq
        · rw [List.mem_singleton.1 hq, hsubmitted.rfqRecipientId]
          exact hrival
    | created | declined | withdrew | selected | expiring => exact hrival.elim

end

/-! ### The provider's own call -/

/-- A submission that is still to be checked. -/
def Unchecked (env : Env) (rfqId providerOrgId : Uuid) (db : Db) : Local → Prop
  | .called actor _ (.submitQuote id input) => id = rfqId ∧ MayQuote env providerOrgId actor input
  | .rfqRead actor _ rfq (.submitQuote input) => rfq.id = rfqId ∧
    rfq.opportunityId ∈ db.opportunities.map (·.id) ∧ MayQuote env providerOrgId actor input
  | .opportunityRead call (.submitQuote input) => call.rfq.id = rfqId ∧
    call.opportunity.id ∈ db.opportunities.map (·.id) ∧ MayQuote env providerOrgId call.actor input
  | _ => False

/-- What a submission goes on with once it has been checked. -/
structure GoesOn (env : Env) (rfqId : Uuid) (recipient : RFQRecipient) (db : Db) (call : SubmitCall) :
    Prop where
  rfqId : call.rfq.id = rfqId
  opportunity : call.opportunity.id ∈ db.opportunities.map (·.id)
  recipient : call.recipient = recipient
  terms : env.assertJsonSafePlainObject call.input.terms "Quote.terms" = .ok ()

/-- A submission that has been checked, with its version once that is drawn. -/
def Checked (env : Env) (rfqId : Uuid) (recipient : RFQRecipient) (db : Db) : Local → Prop
  | .submitReady call | .submitLocked call => GoesOn env rfqId recipient db call
  | .submitFresh call freshStatus =>
    GoesOn env rfqId recipient db call ∧ freshStatus ∈ RfqRepository.expirableStatuses
  | .submitNumbered call freshStatus quoteVersion => GoesOn env rfqId recipient db call ∧
    freshStatus ∈ RfqRepository.expirableStatuses ∧ quoteVersion = 1
  | _ => False

section

variable {env : Env} {rfqId providerOrgId : Uuid} {recipient : RFQRecipient} {db db' : Db} {d : Draws}
  {l : Local}

/-- The check before the transaction comes down to the recipient's state. -/
theorem Accepting.precheckSubmit_eq (h : Accepting rfqId providerOrgId recipient db) {call : RfqCall}
    {input : SubmitQuoteRequest} (hrfq : call.rfq.id = rfqId)
    (hmay : MayQuote env providerOrgId call.actor input) : precheckSubmit db call =
      (assertValidRfqRecipientTransition recipient.state .quoted).map fun _ ↦ recipient := by
  have hown : recipientOf db call = some recipient := by
    rw [recipientOf, hmay.organizationId, hrfq]
    exact h.recipient
  have hallowed : requireOnRfq call .rfqSubmitQuote true = .ok () := by
    rw [requireOnRfq, requireAllowed, throwIf_eq_ok_iff, hmay.allowed]
    decide
  rw [precheckSubmit, precheckRecipient, hown, Option.isSome_some, hallowed]
  show (assertValidRfqRecipientTransition recipient.state .quoted >>= fun _ ↦ Except.ok recipient) = _
  rcases assertValidRfqRecipientTransition recipient.state .quoted with e | u <;> rfl

/-- **One step of a submission that is still to be checked**: whether it gets past the check depends
on the recipient's state alone. -/
theorem Accepting.unchecked_step (h : Accepting rfqId providerOrgId recipient db)
    (hl : Unchecked env rfqId providerOrgId db l) : ∃ f, (calls env).next d l = .query f ∧
      ((∃ l', f db = .ok l' ∧ (Unchecked env rfqId providerOrgId db l' ∨
        .quoted ∈ rfqRecipientTransitions recipient.state ∧ Checked env rfqId recipient db l')) ∨
      .quoted ∉ rfqRecipientTransitions recipient.state ∧ ∃ e, f db = .error e) := by
  cases l with
  | called actor context request =>
    cases request with
    | submitQuote id input =>
      obtain ⟨rfl, hmay⟩ := hl
      obtain ⟨rfq, hfind, -, hopportunity⟩ := h.rfq
      refine ⟨_, rfl, Or.inl ⟨.rfqRead actor context rfq (.submitQuote input), ?_, Or.inl ?_⟩⟩
      · exact Except.bind_eq_ok'.2 ⟨rfq, orThrow_eq_ok_iff.2 hfind, rfl⟩
      · exact ⟨of_decide_eq_true (List.find?_some hfind :), hopportunity, hmay⟩
    | _ => exact hl.elim
  | rfqRead actor context rfq request =>
    cases request with
    | submitQuote input =>
      obtain ⟨hrfq, hopportunity, hmay⟩ := hl
      obtain ⟨opportunity, hmem, hid⟩ := List.mem_map.1 hopportunity
      have hsome : (OpportunityRepository.findById db rfq.opportunityId).isSome := by
        exact List.find?_isSome.2 ⟨opportunity, hmem, decide_eq_true hid⟩
      obtain ⟨found, hfound⟩ := Option.isSome_iff_exists.1 hsome
      refine ⟨_, rfl, Or.inl ⟨.opportunityRead ⟨actor, context, rfq, found⟩ (.submitQuote input), ?_,
        Or.inl ⟨hrfq, List.mem_map_of_mem (List.mem_of_find?_eq_some hfound), hmay⟩⟩⟩
      exact Except.bind_eq_ok'.2 ⟨found, orThrow_eq_ok_iff.2 hfound, rfl⟩
    | _ => exact hl.elim
  | opportunityRead call request =>
    cases request with
    | submitQuote input =>
      obtain ⟨hrfq, hopportunity, hmay⟩ := hl
      have hcheck := h.precheckSubmit_eq hrfq hmay
      refine ⟨_, rfl, ?_⟩
      by_cases hedge : .quoted ∈ rfqRecipientTransitions recipient.state
      · have hvalid : assertValidRfqRecipientTransition recipient.state .quoted = .ok () := by
          refine assertValidTransition_eq_ok_iff.2 ⟨?_, hedge⟩
          rintro hquoted
          rw [hquoted] at hedge
          revert hedge
          decide
        rw [hvalid] at hcheck
        refine Or.inl ⟨.submitReady ⟨call, input, recipient⟩, ?_, Or.inr ⟨hedge, ?_⟩⟩
        · exact Except.bind_eq_ok'.2 ⟨recipient, hcheck, rfl⟩
        · exact ⟨hrfq, hopportunity, rfl, hmay.terms⟩
      · refine Or.inr ⟨hedge, ?_⟩
        rcases hvalid : assertValidRfqRecipientTransition recipient.state .quoted with e | u
        · rw [hvalid] at hcheck
          exact ⟨e, by simp only [check, hcheck]; rfl⟩
        · exact absurd (assertValidTransition_eq_ok_iff.1 hvalid).2 hedge
    | _ => exact hl.elim
  | _ => exact hl.elim

/-! ### Its transaction -/

theorem createQuote_of_free {guard : String → String → Except Thrown Unit} {row : Quote}
    (hguard : guard row.terms "Quote.terms" = .ok ()) (hid : row.id ∉ db.quotes.map (·.id))
    (hversion : ∀ q ∈ db.quotes, q.rfqRecipientId ≠ row.rfqRecipientId) :
    QuoteRepository.create guard row db = .ok (row, { db with quotes := db.quotes ++ [row] }) := by
  refine Tx.check_bind_eq_ok.2 ⟨(), hguard, Tx.get_bind_eq_ok.2 (Tx.check_bind_eq_ok.2 ⟨(), ?_, ?_⟩)⟩
  · rw [throwIf_eq_ok_iff]
    rintro ⟨q, hq, hsame, -⟩
    exact hversion q hq hsame
  · exact Table.insert_eq_ok_iff.2 ⟨hid, rfl, rfl⟩

theorem exists_markRecipientQuoted (db : Db) (h : recipient.id ∈ db.rfqRecipients.map (·.id)) :
    ∃ rows, markRecipientQuoted recipient db = .ok (⟨⟩, { db with rfqRecipients := rows }) := by
  unfold markRecipientQuoted
  split
  · obtain ⟨row, hupdate⟩ := Table.exists_update_eq_ok (T := rfqRecipients)
      (RfqRecipientRepository.setState .quoted none) h
    exact ⟨_, Tx.bind_eq_ok.2 ⟨row, _, hupdate, rfl⟩⟩
  · exact ⟨_, rfl⟩

theorem exists_markRfqQuoted (db : Db) {freshStatus : RfqStatus}
    (hstatus : freshStatus ∈ RfqRepository.expirableStatuses) (h : rfqId ∈ db.rfqs.map (·.id)) :
    ∃ rows, markRfqQuoted rfqId freshStatus db = .ok (⟨⟩, { db with rfqs := rows }) := by
  have hedge : assertValidRfqTransition freshStatus .quoted = .ok () := by
    cases freshStatus <;> first | rfl | exact absurd hstatus (by decide)
  unfold markRfqQuoted
  split
  · obtain ⟨row, hupdate⟩ := Table.exists_update_eq_ok (T := rfqs) (RfqRepository.setStatus .quoted) h
    exact ⟨_, Tx.check_bind_eq_ok.2 ⟨(), hedge, Tx.bind_eq_ok.2 ⟨row, _, hupdate, rfl⟩⟩⟩
  · exact ⟨_, rfl⟩

theorem exists_cascade (db : Db) {opportunity : Opportunity}
    (h : opportunity.id ∈ db.opportunities.map (·.id)) :
    ∃ rows updates, cascade opportunity .invited .quoted db = .ok (⟨⟩,
      { db with
        opportunities := rows
        opportunityUpdates := updates }) := by
  unfold cascade
  split
  · obtain ⟨old, hold, hid⟩ := List.mem_map.1 h
    obtain ⟨found, hfound⟩ : ∃ found, OpportunityRepository.findById db opportunity.id = some found :=
      Option.isSome_iff_exists.1 (List.find?_isSome.2 ⟨old, hold, decide_eq_true hid⟩)
    let logged : Db := { db with opportunityUpdates :=
      db.opportunityUpdates ++ [⟨opportunity.id, found.status, .quoted⟩] }
    obtain ⟨row, hupdate⟩ := Table.exists_update_eq_ok (T := opportunities) (s := logged)
      (OpportunityRepository.setStatus .quoted) h
    have hwrite : OpportunityRepository.updateStatus opportunity.id .quoted db = .ok (row, _) :=
      Tx.get_bind_eq_ok.2 (Tx.check_bind_eq_ok.2 ⟨found, orThrow_eq_ok_iff.2 hfound,
        Tx.modify_bind_eq_ok.2 hupdate⟩)
    exact ⟨_, _, Tx.check_bind_eq_ok.2 ⟨(), rfl, Tx.bind_eq_ok.2 ⟨row, _, hwrite, rfl⟩⟩⟩
  · exact ⟨_, _, rfl⟩

/-- **The transaction of a checked submission succeeds**, under the version that was drawn. -/
theorem exists_submitQuoteTx (h : Accepting rfqId providerOrgId recipient db) {call : SubmitCall}
    (hgoes : GoesOn env rfqId recipient db call) {freshStatus : RfqStatus} (quoteVersion : ℕ)
    (hstatus : freshStatus ∈ RfqRepository.expirableStatuses)
    (hunquoted : ∀ q ∈ db.quotes, q.rfqRecipientId ≠ recipient.id)
    (hid : d.ids 0 ∉ db.quotes.map (·.id)) :
    ∃ db', submitQuoteTx env d call freshStatus quoteVersion db =
        .ok (newQuote d call quoteVersion, db') ∧
      db'.quotes = db.quotes ++ [newQuote d call quoteVersion] := by
  obtain ⟨rfq, hfind, -, -⟩ := h.rfq
  have hrecipient : call.recipient.id ∈ db.rfqRecipients.map (·.id) := by
    rw [hgoes.recipient]
    exact List.mem_map_of_mem (List.mem_of_find?_eq_some h.recipient)
  have hrfq : call.rfq.id ∈ db.rfqs.map (·.id) := by
    rw [hgoes.rfqId, ← (of_decide_eq_true (List.find?_some hfind :) : rfq.id = rfqId)]
    exact List.mem_map_of_mem (List.mem_of_find?_eq_some hfind)
  have hversion : ∀ q ∈ db.quotes, q.rfqRecipientId ≠ (newQuote d call quoteVersion).rfqRecipientId := by
    rw [newQuote, hgoes.recipient]
    exact hunquoted
  have hcreate := createQuote_of_free hgoes.terms hid hversion
  obtain ⟨recipients, hmark⟩ := exists_markRecipientQuoted
    { db with quotes := db.quotes ++ [newQuote d call quoteVersion] } hrecipient
  obtain ⟨rfqs, hmarkRfq⟩ := exists_markRfqQuoted
    { db with quotes := db.quotes ++ [newQuote d call quoteVersion], rfqRecipients := recipients }
    hstatus hrfq
  obtain ⟨rows, updates, hcascade⟩ := exists_cascade
    { db with
      quotes := db.quotes ++ [newQuote d call quoteVersion], rfqRecipients := recipients, rfqs }
    hgoes.opportunity
  refine ⟨_, Tx.bind_eq_ok.2 ⟨_, _, hcreate, Tx.bind_eq_ok.2 ⟨_, _, hmark,
    Tx.bind_eq_ok.2 ⟨_, _, hmarkRfq, Tx.bind_eq_ok.2 ⟨_, _, hcascade, rfl⟩⟩⟩⟩, ?_⟩
  rfl

variable {env : Env} {p : Pid} {c c' : Config Pid}

/-- **One step of a checked submission** of a recipient that has not quoted: it goes on, or returns its
first quote. -/
theorem Accepting.checked_step (h : Accepting rfqId providerOrgId recipient c.shared.db)
    (hl : Checked env rfqId recipient c.shared.db (c.locals p)) (hstate : recipient.state ≠ .quoted)
    (hunquoted : ∀ q ∈ c.shared.db.quotes, q.rfqRecipientId ≠ recipient.id)
    (hid : d.ids 0 ∉ c.shared.db.quotes.map (·.id))
    (hfire : ((calls env).system Pid).fire c p (.act d) = some c') :
    c'.shared.db = c.shared.db ∧ Checked env rfqId recipient c.shared.db (c'.locals p) ∨
    ∃ quote, c'.shared.db.quotes = c.shared.db.quotes ++ [quote] ∧ quote.quoteVersion = 1 ∧
      c'.locals p = .returned (.submitted quote) ∧
      Accepting rfqId providerOrgId (RfqRecipientRepository.setState .quoted none recipient)
        c'.shared.db := by
  generalize hlocal : c.locals p = l at hl
  cases l with
  | submitReady call =>
    obtain ⟨hdb, hnext⟩ := CallSystem.lock_of_fire hfire (by rw [hlocal]; rfl)
    exact Or.inl ⟨hdb, hnext ▸ hl⟩
  | submitLocked call =>
    obtain ⟨rfq, hfind, hstatus, -⟩ := h.rfq
    have hreload : reloadRfqStatus c.shared.db call.toRfqCall = .ok rfq.status := by
      have hopen : ¬ (rfq.status = .selected ∨ rfq.status = .declined ∨ rfq.status = .expired) := by
        rintro (hclosed | hclosed | hclosed) <;> rw [hclosed] at hstatus <;> revert hstatus <;> decide
      refine Except.bind_eq_ok'.2 ⟨rfq, orThrow_eq_ok_iff.2 (hl.rfqId ▸ hfind), ?_⟩
      exact Except.bind_eq_ok'.2 ⟨(), throwIf_eq_ok_iff.2 hopen, rfl⟩
    have hread : (do
        let freshStatus ← reloadRfqStatus c.shared.db call.toRfqCall
        return .submitFresh call freshStatus) = Except.ok (Local.submitFresh call rfq.status) :=
      Except.bind_eq_ok'.2 ⟨_, hreload, rfl⟩
    obtain ⟨hdb, hnext⟩ := CallSystem.query_of_fire hfire (by rw [hlocal]; rfl) hread
    exact Or.inl ⟨hdb, hnext ▸ ⟨hl, hstatus⟩⟩
  | submitFresh call freshStatus =>
    obtain ⟨hgoes, hstatus⟩ := hl
    -- the first number: no quote of this recipient is there
    have hfirst : QuoteRepository.nextQuoteVersion c.shared.db call.recipient.id = 1 := by
      have hnone : c.shared.db.quotes.filter (·.rfqRecipientId = recipient.id) = [] :=
        List.filter_eq_nil_iff.2 fun q hq ↦ by simpa using hunquoted q hq
      rw [QuoteRepository.nextQuoteVersion, hgoes.recipient, hnone]
      rfl
    obtain ⟨hdb, hnext⟩ := CallSystem.query_of_fire hfire (by rw [hlocal]; rfl) rfl
    exact Or.inl ⟨hdb, hnext ▸ ⟨hgoes, hstatus, hfirst⟩⟩
  | submitNumbered call freshStatus quoteVersion =>
    obtain ⟨hgoes, hstatus, rfl⟩ := hl
    obtain ⟨db', htx, hquotes⟩ := exists_submitQuoteTx h hgoes 1 hstatus hunquoted hid
    have hsafe : conflictOnDuplicate
        "A quote submission for this RFQ is already being processed — retry once it completes."
        (submitQuoteTx env d call freshStatus 1) c.shared.db = .ok (newQuote d call 1, db') :=
      runUniqueConstraintSafe_eq_ok_iff.2 htx
    have hbody := Tx.map_eq_ok (f := fun quote ↦ Local.returned (.submitted quote)).2 ⟨_, hsafe, rfl⟩
    obtain ⟨hdb, hnext⟩ := CallSystem.commit_of_fire hfire (by rw [hlocal]; rfl) hbody
    obtain ⟨hrfq, hopportunity⟩ := submitQuoteTx_eq_ok htx
    cases hrfq with
    | submitted hsubmitted =>
      have haccepting := h.submitted hsubmitted hopportunity.ids
      rw [hgoes.recipient, if_pos ⟨rfl, hstate⟩] at haccepting
      exact Or.inr ⟨_, hdb ▸ hquotes, rfl, hnext, hdb ▸ haccepting⟩
  | _ => exact hl.elim

end

/-! ### A turn -/

section

variable {env : Env} {rfqId providerOrgId : Uuid} {recipient : RFQRecipient} {rival : Pid → Prop}
  {p q : Pid} {t : Tick Draws} {c₀ c c' : Config Pid} {steps : List (Pid × Tick Draws)}

/-- What a turn that began at `c₀` leaves alone: the rivals are rivals, the other calls rest, and the
quotes that were there are there. -/
structure Turn (providerOrgId recipientId : Uuid) (rival : Pid → Prop) (p : Pid) (c₀ c : Config Pid) :
    Prop where
  rivals : ∀ q, rival q → Elsewhere providerOrgId recipientId (c.locals q)
  resting : ∀ q, q ≠ p → ¬ rival q → c.locals q = c₀.locals q
  quotes : ∀ quote ∈ c₀.shared.db.quotes, quote ∈ c.shared.db.quotes

omit [DecidableEq Pid] in
theorem Turn.start (h : ∀ q, rival q → Elsewhere providerOrgId recipient.id (c.locals q)) :
    Turn providerOrgId recipient.id rival p c c :=
  ⟨h, fun _ _ _ ↦ rfl, fun _ hq ↦ hq⟩

theorem Turn.own (h : Turn providerOrgId recipient.id rival p c₀ c) (hp : ¬ rival p)
    (hfire : ((calls env).system Pid).fire c p t = some c')
    (hquotes : ∀ quote ∈ c.shared.db.quotes, quote ∈ c'.shared.db.quotes) :
    Turn providerOrgId recipient.id rival p c₀ c' where
  rivals q hq := by
    rw [PartySystem.locals_of_fire hfire fun hqp ↦ hp (hqp ▸ hq)]
    exact h.rivals q hq
  resting q hqp hq := (PartySystem.locals_of_fire hfire hqp).trans (h.resting q hqp hq)
  quotes quote hquote := hquotes quote (h.quotes quote hquote)

theorem Turn.other (h : Turn providerOrgId recipient.id rival p c₀ c)
    (haccepting : Accepting rfqId providerOrgId recipient c.shared.db) (hq : rival q)
    (hfire : ((calls env).system Pid).fire c q t = some c') :
    Turn providerOrgId recipient.id rival p c₀ c' ∧
      Undisturbed rfqId providerOrgId recipient c.shared.db c'.shared.db := by
  obtain ⟨hrival, hundisturbed⟩ := haccepting.rival_step (h.rivals q hq) hfire
  refine ⟨⟨fun r hr ↦ ?_, fun r hrp hr ↦ ?_, fun quote hquote ↦ ?_⟩, hundisturbed⟩
  · by_cases hrq : r = q
    · exact hrq ▸ hrival
    · rw [PartySystem.locals_of_fire hfire hrq]
      exact h.rivals r hr
  · have hrq : r ≠ q := by
      rintro rfl
      exact hr hq
    rw [PartySystem.locals_of_fire hfire hrq]
    exact h.resting r hrp hr
  · exact hundisturbed.quotes quote (h.quotes quote hquote)

theorem Unchecked.congr {db db' : Db} {l : Local}
    (hids : db'.opportunities.map (·.id) = db.opportunities.map (·.id))
    (h : Unchecked env rfqId providerOrgId db l) : Unchecked env rfqId providerOrgId db' l := by
  unfold Unchecked at h ⊢
  rwa [hids]

theorem GoesOn.congr {db db' : Db} {call : SubmitCall}
    (hids : db'.opportunities.map (·.id) = db.opportunities.map (·.id))
    (h : GoesOn env rfqId recipient db call) : GoesOn env rfqId recipient db' call :=
  ⟨h.rfqId, hids ▸ h.opportunity, h.recipient, h.terms⟩

theorem Checked.congr {db db' : Db} {l : Local}
    (hids : db'.opportunities.map (·.id) = db.opportunities.map (·.id))
    (h : Checked env rfqId recipient db l) : Checked env rfqId recipient db' l := by
  cases l with
  | submitReady | submitLocked => exact GoesOn.congr hids h
  | submitFresh | submitNumbered => exact ⟨h.1.congr hids, h.2⟩
  | _ => exact h.elim

/-- The first submission of a recipient: under way, or answered. -/
inductive Attempt (env : Env) (rfqId providerOrgId : Uuid) (recipient : RFQRecipient) (db : Db)
    (l : Local) : Prop
  | underWay : Accepting rfqId providerOrgId recipient db →
      (∀ q ∈ db.quotes, q.rfqRecipientId ≠ recipient.id) →
      (Unchecked env rfqId providerOrgId db l ∨ Checked env rfqId recipient db l) →
      Attempt env rfqId providerOrgId recipient db l
  | answered {quote} : Accepting rfqId providerOrgId
        (RfqRecipientRepository.setState .quoted none recipient) db →
      quote ∈ db.quotes → quote.quoteVersion = 1 → l = .returned (.submitted quote) →
      Attempt env rfqId providerOrgId recipient db l

/-- **One step of a recipient's first turn.** -/
theorem Attempt.step (hedge : .quoted ∈ rfqRecipientTransitions recipient.state) (hp : ¬ rival p)
    (h : Turn providerOrgId recipient.id rival p c₀ c ∧
      Attempt env rfqId providerOrgId recipient c.shared.db (c.locals p))
    (hfire : ((calls env).system Pid).fire c q t = some c') (hturn : InTurn rival p c q t c') :
    Turn providerOrgId recipient.id rival p c₀ c' ∧
      Attempt env rfqId providerOrgId recipient c'.shared.db (c'.locals p) := by
  obtain ⟨hleft, hattempt⟩ := h
  by_cases hqp : q = p
  · subst hqp
    obtain ⟨d, rfl, hid⟩ := hturn.1 rfl
    cases hattempt with
    | underWay haccepting hunquoted hl =>
      rcases hl with hl | hl
      · obtain ⟨f, hnext, ⟨l', hf, hl'⟩ | ⟨hno, -⟩⟩ := haccepting.unchecked_step (d := d) hl
        · obtain ⟨hdb, hlocal⟩ := CallSystem.query_of_fire hfire hnext hf
          refine ⟨hleft.own hp hfire (by rw [hdb]; exact fun _ hq ↦ hq), ?_⟩
          rw [hdb, hlocal]
          exact .underWay haccepting hunquoted (hl'.imp_right And.right)
        · exact absurd hedge hno
      · have hstate : recipient.state ≠ .quoted := by
          intro hquoted
          rw [hquoted] at hedge
          revert hedge
          decide
        rcases haccepting.checked_step hl hstate hunquoted hid hfire with
          ⟨hdb, hl'⟩ | ⟨quote, hquotes, hversion, hlocal, haccepting'⟩
        · refine ⟨hleft.own hp hfire (by rw [hdb]; exact fun _ hq ↦ hq), ?_⟩
          rw [hdb]
          exact .underWay haccepting hunquoted (Or.inr hl')
        · refine ⟨hleft.own hp hfire fun q hq ↦ hquotes ▸ List.mem_append_left _ hq, ?_⟩
          exact .answered haccepting' (hquotes ▸ List.mem_append_right _ List.mem_cons_self) hversion
            hlocal
    | answered _ _ _ hlocal =>
      refine absurd hfire (CallSystem.not_fire_of_stop (fun _ ↦ ?_) ?_) <;> rw [hlocal] <;> rfl
  · have hother := PartySystem.locals_of_fire hfire (Ne.symm hqp)
    rw [hother]
    cases hattempt with
    | underWay haccepting hunquoted hl =>
      obtain ⟨hturn', hundisturbed⟩ := hleft.other haccepting (hturn.2 hqp) hfire
      exact ⟨hturn', .underWay hundisturbed.accepting (hundisturbed.unquoted hunquoted)
        (hl.imp (Unchecked.congr hundisturbed.opportunities)
          (Checked.congr hundisturbed.opportunities))⟩
    | answered haccepting hquote hversion hlocal =>
      have hleft' : Turn providerOrgId (RfqRecipientRepository.setState .quoted none recipient).id rival
        p c₀ c := hleft
      obtain ⟨hturn', hundisturbed⟩ := hleft'.other haccepting (hturn.2 hqp) hfire
      exact ⟨hturn', .answered hundisturbed.accepting (hundisturbed.quotes _ hquote) hversion hlocal⟩

/-- A submission that a recipient without an edge to `QUOTED` makes: under way, or turned away. -/
structure TurnedAway (env : Env) (rfqId providerOrgId : Uuid) (recipient : RFQRecipient) (db : Db)
    (l : Local) : Prop where
  accepting : Accepting rfqId providerOrgId recipient db
  own : Unchecked env rfqId providerOrgId db l ∨ ∃ e, l = .threw e

/-- **One step of a turn of a recipient that has quoted.** -/
theorem TurnedAway.step (hedge : .quoted ∉ rfqRecipientTransitions recipient.state) (hp : ¬ rival p)
    (h : Turn providerOrgId recipient.id rival p c₀ c ∧
      TurnedAway env rfqId providerOrgId recipient c.shared.db (c.locals p))
    (hfire : ((calls env).system Pid).fire c q t = some c') (hturn : InTurn rival p c q t c') :
    Turn providerOrgId recipient.id rival p c₀ c' ∧
      TurnedAway env rfqId providerOrgId recipient c'.shared.db (c'.locals p) := by
  obtain ⟨hleft, haccepting, hl⟩ := h
  by_cases hqp : q = p
  · subst hqp
    obtain ⟨d, rfl, -⟩ := hturn.1 rfl
    rcases hl with hl | ⟨e, hlocal⟩
    · obtain ⟨f, hnext, ⟨l', hf, hl'⟩ | ⟨-, e, he⟩⟩ := haccepting.unchecked_step (d := d) hl
      · obtain ⟨hdb, hlocal⟩ := CallSystem.query_of_fire hfire hnext hf
        refine ⟨hleft.own hp hfire (by rw [hdb]; exact fun _ hq ↦ hq), ?_, ?_⟩
        · rwa [hdb]
        · rw [hdb, hlocal]
          exact Or.inl (hl'.resolve_right fun hchecked ↦ hedge hchecked.1)
      · obtain ⟨hdb, hlocal⟩ := CallSystem.throw_of_fire hfire hnext he
        refine ⟨hleft.own hp hfire (by rw [hdb]; exact fun _ hq ↦ hq), ?_, Or.inr ⟨e, hlocal⟩⟩
        rwa [hdb]
    · refine absurd hfire (CallSystem.not_fire_of_stop (fun _ ↦ ?_) ?_) <;> rw [hlocal] <;> rfl
  · obtain ⟨hturn', hundisturbed⟩ := hleft.other haccepting (hturn.2 hqp) hfire
    rw [PartySystem.locals_of_fire hfire (Ne.symm hqp)]
    exact ⟨hturn', hundisturbed.accepting, hl.imp_left (Unchecked.congr hundisturbed.opportunities)⟩

/-- A recipient that the first submission succeeds for. -/
theorem quoted_mem_iff {state : RfqRecipientState} :
    .quoted ∈ rfqRecipientTransitions state ↔ state = .invited ∨ state = .acknowledged := by
  cases state <;> decide

/-- A recipient's first turn ends with its first quote. -/
theorem Attempt.run (hedge : .quoted ∈ rfqRecipientTransitions recipient.state) (hp : ¬ rival p)
    (hleft : ∀ q, rival q → Elsewhere providerOrgId recipient.id (c.locals q))
    (h : Attempt env rfqId providerOrgId recipient c.shared.db (c.locals p))
    (hturns : ((calls env).system Pid).Along (InTurn rival p) c steps)
    (hrun : ((calls env).system Pid).run c steps = some c')
    (hended : (calls env).ended (c'.locals p) = true) :
    Turn providerOrgId recipient.id rival p c c' ∧
      Accepting rfqId providerOrgId (RfqRecipientRepository.setState .quoted none recipient)
        c'.shared.db ∧
      ∃ quote ∈ c'.shared.db.quotes, quote.quoteVersion = 1 ∧
        c'.locals p = .returned (.submitted quote) := by
  obtain ⟨hleft', hattempt⟩ := PartySystem.Along.inv (I := fun c₁ ↦
    Turn providerOrgId recipient.id rival p c c₁ ∧
      Attempt env rfqId providerOrgId recipient c₁.shared.db (c₁.locals p))
    (fun h hfire hturn ↦ Attempt.step hedge hp h hfire hturn) ⟨.start hleft, h⟩ hturns hrun
  cases hattempt with
  | underWay _ _ hl =>
    exfalso
    generalize c'.locals p = l at hended hl
    cases l with
    | returned | threw | finished | crashed => exact hl.elim id id
    | _ => cases hended
  | answered haccepting hquote hversion hlocal =>
    exact ⟨hleft', haccepting, _, hquote, hversion, hlocal⟩

/-- A turn of a recipient that has quoted ends without a quote. -/
theorem TurnedAway.run (hedge : .quoted ∉ rfqRecipientTransitions recipient.state) (hp : ¬ rival p)
    (hleft : ∀ q, rival q → Elsewhere providerOrgId recipient.id (c.locals q))
    (h : TurnedAway env rfqId providerOrgId recipient c.shared.db (c.locals p))
    (hturns : ((calls env).system Pid).Along (InTurn rival p) c steps)
    (hrun : ((calls env).system Pid).run c steps = some c') (quote : Quote) :
    c'.locals p ≠ .returned (.submitted quote) := by
  obtain ⟨-, -, hl⟩ := PartySystem.Along.inv (I := fun c₁ ↦
    Turn providerOrgId recipient.id rival p c c₁ ∧
      TurnedAway env rfqId providerOrgId recipient c₁.shared.db (c₁.locals p))
    (fun h hfire hturn ↦ TurnedAway.step hedge hp h hfire hturn) ⟨.start hleft, h⟩ hturns hrun
  intro hreturned
  rw [hreturned] at hl
  rcases hl with hl | ⟨e, he⟩
  · exact hl
  · cases he

/-- **When re-quoting works**: one submission does, of a recipient that has not quoted. -/
theorem requoted_iff {turns : List (Pid × List (Pid × Tick Draws))}
    (h : TurnsStart env rfqId providerOrgId recipient rival turns c)
    (hturns : Successive env rival c turns) (hne : turns ≠ []) :
    Requoted env 1 c turns ↔
      turns.length = 1 ∧ (recipient.state = .invited ∨ recipient.state = .acknowledged) := by
  obtain ⟨⟨p, steps⟩, rest, rfl⟩ := List.exists_cons_of_ne_nil hne
  obtain ⟨halong, c', hrun, hended, hrest⟩ := hturns
  obtain ⟨hp, actor, context, input, hlocal, hmay⟩ := h.own _ List.mem_cons_self
  have hcalled : Unchecked env rfqId providerOrgId c.shared.db (c.locals p) := by
    rw [hlocal]
    exact ⟨rfl, hmay⟩
  by_cases hedge : .quoted ∈ rfqRecipientTransitions recipient.state
  · have hstate := quoted_mem_iff.1 hedge
    have hunquoted : recipient.state ≠ .quoted := by
      rcases hstate with hstate | hstate <;> rw [hstate] <;> decide
    obtain ⟨hleft, haccepting, quote, hquote, hversion, hreturned⟩ := Attempt.run hedge hp h.rivals
      (.underWay h.accepting (h.unquoted hunquoted) (Or.inl hcalled)) halong hrun hended
    constructor
    · intro hrequoted
      obtain ⟨-, -, hrequoted⟩ := hrequoted c' hrun
      rcases rest with - | ⟨⟨p₂, steps₂⟩, rest⟩
      · exact ⟨rfl, hstate⟩
      · -- the second call has waited; the recipient is `QUOTED` now
        exfalso
        obtain ⟨halong₂, c₂, hrun₂, -, -⟩ := hrest
        obtain ⟨⟨quote₂, -, -, hreturned₂⟩, -, -⟩ := hrequoted c₂ hrun₂
        obtain ⟨hp₂, actor₂, context₂, input₂, hlocal₂, hmay₂⟩ :=
          h.own (p₂, steps₂) (List.mem_cons_of_mem _ List.mem_cons_self)
        have hne₂ : p₂ ≠ p := fun heq ↦
          (List.nodup_cons.1 h.distinct).1 (heq ▸ List.mem_cons_self)
        have hcalled₂ : Unchecked env rfqId providerOrgId c'.shared.db (c'.locals p₂) := by
          rw [hleft.resting p₂ hne₂ hp₂, hlocal₂]
          exact ⟨rfl, hmay₂⟩
        have hno : .quoted ∉ rfqRecipientTransitions
            (RfqRecipientRepository.setState .quoted none recipient).state :=
          (by decide : .quoted ∉ rfqRecipientTransitions .quoted)
        exact TurnedAway.run hno hp₂ hleft.rivals ⟨haccepting, Or.inl hcalled₂⟩ halong₂ hrun₂ quote₂
          hreturned₂
    · rintro ⟨hone, -⟩
      obtain rfl := List.length_eq_zero_iff.1 (Nat.succ.inj hone)
      intro c₁ hrun₁
      obtain rfl := Option.some.inj (hrun.symm.trans hrun₁)
      exact ⟨⟨quote, hquote, hversion, hreturned⟩, hleft.quotes, trivial⟩
  · refine ⟨fun hrequoted ↦ ?_, fun hone ↦ absurd (quoted_mem_iff.2 hone.2) hedge⟩
    obtain ⟨⟨quote, -, -, hreturned⟩, -, -⟩ := hrequoted c' hrun
    exact absurd hreturned (TurnedAway.run hedge hp h.rivals ⟨h.accepting, Or.inl hcalled⟩ halong hrun
      quote)

end

/-! ### A second quote -/

/-- A turn in which only its own call moves, with a draw that stays new. -/
theorem along_inTurn_of_test {env : Env} {rival : Pid → Prop} {p : Pid} {d : Draws} {n : ℕ}
    {c : Config Pid}
    (h : ((calls env).system Pid).testAlong (fun c _ ↦ d.ids 0 ∉ c.shared.db.quotes.map (·.id)) c
      (List.replicate n (p, .act d)) = true) :
    ((calls env).system Pid).Along (InTurn rival p) c (List.replicate n (p, .act d)) := by
  induction n generalizing c with
  | zero => trivial
  | succ n ih =>
    intro c' hfire
    obtain ⟨hnew, hrest⟩ := Bool.and_eq_true_iff.1 h
    rw [hfire] at hrest
    exact ⟨⟨fun _ ↦ ⟨d, rfl, of_decide_eq_true hnew⟩, fun hne ↦ absurd rfl hne⟩, ih hrest⟩

namespace Sample

/-- The same provider quotes twice. -/
def twice : Config ℕ where
  shared := ⟨invited, .free⟩
  locals p := .called (provider p) context (.submitQuote "r1" ⟨"EUR", 900, ""⟩)

def firstTurn : List (ℕ × Tick Draws) := List.replicate 7 (0, .act ⟨fun n ↦ s!"a{n}", 500⟩)

def secondTurn : List (ℕ × Tick Draws) := List.replicate 3 (1, .act ⟨fun n ↦ s!"b{n}", 501⟩)

def invitedRow : RFQRecipient := { id := "rec1", rfqId := "r1", providerOrgId := "acquirer" }

theorem turnsStart_twice : TurnsStart env "r1" "acquirer" invitedRow (fun _ ↦ False)
    [(0, firstTurn), (1, secondTurn)] twice where
  accepting := ⟨by decide, by decide, _, rfl, by decide, by decide⟩
  open_ := by decide
  unquoted _ := by decide
  own turn _ := by
    refine ⟨id, _, _, _, rfl, ?_, fun ownerOrgId ↦ ?_, rfl⟩
    · cases turn.1 <;> rfl
    · cases turn.1 <;> rfl
  distinct := by decide
  rivals _ := False.elim

/-- After the first turn the second call is turned away. -/
theorem refused : (((calls env).system ℕ).run twice firstTurn).any (fun c₁ ↦
    (calls env).ended (c₁.locals 0) = true ∧
      ((calls env).system ℕ).testAlong (fun c _ ↦ "b0" ∉ c.shared.db.quotes.map (·.id)) c₁
        secondTurn = true ∧
      (((calls env).system ℕ).run c₁ secondTurn).any (fun c₂ ↦
        (calls env).ended (c₂.locals 1) = true ∧
          ∀ quote ∈ c₂.shared.db.quotes, c₂.locals 1 ≠ .returned (.submitted quote)) = true) = true := by
  decide +kernel

theorem successive_twice :
    Successive env (fun _ ↦ False) twice [(0, firstTurn), (1, secondTurn)] := by
  obtain ⟨c₁, hrun₁, hended₁, htest, h₂⟩ := PartySystem.exists_run_of_test refused
  obtain ⟨c₂, hrun₂, hended₂, -⟩ := PartySystem.exists_run_of_test h₂
  have hfirst : ((calls env).system ℕ).testAlong
      (fun c _ ↦ "a0" ∉ c.shared.db.quotes.map (·.id)) twice firstTurn = true := by
    decide +kernel
  exact ⟨along_inTurn_of_test (d := ⟨fun n ↦ s!"a{n}", 500⟩) hfirst, c₁, hrun₁, hended₁,
    along_inTurn_of_test (d := ⟨fun n ↦ s!"b{n}", 501⟩) htest, c₂, hrun₂, hended₂, trivial⟩

/-- A provider that is invited quotes, and cannot amend its quote. -/
theorem amendment_refused : invitedRow.state = .invited ∧
    TurnsStart env "r1" "acquirer" invitedRow (fun _ ↦ False) [(0, firstTurn), (1, secondTurn)] twice ∧
    Successive env (fun _ ↦ False) twice [(0, firstTurn), (1, secondTurn)] ∧
    ¬ Requoted env 1 twice [(0, firstTurn), (1, secondTurn)] := by
  refine ⟨rfl, turnsStart_twice, successive_twice, fun hrequoted ↦ ?_⟩
  obtain ⟨c₁, hrun₁, -, -, h₂⟩ := PartySystem.exists_run_of_test refused
  obtain ⟨c₂, hrun₂, -, hno⟩ := PartySystem.exists_run_of_test h₂
  obtain ⟨-, -, hrequoted⟩ := hrequoted c₁ hrun₁
  obtain ⟨⟨quote, hquote, -, hreturned⟩, -, -⟩ := hrequoted c₂ hrun₂
  exact hno quote hquote hreturned

theorem requoted_iff_twice : Requoted env 1 twice [(0, firstTurn), (1, secondTurn)] ↔
    [(0, firstTurn), (1, secondTurn)].length = 1 ∧
      (invitedRow.state = .invited ∨ invitedRow.state = .acknowledged) :=
  requoted_iff turnsStart_twice successive_twice (List.cons_ne_nil _ _)

end Sample

end TolPlatform.Rfqs
