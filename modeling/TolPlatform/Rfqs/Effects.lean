import TolPlatform.Library.Evolution
import TolPlatform.Rfqs.Service

/-!
# What the RFQ calls write

One structure per transaction, and `Wrote`, their union: whatever commits is in it (`wrote_of_commit`),
and no later proof opens a transaction again.
-/

namespace TolPlatform.Rfqs

/-! ### Opportunities -/

/-- The opportunity `UPDATE` of a commit, if it has one: the row that the call has read, and the status
it is set to. -/
def opportunityWrite : Local → Option (Opportunity × OpportunityStatus)
  | .createReady call =>
    if call.opportunity.status = .matchReady then some (call.opportunity, .invited) else none
  | .submitNumbered call _ _ =>
    if call.opportunity.status = .invited then some (call.opportunity, .quoted) else none
  | .selectFresh call _ => some (call.opportunity, .selected)
  | _ => none

/-- The `UPDATE`, and its record: over the status that is there. -/
structure OpportunitySet (id : Uuid) (status : OpportunityStatus) (db db' : Db) : Prop where
  rows_eq : db'.opportunities =
    Rows.rewrite Opportunity.id id (OpportunityRepository.setStatus status) db.opportunities
  updates_eq : ∃ o ∈ db.opportunities, o.id = id ∧
    db'.opportunityUpdates = db.opportunityUpdates ++ [⟨id, o.status, status⟩]

structure OpportunityKept (db db' : Db) : Prop where
  rows_eq : db'.opportunities = db.opportunities
  updates_eq : db'.opportunityUpdates = db.opportunityUpdates

/-- What becomes of the opportunities. -/
def OpportunityWritten (db db' : Db) : Option (Opportunity × OpportunityStatus) → Prop
  | none => OpportunityKept db db'
  | some (o, status) => OpportunitySet o.id status db db'

/-! ### Transactions -/

/-- A new RFQ and its recipients. -/
structure Created (db db' : Db) (call : CreateCall) (rfq : RFQ) (recipients : List RFQRecipient) :
    Prop where
  rfqFresh : rfq.id ∉ db.rfqs.map (·.id)
  rfqs_eq : db'.rfqs = db.rfqs ++ [rfq]
  opportunityId : rfq.opportunityId = call.opportunity.id
  recipientsFresh : ∀ r ∈ recipients, r.id ∉ db.rfqRecipients.map (·.id)
  recipientsNodup : (recipients.map (·.id)).Nodup
  recipientsInvited : ∀ r ∈ recipients, r.state = .invited
  recipients_eq : db'.rfqRecipients = db.rfqRecipients ++ recipients
  quotes_eq : db'.quotes = db.quotes
  dealRooms_eq : db'.dealRooms = db.dealRooms

structure Declined (db db' : Db) (call : DeclineCall) : Prop where
  recipients_eq : db'.rfqRecipients = Rows.rewrite RFQRecipient.id call.recipient.id
    (RfqRecipientRepository.setState .declined (some call.input.declineReason)) db.rfqRecipients
  rfqs_eq : db'.rfqs = db.rfqs
  quotes_eq : db'.quotes = db.quotes
  dealRooms_eq : db'.dealRooms = db.dealRooms

/-- A new quote; the recipient and the RFQ are `QUOTED` unless they were when they were read. -/
structure Submitted (db db' : Db) (call : SubmitCall) (freshStatus : RfqStatus) (quote : Quote) :
    Prop where
  quoteFresh : quote.id ∉ db.quotes.map (·.id)
  quotes_eq : db'.quotes = db.quotes ++ [quote]
  rfqId : quote.rfqId = call.rfq.id
  rfqRecipientId : quote.rfqRecipientId = call.recipient.id
  status : quote.status = .submitted
  recipients_eq : db'.rfqRecipients = if call.recipient.state = .quoted then db.rfqRecipients else
    Rows.rewrite RFQRecipient.id call.recipient.id (RfqRecipientRepository.setState .quoted none)
      db.rfqRecipients
  edge : freshStatus ≠ .quoted → .quoted ∈ rfqTransitions freshStatus
  rfqs_eq : db'.rfqs = if freshStatus = .quoted then db.rfqs else
    Rows.rewrite RFQ.id call.rfq.id (RfqRepository.setStatus .quoted) db.rfqs
  dealRooms_eq : db'.dealRooms = db.dealRooms

structure Withdrew (db db' : Db) (call : WithdrawCall) : Prop where
  quotes_eq : db'.quotes =
    Rows.rewrite Quote.id call.quote.id (QuoteRepository.setStatus .withdrawn) db.quotes
  rfqs_eq : db'.rfqs = db.rfqs
  recipients_eq : db'.rfqRecipients = db.rfqRecipients
  dealRooms_eq : db'.dealRooms = db.dealRooms

/-- The quote and its RFQ are `SELECTED`, and there is a deal room. -/
structure Selected (db db' : Db) (call : SelectCall) (room : DealRoom) : Prop where
  quotes_eq : db'.quotes =
    Rows.rewrite Quote.id call.quote.id (QuoteRepository.setStatus .selected) db.quotes
  rfqs_eq : db'.rfqs = Rows.rewrite RFQ.id call.rfq.id (RfqRepository.setStatus .selected) db.rfqs
  recipients_eq : db'.rfqRecipients = db.rfqRecipients
  opportunityId : room.opportunityId = call.opportunity.id
  dealRooms_eq : db'.dealRooms = db.dealRooms ++ [room]

/-- The RFQ is `EXPIRED`, or nothing is written: there was nothing to expire, an earlier run has
answered, or the transaction is rolled back. -/
structure Expiring (db db' : Db) (run : ExpiryRun) (fromStatus : Option RfqStatus) : Prop where
  rfqs_eq : db'.rfqs = db.rfqs ∨ fromStatus ≠ none ∧
    db'.rfqs = Rows.rewrite RFQ.id run.rfqId (RfqRepository.setStatus .expired) db.rfqs
  quotes_eq : db'.quotes = db.quotes
  recipients_eq : db'.rfqRecipients = db.rfqRecipients
  dealRooms_eq : db'.dealRooms = db.dealRooms

/-- What the transaction of a local state writes, the opportunities apart. -/
inductive WroteRfq (db db' : Db) : Local → Prop
  | created {call rfq recipients} : Created db db' call rfq recipients →
      WroteRfq db db' (.createReady call)
  | declined {call} : Declined db db' call → WroteRfq db db' (.declineLocked call)
  | submitted {call freshStatus quoteVersion quote} : Submitted db db' call freshStatus quote →
      WroteRfq db db' (.submitNumbered call freshStatus quoteVersion)
  | withdrew {call} : Withdrew db db' call → WroteRfq db db' (.withdrawFresh call)
  | selected {call considered room} : Selected db db' call room →
      WroteRfq db db' (.selectFresh call considered)
  | expiring {run fromStatus} : Expiring db db' run fromStatus →
      WroteRfq db db' (.expiryFresh run fromStatus)

/-- What the transaction of a local state writes. -/
structure Wrote (db db' : Db) (l : Local) : Prop where
  rfq : WroteRfq db db' l
  opportunity : OpportunityWritten db db' (opportunityWrite l)

/-! ### Transactions have these effects -/

section

variable {db db' : Db}

theorem updateOpportunity_eq_ok {id : Uuid} {status : OpportunityStatus} {o : Opportunity}
    (h : OpportunityRepository.updateStatus id status db = .ok (o, db')) :
    ∃ old ∈ db.opportunities, old.id = id ∧ db' =
      { db with
        opportunities := Rows.rewrite Opportunity.id id (OpportunityRepository.setStatus status)
          db.opportunities
        opportunityUpdates := db.opportunityUpdates ++ [⟨id, old.status, status⟩] } := by
  rw [OpportunityRepository.updateStatus, Tx.get_bind_eq_ok, Tx.check_bind_eq_ok] at h
  obtain ⟨old, hold, h⟩ := h
  rw [Tx.modify_bind_eq_ok] at h
  obtain ⟨-, -, -, rfl⟩ := Table.update_eq_ok_iff.1 h
  have hfound : db.opportunities.find? (·.id = id) = some old := orThrow_eq_ok_iff.1 hold
  exact ⟨old, List.mem_of_find?_eq_some hfound, of_decide_eq_true (List.find?_some hfound :), rfl⟩

/-- The rest of the database does not depend on the opportunities. -/
theorem cascade_eq_ok {o : Opportunity} {src dst : OpportunityStatus} {u : PUnit}
    (h : cascade o src dst db = .ok (u, db')) :
    OpportunityWritten db db' (if o.status = src then some (o, dst) else none) ∧
      db'.rfqs = db.rfqs ∧ db'.rfqRecipients = db.rfqRecipients ∧ db'.quotes = db.quotes ∧
        db'.dealRooms = db.dealRooms := by
  unfold cascade at h
  split at h
  · next hstatus =>
    obtain ⟨_, -, h⟩ := Tx.check_bind_eq_ok.1 h
    obtain ⟨row, db₁, hupdate, h⟩ := Tx.bind_eq_ok.1 h
    obtain ⟨-, rfl⟩ := Prod.mk.inj (Tx.pure_eq_ok.1 h)
    obtain ⟨old, hold, hid, rfl⟩ := updateOpportunity_eq_ok hupdate
    rw [if_pos hstatus]
    exact ⟨⟨rfl, old, hold, hid, rfl⟩, rfl, rfl, rfl, rfl⟩
  · next hstatus =>
    obtain ⟨-, rfl⟩ := Prod.mk.inj (Tx.pure_eq_ok.1 h)
    rw [if_neg hstatus]
    exact ⟨⟨rfl, rfl⟩, rfl, rfl, rfl, rfl⟩

theorem OpportunityWritten.congr {db₁ db₁' : Db} {w : Option (Opportunity × OpportunityStatus)}
    (h : OpportunityWritten db db' w) (hrows : db₁.opportunities = db.opportunities)
    (hupdates : db₁.opportunityUpdates = db.opportunityUpdates)
    (hrows' : db₁'.opportunities = db'.opportunities)
    (hupdates' : db₁'.opportunityUpdates = db'.opportunityUpdates) :
    OpportunityWritten db₁ db₁' w := by
  cases w with
  | none => exact ⟨hrows'.trans (h.rows_eq.trans hrows.symm),
      hupdates'.trans (h.updates_eq.trans hupdates.symm)⟩
  | some w =>
    obtain ⟨hset, hlog⟩ := h
    exact ⟨by rw [hrows', hrows, hset], by rwa [hrows, hupdates', hupdates]⟩

theorem conflictOnDuplicate_eq_ok {α : Type} {message : String} {body : Tx Db Thrown α} {a : α}
    (h : conflictOnDuplicate message body db = .ok (a, db')) : body db = .ok (a, db') :=
  runUniqueConstraintSafe_eq_ok_iff.1 h

theorem createRecipient_eq_ok {rfqId id providerOrgId : Uuid} {row : RFQRecipient}
    (h : RfqRecipientRepository.create rfqId id providerOrgId db = .ok (row, db')) :
    row.state = .invited ∧ rfqRecipients.key row ∉ rfqRecipients.keys db ∧
      db' = rfqRecipients.put (rfqRecipients.rows db ++ [row]) db := by
  obtain ⟨_, -, h⟩ := Tx.check_bind_eq_ok.1 (Tx.get_bind_eq_ok.1 h)
  obtain ⟨hnew, rfl, rfl⟩ := Table.insert_eq_ok_iff.1 h
  exact ⟨rfl, hnew, rfl⟩

theorem createTx_eq_ok {env : Env} {d : Draws} {call : CreateCall} {detail : RfqDetail}
    (h : createTx env d call db = .ok (detail, db')) : Wrote db db' (.createReady call) := by
  obtain ⟨rfq, db₁, hrfq, h⟩ := Tx.bind_eq_ok.1 h
  obtain ⟨_, -, h⟩ := Tx.check_bind_eq_ok.1 h
  obtain ⟨version, db₂, hversion, h⟩ := Tx.bind_eq_ok.1 h
  obtain ⟨recipients, db₃, hrecipients, h⟩ := Tx.bind_eq_ok.1 h
  obtain ⟨_, db₄, hcascade, h⟩ := Tx.bind_eq_ok.1 h
  obtain ⟨-, rfl⟩ := Prod.mk.inj (Except.ok.inj h)
  obtain ⟨hfresh, rfl, rfl⟩ := Table.insert_eq_ok_iff.1 hrfq
  obtain ⟨-, -, rfl⟩ := Table.insert_eq_ok_iff.1 hversion
  obtain ⟨rfl, hinvited, hnodup, hnew⟩ := Table.insertEach_eq_ok (T := rfqRecipients)
    (R := fun _ r ↦ r.state = .invited) createRecipient_eq_ok hrecipients
  obtain ⟨hopportunity, hrfqs, hrows, hquotes, hrooms⟩ := cascade_eq_ok hcascade
  refine ⟨.created ⟨hfresh, hrfqs, rfl, hnew, hnodup, fun r hr ↦ ?_, hrows, hquotes, hrooms⟩,
    hopportunity.congr rfl rfl rfl rfl⟩
  obtain ⟨-, -, hstate⟩ := hinvited.exists_left hr
  exact hstate

theorem declineTx_eq_ok {call : DeclineCall} {row : RFQRecipient}
    (h : declineTx call db = .ok (row, db')) : Wrote db db' (.declineLocked call) := by
  obtain ⟨updated, db₁, hupdate, h⟩ := Tx.bind_eq_ok.1 h
  obtain ⟨-, rfl⟩ := Prod.mk.inj (Except.ok.inj h)
  obtain ⟨-, -, -, rfl⟩ := Table.update_eq_ok_iff.1 hupdate
  exact ⟨.declined ⟨rfl, rfl, rfl, rfl⟩, rfl, rfl⟩

theorem createQuote_eq_ok {guard : String → String → Except Thrown Unit} {row quote : Quote}
    (h : QuoteRepository.create guard row db = .ok (quote, db')) :
    row.id ∉ db.quotes.map (·.id) ∧ db' = { db with quotes := db.quotes ++ [row] } := by
  obtain ⟨_, -, h⟩ := Tx.check_bind_eq_ok.1 h
  obtain ⟨_, -, h⟩ := Tx.check_bind_eq_ok.1 (Tx.get_bind_eq_ok.1 h)
  obtain ⟨hnew, -, rfl⟩ := Table.insert_eq_ok_iff.1 h
  exact ⟨hnew, rfl⟩

theorem markRecipientQuoted_eq_ok {recipient : RFQRecipient} {u : PUnit}
    (h : markRecipientQuoted recipient db = .ok (u, db')) : db' =
      { db with
        rfqRecipients := if recipient.state = .quoted then db.rfqRecipients else
          Rows.rewrite RFQRecipient.id recipient.id (RfqRecipientRepository.setState .quoted none)
            db.rfqRecipients } := by
  unfold markRecipientQuoted at h
  split at h
  · next hstate =>
    obtain ⟨row, db₁, hupdate, h⟩ := Tx.bind_eq_ok.1 h
    obtain ⟨-, rfl⟩ := Prod.mk.inj (Tx.pure_eq_ok.1 h)
    obtain ⟨-, -, -, rfl⟩ := Table.update_eq_ok_iff.1 hupdate
    rw [if_neg hstate]
    rfl
  · next hstate =>
    obtain ⟨-, rfl⟩ := Prod.mk.inj (Tx.pure_eq_ok.1 h)
    rw [if_pos (not_not.1 hstate)]

theorem markRfqQuoted_eq_ok {rfqId : Uuid} {freshStatus : RfqStatus} {u : PUnit}
    (h : markRfqQuoted rfqId freshStatus db = .ok (u, db')) :
    (freshStatus ≠ .quoted → .quoted ∈ rfqTransitions freshStatus) ∧ db' =
      { db with
        rfqs := if freshStatus = .quoted then db.rfqs else
          Rows.rewrite RFQ.id rfqId (RfqRepository.setStatus .quoted) db.rfqs } := by
  unfold markRfqQuoted at h
  split at h
  · next hstatus =>
    obtain ⟨_, hedge, h⟩ := Tx.check_bind_eq_ok.1 h
    obtain ⟨row, db₁, hupdate, h⟩ := Tx.bind_eq_ok.1 h
    obtain ⟨-, rfl⟩ := Prod.mk.inj (Tx.pure_eq_ok.1 h)
    obtain ⟨-, -, -, rfl⟩ := Table.update_eq_ok_iff.1 hupdate
    rw [if_neg hstatus]
    exact ⟨fun _ ↦ not_not.1 (throwIf_eq_ok_iff.1 hedge), rfl⟩
  · next hstatus =>
    obtain ⟨-, rfl⟩ := Prod.mk.inj (Tx.pure_eq_ok.1 h)
    rw [if_pos (not_not.1 hstatus)]
    exact ⟨fun hne ↦ absurd (not_not.1 hstatus) hne, rfl⟩

theorem submitQuoteTx_eq_ok {env : Env} {d : Draws} {call : SubmitCall} {freshStatus : RfqStatus}
    {quoteVersion : ℕ} {quote : Quote}
    (h : submitQuoteTx env d call freshStatus quoteVersion db = .ok (quote, db')) :
    Wrote db db' (.submitNumbered call freshStatus quoteVersion) := by
  obtain ⟨created, db₁, hquote, h⟩ := Tx.bind_eq_ok.1 h
  obtain ⟨_, db₂, hrecipient, h⟩ := Tx.bind_eq_ok.1 h
  obtain ⟨_, db₃, hrfq, h⟩ := Tx.bind_eq_ok.1 h
  obtain ⟨_, db₄, hcascade, h⟩ := Tx.bind_eq_ok.1 h
  obtain ⟨-, rfl⟩ := Prod.mk.inj (Except.ok.inj h)
  obtain ⟨hfresh, rfl⟩ := createQuote_eq_ok hquote
  obtain rfl := markRecipientQuoted_eq_ok hrecipient
  obtain ⟨hedge, rfl⟩ := markRfqQuoted_eq_ok hrfq
  obtain ⟨hopportunity, hrfqs, hrows, hquotes, hrooms⟩ := cascade_eq_ok hcascade
  refine ⟨.submitted (?_ : Submitted _ _ _ _ (newQuote d call quoteVersion)),
    hopportunity.congr rfl rfl rfl rfl⟩
  exact ⟨hfresh, hquotes, rfl, rfl, rfl, hrows, hedge, hrfqs, hrooms⟩

theorem withdrawQuoteTx_eq_ok {call : WithdrawCall} {quote : Quote}
    (h : withdrawQuoteTx call db = .ok (quote, db')) : Wrote db db' (.withdrawFresh call) := by
  obtain ⟨updated, db₁, hupdate, h⟩ := Tx.bind_eq_ok.1 h
  obtain ⟨-, rfl⟩ := Prod.mk.inj (Except.ok.inj h)
  obtain ⟨-, -, -, rfl⟩ := Table.update_eq_ok_iff.1 hupdate
  exact ⟨.withdrew ⟨rfl, rfl, rfl, rfl⟩, rfl, rfl⟩

theorem createRoom_eq_ok {row room : DealRoom}
    (h : DealRoomRepository.create row db = .ok (room, db')) :
    room = row ∧ db' = { db with dealRooms := db.dealRooms ++ [row] } := by
  obtain ⟨_, -, h⟩ := Tx.check_bind_eq_ok.1 (Tx.get_bind_eq_ok.1 h)
  obtain ⟨-, rfl, rfl⟩ := Table.insert_eq_ok_iff.1 h
  exact ⟨rfl, rfl⟩

theorem createParticipant_eq_ok {row created : DealRoomParticipant}
    (h : DealRoomParticipantRepository.create row db = .ok (created, db')) :
    ∃ l, db' = { db with dealRoomParticipants := l } := by
  obtain ⟨_, -, h⟩ := Tx.check_bind_eq_ok.1 (Tx.get_bind_eq_ok.1 h)
  obtain ⟨-, -, rfl⟩ := Table.insert_eq_ok_iff.1 h
  exact ⟨_, rfl⟩

theorem selectQuoteTx_eq_ok {d : Draws} {call : SelectCall} {considered : List Uuid}
    {room : DealRoom} (h : selectQuoteTx d call considered db = .ok (room, db')) :
    Wrote db db' (.selectFresh call considered) := by
  obtain ⟨quote, db₁, hquote, h⟩ := Tx.bind_eq_ok.1 h
  obtain ⟨rfq, db₂, hrfq, h⟩ := Tx.bind_eq_ok.1 h
  obtain ⟨o, db₃, hopportunity, h⟩ := Tx.bind_eq_ok.1 h
  obtain ⟨row, db₄, hroom, h⟩ := Tx.bind_eq_ok.1 h
  obtain ⟨merchant, db₅, hmerchant, h⟩ := Tx.bind_eq_ok.1 h
  obtain ⟨provider, db₆, hprovider, h⟩ := Tx.bind_eq_ok.1 h
  obtain ⟨decision, db₇, hdecision, h⟩ := Tx.bind_eq_ok.1 h
  obtain ⟨-, rfl⟩ := Prod.mk.inj (Except.ok.inj h)
  obtain ⟨-, -, -, rfl⟩ := Table.update_eq_ok_iff.1 hquote
  obtain ⟨-, -, -, rfl⟩ := Table.update_eq_ok_iff.1 hrfq
  obtain ⟨old, hold, hid, rfl⟩ := updateOpportunity_eq_ok hopportunity
  obtain ⟨rfl, rfl⟩ := createRoom_eq_ok hroom
  obtain ⟨_, rfl⟩ := createParticipant_eq_ok hmerchant
  obtain ⟨_, rfl⟩ := createParticipant_eq_ok hprovider
  obtain ⟨-, -, rfl⟩ := Table.insert_eq_ok_iff.1 hdecision
  refine ⟨.selected (?_ : Selected _ _ _ (newRoom d call quote)), rfl, old, hold, hid, rfl⟩
  exact ⟨rfl, rfl, rfl, rfl, rfl⟩

theorem expire_eq_ok {env : Env} {run : ExpiryRun} {fromStatus : RfqStatus} {r : Expired}
    (h : expire env run fromStatus db = .ok (r, db')) : ∃ trails, db' =
      { db with
        rfqs := Rows.rewrite RFQ.id run.rfqId (RfqRepository.setStatus .expired) db.rfqs, trails } := by
  obtain ⟨_, -, h⟩ := Tx.check_bind_eq_ok.1 h
  obtain ⟨row, db₁, hupdate, h⟩ := Tx.bind_eq_ok.1 h
  obtain ⟨-, rfl⟩ := Prod.mk.inj (Except.ok.inj h)
  obtain ⟨-, -, -, rfl⟩ := Table.update_eq_ok_iff.1 hupdate
  exact ⟨_, rfl⟩

theorem expireOne_eq_ok {env : Env} {d : Draws} {run : ExpiryRun} {fromStatus : Option RfqStatus}
    {expired : Bool} (h : expireOne env d run fromStatus db = .ok (expired, db')) :
    Wrote db db' (.expiryFresh run fromStatus) := by
  cases fromStatus with
  | none =>
    obtain ⟨-, rfl⟩ := Prod.mk.inj (Tx.pure_eq_ok.1 h)
    exact ⟨.expiring ⟨.inl rfl, rfl, rfl, rfl⟩, rfl, rfl⟩
  | some fromStatus =>
    obtain ⟨result, db₁, hran, h⟩ := Tx.bind_eq_ok.1 h
    obtain ⟨-, rfl⟩ := Prod.mk.inj (Tx.pure_eq_ok.1 h)
    cases Jobs.inTransaction_eq_ok rfl hran with
    | cached | aborted => exact ⟨.expiring ⟨.inl rfl, rfl, rfl, rfl⟩, rfl, rfl⟩
    | recorded _ hhandler =>
      obtain ⟨_, rfl⟩ := expire_eq_ok hhandler
      exact ⟨.expiring ⟨.inr ⟨by simp, rfl⟩, rfl, rfl, rfl⟩, rfl, rfl⟩

/-- **Whatever commits is a `Wrote`.** -/
theorem wrote_of_commit {env : Env} {d : Draws} {l l' : Local} {body : Tx Db Thrown Local}
    (hnext : (calls env).next d l = .commit body) (hbody : body db = .ok (l', db')) :
    Wrote db db' l := by
  cases l with
  | createReady call =>
    obtain rfl := NextStep.commit.inj hnext
    obtain ⟨detail, hdetail, -⟩ := Tx.map_eq_ok.1 hbody
    exact createTx_eq_ok hdetail
  | declineLocked call =>
    obtain rfl := NextStep.commit.inj hnext
    obtain ⟨row, hrow, -⟩ := Tx.map_eq_ok.1 hbody
    exact declineTx_eq_ok hrow
  | submitNumbered call freshStatus quoteVersion =>
    obtain rfl := NextStep.commit.inj hnext
    obtain ⟨quote, hquote, -⟩ := Tx.map_eq_ok.1 hbody
    exact submitQuoteTx_eq_ok (conflictOnDuplicate_eq_ok hquote)
  | withdrawFresh call =>
    obtain rfl := NextStep.commit.inj hnext
    obtain ⟨quote, hquote, -⟩ := Tx.map_eq_ok.1 hbody
    exact withdrawQuoteTx_eq_ok hquote
  | selectFresh call considered =>
    obtain rfl := NextStep.commit.inj hnext
    obtain ⟨room, hroom, -⟩ := Tx.map_eq_ok.1 hbody
    exact selectQuoteTx_eq_ok (conflictOnDuplicate_eq_ok hroom)
  | expiryFresh run fromStatus =>
    obtain rfl := NextStep.commit.inj hnext
    obtain ⟨expired, hexpired, -⟩ := Tx.map_eq_ok.1 hbody
    exact expireOne_eq_ok hexpired
  | _ => cases hnext

end

end TolPlatform.Rfqs
