import TolPlatform.Library.Grouping
import TolPlatform.Rfqs.Lifecycle
import TolPlatform.Shared.AuditTrail

/-!
# The audit trail of RFQs

A request on an RFQ writes its audit event in the transaction that does what it was asked, and the expiry
job writes one for each RFQ that it expires. So, whatever interleaves, the audit trail is what the callers
have been answered, in the order of the commits: nobody is answered without an event, and a call that throws
or crashes leaves none (`auditTrail_of_run`). And since every status that an RFQ gets is told by an event of
the same transaction, the last one about an RFQ tells its status (`status_of_auditTrail`), a quote's event
that it is `QUOTED` even when it has been before.
-/

namespace TolPlatform.Rfqs

/-! ### What is seen of a step -/

def onRfq (call : RfqCall) (action : String) : AuditEntry :=
  .byActor call.actor call.context call.opportunity.ownerOrgId action "rfq" call.rfq.id

def statusOf (db : Db) (rfqId : Uuid) : Option RfqStatus :=
  (RfqRepository.findById db rfqId).map (·.status)

/-- An RFQ that was not `EXPIRED` is now. -/
def expiredNow (db db' : Db) (rfqId : Uuid) : Option AuditEntry :=
  if statusOf db rfqId ≠ some .expired ∧ statusOf db' rfqId = some .expired then
    some (.byWorker "rfq.expired" "rfq" rfqId)
  else none

/-- What a step shows: a request that is answered, or an RFQ that a job has expired. -/
def shown (db db' : Db) : Local → Local → Option AuditEntry
  | .createReady call, .returned (.created detail) =>
    some (.byActor call.actor call.context call.opportunity.ownerOrgId "rfq.created" "rfq" detail.rfq.id)
  | .declineLocked call, .returned (.declined _) => some (onRfq call.toRfqCall "rfq.declined")
  | .submitNumbered call _ _, .returned (.submitted _) => some (onRfq call.toRfqCall "quote.submitted")
  | .withdrawFresh call, .returned (.withdrew _) => some (onRfq call.toRfqCall "quote.withdrawn")
  | .selectFresh call _, .returned (.selected _) => some (onRfq call.toRfqCall "rfq.quote_selected")
  | .expiryFresh run _, _ => expiredNow db db' run.rfqId
  | _, _ => none

def seen {Pid : Type} (c : Config Pid) (p : Pid) (c' : Config Pid) : Option AuditEntry :=
  shown c.shared.db c'.shared.db (c.locals p) (c'.locals p)

/-- The status that an event tells, and the RFQ that has it. -/
def toldStatus (e : AuditEntry) : Option (Uuid × RfqStatus) :=
  e.resourceId.bind fun rfqId ↦
    if e.action = "rfq.created" then some (rfqId, .sent)
    else if e.action = "quote.submitted" then some (rfqId, .quoted)
    else if e.action = "rfq.quote_selected" then some (rfqId, .selected)
    else if e.action = "rfq.expired" then some (rfqId, .expired)
    else none

/-! ### What the transactions append -/

def trailOf (db : Db) : List AuditEntry := db.trails.auditTrail

section

variable {γ : Type} {column : Db → γ}

theorem record_appends {f : Trails → Trails} {new : List AuditEntry}
    (h : ∀ t, (f t).auditTrail = t.auditTrail ++ new) : Tx.Appends trailOf (record f) fun _ ↦ new :=
  Tx.appends_modify fun db ↦ h db.trails

theorem record_keeps (h : ∀ (t : Trails) db, column { db with trails := t } = column db)
    (f : Trails → Trails) : Tx.Keeps column (record f) :=
  Tx.keeps_modify fun _ ↦ h _ _

theorem updateOpportunity_keeps
    (h : ∀ (l : List Opportunity) (u : List OpportunityUpdate) db,
      column { db with opportunities := l, opportunityUpdates := u } = column db)
    (id : Uuid) (status : OpportunityStatus) :
    Tx.Keeps column (OpportunityRepository.updateStatus id status) := by
  intro db o db' hok
  obtain ⟨old, -, -, rfl⟩ := updateOpportunity_eq_ok hok
  exact h _ _ _

theorem cascade_keeps
    (h : ∀ (l : List Opportunity) (u : List OpportunityUpdate) db,
      column { db with opportunities := l, opportunityUpdates := u } = column db)
    (o : Opportunity) (src dst : OpportunityStatus) : Tx.Keeps column (cascade o src dst) :=
  Tx.Keeps.ite
    ((Tx.keeps_check _).bind fun _ ↦ (updateOpportunity_keeps h _ _).bind fun _ ↦ Tx.keeps_pure _)
    (Tx.keeps_pure _)

theorem createRecipient_keeps (h : ∀ l db, column (rfqRecipients.put l db) = column db)
    (rfqId id providerOrgId : Uuid) :
    Tx.Keeps column (RfqRecipientRepository.create rfqId id providerOrgId) :=
  Tx.keeps_get.bind fun _ ↦ (Tx.keeps_check _).bind fun _ ↦ Table.keeps_insert h _ _

theorem conflictOnDuplicate_appends {α : Type} {message : String} {body : Tx Db Thrown α}
    {entries : α → List AuditEntry} (h : Tx.Appends trailOf body entries) :
    Tx.Appends trailOf (conflictOnDuplicate message body) entries :=
  fun _ _ _ hok ↦ h (conflictOnDuplicate_eq_ok hok)

theorem createTx_appends (env : Env) (d : Draws) (call : CreateCall) :
    Tx.Appends trailOf (createTx env d call) fun detail ↦
      [.byActor call.actor call.context call.opportunity.ownerOrgId "rfq.created" "rfq"
        detail.rfq.id] := by
  refine (Table.keeps_insert (fun _ _ ↦ rfl) _ _).bind_appends fun rfq ↦ ?_
  refine (Tx.keeps_check _).bind_appends fun _ ↦ ?_
  refine (Table.keeps_insert (fun _ _ ↦ rfl) _ _).bind_appends fun version ↦ ?_
  refine (Table.keeps_insertEach (createRecipient_keeps (fun _ _ ↦ rfl) _) _ _).bind_appends
    fun recipients ↦ ?_
  refine (cascade_keeps (fun _ _ _ ↦ rfl) _ _ _).bind_appends fun _ ↦ ?_
  exact (record_appends fun t ↦ by simp [createTrails]).bind_pure

theorem declineTx_appends (call : DeclineCall) :
    Tx.Appends trailOf (declineTx call) fun _ ↦ [onRfq call.toRfqCall "rfq.declined"] := by
  refine (Table.keeps_update (fun _ _ ↦ rfl) _ _ _).bind_appends fun updated ↦ ?_
  exact (record_appends fun t ↦ by simp [declineTrails, onRfq]).bind_pure

theorem createQuote_keeps (h : ∀ l db, column (quotes.put l db) = column db)
    (guard : String → String → Except Thrown Unit) (row : Quote) :
    Tx.Keeps column (QuoteRepository.create guard row) :=
  (Tx.keeps_check _).bind fun _ ↦ Tx.keeps_get.bind fun _ ↦ (Tx.keeps_check _).bind fun _ ↦
    Table.keeps_insert h _ _

theorem submitQuoteTx_appends (env : Env) (d : Draws) (call : SubmitCall) (freshStatus : RfqStatus)
    (quoteVersion : ℕ) :
    Tx.Appends trailOf (submitQuoteTx env d call freshStatus quoteVersion) fun _ ↦
      [onRfq call.toRfqCall "quote.submitted"] := by
  refine (createQuote_keeps (fun _ _ ↦ rfl) _ _).bind_appends fun quote ↦ ?_
  have hrecipient : Tx.Keeps trailOf (markRecipientQuoted call.recipient) :=
    Tx.Keeps.ite ((Table.keeps_update (fun _ _ ↦ rfl) _ _ _).bind fun _ ↦ Tx.keeps_pure _)
      (Tx.keeps_pure _)
  have hrfq : Tx.Keeps trailOf (markRfqQuoted call.rfq.id freshStatus) :=
    Tx.Keeps.ite ((Tx.keeps_check _).bind fun _ ↦
      (Table.keeps_update (fun _ _ ↦ rfl) _ _ _).bind fun _ ↦ Tx.keeps_pure _) (Tx.keeps_pure _)
  refine hrecipient.bind_appends fun _ ↦ hrfq.bind_appends fun _ ↦ ?_
  refine (cascade_keeps (fun _ _ _ ↦ rfl) _ _ _).bind_appends fun _ ↦ ?_
  exact (record_appends fun t ↦ by simp [submitTrails, onRfq]).bind_pure

theorem withdrawQuoteTx_appends (call : WithdrawCall) :
    Tx.Appends trailOf (withdrawQuoteTx call) fun _ ↦ [onRfq call.toRfqCall "quote.withdrawn"] := by
  refine (Table.keeps_update (fun _ _ ↦ rfl) _ _ _).bind_appends fun updated ↦ ?_
  exact (record_appends fun t ↦ by simp [withdrawTrails, onRfq]).bind_pure

theorem selectQuoteTx_appends (d : Draws) (call : SelectCall) (considered : List Uuid) :
    Tx.Appends trailOf (selectQuoteTx d call considered) fun _ ↦
      [onRfq call.toRfqCall "rfq.quote_selected"] := by
  refine (Table.keeps_update (fun _ _ ↦ rfl) _ _ _).bind_appends fun selectedQuote ↦ ?_
  refine (Table.keeps_update (fun _ _ ↦ rfl) _ _ _).bind_appends fun _ ↦ ?_
  refine (updateOpportunity_keeps (fun _ _ _ ↦ rfl) _ _).bind_appends fun _ ↦ ?_
  have hroom (row : DealRoom) : Tx.Keeps trailOf (DealRoomRepository.create row) :=
    Tx.keeps_get.bind fun _ ↦ (Tx.keeps_check _).bind fun _ ↦
      Table.keeps_insert (fun _ _ ↦ rfl) _ _
  have hparticipant (row : DealRoomParticipant) :
      Tx.Keeps trailOf (DealRoomParticipantRepository.create row) :=
    Tx.keeps_get.bind fun _ ↦ (Tx.keeps_check _).bind fun _ ↦
      Table.keeps_insert (fun _ _ ↦ rfl) _ _
  refine (hroom _).bind_appends fun room ↦ ?_
  refine (hparticipant _).bind_appends fun _ ↦ (hparticipant _).bind_appends fun _ ↦ ?_
  refine (Table.keeps_insert (fun _ _ ↦ rfl) _ _).bind_appends fun decision ↦ ?_
  exact (record_appends fun t ↦ by simp [selectTrails, onRfq]).bind_pure

theorem expire_appends (env : Env) (run : ExpiryRun) (fromStatus : RfqStatus) :
    Tx.Appends trailOf (expire env run fromStatus) fun _ ↦
      [.byWorker "rfq.expired" "rfq" run.rfqId] := by
  refine (Tx.keeps_check _).bind_appends fun _ ↦ ?_
  refine (Table.keeps_update (fun _ _ ↦ rfl) _ _ _).bind_appends fun _ ↦ ?_
  exact (record_appends fun t ↦ by simp).bind_pure

end

/-! ### One commit -/

section

variable {env : Env} {db db' : Db} {l l' : Local} {d : Draws}

theorem StatusIs.statusOf (hc : Consistent db) {rfqId : Uuid} {status : RfqStatus}
    (h : StatusIs db rfqId status) : statusOf db rfqId = some status := by
  obtain ⟨r, hr, rfl, rfl⟩ := h
  have hfind : RfqRepository.findById db r.id = some r :=
    (List.find?_eq_some_iff_of_nodup hc.rfqIds).2 ⟨hr, rfl⟩
  rw [Rfqs.statusOf, hfind]
  rfl

theorem expiredNow_self (rfqId : Uuid) : expiredNow db db rfqId = none :=
  if_neg fun h ↦ h.1 h.2

theorem expiredNow_of_rewrite {rfqId : Uuid} {status : RfqStatus}
    (hbefore : statusOf db rfqId = some status) (hne : status ≠ .expired)
    (h : db'.rfqs = Rows.rewrite RFQ.id rfqId (RfqRepository.setStatus .expired) db.rfqs) :
    expiredNow db db' rfqId = some (.byWorker "rfq.expired" "rfq" rfqId) := by
  refine if_pos ⟨?_, ?_⟩
  · rw [hbefore]
    exact fun heq ↦ hne (Option.some.inj heq)
  · have hfind : RfqRepository.findById db' rfqId =
        (RfqRepository.findById db rfqId).map (RfqRepository.setStatus .expired) := by
      show db'.rfqs.find? (·.id = rfqId) = _
      rw [h]
      exact Rows.find_rewrite (RfqRepository.setStatus_id .expired) db.rfqs
    obtain ⟨r, hr, -⟩ := Option.map_eq_some_iff.1 hbefore
    rw [statusOf, hfind, hr]
    rfl

/-- What a job does to an RFQ that can expire. -/
theorem expireOne_audited (hc : Consistent db) {run : ExpiryRun} {fromStatus : Option RfqStatus}
    (hl : Knows db (.expiryFresh run fromStatus)) {expired : Bool}
    (h : expireOne env d run fromStatus db = .ok (expired, db')) :
    trailOf db' = trailOf db ++ (expiredNow db db' run.rfqId).toList ∧
      (db' = db ∨ expiredNow db db' run.rfqId = some (.byWorker "rfq.expired" "rfq" run.rfqId) ∧
        db'.rfqs = Rows.rewrite RFQ.id run.rfqId (RfqRepository.setStatus .expired) db.rfqs) := by
  have hsame : trailOf db = trailOf db ++ (expiredNow db db run.rfqId).toList := by
    rw [expiredNow_self]
    exact (List.append_nil _).symm
  cases fromStatus with
  | none =>
    obtain ⟨-, rfl⟩ := Prod.mk.inj (Tx.pure_eq_ok.1 h)
    exact ⟨hsame, Or.inl rfl⟩
  | some fromStatus =>
    obtain ⟨result, db₁, hran, h⟩ := Tx.bind_eq_ok.1 h
    obtain ⟨-, rfl⟩ := Prod.mk.inj (Tx.pure_eq_ok.1 h)
    cases Jobs.inTransaction_eq_ok rfl hran with
    | cached | aborted => exact ⟨hsame, Or.inl rfl⟩
    | recorded _ hhandler =>
      obtain ⟨hexpirable, hstatus⟩ := hl fromStatus rfl
      have hbefore : statusOf db run.rfqId = some fromStatus := hstatus.statusOf hc
      have htrail := expire_appends env run fromStatus hhandler
      obtain ⟨trails, rfl⟩ := expire_eq_ok hhandler
      have hne : fromStatus ≠ .expired := by
        rintro rfl
        revert hexpirable
        decide
      rw [expiredNow_of_rewrite hbefore hne rfl]
      exact ⟨htrail, Or.inr ⟨rfl, rfl⟩⟩

/-- **A commit appends what its step shows.** -/
theorem trailOf_commit (hc : Consistent db) (hl : Knows db l) {body : Tx Db Thrown Local}
    (hnext : (calls env).next d l = .commit body) (hbody : body db = .ok (l', db')) :
    trailOf db' = trailOf db ++ (shown db db' l l').toList := by
  cases l with
  | createReady call =>
    obtain rfl := NextStep.commit.inj hnext
    obtain ⟨detail, hdetail, rfl⟩ := Tx.map_eq_ok.1 hbody
    exact createTx_appends env d call hdetail
  | declineLocked call =>
    obtain rfl := NextStep.commit.inj hnext
    obtain ⟨row, hrow, rfl⟩ := Tx.map_eq_ok.1 hbody
    exact declineTx_appends call hrow
  | submitNumbered call freshStatus quoteVersion =>
    obtain rfl := NextStep.commit.inj hnext
    obtain ⟨quote, hquote, rfl⟩ := Tx.map_eq_ok.1 hbody
    exact conflictOnDuplicate_appends (submitQuoteTx_appends env d call freshStatus quoteVersion) hquote
  | withdrawFresh call =>
    obtain rfl := NextStep.commit.inj hnext
    obtain ⟨quote, hquote, rfl⟩ := Tx.map_eq_ok.1 hbody
    exact withdrawQuoteTx_appends call hquote
  | selectFresh call considered =>
    obtain rfl := NextStep.commit.inj hnext
    obtain ⟨room, hroom, rfl⟩ := Tx.map_eq_ok.1 hbody
    exact conflictOnDuplicate_appends (selectQuoteTx_appends d call considered) hroom
  | expiryFresh run fromStatus =>
    obtain rfl := NextStep.commit.inj hnext
    obtain ⟨expired, hexpired, rfl⟩ := Tx.map_eq_ok.1 hbody
    exact (expireOne_audited hc hl hexpired).1
  | _ => cases hnext

/-- The audit trail tells the status of every RFQ. -/
def StatusesTold (db : Db) : Prop := Rows.Told toldStatus RFQ.id RFQ.status (trailOf db) db.rfqs

theorem createTx_rfqs {call : CreateCall} {detail : RfqDetail}
    (h : createTx env d call db = .ok (detail, db')) :
    db'.rfqs = db.rfqs ++ [detail.rfq] ∧ detail.rfq.id ∉ db.rfqs.map (·.id) ∧
      detail.rfq.status = .sent ∧ detail.rfq.id = d.ids 0 := by
  obtain ⟨rfq, db₁, hrfq, h⟩ := Tx.bind_eq_ok.1 h
  obtain ⟨_, -, h⟩ := Tx.check_bind_eq_ok.1 h
  obtain ⟨version, db₂, hversion, h⟩ := Tx.bind_eq_ok.1 h
  obtain ⟨recipients, db₃, hrecipients, h⟩ := Tx.bind_eq_ok.1 h
  obtain ⟨_, db₄, hcascade, h⟩ := Tx.bind_eq_ok.1 h
  obtain ⟨rfl, rfl⟩ := Prod.mk.inj (Except.ok.inj h)
  obtain ⟨hfresh, rfl, rfl⟩ := Table.insert_eq_ok_iff.1 hrfq
  have hkeeps (row : RFQVersion) :
      Tx.Keeps Db.rfqs (rfqVersions.insert (Thrown.uniqueViolation) row) :=
    Table.keeps_insert (fun _ _ ↦ rfl) _ _
  have hrecipients : db₃.rfqs = db₂.rfqs :=
    Table.keeps_insertEach (createRecipient_keeps (fun _ _ ↦ rfl) _) _ _ hrecipients
  have hcascade : db₄.rfqs = db₃.rfqs := cascade_keeps (fun _ _ _ ↦ rfl) _ _ _ hcascade
  refine ⟨?_, hfresh, rfl, rfl⟩
  show db₄.rfqs = _
  rw [hcascade, hrecipients, hkeeps _ hversion]
  rfl

theorem statusesTold_of_commit (hc : Consistent db) (hl : Knows db l) (h : StatusesTold db)
    {body : Tx Db Thrown Local} (hnext : (calls env).next d l = .commit body)
    (hbody : body db = .ok (l', db')) : StatusesTold db' := by
  have htrail := trailOf_commit hc hl hnext hbody
  have hwrote := (wrote_of_commit hnext hbody).rfq
  rw [StatusesTold, htrail]
  -- an event that says nothing of a status
  have hsilent (hrfqs : db'.rfqs = db.rfqs)
      (hnew : (shown db db' l l').toList.filterMap toldStatus = []) :
      Rows.Told toldStatus RFQ.id RFQ.status (trailOf db ++ (shown db db' l l').toList) db'.rfqs := by
    rw [hrfqs]
    exact h.silent hnew
  cases l with
  | createReady call =>
    obtain rfl := NextStep.commit.inj hnext
    obtain ⟨detail, hdetail, rfl⟩ := Tx.map_eq_ok.1 hbody
    obtain ⟨hrfqs, hfresh, hstatus, -⟩ := createTx_rfqs hdetail
    rw [hrfqs]
    exact h.inserted hfresh (by rw [hstatus]; rfl)
  | declineLocked call =>
    obtain rfl := NextStep.commit.inj hnext
    obtain ⟨row, -, rfl⟩ := Tx.map_eq_ok.1 hbody
    cases hwrote with
    | declined hdeclined => exact hsilent hdeclined.rfqs_eq rfl
  | submitNumbered call freshStatus quoteVersion =>
    obtain rfl := NextStep.commit.inj hnext
    obtain ⟨quote, -, rfl⟩ := Tx.map_eq_ok.1 hbody
    cases hwrote with
    | submitted hsubmitted =>
      by_cases hquoted : freshStatus = .quoted
      · -- the RFQ is `QUOTED` already, and stays so
        rw [hsubmitted.rfqs_eq, if_pos hquoted]
        refine h.written rfl fun r hr ↦ ?_
        by_cases hid : r.id = call.rfq.id
        · obtain ⟨r₀, hr₀, hid₀, hstatus⟩ := hl.2
          obtain rfl := Rows.eq_of_key_eq hc.rfqIds hr₀ hr (hid.trans hid₀.symm)
          exact Or.inl ⟨hid, hstatus.trans hquoted⟩
        · exact Or.inr ⟨hid, r, hr, rfl, rfl⟩
      · rw [hsubmitted.rfqs_eq, if_neg hquoted]
        exact h.rewritten (RfqRepository.setStatus_id _) (fun _ ↦ rfl) rfl
  | withdrawFresh call =>
    obtain rfl := NextStep.commit.inj hnext
    obtain ⟨quote, -, rfl⟩ := Tx.map_eq_ok.1 hbody
    cases hwrote with
    | withdrew hwithdrew => exact hsilent hwithdrew.rfqs_eq rfl
  | selectFresh call considered =>
    obtain rfl := NextStep.commit.inj hnext
    obtain ⟨room, -, rfl⟩ := Tx.map_eq_ok.1 hbody
    cases hwrote with
    | selected hselected =>
      rw [hselected.rfqs_eq]
      exact h.rewritten (RfqRepository.setStatus_id _) (fun _ ↦ rfl) rfl
  | expiryFresh run fromStatus =>
    obtain rfl := NextStep.commit.inj hnext
    obtain ⟨expired, hexpired, rfl⟩ := Tx.map_eq_ok.1 hbody
    rcases (expireOne_audited hc hl hexpired).2 with rfl | ⟨hnow, hrfqs⟩
    · refine hsilent rfl ?_
      rw [shown, expiredNow_self]
      rfl
    · rw [hrfqs, shown, hnow]
      exact h.rewritten (RfqRepository.setStatus_id _) (fun _ ↦ rfl) rfl
  | _ => cases hnext

end

/-! ### Runs -/

section

variable {env : Env} {Pid : Type} [DecidableEq Pid] {c c' : Config Pid} {p : Pid} {t : Tick Draws}

theorem shown_of_read {db : Db} {l l' : Local} (h : Read db l l') : shown db db l l' = none := by
  cases h with
  | _ => rfl

theorem shown_of_lock {db : Db} {l l' : Local} {d : Draws} {key : Int}
    (h : (calls env).next d l = .lock key l') : shown db db l l' = none := by
  cases l with
  | declineReady | submitReady | withdrawReady | selectReady | expiring => rfl
  | _ => cases h

theorem shown_of_ended {db : Db} {l l' : Local} (h : (∃ e, l' = .threw e) ∨ l' = .crashed) :
    shown db db l l' = none := by
  rcases h with ⟨e, rfl⟩ | rfl <;> cases l with
  | expiryFresh => exact expiredNow_self _
  | _ => rfl

theorem Sound.trailOf_fire (h : Sound env c) (hfire : ((calls env).system Pid).fire c p t = some c') :
    trailOf c'.shared.db = trailOf c.shared.db ++ (seen c p c').toList := by
  have hquiet {s : CallSystem.Shared Db Int Pid} {l : Local} (hdb : s.db = c.shared.db)
      (hnone : shown c.shared.db c.shared.db (c.locals p) l = none) :
      trailOf s.db = trailOf c.shared.db ++ (shown c.shared.db s.db (c.locals p) l).toList := by
    rw [hdb, hnone]
    exact (List.append_nil _).symm
  have htransition := CallSystem.transition_of_fire hfire
  unfold seen
  generalize c'.shared = s, c'.locals p = l at htransition ⊢
  cases htransition with
  | queried hnext hf => exact hquiet rfl (shown_of_read (read_of_query hnext hf))
  | locked hnext => exact hquiet rfl (shown_of_lock hnext)
  | committed hnext hbody => exact trailOf_commit h.2.1 (h.2.2 p) hnext hbody
  | failed => exact hquiet rfl (shown_of_ended (Or.inl ⟨_, rfl⟩))
  | crashed => exact hquiet rfl (shown_of_ended (Or.inr rfl))

/-- **The audit trail is what the callers have been answered**, and the RFQs that jobs have expired, in the
order of the commits: in every run, one event for each, and nothing else. -/
theorem auditTrail_of_run (hc : Initial c) {steps : List (Pid × Tick Draws)}
    (hrun : ((calls env).system Pid).run c steps = some c') :
    c'.shared.db.trails.auditTrail =
      c.shared.db.trails.auditTrail ++ ((calls env).system Pid).eventsAlong seen c steps :=
  PartySystem.journal_of_run (J := fun s : CallSystem.Shared Db Int Pid ↦ trailOf s.db)
    (I := Sound env) (fun h hfire ↦ h.fire hfire) (fun h hfire ↦ h.trailOf_fire hfire) hc.sound hrun

theorem Sound.statusesTold_fire (h : Sound env c) (htold : StatusesTold c.shared.db)
    (hfire : ((calls env).system Pid).fire c p t = some c') : StatusesTold c'.shared.db := by
  rcases (CallSystem.transition_of_fire hfire).db_cases with hdb | ⟨d, body, -, hnext, hbody⟩
  · rwa [hdb]
  · exact statusesTold_of_commit h.2.1 (h.2.2 p) htold hnext hbody

/-- **The last word of the audit trail about an RFQ is its status**, after every run from a database of
which that is true. -/
theorem status_of_auditTrail (hc : Initial c) (htold : StatusesTold c.shared.db)
    {steps : List (Pid × Tick Draws)} (hrun : ((calls env).system Pid).run c steps = some c') :
    ∀ rfq ∈ c'.shared.db.rfqs,
      Rows.lastTold toldStatus c'.shared.db.trails.auditTrail rfq.id = some rfq.status :=
  (PartySystem.inv_of_run (I := fun c ↦ Sound env c ∧ StatusesTold c.shared.db)
    (fun h hfire ↦ ⟨h.1.fire hfire, h.1.statusesTold_fire h.2 hfire⟩) ⟨hc.sound, htold⟩ hrun).2

end

/-! ### An RFQ that is quoted -/

namespace Sample

def operator : Actor := ⟨"olga", some "tol", some .marketplaceOperator, some "m0"⟩

/-- An operator sends an RFQ, and the provider quotes on it. -/
def sending : Config ℕ where
  shared :=
    ⟨{ organizations := ["merchant", "acquirer"]
       opportunities := [{ id := "opp", ownerOrgId := "merchant", status := .matchReady }] }, .free⟩
  locals
    | 0 => .called operator context (.create ⟨"opp", ["acquirer"], 1000, .qualifiedRfq, ""⟩)
    | _ => .called (provider 0) context (.submitQuote "n0" ⟨"EUR", 900, ""⟩)

def sentAndQuoted : List (ℕ × Tick Draws) :=
  List.replicate 3 (0, .act draws) ++ List.replicate 7 (1, .act draws)

theorem initial_sending : Initial sending where
  consistent := ⟨by decide, by decide, by decide, by decide, by decide⟩
  new p := by
    cases p with
    | zero => exact Or.inl ⟨_, _, _, rfl⟩
    | succ p => exact Or.inl ⟨_, _, _, rfl⟩

theorem exists_sentAndQuoted : ∃ c, ((calls env).system ℕ).run sending sentAndQuoted = some c ∧
    c.shared.db.rfqs.map (·.status) = [.quoted] := by
  refine PartySystem.exists_run_of_test ?_
  decide +kernel

theorem auditTrail_of_sentAndQuoted :
    ∃ c, ((calls env).system ℕ).run sending sentAndQuoted = some c ∧
      c.shared.db.trails.auditTrail =
        [.byActor operator context "merchant" "rfq.created" "rfq" "n0",
          .byActor (provider 0) context "merchant" "quote.submitted" "rfq" "n0"] := by
  have hseen : ((calls env).system ℕ).eventsAlong seen sending sentAndQuoted =
      [.byActor operator context "merchant" "rfq.created" "rfq" "n0",
        .byActor (provider 0) context "merchant" "quote.submitted" "rfq" "n0"] := by
    decide +kernel
  obtain ⟨c, hrun, -⟩ := exists_sentAndQuoted
  refine ⟨c, hrun, ?_⟩
  rw [auditTrail_of_run initial_sending hrun, hseen]
  rfl

theorem status_of_sentAndQuoted :
    ∃ c : Config ℕ, c.shared.db.rfqs.map (·.status) = [.quoted] ∧ ∀ rfq ∈ c.shared.db.rfqs,
      Rows.lastTold toldStatus c.shared.db.trails.auditTrail rfq.id = some rfq.status := by
  obtain ⟨c, hrun, hquoted⟩ := exists_sentAndQuoted
  exact ⟨c, hquoted, status_of_auditTrail initial_sending (fun rfq hrfq ↦ nomatch hrfq) hrun⟩

end Sample

end TolPlatform.Rfqs
