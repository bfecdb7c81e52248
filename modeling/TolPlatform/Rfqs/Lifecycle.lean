import TolPlatform.Rfqs.Outline

/-!
# The lifecycles of RFQs, recipients and quotes

Every status change that commits is an edge of its table, except for two: a submission does not look
again whether the provider has declined, and a selection not whether the RFQ has expired. So a run is
legal exactly when no submission commits over a `DECLINED` recipient and no selection over an
`EXPIRED` RFQ (`lifecyclesLegal_iff`).
-/

namespace TolPlatform.Rfqs

/-- Every status that changes goes along an edge. -/
structure LegalStep (db db' : Db) : Prop where
  rfqs : Rows.StatusLegal RFQ.id RFQ.status rfqTransitions db.rfqs db'.rfqs
  recipients : Rows.StatusLegal RFQRecipient.id RFQRecipient.state rfqRecipientTransitions
    db.rfqRecipients db'.rfqRecipients
  quotes : Rows.StatusLegal Quote.id Quote.status quoteTransitions db.quotes db'.quotes

/-- What a call is about to write over has not ended in the meantime. -/
def NotEnded (db : Db) : Local → Prop
  | .submitNumbered call _ _ =>
    ∀ r ∈ db.rfqRecipients, r.id = call.recipient.id → r.state ≠ .declined
  | .selectFresh call _ => ∀ r ∈ db.rfqs, r.id = call.rfq.id → r.status ≠ .expired
  | _ => True

/-! ### One commit -/

section

variable {db db' : Db} {l : Local}

theorem LegalStep.refl (hc : Consistent db) : LegalStep db db :=
  ⟨.refl hc.rfqIds, .refl hc.recipientIds, .refl hc.quoteIds⟩

theorem rfqs_legal_of_eq (hc : Consistent db) (h : db'.rfqs = db.rfqs) :
    Rows.StatusLegal RFQ.id RFQ.status rfqTransitions db.rfqs db'.rfqs := by
  rw [h]
  exact .refl hc.rfqIds

theorem recipients_legal_of_eq (hc : Consistent db) (h : db'.rfqRecipients = db.rfqRecipients) :
    Rows.StatusLegal RFQRecipient.id RFQRecipient.state rfqRecipientTransitions db.rfqRecipients
      db'.rfqRecipients := by
  rw [h]
  exact .refl hc.recipientIds

theorem quotes_legal_of_eq (hc : Consistent db) (h : db'.quotes = db.quotes) :
    Rows.StatusLegal Quote.id Quote.status quoteTransitions db.quotes db'.quotes := by
  rw [h]
  exact .refl hc.quoteIds

theorem rfqs_legal_iff (hc : Consistent db) {id : Uuid} {status : RfqStatus}
    (h : db'.rfqs = Rows.rewrite RFQ.id id (RfqRepository.setStatus status) db.rfqs) :
    Rows.StatusLegal RFQ.id RFQ.status rfqTransitions db.rfqs db'.rfqs ↔
      ∀ r ∈ db.rfqs, r.id = id → status = r.status ∨ status ∈ rfqTransitions r.status := by
  rw [h]
  exact Rows.statusLegal_rewrite_iff hc.rfqIds (RfqRepository.setStatus_id _)

theorem recipients_legal_iff (hc : Consistent db) {id : Uuid} {state : RfqRecipientState}
    {reason : Option String} (h : db'.rfqRecipients = Rows.rewrite RFQRecipient.id id
      (RfqRecipientRepository.setState state reason) db.rfqRecipients) :
    Rows.StatusLegal RFQRecipient.id RFQRecipient.state rfqRecipientTransitions db.rfqRecipients
        db'.rfqRecipients ↔
      ∀ r ∈ db.rfqRecipients, r.id = id →
        state = r.state ∨ state ∈ rfqRecipientTransitions r.state := by
  rw [h]
  exact Rows.statusLegal_rewrite_iff hc.recipientIds (RfqRecipientRepository.setState_id _ _)

/-- A quote that is `SUBMITTED` can go anywhere. -/
theorem quotes_legal (hc : Consistent db) {call : RfqCall} {quote : Quote} {status : QuoteStatus}
    (hquote : QuoteSubmitted db call quote) (hedge : status ∈ quoteTransitions .submitted)
    (h : db'.quotes = Rows.rewrite Quote.id quote.id (QuoteRepository.setStatus status) db.quotes) :
    Rows.StatusLegal Quote.id Quote.status quoteTransitions db.quotes db'.quotes := by
  rw [h, Rows.statusLegal_rewrite_iff hc.quoteIds (QuoteRepository.setStatus_id _)]
  intro q hq hid
  obtain ⟨-, q₀, hq₀, hlater, hstatus⟩ := hquote
  obtain rfl := Rows.eq_of_key_eq hc.quoteIds hq₀ hq (hid.trans hlater.id.symm)
  exact Or.inr (hstatus ▸ hedge)

theorem declined_legal {state : RfqRecipientState} (h : state ≠ .expired) :
    .declined = state ∨ .declined ∈ rfqRecipientTransitions state := by
  cases state <;> simp_all [rfqRecipientTransitions]

theorem quoted_legal_iff {state : RfqRecipientState} (h : state ≠ .expired) :
    (.quoted = state ∨ .quoted ∈ rfqRecipientTransitions state) ↔ state ≠ .declined := by
  cases state <;> simp_all [rfqRecipientTransitions]

theorem selected_legal_iff {status : RfqStatus} (h : OnceQuoted status) :
    (.selected = status ∨ .selected ∈ rfqTransitions status) ↔ status ≠ .expired := by
  rcases h with rfl | rfl | rfl <;> decide

theorem expired_edge {status : RfqStatus} (h : status ∈ RfqRepository.expirableStatuses) :
    .expired ∈ rfqTransitions status := by
  revert status
  decide

/-- The one row with the id of a recipient that was read has not expired. -/
theorem KnowsRecipient.not_expired (hc : Consistent db) {recipient r : RFQRecipient}
    (h : KnowsRecipient db recipient) (hr : r ∈ db.rfqRecipients) (hid : r.id = recipient.id) :
    r.state ≠ .expired := by
  obtain ⟨hstate, r₀, hr₀, hlater⟩ := h
  obtain rfl := Rows.eq_of_key_eq hc.recipientIds hr₀ hr (hid.trans hlater.id.symm)
  exact hlater.not_expired hstate

theorem StatusIs.status_eq (hc : Consistent db) {id : Uuid} {status : RfqStatus}
    (h : StatusIs db id status) {r : RFQ} (hr : r ∈ db.rfqs) (hid : r.id = id) :
    r.status = status := by
  obtain ⟨r₀, hr₀, hid₀, hstatus⟩ := h
  rwa [Rows.eq_of_key_eq hc.rfqIds hr₀ hr (hid.trans hid₀.symm)]

theorem Submitted.legal_iff (hc : Consistent db) {call : SubmitCall} {freshStatus : RfqStatus}
    {quote : Quote} (hquotable : KnowsQuotable db call.recipient)
    (hfresh : StatusIs db call.rfq.id freshStatus) (h : Submitted db db' call freshStatus quote) :
    LegalStep db db' ↔
      ∀ r ∈ db.rfqRecipients, r.id = call.recipient.id → r.state ≠ .declined := by
  have hknown := hquotable.2
  have hiff := recipients_legal_iff hc (h.rewritten hquotable)
  refine ⟨fun hlegal r hr hid ↦ ?_, fun hopen ↦ ⟨?_, hiff.2 fun r hr hid ↦ ?_, ?_⟩⟩
  · exact (quoted_legal_iff (hknown.not_expired hc hr hid)).1 (hiff.1 hlegal.recipients r hr hid)
  · have hrfqs := h.rfqs_eq
    split at hrfqs
    · exact rfqs_legal_of_eq hc hrfqs
    · next hstatus =>
      refine (rfqs_legal_iff hc hrfqs).2 fun r hr hid ↦ Or.inr ?_
      rw [hfresh.status_eq hc hr hid]
      exact h.edge hstatus
  · exact (quoted_legal_iff (hknown.not_expired hc hr hid)).2 (hopen r hr hid)
  · rw [h.quotes_eq]
    exact .append hc.quoteIds fun q hq ↦ List.mem_singleton.1 hq ▸ h.quoteFresh

theorem Selected.legal_iff (hc : Consistent db) {call : SelectCall} {room : DealRoom}
    (hselectable : KnowsSelectable db call.toRfqCall)
    (hquote : QuoteSubmitted db call.toRfqCall call.quote) (h : Selected db db' call room) :
    LegalStep db db' ↔ ∀ r ∈ db.rfqs, r.id = call.rfq.id → r.status ≠ .expired := by
  obtain ⟨⟨-, r₀, hr₀, hlater⟩, hquoted, -⟩ := hselectable
  have honce {r : RFQ} (hr : r ∈ db.rfqs) (hid : r.id = call.rfq.id) : OnceQuoted r.status := by
    rw [Rows.eq_of_key_eq hc.rfqIds hr₀ hr (hid.trans hlater.id.symm)]
    exact hlater.onceQuoted (Or.inl hquoted)
  have hiff := rfqs_legal_iff hc h.rfqs_eq
  refine ⟨fun hlegal r hr hid ↦ ?_, fun hopen ↦ ⟨hiff.2 fun r hr hid ↦ ?_, ?_, ?_⟩⟩
  · exact (selected_legal_iff (honce hr hid)).1 (hiff.1 hlegal.rfqs r hr hid)
  · exact (selected_legal_iff (honce hr hid)).2 (hopen r hr hid)
  · exact recipients_legal_of_eq hc h.recipients_eq
  · exact quotes_legal hc hquote (by decide) h.quotes_eq

/-- **One commit.** -/
theorem WroteRfq.legal_iff (hc : Consistent db) (hl : Knows db l) (h : WroteRfq db db' l) :
    LegalStep db db' ↔ NotEnded db l := by
  cases h with
  | created h =>
    refine iff_of_true ⟨?_, ?_, quotes_legal_of_eq hc h.quotes_eq⟩ trivial
    · rw [h.rfqs_eq]
      exact .append hc.rfqIds fun r hr ↦ List.mem_singleton.1 hr ▸ h.rfqFresh
    · rw [h.recipients_eq]
      exact .append hc.recipientIds h.recipientsFresh
  | declined h =>
    refine iff_of_true ⟨rfqs_legal_of_eq hc h.rfqs_eq, ?_, quotes_legal_of_eq hc h.quotes_eq⟩ trivial
    exact (recipients_legal_iff hc h.recipients_eq).2 fun r hr hid ↦
      declined_legal (KnowsRecipient.not_expired hc hl hr hid)
  | submitted h => exact h.legal_iff hc hl.1 hl.2
  | withdrew h =>
    exact iff_of_true ⟨rfqs_legal_of_eq hc h.rfqs_eq, recipients_legal_of_eq hc h.recipients_eq,
      quotes_legal hc hl (by decide) h.quotes_eq⟩ trivial
  | selected h => exact h.legal_iff hc hl.1 hl.2
  | @expiring run fromStatus h =>
    refine iff_of_true ⟨?_, recipients_legal_of_eq hc h.recipients_eq,
      quotes_legal_of_eq hc h.quotes_eq⟩ trivial
    rcases h.rfqs_eq with hrfqs | ⟨hsome, hrfqs⟩
    · exact rfqs_legal_of_eq hc hrfqs
    · obtain ⟨status, rfl⟩ := Option.ne_none_iff_exists'.1 hsome
      obtain ⟨hexpirable, hstatus⟩ := hl status rfl
      refine (rfqs_legal_iff hc hrfqs).2 fun r hr hid ↦ Or.inr ?_
      rw [hstatus.status_eq hc hr hid]
      exact expired_edge hexpirable

end

/-! ### Runs -/

section

variable {env : Env} {Pid : Type} [DecidableEq Pid] {c c' : Config Pid} {p : Pid} {t : Tick Draws}

/-- The step commits over nothing that has ended. -/
def TimelyStep (env : Env) (c : Config Pid) (p : Pid) (t : Tick Draws) : Prop :=
  (calls env).Commits c p t → NotEnded c.shared.db (c.locals p)

theorem Sound.legal_iff (h : Sound env c)
    (hfire : ((calls env).system Pid).fire c p t = some c') :
    LegalStep c.shared.db c'.shared.db ↔ TimelyStep env c p t := by
  obtain ⟨hc, hknows⟩ : Consistent c.shared.db ∧ ∀ p, Knows c.shared.db (c.locals p) := h.2
  rcases CallSystem.commits_or_not hfire with ⟨hnot, hdb⟩ | ⟨hcommits, d, body, hnext, hbody⟩
  · rw [hdb]
    exact iff_of_true (.refl hc) fun hcommits ↦ absurd hcommits hnot
  · rw [(wrote_of_commit hnext hbody).rfq.legal_iff hc (hknows p)]
    exact ⟨fun h _ ↦ h, fun h ↦ h hcommits⟩

/-- **When the lifecycles are legal**: every status change of a run is an edge if and only if no
submission commits over a recipient that has declined and no selection over an RFQ that has
expired. -/
theorem lifecyclesLegal_iff (hc : Initial c) (steps : List (Pid × Tick Draws)) :
    ((calls env).system Pid).Along (fun c _ _ c' ↦ LegalStep c.shared.db c'.shared.db) c steps ↔
      ((calls env).system Pid).Along (fun c p t _ ↦ TimelyStep env c p t) c steps :=
  PartySystem.Along.congr_of_inv (I := Sound env) (fun h hfire ↦ h.legal_iff hfire)
    (fun h hfire _ ↦ h.fire hfire) hc.sound steps

end

/-! ### A quote after a refusal -/

namespace Sample

def env : Env where
  hashtext s := s.length
  sha256 s := s
  toISOString t := toString t
  assertJsonSafePlainObject _ _ := .ok ()

def context : RequestContext := ⟨"req", "corr", "office", "browser"⟩

def draws : Draws := ⟨fun n ↦ s!"n{n}", 500⟩

/-- Two people of one provider. -/
def provider : ℕ → Actor
  | 0 => ⟨"pia", some "acquirer", some .acquirerProviderUser, some "m1"⟩
  | _ => ⟨"paul", some "acquirer", some .acquirerProviderUser, some "m2"⟩

/-- An RFQ that the provider is invited to. -/
def invited : Db where
  organizations := ["merchant", "acquirer"]
  opportunities := [{ id := "opp", ownerOrgId := "merchant", status := .invited }]
  rfqs := [{ id := "r1", opportunityId := "opp", status := .sent, dueAt := 1000 }]
  rfqRecipients := [{ id := "rec1", rfqId := "r1", providerOrgId := "acquirer" }]

/-- One of them quotes while the other one declines. -/
def disagreement : Config ℕ where
  shared := ⟨invited, .free⟩
  locals
    | 0 => .called (provider 0) context (.submitQuote "r1" ⟨"EUR", 900, ""⟩)
    | _ => .called (provider 1) context (.decline "r1" ⟨"no capacity"⟩)

/-- The quote passes its checks first; then the refusal commits; then the quote takes the lock. -/
def beforeQuote : List (ℕ × Tick Draws) :=
  [(0, .act draws), (0, .act draws), (0, .act draws), (1, .act draws), (1, .act draws),
   (1, .act draws), (1, .act draws), (1, .act draws), (0, .act draws), (0, .act draws),
   (0, .act draws)]

theorem initial_disagreement : Initial disagreement where
  consistent := ⟨by decide, by decide, by decide, by decide, by decide⟩
  new p := by
    cases p with
    | zero => exact Or.inl ⟨_, _, _, rfl⟩
    | succ p => exact Or.inl ⟨_, _, _, rfl⟩

/-- The recipient goes from `DECLINED` back to `QUOTED`. -/
theorem quoted_after_declined : Initial disagreement ∧
    ∃ c c', ((calls env).system ℕ).run disagreement beforeQuote = some c ∧
      ((calls env).system ℕ).fire c 0 (.act draws) = some c' ∧
        ¬ LegalStep c.shared.db c'.shared.db := by
  have hrun : (((calls env).system ℕ).run disagreement beforeQuote).any (fun c ↦
      (((calls env).system ℕ).fire c 0 (.act draws)).any fun c' ↦
        c.shared.db.rfqRecipients.map (·.state) = [.declined] ∧
          c'.shared.db.rfqRecipients.map (·.state) = [.quoted] ∧
            c.shared.db.rfqRecipients.map (·.id) = c'.shared.db.rfqRecipients.map (·.id)) = true := by
    decide +kernel
  obtain ⟨c, c', hc, hc', hdeclined, hquoted, hids⟩ := PartySystem.exists_run_fire_of_test hrun
  refine ⟨initial_disagreement, c, c', hc, hc', fun hlegal ↦ ?_⟩
  obtain ⟨r, hr, hstate⟩ := List.map_eq_singleton_iff.1 hdeclined
  obtain ⟨r', hr', hstate'⟩ := List.map_eq_singleton_iff.1 hquoted
  rw [hr, hr', List.map_singleton, List.map_singleton, List.singleton_inj] at hids
  have hstep := hlegal.recipients r (hr ▸ List.mem_singleton_self r) r'
    (hr' ▸ List.mem_singleton_self r') hids.symm
  rw [hstate, hstate'] at hstep
  revert hstep
  decide

theorem lifecyclesLegal_iff_disagreement :
    ((calls env).system ℕ).Along (fun c _ _ c' ↦ LegalStep c.shared.db c'.shared.db)
        disagreement beforeQuote ↔
      ((calls env).system ℕ).Along (fun c p t _ ↦ TimelyStep env c p t) disagreement beforeQuote :=
  lifecyclesLegal_iff initial_disagreement beforeQuote

end Sample

end TolPlatform.Rfqs
