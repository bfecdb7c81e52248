import TolPlatform.Rfqs.Effects

/-!
# What an RFQ call may rely on

A call goes by rows that it has read, and most of them it reads before its lock. `Later` says what of
such a row no write changes: who it belongs to, that a recipient has not expired, and that an RFQ that
was `QUOTED` is `QUOTED`, `SELECTED` or `EXPIRED` by now. What a call reads under the lock stays as it
is until the commit (`RowsKept`). `Knows` collects this for every local state, and `outline` proves it
for every interleaving.
-/

namespace TolPlatform.Rfqs

/-! ### What lasts -/

/-- Where an RFQ can be once it was `QUOTED`. -/
def OnceQuoted (status : RfqStatus) : Prop :=
  status = .quoted ∨ status = .selected ∨ status = .expired

structure RfqLater (a b : RFQ) : Prop where
  id : b.id = a.id
  opportunityId : b.opportunityId = a.opportunityId
  onceQuoted : OnceQuoted a.status → OnceQuoted b.status

structure RecipientLater (a b : RFQRecipient) : Prop where
  id : b.id = a.id
  not_expired : a.state ≠ .expired → b.state ≠ .expired

structure QuoteLater (a b : Quote) : Prop where
  id : b.id = a.id
  rfqId : b.rfqId = a.rfqId
  rfqRecipientId : b.rfqRecipientId = a.rfqRecipientId
  validUntil : b.validUntil = a.validUntil

theorem RfqLater.refl (a : RFQ) : RfqLater a a := ⟨rfl, rfl, fun h ↦ h⟩

theorem RfqLater.trans {a b c : RFQ} (h : RfqLater a b) (h' : RfqLater b c) : RfqLater a c :=
  ⟨h'.id.trans h.id, h'.opportunityId.trans h.opportunityId, h'.onceQuoted ∘ h.onceQuoted⟩

theorem RfqLater.setStatus {status : RfqStatus} (hstatus : OnceQuoted status) (a : RFQ) :
    RfqLater a (RfqRepository.setStatus status a) := ⟨rfl, rfl, fun _ ↦ hstatus⟩

theorem RecipientLater.refl (a : RFQRecipient) : RecipientLater a a := ⟨rfl, fun h ↦ h⟩

theorem RecipientLater.trans {a b c : RFQRecipient} (h : RecipientLater a b)
    (h' : RecipientLater b c) : RecipientLater a c :=
  ⟨h'.id.trans h.id, h'.not_expired ∘ h.not_expired⟩

theorem RecipientLater.setState {state : RfqRecipientState} (hstate : state ≠ .expired)
    (reason : Option String) (a : RFQRecipient) :
    RecipientLater a (RfqRecipientRepository.setState state reason a) := ⟨rfl, fun _ ↦ hstate⟩

theorem QuoteLater.refl (a : Quote) : QuoteLater a a := ⟨rfl, rfl, rfl, rfl⟩

theorem QuoteLater.trans {a b c : Quote} (h : QuoteLater a b) (h' : QuoteLater b c) :
    QuoteLater a c :=
  ⟨h'.id.trans h.id, h'.rfqId.trans h.rfqId, h'.rfqRecipientId.trans h.rfqRecipientId,
    h'.validUntil.trans h.validUntil⟩

/-- What of the rows outlasts a write. -/
structure Later (db db' : Db) : Prop where
  rfqs : Rows.Evolves RfqLater db.rfqs db'.rfqs
  recipients : Rows.Evolves RecipientLater db.rfqRecipients db'.rfqRecipients
  quotes : Rows.Evolves QuoteLater db.quotes db'.quotes

section

variable {db db' : Db}

theorem evolves_of_eq {Row : Type} {R : Row → Row → Prop} (hR : ∀ r, R r r) {rows rows' : List Row}
    (h : rows' = rows) : Rows.Evolves R rows rows' :=
  h ▸ Rows.Evolves.refl hR rows

theorem rfqs_evolve {id : Uuid} {status : RfqStatus} (hstatus : OnceQuoted status)
    (h : db'.rfqs = Rows.rewrite RFQ.id id (RfqRepository.setStatus status) db.rfqs) :
    Rows.Evolves RfqLater db.rfqs db'.rfqs :=
  h ▸ Rows.Evolves.rewrite RfqLater.refl fun r _ _ ↦ RfqLater.setStatus hstatus r

theorem recipients_evolve {id : Uuid} {state : RfqRecipientState} {reason : Option String}
    (hstate : state ≠ .expired) (h : db'.rfqRecipients = Rows.rewrite RFQRecipient.id id
      (RfqRecipientRepository.setState state reason) db.rfqRecipients) :
    Rows.Evolves RecipientLater db.rfqRecipients db'.rfqRecipients :=
  h ▸ Rows.Evolves.rewrite RecipientLater.refl fun r _ _ ↦ RecipientLater.setState hstate reason r

theorem quotes_evolve {id : Uuid} {status : QuoteStatus}
    (h : db'.quotes = Rows.rewrite Quote.id id (QuoteRepository.setStatus status) db.quotes) :
    Rows.Evolves QuoteLater db.quotes db'.quotes :=
  h ▸ Rows.Evolves.rewrite QuoteLater.refl fun _ _ _ ↦ ⟨rfl, rfl, rfl, rfl⟩

theorem WroteRfq.later {l : Local} (h : WroteRfq db db' l) : Later db db' := by
  cases h with
  | created h =>
    exact ⟨h.rfqs_eq ▸ Rows.Evolves.append RfqLater.refl _ _,
      h.recipients_eq ▸ Rows.Evolves.append RecipientLater.refl _ _,
      evolves_of_eq QuoteLater.refl h.quotes_eq⟩
  | declined h =>
    exact ⟨evolves_of_eq RfqLater.refl h.rfqs_eq, recipients_evolve (by decide) h.recipients_eq,
      evolves_of_eq QuoteLater.refl h.quotes_eq⟩
  | submitted h =>
    refine ⟨?_, ?_, h.quotes_eq ▸ Rows.Evolves.append QuoteLater.refl _ _⟩
    · have hrfqs := h.rfqs_eq
      split at hrfqs
      · exact evolves_of_eq RfqLater.refl hrfqs
      · exact rfqs_evolve (.inl rfl) hrfqs
    · have hrecipients := h.recipients_eq
      split at hrecipients
      · exact evolves_of_eq RecipientLater.refl hrecipients
      · exact recipients_evolve (by decide) hrecipients
  | withdrew h =>
    exact ⟨evolves_of_eq RfqLater.refl h.rfqs_eq, evolves_of_eq RecipientLater.refl h.recipients_eq,
      quotes_evolve h.quotes_eq⟩
  | selected h =>
    exact ⟨rfqs_evolve (.inr (.inl rfl)) h.rfqs_eq,
      evolves_of_eq RecipientLater.refl h.recipients_eq, quotes_evolve h.quotes_eq⟩
  | expiring h =>
    refine ⟨?_, evolves_of_eq RecipientLater.refl h.recipients_eq,
      evolves_of_eq QuoteLater.refl h.quotes_eq⟩
    rcases h.rfqs_eq with hrfqs | ⟨-, hrfqs⟩
    · exact evolves_of_eq RfqLater.refl hrfqs
    · exact rfqs_evolve (.inr (.inr rfl)) hrfqs

end

/-! ### Consistency -/

structure Consistent (db : Db) : Prop where
  opportunityIds : (db.opportunities.map (·.id)).Nodup
  rfqIds : (db.rfqs.map (·.id)).Nodup
  recipientIds : (db.rfqRecipients.map (·.id)).Nodup
  quoteIds : (db.quotes.map (·.id)).Nodup
  quoteRfqs : ∀ q ∈ db.quotes, q.rfqId ∈ db.rfqs.map (·.id)

/-- The RFQ is there and has the status. -/
def StatusIs (db : Db) (rfqId : Uuid) (status : RfqStatus) : Prop :=
  ∃ r ∈ db.rfqs, r.id = rfqId ∧ r.status = status

/-- The RFQ that a call has read, and its opportunity. -/
def KnowsRfq (db : Db) (call : RfqCall) : Prop :=
  call.opportunity.id = call.rfq.opportunityId ∧ ∃ r ∈ db.rfqs, RfqLater call.rfq r

def KnowsRecipient (db : Db) (recipient : RFQRecipient) : Prop :=
  recipient.state ≠ .expired ∧ ∃ r ∈ db.rfqRecipients, RecipientLater recipient r

def KnowsQuote (db : Db) (call : RfqCall) (quote : Quote) : Prop :=
  quote.rfqId = call.rfq.id ∧ ∃ q ∈ db.quotes, QuoteLater quote q

/-- And it is still `SUBMITTED`. -/
def QuoteSubmitted (db : Db) (call : RfqCall) (quote : Quote) : Prop :=
  quote.rfqId = call.rfq.id ∧ ∃ q ∈ db.quotes, QuoteLater quote q ∧ q.status = .submitted

/-- A submission goes by a recipient that could still be `QUOTED`. -/
def KnowsQuotable (db : Db) (recipient : RFQRecipient) : Prop :=
  .quoted ∈ rfqRecipientTransitions recipient.state ∧ KnowsRecipient db recipient

/-- A selection goes by an RFQ that was `QUOTED`. -/
def KnowsSelectable (db : Db) (call : RfqCall) : Prop :=
  KnowsRfq db call ∧ call.rfq.status = .quoted ∧
    .selected ∈ opportunityTransitions call.opportunity.status

/-- What a call may rely on. -/
def Knows (db : Db) : Local → Prop
  | .rfqRead _ _ rfq _ => ∃ r ∈ db.rfqs, RfqLater rfq r
  | .opportunityRead call _ => KnowsRfq db call
  | .declineReady call | .declineLocked call => KnowsRecipient db call.recipient
  | .submitReady call | .submitLocked call => KnowsQuotable db call.recipient
  | .submitFresh call freshStatus | .submitNumbered call freshStatus _ =>
    KnowsQuotable db call.recipient ∧ StatusIs db call.rfq.id freshStatus
  | .withdrawRead call | .withdrawReady call | .withdrawLocked call =>
    KnowsQuote db call.toRfqCall call.quote
  | .withdrawFresh call => QuoteSubmitted db call.toRfqCall call.quote
  | .selectRead call | .selectReady call _ | .selectLocked call _ =>
    KnowsSelectable db call.toRfqCall ∧ KnowsQuote db call.toRfqCall call.quote
  | .selectFresh call _ =>
    KnowsSelectable db call.toRfqCall ∧ QuoteSubmitted db call.toRfqCall call.quote
  | .expiryFresh run fromStatus => ∀ status ∈ fromStatus,
    status ∈ RfqRepository.expirableStatuses ∧ StatusIs db run.rfqId status
  | _ => True

/-- The key of the RFQ that a call has locked. -/
def held (env : Env) : Local → Option Int
  | .declineLocked call => some (env.hashtext call.rfq.id)
  | .submitLocked call | .submitFresh call _ | .submitNumbered call _ _ =>
    some (env.hashtext call.rfq.id)
  | .withdrawLocked call | .withdrawFresh call => some (env.hashtext call.rfq.id)
  | .selectLocked call _ | .selectFresh call _ => some (env.hashtext call.rfq.id)
  | .expiryLocked run | .expiryFresh run _ => some (env.hashtext run.rfqId)
  | _ => none

/-! ### Each write concerns one RFQ -/

/-- The rows of one RFQ are left alone. -/
structure RowsKept (j : Uuid) (db db' : Db) : Prop where
  rfqs : ∀ r ∈ db.rfqs, r.id = j → r ∈ db'.rfqs
  quotes : ∀ q ∈ db.quotes, q.rfqId = j → q ∈ db'.quotes

section

variable {db db' : Db} {l : Local} {j : Uuid}

theorem rfqs_kept {k : Uuid} {status : RfqStatus} (hj : j ≠ k)
    (h : db'.rfqs = Rows.rewrite RFQ.id k (RfqRepository.setStatus status) db.rfqs) :
    ∀ r ∈ db.rfqs, r.id = j → r ∈ db'.rfqs :=
  fun r hr hid ↦ h ▸ Rows.mem_rewrite_iff.2 ⟨r, hr, if_neg (hid.symm ▸ hj)⟩

/-- A quote of another RFQ is another quote. -/
theorem quotes_kept (hc : Consistent db) {call : RfqCall} {quote : Quote} {status : QuoteStatus}
    (hquote : QuoteSubmitted db call quote) (hj : j ≠ call.rfq.id)
    (h : db'.quotes = Rows.rewrite Quote.id quote.id (QuoteRepository.setStatus status) db.quotes) :
    ∀ q ∈ db.quotes, q.rfqId = j → q ∈ db'.quotes := by
  intro q hq hid
  refine h ▸ Rows.mem_rewrite_iff.2 ⟨q, hq, if_neg fun hsame ↦ hj ?_⟩
  obtain ⟨hrfq, q₀, hq₀, hlater, -⟩ := hquote
  obtain rfl := Rows.eq_of_key_eq hc.quoteIds hq₀ hq (hsame.trans hlater.id.symm)
  exact hid.symm.trans (hlater.rfqId.trans hrfq)

/-- **The rows of an RFQ that a call does not hold the key of are left alone.** -/
theorem WroteRfq.kept {env : Env} (hc : Consistent db) (hl : Knows db l)
    (hj : held env l ≠ some (env.hashtext j)) (h : WroteRfq db db' l) : RowsKept j db db' := by
  have hne {k : Uuid} (hk : held env l = some (env.hashtext k)) : j ≠ k := by
    rintro rfl
    exact hj hk
  cases h with
  | created h =>
    exact ⟨fun r hr _ ↦ h.rfqs_eq ▸ List.mem_append_left _ hr, fun q hq _ ↦ h.quotes_eq ▸ hq⟩
  | declined h => exact ⟨fun r hr _ ↦ h.rfqs_eq ▸ hr, fun q hq _ ↦ h.quotes_eq ▸ hq⟩
  | submitted h =>
    refine ⟨?_, fun q hq _ ↦ h.quotes_eq ▸ List.mem_append_left _ hq⟩
    have hrfqs := h.rfqs_eq
    split at hrfqs
    · exact fun r hr _ ↦ hrfqs ▸ hr
    · exact rfqs_kept (hne rfl) hrfqs
  | withdrew h =>
    exact ⟨fun r hr _ ↦ h.rfqs_eq ▸ hr, quotes_kept hc hl (hne rfl) h.quotes_eq⟩
  | selected h =>
    exact ⟨rfqs_kept (hne rfl) h.rfqs_eq, quotes_kept hc hl.2 (hne rfl) h.quotes_eq⟩
  | expiring h =>
    refine ⟨?_, fun q hq _ ↦ h.quotes_eq ▸ hq⟩
    rcases h.rfqs_eq with hrfqs | ⟨-, hrfqs⟩
    · exact fun r hr _ ↦ hrfqs ▸ hr
    · exact rfqs_kept (hne rfl) hrfqs

theorem StatusIs.of_kept {status : RfqStatus} (h : StatusIs db j status)
    (hkept : RowsKept j db db') : StatusIs db' j status := by
  obtain ⟨r, hr, hid, hstatus⟩ := h
  exact ⟨r, hkept.rfqs r hr hid, hid, hstatus⟩

theorem KnowsRfq.of_later {call : RfqCall} (h : KnowsRfq db call) (hlater : Later db db') :
    KnowsRfq db' call := by
  obtain ⟨hid, r, hr, hr'⟩ := h
  obtain ⟨r', hmem, hr''⟩ := hlater.rfqs r hr
  exact ⟨hid, r', hmem, hr'.trans hr''⟩

theorem KnowsRecipient.of_later {recipient : RFQRecipient} (h : KnowsRecipient db recipient)
    (hlater : Later db db') : KnowsRecipient db' recipient := by
  obtain ⟨hstate, r, hr, hr'⟩ := h
  obtain ⟨r', hmem, hr''⟩ := hlater.recipients r hr
  exact ⟨hstate, r', hmem, hr'.trans hr''⟩

theorem KnowsQuote.of_later {call : RfqCall} {quote : Quote} (h : KnowsQuote db call quote)
    (hlater : Later db db') : KnowsQuote db' call quote := by
  obtain ⟨hrfq, q, hq, hq'⟩ := h
  obtain ⟨q', hmem, hq''⟩ := hlater.quotes q hq
  exact ⟨hrfq, q', hmem, hq'.trans hq''⟩

theorem QuoteSubmitted.of_kept {call : RfqCall} {quote : Quote} (h : QuoteSubmitted db call quote)
    (hkept : RowsKept call.rfq.id db db') : QuoteSubmitted db' call quote := by
  obtain ⟨hrfq, q, hq, hq', hstatus⟩ := h
  exact ⟨hrfq, q, hkept.quotes q hq (hq'.rfqId.trans hrfq), hq', hstatus⟩

/-- **Non-interference.** A write under another key, or under none, leaves what a call knows. -/
theorem knows_of_wrote {env : Env} {m : Local} (hc : Consistent db) (hl : Knows db l)
    (hm : Knows db m) (hlock : ∀ key, held env m = some key → held env l ≠ some key)
    (h : WroteRfq db db' l) : Knows db' m := by
  have hlater := h.later
  have hkept {k : Uuid} (hk : held env m = some (env.hashtext k)) : RowsKept k db db' :=
    h.kept hc hl (hlock _ hk)
  cases m with
  | rfqRead actor context rfq request =>
    obtain ⟨r, hr, hr'⟩ := hm
    obtain ⟨r', hmem, hr''⟩ := hlater.rfqs r hr
    exact ⟨r', hmem, hr'.trans hr''⟩
  | opportunityRead call request => exact KnowsRfq.of_later hm hlater
  | declineReady call | declineLocked call => exact KnowsRecipient.of_later hm hlater
  | submitReady call | submitLocked call => exact ⟨hm.1, hm.2.of_later hlater⟩
  | submitFresh call freshStatus | submitNumbered call freshStatus quoteVersion =>
    exact ⟨⟨hm.1.1, hm.1.2.of_later hlater⟩, hm.2.of_kept (hkept rfl)⟩
  | withdrawRead call | withdrawReady call | withdrawLocked call =>
    exact KnowsQuote.of_later hm hlater
  | withdrawFresh call => exact QuoteSubmitted.of_kept hm (hkept rfl)
  | selectRead call | selectReady call considered | selectLocked call considered =>
    exact ⟨⟨hm.1.1.of_later hlater, hm.1.2⟩, hm.2.of_later hlater⟩
  | selectFresh call considered =>
    exact ⟨⟨hm.1.1.of_later hlater, hm.1.2⟩, hm.2.of_kept (hkept rfl)⟩
  | expiryFresh run fromStatus =>
    exact fun status hstatus ↦ ⟨(hm status hstatus).1, (hm status hstatus).2.of_kept (hkept rfl)⟩
  | _ => trivial

/-! ### Writes keep the database consistent -/

theorem WroteRfq.rfqs_change (h : WroteRfq db db' l) : Rows.Change RFQ.id db.rfqs db'.rfqs := by
  cases h with
  | created h =>
    rw [h.rfqs_eq]
    refine .inserted (fun r hr ↦ ?_) (List.nodup_singleton _)
    exact List.mem_singleton.1 hr ▸ h.rfqFresh
  | submitted h =>
    rw [h.rfqs_eq]
    split
    · exact .kept
    · exact .rewritten _ (RfqRepository.setStatus_id _)
  | selected h =>
    rw [h.rfqs_eq]
    exact .rewritten _ (RfqRepository.setStatus_id _)
  | expiring h =>
    rcases h.rfqs_eq with hrfqs | ⟨-, hrfqs⟩
    · exact hrfqs ▸ .kept
    · rw [hrfqs]
      exact .rewritten _ (RfqRepository.setStatus_id _)
  | declined h | withdrew h => exact h.rfqs_eq ▸ .kept

theorem WroteRfq.recipients_change (h : WroteRfq db db' l) :
    Rows.Change RFQRecipient.id db.rfqRecipients db'.rfqRecipients := by
  cases h with
  | created h =>
    rw [h.recipients_eq]
    exact .inserted h.recipientsFresh h.recipientsNodup
  | declined h =>
    rw [h.recipients_eq]
    exact .rewritten _ (RfqRecipientRepository.setState_id _ _)
  | submitted h =>
    rw [h.recipients_eq]
    split
    · exact .kept
    · exact .rewritten _ (RfqRecipientRepository.setState_id _ _)
  | withdrew h | selected h | expiring h => exact h.recipients_eq ▸ .kept

theorem WroteRfq.quotes_change (h : WroteRfq db db' l) :
    Rows.Change Quote.id db.quotes db'.quotes := by
  cases h with
  | submitted h =>
    rw [h.quotes_eq]
    refine .inserted (fun q hq ↦ ?_) (List.nodup_singleton _)
    exact List.mem_singleton.1 hq ▸ h.quoteFresh
  | withdrew h | selected h =>
    rw [h.quotes_eq]
    exact .rewritten _ (QuoteRepository.setStatus_id _)
  | created h | declined h | expiring h => exact h.quotes_eq ▸ .kept

theorem OpportunityWritten.change {w : Option (Opportunity × OpportunityStatus)}
    (h : OpportunityWritten db db' w) :
    Rows.Change Opportunity.id db.opportunities db'.opportunities := by
  cases w with
  | none => exact h.rows_eq ▸ .kept
  | some w =>
    rw [h.rows_eq]
    exact .rewritten _ (OpportunityRepository.setStatus_id _)

/-- Every quote after a write was there before, or is on the RFQ of the call. -/
theorem WroteRfq.quote_origin (h : WroteRfq db db' l) {q : Quote} (hq : q ∈ db'.quotes) :
    (∃ q₀ ∈ db.quotes, QuoteLater q₀ q) ∨ ∃ call freshStatus quoteVersion,
      l = .submitNumbered call freshStatus quoteVersion ∧ q.rfqId = call.rfq.id := by
  have hsame {id : Uuid} {status : QuoteStatus} (hquotes : db'.quotes =
      Rows.rewrite Quote.id id (QuoteRepository.setStatus status) db.quotes) :
      ∃ q₀ ∈ db.quotes, QuoteLater q₀ q := by
    rw [hquotes] at hq
    obtain ⟨q₀, hq₀, rfl⟩ := Rows.mem_rewrite_iff.1 hq
    refine ⟨q₀, hq₀, ?_⟩
    split
    · exact ⟨rfl, rfl, rfl, rfl⟩
    · exact QuoteLater.refl _
  cases h with
  | submitted h =>
    rw [h.quotes_eq] at hq
    rcases List.mem_append.1 hq with hq | hq
    · exact Or.inl ⟨q, hq, QuoteLater.refl q⟩
    · rw [List.mem_singleton] at hq
      exact Or.inr ⟨_, _, _, rfl, hq ▸ h.rfqId⟩
  | withdrew h | selected h => exact Or.inl (hsame h.quotes_eq)
  | created h | declined h | expiring h => exact Or.inl ⟨q, h.quotes_eq ▸ hq, QuoteLater.refl q⟩

theorem Wrote.consistent (hc : Consistent db) (hl : Knows db l) (h : Wrote db db' l) :
    Consistent db' where
  opportunityIds := h.opportunity.change.nodup hc.opportunityIds
  rfqIds := h.rfq.rfqs_change.nodup hc.rfqIds
  recipientIds := h.rfq.recipients_change.nodup hc.recipientIds
  quoteIds := h.rfq.quotes_change.nodup hc.quoteIds
  quoteRfqs q hq := by
    have hlasts {id : Uuid} (hid : id ∈ db.rfqs.map (·.id)) : id ∈ db'.rfqs.map (·.id) := by
      obtain ⟨r, hr, rfl⟩ := List.mem_map.1 hid
      obtain ⟨r', hr', hlater⟩ := h.rfq.later.rfqs r hr
      exact List.mem_map.2 ⟨r', hr', hlater.id⟩
    rcases h.rfq.quote_origin hq with ⟨q₀, hq₀, hlater⟩ | ⟨call, freshStatus, quoteVersion, rfl, hid⟩
    · exact hlater.rfqId ▸ hlasts (hc.quoteRfqs q₀ hq₀)
    · obtain ⟨r, hr, hr', -⟩ := hl.2
      exact hid ▸ hlasts (List.mem_map.2 ⟨r, hr, hr'⟩)

end

/-! ### What the reads establish -/

/-- What a read of a call has found. -/
inductive Read (db : Db) : Local → Local → Prop
  | createRead {actor context input opportunity} : opportunity ∈ db.opportunities →
      Read db (.called actor context (.create input))
        (.createRead ⟨actor, context, input, opportunity⟩)
  | createReady {call} : Read db (.createRead call) (.createReady call)
  | rfqRead {actor context request rfq onRfq} : rfq ∈ db.rfqs →
      Read db (.called actor context request) (.rfqRead actor context rfq onRfq)
  | opportunityRead {actor context rfq request opportunity} : opportunity ∈ db.opportunities →
      opportunity.id = rfq.opportunityId →
      Read db (.rfqRead actor context rfq request)
        (.opportunityRead ⟨actor, context, rfq, opportunity⟩ request)
  | declineReady {call input recipient} : recipient ∈ db.rfqRecipients →
      .declined ∈ rfqRecipientTransitions recipient.state →
      Read db (.opportunityRead call (.decline input)) (.declineReady ⟨call, input, recipient⟩)
  | submitReady {call input recipient} : recipient ∈ db.rfqRecipients →
      .quoted ∈ rfqRecipientTransitions recipient.state →
      Read db (.opportunityRead call (.submitQuote input)) (.submitReady ⟨call, input, recipient⟩)
  | withdrawRead {call quoteId quote} : quote ∈ db.quotes → quote.rfqId = call.rfq.id →
      Read db (.opportunityRead call (.withdrawQuote quoteId)) (.withdrawRead ⟨call, quote⟩)
  | selectRead {call input quote} : quote ∈ db.quotes → quote.rfqId = call.rfq.id →
      .selected ∈ rfqTransitions call.rfq.status →
      .selected ∈ opportunityTransitions call.opportunity.status →
      Read db (.opportunityRead call (.selectQuote input)) (.selectRead ⟨call, input, quote⟩)
  | submitFresh {call freshStatus} : StatusIs db call.rfq.id freshStatus →
      Read db (.submitLocked call) (.submitFresh call freshStatus)
  | submitNumbered {call freshStatus quoteVersion} :
      Read db (.submitFresh call freshStatus) (.submitNumbered call freshStatus quoteVersion)
  | withdrawReady {call} : Read db (.withdrawRead call) (.withdrawReady call)
  | withdrawFresh {call} : (∃ q ∈ db.quotes, q.id = call.quote.id ∧ q.status = .submitted) →
      Read db (.withdrawLocked call) (.withdrawFresh call)
  | selectReady {call considered} : Read db (.selectRead call) (.selectReady call considered)
  | selectFresh {call considered} :
      (∃ q ∈ db.quotes, q.id = call.quote.id ∧ q.status = .submitted) →
      Read db (.selectLocked call considered) (.selectFresh call considered)
  | found {rfqId result due} : Read db (.delivered rfqId) (proceed result due)
  | expiryFresh {run} : Read db (.expiryLocked run) (.expiryFresh run (expirableStatus db run.rfqId))

section

variable {db : Db} {l l' : Local}

theorem recipientOf_mem {call : RfqCall} {recipient : RFQRecipient}
    (h : recipientOf db call = some recipient) : recipient ∈ db.rfqRecipients := by
  obtain ⟨organizationId, -, h⟩ := Option.bind_eq_some_iff.1 h
  exact List.mem_of_find?_eq_some h

theorem precheckRecipient_eq_ok {action : Action} {target : RfqRecipientState} {call : RfqCall}
    {recipient : RFQRecipient} (h : precheckRecipient action target db call = .ok recipient) :
    recipient ∈ db.rfqRecipients ∧ target ∈ rfqRecipientTransitions recipient.state := by
  obtain ⟨_, -, h⟩ := Except.bind_eq_ok'.1 h
  obtain ⟨found, hfound, h⟩ := Except.bind_eq_ok'.1 h
  obtain ⟨_, hedge, h⟩ := Except.bind_eq_ok'.1 h
  obtain rfl := Except.ok.inj h
  exact ⟨recipientOf_mem (orThrow_eq_ok_iff.1 hfound), (assertValidTransition_eq_ok_iff.1 hedge).2⟩

theorem loadQuote_eq_ok {call : RfqCall} {quoteId : Uuid} {quote : Quote}
    (h : loadQuote db call quoteId = .ok quote) : quote ∈ db.quotes ∧ quote.rfqId = call.rfq.id := by
  obtain ⟨hfind, hrfq⟩ := Option.filter_eq_some_iff.1 (orThrow_eq_ok_iff.1 h)
  exact ⟨List.mem_of_find?_eq_some hfind, of_decide_eq_true hrfq⟩

theorem check_eq_ok {call : RfqCall} {request : RfqRequest} (h : check db call request = .ok l') :
    Read db (.opportunityRead call request) l' := by
  cases request with
  | decline input =>
    obtain ⟨recipient, hrecipient, h⟩ := Except.bind_eq_ok'.1 h
    obtain rfl := Except.ok.inj h
    obtain ⟨hmem, hedge⟩ := precheckRecipient_eq_ok hrecipient
    exact .declineReady hmem hedge
  | submitQuote input =>
    obtain ⟨recipient, hrecipient, h⟩ := Except.bind_eq_ok'.1 h
    obtain rfl := Except.ok.inj h
    obtain ⟨hmem, hedge⟩ := precheckRecipient_eq_ok hrecipient
    exact .submitReady hmem hedge
  | withdrawQuote quoteId =>
    obtain ⟨quote, hquote, h⟩ := Except.bind_eq_ok'.1 h
    obtain rfl := Except.ok.inj h
    obtain ⟨hmem, hrfq⟩ := loadQuote_eq_ok hquote
    exact .withdrawRead hmem hrfq
  | selectQuote input =>
    obtain ⟨quote, hquote, h⟩ := Except.bind_eq_ok'.1 h
    obtain rfl := Except.ok.inj h
    obtain ⟨_, -, hquote⟩ := Except.bind_eq_ok'.1 hquote
    obtain ⟨found, hfound, hquote⟩ := Except.bind_eq_ok'.1 hquote
    obtain ⟨_, -, hquote⟩ := Except.bind_eq_ok'.1 hquote
    obtain ⟨_, hrfqEdge, hquote⟩ := Except.bind_eq_ok'.1 hquote
    obtain ⟨_, hedge, hquote⟩ := Except.bind_eq_ok'.1 hquote
    obtain rfl := Except.ok.inj hquote
    obtain ⟨hmem, hrfq⟩ := loadQuote_eq_ok hfound
    exact .selectRead hmem hrfq (not_not.1 (throwIf_eq_ok_iff.1 hrfqEdge))
      (assertValidTransition_eq_ok_iff.1 hedge).2

/-- Only a `SUBMITTED` quote can go anywhere. -/
theorem submitted_of_edge {status target : QuoteStatus} (h : target ∈ quoteTransitions status) :
    status = .submitted := by
  cases status with
  | submitted => rfl
  | _ => cases h

theorem revalidateQuote_eq_ok {quoteId : Uuid} {target : QuoteStatus} {u : Unit}
    (h : revalidateQuote db quoteId target = .ok u) :
    ∃ q ∈ db.quotes, q.id = quoteId ∧ q.status = .submitted := by
  obtain ⟨fresh, hfresh, h⟩ := Except.bind_eq_ok'.1 h
  have hfind : db.quotes.find? (·.id = quoteId) = some fresh := orThrow_eq_ok_iff.1 hfresh
  exact ⟨fresh, List.mem_of_find?_eq_some hfind, of_decide_eq_true (List.find?_some hfind :),
    submitted_of_edge (assertValidTransition_eq_ok_iff.1 h).2⟩

theorem reloadRfqStatus_eq_ok {call : RfqCall} {freshStatus : RfqStatus}
    (h : reloadRfqStatus db call = .ok freshStatus) : StatusIs db call.rfq.id freshStatus := by
  obtain ⟨fresh, hfresh, h⟩ := Except.bind_eq_ok'.1 h
  obtain ⟨_, -, h⟩ := Except.bind_eq_ok'.1 h
  have hfind : db.rfqs.find? (·.id = call.rfq.id) = some fresh := orThrow_eq_ok_iff.1 hfresh
  exact ⟨fresh, List.mem_of_find?_eq_some hfind, of_decide_eq_true (List.find?_some hfind :),
    Except.ok.inj h⟩

theorem expirableStatus_eq_some {rfqId : Uuid} {status : RfqStatus}
    (h : expirableStatus db rfqId = some status) :
    status ∈ RfqRepository.expirableStatuses ∧ StatusIs db rfqId status := by
  obtain ⟨hmap, hexpirable⟩ := Option.filter_eq_some_iff.1 h
  obtain ⟨r, hfind, rfl⟩ := Option.map_eq_some_iff.1 hmap
  exact ⟨of_decide_eq_true hexpirable, r, List.mem_of_find?_eq_some hfind,
    of_decide_eq_true (List.find?_some hfind :), rfl⟩

theorem loadRfq_mem {rfqId : Uuid} {rfq : RFQ} (h : loadRfq db rfqId = .ok rfq) : rfq ∈ db.rfqs :=
  List.mem_of_find?_eq_some (orThrow_eq_ok_iff.1 h)

theorem findDue_eq (db : Db) (now : Instant) (rfqId : Option Uuid) :
    ∃ result due, findDue db now rfqId = proceed result due := by
  unfold findDue
  split
  · split
    · exact ⟨_, [], rfl⟩
    · split
      · exact ⟨_, [], rfl⟩
      · exact ⟨_, _, rfl⟩
  · exact ⟨_, _, rfl⟩

theorem read_of_query {env : Env} {d : Draws} {f : Db → Except Thrown Local}
    (hnext : (calls env).next d l = .query f) (hf : f db = .ok l') : Read db l l' := by
  cases l with
  | called actor context request =>
    obtain rfl := NextStep.query.inj hnext
    cases request with
    | create input =>
      obtain ⟨opportunity, hopportunity, h⟩ := Except.bind_eq_ok'.1 hf
      obtain rfl := Except.ok.inj h
      obtain ⟨found, hfound, h⟩ := Except.bind_eq_ok'.1 hopportunity
      obtain ⟨_, -, h⟩ := Except.bind_eq_ok'.1 h
      obtain ⟨_, -, h⟩ := Except.bind_eq_ok'.1 h
      obtain rfl := Except.ok.inj h
      exact .createRead (List.mem_of_find?_eq_some (orThrow_eq_ok_iff.1 hfound))
    | decline | submitQuote | withdrawQuote | selectQuote =>
      obtain ⟨rfq, hrfq, h⟩ := Except.bind_eq_ok'.1 hf
      obtain rfl := Except.ok.inj h
      exact .rfqRead (loadRfq_mem hrfq)
  | createRead call =>
    obtain rfl := NextStep.query.inj hnext
    obtain ⟨_, -, h⟩ := Except.bind_eq_ok'.1 hf
    obtain rfl := Except.ok.inj h
    exact .createReady
  | rfqRead actor context rfq request =>
    obtain rfl := NextStep.query.inj hnext
    obtain ⟨opportunity, hopportunity, h⟩ := Except.bind_eq_ok'.1 hf
    obtain rfl := Except.ok.inj h
    have hfind : db.opportunities.find? (·.id = rfq.opportunityId) = some opportunity :=
      orThrow_eq_ok_iff.1 hopportunity
    exact .opportunityRead (List.mem_of_find?_eq_some hfind)
      (of_decide_eq_true (List.find?_some hfind :))
  | opportunityRead call request =>
    obtain rfl := NextStep.query.inj hnext
    exact check_eq_ok hf
  | submitLocked call =>
    obtain rfl := NextStep.query.inj hnext
    obtain ⟨freshStatus, hfresh, h⟩ := Except.bind_eq_ok'.1 hf
    obtain rfl := Except.ok.inj h
    exact .submitFresh (reloadRfqStatus_eq_ok hfresh)
  | submitFresh call freshStatus =>
    obtain rfl := NextStep.query.inj hnext
    obtain rfl := Except.ok.inj hf
    exact .submitNumbered
  | withdrawRead call =>
    obtain rfl := NextStep.query.inj hnext
    obtain ⟨_, -, h⟩ := Except.bind_eq_ok'.1 hf
    obtain rfl := Except.ok.inj h
    exact .withdrawReady
  | withdrawLocked call =>
    obtain rfl := NextStep.query.inj hnext
    obtain ⟨_, hquote, h⟩ := Except.bind_eq_ok'.1 hf
    obtain rfl := Except.ok.inj h
    exact .withdrawFresh (revalidateQuote_eq_ok hquote)
  | selectRead call =>
    obtain rfl := NextStep.query.inj hnext
    obtain rfl := Except.ok.inj hf
    exact .selectReady
  | selectLocked call considered =>
    obtain rfl := NextStep.query.inj hnext
    obtain ⟨_, hquote, h⟩ := Except.bind_eq_ok'.1 hf
    obtain rfl := Except.ok.inj h
    exact .selectFresh (revalidateQuote_eq_ok hquote)
  | delivered rfqId =>
    obtain rfl := NextStep.query.inj hnext
    obtain rfl := Except.ok.inj hf
    obtain ⟨result, due, heq⟩ := findDue_eq db d.now rfqId
    exact heq ▸ .found
  | expiryLocked run =>
    obtain rfl := NextStep.query.inj hnext
    obtain rfl := Except.ok.inj hf
    exact .expiryFresh
  | _ => cases hnext

/-- The recipient was not `QUOTED` when it was read, so a submission writes it. -/
theorem Submitted.rewritten {call : SubmitCall} {freshStatus : RfqStatus} {quote : Quote}
    (h : Submitted db db' call freshStatus quote) (hquotable : KnowsQuotable db call.recipient) :
    db'.rfqRecipients = Rows.rewrite RFQRecipient.id call.recipient.id
      (RfqRecipientRepository.setState .quoted none) db.rfqRecipients := by
  have hnotQuoted : call.recipient.state ≠ .quoted := by
    intro hquoted
    have hedge := hquotable.1
    rw [hquoted] at hedge
    revert hedge
    decide
  rw [h.recipients_eq, if_neg hnotQuoted]

theorem not_expired_of_edge {state target : RfqRecipientState}
    (h : target ∈ rfqRecipientTransitions state) : state ≠ .expired := by
  rintro rfl
  cases h

theorem quoted_of_selectable {status : RfqStatus} (h : .selected ∈ rfqTransitions status) :
    status = .quoted := by
  cases status with
  | quoted => rfl
  | _ => revert h; decide

theorem QuoteSubmitted.of_found (hc : Consistent db) {call : RfqCall} {quote : Quote}
    (hquote : KnowsQuote db call quote)
    (h : ∃ q ∈ db.quotes, q.id = quote.id ∧ q.status = .submitted) :
    QuoteSubmitted db call quote := by
  obtain ⟨hrfq, q₀, hq₀, hlater⟩ := hquote
  obtain ⟨q, hq, hid, hstatus⟩ := h
  obtain rfl := Rows.eq_of_key_eq hc.quoteIds hq₀ hq (hid.trans hlater.id.symm)
  exact ⟨hrfq, q, hq, hlater, hstatus⟩

theorem knows_proceed {result : RfqExpiryJobResult} {due : List (Uuid × Instant)} :
    Knows db (proceed result due) := by
  cases due <;> trivial

theorem Read.knows (hc : Consistent db) (hl : Knows db l) (h : Read db l l') : Knows db l' := by
  cases h with
  | rfqRead hrfq => exact ⟨_, hrfq, RfqLater.refl _⟩
  | opportunityRead _ hid => exact ⟨hid, hl⟩
  | declineReady hmem hedge => exact ⟨not_expired_of_edge hedge, _, hmem, RecipientLater.refl _⟩
  | submitReady hmem hedge =>
    exact ⟨hedge, not_expired_of_edge hedge, _, hmem, RecipientLater.refl _⟩
  | withdrawRead hmem hrfq => exact ⟨hrfq, _, hmem, QuoteLater.refl _⟩
  | selectRead hmem hrfq hrfqEdge hedge =>
    exact ⟨⟨hl, quoted_of_selectable hrfqEdge, hedge⟩, hrfq, _, hmem, QuoteLater.refl _⟩
  | submitFresh hstatus => exact ⟨hl, hstatus⟩
  | submitNumbered => exact hl
  | withdrawReady => exact hl
  | withdrawFresh hfound => exact .of_found hc hl hfound
  | selectReady => exact hl
  | selectFresh hfound => exact ⟨hl.1, .of_found hc hl.2 hfound⟩
  | found => exact knows_proceed
  | expiryFresh => exact fun status hstatus ↦ expirableStatus_eq_some hstatus
  | createRead | createReady => trivial

end

/-! ### Runs -/

section

variable (env : Env)

theorem held_proceed {result : RfqExpiryJobResult} {due : List (Uuid × Instant)} :
    held env (proceed result due) = none := by
  cases due <;> rfl

/-- Each call is under the key of its RFQ from its lock to its commit. -/
def lockDiscipline : (calls env).LockDiscipline where
  held := held env
  queried {d l f db l'} hnext hf := by
    cases read_of_query hnext hf with
    | found => exact held_proceed env
    | _ => rfl
  locked {d l key l'} hnext := by
    cases l with
    | declineReady | submitReady | withdrawReady | selectReady | expiring =>
      obtain ⟨rfl, rfl⟩ := NextStep.lock.inj hnext
      rfl
    | _ => cases hnext
  committed {d l body db l' db'} hnext hbody := by
    cases l with
    | createReady | declineLocked | submitNumbered | withdrawFresh | selectFresh =>
      obtain rfl := NextStep.commit.inj hnext
      obtain ⟨result, -, rfl⟩ := Tx.map_eq_ok.1 hbody
      rfl
    | expiryFresh run fromStatus =>
      obtain rfl := NextStep.commit.inj hnext
      obtain ⟨expired, -, rfl⟩ := Tx.map_eq_ok.1 hbody
      exact held_proceed env
    | _ => cases hnext
  failed _ := rfl
  crashed := rfl

/-- The outline of the RFQ calls. -/
def outline : (calls env).Outline (lockDiscipline env) where
  inv := Consistent
  asrt := Knows
  queried hc hl hnext hf := (read_of_query hnext hf).knows hc hl
  locked {d l key db l'} _ hl hnext := by
    cases l with
    | declineReady | submitReady | withdrawReady | selectReady =>
      obtain ⟨rfl, rfl⟩ := NextStep.lock.inj hnext
      exact hl
    | expiring =>
      obtain ⟨rfl, rfl⟩ := NextStep.lock.inj hnext
      trivial
    | _ => cases hnext
  committed {d l body db l' db'} hc hl hnext hbody := by
    refine ⟨(wrote_of_commit hnext hbody).consistent hc hl, ?_⟩
    cases l with
    | createReady | declineLocked | submitNumbered | withdrawFresh | selectFresh =>
      obtain rfl := NextStep.commit.inj hnext
      obtain ⟨result, -, rfl⟩ := Tx.map_eq_ok.1 hbody
      trivial
    | expiryFresh run fromStatus =>
      obtain rfl := NextStep.commit.inj hnext
      obtain ⟨expired, -, rfl⟩ := Tx.map_eq_ok.1 hbody
      exact knows_proceed
    | _ => cases hnext
  failed _ := trivial
  crashed := trivial
  stable hc hl hm hlock hnext hbody :=
    knows_of_wrote hc hl hm hlock (wrote_of_commit hnext hbody).rfq

/-- A configuration of RFQ calls. -/
abbrev Config (Pid : Type) : Type :=
  PartySystem.Config Pid (CallSystem.Shared Db Int Pid) Local

/-- A request that has just come in, or a job that has just been delivered. -/
def IsNew (l : Local) : Prop :=
  (∃ actor context request, l = .called actor context request) ∨ ∃ rfqId, l = .delivered rfqId

/-- Where a run starts. -/
structure Initial {Pid : Type} (c : Config Pid) : Prop where
  consistent : Consistent c.shared.db
  new : ∀ p, IsNew (c.locals p)

variable {env} {Pid : Type} [DecidableEq Pid] {c c' : Config Pid} {p : Pid} {t : Tick Draws}

/-- The locks and the outline, in one configuration. -/
def Sound (env : Env) (c : Config Pid) : Prop :=
  (lockDiscipline env).Kept c ∧ (outline env).Holds c

omit [DecidableEq Pid] in
theorem Initial.sound (h : Initial c) : Sound env c := by
  refine ⟨fun p key hheld ↦ ?_, h.consistent, fun p ↦ ?_⟩
  · rcases h.new p with ⟨actor, context, request, hlocal⟩ | ⟨rfqId, hlocal⟩
    · rw [hlocal] at hheld
      cases hheld
    · rw [hlocal] at hheld
      cases hheld
  · rcases h.new p with ⟨actor, context, request, hlocal⟩ | ⟨rfqId, hlocal⟩
    · rw [hlocal]
      trivial
    · rw [hlocal]
      trivial

theorem Sound.fire (h : Sound env c) (hfire : ((calls env).system Pid).fire c p t = some c') :
    Sound env c' :=
  ⟨h.1.fire hfire, h.2.fire h.1 hfire⟩

end

end TolPlatform.Rfqs
