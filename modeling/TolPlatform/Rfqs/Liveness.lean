import TolPlatform.Rfqs.Selection

/-!
# Selecting live quotes

`selectQuote` looks at the status of its quote and at nothing else of it. That status is `SUBMITTED`,
whatever interleaves; but no status says that a quote is past its `validUntil`, and a provider that
declines leaves its quotes `SUBMITTED`. So a selection is live exactly when the clock has not passed the
`validUntil` that the request read up front and the provider's recipient row is not `DECLINED` at the
commit. For that, it is enough that nobody declines with a quote on the table
(`selectionsLive_iff`).
-/

namespace TolPlatform.Rfqs

/-- The provider of the quote has not declined. -/
def Standing (db : Db) (q : Quote) : Prop :=
  ∀ r ∈ db.rfqRecipients, r.id = q.rfqRecipientId → r.state ≠ .declined

/-- The quote can be selected at that time. -/
structure Live (db : Db) (now : Instant) (q : Quote) : Prop where
  submitted : q.status = .submitted
  valid : now ≤ q.validUntil
  standing : Standing db q

/-- What a call selects is live. -/
def SelectsLive (db : Db) (now : Instant) : Local → Prop
  | .selectFresh call _ => ∀ q ∈ db.quotes, q.id = call.quote.id → Live db now q
  | _ => True

/-- A call that selects is in time for the quote that it has read. -/
def InTime (now : Instant) : Local → Prop
  | .selectFresh call _ => now ≤ call.quote.validUntil
  | _ => True

/-- And its provider has not declined. -/
def FromStanding (db : Db) : Local → Prop
  | .selectFresh call _ => Standing db call.quote
  | _ => True

/-- A call that declines leaves no quote on the table. -/
def LeavesNoQuote (db : Db) : Local → Prop
  | .declineLocked call =>
    ∀ q ∈ db.quotes, q.rfqRecipientId = call.recipient.id → q.status ≠ .submitted
  | _ => True

/-- Every quote on the table is one of a provider that has not declined. -/
def AllStanding (db : Db) : Prop := ∀ q ∈ db.quotes, q.status = .submitted → Standing db q

section

variable {db db' : Db} {l : Local} {now : Instant}

/-- The quote that is there is the one that was read, and it is `SUBMITTED`. -/
theorem QuoteSubmitted.live_iff (hc : Consistent db) {call : RfqCall} {quote : Quote}
    (h : QuoteSubmitted db call quote) :
    (∀ q ∈ db.quotes, q.id = quote.id → Live db now q) ↔
      now ≤ quote.validUntil ∧ Standing db quote := by
  obtain ⟨-, q, hq, hlater, hsubmitted⟩ := h
  have hstanding : Standing db q ↔ Standing db quote := by
    rw [Standing, Standing, hlater.rfqRecipientId]
  constructor
  · intro hlive
    obtain ⟨-, hvalid, hq'⟩ := hlive q hq hlater.id
    exact ⟨hlater.validUntil ▸ hvalid, hstanding.1 hq'⟩
  · rintro ⟨hvalid, hquote⟩ q' hq' hid
    obtain rfl := Rows.eq_of_key_eq hc.quoteIds hq hq' (hid.trans hlater.id.symm)
    exact ⟨hsubmitted, hlater.validUntil.symm ▸ hvalid, hstanding.2 hquote⟩

theorem selectsLive_iff (hc : Consistent db) (hl : Knows db l) :
    SelectsLive db now l ↔ InTime now l ∧ FromStanding db l := by
  cases l with
  | selectFresh call considered => exact hl.2.live_iff hc
  | _ => exact iff_of_true trivial ⟨trivial, trivial⟩

/-- With nobody declining over a quote on the table, the provider of a selected quote stands. -/
theorem selectsLive_of_allStanding (hc : Consistent db) (hl : Knows db l) (hall : AllStanding db)
    (htime : InTime now l) : SelectsLive db now l := by
  refine (selectsLive_iff hc hl).2 ⟨htime, ?_⟩
  cases l with
  | selectFresh call considered =>
    obtain ⟨-, -, q, hq, hlater, hsubmitted⟩ := hl
    have hstanding := hall q hq hsubmitted
    rw [Standing, hlater.rfqRecipientId] at hstanding
    exact hstanding
  | _ => trivial

/-- A row of a rewritten table is an old one or a rewritten one. -/
theorem standing_of_rewrite {id : Uuid} {state : RfqRecipientState} {reason : Option String}
    (h : db'.rfqRecipients = Rows.rewrite RFQRecipient.id id
      (RfqRecipientRepository.setState state reason) db.rfqRecipients) {q : Quote}
    (hother : q.rfqRecipientId ≠ id → Standing db q)
    (hsame : q.rfqRecipientId = id → state ≠ .declined) : Standing db' q := by
  intro r hr hrid
  rw [h] at hr
  obtain ⟨r₀, hr₀, rfl⟩ := Rows.mem_rewrite_iff.1 hr
  by_cases hid : r₀.id = id
  · rw [if_pos hid] at hrid ⊢
    exact hsame (hrid.symm.trans hid)
  · rw [if_neg hid] at hrid ⊢
    exact hother (fun heq ↦ hid (hrid.trans heq)) r₀ hr₀ hrid

theorem AllStanding.of_wrote (hl : Knows db l) (hall : AllStanding db) (hleaves : LeavesNoQuote db l)
    (h : WroteRfq db db' l) : AllStanding db' := by
  -- recipients as they were, and quotes that are still on the table or have left it
  have hmoved {id : Uuid} {status : QuoteStatus} (hstatus : status ≠ .submitted)
      (hrecipients : db'.rfqRecipients = db.rfqRecipients)
      (hquotes : db'.quotes =
        Rows.rewrite Quote.id id (QuoteRepository.setStatus status) db.quotes) :
      AllStanding db' := by
    intro q hq hsubmitted
    rw [hquotes] at hq
    obtain ⟨q₀, hq₀, rfl⟩ := Rows.mem_rewrite_iff.1 hq
    by_cases hid : q₀.id = id
    · rw [if_pos hid] at hsubmitted
      exact absurd hsubmitted hstatus
    · rw [if_neg hid] at hsubmitted ⊢
      rw [Standing, hrecipients]
      exact hall q₀ hq₀ hsubmitted
  cases h with
  | created h =>
    intro q hq hsubmitted r hr hrid
    rw [h.recipients_eq] at hr
    rcases List.mem_append.1 hr with hr | hr
    · exact hall q (h.quotes_eq ▸ hq) hsubmitted r hr hrid
    · rw [h.recipientsInvited r hr]
      decide
  | declined h =>
    intro q hq hsubmitted
    rw [h.quotes_eq] at hq
    refine standing_of_rewrite h.recipients_eq (fun _ ↦ hall q hq hsubmitted) fun hid ↦ ?_
    exact absurd hsubmitted (hleaves q hq hid)
  | submitted h =>
    intro q hq hsubmitted
    refine standing_of_rewrite (h.rewritten hl.1) (fun hne ↦ ?_) fun _ ↦ by decide
    rw [h.quotes_eq] at hq
    rcases List.mem_append.1 hq with hq | hq
    · exact hall q hq hsubmitted
    · rw [List.mem_singleton.1 hq, h.rfqRecipientId] at hne
      exact absurd rfl hne
  | withdrew h => exact hmoved (by decide) h.recipients_eq h.quotes_eq
  | selected h => exact hmoved (by decide) h.recipients_eq h.quotes_eq
  | expiring h =>
    intro q hq hsubmitted
    rw [h.quotes_eq] at hq
    rw [Standing, h.recipients_eq]
    exact hall q hq hsubmitted

end

/-! ### Runs -/

section

variable {env : Env} {Pid : Type} [DecidableEq Pid] {c c' : Config Pid} {p : Pid} {t : Tick Draws}

/-- The property holds of a step that commits, at the time it does. -/
def AtCommit (env : Env) (P : Instant → Db → Local → Prop) (c : Config Pid) (p : Pid)
    (t : Tick Draws) : Prop :=
  (calls env).Commits c p t → ∀ d, t = .act d → P d.now c.shared.db (c.locals p)

omit [DecidableEq Pid] in
theorem Sound.selectsLive_iff (h : Sound env c) :
    AtCommit env (fun now db l ↦ SelectsLive db now l) c p t ↔
      AtCommit env (fun now db l ↦ InTime now l ∧ FromStanding db l) c p t :=
  forall_congr' fun _ ↦ forall_congr' fun _ ↦ forall_congr' fun _ ↦
    Rfqs.selectsLive_iff h.2.1 (h.2.2 p)

theorem Sound.allStanding (h : Sound env c) (hall : AllStanding c.shared.db)
    (hfire : ((calls env).system Pid).fire c p t = some c')
    (hleaves : AtCommit env (fun now db l ↦ InTime now l ∧ LeavesNoQuote db l) c p t) :
    AllStanding c'.shared.db := by
  rcases CallSystem.commits_or_not hfire with ⟨-, hdb⟩ | ⟨hcommits, d, body, hnext, hbody⟩
  · rwa [hdb]
  · obtain ⟨d', -, -, rfl, -⟩ := id hcommits
    exact hall.of_wrote (h.2.2 p) (hleaves hcommits d' rfl).2 (wrote_of_commit hnext hbody).rfq

/-- **When only live quotes are selected.** In every run, all selections that commit are live if and
only if each of them is in time for the quote that it has read and finds the provider's recipient row
not `DECLINED`. That is so in every run in which the selections are in time and no refusal commits
with a quote of that provider on the table, if it starts with no such quote. -/
theorem selectionsLive_iff (hc : Initial c) (steps : List (Pid × Tick Draws)) :
    (((calls env).system Pid).Along
        (fun c p t _ ↦ AtCommit env (fun now db l ↦ SelectsLive db now l) c p t) c steps ↔
      ((calls env).system Pid).Along
        (fun c p t _ ↦ AtCommit env (fun now db l ↦ InTime now l ∧ FromStanding db l) c p t)
        c steps) ∧
    (AllStanding c.shared.db →
      ((calls env).system Pid).Along
        (fun c p t _ ↦ AtCommit env (fun now db l ↦ InTime now l ∧ LeavesNoQuote db l) c p t)
        c steps →
      ((calls env).system Pid).Along
        (fun c p t _ ↦ AtCommit env (fun now db l ↦ SelectsLive db now l) c p t) c steps) := by
  constructor
  · exact PartySystem.Along.congr_of_inv (I := Sound env) (fun h _ ↦ h.selectsLive_iff)
      (fun h hfire _ ↦ h.fire hfire) hc.sound steps
  · intro hall
    refine PartySystem.Along.imp_of_inv (I := fun c ↦ Sound env c ∧ AllStanding c.shared.db)
      (fun h hfire hstep ↦ ⟨⟨h.1.fire hfire, h.1.allStanding h.2 hfire hstep⟩, ?_⟩)
      ⟨hc.sound, hall⟩
    intro hcommits d ht
    exact selectsLive_of_allStanding h.1.2.1 (h.1.2.2 _) h.2 (hstep hcommits d ht).1

end

/-! ### A quote that has lapsed -/

namespace Sample

/-- After the validity of the quotes. -/
def late : Draws := ⟨fun n ↦ s!"n{n}", 901⟩

def lateChoice : Config ℕ where
  shared := ⟨quoted, .free⟩
  locals _ := .called merchant context (.selectQuote "r1" ⟨"q1", "price"⟩)

def beforeSelection : List (ℕ × Tick Draws) := List.replicate 6 (0, .act late)

theorem initial_lateChoice : Initial lateChoice where
  consistent := coherentStart_choices.initial.consistent
  new _ := Or.inl ⟨_, _, _, rfl⟩

/-- A quote is selected after its `validUntil`. -/
theorem lapsed_selected : Initial lateChoice ∧
    ∃ c c', ((calls env).system ℕ).run lateChoice beforeSelection = some c ∧
      ((calls env).system ℕ).fire c 0 (.act late) = some c' ∧
        ∃ q ∈ c.shared.db.quotes, q.validUntil < late.now ∧
          QuoteRepository.setStatus .selected q ∈ c'.shared.db.quotes := by
  have hrun : (((calls env).system ℕ).run lateChoice beforeSelection).any (fun c ↦
      (((calls env).system ℕ).fire c 0 (.act late)).any fun c' ↦
        ∃ q ∈ c.shared.db.quotes, q.validUntil < late.now ∧
          QuoteRepository.setStatus .selected q ∈ c'.shared.db.quotes) = true := by
    decide +kernel
  exact ⟨initial_lateChoice, PartySystem.exists_run_fire_of_test hrun⟩

theorem selectionsLive_iff_lateChoice :
    (((calls env).system ℕ).Along
        (fun c p t _ ↦ AtCommit env (fun now db l ↦ SelectsLive db now l) c p t)
        lateChoice beforeSelection ↔
      ((calls env).system ℕ).Along
        (fun c p t _ ↦ AtCommit env (fun now db l ↦ InTime now l ∧ FromStanding db l) c p t)
        lateChoice beforeSelection) ∧
    (((calls env).system ℕ).Along
        (fun c p t _ ↦ AtCommit env (fun now db l ↦ InTime now l ∧ LeavesNoQuote db l) c p t)
        lateChoice beforeSelection →
      ((calls env).system ℕ).Along
        (fun c p t _ ↦ AtCommit env (fun now db l ↦ SelectsLive db now l) c p t)
        lateChoice beforeSelection) := by
  obtain ⟨hiff, himp⟩ := selectionsLive_iff initial_lateChoice beforeSelection
  refine ⟨hiff, himp fun q hq _ r hr _ ↦ ?_⟩
  have hnone : ∀ r ∈ quoted.rfqRecipients, r.state ≠ .declined := by decide
  exact hnone r hr

end Sample

end TolPlatform.Rfqs
