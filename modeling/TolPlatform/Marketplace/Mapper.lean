import TolPlatform.Authz.FieldPolicy
import TolPlatform.Capacity.Tables
import TolPlatform.Domain.StateMachines

/-!
# Marketplace cards

`apps/api/src/modules/marketplace/mapper.ts`: the card that an actor gets of a capacity profile or of an
opportunity. Every field of the row goes through `redactFields`, for everybody as for a stranger, and
the card is made of what is left.

A card reads the fields of the class `MEMBER_MARKET` alone (`readsOnly_capacityCardOf`,
`readsOnly_opportunityCardOf`). These are shown to every actor with a role, and never depend on the
owner, so the cards are uniform and give away no more than bands (`marketplaceCards_uniform`).
-/

namespace TolPlatform.Marketplace

open Capacity (CapacityProfile)

/-! ### Bands -/

inductive VolumeBand
  | under100k | from100kTo1m | from1mTo5m | from5mTo20m | from20m
  deriving DecidableEq, Repr

instance : ToString VolumeBand where
  toString
    | .under100k => "UNDER_100K"
    | .from100kTo1m => "100K_1M"
    | .from1mTo5m => "1M_5M"
    | .from5mTo20m => "5M_20M"
    | .from20m => "20M_PLUS"

def bandVolume (amountMinor : Int) : VolumeBand :=
  if amountMinor < 100_000_00 then .under100k
  else if amountMinor < 1_000_000_00 then .from100kTo1m
  else if amountMinor < 5_000_000_00 then .from1mTo5m
  else if amountMinor < 20_000_000_00 then .from5mTo20m
  else .from20m

inductive RiskTier
  | low | moderate | elevated
  deriving DecidableEq, Repr

instance : ToString RiskTier where
  toString
    | .low => "LOW"
    | .moderate => "MODERATE"
    | .elevated => "ELEVATED"

def bandRiskTier (maxChargebackBps maxFraudBps maxRefundBps : Int) : RiskTier :=
  let total := maxChargebackBps + maxFraudBps + maxRefundBps
  if total ≤ 300 then .low
  else if total ≤ 700 then .moderate
  else .elevated

/-! ### Capacity cards -/

/-- The keys of the record that is redacted. -/
inductive CapacityField
  | providerOrgId | freshnessClass | acceptingNewVolume | jurisdictions | mccsAccepted | currency
  | monthlyCapacityBand | riskTier | monthlyCapacityMinor | minTicketMinor | maxTicketMinor
  | maxChargebackBps | maxFraudBps | maxRefundBps | settlementRail | settlementCadenceDays
  | commercialTerms
  deriving DecidableEq, Repr

namespace CapacityField

instance : ToString CapacityField where
  toString
    | providerOrgId => "providerOrgId"
    | freshnessClass => "freshnessClass"
    | acceptingNewVolume => "acceptingNewVolume"
    | jurisdictions => "jurisdictions"
    | mccsAccepted => "mccsAccepted"
    | currency => "currency"
    | monthlyCapacityBand => "monthlyCapacityBand"
    | riskTier => "riskTier"
    | monthlyCapacityMinor => "monthlyCapacityMinor"
    | minTicketMinor => "minTicketMinor"
    | maxTicketMinor => "maxTicketMinor"
    | maxChargebackBps => "maxChargebackBps"
    | maxFraudBps => "maxFraudBps"
    | maxRefundBps => "maxRefundBps"
    | settlementRail => "settlementRail"
    | settlementCadenceDays => "settlementCadenceDays"
    | commercialTerms => "commercialTerms"

/-- What the record holds under each key. -/
abbrev Value : CapacityField → Type
  | providerOrgId => Uuid
  | freshnessClass => FreshnessClass
  | acceptingNewVolume => Bool
  | jurisdictions | mccsAccepted => List String
  | currency | monthlyCapacityMinor | settlementRail => String
  | monthlyCapacityBand => VolumeBand
  | riskTier => RiskTier
  | minTicketMinor | maxTicketMinor | maxChargebackBps | maxFraudBps | maxRefundBps
  | settlementCadenceDays => Int
  | commercialTerms => Option (List (String × JsonValue))

/-- `CAPACITY_MARKET_FIELD_CLASSES`. -/
def marketClass : CapacityField → Option DisclosureClass
  | providerOrgId => some .restricted
  | freshnessClass => some .memberMarket
  | acceptingNewVolume => some .memberMarket
  | jurisdictions => some .memberMarket
  | mccsAccepted => some .memberMarket
  | currency => some .memberMarket
  | monthlyCapacityBand => some .memberMarket
  | riskTier => some .memberMarket
  | monthlyCapacityMinor => some .secret
  | minTicketMinor => some .restricted
  | maxTicketMinor => some .restricted
  | maxChargebackBps => some .restricted
  | maxFraudBps => some .restricted
  | maxRefundBps => some .restricted
  | settlementRail => some .restricted
  | settlementCadenceDays => some .restricted
  | commercialTerms => some .secret

end CapacityField

structure MarketplaceCapacityCard where
  cardId : Uuid
  freshnessClass : FreshnessClass
  acceptingNewVolume : Bool
  jurisdictions : List String
  mccsAccepted : List String
  currency : String
  monthlyCapacityBand : VolumeBand
  riskTier : RiskTier
  deriving DecidableEq, Repr

/-- The record of a profile. -/
def capacityFields (profile : CapacityProfile) (liveFreshnessClass : FreshnessClass) :
    (key : CapacityField) → key.Value
  | .providerOrgId => profile.providerOrgId
  | .freshnessClass => liveFreshnessClass
  | .acceptingNewVolume => profile.acceptingNewVolume
  | .jurisdictions => profile.jurisdictions
  | .mccsAccepted => profile.mccsAccepted
  | .currency => profile.currency
  | .monthlyCapacityBand => bandVolume profile.monthlyCapacityMinor
  | .riskTier => bandRiskTier profile.maxChargebackBps profile.maxFraudBps profile.maxRefundBps
  | .monthlyCapacityMinor => toString profile.monthlyCapacityMinor
  | .minTicketMinor => profile.minTicketMinor
  | .maxTicketMinor => profile.maxTicketMinor
  | .maxChargebackBps => profile.maxChargebackBps
  | .maxFraudBps => profile.maxFraudBps
  | .maxRefundBps => profile.maxRefundBps
  | .settlementRail => profile.settlementRail
  | .settlementCadenceDays => profile.settlementCadenceDays
  | .commercialTerms => profile.commercialTerms

/-- The card, or `null` if one of its fields is not visible. -/
def capacityCardOf (cardId : Uuid) (visible : (key : CapacityField) → Option key.Value) :
    Option MarketplaceCapacityCard := do
  return {
    cardId
    freshnessClass := ← visible .freshnessClass
    acceptingNewVolume := ← visible .acceptingNewVolume
    jurisdictions := ← visible .jurisdictions
    mccsAccepted := ← visible .mccsAccepted
    currency := ← visible .currency
    monthlyCapacityBand := ← visible .monthlyCapacityBand
    riskTier := ← visible .riskTier }

def toMarketplaceCapacityCard (actor : Actor) (profile : CapacityProfile)
    (liveFreshnessClass : FreshnessClass) : Option MarketplaceCapacityCard :=
  let resource : ClassifiedResource := { type := .capacityProfile, id := profile.id, ownerOrgId := none }
  let visible := redactFields actor resource (capacityFields profile liveFreshnessClass)
    CapacityField.marketClass (some .secret)
  capacityCardOf profile.id visible

/-! ### Opportunity cards -/

inductive OpportunityType
  | acquiring | pspRouting | backupProcessing
  deriving DecidableEq, Repr

structure Opportunity where
  id : Uuid
  ownerOrgId : Uuid
  opportunityType : OpportunityType
  status : OpportunityStatus
  currency : String
  totalPaymentVolumeMinor : Int := 0
  totalCardGpvMinor : Int := 0
  eligibleCardGpvMinor : Int := 0
  offeredCardGpvMinor : Int := 0
  movableNowMinor : Int := 0
  movable30dMinor : Int := 0
  movable90dMinor : Int := 0
  jurisdictions : List String := []
  mccs : List String := []
  deriving DecidableEq, Repr

inductive OpportunityField
  | ownerOrgId | opportunityType | status | currency | jurisdictions | mccs | offeredVolumeBand
  | totalPaymentVolumeMinor | totalCardGpvMinor | eligibleCardGpvMinor | offeredCardGpvMinor
  | movableNowMinor | movable30dMinor | movable90dMinor
  deriving DecidableEq, Repr

namespace OpportunityField

instance : ToString OpportunityField where
  toString
    | ownerOrgId => "ownerOrgId"
    | opportunityType => "opportunityType"
    | status => "status"
    | currency => "currency"
    | jurisdictions => "jurisdictions"
    | mccs => "mccs"
    | offeredVolumeBand => "offeredVolumeBand"
    | totalPaymentVolumeMinor => "totalPaymentVolumeMinor"
    | totalCardGpvMinor => "totalCardGpvMinor"
    | eligibleCardGpvMinor => "eligibleCardGpvMinor"
    | offeredCardGpvMinor => "offeredCardGpvMinor"
    | movableNowMinor => "movableNowMinor"
    | movable30dMinor => "movable30dMinor"
    | movable90dMinor => "movable90dMinor"

abbrev Value : OpportunityField → Type
  | ownerOrgId => Uuid
  | opportunityType => OpportunityType
  | status => OpportunityStatus
  | jurisdictions | mccs => List String
  | offeredVolumeBand => VolumeBand
  | _ => String

/-- `OPPORTUNITY_MARKET_FIELD_CLASSES`. -/
def marketClass : OpportunityField → Option DisclosureClass
  | ownerOrgId => some .restricted
  | opportunityType => some .memberMarket
  | status => some .memberMarket
  | currency => some .memberMarket
  | jurisdictions => some .memberMarket
  | mccs => some .memberMarket
  | offeredVolumeBand => some .memberMarket
  | totalPaymentVolumeMinor => some .secret
  | totalCardGpvMinor => some .secret
  | eligibleCardGpvMinor => some .secret
  | offeredCardGpvMinor => some .secret
  | movableNowMinor => some .restricted
  | movable30dMinor => some .restricted
  | movable90dMinor => some .restricted

end OpportunityField

structure MarketplaceOpportunityCard where
  cardId : Uuid
  opportunityType : OpportunityType
  status : OpportunityStatus
  currency : String
  jurisdictions : List String
  mccs : List String
  offeredVolumeBand : VolumeBand
  deriving DecidableEq, Repr

def opportunityFields (opportunity : Opportunity) : (key : OpportunityField) → key.Value
  | .ownerOrgId => opportunity.ownerOrgId
  | .opportunityType => opportunity.opportunityType
  | .status => opportunity.status
  | .currency => opportunity.currency
  | .jurisdictions => opportunity.jurisdictions
  | .mccs => opportunity.mccs
  | .offeredVolumeBand => bandVolume opportunity.offeredCardGpvMinor
  | .totalPaymentVolumeMinor => toString opportunity.totalPaymentVolumeMinor
  | .totalCardGpvMinor => toString opportunity.totalCardGpvMinor
  | .eligibleCardGpvMinor => toString opportunity.eligibleCardGpvMinor
  | .offeredCardGpvMinor => toString opportunity.offeredCardGpvMinor
  | .movableNowMinor => toString opportunity.movableNowMinor
  | .movable30dMinor => toString opportunity.movable30dMinor
  | .movable90dMinor => toString opportunity.movable90dMinor

def opportunityCardOf (cardId : Uuid) (visible : (key : OpportunityField) → Option key.Value) :
    Option MarketplaceOpportunityCard := do
  return {
    cardId
    opportunityType := ← visible .opportunityType
    status := ← visible .status
    currency := ← visible .currency
    jurisdictions := ← visible .jurisdictions
    mccs := ← visible .mccs
    offeredVolumeBand := ← visible .offeredVolumeBand }

def toMarketplaceOpportunityCard (actor : Actor) (opportunity : Opportunity) :
    Option MarketplaceOpportunityCard :=
  let resource : ClassifiedResource := { type := .opportunity, id := opportunity.id, ownerOrgId := none }
  let visible := redactFields actor resource (opportunityFields opportunity)
    OpportunityField.marketClass (some .secret)
  opportunityCardOf opportunity.id visible

/-! ### What a card reads -/

/-- A card is made of the fields of the market class. -/
theorem readsOnly_capacityCardOf (cardId : Uuid) :
    Redaction.ReadsOnly (fun key ↦ CapacityField.marketClass key = some .memberMarket)
      (capacityCardOf cardId) := by
  intro v v' h
  simp only [capacityCardOf, h .freshnessClass rfl, h .acceptingNewVolume rfl, h .jurisdictions rfl,
    h .mccsAccepted rfl, h .currency rfl, h .monthlyCapacityBand rfl, h .riskTier rfl]

theorem readsOnly_opportunityCardOf (cardId : Uuid) :
    Redaction.ReadsOnly (fun key ↦ OpportunityField.marketClass key = some .memberMarket)
      (opportunityCardOf cardId) := by
  intro v v' h
  simp only [opportunityCardOf, h .opportunityType rfl, h .status rfl, h .currency rfl,
    h .jurisdictions rfl, h .mccs rfl, h .offeredVolumeBand rfl]

/-- Every actor with a role is shown the fields of the market class. -/
theorem shown_of_memberMarket {κ : Type} [ToString κ] {marketClass : κ → Option DisclosureClass}
    {key : κ} (hclass : marketClass key = some .memberMarket)
    (hsafe : toString key ∉ dangerousKeys) {actor : Actor} (hrole : actor.role ≠ none)
    (resource : ClassifiedResource) (defaultClass : Option DisclosureClass) :
    Shown actor resource marketClass defaultClass key := by
  refine ⟨hsafe, ?_⟩
  rw [classOf, hclass]
  exact isFieldVisible_memberMarket hrole resource

theorem CapacityField.not_dangerous (key : CapacityField) : toString key ∉ dangerousKeys := by
  cases key <;> decide

theorem OpportunityField.not_dangerous (key : OpportunityField) : toString key ∉ dangerousKeys := by
  cases key <;> decide

/-! ### Uniform cards -/

/-- Profiles that look alike on the market: they have the same id, public fields, volume band and risk
tier. -/
structure SameOnMarket (p p' : CapacityProfile) : Prop where
  id : p.id = p'.id
  acceptingNewVolume : p.acceptingNewVolume = p'.acceptingNewVolume
  jurisdictions : p.jurisdictions = p'.jurisdictions
  mccsAccepted : p.mccsAccepted = p'.mccsAccepted
  currency : p.currency = p'.currency
  band : bandVolume p.monthlyCapacityMinor = bandVolume p'.monthlyCapacityMinor
  tier : bandRiskTier p.maxChargebackBps p.maxFraudBps p.maxRefundBps =
    bandRiskTier p'.maxChargebackBps p'.maxFraudBps p'.maxRefundBps

/-- Opportunities that look alike on the market. -/
structure SameOpportunityOnMarket (o o' : Opportunity) : Prop where
  id : o.id = o'.id
  opportunityType : o.opportunityType = o'.opportunityType
  status : o.status = o'.status
  currency : o.currency = o'.currency
  jurisdictions : o.jurisdictions = o'.jurisdictions
  mccs : o.mccs = o'.mccs
  band : bandVolume o.offeredCardGpvMinor = bandVolume o'.offeredCardGpvMinor

section

variable {actor actor' : Actor}

/-- The records of profiles that look alike agree on the market class. -/
theorem SameOnMarket.fields_eq {p p' : CapacityProfile} (h : SameOnMarket p p')
    (live : FreshnessClass) {key : CapacityField} (hkey : key.marketClass = some .memberMarket) :
    capacityFields p live key = capacityFields p' live key := by
  cases key with
  | freshnessClass => rfl
  | acceptingNewVolume => exact h.acceptingNewVolume
  | jurisdictions => exact h.jurisdictions
  | mccsAccepted => exact h.mccsAccepted
  | currency => exact h.currency
  | monthlyCapacityBand => exact h.band
  | riskTier => exact h.tier
  | _ => cases hkey

theorem SameOpportunityOnMarket.fields_eq {o o' : Opportunity} (h : SameOpportunityOnMarket o o')
    {key : OpportunityField} (hkey : key.marketClass = some .memberMarket) :
    opportunityFields o key = opportunityFields o' key := by
  cases key with
  | opportunityType => exact h.opportunityType
  | status => exact h.status
  | currency => exact h.currency
  | jurisdictions => exact h.jurisdictions
  | mccs => exact h.mccs
  | offeredVolumeBand => exact h.band
  | _ => cases hkey

/-- Actors who are shown the same get the same card of profiles that look alike. -/
theorem toMarketplaceCapacityCard_congr {p p' : CapacityProfile} (h : SameOnMarket p p')
    (live : FreshnessClass) (hrole : actor = actor' ∨ actor.role ≠ none ∧ actor'.role ≠ none) :
    toMarketplaceCapacityCard actor p live = toMarketplaceCapacityCard actor' p' live := by
  dsimp only [toMarketplaceCapacityCard]
  rw [redactFields_eq, redactFields_eq, h.id]
  refine (readsOnly_capacityCardOf p'.id).congr (fun key hkey ↦ ?_) fun key hkey _ ↦
    h.fields_eq live hkey
  rcases hrole with rfl | ⟨hrole, hrole'⟩
  · exact Iff.rfl
  · exact iff_of_true (shown_of_memberMarket hkey key.not_dangerous hrole _ _)
      (shown_of_memberMarket hkey key.not_dangerous hrole' _ _)

theorem toMarketplaceOpportunityCard_congr {o o' : Opportunity} (h : SameOpportunityOnMarket o o')
    (hrole : actor = actor' ∨ actor.role ≠ none ∧ actor'.role ≠ none) :
    toMarketplaceOpportunityCard actor o = toMarketplaceOpportunityCard actor' o' := by
  dsimp only [toMarketplaceOpportunityCard]
  rw [redactFields_eq, redactFields_eq, h.id]
  refine (readsOnly_opportunityCardOf o'.id).congr (fun key hkey ↦ ?_) fun key hkey _ ↦
    h.fields_eq hkey
  rcases hrole with rfl | ⟨hrole, hrole'⟩
  · exact Iff.rfl
  · exact iff_of_true (shown_of_memberMarket hkey key.not_dangerous hrole _ _)
      (shown_of_memberMarket hkey key.not_dangerous hrole' _ _)

/-- An actor with a role gets a card. -/
theorem exists_capacityCard (hrole : actor.role ≠ none) (p : CapacityProfile)
    (live : FreshnessClass) : ∃ card, toMarketplaceCapacityCard actor p live = some card := by
  have hvisible (resource : ClassifiedResource) {key : CapacityField}
      (hkey : key.marketClass = some .memberMarket) :
      redactFields actor resource (capacityFields p live) CapacityField.marketClass (some .secret)
        key = some (capacityFields p live key) := by
    rw [redactFields_eq]
    exact Redaction.reveal_of_shown (shown_of_memberMarket hkey key.not_dangerous hrole _ _)
  dsimp only [toMarketplaceCapacityCard]
  rw [readsOnly_capacityCardOf _ _ (fun key ↦ some (capacityFields p live key)) fun _ ↦ hvisible _]
  exact ⟨_, rfl⟩

theorem exists_opportunityCard (hrole : actor.role ≠ none) (o : Opportunity) :
    ∃ card, toMarketplaceOpportunityCard actor o = some card := by
  have hvisible (resource : ClassifiedResource) {key : OpportunityField}
      (hkey : key.marketClass = some .memberMarket) :
      redactFields actor resource (opportunityFields o) OpportunityField.marketClass (some .secret)
        key = some (opportunityFields o key) := by
    rw [redactFields_eq]
    exact Redaction.reveal_of_shown (shown_of_memberMarket hkey key.not_dangerous hrole _ _)
  dsimp only [toMarketplaceOpportunityCard]
  rw [readsOnly_opportunityCardOf _ _ (fun key ↦ some (opportunityFields o key)) fun _ ↦ hvisible _]
  exact ⟨_, rfl⟩

end

/-- An actor with an active role and organization. -/
def Seated (actor : Actor) : Prop := actor.role ≠ none ∧ actor.organizationId ≠ none

/-- **Marketplace cards are uniform and leak only bands.** Any two actors with a role and an
organization get the same card of a row, the row's owner among them; and rows that look alike on the
market give every actor the same card. -/
theorem marketplaceCards_uniform :
    (∀ (actor actor' : Actor) (profile : CapacityProfile) (live : FreshnessClass),
      Seated actor → Seated actor' → ∃ card,
        toMarketplaceCapacityCard actor profile live = some card ∧
          toMarketplaceCapacityCard actor' profile live = some card) ∧
    (∀ (actor : Actor) (profile profile' : CapacityProfile) (live : FreshnessClass),
      SameOnMarket profile profile' →
        toMarketplaceCapacityCard actor profile live =
          toMarketplaceCapacityCard actor profile' live) ∧
    (∀ (actor actor' : Actor) (opportunity : Opportunity),
      Seated actor → Seated actor' → ∃ card,
        toMarketplaceOpportunityCard actor opportunity = some card ∧
          toMarketplaceOpportunityCard actor' opportunity = some card) ∧
    ∀ (actor : Actor) (opportunity opportunity' : Opportunity),
      SameOpportunityOnMarket opportunity opportunity' →
        toMarketplaceOpportunityCard actor opportunity =
          toMarketplaceOpportunityCard actor opportunity' := by
  refine ⟨fun actor actor' profile live hseated hseated' ↦ ?_,
    fun actor profile profile' live h ↦ toMarketplaceCapacityCard_congr h live (Or.inl rfl),
    fun actor actor' opportunity hseated hseated' ↦ ?_,
    fun actor opportunity opportunity' h ↦ toMarketplaceOpportunityCard_congr h (Or.inl rfl)⟩
  · obtain ⟨card, hcard⟩ := exists_capacityCard hseated'.1 profile live
    refine ⟨card, ?_, hcard⟩
    rw [← hcard]
    exact toMarketplaceCapacityCard_congr ⟨rfl, rfl, rfl, rfl, rfl, rfl, rfl⟩ live
      (Or.inr ⟨hseated.1, hseated'.1⟩)
  · obtain ⟨card, hcard⟩ := exists_opportunityCard hseated'.1 opportunity
    refine ⟨card, ?_, hcard⟩
    rw [← hcard]
    exact toMarketplaceOpportunityCard_congr ⟨rfl, rfl, rfl, rfl, rfl, rfl, rfl⟩
      (Or.inr ⟨hseated.1, hseated'.1⟩)

namespace Sample

def provider : Actor := ⟨"pia", some "acquirer", some .acquirerProviderUser, some "m1"⟩

def merchant : Actor := ⟨"max", some "shop", some .merchantPspUser, some "m2"⟩

def profile : CapacityProfile where
  id := "c1"
  providerOrgId := "acquirer"
  asOf := 0
  currency := "USD"
  jurisdictions := ["US"]
  monthlyCapacityMinor := 300_000_000
  maxChargebackBps := 100
  settlementRail := "ACH"
  createdAt := 0

/-- Another provider's, with other amounts in the same bands. -/
def lookalike : CapacityProfile :=
  { profile with
    providerOrgId := "rival", monthlyCapacityMinor := 400_000_000, maxFraudBps := 200
    maxTicketMinor := 500, settlementRail := "WIRE" }

def opportunity : Opportunity where
  id := "o1"
  ownerOrgId := "shop"
  opportunityType := .acquiring
  status := .matchReady
  currency := "USD"
  offeredCardGpvMinor := 50

/-- The same for another owner and another amount. -/
def lookalikeOpportunity : Opportunity :=
  { opportunity with ownerOrgId := "market", offeredCardGpvMinor := 9_000, movableNowMinor := 7 }

/-- The owner and a stranger get one card, and a lookalike's card is the same. -/
theorem marketplaceCards_uniform_lookalikes :
    (∃ card, toMarketplaceCapacityCard provider profile .fresh = some card ∧
      toMarketplaceCapacityCard merchant profile .fresh = some card) ∧
    toMarketplaceCapacityCard merchant profile .fresh =
      toMarketplaceCapacityCard merchant lookalike .fresh ∧
    (∃ card, toMarketplaceOpportunityCard merchant opportunity = some card ∧
      toMarketplaceOpportunityCard provider opportunity = some card) ∧
    toMarketplaceOpportunityCard provider opportunity =
      toMarketplaceOpportunityCard provider lookalikeOpportunity := by
  obtain ⟨hcards, hprofiles, hopportunityCards, hopportunities⟩ := marketplaceCards_uniform
  have hprovider : Seated provider := ⟨by decide, by decide⟩
  have hmerchant : Seated merchant := ⟨by decide, by decide⟩
  exact ⟨hcards provider merchant profile .fresh hprovider hmerchant,
    hprofiles merchant profile lookalike .fresh ⟨rfl, rfl, rfl, rfl, rfl, by decide, by decide⟩,
    hopportunityCards merchant provider opportunity hmerchant hprovider,
    hopportunities provider opportunity lookalikeOpportunity
      ⟨rfl, rfl, rfl, rfl, rfl, rfl, by decide⟩⟩

end Sample

end TolPlatform.Marketplace
