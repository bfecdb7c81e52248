import Mathlib.Tactic.MkIffOfInductiveProp
import TolPlatform.Deals.Service
import TolPlatform.Library.Redaction

/-!
# What a deal shows of its timeline

The timeline of a deal shows the events of the room and of its RFQ, whoever recorded them, with their
payloads. For two databases with the same deals, whose timelines agree on all events but some *secret*
ones, the answers to an actor are then the same exactly if the timeline is closed to it or the secret
events on it are the same (`timelineAnswer_eq_iff`).
-/

namespace TolPlatform.Deals

variable {db db' : Db} {actor : Actor} {dealRoomId : Uuid}

/-- The events that the timeline of a room shows. -/
def shown (dealRoom : DealRoom) (e : DomainEvent) : Bool :=
  (e.aggregateType, e.aggregateId) ∈ [("deal_room", dealRoom.id), ("rfq", dealRoom.rfqId)]

/-- The secret events on the timeline of a room, and their places on it. -/
def secretMarks (db : Db) (dealRoom : DealRoom) (secret : TimelineEventDTO → Bool) :
    List (Option TimelineEventDTO) :=
  Redaction.marks (shown dealRoom) (fun e ↦ secret (toTimelineEventDTO e)) toTimelineEventDTO
    db.trails.domainEvents

/-- The actor may read the deal. -/
def MayReadDeal (db : Db) (actor : Actor) (dealRoomId : Uuid) (dealRoom : DealRoom) : Prop :=
  DealRoomRepository.findById db dealRoomId = some dealRoom ∧
    requireOnDeal db actor dealRoom .dealRead = .ok ()

/-- Two databases with the same deals, as far as the answers go: the snapshots of the quotes that a
decision compared are not part of them. -/
@[mk_iff]
structure SameDeals (db db' : Db) : Prop where
  dealRooms : db'.dealRooms = db.dealRooms
  participants : db'.dealRoomParticipants = db.dealRoomParticipants
  conditions : db'.dealConditions = db.dealConditions
  decisions : (db'.dealDecisions.map fun d ↦ { d with consideredQuoteIds := none }) =
    db.dealDecisions.map fun d ↦ { d with consideredQuoteIds := none }

instance (db db' : Db) : Decidable (SameDeals db db') := decidable_of_iff' _ (sameDeals_iff db db')

/-- All events but the secret ones are the same. -/
def SameTimeline (secret : TimelineEventDTO → Bool) (db db' : Db) : Prop :=
  (db'.trails.domainEvents.filter fun e ↦ !secret (toTimelineEventDTO e)) =
    db.trails.domainEvents.filter fun e ↦ !secret (toTimelineEventDTO e)

instance (secret : TimelineEventDTO → Bool) (db db' : Db) : Decidable (SameTimeline secret db db') :=
  inferInstanceAs (Decidable (_ = _))

/-! ### Reading a deal -/

theorem SameDeals.findById (h : SameDeals db db') :
    DealRoomRepository.findById db' dealRoomId = DealRoomRepository.findById db dealRoomId := by
  rw [DealRoomRepository.findById, h.dealRooms]
  rfl

theorem SameDeals.requireOnDeal (h : SameDeals db db') (dealRoom : DealRoom) (action : Action) :
    requireOnDeal db' actor dealRoom action = requireOnDeal db actor dealRoom action := by
  have hparticipant : isParticipant db' actor dealRoom.id = isParticipant db actor dealRoom.id := by
    unfold isParticipant DealRoomParticipantRepository.findByDealRoomAndOrg
    rw [h.participants]
  rw [Deals.requireOnDeal, hparticipant]
  rfl

/-- A read of a deal that may be read. -/
theorem readDeal_of_mayReadDeal {α : Type} {dealRoom : DealRoom} (f : DealRoom → α)
    (h : MayReadDeal db actor dealRoomId dealRoom) : (do
      let dealRoom ← loadDealRoom db dealRoomId
      requireOnDeal db actor dealRoom .dealRead
      return f dealRoom) = Except.ok (f dealRoom) :=
  Except.bind_eq_ok'.2 ⟨dealRoom, orThrow_eq_ok_iff.2 h.1, Except.bind_eq_ok'.2 ⟨(), h.2, rfl⟩⟩

/-- One that may not be read answers the same whatever it would show. -/
theorem readDeal_congr {α : Type} (h : SameDeals db db') {f g : DealRoom → α}
    (hfg : ∀ dealRoom, MayReadDeal db actor dealRoomId dealRoom → f dealRoom = g dealRoom) : (do
      let dealRoom ← loadDealRoom db' dealRoomId
      requireOnDeal db' actor dealRoom .dealRead
      return f dealRoom) = (do
      let dealRoom ← loadDealRoom db dealRoomId
      requireOnDeal db actor dealRoom .dealRead
      return g dealRoom : Except Thrown α) := by
  unfold loadDealRoom
  rw [h.findById]
  rcases hroom : DealRoomRepository.findById db dealRoomId with - | dealRoom
  · rfl
  · show (Deals.requireOnDeal db' actor dealRoom .dealRead >>= fun _ ↦ Except.ok (f dealRoom)) =
      Deals.requireOnDeal db actor dealRoom .dealRead >>= fun _ ↦ Except.ok (g dealRoom)
    rw [h.requireOnDeal]
    rcases hrequire : Deals.requireOnDeal db actor dealRoom .dealRead with e | ⟨⟩
    · rfl
    · exact congrArg Except.ok (hfg dealRoom ⟨hroom, hrequire⟩)

/-! ### The answers -/

theorem map_eq_readDeal {α β : Type} (f : DealRoom → α) (g : α → β) : ((do
      let dealRoom ← loadDealRoom db dealRoomId
      requireOnDeal db actor dealRoom .dealRead
      return f dealRoom : Except Thrown α).map g) = (do
      let dealRoom ← loadDealRoom db dealRoomId
      requireOnDeal db actor dealRoom .dealRead
      return g (f dealRoom)) := by
  rcases hroom : loadDealRoom db dealRoomId with e | dealRoom
  · rfl
  · rcases hrequire : requireOnDeal db actor dealRoom .dealRead with e | u <;>
      simp [bind, Except.bind, pure, Except.pure, Except.map, hrequire]

theorem timelineAnswer_eq : timelineAnswer db actor dealRoomId = (do
    let dealRoom ← loadDealRoom db dealRoomId
    requireOnDeal db actor dealRoom .dealRead
    return Redaction.view (shown dealRoom) toTimelineEventDTO db.trails.domainEvents) :=
  map_eq_readDeal _ _

/-- The decisions of a deal, as they are shown. -/
theorem SameDeals.decisions_eq (h : SameDeals db db') :
    (DealDecisionRepository.listByDealRoom db' dealRoomId).map toDealDecisionDTO =
      (DealDecisionRepository.listByDealRoom db dealRoomId).map toDealDecisionDTO := by
  have hshown (db : Db) :
      (DealDecisionRepository.listByDealRoom db dealRoomId).map toDealDecisionDTO =
        ((db.dealDecisions.map fun d ↦ { d with consideredQuoteIds := none }).filter
          (·.dealRoomId = dealRoomId)).map toDealDecisionDTO := by
    rw [List.filter_map, List.map_map]
    rfl
  rw [hshown db', h.decisions, ← hshown]

/-- **The deal itself gives nothing away.** -/
theorem SameDeals.dealAnswer_eq (h : SameDeals db db') :
    dealAnswer db' actor dealRoomId = dealAnswer db actor dealRoomId := by
  unfold dealAnswer getById
  rw [map_eq_readDeal, map_eq_readDeal]
  refine readDeal_congr h fun dealRoom _ ↦ ?_
  unfold toDealRoomDTO DealRoomParticipantRepository.listByDealRoom
    DealConditionRepository.listByDealRoom
  rw [h.participants, h.conditions, h.decisions_eq]

/-- **What the timeline gives away**: the secret events on it, to whoever may read the deal. -/
theorem timelineAnswer_eq_iff {secret : TimelineEventDTO → Bool} (h : SameDeals db db')
    (hevents : SameTimeline secret db db') :
    timelineAnswer db' actor dealRoomId = timelineAnswer db actor dealRoomId ↔
      ∀ dealRoom, MayReadDeal db actor dealRoomId dealRoom →
        secretMarks db' dealRoom secret = secretMarks db dealRoom secret := by
  have hview (dealRoom : DealRoom) :
      Redaction.view (shown dealRoom) toTimelineEventDTO db'.trails.domainEvents =
        Redaction.view (shown dealRoom) toTimelineEventDTO db.trails.domainEvents ↔
      secretMarks db' dealRoom secret = secretMarks db dealRoom secret :=
    Redaction.view_eq_view_iff (fun a b hab ↦ congrArg secret hab) hevents
  rw [timelineAnswer_eq, timelineAnswer_eq]
  constructor
  · intro hanswer dealRoom hmay
    have hmay' : MayReadDeal db' actor dealRoomId dealRoom :=
      ⟨h.findById.trans hmay.1, (h.requireOnDeal _ _).trans hmay.2⟩
    rw [readDeal_of_mayReadDeal _ hmay, readDeal_of_mayReadDeal _ hmay'] at hanswer
    exact (hview dealRoom).1 (Except.ok.inj hanswer)
  · intro hmarks
    exact readDeal_congr h fun dealRoom hmay ↦ (hview dealRoom).2 (hmarks dealRoom hmay)

end TolPlatform.Deals
