import TolPlatform.Deals.Service
import TolPlatform.Library.Evolution

/-!
# The stages of a deal room

The status of a room and the `deal.stage_changed` events say the same: each committed change is an edge
of the table and records one event, nothing else records any, and so the events of a room lead from
`OPEN` to its status (`Told`). The conditions of a room move along the edges of theirs.

What makes it true is the room's lock: the status that a transaction starts from is read under it
(`Knows`), and whoever else would write the room or a condition of it holds the same key.
-/

namespace TolPlatform.Deals

/-! ### Stage events -/

/-- The stage event that a change of a room records. -/
def stageEvent (dealRoomId : Uuid) (move : DealRoomStatus × DealRoomStatus) :
    Uuid × List (String × JsonValue) :=
  (dealRoomId, [("from", .string (toString move.1)), ("to", .string (toString move.2))])

/-- All stage events, each with the room it is of. -/
def stageEvents (db : Db) : List (Uuid × List (String × JsonValue)) :=
  (db.trails.domainEvents.filter (·.eventType = "deal.stage_changed")).map fun e ↦
    (e.aggregateId, e.payload)

/-- The stage events of a room are a chain of moves from `OPEN` to its status. -/
def Told (db : Db) (room : DealRoom) : Prop :=
  ∃ moves, (stageEvents db).filter (·.1 = room.id) = moves.map (stageEvent room.id) ∧
    Rows.Path dealRoomTransitions .open moves room.status

/-- What one step may do to the rooms: nothing, or one change along an edge with its event. -/
inductive StageStep (db db' : Db) : Prop
  | kept : db'.dealRooms = db.dealRooms → stageEvents db' = stageEvents db → StageStep db db'
  | changed {room dst} : room ∈ db.dealRooms → dst ∈ dealRoomTransitions room.status →
      db'.dealRooms =
        Rows.rewrite (fun r : DealRoom ↦ r.id) room.id (DealRoomRepository.setStatus dst) db.dealRooms →
      stageEvents db' = stageEvents db ++ [stageEvent room.id (room.status, dst)] → StageStep db db'

/-- The same condition, whose state has stayed or moved along an edge. -/
def ConditionMoved (a b : DealCondition) : Prop :=
  b.id = a.id ∧ (b.state = a.state ∨ b.state ∈ dealConditionTransitions a.state)

/-- A legal step; every condition lives on. -/
structure LegalStep (db db' : Db) : Prop where
  stage : StageStep db db'
  conditions : Rows.Evolves ConditionMoved db.dealConditions db'.dealConditions

/-! ### What the transactions write -/

/-- The rooms once one of them has gone to another stage, if it does. -/
def restage (dealRoomId : Uuid) (rooms : List DealRoom) : Option DealRoomStatus → List DealRoom
  | none => rooms
  | some dst => Rows.rewrite (fun r : DealRoom ↦ r.id) dealRoomId (DealRoomRepository.setStatus dst) rooms

def restageEvents (dealRoomId : Uuid) (src : DealRoomStatus) :
    Option DealRoomStatus → List (Uuid × List (String × JsonValue))
  | none => []
  | some dst => [stageEvent dealRoomId (src, dst)]

/-- A room goes to another status, or stays, with the event for it. -/
structure Staged (db db' : Db) (dealRoomId : Uuid) (src : DealRoomStatus)
    (dst : Option DealRoomStatus) : Prop where
  rooms_eq : db'.dealRooms = restage dealRoomId db.dealRooms dst
  events_eq : stageEvents db' = stageEvents db ++ restageEvents dealRoomId src dst

structure Posted (db db' : Db) (call : PostCall) (freshStatus : DealRoomStatus)
    (condition : DealCondition) : Prop where
  fresh : condition.id ∉ db.dealConditions.map (·.id)
  conditions_eq : db'.dealConditions = db.dealConditions ++ [condition]
  staged : Staged db db' call.dealRoom.id freshStatus (conditionStage freshStatus)

structure Resolved (db db' : Db) (call : ResolveCall) : Prop where
  conditions_eq : db'.dealConditions = Rows.rewrite DealCondition.id call.condition.id
    (DealConditionRepository.setState call.input.state.toState call.input.resolutionNote)
    db.dealConditions
  rooms_eq : db'.dealRooms = db.dealRooms
  events_eq : stageEvents db' = stageEvents db

structure Decided (db db' : Db) (call : DecideCall) (freshStatus : DealRoomStatus)
    (next : Option DealRoomStatus) : Prop where
  conditions_eq : db'.dealConditions = db.dealConditions
  staged : Staged db db' call.dealRoom.id freshStatus next

/-- What the transaction of a local state writes. -/
inductive Wrote (db db' : Db) : Local → Prop
  | posted {call freshStatus condition} : Posted db db' call freshStatus condition →
      Wrote db db' (.postFresh call freshStatus)
  | resolved {call} : Resolved db db' call → Wrote db db' (.resolveFresh call)
  | decided {call freshStatus next} : Decided db db' call freshStatus next →
      Wrote db db' (.decideFresh call freshStatus next)

section

variable {db db' : Db} {d : Draws}

/-- An event on the timeline counts if it is a stage event. -/
theorem stageEvents_timeline (db : Db) (trails : Trails) (actor : Actor) (context : RequestContext)
    (eventType aggregateType aggregateId : String) (payload : List (String × JsonValue)) :
    stageEvents { db with
      trails := trails.timeline actor context eventType aggregateType aggregateId payload } =
      stageEvents { db with trails } ++
        if eventType = "deal.stage_changed" then [(aggregateId, payload)] else [] := by
  show ((trails.domainEvents ++ [_]).filter _).map _ = _
  rw [List.filter_append, List.map_append, List.filter_singleton]
  by_cases htype : eventType = "deal.stage_changed"
  · rw [if_pos htype, htype]
    rfl
  · rw [if_neg htype, decide_eq_false htype]
    rfl

theorem setStage_eq_ok {call : DealCall} {dst : Option DealRoomStatus} {u : PUnit}
    (h : setStage call dst db = .ok (u, db')) :
    db' = { db with dealRooms := restage call.dealRoom.id db.dealRooms dst } := by
  cases dst with
  | none =>
    obtain ⟨-, rfl⟩ := Prod.mk.inj (Tx.pure_eq_ok.1 h)
    rfl
  | some dst =>
    obtain ⟨row, db₁, hupdate, h⟩ := Tx.bind_eq_ok.1 h
    obtain ⟨-, rfl⟩ := Prod.mk.inj (Tx.pure_eq_ok.1 h)
    obtain ⟨-, -, -, rfl⟩ := Table.update_eq_ok_iff.1 hupdate
    rfl

theorem stageEvents_stageTrail (db : Db) (call : DealCall) (src : DealRoomStatus)
    (dst : Option DealRoomStatus) (trails : Trails) :
    stageEvents { db with trails := stageTrail call src dst trails } =
      stageEvents { db with trails } ++ restageEvents call.dealRoom.id src dst := by
  cases dst with
  | none => exact (List.append_nil _).symm
  | some dst => exact stageEvents_timeline db trails _ _ _ _ _ _

/-- The events before the stage event are of other kinds. -/
theorem stageEvents_other {db : Db} {trails : Trails} {actor : Actor} {context : RequestContext}
    {eventType aggregateType aggregateId : String} {payload : List (String × JsonValue)}
    (h : trails.domainEvents = db.trails.domainEvents) (htype : eventType ≠ "deal.stage_changed") :
    stageEvents { db with
      trails := trails.timeline actor context eventType aggregateType aggregateId payload } =
      stageEvents db := by
  rw [stageEvents_timeline, if_neg htype, List.append_nil]
  show (trails.domainEvents.filter _).map _ = _
  rw [h]
  rfl

theorem postConditionTx_eq_ok {call : PostCall} {freshStatus : DealRoomStatus}
    {condition : DealCondition} (h : postConditionTx d call freshStatus db = .ok (condition, db')) :
    Posted db db' call freshStatus condition := by
  obtain ⟨row, db₁, hinsert, h⟩ := Tx.bind_eq_ok.1 h
  obtain ⟨_, -, h⟩ := Tx.check_bind_eq_ok.1 h
  obtain ⟨_, db₂, hstage, h⟩ := Tx.bind_eq_ok.1 h
  obtain ⟨rfl, rfl⟩ := Prod.mk.inj (Except.ok.inj h)
  obtain ⟨hfresh, rfl, rfl⟩ := Table.insert_eq_ok_iff.1 hinsert
  obtain rfl := setStage_eq_ok hstage
  refine ⟨hfresh, rfl, rfl, (stageEvents_stageTrail _ _ _ _ _).trans ?_⟩
  exact congrArg (· ++ _) (stageEvents_other rfl (by decide))

theorem resolveConditionTx_eq_ok {call : ResolveCall} {condition : DealCondition}
    (h : resolveConditionTx call db = .ok (condition, db')) : Resolved db db' call := by
  obtain ⟨row, db₁, hupdate, h⟩ := Tx.bind_eq_ok.1 h
  obtain ⟨-, rfl⟩ := Prod.mk.inj (Except.ok.inj h)
  obtain ⟨-, -, -, rfl⟩ := Table.update_eq_ok_iff.1 hupdate
  exact ⟨rfl, rfl, stageEvents_other rfl (by decide)⟩

theorem recordDecisionTx_eq_ok {call : DecideCall} {freshStatus : DealRoomStatus}
    {next : Option DealRoomStatus} {decision : DealDecision}
    (h : recordDecisionTx d call freshStatus next db = .ok (decision, db')) :
    Decided db db' call freshStatus next := by
  obtain ⟨row, db₁, hinsert, h⟩ := Tx.bind_eq_ok.1 h
  obtain ⟨_, db₂, hstage, h⟩ := Tx.bind_eq_ok.1 h
  obtain ⟨-, rfl⟩ := Prod.mk.inj (Except.ok.inj h)
  obtain ⟨-, -, rfl⟩ := Table.insert_eq_ok_iff.1 hinsert
  obtain rfl := setStage_eq_ok hstage
  refine ⟨rfl, rfl, (stageEvents_stageTrail _ _ _ _ _).trans ?_⟩
  exact congrArg (· ++ _) (stageEvents_other rfl (by decide))

/-- **Whatever commits is a `Wrote`**, and the call has then returned. -/
theorem wrote_of_commit {env : Platform} {l l' : Local} {body : Tx Db Thrown Local}
    (hnext : (calls env).next d l = .commit body) (hbody : body db = .ok (l', db')) :
    Wrote db db' l ∧ ∃ response, l' = .returned response := by
  cases l with
  | postFresh call freshStatus =>
    obtain rfl := NextStep.commit.inj hnext
    obtain ⟨condition, htx, rfl⟩ := Tx.map_eq_ok.1 hbody
    exact ⟨.posted (postConditionTx_eq_ok htx), _, rfl⟩
  | resolveFresh call =>
    obtain rfl := NextStep.commit.inj hnext
    obtain ⟨condition, htx, rfl⟩ := Tx.map_eq_ok.1 hbody
    exact ⟨.resolved (resolveConditionTx_eq_ok htx), _, rfl⟩
  | decideFresh call freshStatus next =>
    obtain rfl := NextStep.commit.inj hnext
    obtain ⟨decision, htx, rfl⟩ := Tx.map_eq_ok.1 hbody
    exact ⟨.decided (recordDecisionTx_eq_ok htx), _, rfl⟩
  | _ => cases hnext

end

/-! ### What a call knows under the lock -/

/-- Ids are keys, and every room's status is what its events say. -/
structure Consistent (db : Db) : Prop where
  roomIds : (db.dealRooms.map fun r ↦ r.id).Nodup
  conditionIds : (db.dealConditions.map (·.id)).Nodup
  told : ∀ room ∈ db.dealRooms, Told db room

def AtStage (db : Db) (dealRoomId : Uuid) (status : DealRoomStatus) : Prop :=
  ∃ room ∈ db.dealRooms, room.id = dealRoomId ∧ room.status = status

/-- The condition of a call is one of its room, in a state that meets `P`. -/
def HasCondition (db : Db) (call : ResolveCall) (P : DealConditionState → Prop) : Prop :=
  ∃ c ∈ db.dealConditions, c.id = call.condition.id ∧ c.dealRoomId = call.dealRoom.id ∧ P c.state

def Knows (db : Db) : Local → Prop
  | .postFresh call freshStatus => AtStage db call.dealRoom.id freshStatus
  | .resolveReady call | .resolveLocked call => HasCondition db call fun _ ↦ True
  | .resolveFresh call =>
    HasCondition db call fun state ↦ call.input.state.toState ∈ dealConditionTransitions state
  | .decideFresh call freshStatus next => AtStage db call.dealRoom.id freshStatus ∧
    nextStatus call.input.decisionType freshStatus = .ok next
  | _ => True

/-- The key that a local state is under. -/
def held (env : Platform) : Local → Option Int
  | .postLocked call | .postFresh call _ => some (env.hashtext call.dealRoom.id)
  | .resolveLocked call | .resolveFresh call => some (env.hashtext call.dealRoom.id)
  | .decideLocked call | .decideFresh call _ _ => some (env.hashtext call.dealRoom.id)
  | _ => none

section

variable {db db' : Db}

/-! ### Each write concerns one room -/

/-- The same condition, perhaps in another state. -/
def SameCondition (a b : DealCondition) : Prop := b.id = a.id ∧ b.dealRoomId = a.dealRoomId

/-- Only the room `k` and its conditions change. -/
structure KeptBut (k : Uuid) (db db' : Db) : Prop where
  rooms : ∀ room ∈ db.dealRooms, room.id ≠ k → room ∈ db'.dealRooms
  conditions : ∀ c ∈ db.dealConditions, c.dealRoomId ≠ k → c ∈ db'.dealConditions
  same : Rows.Evolves SameCondition db.dealConditions db'.dealConditions

theorem Staged.rooms {k : Uuid} {src : DealRoomStatus} {dst : Option DealRoomStatus}
    (h : Staged db db' k src dst) {room : DealRoom} (hroom : room ∈ db.dealRooms) (hid : room.id ≠ k) :
    room ∈ db'.dealRooms := by
  rw [h.rooms_eq]
  cases dst with
  | none => exact hroom
  | some dst => exact Rows.mem_rewrite_iff.2 ⟨room, hroom, if_neg hid⟩

theorem Posted.kept {call : PostCall} {freshStatus : DealRoomStatus} {condition : DealCondition}
    (h : Posted db db' call freshStatus condition) : KeptBut call.dealRoom.id db db' where
  rooms _ hroom hid := h.staged.rooms hroom hid
  conditions _ hc _ := h.conditions_eq ▸ List.mem_append_left _ hc
  same := h.conditions_eq ▸ Rows.Evolves.append (fun _ ↦ ⟨rfl, rfl⟩) _ _

theorem Resolved.kept (hc : Consistent db) {call : ResolveCall} {P : DealConditionState → Prop}
    (hl : HasCondition db call P) (h : Resolved db db' call) : KeptBut call.dealRoom.id db db' where
  rooms room hroom _ := h.rooms_eq ▸ hroom
  conditions c hmem hroom := by
    obtain ⟨own, hown, hid, howner, -⟩ := hl
    rw [h.conditions_eq]
    refine Rows.mem_rewrite_iff.2 ⟨c, hmem, if_neg fun hc' ↦ hroom ?_⟩
    rw [Rows.eq_of_key_eq hc.conditionIds hown hmem (hc'.trans hid.symm), howner]
  same := h.conditions_eq ▸ Rows.Evolves.rewrite (fun _ ↦ ⟨rfl, rfl⟩) fun _ _ _ ↦ ⟨rfl, rfl⟩

theorem Decided.kept {call : DecideCall} {freshStatus : DealRoomStatus} {next : Option DealRoomStatus}
    (h : Decided db db' call freshStatus next) : KeptBut call.dealRoom.id db db' where
  rooms _ hroom hid := h.staged.rooms hroom hid
  conditions _ hc _ := h.conditions_eq ▸ hc
  same := h.conditions_eq ▸ Rows.Evolves.refl (fun _ ↦ ⟨rfl, rfl⟩) _

/-- The room that a write concerns is locked by the writer. -/
theorem Wrote.kept (env : Platform) {l : Local} (hc : Consistent db) (hl : Knows db l)
    (h : Wrote db db' l) : ∃ k, KeptBut k db db' ∧ held env l = some (env.hashtext k) := by
  cases h with
  | posted h => exact ⟨_, h.kept, rfl⟩
  | @resolved call h =>
    have hown : HasCondition db call fun state ↦
      call.input.state.toState ∈ dealConditionTransitions state := hl
    exact ⟨_, h.kept hc hown, rfl⟩
  | decided h => exact ⟨_, h.kept, rfl⟩

/-- **Non-interference.** A write under another key leaves what a call knows. -/
theorem knows_of_wrote {env : Platform} {l m : Local} (hc : Consistent db) (hl : Knows db l)
    (hm : Knows db m) (hlock : ∀ key, held env m = some key → held env l ≠ some key)
    (h : Wrote db db' l) : Knows db' m := by
  obtain ⟨k, hkept, hk⟩ := h.kept env hc hl
  have hother {j : Uuid} (hheld : held env m = some (env.hashtext j)) : j ≠ k := by
    rintro rfl
    exact hlock _ hheld hk
  have hstage {j : Uuid} {status : DealRoomStatus} (hj : j ≠ k) (h : AtStage db j status) :
      AtStage db' j status := by
    obtain ⟨room, hroom, rfl, hstatus⟩ := h
    exact ⟨room, hkept.rooms room hroom hj, rfl, hstatus⟩
  -- before the lock a call knows only whose condition it is
  have hcondition {call : ResolveCall} (h : HasCondition db call fun _ ↦ True) :
      HasCondition db' call fun _ ↦ True := by
    obtain ⟨c, hmem, hid, hroom, -⟩ := h
    obtain ⟨c', hmem', hid', hroom'⟩ := hkept.same c hmem
    exact ⟨c', hmem', hid'.trans hid, hroom'.trans hroom, trivial⟩
  cases m with
  | postFresh call freshStatus => exact hstage (hother rfl) hm
  | decideFresh call freshStatus next => exact ⟨hstage (hother rfl) hm.1, hm.2⟩
  | resolveReady call => exact hcondition hm
  | resolveLocked call => exact hcondition hm
  | resolveFresh call =>
    obtain ⟨c, hmem, hid, hroom, hedge⟩ := hm
    exact ⟨c, hkept.conditions c hmem (hroom ▸ hother rfl), hid, hroom, hedge⟩
  | _ => trivial

/-! ### Each write is a legal step -/

/-- The next status of a decision is one that the table allows. -/
theorem nextStatus_eq_ok {decisionType : RequestedDecision} {src : DealRoomStatus}
    {next : Option DealRoomStatus} (h : nextStatus decisionType src = .ok next) :
    computeNextStatus decisionType src = next ∧
      ∀ dst, next = some dst → dst ∈ dealRoomTransitions src := by
  unfold nextStatus at h
  rcases hnext : computeNextStatus decisionType src with - | dst
  · rw [hnext] at h
    obtain rfl := Except.ok.inj h
    exact ⟨rfl, fun dst hdst ↦ nomatch hdst⟩
  · rw [hnext] at h
    obtain ⟨_, hedge, h⟩ := Except.bind_eq_ok'.1 h
    obtain rfl := Except.ok.inj h
    refine ⟨rfl, fun dst' hdst ↦ ?_⟩
    exact Option.some.inj hdst ▸ (assertValidTransition_eq_ok_iff.1 hedge).2

/-- A change from the status that the room is at. -/
theorem Staged.step {k : Uuid} {src : DealRoomStatus} {dst : Option DealRoomStatus}
    (h : Staged db db' k src dst) (hat : AtStage db k src)
    (hedge : ∀ s, dst = some s → s ∈ dealRoomTransitions src) : StageStep db db' := by
  obtain ⟨room, hroom, rfl, rfl⟩ := hat
  obtain ⟨hrooms, hevents⟩ := h
  cases dst with
  | none => exact .kept hrooms (hevents.trans (List.append_nil _))
  | some dst => exact .changed hroom (hedge dst rfl) hrooms hevents

theorem conditionMoved_refl (c : DealCondition) : ConditionMoved c c := ⟨rfl, Or.inl rfl⟩

theorem LegalStep.refl (db : Db) : LegalStep db db where
  stage := .kept rfl rfl
  conditions := .refl conditionMoved_refl _

/-- **Whatever commits is a legal step.** -/
theorem Wrote.legal {l : Local} (hc : Consistent db) (hl : Knows db l) (h : Wrote db db' l) :
    LegalStep db db' := by
  cases h with
  | @posted call freshStatus condition h =>
    refine ⟨h.staged.step hl fun s hs ↦ ?_, ?_⟩
    · unfold conditionStage at hs
      split at hs
      · next hopen =>
        rw [hopen, ← Option.some.inj hs]
        decide
      · cases hs
    · exact h.conditions_eq ▸ .append conditionMoved_refl _ _
  | @resolved call h =>
    obtain ⟨own, hown, hid, -, hedge⟩ := hl
    refine ⟨.kept h.rooms_eq h.events_eq, ?_⟩
    rw [h.conditions_eq]
    refine .rewrite conditionMoved_refl fun c hmem hkey ↦ ⟨rfl, Or.inr ?_⟩
    rw [Rows.eq_of_key_eq hc.conditionIds hown hmem (hkey.trans hid.symm)]
    exact hedge
  | decided h =>
    refine ⟨h.staged.step hl.1 (nextStatus_eq_ok hl.2).2, ?_⟩
    exact h.conditions_eq ▸ .refl conditionMoved_refl _

/-! ### Each write keeps the rooms told -/

/-- A change of stage adds its move to the room's chain. -/
theorem StageStep.told (h : StageStep db db') (hc : Consistent db) :
    ∀ room ∈ db'.dealRooms, Told db' room := by
  intro room' hroom'
  cases h with
  | kept hrooms hevents =>
    obtain ⟨moves, hmoves, hpath⟩ := hc.told room' (hrooms ▸ hroom')
    exact ⟨moves, hevents ▸ hmoves, hpath⟩
  | @changed room dst hroom hedge hrooms hevents =>
    rw [hrooms] at hroom'
    obtain ⟨old, hold, hnew⟩ := Rows.mem_rewrite_iff.1 hroom'
    obtain ⟨moves, hmoves, hpath⟩ := hc.told old hold
    by_cases hid : old.id = room.id
    · obtain rfl := Rows.eq_of_key_eq hc.roomIds hroom hold hid
      rw [if_pos rfl] at hnew
      subst hnew
      refine ⟨moves ++ [(old.status, dst)], ?_, hpath.append ⟨rfl, hedge, rfl⟩⟩
      rw [hevents, List.filter_append, List.map_append]
      show (stageEvents db).filter (·.1 = old.id) ++ _ = _
      rw [hmoves]
      exact congrArg (_ ++ ·) (List.filter_cons_of_pos (decide_eq_true rfl))
    · rw [if_neg hid] at hnew
      subst hnew
      -- the event is of another room
      refine ⟨moves, ?_, hpath⟩
      rw [hevents, List.filter_append, hmoves]
      have hother : ¬ (stageEvent room.id (room.status, dst)).1 = old.id := fun h ↦ hid h.symm
      rw [List.filter_cons_of_neg (by simpa using hother), List.filter_nil, List.append_nil]

theorem Wrote.consistent {l : Local} (hc : Consistent db) (hl : Knows db l) (h : Wrote db db' l) :
    Consistent db' := by
  have hstage := (h.legal hc hl).stage
  refine ⟨?_, ?_, hstage.told hc⟩
  · cases hstage with
    | kept hrooms _ => exact hrooms ▸ hc.roomIds
    | changed _ _ hrooms _ =>
      rw [hrooms, Rows.map_rewrite (DealRoomRepository.setStatus_id _)]
      exact hc.roomIds
  · cases h with
    | posted h =>
      rw [h.conditions_eq]
      refine Rows.nodup_append hc.conditionIds (fun r hr ↦ ?_) (List.nodup_singleton _)
      exact List.mem_singleton.1 hr ▸ h.fresh
    | resolved h =>
      rw [h.conditions_eq, Rows.map_rewrite (DealConditionRepository.setState_id _ _)]
      exact hc.conditionIds
    | decided h => exact h.conditions_eq ▸ hc.conditionIds

/-! ### What a read has found -/

theorem reloadStatus_eq_ok {dealRoomId : Uuid} {status : DealRoomStatus}
    (h : reloadStatus db dealRoomId = .ok status) : AtStage db dealRoomId status := by
  obtain ⟨room, hroom, h⟩ := Except.bind_eq_ok'.1 h
  obtain rfl := Except.ok.inj h
  have hfound := orThrow_eq_ok_iff.1 hroom
  exact ⟨room, List.mem_of_find?_eq_some hfound, of_decide_eq_true (List.find?_some hfound :), rfl⟩

theorem loadCondition_eq_ok {call : DealCall} {input : ResolveConditionRequest} {conditionId : Uuid}
    {condition : DealCondition}
    (h : loadCondition db call conditionId input.state.toState = .ok condition) :
    HasCondition db ⟨call, input, condition⟩ fun _ ↦ True := by
  obtain ⟨found, hfound, h⟩ := Except.bind_eq_ok'.1 h
  obtain ⟨_, -, h⟩ := Except.bind_eq_ok'.1 h
  obtain rfl := Except.ok.inj h
  obtain ⟨hfound, hroom⟩ := Option.filter_eq_some_iff.1 (orThrow_eq_ok_iff.1 hfound)
  exact ⟨found, List.mem_of_find?_eq_some hfound, rfl, of_decide_eq_true hroom, trivial⟩

theorem revalidateCondition_eq_ok (hc : Consistent db) {call : ResolveCall} {u : Unit}
    (h : revalidateCondition db call.condition.id call.input.state.toState = .ok u)
    (hl : HasCondition db call fun _ ↦ True) :
    HasCondition db call fun state ↦ call.input.state.toState ∈ dealConditionTransitions state := by
  obtain ⟨fresh, hfresh, h⟩ := Except.bind_eq_ok'.1 h
  obtain ⟨c, hmem, hid, hroom, -⟩ := hl
  have hfound := orThrow_eq_ok_iff.1 hfresh
  have hkey : fresh.id = call.condition.id := of_decide_eq_true (List.find?_some hfound :)
  obtain rfl := Rows.eq_of_key_eq hc.conditionIds hmem (List.mem_of_find?_eq_some hfound)
    (hkey.trans hid.symm)
  exact ⟨fresh, hmem, hid, hroom, (assertValidTransition_eq_ok_iff.1 h).2⟩

/-- A read moves a call on under the same key, and what it has found is known. -/
theorem knows_of_query {env : Platform} {d : Draws} {l l' : Local} {f : Db → Except Thrown Local}
    (hnext : (calls env).next d l = .query f) (hf : f db = .ok l') :
    held env l' = held env l ∧ (Consistent db → Knows db l → Knows db l') := by
  cases l with
  | called actor context dealRoomId request =>
    obtain rfl := NextStep.query.inj hnext
    obtain ⟨room, -, hf⟩ := Except.bind_eq_ok'.1 hf
    obtain rfl := Except.ok.inj hf
    exact ⟨rfl, fun _ _ ↦ trivial⟩
  | roomRead call request =>
    obtain rfl := NextStep.query.inj hnext
    cases request with
    | postCondition input =>
      obtain ⟨_, -, hf⟩ := Except.bind_eq_ok'.1 hf
      obtain ⟨_, -, hf⟩ := Except.bind_eq_ok'.1 hf
      obtain rfl := Except.ok.inj hf
      exact ⟨rfl, fun _ _ ↦ trivial⟩
    | resolveCondition conditionId input =>
      obtain ⟨_, -, hf⟩ := Except.bind_eq_ok'.1 hf
      obtain rfl := Except.ok.inj hf
      exact ⟨rfl, fun _ _ ↦ trivial⟩
    | recordDecision input =>
      obtain ⟨_, -, hf⟩ := Except.bind_eq_ok'.1 hf
      obtain ⟨_, -, hf⟩ := Except.bind_eq_ok'.1 hf
      obtain rfl := Except.ok.inj hf
      exact ⟨rfl, fun _ _ ↦ trivial⟩
  | postLocked call =>
    obtain rfl := NextStep.query.inj hnext
    obtain ⟨freshStatus, hfresh, hf⟩ := Except.bind_eq_ok'.1 hf
    obtain rfl := Except.ok.inj hf
    exact ⟨rfl, fun _ _ ↦ reloadStatus_eq_ok hfresh⟩
  | resolveAllowed call conditionId input =>
    obtain rfl := NextStep.query.inj hnext
    obtain ⟨condition, hcondition, hf⟩ := Except.bind_eq_ok'.1 hf
    obtain rfl := Except.ok.inj hf
    exact ⟨rfl, fun _ _ ↦ loadCondition_eq_ok hcondition⟩
  | resolveLocked call =>
    obtain rfl := NextStep.query.inj hnext
    obtain ⟨_, hfresh, hf⟩ := Except.bind_eq_ok'.1 hf
    obtain rfl := Except.ok.inj hf
    exact ⟨rfl, fun hc hl ↦ revalidateCondition_eq_ok hc hfresh hl⟩
  | decideLocked call =>
    obtain rfl := NextStep.query.inj hnext
    obtain ⟨freshStatus, hfresh, hf⟩ := Except.bind_eq_ok'.1 hf
    obtain ⟨next, hnextStatus, hf⟩ := Except.bind_eq_ok'.1 hf
    obtain rfl := Except.ok.inj hf
    exact ⟨rfl, fun _ _ ↦ ⟨reloadStatus_eq_ok hfresh, hnextStatus⟩⟩
  | _ => cases hnext

end

/-! ### Runs -/

section

variable (env : Platform) {Pid : Type} [DecidableEq Pid]

/-- Each call is under the key of its room from its lock to its commit. -/
def lockDiscipline : (calls env).LockDiscipline where
  held := held env
  queried hnext hf := (knows_of_query hnext hf).1
  locked {d l key l'} hnext := by
    cases l with
    | postReady | resolveReady | decideReady =>
      obtain ⟨rfl, rfl⟩ := NextStep.lock.inj hnext
      rfl
    | _ => cases hnext
  committed hnext hbody := by
    obtain ⟨-, response, rfl⟩ := wrote_of_commit hnext hbody
    rfl
  failed _ := rfl
  crashed := rfl

/-- The outline of the deal calls. -/
def outline : (calls env).Outline (lockDiscipline env) where
  inv := Consistent
  asrt := Knows
  queried hc hl hnext hf := (knows_of_query hnext hf).2 hc hl
  locked {d l key s l'} _ hl hnext := by
    cases l with
    | postReady | decideReady =>
      obtain ⟨rfl, rfl⟩ := NextStep.lock.inj hnext
      trivial
    | resolveReady =>
      obtain ⟨rfl, rfl⟩ := NextStep.lock.inj hnext
      exact hl
    | _ => cases hnext
  committed hc hl hnext hbody := by
    obtain ⟨hwrote, response, rfl⟩ := wrote_of_commit hnext hbody
    exact ⟨hwrote.consistent hc hl, trivial⟩
  failed _ := trivial
  crashed := trivial
  stable hc hl hm hlock hnext hbody :=
    knows_of_wrote hc hl hm hlock (wrote_of_commit hnext hbody).1

/-- A configuration of deal calls. -/
abbrev Config (Pid : Type) : Type :=
  PartySystem.Config Pid (CallSystem.Shared Db Int Pid) Local

/-- Where a run starts: a consistent database, and no call has done anything yet. -/
structure Initial (c : Config Pid) : Prop where
  consistent : Consistent c.shared.db
  called : ∀ p, ∃ actor context dealRoomId request,
    c.locals p = .called actor context dealRoomId request

/-- Rooms that have just been opened are `OPEN`, and nothing has been told of them. -/
theorem consistent_ofSelection {db : Rfqs.Db} (hids : (db.dealRooms.map (·.id)).Nodup)
    (hnone : ∀ e ∈ db.trails.domainEvents, e.eventType ≠ "deal.stage_changed") :
    Consistent (Db.ofSelection db) where
  roomIds := by
    show ((db.dealRooms.map _).map _).Nodup
    rwa [List.map_map]
  conditionIds := List.nodup_nil
  told room hroom := by
    obtain ⟨r, -, rfl⟩ := List.mem_map.1 hroom
    have hevents : stageEvents (Db.ofSelection db) = [] := by
      rw [stageEvents, List.map_eq_nil_iff, List.filter_eq_nil_iff]
      exact fun e he ↦ by simpa using hnone e he
    exact ⟨[], by rw [hevents]; rfl, rfl⟩

/-- What holds of every configuration of a run. -/
def Sound (c : Config Pid) : Prop := (lockDiscipline env).Kept c ∧ (outline env).Holds c

variable {env} {c c' : Config Pid} {p : Pid} {t : Tick Draws}

omit [DecidableEq Pid] in
theorem Initial.sound (h : Initial c) : Sound env c := by
  refine ⟨fun p key hheld ↦ ?_, h.consistent, fun p ↦ ?_⟩
  · obtain ⟨actor, context, dealRoomId, request, hlocal⟩ := h.called p
    rw [hlocal] at hheld
    cases hheld
  · obtain ⟨actor, context, dealRoomId, request, hlocal⟩ := h.called p
    rw [hlocal]
    trivial

theorem Sound.fire (h : Sound env c) (hfire : ((calls env).system Pid).fire c p t = some c') :
    Sound env c' :=
  ⟨h.1.fire hfire, h.2.fire h.1 hfire⟩

/-- **One step of any call is legal.** -/
theorem Sound.legal (h : Sound env c) (hfire : ((calls env).system Pid).fire c p t = some c') :
    LegalStep c.shared.db c'.shared.db := by
  obtain ⟨-, hc, hknows⟩ := h
  rcases (CallSystem.transition_of_fire hfire).db_cases with hdb | ⟨d, body, -, hnext, hbody⟩
  · rw [hdb]
    exact .refl _
  · exact (wrote_of_commit hnext hbody).1.legal hc (hknows p)

/-- A condition that is `SATISFIED` or `WAIVED` stays so. -/
theorem settled_of_evolves {rows rows' : List DealCondition}
    (h : Rows.Evolves ConditionMoved rows rows') {a : DealCondition} (ha : a ∈ rows)
    (hsettled : a.state = .satisfied ∨ a.state = .waived) :
    ∃ b ∈ rows', b.id = a.id ∧ b.state = a.state := by
  obtain ⟨b, hb, hid, hstate | hedge⟩ := h a ha
  · exact ⟨b, hb, hid, hstate⟩
  · rcases hsettled with hstate | hstate <;> rw [hstate] at hedge <;> cases hedge

/-- **Stage integrity.** In every run each step is legal; wherever the run leads, the stage events of
each room are a chain from `OPEN` to its status, and every condition that was `SATISFIED` or `WAIVED`
is so still. -/
theorem stageIntegrity (hc : Initial c) (steps : List (Pid × Tick Draws)) :
    ((calls env).system Pid).Along (fun c _ _ c' ↦ LegalStep c.shared.db c'.shared.db) c steps ∧
      ∀ c', ((calls env).system Pid).run c steps = some c' →
        (∀ room ∈ c'.shared.db.dealRooms, Told c'.shared.db room) ∧
        ∀ a ∈ c.shared.db.dealConditions, a.state = .satisfied ∨ a.state = .waived →
          ∃ b ∈ c'.shared.db.dealConditions, b.id = a.id ∧ b.state = a.state := by
  have hsound : Sound env c := hc.sound
  refine ⟨?_, fun c' hrun ↦ ?_⟩
  · exact PartySystem.Along.imp_of_inv (Q := fun _ _ _ _ ↦ True)
      (fun h hfire _ ↦ ⟨Sound.fire h hfire, h.legal hfire⟩) hsound
      (.of_forall (fun _ _ _ _ ↦ trivial) c steps)
  · have hend := PartySystem.Along.inv (Q := fun _ _ _ _ ↦ True)
      (I := fun c₁ ↦ Sound env c₁ ∧
        ∀ a ∈ c.shared.db.dealConditions, a.state = .satisfied ∨ a.state = .waived →
          ∃ b ∈ c₁.shared.db.dealConditions, b.id = a.id ∧ b.state = a.state)
      (fun h hfire _ ↦ by
        refine ⟨h.1.fire hfire, fun a ha hsettled ↦ ?_⟩
        obtain ⟨b, hb, hid, hstate⟩ := h.2 a ha hsettled
        obtain ⟨b', hb', hid', hstate'⟩ := settled_of_evolves (h.1.legal hfire).conditions hb
          (hstate ▸ hsettled)
        exact ⟨b', hb', hid'.trans hid, hstate'.trans hstate⟩)
      ⟨hsound, fun a ha _ ↦ ⟨a, ha, rfl, rfl⟩⟩ (.of_forall (fun _ _ _ _ ↦ trivial) c steps) hrun
    exact ⟨hend.1.2.1.told, hend.2⟩

end

/-! ### A condition and an approval -/

namespace Sample

def env : Platform where
  hashtext s := s.length
  sha256 s := s
  toISOString t := toString t

def context : RequestContext := ⟨"req", "corr", "office", "browser"⟩

def provider : Actor := ⟨"pia", some "acquirer", some .acquirerProviderUser, some "m1"⟩

def merchant : Actor := ⟨"merle", some "merchant", some .merchantPspUser, some "m2"⟩

/-- A room that has just been opened. -/
def opened : Db where
  dealRooms :=
    [{ id := "deal", opportunityId := "opp", rfqId := "r1", selectedQuoteId := "q1",
       merchantOrgId := "merchant", providerOrgId := "acquirer" }]
  dealRoomParticipants :=
    [⟨"part1", "deal", "merchant", .merchant⟩, ⟨"part2", "deal", "acquirer", .provider⟩]

/-- The provider asks for a document while the merchant approves. -/
def race : Config ℕ where
  shared := ⟨opened, .free⟩
  locals
    | 0 => .called provider context "deal" (.postCondition ⟨"UBO documents", "merchant", none, none, none⟩)
    | _ => .called merchant context "deal" (.recordDecision ⟨.approval, "price"⟩)

def draws : Draws := ⟨fun n ↦ s!"n{n}", 500⟩

/-- The approval has passed its first checks when the condition is posted. -/
def raceSteps : List (ℕ × Tick Draws) :=
  [1, 1, 0, 0, 0, 0, 0, 1, 1, 1].map fun p ↦ (p, .act draws)

theorem initial_race : Initial race where
  consistent :=
    { roomIds := by decide
      conditionIds := by decide
      told := fun room hroom ↦ by
        obtain rfl := List.mem_singleton.1 hroom
        exact ⟨[], rfl, rfl⟩ }
  called p := by
    cases p with
    | zero => exact ⟨_, _, _, _, rfl⟩
    | succ p => exact ⟨_, _, _, _, rfl⟩

/-- Both succeed: `OPEN`, `CONDITIONS`, `APPROVED`. -/
theorem stageIntegrity_race :
    (∃ c, ((calls env).system ℕ).run race raceSteps = some c ∧
      (stageEvents c.shared.db).map Prod.snd =
        [[("from", .string "OPEN"), ("to", .string "CONDITIONS")],
         [("from", .string "CONDITIONS"), ("to", .string "APPROVED")]]) ∧
    ((calls env).system ℕ).Along (fun c _ _ c' ↦ LegalStep c.shared.db c'.shared.db) race raceSteps ∧
      ∀ c', ((calls env).system ℕ).run race raceSteps = some c' →
        (∀ room ∈ c'.shared.db.dealRooms, Told c'.shared.db room) ∧
        ∀ a ∈ race.shared.db.dealConditions, a.state = .satisfied ∨ a.state = .waived →
          ∃ b ∈ c'.shared.db.dealConditions, b.id = a.id ∧ b.state = a.state := by
  have hrun : (((calls env).system ℕ).run race raceSteps).any (fun c ↦
      (stageEvents c.shared.db).map Prod.snd =
        [[("from", .string "OPEN"), ("to", .string "CONDITIONS")],
         [("from", .string "CONDITIONS"), ("to", .string "APPROVED")]]) = true := by
    decide +kernel
  exact ⟨PartySystem.exists_run_of_test hrun, stageIntegrity initial_race raceSteps⟩

end Sample

end TolPlatform.Deals
