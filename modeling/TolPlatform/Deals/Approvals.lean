import TolPlatform.Deals.Stages

/-!
# What gates an approval

A condition has a state and, besides it, a flag `blocking`. No operation reads the flag: a room is
approved by a decision alone, out of `OPEN` or `CONDITIONS` (`approved_by_decision`), and every step of a
decision goes the same way whatever conditions the room has (`Deciding.fire`).
-/

namespace TolPlatform.Deals

variable {Pid : Type} [DecidableEq Pid]

/-! ### Statements -/

/-- A commit moves the room to `APPROVED`. -/
def Approves (db db' : Db) (room : DealRoom) : Prop :=
  room ∈ db.dealRooms ∧ room.status ≠ .approved ∧
    ∃ room' ∈ db'.dealRooms, room'.id = room.id ∧ room'.status = .approved

/-- A condition of the room that blocks it and is neither `SATISFIED` nor `WAIVED`. -/
def Blocked (db : Db) (room : DealRoom) : Prop :=
  ∃ c ∈ db.dealConditions, c.dealRoomId = room.id ∧ c.blocking = true ∧
    c.state ≠ .satisfied ∧ c.state ≠ .waived

/-- The local states of `recordDecision`. -/
def Deciding : Local → Prop
  | .called _ _ _ (.recordDecision _) | .roomRead _ (.recordDecision _) => True
  | .decideReady _ | .decideLocked _ | .decideFresh _ _ _ => True
  | _ => False

def Db.withConditions (db : Db) (conditions : List DealCondition) : Db :=
  { db with dealConditions := conditions }

/-- The same configuration with other conditions. -/
def withConditions (c : Config Pid) (conditions : List DealCondition) : Config Pid where
  shared := c.shared.over (·.withConditions conditions)
  locals := c.locals

/-- The step of a decision does not depend on the conditions, and leaves them as they are. -/
def IgnoresConditions (env : Platform) (c : Config Pid) (p : Pid) (t : Tick Draws) (c' : Config Pid) :
    Prop :=
  c'.shared.db.dealConditions = c.shared.db.dealConditions ∧
    ∀ conditions, ((calls env).system Pid).fire (withConditions c conditions) p t =
      some (withConditions c' conditions)

/-- The commit that moves a room to `APPROVED` is an approval's, out of a stage before it. -/
def ByDecision (c : Config Pid) (p : Pid) (room : DealRoom) : Prop :=
  (room.status = .open ∨ room.status = .conditions) ∧
    ∃ call freshStatus, c.locals p = .decideFresh call freshStatus (some .approved) ∧
      call.dealRoom.id = room.id ∧ call.input.decisionType = .approval

/-! ### Approvals -/

section

variable {db db' : Db}

/-- The row that is there afterwards tells which write it was. -/
theorem Staged.approves {k : Uuid} {src : DealRoomStatus} {dst : Option DealRoomStatus}
    (h : Staged db db' k src dst) (hc : Consistent db) {room : DealRoom}
    (happroves : Approves db db' room) : dst = some .approved ∧ room.id = k := by
  obtain ⟨hroom, hnot, room', hroom', hid, happroved⟩ := happroves
  rw [h.rooms_eq] at hroom'
  cases dst with
  | none =>
    obtain rfl := Rows.eq_of_key_eq hc.roomIds hroom hroom' hid
    exact absurd happroved hnot
  | some dst =>
    obtain ⟨old, hold, rfl⟩ := Rows.mem_rewrite_iff.1 hroom'
    split at hid <;> rename_i hk
    · obtain rfl := Rows.eq_of_key_eq hc.roomIds hroom hold hid
      rw [if_pos hk] at happroved
      exact ⟨congrArg some happroved, hk⟩
    · obtain rfl := Rows.eq_of_key_eq hc.roomIds hroom hold hid
      rw [if_neg hk] at happroved
      exact absurd happroved hnot

theorem computeNextStatus_eq_approved {decisionType : RequestedDecision} {src : DealRoomStatus}
    (h : computeNextStatus decisionType src = some .approved) :
    decisionType = .approval ∧ (src = .open ∨ src = .conditions) := by
  unfold computeNextStatus at h
  split at h
  · assumption
  · split at h <;> cases h

end

section

variable {env : Platform} {c c' : Config Pid} {p : Pid} {t : Tick Draws}

/-- **A room is approved by a decision**, and not by anything else. -/
theorem Sound.approved (h : Sound env c) (hfire : ((calls env).system Pid).fire c p t = some c')
    {room : DealRoom} (happroves : Approves c.shared.db c'.shared.db room) : ByDecision c p room := by
  obtain ⟨-, hc, hknows⟩ := h
  have hl := hknows p
  rcases (CallSystem.transition_of_fire hfire).db_cases with hdb | ⟨d, body, -, hnext, hbody⟩
  · obtain ⟨hroom, hnot, room', hroom', hid, happroved⟩ := happroves
    rw [hdb] at hroom'
    obtain rfl := Rows.eq_of_key_eq hc.roomIds hroom hroom' hid
    exact absurd happroved hnot
  · have hwrote := (wrote_of_commit hnext hbody).1
    unfold ByDecision
    generalize c.locals p = l at hl hwrote ⊢
    cases hwrote with
    | @posted call freshStatus condition hposted =>
      -- a condition never leads to `APPROVED`
      obtain ⟨hdst, -⟩ := hposted.staged.approves hc happroves
      unfold conditionStage at hdst
      split at hdst <;> cases hdst
    | resolved hresolved =>
      obtain ⟨hroom, hnot, room', hroom', hid, happroved⟩ := happroves
      rw [hresolved.rooms_eq] at hroom'
      obtain rfl := Rows.eq_of_key_eq hc.roomIds hroom hroom' hid
      exact absurd happroved hnot
    | @decided call freshStatus next hdecided =>
      obtain ⟨⟨own, hown, hid, hstatus⟩, hnextStatus⟩ := hl
      obtain ⟨rfl, hroom⟩ := hdecided.staged.approves hc happroves
      obtain rfl := Rows.eq_of_key_eq hc.roomIds happroves.1 hown (hid.trans hroom.symm)
      obtain ⟨hnext, -⟩ := nextStatus_eq_ok hnextStatus
      obtain ⟨htype, hbefore⟩ := computeNextStatus_eq_approved hnext
      exact ⟨hstatus ▸ hbefore, call, freshStatus, rfl, hid.symm, htype⟩

end

/-! ### Decisions and conditions -/

section

variable {conditions : List DealCondition}

theorem blind_setStage (call : DealCall) (dst : Option DealRoomStatus) :
    (setStage call dst).Blind (Db.withConditions · conditions) := by
  have hrooms : dealRooms.Apart (Db.withConditions · conditions) :=
    ⟨fun _ ↦ rfl, fun _ _ ↦ rfl⟩
  cases dst with
  | none => exact Tx.blind_pure _
  | some dst => exact (hrooms.update _ _ _).bind fun _ ↦ Tx.blind_pure _

theorem blind_record (f : Trails → Trails) : (record f).Blind (Db.withConditions · conditions) :=
  Tx.blind_modify fun _ ↦ rfl

/-- The transaction of a decision sees no condition. -/
theorem blind_recordDecisionTx (d : Draws) (call : DecideCall) (freshStatus : DealRoomStatus)
    (next : Option DealRoomStatus) :
    (recordDecisionTx d call freshStatus next).Blind (Db.withConditions · conditions) := by
  have hdecisions : dealDecisions.Apart (Db.withConditions · conditions) :=
    ⟨fun _ ↦ rfl, fun _ _ ↦ rfl⟩
  refine (hdecisions.insert _ _).bind fun decision ↦ ?_
  refine (blind_setStage _ _).bind fun _ ↦ ?_
  exact (blind_record _).bind fun _ ↦ Tx.blind_pure _

/-- Neither do the reads before it. -/
theorem Deciding.blindAt {env : Platform} {l : Local} (h : Deciding l) :
    (calls env).BlindAt (Db.withConditions · conditions) l where
  queries {d f} hnext s := by
    cases l with
    | called actor context dealRoomId request =>
      cases request with
      | recordDecision input =>
        obtain rfl := NextStep.query.inj hnext
        rfl
      | _ => exact h.elim
    | roomRead call request =>
      cases request with
      | recordDecision input =>
        obtain rfl := NextStep.query.inj hnext
        rfl
      | _ => exact h.elim
    | decideLocked call =>
      obtain rfl := NextStep.query.inj hnext
      rfl
    | decideReady | decideFresh => cases hnext
    | _ => exact h.elim
  commits {d body} hnext := by
    cases l with
    | decideFresh call freshStatus next =>
      obtain rfl := NextStep.commit.inj hnext
      exact (blind_recordDecisionTx d call freshStatus next).map _
    | called | roomRead | decideReady | decideLocked => cases hnext
    | _ => exact h.elim

end

section

variable {env : Platform} {c c' : Config Pid} {p : Pid} {t : Tick Draws}

/-- **A decision ignores the conditions.** -/
theorem Deciding.fire (h : Deciding (c.locals p))
    (hfire : ((calls env).system Pid).fire c p t = some c') : IgnoresConditions env c p t c' := by
  have hsame (conditions : List DealCondition) : ((calls env).system Pid).fire
      (withConditions c conditions) p t = some (withConditions c' conditions) := h.blindAt.fire hfire
  refine ⟨?_, hsame⟩
  -- with the conditions that there are it is the step itself
  have hown : c' = withConditions c' c.shared.db.dealConditions :=
    Option.some.inj (hfire.symm.trans (hsame c.shared.db.dealConditions))
  rw [hown]
  rfl

/-- **What gates an approval.** In every run a room is moved to `APPROVED` by the commit of an approval
that finds it `OPEN` or in `CONDITIONS`; and every step of a decision is the same whatever conditions
there are, blocking or not. -/
theorem approved_by_decision (hc : Initial c) (steps : List (Pid × Tick Draws)) :
    ((calls env).system Pid).Along (fun c p t c' ↦
      (∀ room, Approves c.shared.db c'.shared.db room → ByDecision c p room) ∧
        (Deciding (c.locals p) → IgnoresConditions env c p t c')) c steps := by
  have hsound : Sound env c := hc.sound
  refine PartySystem.Along.imp_of_inv (Q := fun _ _ _ _ ↦ True) (fun h hfire _ ↦ ?_) hsound
    (.of_forall (fun _ _ _ _ ↦ trivial) c steps)
  exact ⟨h.fire hfire, fun _ happroves ↦ h.approved hfire happroves, fun hl ↦ hl.fire hfire⟩

end

/-! ### An approval over a condition -/

namespace Sample

theorem approved_by_decision_race : ((calls env).system ℕ).Along (fun c p t c' ↦
    (∀ room, Approves c.shared.db c'.shared.db room → ByDecision c p room) ∧
      (Deciding (c.locals p) → IgnoresConditions env c p t c')) race raceSteps :=
  approved_by_decision initial_race raceSteps

/-- The room is approved while its one condition, a blocking one, is `PENDING`. -/
theorem approved_while_blocked : Initial race ∧
    ∃ c c', ((calls env).system ℕ).run race (raceSteps.take 9) = some c ∧
      ((calls env).system ℕ).fire c 1 (.act draws) = some c' ∧
        ∃ room, Approves c.shared.db c'.shared.db room ∧ Blocked c'.shared.db room := by
  have hrun : (((calls env).system ℕ).run race (raceSteps.take 9)).any (fun c ↦
      (((calls env).system ℕ).fire c 1 (.act draws)).any fun c' ↦
        ∃ room ∈ c.shared.db.dealRooms, room.status ≠ .approved ∧
          (∃ room' ∈ c'.shared.db.dealRooms, room'.id = room.id ∧ room'.status = .approved) ∧
          ∃ a ∈ c'.shared.db.dealConditions, a.dealRoomId = room.id ∧ a.blocking = true ∧
            a.state ≠ .satisfied ∧ a.state ≠ .waived) = true := by
    decide +kernel
  obtain ⟨c, c', hc, hc', room, hroom, hnot, happroved, hblocked⟩ :=
    PartySystem.exists_run_fire_of_test hrun
  exact ⟨initial_race, c, c', hc, hc', room, ⟨hroom, hnot, happroved⟩, hblocked⟩

end Sample

end TolPlatform.Deals
