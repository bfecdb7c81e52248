import TolPlatform.Rfqs.Lifecycle

/-!
# One selection per opportunity

The lock is the RFQ's, and the opportunity, which RFQs share, is written by what a call read before
it. So a write goes over the status that it is meant for exactly when the opportunity has not changed
since it was read; and as long as that is so in a run, no opportunity goes back and none has a second
selected quote or a second deal room (`oneSelection_iff`).
-/

namespace TolPlatform.Rfqs

/-! ### What is claimed -/

/-- The statuses in the order of the lifecycle. -/
def rank : OpportunityStatus → ℕ
  | .draft => 0
  | .readinessBlocked => 1
  | .matchReady => 2
  | .invited => 3
  | .quoted => 4
  | .selected => 5
  | .activating => 6
  | .live => 7
  | .closed => 8

/-- The moves that the cascade is meant to make. -/
def expectedMoves : List (OpportunityStatus × OpportunityStatus) :=
  [(.matchReady, .invited), (.invited, .quoted), (.quoted, .selected)]

/-- Every `UPDATE` of an opportunity goes over the status that it is meant for. -/
def ExpectedStep (db db' : Db) : Prop :=
  ∃ updates, db'.opportunityUpdates = db.opportunityUpdates ++ updates ∧
    ∀ u ∈ updates, u.move ∈ expectedMoves

/-- A selected quote of an RFQ on the opportunity. -/
def SelectedOn (db : Db) (opportunityId : Uuid) (q : Quote) : Prop :=
  q.status = .selected ∧ ∃ r ∈ db.rfqs, r.id = q.rfqId ∧ r.opportunityId = opportunityId

/-- The deal rooms of an opportunity. -/
def roomsOf (db : Db) (opportunityId : Uuid) : List DealRoom :=
  db.dealRooms.filter (·.opportunityId = opportunityId)

structure OneSelection (db : Db) (opportunityId : Uuid) : Prop where
  quotes : ∀ q ∈ db.quotes, ∀ q' ∈ db.quotes,
    SelectedOn db opportunityId q → SelectedOn db opportunityId q' → q = q'
  rooms : (roomsOf db opportunityId).length ≤ 1

/-- No opportunity goes back, and none has a second selection. -/
structure ForwardStep (db db' : Db) : Prop where
  noRegress : ∀ o ∈ db.opportunities, ∀ o' ∈ db'.opportunities, o'.id = o.id →
    rank o.status ≤ rank o'.status
  oneSelection : ∀ o ∈ db'.opportunities, OneSelection db' o.id

/-- What a commit writes over is still the status that the call has read. -/
def Unchanged (db : Db) (l : Local) : Prop :=
  ∀ write ∈ opportunityWrite l, ∀ o ∈ db.opportunities, o.id = write.1.id →
    o.status = write.1.status

/-! ### What the calls have read -/

/-- No opportunity is `ACTIVATING`: nothing puts one there. -/
def NoneActivating (db : Db) : Prop := ∀ o ∈ db.opportunities, o.status ≠ .activating

/-- The opportunity that a selection goes by. -/
def opportunityOf : Local → Option Opportunity
  | .opportunityRead call _ => some call.opportunity
  | .selectRead call | .selectReady call _ | .selectLocked call _ | .selectFresh call _ =>
    some call.opportunity
  | _ => none

section

variable {db db' : Db} {l l' : Local}

theorem opportunityWrite_ne_activating {o : Opportunity} {status : OpportunityStatus}
    (h : opportunityWrite l = some (o, status)) : status ≠ .activating := by
  unfold opportunityWrite at h
  split at h
  · split at h
    · obtain ⟨-, rfl⟩ := Prod.mk.inj (Option.some.inj h)
      decide
    · cases h
  · split at h
    · obtain ⟨-, rfl⟩ := Prod.mk.inj (Option.some.inj h)
      decide
    · cases h
  · obtain ⟨-, rfl⟩ := Prod.mk.inj (Option.some.inj h)
    decide
  · cases h

theorem Wrote.noneActivating (hnone : NoneActivating db) (h : Wrote db db' l) :
    NoneActivating db' := by
  have hwritten := h.opportunity
  rcases hwrite : opportunityWrite l with - | ⟨o, status⟩
  · rw [hwrite] at hwritten
    exact fun r hr ↦ hnone r (hwritten.rows_eq ▸ hr)
  · rw [hwrite] at hwritten
    intro r hr
    rw [hwritten.rows_eq] at hr
    obtain ⟨r₀, hr₀, rfl⟩ := Rows.mem_rewrite_iff.1 hr
    split
    · exact opportunityWrite_ne_activating hwrite
    · exact hnone r₀ hr₀

theorem Read.opportunityOf (hnone : NoneActivating db)
    (hl : ∀ o ∈ opportunityOf l, o.status ≠ .activating) (h : Read db l l') :
    ∀ o ∈ Rfqs.opportunityOf l', o.status ≠ .activating := by
  cases h with
  | opportunityRead hmem =>
    rintro o ⟨⟩
    exact hnone _ hmem
  | selectRead | selectReady | selectFresh => exact hl
  | @found _ _ due => cases due <;> exact fun o ho ↦ nomatch ho
  | _ => exact fun o ho ↦ nomatch ho

theorem opportunityOf_proceed {result : RfqExpiryJobResult} {due : List (Uuid × Instant)} :
    opportunityOf (proceed result due) = none := by
  cases due <;> rfl

end

variable (env : Env) in
/-- A second outline: nobody has read an opportunity that was `ACTIVATING`. -/
def readingOutline : (calls env).Outline (lockDiscipline env) where
  inv := NoneActivating
  asrt _ l := ∀ o ∈ opportunityOf l, o.status ≠ .activating
  queried hnone hl hnext hf := (read_of_query hnext hf).opportunityOf hnone hl
  locked {d l key db l'} _ hl hnext := by
    cases l with
    | selectReady =>
      obtain ⟨rfl, rfl⟩ := NextStep.lock.inj hnext
      exact hl
    | declineReady | submitReady | withdrawReady | expiring =>
      obtain ⟨rfl, rfl⟩ := NextStep.lock.inj hnext
      exact fun o ho ↦ nomatch ho
    | _ => cases hnext
  committed {d l body db l' db'} hnone _ hnext hbody := by
    refine ⟨(wrote_of_commit hnext hbody).noneActivating hnone, ?_⟩
    cases l with
    | createReady | declineLocked | submitNumbered | withdrawFresh | selectFresh =>
      obtain rfl := NextStep.commit.inj hnext
      obtain ⟨result, -, rfl⟩ := Tx.map_eq_ok.1 hbody
      exact fun o ho ↦ nomatch ho
    | expiryFresh run fromStatus =>
      obtain rfl := NextStep.commit.inj hnext
      obtain ⟨expired, -, rfl⟩ := Tx.map_eq_ok.1 hbody
      rw [afterOne, opportunityOf_proceed]
      exact fun o ho ↦ nomatch ho
    | _ => cases hnext
  failed _ := fun o ho ↦ nomatch ho
  crashed := fun o ho ↦ nomatch ho
  stable _ _ hm _ _ _ := hm

/-! ### When a write is as expected -/

section

variable {db db' : Db} {l : Local}

/-- What each write goes by. -/
theorem move_mem_iff (hl : Knows db l) (hread : ∀ o ∈ opportunityOf l, o.status ≠ .activating)
    {o : Opportunity} {status : OpportunityStatus} (h : opportunityWrite l = some (o, status))
    {prior : OpportunityStatus} : (prior, status) ∈ expectedMoves ↔ prior = o.status := by
  cases l with
  | createReady call =>
    rw [opportunityWrite] at h
    split at h
    · next hstatus =>
      obtain ⟨rfl, rfl⟩ := Prod.mk.inj (Option.some.inj h)
      rw [hstatus]
      cases prior <;> decide
    · cases h
  | submitNumbered call freshStatus quoteVersion =>
    rw [opportunityWrite] at h
    split at h
    · next hstatus =>
      obtain ⟨rfl, rfl⟩ := Prod.mk.inj (Option.some.inj h)
      rw [hstatus]
      cases prior <;> decide
    · cases h
  | selectFresh call considered =>
    obtain ⟨rfl, rfl⟩ := Prod.mk.inj (Option.some.inj h)
    have hedge := hl.1.2.2
    have hactivating := hread _ rfl
    have hquoted : call.opportunity.status = .quoted := by
      revert hedge hactivating
      cases call.opportunity.status <;> decide
    rw [hquoted]
    cases prior <;> decide
  | _ => cases h

theorem Wrote.expected_iff (hc : Consistent db) (hl : Knows db l)
    (hread : ∀ o ∈ opportunityOf l, o.status ≠ .activating) (h : Wrote db db' l) :
    ExpectedStep db db' ↔ Unchanged db l := by
  have hwritten := h.opportunity
  rcases hwrite : opportunityWrite l with - | ⟨o, status⟩
  · rw [hwrite] at hwritten
    refine iff_of_true ⟨[], by rw [hwritten.updates_eq, List.append_nil], ?_⟩ ?_
    · exact fun u hu ↦ nomatch hu
    · rw [Unchanged, hwrite]
      exact fun write hwrite ↦ nomatch hwrite
  · rw [hwrite] at hwritten
    obtain ⟨old, hold, hid, hupdates⟩ := hwritten.updates_eq
    have hiff : ExpectedStep db db' ↔ (old.status, status) ∈ expectedMoves := by
      constructor
      · rintro ⟨updates, heq, hmoves⟩
        rw [hupdates, List.append_cancel_left_eq] at heq
        exact hmoves _ (heq ▸ List.mem_singleton_self _)
      · intro hmove
        refine ⟨_, hupdates, fun u hu ↦ ?_⟩
        rwa [List.mem_singleton.1 hu]
    rw [hiff, move_mem_iff hl hread hwrite]
    constructor
    · intro hstatus write hw r hr hrid
      obtain rfl := Option.some.inj (hwrite.symm.trans hw)
      rwa [Rows.eq_of_key_eq hc.opportunityIds hold hr (hrid.trans hid.symm)]
    · exact fun hunchanged ↦ hunchanged _ hwrite old hold hid

end

/-! ### Selections -/

/-- Each opportunity has at most one selection, and none before it is `SELECTED`. -/
structure Selections (db : Db) : Prop where
  one : ∀ o ∈ db.opportunities, OneSelection db o.id
  none : ∀ o ∈ db.opportunities, rank o.status < rank .selected →
    (∀ q ∈ db.quotes, ¬ SelectedOn db o.id q) ∧ roomsOf db o.id = []

section

variable {db db' : Db} {l : Local}

/-- An RFQ never changes its opportunity. -/
theorem selectedOn_of_later (hc' : Consistent db') (hlater : Later db db')
    {opportunityId : Uuid} {q : Quote} (hq : q.rfqId ∈ db.rfqs.map (·.id))
    (h : SelectedOn db' opportunityId q) : SelectedOn db opportunityId q := by
  obtain ⟨hstatus, r', hr', hid', hopportunity⟩ := h
  obtain ⟨r, hr, hid⟩ := List.mem_map.1 hq
  obtain ⟨r'', hr'', hrlater⟩ := hlater.rfqs r hr
  obtain rfl := Rows.eq_of_key_eq hc'.rfqIds hr' hr'' (hrlater.id.trans (hid.trans hid'.symm))
  exact ⟨hstatus, r, hr, hid, hrlater.opportunityId.symm.trans hopportunity⟩

/-- A quote that is selected after a write was so before, or the write is its selection. -/
theorem selectedOn_origin (hc : Consistent db) (hl : Knows db l) (h : Wrote db db' l)
    {opportunityId : Uuid} {q : Quote} (hq : q ∈ db'.quotes) (hselected : SelectedOn db' opportunityId q) :
    (q ∈ db.quotes ∧ SelectedOn db opportunityId q) ∨ ∃ call considered,
      l = .selectFresh call considered ∧ q.id = call.quote.id ∧
        opportunityId = call.opportunity.id := by
  have hc' := h.consistent hc hl
  have hlater := h.rfq.later
  have hkept (hmem : q ∈ db.quotes) : q ∈ db.quotes ∧ SelectedOn db opportunityId q :=
    ⟨hmem, selectedOn_of_later hc' hlater (hc.quoteRfqs q hmem) hselected⟩
  obtain ⟨hwrote, -⟩ := h
  cases hwrote with
  | submitted h =>
    rw [h.quotes_eq] at hq
    rcases List.mem_append.1 hq with hq | hq
    · exact Or.inl (hkept hq)
    · -- a new quote is `SUBMITTED`
      rw [List.mem_singleton.1 hq] at hselected
      cases h.status.symm.trans hselected.1
  | @withdrew call h =>
    rw [h.quotes_eq] at hq
    obtain ⟨q₀, hq₀, rfl⟩ := Rows.mem_rewrite_iff.1 hq
    by_cases hid : q₀.id = call.quote.id
    · rw [if_pos hid] at hselected
      cases hselected.1
    · rw [if_neg hid] at hkept ⊢
      exact Or.inl (hkept hq₀)
  | @selected call considered room h =>
    rw [h.quotes_eq] at hq
    obtain ⟨q₀, hq₀, rfl⟩ := Rows.mem_rewrite_iff.1 hq
    by_cases hid : q₀.id = call.quote.id
    · rw [if_pos hid] at hselected ⊢
      obtain ⟨⟨⟨hopportunity, r, hr, hrfq⟩, -⟩, hquoteRfq, q₁, hq₁, hquote, -⟩ := hl
      obtain rfl := Rows.eq_of_key_eq hc.quoteIds hq₁ hq₀ (hid.trans hquote.id.symm)
      -- the row of its RFQ is a later version of the one that the call has read
      obtain ⟨-, r', hr', hr'id, hr'opportunity⟩ := hselected
      obtain ⟨r'', hr'', hrlater⟩ := hlater.rfqs r hr
      have hsame : r'.id = r''.id :=
        hr'id.trans (hquote.rfqId.trans (hquoteRfq.trans (hrfq.id.symm.trans hrlater.id.symm)))
      obtain rfl := Rows.eq_of_key_eq hc'.rfqIds hr'' hr' hsame
      exact Or.inr ⟨_, _, rfl, hid, hr'opportunity.symm.trans
        (hrlater.opportunityId.trans (hrfq.opportunityId.trans hopportunity.symm))⟩
    · rw [if_neg hid] at hkept ⊢
      exact Or.inl (hkept hq₀)
  | created h | declined h | expiring h => exact Or.inl (hkept (h.quotes_eq ▸ hq))

/-- Only a selection opens a deal room. -/
theorem WroteRfq.rooms (h : WroteRfq db db' l) (opportunityId : Uuid) :
    roomsOf db' opportunityId = roomsOf db opportunityId ∨ ∃ call considered room,
      l = .selectFresh call considered ∧ opportunityId = call.opportunity.id ∧
        roomsOf db' opportunityId = roomsOf db opportunityId ++ [room] := by
  cases h with
  | @selected call considered room h =>
    by_cases hid : opportunityId = call.opportunity.id
    · refine Or.inr ⟨call, considered, room, rfl, hid, ?_⟩
      rw [roomsOf, h.dealRooms_eq, List.filter_append]
      exact congrArg _ (List.filter_cons_of_pos (decide_eq_true (h.opportunityId.trans hid.symm)))
    · refine Or.inl ?_
      rw [roomsOf, h.dealRooms_eq, List.filter_append, List.filter_cons_of_neg ?_]
      · exact List.append_nil _
      · rw [decide_eq_true_eq, h.opportunityId]
        exact Ne.symm hid
  | created h | declined h | submitted h | withdrew h | expiring h =>
    exact Or.inl (by rw [roomsOf, roomsOf, h.dealRooms_eq])

/-- An opportunity after a write is one from before, perhaps in the status that was written. -/
theorem OpportunityWritten.origin {w : Option (Opportunity × OpportunityStatus)}
    (h : OpportunityWritten db db' w) {o' : Opportunity} (ho' : o' ∈ db'.opportunities) :
    ∃ o ∈ db.opportunities, o'.id = o.id ∧ (o' = o ∨ ∃ write ∈ w, o.id = write.1.id ∧
      o'.status = write.2) := by
  cases w with
  | none => exact ⟨o', h.rows_eq ▸ ho', rfl, Or.inl rfl⟩
  | some write =>
    rw [h.rows_eq] at ho'
    obtain ⟨o, ho, rfl⟩ := Rows.mem_rewrite_iff.1 ho'
    by_cases hid : o.id = write.1.id
    · rw [if_pos hid]
      exact ⟨o, ho, rfl, Or.inr ⟨write, rfl, hid, rfl⟩⟩
    · rw [if_neg hid]
      exact ⟨o, ho, rfl, Or.inl rfl⟩

/-- An unchanged opportunity goes one status ahead. -/
theorem rank_lt_of_unchanged (hl : Knows db l)
    (hread : ∀ o ∈ opportunityOf l, o.status ≠ .activating) (hunchanged : Unchanged db l)
    {write : Opportunity × OpportunityStatus} (hwrite : write ∈ opportunityWrite l)
    {o : Opportunity} (ho : o ∈ db.opportunities) (hid : o.id = write.1.id) :
    rank o.status + 1 = rank write.2 := by
  have hmove : (o.status, write.2) ∈ expectedMoves :=
    (move_mem_iff hl hread hwrite).2 (hunchanged write hwrite o ho hid)
  have hranks : ∀ move ∈ expectedMoves, rank move.1 + 1 = rank move.2 := by decide
  exact hranks _ hmove

theorem Wrote.noRegress (hc : Consistent db) (hl : Knows db l)
    (hread : ∀ o ∈ opportunityOf l, o.status ≠ .activating) (hunchanged : Unchanged db l)
    (h : Wrote db db' l) : ∀ o ∈ db.opportunities, ∀ o' ∈ db'.opportunities, o'.id = o.id →
      rank o.status ≤ rank o'.status := by
  intro o ho o' ho' hid
  obtain ⟨o₁, ho₁, hid₁, hcases⟩ := h.opportunity.origin ho'
  obtain rfl := Rows.eq_of_key_eq hc.opportunityIds ho ho₁ (hid₁.symm.trans hid)
  rcases hcases with rfl | ⟨write, hwrite, hwid, hstatus⟩
  · exact Nat.le_refl _
  · have hrank := rank_lt_of_unchanged hl hread hunchanged hwrite ho hwid
    rw [hstatus]
    omega

theorem Wrote.selections (hc : Consistent db) (hl : Knows db l)
    (hread : ∀ o ∈ opportunityOf l, o.status ≠ .activating) (hselections : Selections db)
    (hunchanged : Unchanged db l) (h : Wrote db db' l) : Selections db' := by
  have hquoteIds := (h.consistent hc hl).quoteIds
  -- a selection finds its opportunity `QUOTED`, so without one
  have hfirst {call : SelectCall} {considered : List Uuid} {o : Opportunity}
      (hsel : l = .selectFresh call considered) (ho : o ∈ db.opportunities)
      (hid : o.id = call.opportunity.id) :
      (∀ q ∈ db.quotes, ¬ SelectedOn db o.id q) ∧ roomsOf db o.id = [] := by
    have hwrite : (call.opportunity, OpportunityStatus.selected) ∈ opportunityWrite l := hsel ▸ rfl
    have hrank : rank o.status + 1 = rank .selected :=
      rank_lt_of_unchanged hl hread hunchanged hwrite ho hid
    exact hselections.none o ho (by omega)
  refine ⟨fun o' ho' ↦ ?_, fun o' ho' hrank ↦ ?_⟩
  · obtain ⟨o, ho, hid, -⟩ := h.opportunity.origin ho'
    rw [hid]
    refine ⟨fun q hq q' hq' hselected hselected' ↦ ?_, ?_⟩
    · rcases selectedOn_origin hc hl h hq hselected with
        ⟨hmem, hbefore⟩ | ⟨call, considered, hsel, hcall, hcid⟩
      · rcases selectedOn_origin hc hl h hq' hselected' with
          ⟨hmem', hbefore'⟩ | ⟨call, considered, hsel, hcall, hcid⟩
        · exact (hselections.one o ho).quotes q hmem q' hmem' hbefore hbefore'
        · exact absurd hbefore ((hfirst hsel ho hcid).1 q hmem)
      · rcases selectedOn_origin hc hl h hq' hselected' with
          ⟨hmem', hbefore'⟩ | ⟨call', considered', hsel', hcall', -⟩
        · exact absurd hbefore' ((hfirst hsel ho hcid).1 q' hmem')
        · obtain ⟨rfl, -⟩ := Local.selectFresh.inj (hsel.symm.trans hsel')
          exact Rows.eq_of_key_eq hquoteIds hq' hq (hcall.trans hcall'.symm)
    · rcases h.rfq.rooms o.id with heq | ⟨call, considered, room, hsel, hcid, heq⟩
      · rw [heq]
        exact (hselections.one o ho).rooms
      · rw [heq, (hfirst hsel ho hcid).2]
        exact Nat.le_refl _
  · obtain ⟨o, ho, hid, hcases⟩ := h.opportunity.origin ho'
    -- the opportunity was not yet `SELECTED` before either, and the write is not a selection of it
    have hbefore := h.noRegress hc hl hread hunchanged o ho o' ho' hid
    obtain ⟨hnone, hrooms⟩ := hselections.none o ho (by omega)
    have hnot {call : SelectCall} {considered : List Uuid}
        (hsel : l = .selectFresh call considered) : o.id ≠ call.opportunity.id := by
      intro hcid
      have hset : o'.status = .selected := by
        have hwritten := h.opportunity
        rw [hsel] at hwritten
        have hmem := hwritten.rows_eq ▸ ho'
        obtain ⟨o₁, -, rfl⟩ := Rows.mem_rewrite_iff.1 hmem
        split
        · rfl
        · next hne =>
          rw [if_neg hne] at hid
          exact absurd (hid.trans hcid) hne
      rw [hset] at hrank
      exact absurd hrank (Nat.lt_irrefl _)
    rw [hid]
    refine ⟨fun q hq hselected ↦ ?_, ?_⟩
    · rcases selectedOn_origin hc hl h hq hselected with
        ⟨hmem, hselected⟩ | ⟨call, considered, hsel, -, hcid⟩
      · exact hnone q hmem hselected
      · exact hnot hsel hcid
    · rcases h.rfq.rooms o.id with heq | ⟨call, considered, room, hsel, hcid, -⟩
      · rw [heq, hrooms]
      · exact absurd hcid (hnot hsel)

end

/-! ### Runs -/

section

variable {env : Env} {Pid : Type} [DecidableEq Pid] {c c' : Config Pid} {p : Pid} {t : Tick Draws}

/-- The step writes over no opportunity that has changed since it was read. -/
def UnchangedStep (env : Env) (c : Config Pid) (p : Pid) (t : Tick Draws) : Prop :=
  (calls env).Commits c p t → Unchanged c.shared.db (c.locals p)

/-- Where a run starts: no opportunity is `ACTIVATING`, and each has at most one selection. -/
structure CoherentStart (c : Config Pid) : Prop where
  initial : Initial c
  noneActivating : NoneActivating c.shared.db
  selections : Selections c.shared.db

/-- Both outlines. -/
def Reading (env : Env) (c : Config Pid) : Prop :=
  Sound env c ∧ (readingOutline env).Holds c

omit [DecidableEq Pid] in
theorem CoherentStart.reading (h : CoherentStart c) : Reading env c := by
  refine ⟨h.initial.sound, h.noneActivating, fun p ↦ ?_⟩
  rcases h.initial.new p with ⟨actor, context, request, hlocal⟩ | ⟨rfqId, hlocal⟩
  · rw [hlocal]
    exact fun o ho ↦ nomatch ho
  · rw [hlocal]
    exact fun o ho ↦ nomatch ho

theorem Reading.fire (h : Reading env c)
    (hfire : ((calls env).system Pid).fire c p t = some c') : Reading env c' :=
  ⟨h.1.fire hfire, h.2.fire h.1.1 hfire⟩

theorem Reading.expected_iff (h : Reading env c)
    (hfire : ((calls env).system Pid).fire c p t = some c') :
    ExpectedStep c.shared.db c'.shared.db ↔ UnchangedStep env c p t := by
  obtain ⟨⟨-, hc, hknows⟩, -, hread⟩ := h
  rcases CallSystem.commits_or_not hfire with ⟨hnot, hdb⟩ | ⟨hcommits, d, body, hnext, hbody⟩
  · rw [hdb]
    refine iff_of_true ⟨[], (List.append_nil _).symm, ?_⟩ fun hcommits ↦ absurd hcommits hnot
    exact fun u hu ↦ nomatch hu
  · rw [(wrote_of_commit hnext hbody).expected_iff hc (hknows p) (hread p)]
    exact ⟨fun h _ ↦ h, fun h ↦ h hcommits⟩

theorem Reading.forward (h : Reading env c) (hselections : Selections c.shared.db)
    (hfire : ((calls env).system Pid).fire c p t = some c') (hunchanged : UnchangedStep env c p t) :
    Selections c'.shared.db ∧ ForwardStep c.shared.db c'.shared.db := by
  obtain ⟨⟨-, hc, hknows⟩, -, hread⟩ := h
  rcases CallSystem.commits_or_not hfire with ⟨-, hdb⟩ | ⟨hcommits, d, body, hnext, hbody⟩
  · rw [hdb]
    refine ⟨hselections, fun o ho o' ho' hid ↦ ?_, hselections.one⟩
    obtain rfl := Rows.eq_of_key_eq hc.opportunityIds ho ho' hid
    exact Nat.le_refl _
  · have hwrote := wrote_of_commit hnext hbody
    have hselections' := hwrote.selections hc (hknows p) (hread p) hselections (hunchanged hcommits)
    exact ⟨hselections', hwrote.noRegress hc (hknows p) (hread p) (hunchanged hcommits),
      hselections'.one⟩

/-- **One selection per opportunity.** In every run, each write of an opportunity goes over the status
it is meant for if and only if the opportunity is then still as the call has read it. In every run of
which that is true, no opportunity ever goes back, and none ever has two selected quotes or two deal
rooms. -/
theorem oneSelection_iff (hc : CoherentStart c) (steps : List (Pid × Tick Draws)) :
    (((calls env).system Pid).Along (fun c _ _ c' ↦ ExpectedStep c.shared.db c'.shared.db) c steps ↔
        ((calls env).system Pid).Along (fun c p t _ ↦ UnchangedStep env c p t) c steps) ∧
      (((calls env).system Pid).Along (fun c p t _ ↦ UnchangedStep env c p t) c steps →
        ((calls env).system Pid).Along (fun c _ _ c' ↦ ForwardStep c.shared.db c'.shared.db)
          c steps) := by
  constructor
  · exact PartySystem.Along.congr_of_inv (I := Reading env) (fun h hfire ↦ h.expected_iff hfire)
      (fun h hfire _ ↦ h.fire hfire) hc.reading steps
  · refine PartySystem.Along.imp_of_inv (I := fun c ↦ Reading env c ∧ Selections c.shared.db)
      (fun h hfire hunchanged ↦ ?_) ⟨hc.reading, hc.selections⟩
    obtain ⟨hselections, hforward⟩ := h.1.forward h.2 hfire hunchanged
    exact ⟨⟨h.1.fire hfire, hselections⟩, hforward⟩

end

/-! ### Two selections -/

namespace Sample

def merchant : Actor := ⟨"merle", some "merchant", some .merchantPspUser, some "m3"⟩

def quote (id rfqId rfqRecipientId providerOrgId : Uuid) : Quote :=
  { id, rfqId, rfqRecipientId, providerOrgId, quoteVersion := 1, currency := "EUR",
    validUntil := 900, terms := "" }

/-- Two RFQs on one opportunity, each with a quote. -/
def quoted : Db where
  organizations := ["merchant", "acquirer", "bank"]
  opportunities := [{ id := "opp", ownerOrgId := "merchant", status := .quoted }]
  rfqs :=
    [{ id := "r1", opportunityId := "opp", status := .quoted, dueAt := 1000 },
     { id := "r2", opportunityId := "opp", status := .quoted, dueAt := 1000 }]
  rfqRecipients :=
    [{ id := "rec1", rfqId := "r1", providerOrgId := "acquirer", state := .quoted },
     { id := "rec2", rfqId := "r2", providerOrgId := "bank", state := .quoted }]
  quotes := [quote "q1" "r1" "rec1" "acquirer", quote "q2" "r2" "rec2" "bank"]

/-- The merchant selects both. -/
def choices : Config ℕ where
  shared := ⟨quoted, .free⟩
  locals
    | 0 => .called merchant context (.selectQuote "r1" ⟨"q1", "price"⟩)
    | _ => .called merchant context (.selectQuote "r2" ⟨"q2", "speed"⟩)

/-- Each draws ids of its own. -/
def choice : ℕ → ℕ × Tick Draws
  | 0 => (0, .act ⟨fun n ↦ s!"a{n}", 500⟩)
  | _ => (1, .act ⟨fun n ↦ s!"b{n}", 500⟩)

/-- Both read before either commits. -/
def bothSelect : List (ℕ × Tick Draws) :=
  [0, 0, 0, 0, 1, 1, 1, 1, 0, 0, 0, 1, 1, 1].map choice

theorem coherentStart_choices : CoherentStart choices where
  initial :=
    { consistent := ⟨by decide, by decide, by decide, by decide, by decide⟩
      new := fun p ↦ by
        cases p with
        | zero => exact Or.inl ⟨_, _, _, rfl⟩
        | succ p => exact Or.inl ⟨_, _, _, rfl⟩ }
  noneActivating := by unfold NoneActivating; decide
  selections :=
    { one := fun o _ ↦
        ⟨fun q hq _ _ hselected ↦ by
          have hnone : ∀ q ∈ quoted.quotes, q.status ≠ .selected := by decide
          exact absurd hselected.1 (hnone q hq), Nat.zero_le 1⟩
      none := fun o _ _ ↦
        ⟨fun q hq hselected ↦ by
          have hnone : ∀ q ∈ quoted.quotes, q.status ≠ .selected := by decide
          exact absurd hselected.1 (hnone q hq), rfl⟩ }

/-- One opportunity gets two deal rooms. -/
theorem two_rooms : CoherentStart choices ∧
    ∃ c, ((calls env).system ℕ).run choices bothSelect = some c ∧
      (roomsOf c.shared.db "opp").length = 2 := by
  have hrun : (((calls env).system ℕ).run choices bothSelect).any (fun c ↦
      (roomsOf c.shared.db "opp").length = 2) = true := by
    decide +kernel
  exact ⟨coherentStart_choices, PartySystem.exists_run_of_test hrun⟩

theorem oneSelection_iff_choices :
    (((calls env).system ℕ).Along (fun c _ _ c' ↦ ExpectedStep c.shared.db c'.shared.db)
        choices bothSelect ↔
      ((calls env).system ℕ).Along (fun c p t _ ↦ UnchangedStep env c p t) choices bothSelect) ∧
    (((calls env).system ℕ).Along (fun c p t _ ↦ UnchangedStep env c p t) choices bothSelect →
      ((calls env).system ℕ).Along (fun c _ _ c' ↦ ForwardStep c.shared.db c'.shared.db)
        choices bothSelect) :=
  oneSelection_iff coherentStart_choices bothSelect

end Sample

end TolPlatform.Rfqs
