import TolPlatform.Economics.Payments

/-!
# Balances over runs

A ledger is solvent when no chain is owed less than nothing. Accruals and credits keep it solvent. A
payment keeps it solvent when its batch fits, and a debit when it is covered by what is outstanding,
which nothing checks (`wrote_solvent`, `fits_of_solvent`).

Runs whose writes fit (`WritesFit`) keep every balance that the ledger stores, lists or answers with
one that the wire format can carry, and the first write that does not fit ends that
(`balancesRepresentable_of_writesFit`).
-/

namespace TolPlatform

open AccrualLedgerEntryLike

/-! ### Solvency -/

/-- A debit is covered by what is outstanding on the accrual. -/
def DebitFits (db : Db) (r : AdjustLedgerRequest) : Prop :=
  r.direction = .debit → r.minorUnits ≤ outstandingOf (chainOf db r.accrualRootId)

/-- What a party is about to write fits the ledger. -/
def Fits (db : Db) : Local → Prop
  | .paymentValidated call _ _ => RepeatsFit db call.input.payments
  | .adjustmentValidated call _ _ _ => DebitFits db call.input
  | _ => True

/-- No chain is overdrawn. -/
def Solvent (db : Db) : Prop := ∀ accrualRootId, 0 ≤ owedOn db.commissionAccruals accrualRootId

/-- Accruals only raise what is owed. -/
theorem owedOn_nonneg_of_accruals {rows : List CommissionAccrual}
    (h : ∀ row ∈ rows, row.entryType = .accrual ∧ 0 ≤ row.amountMinor) (id : Uuid) :
    0 ≤ owedOn rows id := by
  refine List.sum_nonneg fun n hn ↦ ?_
  obtain ⟨row, hrow, rfl⟩ := List.mem_map.1 hn
  obtain ⟨htype, hnonneg⟩ := h row hrow
  show 0 ≤ ite _ _ _
  split_ifs with hid
  · simpa [owedMinor, accruedMinor, adjustedMinor, paidMinor, CommissionAccrual.toLike, htype]
      using hnonneg
  · exact le_refl _

section Writes

variable {P : Platform} {e : Draws} {db db' : Db} {l : Local}

/-- An adjustment moves the balance of its own chain, by its amount. -/
theorem AdjustmentWritten.owedOn_eq {call : ServiceCall AdjustLedgerRequest} {plan : AdjustmentPlan}
    {root row : CommissionAccrual} (h : AdjustmentWritten P e call plan root db db' row) (id : Uuid) :
    owedOn db'.commissionAccruals id = owedOn db.commissionAccruals id +
      if call.input.accrualRootId = id then
        (if call.input.direction = .credit then plan.amountMinor else -plan.amountMinor)
      else 0 := by
  have hrow : owedOn [row] id = if call.input.accrualRootId = id then
      (if call.input.direction = .credit then plan.amountMinor else -plan.amountMinor) else 0 := by
    rw [h.row_eq, owedOn, List.map_singleton, List.sum_singleton]
    show (if call.input.accrualRootId = id then owedMinor _ else 0) = _
    congr 1
    simp [owedMinor, accruedMinor, adjustedMinor, paidMinor, CommissionAccrual.toLike, signedAmount,
      CommissionAccrualRepository.toRow, adjustmentInput]
  rw [h.rows.accruals_eq, owedOn_append, hrow]

/-- **A write that fits keeps every chain solvent.** -/
theorem wrote_solvent (hc : Consistent db) (hk : Knows db l) (h : Wrote P e l db db')
    (hfit : Fits db l) (hs : Solvent db) : Solvent db' := by
  have haccruals : ∀ {rows}, db'.commissionAccruals = db.commissionAccruals ++ rows →
      (∀ row ∈ rows, row.entryType = .accrual ∧ 0 ≤ row.amountMinor) → Solvent db' := by
    intro rows heq hrows id
    rw [heq, owedOn_append]
    exact add_nonneg (hs id) (owedOn_nonneg_of_accruals hrows id)
  cases h with
  | schedule hw =>
    intro id
    rw [hw.accruals_eq]
    exact hs id
  | event hw =>
    obtain ⟨_, -, -, hsplit⟩ := hk
    refine haccruals hw.rows.accruals_eq fun row hrow ↦ ?_
    obtain ⟨htype, -, -, entry, hentry, hamount⟩ := hw.rows.accrual_row hrow
    exact ⟨htype, hamount ▸ hsplit.nonneg entry hentry⟩
  | job hw =>
    have hsplit := isSplitOf_of_computeCommissionSplits hw.computed
    refine haccruals hw.rows.accruals_eq fun row hrow ↦ ?_
    obtain ⟨htype, -, -, entry, hentry, hamount⟩ := hw.rows.accrual_row hrow
    exact ⟨htype, hamount ▸ hsplit.nonneg entry hentry⟩
  | payment hw =>
    rename_i call plan valid rows
    intro id
    rw [hw.owedOn_eq hk id]
    by_cases hnamed : id ∈ call.input.payments.map (·.accrualRootId)
    · obtain ⟨entry, hentry, rfl⟩ := List.mem_map.1 hnamed
      have hle := batchTotal_le_outstanding hk hfit hentry
      rw [hc.outstandingOf_chainOf] at hle
      omega
    · rw [batchTotal_eq_zero hnamed, sub_zero]
      exact hs id
  | adjustment hw =>
    rename_i call plan root chain row
    obtain ⟨⟨hpos, hamount⟩, -⟩ := hk
    intro id
    have hbefore := hs id
    rw [hw.owedOn_eq id]
    split_ifs with hid hcredit
    · omega
    · obtain hdebit : call.input.direction = .debit := by
        rcases hdir : call.input.direction with - | -
        · exact absurd hdir hcredit
        · rfl
      have hle := hfit hdebit
      rw [hid, hc.outstandingOf_chainOf, ← hamount] at hle
      omega
    · omega

/-- A write that does not fit overdraws a chain. -/
theorem fits_of_solvent (hc : Consistent db) (hk : Knows db l) (h : Wrote P e l db db')
    (hs : Solvent db') : Fits db l := by
  cases h with
  | payment hw =>
    rename_i call plan valid rows
    intro id _
    have hafter := hs id
    rw [hw.owedOn_eq hk id] at hafter
    rw [hc.outstandingOf_chainOf]
    omega
  | adjustment hw =>
    rename_i call plan root chain row
    intro hdebit
    have hafter := hs call.input.accrualRootId
    rw [hw.owedOn_eq, if_pos rfl, hdebit, if_neg (by decide), hk.1.2] at hafter
    rw [hc.outstandingOf_chainOf]
    omega
  | schedule | event | job => trivial

end Writes

/-! ### Balances that the wire format can carry -/

/-- No amount of a balance is negative, and `PAID` means paid exactly. -/
structure Representable (b : AccrualBalance) : Prop where
  net : 0 ≤ b.netAmountMinor
  outstanding : 0 ≤ b.outstandingAmountMinor
  paid : b.status = .paid → b.paidAmountMinor = b.netAmountMinor

theorem LedgerShape.representable_iff {db : Db} (h : LedgerShape db) (id : Uuid) :
    Representable (balanceOf (chainIn db.commissionAccruals id)) ↔
      0 ≤ owedOn db.commissionAccruals id := by
  have hout := h.outstandingOf_chainIn id
  have hpaid := h.paidOf_nonneg id
  have howed := sum_owedMinor (chainIn db.commissionAccruals id)
  rw [sum_owedMinor_chainIn] at howed
  constructor
  · intro hrep
    rw [← hout]
    exact hrep.outstanding
  · intro hnonneg
    have hnet : netOf (chainIn db.commissionAccruals id) =
        owedOn db.commissionAccruals id + paidOf (chainIn db.commissionAccruals id) := by
      unfold netOf paidOf
      omega
    refine ⟨?_, ?_, fun hstatus ↦ ?_⟩
    · show 0 ≤ netOf _
      omega
    · show 0 ≤ outstandingOf _
      omega
    · show paidOf _ = netOf _
      -- `PAID` is reported when nothing is outstanding
      have hle : outstandingOf (chainIn db.commissionAccruals id) ≤ 0 := by
        by_contra hpos
        change statusOf _ = .paid at hstatus
        rw [statusOf, h.not_reversed, if_neg Bool.false_ne_true, if_neg hpos] at hstatus
        split_ifs at hstatus
      omega

/-- Every adjustment that has been answered was answered with a representable balance. -/
def AnswersRepresentable {Pid : Type} (c : EconomicsConfig Pid) : Prop :=
  ∀ p row balance, c.locals p = .finished (.ok (.adjustment (row, balance))) → Representable balance

/-- Every balance that the ledger holds, lists or answers with is representable. -/
structure BalancesRepresentable {Pid : Type} (c : EconomicsConfig Pid) : Prop where
  stored : ∀ row ∈ c.shared.db.commissionAccruals, ∃ balance,
    computeAccrualBalance (chainOf c.shared.db row.accrualRootId) = .ok balance ∧
      Representable balance
  listed : ∀ actor dealRoomId accruals, getLedger c.shared.db actor dealRoomId = .ok accruals →
    ∀ accrual ∈ accruals, Representable accrual.balance
  answered : AnswersRepresentable c

/-- A view of the ledger that shows rows by accrual shows whole chains. -/
theorem LedgerShape.chainIn_perm {db : Db} (h : LedgerShape db) {rows : List CommissionAccrual}
    {visible : CommissionAccrual → Bool} (hrows : rows.Perm (db.commissionAccruals.filter visible))
    (hvisible : ∀ r r', SameAccrual r r' → visible r = visible r') {row : CommissionAccrual}
    (hrow : row ∈ rows) :
    (chainIn rows row.accrualRootId).Perm (chainIn db.commissionAccruals row.accrualRootId) := by
  obtain ⟨hmem, hshown⟩ := List.mem_filter.1 (hrows.mem_iff.1 hrow)
  have hwhole : (db.commissionAccruals.filter visible).filter
      (·.accrualRootId = row.accrualRootId) =
        db.commissionAccruals.filter (·.accrualRootId = row.accrualRootId) := by
    rw [List.filter_filter]
    refine List.filter_congr fun r hr ↦ ?_
    rcases hid : decide (r.accrualRootId = row.accrualRootId) with - | -
    · rfl
    · have hsame := h.same_chain hmem hr (of_decide_eq_true hid).symm
      rw [← hvisible row r hsame, hshown]
      rfl
  have hfiltered := hrows.filter fun r ↦ r.accrualRootId = row.accrualRootId
  rw [hwhole] at hfiltered
  exact hfiltered.map _

/-- **Whoever looks**, a listed balance is the balance of a whole chain of the ledger. -/
theorem LedgerShape.balance_of_getLedger {db : Db} (h : LedgerShape db) {actor : Actor}
    {dealRoomId : Uuid} {accruals : List AccrualWithBalance}
    (hledger : getLedger db actor dealRoomId = .ok accruals) {accrual : AccrualWithBalance}
    (haccrual : accrual ∈ accruals) :
    accrual.balance = balanceOf (chainIn db.commissionAccruals accrual.accrualRootId) := by
  obtain ⟨_, -, hledger⟩ := Except.bind_eq_ok'.1 hledger
  obtain ⟨_, -, hviews⟩ := Except.bind_eq_ok'.1 hledger
  set rows := if (actor.role.any (· ∈ crossOrgEconomicsRoles)) = true then
      CommissionAccrualRepository.listByDealRoom db dealRoomId
    else (CommissionAccrualRepository.listByDealRoom db dealRoomId).filter
      (some ·.recipientOrgId = actor.organizationId) with hdef
  have hbalance := balance_of_groupIntoAccruals hviews haccrual
  obtain ⟨hrooted, hbalance⟩ := computeAccrualBalance_eq_ok_iff.1 hbalance
  have hsorted : (CommissionAccrualRepository.listByDealRoom db dealRoomId).Perm
      (db.commissionAccruals.filter (·.dealRoomId = dealRoomId)) := List.perm_insertionSort _ _
  obtain ⟨visible, hvisible, hrows⟩ : ∃ visible : CommissionAccrual → Bool,
      (∀ r r', SameAccrual r r' → visible r = visible r') ∧
        rows.Perm (db.commissionAccruals.filter visible) := by
    rw [hdef]
    split_ifs
    · exact ⟨_, fun r r' hsame ↦ by rw [hsame.dealRoom], hsorted⟩
    · refine ⟨fun r ↦ decide (some r.recipientOrgId = actor.organizationId) &&
        decide (r.dealRoomId = dealRoomId), fun r r' hsame ↦ ?_, ?_⟩
      · simp only [hsame.dealRoom, hsame.recipient]
      · rw [← List.filter_filter]
        exact hsorted.filter _
  -- the chain is not empty, so one of its rows names the accrual
  obtain ⟨root, hroot⟩ := exists_root_of_rooted hrooted
  obtain ⟨hrow, hid⟩ := List.mem_filter.1 (List.mem_of_find?_eq_some hroot)
  have hperm := h.chainIn_perm hrows hvisible hrow
  rw [of_decide_eq_true hid] at hperm
  rw [hbalance, balanceOf_perm hperm]

/-- A solvent ledger, and answers that were representable when they were given, make a configuration
representable. -/
theorem balancesRepresentable_of_solvent {Pid : Type} {c : EconomicsConfig Pid}
    (hc : LedgerShape c.shared.db) (hs : Solvent c.shared.db)
    (hanswers : AnswersRepresentable c) : BalancesRepresentable c := by
  have hrep := fun id ↦ (hc.representable_iff id).2 (hs id)
  refine ⟨fun row hrow ↦ ?_, fun actor dealRoomId accruals hledger accrual haccrual ↦ ?_, hanswers⟩
  · refine ⟨_, (hc.rooted_chainOf hrow).computeAccrualBalance, ?_⟩
    rw [balanceOf_perm (chainOf_perm c.shared.db _)]
    exact hrep _
  · rw [hc.balance_of_getLedger hledger haccrual]
    exact hrep _

/-- The ledger of a representable configuration is solvent. -/
theorem BalancesRepresentable.solvent {Pid : Type} {c : EconomicsConfig Pid}
    (h : BalancesRepresentable c) (hc : LedgerShape c.shared.db) : Solvent c.shared.db := by
  intro id
  by_cases hid : ∃ row ∈ c.shared.db.commissionAccruals, row.accrualRootId = id
  · obtain ⟨row, hrow, rfl⟩ := hid
    obtain ⟨balance, hbalance, hrep⟩ := h.stored row hrow
    obtain ⟨-, rfl⟩ := computeAccrualBalance_eq_ok_iff.1 hbalance
    rw [balanceOf_perm (chainOf_perm c.shared.db _)] at hrep
    exact (hc.representable_iff _).1 hrep
  · refine le_of_eq (List.sum_eq_zero fun n hn ↦ ?_).symm
    obtain ⟨row, hrow, rfl⟩ := List.mem_map.1 hn
    have hne : ¬ row.accrualRootId = id := fun heq ↦ hid ⟨row, hrow, heq⟩
    exact if_neg hne

/-! ### Runs whose writes fit -/

section Runs

variable {Pid : Type} [DecidableEq Pid] {P : Platform} {p : Pid} {e : Env}

/-- A call that fails a check has not answered. -/
theorem next_of_proceed {α : Type} {s s' : Shared Pid} {r : Except Thrown α} {next : α → Local}
    {response : Response} (h : s.proceed p r next = (s', .finished (.ok response))) :
    ∃ a, next a = .finished (.ok response) := by
  rcases r with thrown | a
  · cases (Prod.mk.inj h).2
  · exact ⟨a, (Prod.mk.inj h).2⟩

theorem next_of_lock {s s' : Shared Pid} {key : Int} {next l' : Local}
    (h : s.lock p key next = some (s', l')) : l' = next := by
  obtain ⟨locks, -, hret⟩ := Option.map_eq_some_iff.1 h
  exact (Prod.mk.inj hret).2.symm

theorem map_error_ne_ok {α β : Type} {f : α → β} {thrown : Thrown} {r : β} :
    (Except.error thrown : Except Thrown α).map f ≠ .ok r := by
  simp [Except.map]

/-- **Where an adjustment's answer comes from.** -/
theorem adjustment_of_advance {s s' : Shared Pid} {l : Local} {row : CommissionAccrual}
    {balance : AccrualBalance}
    (h : advance P p e s l = some (s', .finished (.ok (.adjustment (row, balance))))) :
    ∃ call plan root chain, l = .adjustmentValidated call plan root chain ∧
      AdjustmentWritten P e.toDraws call plan root s.db s'.db row ∧
      computeAccrualBalance ((chain ++ [row]).map CommissionAccrual.toLike) = .ok balance := by
  cases l with
  | start call =>
    cases call with
    | createSchedule | recordRevenueEvent | recordPayment | adjustLedger =>
      obtain ⟨_, hnext⟩ := next_of_proceed (Option.some.inj h)
      cases hnext
    | economicsAccrual id =>
      have hnext := (Prod.mk.inj (Option.some.inj h)).2
      split_ifs at hnext
      · cases hnext
  | revenueAdmitted | paymentLocked | adjustmentLocked =>
    obtain ⟨_, hnext⟩ := next_of_proceed (Option.some.inj h)
    cases hnext
  | paymentChecked | adjustmentChecked | jobFound => cases next_of_lock h
  | schedulePrepared =>
    obtain ⟨_, -, hret⟩ := close_eq_ok map_error_ne_ok (Option.some.inj h)
    cases hret
  | revenuePlanned =>
    obtain ⟨_, -, hret⟩ := close_eq_ok map_error_ne_ok (Option.some.inj h)
    cases hret
  | paymentValidated =>
    obtain ⟨_, -, hret⟩ := close_eq_ok paymentResponse_ne_ok (Option.some.inj h)
    cases hret
  | adjustmentValidated call plan root chain =>
    obtain ⟨ledgerEntry, hbody, hret⟩ := close_eq_ok (by simp [Except.bind]) (Option.some.inj h)
    rcases hadjusted : toLedgerAdjusted chain ledgerEntry with thrown | adjusted
    · simp [Except.bind, Except.map, hadjusted] at hret
    · simp only [Except.bind, Except.map, hadjusted, Except.ok.injEq, Response.adjustment.injEq]
        at hret
      subst hret
      obtain ⟨_, hbalance, hpair⟩ := Except.bind_eq_ok'.1 hadjusted
      obtain ⟨rfl, rfl⟩ := Prod.mk.inj (Except.ok.inj hpair)
      exact ⟨call, plan, root, chain, rfl, commitAdjustment_eq_ok hbody, hbalance⟩
  | jobLocked id =>
    simp only [advance] at h
    split at h <;> cases h
  | jobCleared plan =>
    have hclose := Option.some.inj h
    unfold Shared.closeJob at hclose
    split at hclose <;> cases hclose
  | finished | crashed => cases h

variable {c c' : EconomicsConfig Pid}

/-- What a step writes, if it writes, fits. -/
def WritesFit (c : EconomicsConfig Pid) (p : Pid) (_ : Env) (c' : EconomicsConfig Pid) : Prop :=
  c'.shared.db ≠ c.shared.db → Fits c.shared.db (c.locals p)

/-- **One step.** A solvent ledger stays solvent exactly over steps whose writes fit. -/
theorem solvent_iff_of_fire (h : EconomicsReachable P c) (hs : Solvent c.shared.db)
    (hfire : (economicsSystem P Pid).fire c p e = some c') :
    Solvent c'.shared.db ↔ WritesFit c p e c' := by
  obtain ⟨hc, hlocals⟩ := outline_of_reachable h
  rcases (db_of_step (PartySystem.step_of_fire hfire)).1 with hdb | hwrote
  · rw [hdb]
    exact ⟨fun _ hne ↦ absurd hdb hne, fun _ ↦ hs⟩
  · constructor
    · intro hs' _
      exact fits_of_solvent hc (hlocals p).knows hwrote hs'
    · intro hfit
      by_cases hdb : c'.shared.db = c.shared.db
      · rw [hdb]
        exact hs
      · exact wrote_solvent hc (hlocals p).knows hwrote (hfit hdb) hs

/-- An adjustment answers with the balance that it leaves behind. -/
theorem answersRepresentable_of_fire (h : EconomicsReachable P c)
    (hfire : (economicsSystem P Pid).fire c p e = some c') (hs' : Solvent c'.shared.db)
    (hanswers : AnswersRepresentable c) : AnswersRepresentable c' := by
  intro q row balance hq
  rcases eq_or_ne q p with rfl | hne
  · have hadvance := advance_of_fire hfire (by simp [hq])
    rw [hq] at hadvance
    obtain ⟨call, plan, root, chain, hlocal, hwritten, hbalance⟩ := adjustment_of_advance hadvance
    have hknows := ((outline_of_reachable h).2 q).knows
    rw [hlocal] at hknows
    obtain ⟨rfl, -⟩ := loadAdjustableChain_eq_ok hknows.2
    obtain ⟨-, rfl⟩ := computeAccrualBalance_eq_ok_iff.1 hbalance
    -- the chain that was read and the new row are the chain that is now stored
    have hid : row.accrualRootId = call.input.accrualRootId := (hwritten.row hknows.2).2.2.1
    have hchain : chainIn c'.shared.db.commissionAccruals call.input.accrualRootId =
        chainIn c.shared.db.commissionAccruals call.input.accrualRootId ++ [row.toLike] := by
      rw [chainIn, hwritten.rows.accruals_eq, List.filter_append, List.map_append]
      simp [chainIn, hid]
    have hperm := (chainOf_perm c.shared.db call.input.accrualRootId).append_right [row.toLike]
    rw [← hchain] at hperm
    rw [List.map_append, List.map_singleton]
    change Representable (balanceOf (chainOf _ _ ++ _))
    rw [balanceOf_perm hperm]
    exact ((outline_of_reachable (h.fire hfire)).1.representable_iff _).2 (hs' _)
  · rw [PartySystem.locals_of_fire hfire hne] at hq
    exact hanswers q row balance hq

/-- **When balances stay representable.** In every run whose payments and debits fit, every balance
of every configuration is representable; the first write that does not fit ends that. -/
theorem balancesRepresentable_of_writesFit
    (h : (economicsSystem P Pid).ReachableBy WritesFit Start c) : BalancesRepresentable c ∧
      ∀ p e c', (economicsSystem P Pid).fire c p e = some c' →
        (BalancesRepresentable c' ↔ WritesFit c p e c') := by
  obtain ⟨hs, hanswers⟩ : Solvent c.shared.db ∧ AnswersRepresentable c := by
    refine h.rec_inv (I := fun c ↦ Solvent c.shared.db ∧ AnswersRepresentable c)
      (fun c hstart ↦ ⟨fun id ↦ ?_, fun q row balance hq ↦ ?_⟩) ?_
    · rw [hstart.db.no_accruals]
      exact le_refl 0
    · obtain ⟨call, hcall⟩ := hstart.locals q
      rw [hcall] at hq
      cases hq
    · intro c p e c' hc ⟨hs, hanswers⟩ hfire hfit
      have hs' := (solvent_iff_of_fire hc.reachable hs hfire).2 hfit
      exact ⟨hs', answersRepresentable_of_fire hc.reachable hfire hs' hanswers⟩
  have hc := (outline_of_reachableBy h).1
  refine ⟨balancesRepresentable_of_solvent hc.toLedgerShape hs hanswers, fun p e c' hfire ↦ ?_⟩
  have hc' := (outline_of_reachable (h.reachable.fire hfire)).1
  rw [← solvent_iff_of_fire h.reachable hs hfire]
  constructor
  · exact fun hrep ↦ hrep.solvent hc'.toLedgerShape
  · exact fun hs' ↦ balancesRepresentable_of_solvent hc'.toLedgerShape hs'
      (answersRepresentable_of_fire h.reachable hfire hs' hanswers)

end Runs

namespace Sample

/-- Party 0 records the event, the others adjust its accrual. -/
def adjustmentCalls (direction : LedgerDirection) (amountMinor : String) : ℕ → Call
  | 0 => recordEvent
  | _ => .adjustLedger (call { accrualRootId := accrualId, direction, amountMinor, reason := "fees" })

/-- Party 0 records the event, then party 1 adjusts. -/
def adjustmentSteps : List (ℕ × Env) :=
  recordEventSteps ++ List.replicate 4 (1, draws ["3f0b7c1e-58f2-4d0e-9a64-1c2d5e7f9a15"])

/-- A state in which nothing has to be checked against the ledger. -/
def alwaysFits : Local → Bool
  | .paymentValidated _ _ _ => false
  | .adjustmentValidated call _ _ _ => call.input.direction = .credit
  | _ => true

theorem fits_of_alwaysFits {db : Db} {l : Local} (h : alwaysFits l = true) : Fits db l := by
  cases l with
  | paymentValidated => cases h
  | adjustmentValidated call =>
    intro hdebit
    rw [alwaysFits, hdebit] at h
    cases h
  | _ => trivial

end Sample

/-- A credit of 50 fits: the accrual of 100 ends with 150 outstanding. -/
theorem balancesRepresentable_of_credit : ∃ c : EconomicsConfig ℕ,
    outstandingOf (chainOf c.shared.db Sample.accrualId) = 150 ∧ BalancesRepresentable c := by
  have hrun : ((economicsSystem Sample.platform ℕ).run
      (Sample.start (Sample.adjustmentCalls .credit "50")) Sample.adjustmentSteps).any (fun c ↦
        decide (outstandingOf (chainOf c.shared.db Sample.accrualId) = 150)) = true := by
    decide +kernel
  have hfits : (economicsSystem Sample.platform ℕ).testAlong
      (fun c p ↦ Sample.alwaysFits (c.locals p)) (Sample.start (Sample.adjustmentCalls .credit "50"))
      Sample.adjustmentSteps = true := by
    decide +kernel
  obtain ⟨c, hc, hout⟩ := (Option.any_eq_true _ _).1 hrun
  have hreach : (economicsSystem Sample.platform ℕ).ReachableBy WritesFit Start c :=
    PartySystem.ReachableBy.run (.start (Sample.start_start _)) hc
      (.of_test (fun _ _ _ _ htest _ ↦ Sample.fits_of_alwaysFits htest) hfits)
  exact ⟨c, of_decide_eq_true hout, (balancesRepresentable_of_writesFit hreach).1⟩

/-- The answer of a debit: nothing has been paid, and more than the accrual is gone. -/
def Sample.overdrawn : Local → Bool
  | .finished (.ok (.adjustment (_, balance))) =>
    decide (balance.netAmountMinor = -50 ∧ balance.outstandingAmountMinor = -50 ∧
      balance.status = .paid ∧ balance.paidAmountMinor = 0)
  | _ => false

/-- Nothing bounds a debit: 150 off an accrual of 100 is answered with a net amount of -50. -/
theorem adjustLedger_overdraws : ∃ (c : EconomicsConfig ℕ) (row : CommissionAccrual)
    (balance : AccrualBalance), EconomicsReachable Sample.platform c ∧
      c.locals 1 = .finished (.ok (.adjustment (row, balance))) ∧
      balance.netAmountMinor = -50 ∧ balance.outstandingAmountMinor = -50 ∧
      balance.status = .paid ∧ balance.paidAmountMinor = 0 ∧ ¬ BalancesRepresentable c := by
  have hrun : ((economicsSystem Sample.platform ℕ).run
      (Sample.start (Sample.adjustmentCalls .debit "150")) Sample.adjustmentSteps).any (fun c ↦
        Sample.overdrawn (c.locals 1)) = true := by
    decide +kernel
  obtain ⟨c, hc, h⟩ := (Option.any_eq_true _ _).1 hrun
  unfold Sample.overdrawn at h
  split at h
  · next row balance hanswer =>
    obtain ⟨hnet, hout, hstatus, hpaid⟩ := of_decide_eq_true h
    refine ⟨c, row, balance, Sample.reachable_of_run hc, hanswer, hnet, hout, hstatus, hpaid, ?_⟩
    intro hrep
    have hnonneg := (hrep.answered 1 row balance hanswer).net
    omega
  · cases h

end TolPlatform
