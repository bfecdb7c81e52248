import TolPlatform.Domain.LedgerViews
import TolPlatform.Economics.Service

/-!
# The per-accrual and the period view of a ledger

Ledger rows fall into chains, one for each `accrualRootId`. `groupIntoAccruals` gives every chain its
own balance (`balance_of_groupIntoAccruals`); `reconcileRevenueEvent` adds up all the rows at once.
Both are sums, so grouping cannot tell them apart — except for `REVERSAL` rows. A reversal voids what
is left of its chain whatever its own amount, while the period view subtracts that amount. The two
views therefore agree exactly when the reversed chains owed what their reversals say
(`reconcile_agrees_iff`).
-/

namespace TolPlatform

open AccrualLedgerEntryLike

/-! ### Chains -/

/-- The chains that ledger rows fall into. -/
def chainsOf (rows : List CommissionAccrual) : List (List AccrualLedgerEntryLike) :=
  (rows.groupedBy (·.accrualRootId)).map fun group ↦ group.2.map CommissionAccrual.toLike

/-- The entries of one accrual's chain. -/
def chainIn (rows : List CommissionAccrual) (accrualRootId : Uuid) : List AccrualLedgerEntryLike :=
  (rows.filter (·.accrualRootId = accrualRootId)).map CommissionAccrual.toLike

/-- **Summing chain by chain is summing the rows.** -/
theorem sum_chainsOf (f : AccrualLedgerEntryLike → Int) (rows : List CommissionAccrual) :
    ((chainsOf rows).map fun chain ↦ (chain.map f).sum).sum =
      ((rows.map CommissionAccrual.toLike).map f).sum := by
  have hgroups : ((rows.groupedBy (·.accrualRootId)).map fun group ↦
      (group.2.map fun r ↦ f r.toLike).sum).sum = (rows.map fun r ↦ f r.toLike).sum :=
    List.sum_map_groupedBy (fun r ↦ f r.toLike) rows
  simpa only [chainsOf, List.map_map, Function.comp_def] using hgroups

/-- A group whose chain has a balance holds an `ACCRUAL` row. -/
theorem exists_root_of_rooted {rows : List CommissionAccrual}
    (h : Rooted (rows.map CommissionAccrual.toLike)) :
    ∃ root, rows.find? (·.entryType = .accrual) = some root := by
  have hlength : 0 < ((rows.map CommissionAccrual.toLike).filter (·.entryType = .accrual)).length := by
    rw [h]
    exact Nat.one_pos
  obtain ⟨entry, hentry⟩ := List.exists_mem_of_length_pos hlength
  obtain ⟨hmem, htype⟩ := List.mem_filter.1 hentry
  obtain ⟨row, hrow, rfl⟩ := List.mem_map.1 hmem
  exact Option.isSome_iff_exists.1 (List.find?_isSome.2 ⟨row, hrow, htype⟩)

/-! ### The per-accrual view -/

/-- The order that a group is sorted into does not show in its balance. -/
theorem balance_of_toAccrualWithBalance {group : Uuid × List CommissionAccrual}
    {accrual : AccrualWithBalance} (h : toAccrualWithBalance group = .ok (some accrual)) :
    accrual.accrualRootId = group.1 ∧
      computeAccrualBalance (group.2.map CommissionAccrual.toLike) = .ok accrual.balance := by
  unfold toAccrualWithBalance at h
  rcases hroot : group.2.find? (·.entryType = .accrual) with - | root
  · simp [hroot] at h
  · simp only [hroot, Except.bind_eq_ok'] at h
    obtain ⟨balance, hbalance, hret⟩ := h
    obtain rfl := Option.some.inj (Except.ok.inj hret)
    obtain ⟨hrooted, rfl⟩ := computeAccrualBalance_eq_ok_iff.1 hbalance
    have hperm := (List.perm_insertionSort (fun a b : CommissionAccrual ↦ a.createdAt ≤ b.createdAt)
      group.2).map CommissionAccrual.toLike
    exact ⟨rfl, (computeAccrualBalance_perm hperm.symm (hrooted.perm hperm)).trans hbalance⟩

theorem toAccrualWithBalance_eq_ok_of_rooted {group : Uuid × List CommissionAccrual}
    (h : Rooted (group.2.map CommissionAccrual.toLike)) :
    ∃ accrual, toAccrualWithBalance group = .ok (some accrual) := by
  obtain ⟨root, hroot⟩ := exists_root_of_rooted h
  have hperm := (List.perm_insertionSort (fun a b : CommissionAccrual ↦ a.createdAt ≤ b.createdAt)
    group.2).map CommissionAccrual.toLike
  unfold toAccrualWithBalance
  simp only [hroot, (h.perm hperm.symm).computeAccrualBalance]
  exact ⟨_, rfl⟩

/-- **Every balance of the per-accrual view is the balance of its whole chain.** -/
theorem balance_of_groupIntoAccruals {rows : List CommissionAccrual}
    {accruals : List AccrualWithBalance} (h : groupIntoAccruals rows = .ok accruals)
    {accrual : AccrualWithBalance} (haccrual : accrual ∈ accruals) :
    computeAccrualBalance (chainIn rows accrual.accrualRootId) = .ok accrual.balance := by
  unfold groupIntoAccruals at h
  rcases hviews : (rows.groupedBy (·.accrualRootId)).mapM toAccrualWithBalance with thrown | views
  · rw [hviews] at h
    cases h
  · rw [hviews] at h
    obtain rfl := Except.ok.inj h
    obtain ⟨view, hview, hid⟩ := List.mem_filterMap.1 haccrual
    obtain rfl : view = some accrual := hid
    obtain ⟨⟨id, group⟩, hgroup, hmade⟩ := (Except.mapM_eq_ok.1 hviews).exists_left hview
    obtain ⟨rfl, hbalance⟩ := balance_of_toAccrualWithBalance hmade
    obtain ⟨rfl, -⟩ := List.mem_groupedBy_iff.1 hgroup
    exact hbalance

/-- Rows all of whose chains have a balance have a per-accrual view, with every chain in it. -/
theorem groupIntoAccruals_eq_ok_of_rooted {rows : List CommissionAccrual}
    (h : ∀ row ∈ rows, Rooted (chainIn rows row.accrualRootId)) :
    ∃ accruals, groupIntoAccruals rows = .ok accruals ∧
      ∀ row ∈ rows, ∃ accrual ∈ accruals, accrual.accrualRootId = row.accrualRootId := by
  have hgroup : ∀ group ∈ rows.groupedBy (·.accrualRootId),
      ∃ accrual, toAccrualWithBalance group = .ok (some accrual) := by
    rintro ⟨id, group⟩ hmem
    obtain ⟨rfl, hne⟩ := List.mem_groupedBy_iff.1 hmem
    obtain ⟨row, hfirst⟩ := List.exists_mem_of_ne_nil _ hne
    obtain ⟨hrow, hid⟩ := List.mem_filter.1 hfirst
    obtain rfl := of_decide_eq_true hid
    exact toAccrualWithBalance_eq_ok_of_rooted (h row hrow)
  obtain ⟨views, hviews⟩ := Except.exists_mapM_eq_ok fun group hmem ↦ by
    obtain ⟨accrual, hmade⟩ := hgroup group hmem
    exact ⟨some accrual, hmade⟩
  refine ⟨views.filterMap id, by rw [groupIntoAccruals, hviews]; rfl, fun row hrow ↦ ?_⟩
  have hmem : (row.accrualRootId, rows.filter (·.accrualRootId = row.accrualRootId)) ∈
      rows.groupedBy (·.accrualRootId) :=
    List.mem_groupedBy_iff.2 ⟨rfl, List.ne_nil_of_mem (List.mem_filter.2 ⟨hrow, by simp⟩)⟩
  obtain ⟨accrual, hmade⟩ := hgroup _ hmem
  obtain ⟨view, hview, hmade'⟩ := (Except.mapM_eq_ok.1 hviews).exists_right hmem
  obtain rfl := Except.ok.inj (hmade.symm.trans hmade')
  exact ⟨accrual, List.mem_filterMap.2 ⟨_, hview, rfl⟩, (balance_of_toAccrualWithBalance hmade).1⟩

/-! ### Agreement -/

/-- What the reversed chains owed is what their reversals say, in total. -/
def ReversalsSettle (rows : List CommissionAccrual) : Prop :=
  let reversed := (chainsOf rows).filter fun chain ↦ hasEntry .reversal chain = true
  (reversed.map fun chain ↦ (chain.map owedMinor).sum).sum =
    (reversed.map fun chain ↦ (chain.map reversedMinor).sum).sum

/-- A chain without a reversal has nothing reversed. -/
theorem sum_reversedMinor_eq_zero {es : List AccrualLedgerEntryLike}
    (h : ¬ hasEntry .reversal es = true) : (es.map reversedMinor).sum = 0 := by
  refine List.sum_eq_zero fun n hn ↦ ?_
  obtain ⟨entry, hentry, rfl⟩ := List.mem_map.1 hn
  refine if_neg fun htype ↦ h ?_
  exact List.any_eq_true.2 ⟨entry, hentry, decide_eq_true htype⟩

/-- What is outstanding over all chains is what is owed on the chains that are not reversed. -/
theorem sum_outstandingOf (chains : List (List AccrualLedgerEntryLike)) :
    (chains.map outstandingOf).sum =
      ((chains.filter fun chain ↦ ¬ hasEntry .reversal chain).map
        fun chain ↦ (chain.map owedMinor).sum).sum := by
  have hsplit := List.sum_map_ite (fun chain ↦ hasEntry .reversal chain = true) (fun _ ↦ (0 : Int))
    (fun chain ↦ (chain.map owedMinor).sum) chains
  have hzero : ((chains.filter fun chain ↦ hasEntry .reversal chain = true).map
      fun _ ↦ (0 : Int)).sum = 0 := by
    simp
  rw [hzero, zero_add] at hsplit
  exact hsplit

/-- **The two views agree on what was paid, and on what is outstanding exactly when the reversals
settle their chains.** -/
theorem reconcile_agrees_iff {rows : List CommissionAccrual}
    (hrooted : ∀ chain ∈ chainsOf rows, Rooted chain) (gross deductions net : Int) :
    ∃ balances, (chainsOf rows).mapM computeAccrualBalance = .ok balances ∧
      (reconcileRevenueEvent ⟨gross, deductions, net, rows.map CommissionAccrual.toLike⟩).paidMinor =
        (balances.map (·.paidAmountMinor)).sum ∧
      ((reconcileRevenueEvent
          ⟨gross, deductions, net, rows.map CommissionAccrual.toLike⟩).outstandingMinor =
        (balances.map (·.outstandingAmountMinor)).sum ↔ ReversalsSettle rows) := by
  have hbalances : (chainsOf rows).mapM computeAccrualBalance = .ok ((chainsOf rows).map balanceOf) := by
    refine Except.mapM_eq_ok.2 (List.forall₂_map_right_iff.2 (List.forall₂_same.2 ?_))
    exact fun chain hchain ↦ (hrooted chain hchain).computeAccrualBalance
  refine ⟨_, hbalances, ?_, ?_⟩
  · rw [reconcileRevenueEvent_paidMinor, paidOf, ← sum_chainsOf, List.map_map]
    rfl
  · -- both sides over the chains, split into reversed and not
    have howed := List.sum_map_filter_add_sum_map_filter_not
      (fun chain ↦ hasEntry .reversal chain = true)
      (fun chain : List AccrualLedgerEntryLike ↦ (chain.map owedMinor).sum) (chainsOf rows)
    have hreversed := List.sum_map_filter_add_sum_map_filter_not
      (fun chain ↦ hasEntry .reversal chain = true)
      (fun chain : List AccrualLedgerEntryLike ↦ (chain.map reversedMinor).sum) (chainsOf rows)
    have hnone : (((chainsOf rows).filter fun chain ↦ ¬ hasEntry .reversal chain = true).map
        fun chain ↦ (chain.map reversedMinor).sum).sum = 0 := by
      refine List.sum_eq_zero fun n hn ↦ ?_
      obtain ⟨chain, hchain, rfl⟩ := List.mem_map.1 hn
      exact sum_reversedMinor_eq_zero (of_decide_eq_true (List.mem_filter.1 hchain).2)
    have hout : (((chainsOf rows).map balanceOf).map (·.outstandingAmountMinor)).sum =
        ((chainsOf rows).map outstandingOf).sum := by
      rw [List.map_map]
      rfl
    rw [reconcileRevenueEvent_outstandingMinor, ← sum_chainsOf owedMinor,
      ← sum_chainsOf reversedMinor, hout, sum_outstandingOf, ← howed, ← hreversed, hnone]
    show _ ↔ _ = _
    constructor
    · intro h
      omega
    · intro h
      omega

/-! ### An accrual of 100 and its reversal -/

def reversedAccrualId : Uuid := "6f1c5a52-8a55-4c3e-9a53-0d4f4f0a1b01"

/-- The inputs of an accrual of 100 and of a reversal of the given amount. -/
def reversedInputs (amountMinor : Int) : List CreateCommissionAccrualInput :=
  let accrual : CreateCommissionAccrualInput :=
    { entryType := .accrual, direction := .credit, amountMinor := 100, currency := "EUR",
      dealRoomId := "6f1c5a52-8a55-4c3e-9a53-0d4f4f0a1b02",
      revenueEventId := "6f1c5a52-8a55-4c3e-9a53-0d4f4f0a1b03",
      scheduleId := "6f1c5a52-8a55-4c3e-9a53-0d4f4f0a1b04", scheduleVersion := 1,
      componentId := "6f1c5a52-8a55-4c3e-9a53-0d4f4f0a1b05",
      recipientOrgId := "6f1c5a52-8a55-4c3e-9a53-0d4f4f0a1b06", claimId := none,
      calculationVersion := economicsEngineVersion, inputVersions := ["schedule:1"],
      computedAt := 0, createdByUserId := none, createdByOrgId := none }
  [accrual, { accrual with
    accrualRootId := some reversedAccrualId, entryType := .reversal, direction := .debit,
    amountMinor, reason := some "voided" }]

/-- The two rows. -/
def reversedRows (amountMinor : Int) : List CommissionAccrual :=
  (reversedInputs amountMinor).zipWith (fun input id ↦ CommissionAccrualRepository.toRow input 0 id)
    [reversedAccrualId, "6f1c5a52-8a55-4c3e-9a53-0d4f4f0a1b07"]

theorem reconcile_agrees_of_full_reversal :
    ∃ balances, (chainsOf (reversedRows 100)).mapM computeAccrualBalance = .ok balances ∧
      (reconcileRevenueEvent ⟨100, 0, 100, (reversedRows 100).map CommissionAccrual.toLike⟩).paidMinor =
        (balances.map (·.paidAmountMinor)).sum ∧
      (reconcileRevenueEvent
          ⟨100, 0, 100, (reversedRows 100).map CommissionAccrual.toLike⟩).outstandingMinor =
        (balances.map (·.outstandingAmountMinor)).sum := by
  obtain ⟨balances, hbalances, hpaid, houtstanding⟩ :=
    @reconcile_agrees_iff (reversedRows 100) (by decide) 100 0 100
  exact ⟨balances, hbalances, hpaid, houtstanding.2 (by unfold ReversalsSettle; decide)⟩

/-- A reversal of 40 voids the chain, and leaves 60 outstanding in the period view. The repository
accepts both rows. -/
theorem reconcile_disagrees_on_partial_reversal :
    ∃ ids db, CommissionAccrualRepository.createMany 0 ids (reversedInputs 40) {} =
        .ok (reversedRows 40, db) ∧
      (∀ chain ∈ chainsOf (reversedRows 40), Rooted chain) ∧
      ∃ balances, (chainsOf (reversedRows 40)).mapM computeAccrualBalance = .ok balances ∧
        (reconcileRevenueEvent
          ⟨100, 0, 100, (reversedRows 40).map CommissionAccrual.toLike⟩).outstandingMinor = 60 ∧
        (balances.map (·.outstandingAmountMinor)).sum = 0 := by
  refine ⟨fun n ↦ if n = 0 then reversedAccrualId else "6f1c5a52-8a55-4c3e-9a53-0d4f4f0a1b07", _,
    rfl, by decide, _, rfl, by decide, by decide⟩

end TolPlatform
