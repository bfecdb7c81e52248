import Mathlib.Data.Rat.Floor
import TolPlatform.Domain.CommissionSplit
import TolPlatform.Library.Grouping

/-!
# Who gets how much of a split

The shares of an accepted split in terms of exact fractions: each percentage component has an exact share
of what the fixed amounts leave, and gets it rounded down or up; the units that rounding down leaves over
go to the largest fractional parts, ties to the smaller component id (`IsFair`). What a component gets
does not depend on the order of the components.
-/

namespace TolPlatform

/-- What the result gives to a component. -/
def ComputeCommissionSplitsResult.amountFor (result : ComputeCommissionSplitsResult) (id : Uuid) :
    Option Int :=
  (result.entries.find? (·.componentId = id)).map (·.amountMinor)

section

variable (components : List EconomicsComponentInput) (net : Int)

/-- What a percentage component's basis points come to, unrounded. -/
def exactShare (c : EconomicsComponentInput) : ℚ :=
  ((net - fixedTotal components) * c.weight : Int) / 10000

/-- The units that are left over when every exact share is rounded down. -/
def extraUnits : Int :=
  net - fixedTotal components - ((bpsComponents components).map fun c ↦ ⌊exactShare components net c⌋).sum

/-- Larger fractional parts first, then smaller ids. -/
def ComesBefore (d c : EconomicsComponentInput) : Prop :=
  Int.fract (exactShare components net c) < Int.fract (exactShare components net d) ∨
    Int.fract (exactShare components net c) = Int.fract (exactShare components net d) ∧
      d.componentId < c.componentId

instance : DecidableRel (ComesBefore components net) := fun _ _ ↦ inferInstanceAs (Decidable (_ ∨ _))

/-- Fair amounts for the percentage components. -/
structure IsFair (amount : EconomicsComponentInput → Int) : Prop where
  /-- An exact share is rounded down or up … -/
  quota : ∀ c ∈ bpsComponents components, amount c = ⌊exactShare components net c⌋ ∨
    amount c = ⌈exactShare components net c⌉
  /-- … and a whole one is not rounded. -/
  whole : ∀ c ∈ bpsComponents components, ∀ n : Int, exactShare components net c = n → amount c = n
  /-- The extra units go to the first components of the ranking. -/
  extra : ∀ c ∈ bpsComponents components, amount c = ⌊exactShare components net c⌋ +
    if ((bpsComponents components).countP (ComesBefore components net · c) : Int) <
      extraUnits components net then 1 else 0
  mono : ∀ c ∈ bpsComponents components, ∀ d ∈ bpsComponents components,
    c.weight < d.weight → amount c ≤ amount d

end

/-! ### Exact shares in whole numbers -/

section

variable {components : List EconomicsComponentInput} {net : Int} {c d : EconomicsComponentInput}

theorem floor_exactShare : ⌊exactShare components net c⌋ =
    Apportionment.floorShare (net - fixedTotal components) 10000 EconomicsComponentInput.weight c := by
  have h := Rat.floor_intCast_div_natCast ((net - fixedTotal components) * c.weight) 10000
  rw [Nat.cast_ofNat] at h
  exact h

theorem fract_exactShare : Int.fract (exactShare components net c) =
    (Apportionment.remainder (net - fixedTotal components) 10000 EconomicsComponentInput.weight c : ℚ) /
      10000 := by
  have h := Int.fract_div_intCast_eq_div_intCast_mod (k := ℚ)
    (m := (net - fixedTotal components) * c.weight) (n := 10000)
  rw [Nat.cast_ofNat] at h
  exact h

theorem comesBefore_iff : ComesBefore components net d c ↔
    Apportionment.rank (net - fixedTotal components) 10000 EconomicsComponentInput.weight
        EconomicsComponentInput.componentId d <
      Apportionment.rank (net - fixedTotal components) 10000 EconomicsComponentInput.weight
        EconomicsComponentInput.componentId c := by
  rw [ComesBefore, fract_exactShare, fract_exactShare, Apportionment.rank, Apportionment.rank,
    Prod.Lex.toLex_lt_toLex, OrderDual.toDual_lt_toDual, OrderDual.toDual_inj,
    div_lt_div_iff_of_pos_right (by norm_num), Int.cast_lt, div_left_inj' (by norm_num), Int.cast_inj,
    eq_comm]

theorem extraUnits_eq : extraUnits components net = Apportionment.leftover
    (net - fixedTotal components) 10000 EconomicsComponentInput.weight (bpsComponents components) := by
  rw [extraUnits, Apportionment.leftover]
  exact congrArg (_ - List.sum ·) (List.map_congr_left fun c _ ↦ floor_exactShare)

theorem countP_comesBefore : (bpsComponents components).countP (ComesBefore components net · c) =
    Apportionment.place (net - fixedTotal components) 10000 EconomicsComponentInput.weight
      EconomicsComponentInput.componentId (bpsComponents components) c := by
  refine List.countP_congr fun d _ ↦ ?_
  rw [decide_eq_true_iff, decide_eq_true_iff, comesBefore_iff]

/-! ### Fair -/

theorem Splittable.sum_weight (h : Splittable components net) (hc : c ∈ bpsComponents components) :
    ((bpsComponents components).map EconomicsComponentInput.weight).sum = 10000 := by
  rcases h.total with ⟨hnil, -⟩ | ⟨-, htotal⟩
  · exact absurd (hnil ▸ hc) List.not_mem_nil
  · exact htotal

theorem ceil_exactShare (h : 0 < Apportionment.remainder (net - fixedTotal components) 10000
    EconomicsComponentInput.weight c) :
    ⌈exactShare components net c⌉ = ⌊exactShare components net c⌋ + 1 := by
  have hfract : 0 < Int.fract (exactShare components net c) := by
    rw [fract_exactShare]
    exact div_pos (Int.cast_pos.2 h) (by norm_num)
  have hsub := Int.self_sub_floor (exactShare components net c)
  refine Int.ceil_eq_iff.2 ⟨?_, ?_⟩
  · push_cast
    linarith
  · push_cast
    exact (Int.lt_floor_add_one _).le

/-- A share is the floor, or, where a remainder is left, one more. -/
theorem Splittable.amountOf_cases (h : Splittable components net)
    (hc : c ∈ bpsComponents components) :
    amountOf components net c = ⌊exactShare components net c⌋ ∨
      0 < Apportionment.remainder (net - fixedTotal components) 10000 EconomicsComponentInput.weight c ∧
        amountOf components net c = ⌊exactShare components net c⌋ + 1 := by
  rw [amountOf_bps hc, floor_exactShare]
  exact Apportionment.share_eq_or (by decide) (h.sum_weight hc) c

/-- **What splittable components get is fair.** -/
theorem Splittable.isFair (h : Splittable components net) :
    IsFair components net (amountOf components net) := by
  refine ⟨fun c hc ↦ ?_, fun c hc n hn ↦ ?_, fun c hc ↦ ?_, fun c hc d hd hlt ↦ ?_⟩
  · rcases h.amountOf_cases hc with heq | ⟨hpos, heq⟩
    · exact .inl heq
    · exact .inr (heq.trans (ceil_exactShare hpos).symm)
  · rcases h.amountOf_cases hc with heq | ⟨hpos, -⟩
    · rw [heq, hn, Int.floor_intCast]
    · -- a whole share leaves no remainder
      have hceil := ceil_exactShare hpos
      rw [hn, Int.ceil_intCast, Int.floor_intCast] at hceil
      omega
  · rw [amountOf_bps hc, floor_exactShare, countP_comesBefore, extraUnits_eq]
    rfl
  · rw [amountOf_bps hc, amountOf_bps hd]
    have hnonneg : 0 ≤ net - fixedTotal components := by
      have := h.fixedTotal_le
      omega
    exact Apportionment.share_mono (by decide) hnonneg (h.sum_weight hc) hlt

/-- What is found under the id of a component. -/
theorem amountFor_eq (h : Splittable components net) {result : ComputeCommissionSplitsResult}
    (hresult : result.entries = splitEntries components net) (hc : c ∈ components) :
    result.amountFor c.componentId = some (amountOf components net c) := by
  have hall := filter_fixed_append_filter_bps_perm components
  have hids : ((splitEntries components net).map (·.componentId)).Nodup := by
    rw [splitEntries, List.map_map]
    exact (hall.map _).nodup_iff.2 h.nodup
  have hfind : (splitEntries components net).find? (·.componentId = c.componentId) =
      some (c.entry (amountOf components net c)) :=
    (List.find?_eq_some_iff_of_nodup hids).2 ⟨List.mem_map_of_mem (hall.mem_iff.2 hc), rfl⟩
  rw [ComputeCommissionSplitsResult.amountFor, hresult, hfind]
  rfl

/-- What is not the id of a component is not found. -/
theorem amountFor_eq_none {result : ComputeCommissionSplitsResult}
    (hresult : result.entries = splitEntries components net) {id : Uuid}
    (hid : id ∉ components.map (·.componentId)) : result.amountFor id = none := by
  rw [ComputeCommissionSplitsResult.amountFor, hresult, Option.map_eq_none_iff, List.find?_eq_none]
  intro e he heq
  obtain ⟨c, hc, rfl⟩ := List.mem_map.1 he
  exact hid (List.mem_map.2 ⟨c, (filter_fixed_append_filter_bps_perm components).mem_iff.1 hc,
    of_decide_eq_true heq⟩)

/-- **A split is fair**: an exact share is rounded down or up, the units left over go to the largest
fractional parts, and more basis points never bring less. -/
theorem computeCommissionSplits_fair {input : ComputeCommissionSplitsInput}
    {result : ComputeCommissionSplitsResult} (h : computeCommissionSplits input = .ok result) :
    ∃ amount : EconomicsComponentInput → Int,
      (∀ c ∈ input.components, result.amountFor c.componentId = some (amount c)) ∧
      IsFair input.components input.netDistributableMinor amount := by
  obtain ⟨-, hsplittable, rfl⟩ := computeCommissionSplits_eq_ok_iff.1 h
  exact ⟨_, fun c hc ↦ amountFor_eq hsplittable rfl hc, hsplittable.isFair⟩

/-! ### The order of the components -/

section

variable {components' : List EconomicsComponentInput}

theorem fixedTotal_perm (h : components'.Perm components) :
    fixedTotal components' = fixedTotal components :=
  ((h.filter _).map _).sum_eq

theorem Splittable.perm (h : Splittable components net) (hperm : components'.Perm components) :
    Splittable components' net where
  ne_nil := fun hnil ↦ h.ne_nil (hperm.symm.trans (hnil ▸ .nil)).eq_nil
  nodup := (hperm.map _).nodup_iff.2 h.nodup
  fixed := fun c hc ↦ h.fixed c ((hperm.filter _).mem_iff.1 hc)
  fixedTotal_le := (fixedTotal_perm hperm).trans_le h.fixedTotal_le
  bps := fun c hc ↦ h.bps c ((hperm.filter _).mem_iff.1 hc)
  total := by
    have hbps : (bpsComponents components').Perm (bpsComponents components) := hperm.filter _
    rcases h.total with ⟨hnil, htotal⟩ | ⟨hne, htotal⟩
    · exact .inl ⟨(hnil ▸ hbps).eq_nil, (fixedTotal_perm hperm).trans htotal⟩
    · exact .inr ⟨fun hnil ↦ hne (hnil ▸ hbps.symm).eq_nil, (hbps.map _).sum_eq.trans htotal⟩

theorem amountOf_perm (hperm : components'.Perm components) (c : EconomicsComponentInput) :
    amountOf components' net c = amountOf components net c := by
  rw [amountOf, amountOf, fixedTotal_perm hperm]
  split
  · rfl
  · exact Apportionment.share_eq_of_perm (hperm.filter _) c

end

/-- **A split does not depend on the order of the components**: the function fails on both orders, or
gives every component id the same amount. -/
theorem computeCommissionSplits_perm {input input' : ComputeCommissionSplitsInput}
    (hnet : input'.netDistributableMinor = input.netDistributableMinor)
    (hperm : input'.components.Perm input.components) :
    (∃ e e', computeCommissionSplits input = .error e ∧ computeCommissionSplits input' = .error e') ∨
    ∃ result result', computeCommissionSplits input = .ok result ∧
      computeCommissionSplits input' = .ok result' ∧
      ∀ id, result'.amountFor id = result.amountFor id := by
  -- being splittable does not depend on the order, so one call cannot fail alone
  rcases hresult : computeCommissionSplits input with e | result <;>
    rcases hresult' : computeCommissionSplits input' with e' | result'
  · exact .inl ⟨e, e', rfl, rfl⟩
  · obtain ⟨hnonneg, h, -⟩ := computeCommissionSplits_eq_ok_iff.1 hresult'
    rw [hnet] at hnonneg h
    have hok := computeCommissionSplits_eq_ok_iff.2 ⟨hnonneg, h.perm hperm.symm, rfl⟩
    cases hresult.symm.trans hok
  · obtain ⟨hnonneg, h, -⟩ := computeCommissionSplits_eq_ok_iff.1 hresult
    rw [← hnet] at hnonneg h
    have hok := computeCommissionSplits_eq_ok_iff.2 ⟨hnonneg, h.perm hperm, rfl⟩
    cases hresult'.symm.trans hok
  · obtain ⟨-, h, rfl⟩ := computeCommissionSplits_eq_ok_iff.1 hresult
    obtain ⟨-, h', rfl⟩ := computeCommissionSplits_eq_ok_iff.1 hresult'
    refine .inr ⟨_, _, rfl, rfl, fun id ↦ ?_⟩
    by_cases hid : id ∈ input.components.map (·.componentId)
    · obtain ⟨c, hc, rfl⟩ := List.mem_map.1 hid
      rw [amountFor_eq h' rfl (hperm.mem_iff.2 hc), amountFor_eq h rfl hc, hnet, amountOf_perm hperm]
    · have hid' : id ∉ input'.components.map (·.componentId) :=
        fun hmem ↦ hid ((hperm.map _).mem_iff.1 hmem)
      exact (amountFor_eq_none rfl hid').trans (amountFor_eq_none rfl hid).symm

end

namespace Economics.Sample

theorem computeCommissionSplits_fair_tenUnits :
    ∃ amount, IsFair tenUnits.components tenUnits.netDistributableMinor amount := by
  have hok := computeCommissionSplits_eq_ok_iff.2 ⟨by decide, splittable_tenUnits, rfl⟩
  obtain ⟨amount, -, hfair⟩ := computeCommissionSplits_fair hok
  exact ⟨amount, hfair⟩

/-- The same components, the other way round. -/
def tenUnitsReversed : ComputeCommissionSplitsInput :=
  { tenUnits with components := tenUnits.components.reverse }

theorem computeCommissionSplits_perm_tenUnits :
    ∃ result, computeCommissionSplits tenUnitsReversed = .ok result ∧
      result.amountFor "b" = some 2 := by
  have hok := computeCommissionSplits_eq_ok_iff.2 ⟨by decide, splittable_tenUnits, rfl⟩
  have hnet : tenUnitsReversed.netDistributableMinor = tenUnits.netDistributableMinor := rfl
  have hperm : tenUnitsReversed.components.Perm tenUnits.components := List.reverse_perm _
  rcases computeCommissionSplits_perm hnet hperm with
    ⟨e, -, hfails, -⟩ | ⟨result, result', hresult, hresult', hsame⟩
  · cases hfails.symm.trans hok
  · obtain rfl := Except.ok.inj (hresult.symm.trans hok)
    refine ⟨result', hresult', (hsame "b").trans ?_⟩
    decide +kernel

end Economics.Sample

end TolPlatform
