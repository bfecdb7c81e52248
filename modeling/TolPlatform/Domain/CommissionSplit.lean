import Mathlib.Data.String.Basic
import TolPlatform.Domain.EconomicsEngine
import TolPlatform.Library.Apportionment

/-!
# What an accepted split is

`computeCommissionSplits` accepts exactly the splittable lists of components (`Splittable`), and what a
component of such a list gets is a function of the list (`amountOf`): its fixed amount, or its share of
the rest by largest remainder, as `Apportionment.share` has it. `commissionEntries_eq_ok_iff` connects
the two; the loops have one lemma each. The library's facts about shares are then facts about splits:
they are exact (`computeCommissionSplits_exact`).
-/

namespace TolPlatform

/-- A split of `net` over `components`. -/
structure IsSplitOf (net : Int) (components : List EconomicsComponentInput)
    (entries : List ComputedLedgerEntry) : Prop where
  components_ne_nil : components ≠ []
  components_nodup : (components.map (·.componentId)).Nodup
  /-- One entry for each component. -/
  one_each : (entries.map (·.componentId)).Perm (components.map (·.componentId))
  sum_eq : (entries.map (·.amountMinor)).sum = net
  nonneg : ∀ e ∈ entries, 0 ≤ e.amountMinor
  credit : ∀ e ∈ entries, e.direction = .credit

/-! ### Splittable lists, and what their components get -/

section

variable (components : List EconomicsComponentInput)

def fixedComponents : List EconomicsComponentInput :=
  components.filter (·.componentType = .fixedAmount)

def bpsComponents : List EconomicsComponentInput :=
  components.filter (·.componentType = .percentageBps)

/-- The basis points of a component, if they are an integer. -/
def EconomicsComponentInput.bpsInt (c : EconomicsComponentInput) : Option Int :=
  c.bps.bind Number.toInt?

/-- The basis points of a component that has some. -/
def EconomicsComponentInput.weight (c : EconomicsComponentInput) : Int := c.bpsInt.getD 0

def fixedTotal : Int := ((fixedComponents components).map (·.fixedAmountMinor.getD 0)).sum

structure Splittable (net : Int) : Prop where
  ne_nil : components ≠ []
  nodup : (components.map (·.componentId)).Nodup
  fixed : ∀ c ∈ fixedComponents components, ∃ amount : Int, c.fixedAmountMinor = some amount ∧ 0 ≤ amount
  fixedTotal_le : fixedTotal components ≤ net
  bps : ∀ c ∈ bpsComponents components, ∃ bps : Int, c.bpsInt = some bps ∧ 0 ≤ bps
  /-- Something takes up the rest, if there is any. -/
  total : bpsComponents components = [] ∧ fixedTotal components = net ∨
    bpsComponents components ≠ [] ∧ ((bpsComponents components).map (·.weight)).sum = 10000

/-- What a component gets. -/
def amountOf (net : Int) (c : EconomicsComponentInput) : Int :=
  match c.componentType with
  | .fixedAmount => c.fixedAmountMinor.getD 0
  | .percentageBps => Apportionment.share (net - fixedTotal components) 10000
      EconomicsComponentInput.weight EconomicsComponentInput.componentId (bpsComponents components) c

/-- The entries, fixed amounts first. -/
def splitEntries (net : Int) : List ComputedLedgerEntry :=
  (fixedComponents components ++ bpsComponents components).map fun c ↦
    c.entry (amountOf components net c)

end

/-! ### The loops -/

section

variable {components : List EconomicsComponentInput}

/-- The duplicate-id loop accepts exactly the lists of distinct, unseen ids. -/
theorem checkDistinctComponentIds_eq_ok_iff {seen : List Uuid} {u : Unit} :
    checkDistinctComponentIds seen components = .ok u ↔
      (components.map (·.componentId)).Nodup ∧ ∀ c ∈ components, c.componentId ∉ seen := by
  induction components generalizing seen with
  | nil => simp [checkDistinctComponentIds]
  | cons c rest ih =>
    rw [checkDistinctComponentIds, Except.bind_eq_ok']
    simp only [throwIf_eq_ok_iff, ih, List.mem_cons, List.map_cons, List.nodup_cons, List.mem_map,
      not_or, not_exists, not_and]
    constructor
    · rintro ⟨-, hc, hnodup, hrest⟩
      refine ⟨⟨fun d hd hdc ↦ (hrest d hd).1 hdc, hnodup⟩, ?_⟩
      rintro d (rfl | hd)
      · exact hc
      · exact (hrest d hd).2
    · rintro ⟨⟨hhead, hnodup⟩, hall⟩
      exact ⟨(), hall c (.inl rfl), hnodup, fun d hd ↦ ⟨hhead d hd, hall d (.inr hd)⟩⟩

/-- The fixed-amount loop accepts exactly non-negative amounts, and totals them. -/
theorem sumFixedAmounts_eq_ok_iff {fixedTotal total : Int} :
    sumFixedAmounts fixedTotal components = .ok total ↔
      (∀ c ∈ components, ∃ amount : Int, c.fixedAmountMinor = some amount ∧ 0 ≤ amount) ∧
        total = fixedTotal + (components.map (·.fixedAmountMinor.getD 0)).sum := by
  induction components generalizing fixedTotal with
  | nil => simp [sumFixedAmounts, eq_comm]
  | cons c rest ih =>
    rcases hc : c.fixedAmountMinor with - | amount
    · simp [sumFixedAmounts, hc]
    · simp only [sumFixedAmounts, hc, Except.bind_eq_ok', assertBigIntMinorUnits_eq_ok_iff, ih,
        List.forall_mem_cons, List.map_cons, List.sum_cons, Option.some.injEq, exists_eq_left',
        Option.getD_some, exists_const, add_assoc, and_assoc]

/-- The basis-point loop accepts exactly what is not below zero, and totals it. -/
theorem sumBps_eq_ok_iff {bpsTotal total : Number} :
    sumBps bpsTotal components = .ok total ↔
      (∀ c ∈ components, ∃ bps, c.bps = some bps ∧ ¬ bps < toNumber 0) ∧
        total = components.foldl (fun total c ↦ total.add (c.bps.getD (toNumber 0))) bpsTotal := by
  induction components generalizing bpsTotal with
  | nil => simp [sumBps, eq_comm]
  | cons c rest ih =>
    rcases hc : c.bps with - | bps
    · simp [sumBps, hc]
    · simp only [sumBps, hc, Except.bind_eq_ok', throwIf_eq_ok_iff, ih, List.forall_mem_cons,
        List.foldl_cons, Option.some.injEq, exists_eq_left', Option.getD_some, exists_const, and_assoc]

/-- A finite total is reached from below. -/
theorem le_of_foldl_add_eq_finite {start : Number} {z : Double} (hstart : ¬ start < toNumber 0)
    (hbps : ∀ c ∈ components, ∃ bps, c.bps = some bps ∧ ¬ bps < toNumber 0)
    (h : components.foldl (fun total c ↦ total.add (c.bps.getD (toNumber 0))) start = .finite z) :
    ∃ x, start = .finite x ∧ x.value ≤ z.value := by
  induction components generalizing start with
  | nil => exact ⟨z, h, le_rfl⟩
  | cons c rest ih =>
    obtain ⟨⟨bps, hc, hnonneg⟩, hrest⟩ := List.forall_mem_cons.1 hbps
    rw [List.foldl_cons, hc, Option.getD_some] at h
    obtain ⟨x, hx, hxz⟩ := ih (Number.not_add_lt_zero hstart hnonneg) hrest h
    obtain ⟨x', -, rfl, -, hx'x, -⟩ := Number.le_of_add_eq_finite hstart hnonneg hx
    exact ⟨x', rfl, hx'x.trans hxz⟩

theorem bps_eq_toNumber {c : EconomicsComponentInput} {b : Int} (h : c.bpsInt = some b) :
    c.bps = some (toNumber b) := by
  obtain ⟨x, hx, hint⟩ := Option.bind_eq_some_iff.1 h
  rw [hx, eq_toNumber_of_toInt? hint]

theorem weight_eq {c : EconomicsComponentInput} {b : Int} (h : c.bpsInt = some b) : c.weight = b := by
  rw [EconomicsComponentInput.weight, h, Option.getD_some]

theorem sum_weight_nonneg (h : ∀ c ∈ components, ∃ b : Int, c.bpsInt = some b ∧ 0 ≤ b) :
    0 ≤ (components.map (·.weight)).sum := by
  refine List.sum_nonneg fun w hw ↦ ?_
  obtain ⟨c, hc, rfl⟩ := List.mem_map.1 hw
  obtain ⟨b, hb, hnonneg⟩ := h c hc
  rwa [weight_eq hb]

/-- Whole basis points are totalled exactly. -/
theorem foldl_add_eq {a : Int} (ha : 0 ≤ a)
    (h : ∀ c ∈ components, ∃ b : Int, c.bpsInt = some b ∧ 0 ≤ b)
    (hle : a + (components.map (·.weight)).sum ≤ 10000) :
    components.foldl (fun total c ↦ total.add (c.bps.getD (toNumber 0))) (toNumber a) =
      toNumber (a + (components.map (·.weight)).sum) := by
  induction components generalizing a with
  | nil => simp
  | cons c rest ih =>
    obtain ⟨⟨b, hb, hnonneg⟩, hrest⟩ := List.forall_mem_cons.1 h
    have hsum := sum_weight_nonneg hrest
    rw [List.map_cons, List.sum_cons, weight_eq hb] at hle ⊢
    have hsmall {n : Int} (h0 : 0 ≤ n) (h : n ≤ 10000) : |n| ≤ 2 ^ 53 := by
      rw [abs_of_nonneg h0]
      omega
    rw [List.foldl_cons, bps_eq_toNumber hb, Option.getD_some, add_toNumber (hsmall ha (by omega))
      (hsmall hnonneg (by omega)) (hsmall (by omega) (by omega)), ih (by omega) hrest (by omega),
      add_assoc]

/-- One addition, in a loop that comes to the right total: what is added is small, and so it is added
exactly. -/
theorem add_of_foldl_add_eq {rest : List EconomicsComponentInput} {a b : Int} {bps : Number}
    (ha : 0 ≤ a) (hle : a ≤ 10000) (hint : bps.toInt? = some b) (hbps : ¬ bps < toNumber 0)
    (hrest : ∀ c ∈ rest, ∃ bps, c.bps = some bps ∧ ¬ bps < toNumber 0)
    (h : rest.foldl (fun total c ↦ total.add (c.bps.getD (toNumber 0))) ((toNumber a).add bps) =
      toNumber 10000) :
    0 ≤ b ∧ a + b ≤ 10000 ∧ (toNumber a).add bps = toNumber (a + b) := by
  have hsmall {n : Int} (h0 : 0 ≤ n) (h : n ≤ 20000) : |n| ≤ 2 ^ 53 := by
    rw [abs_of_nonneg h0]
    omega
  obtain ⟨d, rfl, hvalue⟩ := Number.toInt?_eq_some.1 hint
  have hnonneg : 0 ≤ b := by
    rw [toNumber_eq_ofInt (n := 0) (by decide), Number.finite_lt_finite, hvalue, not_lt] at hbps
    exact (Int.cast_le (R := ℚ)).1 hbps
  have hstart : ¬ toNumber a < toNumber 0 := not_toNumber_lt_of_le le_rfl ha
  -- everything on the way is at most the total
  obtain ⟨x, hx, hxle⟩ := le_of_foldl_add_eq_finite (Number.not_add_lt_zero hstart hbps) hrest
    (h.trans (toNumber_eq_ofInt (by decide)))
  obtain ⟨-, y, -, hy, -, hyx⟩ := Number.le_of_add_eq_finite hstart hbps hx
  obtain rfl := Number.finite.inj hy
  have hb : b ≤ 10000 := by
    have hle' := hyx.trans hxle
    rw [hvalue] at hle'
    exact (Int.cast_le (R := ℚ)).1 hle'
  have hadd : (toNumber a).add (.finite d) = toNumber (a + b) := by
    rw [eq_toNumber_of_toInt? hint, add_toNumber (hsmall ha (by omega)) (hsmall hnonneg (by omega))
      (hsmall (by omega) (by omega))]
  refine ⟨hnonneg, ?_, hadd⟩
  rw [hadd, toNumber_eq_ofInt (hsmall (by omega) (by omega))] at hx
  obtain rfl := Number.finite.inj hx
  exact (Int.cast_le (R := ℚ)).1 hxle

/-- Where the total is right, so is the exact one: no part is too large to be added up exactly. -/
theorem sum_weight_of_foldl_add_eq {a : Int} (ha : 0 ≤ a) (hle : a ≤ 10000)
    (hbps : ∀ c ∈ components, ∃ bps, c.bps = some bps ∧ ¬ bps < toNumber 0)
    (hint : ∀ c ∈ components, ∃ b : Int, c.bpsInt = some b)
    (h : components.foldl (fun total c ↦ total.add (c.bps.getD (toNumber 0))) (toNumber a) =
      toNumber 10000) :
    (∀ c ∈ components, ∃ b : Int, c.bpsInt = some b ∧ 0 ≤ b) ∧
      a + (components.map (·.weight)).sum = 10000 := by
  induction components generalizing a with
  | nil =>
    have hsmall : |a| ≤ 2 ^ 53 := by
      rw [abs_of_nonneg ha]
      omega
    have heq := congrArg Number.toInt? h
    rw [List.foldl_nil, toInt?_toNumber hsmall, toInt?_toNumber (by decide), Option.some.injEq] at heq
    exact ⟨by simp, by simpa using heq⟩
  | cons c rest ih =>
    obtain ⟨⟨bps, hc, hnotneg⟩, hrest⟩ := List.forall_mem_cons.1 hbps
    obtain ⟨⟨b, hb⟩, hintRest⟩ := List.forall_mem_cons.1 hint
    have hint' : bps.toInt? = some b := by rwa [EconomicsComponentInput.bpsInt, hc] at hb
    rw [List.foldl_cons, hc, Option.getD_some] at h
    obtain ⟨hnonneg, hab, hadd⟩ := add_of_foldl_add_eq ha hle hint' hnotneg hrest h
    rw [hadd] at h
    obtain ⟨hall, hsum⟩ := ih (by omega) hab hrest hintRest h
    refine ⟨List.forall_mem_cons.2 ⟨⟨b, hb, hnonneg⟩, hall⟩, ?_⟩
    rw [List.map_cons, List.sum_cons, weight_eq hb, ← add_assoc]
    exact hsum

/-- **The basis points that the loop and the check of its total accept.** -/
theorem sumBps_eq_iff : (sumBps (toNumber 0) components = .ok (toNumber 10000) ∧
      ∀ c ∈ components, ∃ b : Int, c.bpsInt = some b) ↔
    (∀ c ∈ components, ∃ b : Int, c.bpsInt = some b ∧ 0 ≤ b) ∧
      (components.map (·.weight)).sum = 10000 := by
  constructor
  · rintro ⟨hsum, hint⟩
    obtain ⟨hbps, htotal⟩ := sumBps_eq_ok_iff.1 hsum
    have h := sum_weight_of_foldl_add_eq le_rfl (by decide) hbps hint htotal.symm
    rwa [zero_add] at h
  · rintro ⟨hbps, htotal⟩
    refine ⟨sumBps_eq_ok_iff.2 ⟨fun c hc ↦ ?_, ?_⟩, fun c hc ↦ ?_⟩
    · obtain ⟨b, hb, hnonneg⟩ := hbps c hc
      exact ⟨_, bps_eq_toNumber hb, not_toNumber_lt_of_le le_rfl hnonneg⟩
    · have h := foldl_add_eq le_rfl hbps (by rw [zero_add, htotal])
      rw [h, zero_add, htotal]
    · obtain ⟨b, hb, -⟩ := hbps c hc
      exact ⟨b, hb⟩

end

/-! ### The shares -/

/-- The row of a component with whole basis points. -/
def EconomicsComponentInput.shareRow (remaining : Int) (c : EconomicsComponentInput) : BpsShare where
  component := c
  floorShare := Apportionment.floorShare remaining 10000 EconomicsComponentInput.weight c
  remainder := Apportionment.remainder remaining 10000 EconomicsComponentInput.weight c

theorem bpsShare_eq {remaining : Int} (hremaining : 0 ≤ remaining) {c : EconomicsComponentInput}
    {b : Int} (hb : c.bpsInt = some b) (hnonneg : 0 ≤ b) :
    bpsShare remaining c = .ok (c.shareRow remaining) := by
  have hconvert : bigIntOfNumber (c.bps.getD (toNumber 0)) = .ok b := by
    obtain ⟨x, hx, hint⟩ := Option.bind_eq_some_iff.1 hb
    rw [hx, bigIntOfNumber, orThrow_eq_ok_iff]
    exact hint
  have hmul : 0 ≤ remaining * b := Int.mul_nonneg hremaining hnonneg
  rw [bpsShare, hconvert]
  show Except.ok _ = Except.ok _
  rw [EconomicsComponentInput.shareRow, Apportionment.floorShare, Apportionment.remainder,
    weight_eq hb, Int.tdiv_eq_ediv_of_nonneg hmul, Int.tmod_eq_emod_of_nonneg hmul]

/-- The order of the ranking. -/
def BpsShare.rank (s : BpsShare) : Lex (Intᵒᵈ × Uuid) :=
  toLex (.toDual s.remainder, s.component.componentId)

theorem ranksBefore_iff (a b : BpsShare) : a.ranksBefore b ↔ a.rank ≤ b.rank := by
  rw [BpsShare.ranksBefore, BpsShare.rank, BpsShare.rank, Prod.Lex.toLex_le_toLex,
    OrderDual.toDual_lt_toDual, OrderDual.toDual_inj]

theorem insertionSort_ranksBefore (shares : List BpsShare) :
    shares.insertionSort BpsShare.ranksBefore = shares.sortOn BpsShare.rank := by
  unfold List.sortOn
  congr!
  exact ranksBefore_iff _ _

/-- Down the ranking everyone gets one unit, as long as there are some left. -/
theorem assignBonusUnits_fst {shares : List BpsShare} (hids : (shares.map (·.component.componentId)).Nodup)
    (leftoverPool : Int) (bonusUnits : Uuid → Int) (id : Uuid) :
    (assignBonusUnits leftoverPool bonusUnits shares).1 id = bonusUnits id +
      if id ∈ (shares.take leftoverPool.toNat).map (·.component.componentId) then 1 else 0 := by
  induction shares generalizing leftoverPool bonusUnits with
  | nil => simp [assignBonusUnits]
  | cons s rest ih =>
    obtain ⟨hs, hrest⟩ := List.nodup_cons.1 hids
    rw [assignBonusUnits]
    split_ifs with hpos hmem hmem
    · -- the pool is not empty: the head gets a unit, and the rest what is left
      obtain ⟨n, hn⟩ : ∃ n : ℕ, leftoverPool.toNat = n + 1 := ⟨leftoverPool.toNat - 1, by omega⟩
      have hn' : (leftoverPool - 1).toNat = n := by omega
      rw [hn, List.take_succ_cons, List.map_cons, List.mem_cons] at hmem
      rw [ih hrest, hn']
      rcases eq_or_ne id s.component.componentId with rfl | hne
      · have hnot : s.component.componentId ∉ (rest.take n).map (·.component.componentId) :=
          fun h ↦ hs (List.map_subset _ (List.take_subset n rest) h)
        rw [Function.update_self, if_neg hnot, add_zero]
      · rw [Function.update_of_ne hne, if_pos (hmem.resolve_left hne)]
    · obtain ⟨n, hn⟩ : ∃ n : ℕ, leftoverPool.toNat = n + 1 := ⟨leftoverPool.toNat - 1, by omega⟩
      have hn' : (leftoverPool - 1).toNat = n := by omega
      rw [hn, List.take_succ_cons, List.map_cons, List.mem_cons, not_or] at hmem
      rw [ih hrest, hn', if_neg hmem.2, Function.update_of_ne hmem.1]
    · rw [Int.toNat_of_nonpos (not_lt.1 hpos)] at hmem
      exact absurd hmem List.not_mem_nil
    · rw [add_zero]

theorem assignBonusUnits_snd (shares : List BpsShare) {leftoverPool : Int} (h : 0 ≤ leftoverPool)
    (bonusUnits : Uuid → Int) :
    (assignBonusUnits leftoverPool bonusUnits shares).2 = max 0 (leftoverPool - shares.length) := by
  induction shares generalizing leftoverPool bonusUnits with
  | nil => simp [assignBonusUnits, h]
  | cons s rest ih =>
    rw [assignBonusUnits]
    split_ifs with hpos
    · rw [ih (by omega), List.length_cons]
      push_cast
      omega
    · rw [List.length_cons]
      push_cast
      omega

section

variable {components : List EconomicsComponentInput} {remaining : Int}

theorem nodup_map_rank (hids : (components.map (·.componentId)).Nodup) :
    (components.map (Apportionment.rank remaining 10000 EconomicsComponentInput.weight
      EconomicsComponentInput.componentId)).Nodup :=
  List.nodup_map_toLex _ hids

/-- Who gets a unit on top: the components whose place in the ranking is among the first. -/
theorem mem_take_ranked_iff (hids : (components.map (·.componentId)).Nodup)
    {c : EconomicsComponentInput} (hc : c ∈ components) (k : ℕ) :
    c.componentId ∈ ((((components.map (·.shareRow remaining)).insertionSort
        BpsShare.ranksBefore).take k).map (·.component.componentId)) ↔
      Apportionment.place remaining 10000 EconomicsComponentInput.weight
        EconomicsComponentInput.componentId components c < k := by
  have hrank : ((components.map (·.shareRow remaining)).map BpsShare.rank).Nodup := by
    rw [List.map_map]
    exact nodup_map_rank hids
  have hmem : c.shareRow remaining ∈ components.map (·.shareRow remaining) := List.mem_map_of_mem hc
  have hplace := List.mem_take_sortOn_iff hrank hmem k
  rw [List.countP_map] at hplace
  rw [insertionSort_ranksBefore]
  refine Iff.trans ⟨fun h ↦ ?_, fun h ↦ List.mem_map.2 ⟨_, h, rfl⟩⟩ hplace
  obtain ⟨s, hs, hid⟩ := List.mem_map.1 h
  obtain ⟨d, hd, rfl⟩ := List.mem_map.1 (List.mem_sortOn.1 (List.mem_of_mem_take hs))
  rwa [List.inj_on_of_nodup_map hids hc hd hid.symm]

/-- What is left after the floors, and who gets it: neither internal guard of the branch fires. -/
theorem splitByLargestRemainder_eq (hremaining : 0 ≤ remaining)
    (hids : (components.map (·.componentId)).Nodup)
    (hbps : ∀ c ∈ components, ∃ b : Int, c.bpsInt = some b ∧ 0 ≤ b)
    (hsum : (components.map (·.weight)).sum = 10000) (scheduleId : Uuid) (scheduleVersion : Int) :
    splitByLargestRemainder remaining components scheduleId scheduleVersion =
      .ok (components.map fun c ↦ c.entry (Apportionment.share remaining 10000
        EconomicsComponentInput.weight EconomicsComponentInput.componentId components c)) := by
  let rows := components.map (·.shareRow remaining)
  have htotal := (sumBps_eq_iff.2 ⟨hbps, hsum⟩).1
  have hrows : components.mapM (bpsShare remaining) = .ok rows := by
    refine Except.mapM_eq_ok.2 (List.forall₂_map_right_iff.2 (List.forall₂_same.2 fun c hc ↦ ?_))
    obtain ⟨b, hb, hnonneg⟩ := hbps c hc
    exact bpsShare_eq hremaining hb hnonneg
  have hleftover : remaining - (rows.map BpsShare.floorShare).sum =
      Apportionment.leftover remaining 10000 EconomicsComponentInput.weight components := by
    rw [List.map_map]
    rfl
  have hnonneg : 0 ≤ remaining - (rows.map BpsShare.floorShare).sum :=
    hleftover ▸ Apportionment.leftover_nonneg (by decide) hsum
  have hle : remaining - (rows.map BpsShare.floorShare).sum ≤ components.length := by
    rw [hleftover]
    exact (Apportionment.leftover_le (by decide) hsum).trans (by exact_mod_cast List.countP_le_length)
  have hlength : (rows.insertionSort BpsShare.ranksBefore).length = components.length := by
    rw [List.length_insertionSort, List.length_map]
  have hrankedIds : ((rows.insertionSort BpsShare.ranksBefore).map (·.component.componentId)).Nodup := by
    refine (((List.perm_insertionSort _ rows).map _).nodup_iff).2 ?_
    rw [List.map_map]
    exact hids
  simp only [splitByLargestRemainder, Except.bind_eq_ok', throwIf_eq_ok_iff]
  refine ⟨_, htotal, (), not_not.2 rfl, rows, hrows, (), not_lt.2 hnonneg, (), ?_, ?_⟩
  · rw [assignBonusUnits_snd _ hnonneg, hlength]
    omega
  · show Except.ok _ = Except.ok _
    rw [List.map_map]
    refine congrArg Except.ok (List.map_congr_left fun c hc ↦ ?_)
    show c.entry (_ + _) = _
    rw [assignBonusUnits_fst hrankedIds, zero_add, Apportionment.share]
    refine congrArg c.entry (congrArg₂ _ rfl (if_congr ?_ rfl rfl))
    refine (mem_take_ranked_iff hids hc _).trans ?_
    rw [← hleftover]
    omega

/-- **The percentage branch is apportionment by largest remainder.** -/
theorem splitByLargestRemainder_eq_ok_iff (hremaining : 0 ≤ remaining)
    (hids : (components.map (·.componentId)).Nodup) {scheduleId : Uuid} {scheduleVersion : Int}
    {entries : List ComputedLedgerEntry} :
    splitByLargestRemainder remaining components scheduleId scheduleVersion = .ok entries ↔
      ((∀ c ∈ components, ∃ b : Int, c.bpsInt = some b ∧ 0 ≤ b) ∧
        (components.map (·.weight)).sum = 10000) ∧
      entries = components.map fun c ↦ c.entry (Apportionment.share remaining 10000
        EconomicsComponentInput.weight EconomicsComponentInput.componentId components c) := by
  constructor
  · intro h
    -- the loop has totalled to 10000 in doubles, so the weights do exactly
    have hvalid : (∀ c ∈ components, ∃ b : Int, c.bpsInt = some b ∧ 0 ≤ b) ∧
        (components.map (·.weight)).sum = 10000 := by
      simp only [splitByLargestRemainder, Except.bind_eq_ok', throwIf_eq_ok_iff] at h
      obtain ⟨bpsTotal, hsum, -, htotal, rows, hrows, -⟩ := h
      obtain rfl := not_not.1 htotal
      refine sumBps_eq_iff.1 ⟨hsum, fun c hc ↦ ?_⟩
      obtain ⟨row, -, hrow⟩ := (Except.mapM_eq_ok.1 hrows).exists_right hc
      obtain ⟨b, hconvert, -⟩ := Except.bind_eq_ok'.1 hrow
      obtain ⟨bps, hpresent, -⟩ := (sumBps_eq_ok_iff.1 hsum).1 c hc
      rw [hpresent, Option.getD_some, bigIntOfNumber, orThrow_eq_ok_iff] at hconvert
      exact ⟨b, by rw [EconomicsComponentInput.bpsInt, hpresent]; exact hconvert⟩
    rw [splitByLargestRemainder_eq hremaining hids hvalid.1 hvalid.2] at h
    exact ⟨hvalid, (Except.ok.inj h).symm⟩
  · rintro ⟨⟨hbps, hsum⟩, rfl⟩
    exact splitByLargestRemainder_eq hremaining hids hbps hsum scheduleId scheduleVersion

end

/-! ### The whole split -/

section

variable {components : List EconomicsComponentInput} {net : Int}

/-- Fixed and percentage components are all the components there are. -/
theorem filter_fixed_append_filter_bps_perm (components : List EconomicsComponentInput) :
    (fixedComponents components ++ bpsComponents components).Perm components := by
  have hbps : bpsComponents components =
      components.filter (fun c ↦ !decide (c.componentType = .fixedAmount)) := by
    refine List.filter_congr fun c _ ↦ ?_
    rcases c.componentType with - | - <;> rfl
  rw [fixedComponents, hbps]
  exact List.filter_append_perm _ _

theorem amountOf_fixed {c : EconomicsComponentInput} (hc : c ∈ fixedComponents components) :
    amountOf components net c = c.fixedAmountMinor.getD 0 := by
  rw [amountOf, of_decide_eq_true (List.mem_filter.1 hc).2]

theorem amountOf_bps {c : EconomicsComponentInput} (hc : c ∈ bpsComponents components) :
    amountOf components net c = Apportionment.share (net - fixedTotal components) 10000
      EconomicsComponentInput.weight EconomicsComponentInput.componentId (bpsComponents components)
      c := by
  rw [amountOf, of_decide_eq_true (List.mem_filter.1 hc).2]

theorem splitRemainder_eq_ok_iff (hnodup : ((bpsComponents components).map (·.componentId)).Nodup)
    (hle : fixedTotal components ≤ net) {scheduleId : Uuid} {scheduleVersion : Int}
    {entries : List ComputedLedgerEntry} :
    splitRemainder net (fixedTotal components) (bpsComponents components) scheduleId
        scheduleVersion = .ok entries ↔
      ((∀ c ∈ bpsComponents components, ∃ bps : Int, c.bpsInt = some bps ∧ 0 ≤ bps) ∧
        (bpsComponents components = [] ∧ fixedTotal components = net ∨
          bpsComponents components ≠ [] ∧
            ((bpsComponents components).map (·.weight)).sum = 10000)) ∧
      entries = (bpsComponents components).map fun c ↦ c.entry (amountOf components net c) := by
  have hamounts : ((bpsComponents components).map fun c ↦ c.entry (amountOf components net c)) =
      (bpsComponents components).map fun c ↦ c.entry (Apportionment.share
        (net - fixedTotal components) 10000 EconomicsComponentInput.weight
        EconomicsComponentInput.componentId (bpsComponents components) c) :=
    List.map_congr_left fun c hc ↦ congrArg c.entry (amountOf_bps hc)
  rw [splitRemainder, hamounts]
  by_cases hnil : bpsComponents components = []
  · rw [if_pos (List.length_eq_zero_iff.2 hnil), Except.bind_eq_ok', hnil]
    simp only [throwIf_eq_ok_iff, not_not, exists_const, List.map_nil]
    constructor
    · rintro ⟨hzero, h⟩
      exact ⟨⟨fun c hc ↦ absurd hc List.not_mem_nil, .inl ⟨trivial, by omega⟩⟩, (Except.ok.inj h).symm⟩
    · rintro ⟨⟨-, ⟨-, htotal⟩ | ⟨hne, -⟩⟩, rfl⟩
      · exact ⟨by omega, rfl⟩
      · exact absurd rfl hne
  · rw [if_neg (fun h ↦ hnil (List.length_eq_zero_iff.1 h)),
      splitByLargestRemainder_eq_ok_iff (by omega) hnodup]
    simp only [hnil, false_and, false_or, not_false_eq_true, true_and, ne_eq]

/-- **What the function computes**: on splittable components what each of them gets, and an error on all
others. -/
theorem commissionEntries_eq_ok_iff {input : ComputeCommissionSplitsInput}
    {entries : List ComputedLedgerEntry} : commissionEntries input = .ok entries ↔
      0 ≤ input.netDistributableMinor ∧ Splittable input.components input.netDistributableMinor ∧
        entries = splitEntries input.components input.netDistributableMinor := by
  have hfixed (components : List EconomicsComponentInput) (total : Int) :
      sumFixedAmounts 0 (components.filter (·.componentType = .fixedAmount)) = .ok total ↔
        (∀ c ∈ fixedComponents components, ∃ amount : Int, c.fixedAmountMinor = some amount ∧
          0 ≤ amount) ∧ total = fixedTotal components := by
    rw [sumFixedAmounts_eq_ok_iff, zero_add]
    rfl
  have hbpsNodup {components : List EconomicsComponentInput}
      (h : (components.map (·.componentId)).Nodup) :
      ((bpsComponents components).map (·.componentId)).Nodup := h.sublist (List.filter_sublist.map _)
  have hentries (components : List EconomicsComponentInput) (net : Int) :
      splitEntries components net = (fixedComponents components).map (fun c ↦
        c.entry (c.fixedAmountMinor.getD 0)) ++ (bpsComponents components).map fun c ↦
          c.entry (amountOf components net c) := by
    rw [splitEntries, List.map_append]
    exact congrArg₂ _ (List.map_congr_left fun c hc ↦ congrArg c.entry (amountOf_fixed hc)) rfl
  simp only [commissionEntries, Except.bind_eq_ok', throwIf_eq_ok_iff,
    assertBigIntMinorUnits_eq_ok_iff, checkDistinctComponentIds_eq_ok_iff, hfixed]
  constructor
  · rintro ⟨-, hnet, -, hne, -, ⟨hnodup, -⟩, _, ⟨hamounts, rfl⟩, -, hle, bpsEntries, hbps, h⟩
    obtain ⟨⟨hvalid, htotal⟩, rfl⟩ :=
      (splitRemainder_eq_ok_iff (hbpsNodup hnodup) (not_lt.1 hle)).1 hbps
    refine ⟨hnet, ⟨fun hnil ↦ hne (by rw [hnil]; rfl), hnodup, hamounts, not_lt.1 hle, hvalid, htotal⟩,
      ?_⟩
    rw [hentries]
    exact (Except.ok.inj h).symm
  · rintro ⟨hnet, h, rfl⟩
    refine ⟨(), hnet, (), fun hnil ↦ h.ne_nil (List.length_eq_zero_iff.1 hnil), (),
      ⟨h.nodup, fun _ _ ↦ List.not_mem_nil⟩, _, ⟨h.fixed, rfl⟩, (), not_lt.2 h.fixedTotal_le, _,
      (splitRemainder_eq_ok_iff (hbpsNodup h.nodup) h.fixedTotal_le).2 ⟨⟨h.bps, h.total⟩, rfl⟩, ?_⟩
    rw [hentries]
    rfl

/-! ### Exact -/

theorem Splittable.bps_nodup (h : Splittable components net) :
    ((bpsComponents components).map (·.componentId)).Nodup :=
  h.nodup.sublist (List.filter_sublist.map _)

/-- The percentage components share out what the fixed amounts leave. -/
theorem Splittable.sum_amountOf_bps (h : Splittable components net) :
    ((bpsComponents components).map (amountOf components net)).sum = net - fixedTotal components := by
  rw [List.map_congr_left fun c hc ↦ amountOf_bps hc]
  rcases h.total with ⟨hnil, htotal⟩ | ⟨-, htotal⟩
  · rw [hnil, htotal, sub_self]
    rfl
  · exact Apportionment.sum_share (by decide) htotal (nodup_map_rank h.bps_nodup)

theorem Splittable.sum_amountOf (h : Splittable components net) :
    ((fixedComponents components ++ bpsComponents components).map (amountOf components net)).sum =
      net := by
  have hfixed : ((fixedComponents components).map (amountOf components net)).sum =
      fixedTotal components := congrArg List.sum (List.map_congr_left fun c hc ↦ amountOf_fixed hc)
  rw [List.map_append, List.sum_append, hfixed, h.sum_amountOf_bps]
  omega

theorem Splittable.amountOf_nonneg (h : Splittable components net) {c : EconomicsComponentInput}
    (hc : c ∈ fixedComponents components ++ bpsComponents components) :
    0 ≤ amountOf components net c := by
  rcases List.mem_append.1 hc with hc | hc
  · obtain ⟨amount, hamount, hnonneg⟩ := h.fixed c hc
    rwa [amountOf_fixed hc, hamount]
  · obtain ⟨bps, hbps, hnonneg⟩ := h.bps c hc
    have hremaining : 0 ≤ net - fixedTotal components := by
      have := h.fixedTotal_le
      omega
    have hfloor : 0 ≤ (net - fixedTotal components) * c.weight / 10000 :=
      Int.ediv_nonneg (Int.mul_nonneg hremaining (by rwa [weight_eq hbps])) (by decide)
    rw [amountOf_bps hc, Apportionment.share]
    refine Int.add_nonneg hfloor ?_
    split <;> decide

/-- What splittable components get is a split. -/
theorem Splittable.isSplitOf (h : Splittable components net) :
    IsSplitOf net components (splitEntries components net) where
  components_ne_nil := h.ne_nil
  components_nodup := h.nodup
  one_each := by
    rw [splitEntries, List.map_map]
    exact (filter_fixed_append_filter_bps_perm components).map _
  sum_eq := by
    rw [splitEntries, List.map_map]
    exact h.sum_amountOf
  nonneg := by
    intro e he
    obtain ⟨c, hc, rfl⟩ := List.mem_map.1 he
    exact h.amountOf_nonneg hc
  credit := by
    intro e he
    obtain ⟨c, -, rfl⟩ := List.mem_map.1 he
    rfl

theorem computeCommissionSplits_eq_ok_iff {input : ComputeCommissionSplitsInput}
    {result : ComputeCommissionSplitsResult} : computeCommissionSplits input = .ok result ↔
      0 ≤ input.netDistributableMinor ∧ Splittable input.components input.netDistributableMinor ∧
        result = {
          entries := splitEntries input.components input.netDistributableMinor
          calculationVersion := economicsEngineVersion
          computedAt := input.now
          inputVersions := input.inputVersions.getD
            [s!"schedule:{input.scheduleId}:v{input.scheduleVersion}"] } := by
  simp only [computeCommissionSplits, Except.bind_eq_ok', throwIf_eq_ok_iff,
    commissionEntries_eq_ok_iff]
  constructor
  · rintro ⟨_, ⟨hnet, h, rfl⟩, -, -, hresult⟩
    exact ⟨hnet, h, (Except.ok.inj hresult).symm⟩
  · rintro ⟨hnet, h, rfl⟩
    exact ⟨_, ⟨hnet, h, rfl⟩, (), not_not.2 h.isSplitOf.sum_eq, rfl⟩

/-- **An accepted split is a split.** -/
theorem isSplitOf_of_computeCommissionSplits {input : ComputeCommissionSplitsInput}
    {result : ComputeCommissionSplitsResult} (h : computeCommissionSplits input = .ok result) :
    IsSplitOf input.netDistributableMinor input.components result.entries := by
  obtain ⟨-, hsplittable, rfl⟩ := computeCommissionSplits_eq_ok_iff.1 h
  exact hsplittable.isSplitOf

/-- **A split is exact.** Of a net amount that is not negative the function accepts exactly the splittable
lists, gives each component one entry, each fixed one its amount, and nothing is lost or left over; its
guard against a leak is never reached with one. -/
theorem computeCommissionSplits_exact (input : ComputeCommissionSplitsInput)
    (hnet : 0 ≤ input.netDistributableMinor) :
    ((∃ result, computeCommissionSplits input = .ok result) ↔
      Splittable input.components input.netDistributableMinor) ∧
    (∀ result, computeCommissionSplits input = .ok result →
      IsSplitOf input.netDistributableMinor input.components result.entries ∧
      ∀ c ∈ fixedComponents input.components, ∃ e ∈ result.entries,
        e.componentId = c.componentId ∧ c.fixedAmountMinor = some e.amountMinor) ∧
    ∀ entries, commissionEntries input = .ok entries →
      (entries.map ComputedLedgerEntry.amountMinor).sum = input.netDistributableMinor := by
  refine ⟨⟨fun ⟨result, h⟩ ↦ (computeCommissionSplits_eq_ok_iff.1 h).2.1, fun h ↦
    ⟨_, computeCommissionSplits_eq_ok_iff.2 ⟨hnet, h, rfl⟩⟩⟩, fun result hresult ↦
    ⟨isSplitOf_of_computeCommissionSplits hresult, fun c hc ↦ ?_⟩, fun entries hentries ↦ ?_⟩
  · obtain ⟨-, h, rfl⟩ := computeCommissionSplits_eq_ok_iff.1 hresult
    obtain ⟨amount, hamount, -⟩ := h.fixed c hc
    refine ⟨_, List.mem_map.2 ⟨c, List.mem_append.2 (.inl hc), rfl⟩, rfl, ?_⟩
    show c.fixedAmountMinor = some (amountOf input.components input.netDistributableMinor c)
    rw [amountOf_fixed hc, hamount, Option.getD_some]
  · obtain ⟨-, h, rfl⟩ := commissionEntries_eq_ok_iff.1 hentries
    exact h.isSplitOf.sum_eq

end

namespace Economics.Sample

def percentage (id : Uuid) (bps : Int) : EconomicsComponentInput where
  componentId := id
  recipientOrgId := "org"
  componentType := .percentageBps
  bps := some (toNumber bps)
  fixedAmountMinor := none
  claimId := none
  priority := 0

def fixedAmount (id : Uuid) (amount : Int) : EconomicsComponentInput where
  componentId := id
  recipientOrgId := "org"
  componentType := .fixedAmount
  bps := none
  fixedAmountMinor := some amount
  claimId := none
  priority := 0

/-- Of ten units three are fixed, and the other seven come to `3.5`, `1.75` and `1.75`. -/
def tenUnits : ComputeCommissionSplitsInput where
  netDistributableMinor := 10
  components := [percentage "a" 5000, percentage "b" 2500, percentage "c" 2500, fixedAmount "d" 3]
  scheduleId := "schedule"
  scheduleVersion := 1
  now := 0

theorem splittable_tenUnits : Splittable tenUnits.components tenUnits.netDistributableMinor where
  ne_nil := List.cons_ne_nil _ _
  nodup := by decide
  fixed := by
    rintro c hc
    obtain rfl : c = fixedAmount "d" 3 := List.mem_singleton.1 hc
    exact ⟨3, rfl, by decide⟩
  fixedTotal_le := by decide
  bps := by
    have hbps : bpsComponents tenUnits.components =
        [percentage "a" 5000, percentage "b" 2500, percentage "c" 2500] := rfl
    rw [hbps]
    simp only [List.forall_mem_cons, List.not_mem_nil, false_imp_iff, implies_true, and_true]
    exact ⟨⟨5000, toInt?_toNumber (by decide), by decide⟩,
      ⟨2500, toInt?_toNumber (by decide), by decide⟩, ⟨2500, toInt?_toNumber (by decide), by decide⟩⟩
  total := .inr ⟨List.cons_ne_nil _ _, by decide +kernel⟩

example : (splitEntries tenUnits.components 10).map (fun e ↦ (e.componentId, e.amountMinor)) =
    [("d", 3), ("a", 3), ("b", 2), ("c", 2)] := by decide +kernel

theorem computeCommissionSplits_exact_tenUnits : ∃ result, computeCommissionSplits tenUnits = .ok result :=
  (computeCommissionSplits_exact tenUnits (by decide)).1.2 splittable_tenUnits

end Economics.Sample

end TolPlatform
