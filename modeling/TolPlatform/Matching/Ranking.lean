import Mathlib.Data.Prod.Lex
import Mathlib.Data.String.Basic
import TolPlatform.Library.Sorting
import TolPlatform.Matching.Scoring

/-!
# Ranking

`packages/matching/src/ranking.ts`: capacities that are already known to be eligible, ranked by their
total, highest first, ties broken by ascending id. `rankMatches` is `rankScored` of the scores, and what
is proved here holds of any scores: everything scored is ranked (`rankScored_capacityIds`), the ranks
are `1, 2, …, n` (`rankScored_ranks`), and a lower total never stands before a higher one
(`rankScored_totals`). Where the ids are distinct the ranking is a total one (`rankMatches_isTotal`).
-/

namespace TolPlatform

structure RankedMatch where
  capacityId : Uuid
  rank : ℕ
  breakdown : MatchRankingBreakdown
  tiedWith : List Uuid
  deriving DecidableEq, Repr

structure ScoredMatch where
  capacityId : Uuid
  breakdown : MatchRankingBreakdown
  deriving DecidableEq, Repr

namespace ScoredMatch

/-- By total, descending, then by id. -/
def order (s : ScoredMatch) : Lex (ℚᵒᵈ × Uuid) := toLex (.toDual s.breakdown.total, s.capacityId)

def tiedWith (sorted : List ScoredMatch) (entry : ScoredMatch) : List Uuid :=
  (sorted.filter fun other ↦ other.capacityId ≠ entry.capacityId ∧
    other.breakdown.total = entry.breakdown.total).map ScoredMatch.capacityId

end ScoredMatch

def rankScored (scored : List ScoredMatch) : List RankedMatch :=
  let sorted := scored.sortOn ScoredMatch.order
  sorted.mapIdx fun i entry ↦
    { capacityId := entry.capacityId, rank := i + 1, breakdown := entry.breakdown,
      tiedWith := entry.tiedWith sorted }

def rankMatches (opportunity : MatchOpportunityInput) (eligibleCapacities : List MatchCapacityInput)
    (context : MatchContext) : List RankedMatch :=
  rankScored (eligibleCapacities.map fun capacity ↦
    ⟨capacity.id, scoreMatch opportunity capacity context⟩)

section

variable (scored : List ScoredMatch)

@[simp] theorem length_rankScored : (rankScored scored).length = scored.length := by
  rw [rankScored, List.length_mapIdx, (List.sortOn_perm _ _).length_eq]

/-- The ranks are `1, 2, …, n`. -/
theorem rankScored_ranks :
    (rankScored scored).map RankedMatch.rank = (List.range scored.length).map (· + 1) := by
  refine List.ext_getElem (by simp) fun i _ _ ↦ ?_
  simp [rankScored]

/-- What a ranking keeps of the scores, in order. -/
theorem rankScored_map :
    (rankScored scored).map (fun r ↦ (⟨r.capacityId, r.breakdown⟩ : ScoredMatch)) =
      scored.sortOn ScoredMatch.order := by
  refine List.ext_getElem ?_ fun i _ _ ↦ ?_
  · rw [List.length_map, length_rankScored, (List.sortOn_perm _ _).length_eq]
  · simp [rankScored]

/-- Everything scored is ranked. -/
theorem rankScored_capacityIds : ((rankScored scored).map RankedMatch.capacityId).Perm
    (scored.map ScoredMatch.capacityId) := by
  have h := ((List.sortOn_perm ScoredMatch.order scored).map ScoredMatch.capacityId)
  rwa [← rankScored_map, List.map_map] at h

/-- A lower total never stands before a higher one. -/
theorem rankScored_totals :
    (rankScored scored).Pairwise fun a b ↦ b.breakdown.total ≤ a.breakdown.total := by
  have hsorted := List.pairwise_sortOn ScoredMatch.order scored
  rw [← rankScored_map, List.pairwise_map] at hsorted
  refine hsorted.imp fun {a b} hab ↦ ?_
  rcases Prod.Lex.le_iff.1 hab with hlt | ⟨heq, -⟩
  · exact (OrderDual.toDual_lt_toDual.1 hlt).le
  · exact (OrderDual.toDual.injective heq).ge

end

section

variable (opportunity : MatchOpportunityInput) (eligibleCapacities : List MatchCapacityInput)
  (context : MatchContext)

theorem rankMatches_capacityIds :
    ((rankMatches opportunity eligibleCapacities context).map RankedMatch.capacityId).Perm
      (eligibleCapacities.map MatchCapacityInput.id) := by
  refine (rankScored_capacityIds _).trans (.of_eq ?_)
  rw [List.map_map]
  rfl

theorem rankMatches_ranks :
    (rankMatches opportunity eligibleCapacities context).map RankedMatch.rank =
      (List.range (rankMatches opportunity eligibleCapacities context).length).map (· + 1) := by
  rw [rankMatches, length_rankScored]
  exact rankScored_ranks _

theorem rankMatches_totals : (rankMatches opportunity eligibleCapacities context).Pairwise
    fun a b ↦ b.breakdown.total ≤ a.breakdown.total :=
  rankScored_totals _

end

/-! ### Distinct ids -/

/-- A total ranking of what is scored. -/
structure IsTotalRanking (scored : List ScoredMatch) (ranked : List RankedMatch) : Prop where
  /-- Everything scored is ranked, once. -/
  entries : (ranked.map fun r ↦ (⟨r.capacityId, r.breakdown⟩ : ScoredMatch)).Perm scored
  /-- By total, descending, then by id, ascending. -/
  sorted : ranked.Pairwise fun a b ↦ b.breakdown.total < a.breakdown.total ∨
    a.breakdown.total = b.breakdown.total ∧ a.capacityId < b.capacityId
  ranks : ranked.map RankedMatch.rank = (List.range scored.length).map (· + 1)
  /-- An entry is tied with the others of its total. -/
  mem_tiedWith : ∀ a ∈ ranked, ∀ b ∈ ranked, b.capacityId ∈ a.tiedWith ↔
    b.capacityId ≠ a.capacityId ∧ b.breakdown.total = a.breakdown.total
  /-- … and with nothing else. -/
  of_mem_tiedWith : ∀ a ∈ ranked, ∀ id ∈ a.tiedWith, ∃ b ∈ ranked, b.capacityId = id

namespace IsTotalRanking

variable {scored : List ScoredMatch} {ranked : List RankedMatch} {a b c : RankedMatch}

theorem tiedWith_symm (h : IsTotalRanking scored ranked) (ha : a ∈ ranked) (hb : b ∈ ranked)
    (hab : b.capacityId ∈ a.tiedWith) : a.capacityId ∈ b.tiedWith := by
  obtain ⟨hne, htotal⟩ := (h.mem_tiedWith a ha b hb).1 hab
  exact (h.mem_tiedWith b hb a ha).2 ⟨hne.symm, htotal.symm⟩

theorem tiedWith_trans (h : IsTotalRanking scored ranked) (ha : a ∈ ranked) (hb : b ∈ ranked)
    (hc : c ∈ ranked) (hab : b.capacityId ∈ a.tiedWith) (hbc : c.capacityId ∈ b.tiedWith)
    (hne : c.capacityId ≠ a.capacityId) : c.capacityId ∈ a.tiedWith := by
  have htotal := ((h.mem_tiedWith a ha b hb).1 hab).2
  exact (h.mem_tiedWith a ha c hc).2 ⟨hne, ((h.mem_tiedWith b hb c hc).1 hbc).2.trans htotal⟩

end IsTotalRanking

section

variable {scored : List ScoredMatch}

/-- An entry of a ranking, with the one that was scored. -/
theorem exists_of_mem_rankScored {a : RankedMatch} (ha : a ∈ rankScored scored) :
    ∃ entry ∈ scored, a.capacityId = entry.capacityId ∧ a.breakdown = entry.breakdown ∧
      a.tiedWith = entry.tiedWith (scored.sortOn ScoredMatch.order) := by
  obtain ⟨i, hi, rfl⟩ := List.mem_mapIdx.1 ha
  exact ⟨_, List.mem_sortOn.1 (List.getElem_mem hi), rfl, rfl, rfl⟩

theorem exists_mem_rankScored {entry : ScoredMatch} (h : entry ∈ scored) :
    ∃ b ∈ rankScored scored, b.capacityId = entry.capacityId ∧ b.breakdown = entry.breakdown := by
  have hmem : entry ∈ scored.sortOn ScoredMatch.order := List.mem_sortOn.2 h
  rw [← rankScored_map] at hmem
  obtain ⟨b, hb, rfl⟩ := List.mem_map.1 hmem
  exact ⟨b, hb, rfl, rfl⟩

theorem mem_tiedWith_iff {sorted : List ScoredMatch} {entry : ScoredMatch} {id : Uuid} :
    id ∈ entry.tiedWith sorted ↔ ∃ other ∈ sorted, other.capacityId = id ∧
      id ≠ entry.capacityId ∧ other.breakdown.total = entry.breakdown.total := by
  rw [ScoredMatch.tiedWith, List.mem_map]
  constructor
  · rintro ⟨other, hother, rfl⟩
    obtain ⟨hmem, hcond⟩ := List.mem_filter.1 hother
    exact ⟨other, hmem, rfl, of_decide_eq_true hcond⟩
  · rintro ⟨other, hmem, rfl, hcond⟩
    exact ⟨other, List.mem_filter.2 ⟨hmem, decide_eq_true hcond⟩, rfl⟩

/-- Distinct ids leave the order no ties. -/
theorem nodup_map_order (hids : (scored.map ScoredMatch.capacityId).Nodup) :
    (scored.map ScoredMatch.order).Nodup :=
  List.nodup_map_toLex _ hids

theorem rankScored_isTotalRanking (hids : (scored.map ScoredMatch.capacityId).Nodup) :
    IsTotalRanking scored (rankScored scored) where
  entries := (rankScored_map scored).symm ▸ List.sortOn_perm _ _
  sorted := by
    have hsorted : (scored.sortOn ScoredMatch.order).Pairwise _ :=
      List.pairwise_sortOn_toLex _ hids
    rw [← rankScored_map, List.pairwise_map] at hsorted
    refine hsorted.imp fun {a b} hab ↦ ?_
    rcases hab with hlt | ⟨heq, hlt⟩
    · exact .inl (OrderDual.toDual_lt_toDual.1 hlt)
    · exact .inr ⟨OrderDual.toDual.injective heq, hlt⟩
  ranks := rankScored_ranks scored
  mem_tiedWith := by
    intro a ha b hb
    obtain ⟨entry, -, hid, hbreakdown, htied⟩ := exists_of_mem_rankScored ha
    obtain ⟨entry', hentry', hid', hbreakdown', -⟩ := exists_of_mem_rankScored hb
    rw [htied, mem_tiedWith_iff, hid, hid', hbreakdown, hbreakdown']
    -- an id names one entry, so "another entry of this id" is `b` itself
    constructor
    · rintro ⟨other, hother, hsame, hne, htotal⟩
      obtain rfl := List.inj_on_of_nodup_map hids (List.mem_sortOn.1 hother) hentry' hsame
      exact ⟨hne, htotal⟩
    · rintro ⟨hne, htotal⟩
      exact ⟨entry', List.mem_sortOn.2 hentry', rfl, hne, htotal⟩
  of_mem_tiedWith := by
    intro a ha id hid
    obtain ⟨entry, -, -, -, htied⟩ := exists_of_mem_rankScored ha
    rw [htied, mem_tiedWith_iff] at hid
    obtain ⟨other, hother, rfl, -⟩ := hid
    obtain ⟨b, hb, hsame, -⟩ := exists_mem_rankScored (List.mem_sortOn.1 hother)
    exact ⟨b, hb, hsame⟩

/-- The order in which the scores come does not matter. -/
theorem rankScored_eq_of_perm {scored' : List ScoredMatch}
    (hids : (scored.map ScoredMatch.capacityId).Nodup) (hperm : scored'.Perm scored) :
    rankScored scored' = rankScored scored := by
  rw [rankScored, rankScored, List.sortOn_eq_of_perm (nodup_map_order hids) hperm]

end

/-- **The ranking of matches of distinct ids is a total ranking**, the same for every order in which they
come; being tied is symmetric and transitive. -/
theorem rankMatches_isTotal (scored : List ScoredMatch)
    (hids : (scored.map ScoredMatch.capacityId).Nodup) :
    IsTotalRanking scored (rankScored scored) ∧
      (∀ scored' : List ScoredMatch, scored'.Perm scored →
        rankScored scored' = rankScored scored) ∧
      (∀ opportunity eligibleCapacities context,
        (eligibleCapacities.map fun capacity ↦ (⟨capacity.id,
          scoreMatch opportunity capacity context⟩ : ScoredMatch)).Perm scored →
        rankMatches opportunity eligibleCapacities context = rankScored scored) ∧
      (∀ a ∈ rankScored scored, ∀ b ∈ rankScored scored, b.capacityId ∈ a.tiedWith →
        a.capacityId ∈ b.tiedWith) ∧
      ∀ a ∈ rankScored scored, ∀ b ∈ rankScored scored, ∀ c ∈ rankScored scored,
        b.capacityId ∈ a.tiedWith → c.capacityId ∈ b.tiedWith → c.capacityId ≠ a.capacityId →
        c.capacityId ∈ a.tiedWith := by
  have htotal := rankScored_isTotalRanking hids
  exact ⟨htotal, fun _ hperm ↦ rankScored_eq_of_perm hids hperm,
    fun _ _ _ hperm ↦ rankScored_eq_of_perm hids hperm,
    fun _ ha _ hb hab ↦ htotal.tiedWith_symm ha hb hab,
    fun _ ha _ hb _ hc hab hbc hne ↦ htotal.tiedWith_trans ha hb hc hab hbc hne⟩

namespace Matching.Sample

def scoredAs (id : Uuid) (total : ℚ) : ScoredMatch :=
  ⟨id, { factors := [], total, algorithmVersion := MatchingConfig.algorithmVersion, inputVersions := [] }⟩

/-- Two matches tie above a third one. -/
def scores : List ScoredMatch := [scoredAs "c" 70, scoredAs "b" 80, scoredAs "a" 80]

theorem rankMatches_isTotal_scores :
    IsTotalRanking scores (rankScored scores) ∧
      (rankScored scores).map (fun r ↦ (r.capacityId, r.rank, r.tiedWith)) =
        [("a", 1, ["b"]), ("b", 2, ["a"]), ("c", 3, [])] :=
  ⟨(rankMatches_isTotal scores (by decide)).1, by decide +kernel⟩

end Matching.Sample

end TolPlatform
