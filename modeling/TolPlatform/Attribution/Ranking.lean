import Mathlib.Data.List.Lex
import TolPlatform.Library.Sorting
import TolPlatform.Library.Transaction
import TolPlatform.Shared.Errors
import TolPlatform.Shared.Text

/-!
# Ranking claims

`packages/attribution/src/ranking.ts`: competing claims by total, highest first, then by the instant at
which they were submitted, earliest first, then by id. `Date.parse` is a parameter, without a value where
it returns no number; a list in which it does so throws (`rankClaims_eq_ok_iff`). Of claims with distinct
ids there is one ranking, in whatever order and with whatever texts of the same instants they come
(`rankClaims_isTotal`).
-/

namespace TolPlatform.Attribution

/-- `total` is that of the score. -/
structure RankableClaim where
  claimId : String
  total : ℚ
  submittedAt : String
  deriving DecidableEq, Repr

structure ClaimRankEntry where
  claimId : String
  rank : ℕ
  total : ℚ
  tiedWith : List String
  deriving DecidableEq, Repr

def claimRankingInputError (message : String) : Thrown :=
  .inputError s!"invalid claim ranking input: {message}"

section

variable (dateParse : String → Option Int)

/-- `Date.parse(claim.submittedAt)`, of a claim that has been checked. -/
def RankableClaim.instant (claim : RankableClaim) : Int := (dateParse claim.submittedAt).getD 0

/-- The comparator. -/
def compareClaims (a b : RankableClaim) : Ordering :=
  if b.total ≠ a.total then compare b.total a.total
  else if a.instant dateParse ≠ b.instant dateParse then
    compare (a.instant dateParse) (b.instant dateParse)
  else if stringOrder a.claimId < stringOrder b.claimId then .lt
  else if stringOrder b.claimId < stringOrder a.claimId then .gt
  else .eq

def RankableClaim.tiedWith (sorted : List RankableClaim) (claim : RankableClaim) : List String :=
  (sorted.filter fun other ↦ other.claimId ≠ claim.claimId ∧ other.total = claim.total ∧
    other.instant dateParse = claim.instant dateParse).map RankableClaim.claimId

def checkSubmittedAt (claim : RankableClaim) : Except Thrown Unit :=
  throwIf (dateParse claim.submittedAt = none) (claimRankingInputError
    s!"claim \"{claim.claimId}\" has an unparseable submittedAt: \"{claim.submittedAt}\"")

def rankEntries (sorted : List RankableClaim) : List ClaimRankEntry :=
  sorted.mapIdx fun i claim ↦
    { claimId := claim.claimId, rank := i + 1, total := claim.total,
      tiedWith := claim.tiedWith dateParse sorted }

def rankClaims (claims : List RankableClaim) : Except Thrown (List ClaimRankEntry) := do
  claims.forM (checkSubmittedAt dateParse)
  return rankEntries dateParse (claims.sortBy (compareClaims dateParse))

/-! ### The order -/

/-- By total, descending, then by instant. -/
def merit (claim : RankableClaim) : Lex (ℚᵒᵈ × Int) :=
  toLex (.toDual claim.total, claim.instant dateParse)

theorem compareClaims_ne_gt_iff (a b : RankableClaim) : compareClaims dateParse a b ≠ .gt ↔
    toLex (merit dateParse a, stringOrder a.claimId) ≤
      toLex (merit dateParse b, stringOrder b.claimId) := by
  have hids : (if stringOrder a.claimId < stringOrder b.claimId then Ordering.lt
      else if stringOrder b.claimId < stringOrder a.claimId then .gt else .eq) ≠ .gt ↔
        stringOrder a.claimId ≤ stringOrder b.claimId := by
    split_ifs with hlt hgt
    · simpa using hlt.le
    · simpa using hgt
    · simpa using hgt
  rw [compareClaims, List.ite_compare_ne_gt_iff, List.ite_compare_ne_gt_iff, hids,
    Prod.Lex.toLex_le_toLex, merit, merit, Prod.Lex.toLex_lt_toLex, OrderDual.toDual_lt_toDual]
  simp only [Prod.mk.injEq, toLex_inj, OrderDual.toDual_inj]
  rw [eq_comm (a := b.total)]
  tauto

/-- `a` is ranked before `b`. -/
def Precedes (a b : RankableClaim) : Prop :=
  b.total < a.total ∨ a.total = b.total ∧
    (a.instant dateParse < b.instant dateParse ∨ a.instant dateParse = b.instant dateParse ∧
      stringOrder a.claimId < stringOrder b.claimId)

/-- `ranked` is the total ranking of `claims`. -/
structure IsClaimRanking (claims : List RankableClaim) (ranked : List ClaimRankEntry) : Prop where
  /-- Every claim once, in order. -/
  sorted : ∃ sorted : List RankableClaim, sorted.Perm claims ∧
    sorted.Pairwise (Precedes dateParse) ∧
    ranked.map (fun entry ↦ (entry.claimId, entry.total)) =
      sorted.map fun claim ↦ (claim.claimId, claim.total)
  ranks : ranked.map ClaimRankEntry.rank = (List.range claims.length).map (· + 1)
  /-- A claim is tied with the others of its total and instant. -/
  mem_tiedWith_iff : ∀ entry ∈ ranked, ∀ claim ∈ claims, claim.claimId = entry.claimId →
    ∀ id, id ∈ entry.tiedWith ↔ ∃ other ∈ claims, other.claimId = id ∧ id ≠ claim.claimId ∧
      other.total = claim.total ∧ other.instant dateParse = claim.instant dateParse

variable {dateParse} {claims sorted : List RankableClaim}

theorem mem_tiedWith_iff {claim : RankableClaim} {id : String} :
    id ∈ claim.tiedWith dateParse sorted ↔ ∃ other ∈ sorted, other.claimId = id ∧
      id ≠ claim.claimId ∧ other.total = claim.total ∧
        other.instant dateParse = claim.instant dateParse := by
  rw [RankableClaim.tiedWith, List.mem_map]
  constructor
  · rintro ⟨other, hother, rfl⟩
    obtain ⟨hmem, hcond⟩ := List.mem_filter.1 hother
    exact ⟨other, hmem, rfl, of_decide_eq_true hcond⟩
  · rintro ⟨other, hmem, rfl, hcond⟩
    exact ⟨other, List.mem_filter.2 ⟨hmem, decide_eq_true hcond⟩, rfl⟩

theorem mem_rankEntries {entry : ClaimRankEntry} (h : entry ∈ rankEntries dateParse sorted) :
    ∃ claim ∈ sorted, entry.claimId = claim.claimId ∧
      entry.tiedWith = claim.tiedWith dateParse sorted := by
  obtain ⟨i, hi, rfl⟩ := List.mem_mapIdx.1 h
  exact ⟨_, List.getElem_mem hi, rfl, rfl⟩

/-- The claims as they are ranked: the comparator goes by merit and id. -/
theorem sortBy_compareClaims : claims.sortBy (compareClaims dateParse) =
    claims.sortOn fun claim ↦ toLex (merit dateParse claim, stringOrder claim.claimId) :=
  List.sortBy_eq_sortOn (compareClaims_ne_gt_iff dateParse) claims

theorem nodup_stringOrder (hids : (claims.map RankableClaim.claimId).Nodup) :
    (claims.map fun claim ↦ stringOrder claim.claimId).Nodup := by
  have h := hids.map stringOrder_injective
  rwa [List.map_map] at h

theorem rankEntries_isClaimRanking (hids : (claims.map RankableClaim.claimId).Nodup) :
    IsClaimRanking dateParse claims
      (rankEntries dateParse (claims.sortBy (compareClaims dateParse))) where
  sorted := by
    refine ⟨claims.sortBy (compareClaims dateParse), List.sortBy_perm _ _, ?_, ?_⟩
    · rw [sortBy_compareClaims]
      refine (List.pairwise_sortOn_toLex _ (nodup_stringOrder hids)).imp fun {a b} hab ↦ ?_
      rw [merit, merit, Prod.Lex.toLex_lt_toLex, OrderDual.toDual_lt_toDual, toLex_inj,
        Prod.mk.injEq, OrderDual.toDual_inj] at hab
      unfold Precedes
      tauto
    · refine List.ext_getElem (by simp [rankEntries]) fun i _ _ ↦ ?_
      simp [rankEntries]
  ranks := by
    refine List.ext_getElem (by simp [rankEntries, (List.sortBy_perm _ _).length_eq]) fun i _ _ ↦ ?_
    simp [rankEntries]
  mem_tiedWith_iff := by
    intro entry hentry claim hclaim hid id
    obtain ⟨claim', hclaim', hid', htied⟩ := mem_rankEntries hentry
    have hperm := List.sortBy_perm (compareClaims dateParse) claims
    obtain rfl := List.inj_on_of_nodup_map hids hclaim (hperm.mem_iff.1 hclaim') (hid.trans hid')
    rw [htied, mem_tiedWith_iff]
    simp only [hperm.mem_iff]

/-- The order in which the claims come does not matter. -/
theorem sortBy_compareClaims_eq_of_perm {claims' : List RankableClaim}
    (hids : (claims.map RankableClaim.claimId).Nodup) (hperm : claims'.Perm claims) :
    claims'.sortBy (compareClaims dateParse) = claims.sortBy (compareClaims dateParse) := by
  rw [sortBy_compareClaims, sortBy_compareClaims]
  exact List.sortOn_eq_of_perm (List.nodup_map_toLex _ (nodup_stringOrder hids)) hperm

/-- Nor does the text of an instant. -/
theorem rankEntries_map_eq {f : RankableClaim → RankableClaim}
    (hf : ∀ claim ∈ sorted, (f claim).claimId = claim.claimId ∧ (f claim).total = claim.total ∧
      (f claim).instant dateParse = claim.instant dateParse) :
    rankEntries dateParse (sorted.map f) = rankEntries dateParse sorted := by
  refine List.ext_getElem (by simp [rankEntries]) fun i hi hi' ↦ ?_
  have hi'' : i < sorted.length := by simpa [rankEntries] using hi'
  obtain ⟨hid, htotal, hinstant⟩ := hf sorted[i] (List.getElem_mem hi'')
  have htied : (f sorted[i]).tiedWith dateParse (sorted.map f) =
      sorted[i].tiedWith dateParse sorted := by
    rw [RankableClaim.tiedWith, RankableClaim.tiedWith, List.filter_map, List.map_map, hid, htotal,
      hinstant]
    have hfilter := List.filter_congr (l := sorted) fun claim hclaim ↦ by
      obtain ⟨hid', htotal', hinstant'⟩ := hf claim hclaim
      show decide ((f claim).claimId ≠ sorted[i].claimId ∧ (f claim).total = sorted[i].total ∧
        (f claim).instant dateParse = sorted[i].instant dateParse) = _
      rw [hid', htotal', hinstant']
    refine (congrArg _ hfilter).trans (List.map_congr_left fun claim hclaim ↦ ?_)
    exact (hf claim (List.mem_filter.1 hclaim).1).1
  simp [rankEntries, hid, htotal, htied]

/-- **It throws where a text is no date**, and otherwise ranks. -/
theorem rankClaims_eq_ok_iff {ranked : List ClaimRankEntry} :
    rankClaims dateParse claims = .ok ranked ↔
      (∀ claim ∈ claims, dateParse claim.submittedAt ≠ none) ∧
        rankEntries dateParse (claims.sortBy (compareClaims dateParse)) = ranked := by
  rw [rankClaims, Except.bind_eq_ok']
  constructor
  · rintro ⟨_, hchecks, h⟩
    exact ⟨fun claim hclaim ↦ throwIf_eq_ok_iff.1 (Except.forM_eq_ok.1 hchecks claim hclaim),
      Except.ok.inj h⟩
  · rintro ⟨hdates, rfl⟩
    exact ⟨(), Except.forM_eq_ok.2 fun claim hclaim ↦ throwIf_eq_ok_iff.2 (hdates claim hclaim), rfl⟩

/-- **The ranking of claims is a total ranking**: by total, instant and id, with exactly the claims of
one total and instant tied, whatever order they come in and whatever texts their instants are written
as. -/
theorem rankClaims_isTotal (dateParse : String → Option Int) (claims : List RankableClaim)
    (hids : (claims.map RankableClaim.claimId).Nodup)
    (hdates : ∀ claim ∈ claims, dateParse claim.submittedAt ≠ none) :
    ∃ ranked, rankClaims dateParse claims = .ok ranked ∧ IsClaimRanking dateParse claims ranked ∧
      (∀ claims', claims'.Perm claims → rankClaims dateParse claims' = .ok ranked) ∧
      ∀ text : RankableClaim → String,
        (∀ claim ∈ claims, dateParse (text claim) = dateParse claim.submittedAt) →
        rankClaims dateParse (claims.map fun claim ↦ { claim with submittedAt := text claim }) =
          .ok ranked := by
  refine ⟨_, rankClaims_eq_ok_iff.2 ⟨hdates, rfl⟩, rankEntries_isClaimRanking hids,
    fun claims' hperm ↦ ?_, fun text htext ↦ ?_⟩
  · refine rankClaims_eq_ok_iff.2 ⟨fun claim hclaim ↦ hdates claim (hperm.mem_iff.1 hclaim), ?_⟩
    rw [sortBy_compareClaims_eq_of_perm hids hperm]
  · refine rankClaims_eq_ok_iff.2 ⟨List.forall_mem_map.2 fun claim hclaim ↦ ?_, ?_⟩
    · exact htext claim hclaim ▸ hdates claim hclaim
    · have hinstant : ∀ claim ∈ claims,
          ({ claim with submittedAt := text claim } : RankableClaim).instant dateParse =
            claim.instant dateParse := fun claim hclaim ↦ congrArg (·.getD 0) (htext claim hclaim)
      have hsort : (claims.map fun claim ↦ { claim with submittedAt := text claim }).sortBy
          (compareClaims dateParse) = (claims.sortBy (compareClaims dateParse)).map
            fun claim ↦ { claim with submittedAt := text claim } := by
        rw [sortBy_compareClaims, sortBy_compareClaims]
        refine List.sortOn_map _ fun claim hclaim ↦ ?_
        rw [merit, merit, hinstant claim hclaim]
      rw [hsort]
      refine rankEntries_map_eq fun claim hclaim ↦ ⟨rfl, rfl, hinstant claim ?_⟩
      exact (List.sortBy_perm _ _).mem_iff.1 hclaim

end

namespace Sample

/-- One instant, written in two ways, and a later one. -/
def dateParse (text : String) : Option Int :=
  if text = "2026-01-01T00:00:00.000Z" ∨ text = "2026-01-01T01:00:00.000+01:00" then
    some 1767225600000
  else if text = "2026-01-02T00:00:00.000Z" then some 1767312000000
  else none

def claims : List RankableClaim :=
  [⟨"late", 60, "2026-01-02T00:00:00.000Z"⟩, ⟨"zzz", 60, "2026-01-01T00:00:00.000Z"⟩,
    ⟨"low", 20, "2026-01-01T00:00:00.000Z"⟩, ⟨"aaa", 60, "2026-01-01T01:00:00.000+01:00"⟩]

theorem rankClaims_isTotal_claims : ∃ ranked, rankClaims dateParse claims = .ok ranked ∧
    IsClaimRanking dateParse claims ranked ∧
      ranked.map (fun entry ↦ (entry.claimId, entry.rank, entry.tiedWith)) =
        [("aaa", 1, ["zzz"]), ("zzz", 2, ["aaa"]), ("late", 3, []), ("low", 4, [])] := by
  obtain ⟨ranked, hranked, htotal, -, -⟩ :=
    rankClaims_isTotal dateParse claims (by decide) (by decide)
  refine ⟨ranked, hranked, htotal, ?_⟩
  have heval : (rankClaims dateParse claims).map
      (·.map fun entry ↦ (entry.claimId, entry.rank, entry.tiedWith)) =
        .ok [("aaa", 1, ["zzz"]), ("zzz", 2, ["aaa"]), ("late", 3, []), ("low", 4, [])] := by
    decide +kernel
  rw [hranked] at heval
  exact Except.ok.inj heval

end Sample

end TolPlatform.Attribution
