import TolPlatform.Matching.Listing

/-!
# The order of the stored picture

Whatever rows `create` has accepted (`Created`), the listing has for each capacity its latest row, and it
does not depend on the order in which the rows are stored (`listLatestByOpportunity_eq_of_perm`). The
order that the comparator is written for is eligible rows first, then by rank, then by capacity. Between
two rows without a rank it does not get as far as the capacity, so they stay as they were fetched, by
`evaluatedAt` and id (`ineligible_pairwise`): the listing is in order exactly when that happens to be the
order of their capacities (`listLatestByOpportunity_isOrderedPicture_iff`).
-/

namespace TolPlatform.Matching.MatchResultRepository

/-! ### What is stored -/

/-- The databases whose match results have all been created, whatever else has happened to them. -/
inductive Created (guards : JsonGuards) : Db → Prop
  | empty {db : Db} (h : db.matchResults = []) : Created guards db
  | create {db db' : Db} {id : Uuid} {input : CreateMatchResultInput} {row : MatchResult}
    (hdb : Created guards db) (h : create guards id input db = .ok (row, db')) : Created guards db'
  | other {db db' : Db} (hdb : Created guards db) (h : db'.matchResults = db.matchResults) :
    Created guards db'

/-- Distinct ids, and a rank exactly where a row is eligible. -/
structure Consistent (db : Db) : Prop where
  ids_nodup : (matchResults.keys db).Nodup
  rank_eq : ∀ row ∈ db.matchResults, row.rank.isSome = row.eligible

theorem Consistent.rank_eq_none {db : Db} (hdb : Consistent db) {row : MatchResult}
    (hrow : row ∈ db.matchResults) (h : row.eligible = false) : row.rank = none := by
  have hrank := hdb.rank_eq row hrow
  rwa [h, Option.isSome_eq_false_iff, Option.isNone_iff_eq_none] at hrank

/-- A row as it is created is ranked exactly if it is eligible. -/
theorem isSome_rank_of_create {guards : JsonGuards} {id : Uuid} {input : CreateMatchResultInput}
    {db db' : Db} {row : MatchResult} (h : create guards id input db = .ok (row, db')) :
    row.rank.isSome = row.eligible := by
  obtain ⟨rfl, -, -, hall, hnone⟩ := create_eq_ok h
  show input.rank.isSome = input.eligible
  rcases heligible : input.eligible with _ | _
  · rw [CreateMatchResultInput.rank_eq_none_of_hasRankingData (hnone heligible)]
    rfl
  · have hranking := hall heligible
    simp only [CreateMatchResultInput.hasAllRankingData, Bool.and_eq_true] at hranking
    exact hranking.1.1.2

theorem Created.consistent {guards : JsonGuards} {db : Db} (h : Created guards db) :
    Consistent db := by
  induction h with
  | @empty db h =>
    refine ⟨?_, ?_⟩
    · show (db.matchResults.map MatchResult.id).Nodup
      rw [h]
      exact List.nodup_nil
    · rw [h]
      exact nofun
  | @create db db' id input row _ h ih =>
    obtain ⟨rfl, hfresh, hdb', -⟩ := create_eq_ok h
    have hrows : db'.matchResults = db.matchResults ++ [input.toRow id] := by rw [hdb']; rfl
    refine ⟨?_, fun r hr ↦ ?_⟩
    · have hkeys : matchResults.keys db' = matchResults.keys db ++ [id] := by
        show db'.matchResults.map MatchResult.id = _
        rw [hrows, List.map_append]
        rfl
      rw [hkeys]
      exact ih.ids_nodup.append (List.nodup_singleton id) (List.disjoint_singleton.2 hfresh)
    · rcases List.mem_append.1 (hrows ▸ hr) with hr | hr
      · exact ih.rank_eq r hr
      · obtain rfl := List.mem_singleton.1 hr
        exact isSome_rank_of_create h
  | @other db db' _ h ih =>
    refine ⟨?_, ?_⟩
    · show (db'.matchResults.map MatchResult.id).Nodup
      rw [h]
      exact ih.ids_nodup
    · rw [h]
      exact ih.rank_eq

/-! ### The order of the rows -/

/-- Eligible rows first, then by rank, where a row without one comes last, then by capacity. -/
def pictureOrder (r : MatchResult) : Lex (ℕ × Lex (WithTop Int × Uuid)) :=
  toLex (if r.eligible then 0 else 1, toLex
    (match r.rank with
      | none => ⊤
      | some rank => rank, r.capacityId))

/-- For each capacity of the opportunity its latest row, in order. -/
structure IsOrderedPicture (db : Db) (opportunityId : Uuid) (rows : List MatchResult) : Prop where
  mem_iff : ∀ row, row ∈ rows ↔ IsLatest db opportunityId row
  one_row : (rows.map MatchResult.capacityId).Nodup
  capacities : ∀ c, c ∈ rows.map MatchResult.capacityId ↔
    ∃ r ∈ db.matchResults, r.opportunityId = opportunityId ∧ r.capacityId = c
  sorted : rows.Pairwise fun a b ↦ pictureOrder a < pictureOrder b

section

variable {db : Db} {opportunityId : Uuid} {a b : MatchResult}

theorem pictureOrder_lt_iff_of_ineligible (ha : a.eligible = false) (hb : b.eligible = false)
    (hra : a.rank = none) (hrb : b.rank = none) :
    pictureOrder a < pictureOrder b ↔ a.capacityId < b.capacityId := by
  rw [pictureOrder, pictureOrder, ha, hb, hra, hrb, Prod.Lex.toLex_lt_toLex]
  simp [Prod.Lex.toLex_lt_toLex]

/-- Where one of two rows is eligible, the comparator goes by the order it is written for. -/
theorem pictureOrder_lt_of_listedOrder_le (hdb : Consistent db) (ha : a ∈ db.matchResults)
    (hb : b ∈ db.matchResults) (hne : a.capacityId ≠ b.capacityId)
    (heligible : ¬ (a.eligible = false ∧ b.eligible = false))
    (h : listedOrder a ≤ listedOrder b) : pictureOrder a < pictureOrder b := by
  rw [pictureOrder, pictureOrder, Prod.Lex.toLex_lt_toLex]
  rcases hae : a.eligible with _ | _ <;> rcases hbe : b.eligible with _ | _
  · exact absurd ⟨hae, hbe⟩ heligible
  · rw [eligible_of_listedOrder_le h hbe] at hae
    cases hae
  · exact .inl zero_lt_one
  · obtain ⟨r, hr⟩ := Option.isSome_iff_exists.1 ((hdb.rank_eq a ha).trans hae)
    obtain ⟨s, hs⟩ := Option.isSome_iff_exists.1 ((hdb.rank_eq b hb).trans hbe)
    refine .inr ⟨rfl, ?_⟩
    rw [hr, hs, Prod.Lex.toLex_lt_toLex]
    rcases rank_of_listedOrder_le h (hae.trans hbe.symm) hr hs with hlt | ⟨rfl, hle⟩
    · exact .inl (WithTop.coe_lt_coe.2 hlt)
    · exact .inr ⟨rfl, hle.lt_of_ne hne⟩

theorem latestRows_nodup (hids : (matchResults.keys db).Nodup) :
    ((latestRows db opportunityId).map storedOrder).Nodup := by
  have hsublist : (latestRows db opportunityId).Sublist db.matchResults :=
    List.filter_sublist.trans List.filter_sublist
  have hnodup : ((latestRows db opportunityId).map MatchResult.id).Nodup :=
    hids.sublist (hsublist.map _)
  exact List.nodup_map_toLex _ hnodup

/-- **Ineligible rows are listed as they were fetched**: the comparator takes them for equal. -/
theorem ineligible_pairwise (opportunityId : Uuid) (hdb : Consistent db) :
    ((listLatestByOpportunity db opportunityId).filter (!·.eligible)).Pairwise fun a b ↦
      storedOrder a < storedOrder b := by
  let kept := ((latestRows db opportunityId).sortOn storedOrder).firstBy MatchResult.capacityId
  have hkept : kept.Pairwise fun a b ↦ storedOrder a < storedOrder b :=
    (List.pairwise_lt_sortOn storedOrder (latestRows_nodup hdb.ids_nodup)).sublist
      (List.firstBy_sublist _ _)
  have hmem {a : MatchResult} (ha : a ∈ kept) : a ∈ db.matchResults :=
    (mem_latestRows.1 (List.mem_sortOn.1 ((List.firstBy_sublist _ _).subset ha))).1
  -- every ineligible row has the same place in the comparator's order
  have hplace {a : MatchResult} (ha : a ∈ kept.filter (!·.eligible)) :
      listedOrder a = toLex (1, toLex (⊤, "")) := by
    obtain ⟨ha, heligible⟩ := List.mem_filter.1 ha
    have hel : a.eligible = false := by simpa using heligible
    rw [listedOrder, hel, hdb.rank_eq_none (hmem ha) hel]
    rfl
  have hsame : (kept.filter (!·.eligible)).Pairwise fun a b ↦ listedOrder a ≤ listedOrder b :=
    List.pairwise_of_forall_mem_list fun a ha b hb ↦ ((hplace ha).trans (hplace hb).symm).le
  have hlisted : (listLatestByOpportunity db opportunityId).filter (!·.eligible) =
      kept.filter (!·.eligible) := by
    rw [listLatestByOpportunity, List.sortBy_eq_sortOn compareListed_ne_gt_iff, List.filter_sortOn,
      List.sortOn_eq_self hsame]
  rw [hlisted]
  exact hkept.filter _

/-- **In which order the rows are stored does not matter.** -/
theorem listLatestByOpportunity_eq_of_perm {db' : Db} (hids : (matchResults.keys db).Nodup)
    (hperm : db'.matchResults.Perm db.matchResults) :
    listLatestByOpportunity db' opportunityId = listLatestByOpportunity db opportunityId := by
  have hids' : (matchResults.keys db').Nodup := (hperm.map MatchResult.id).nodup_iff.2 hids
  have hrows : (latestRows db' opportunityId).Perm (latestRows db opportunityId) := by
    refine (List.perm_ext_iff_of_nodup (latestRows_nodup hids').of_map
      (latestRows_nodup hids).of_map).2 fun row ↦ ?_
    rw [mem_latestRows, mem_latestRows]
    simp only [hperm.mem_iff]
  rw [listLatestByOpportunity, listLatestByOpportunity,
    List.sortOn_eq_of_perm (latestRows_nodup hids) hrows]

/-- The rows that are listed, in whatever order. -/
theorem mem_capacities_iff (hids : (matchResults.keys db).Nodup) (c : Uuid) :
    c ∈ (listLatestByOpportunity db opportunityId).map MatchResult.capacityId ↔
      ∃ r ∈ db.matchResults, r.opportunityId = opportunityId ∧ r.capacityId = c := by
  rw [List.mem_map]
  constructor
  · rintro ⟨row, hrow, rfl⟩
    obtain ⟨hmem, hopportunity, -⟩ := (mem_listLatestByOpportunity hids).1 hrow
    exact ⟨row, hmem, hopportunity, rfl⟩
  · rintro ⟨r, hr, hopportunity, rfl⟩
    exact exists_mem_listLatestByOpportunity hids hr hopportunity

/-- Of two ineligible rows that are the latest of their capacities, the one fetched first is of the
lesser capacity. -/
def IneligibleInOrder (db : Db) (opportunityId : Uuid) : Prop :=
  ∀ a b, IsLatest db opportunityId a → IsLatest db opportunityId b → a.eligible = false →
    b.eligible = false → storedOrder a < storedOrder b → a.capacityId < b.capacityId

theorem sorted_iff (hdb : Consistent db) :
    ((listLatestByOpportunity db opportunityId).Pairwise fun a b ↦ pictureOrder a < pictureOrder b) ↔
      IneligibleInOrder db opportunityId := by
  have hfetched := ineligible_pairwise opportunityId hdb
  have hmem {a : MatchResult} : a ∈ listLatestByOpportunity db opportunityId ↔
      IsLatest db opportunityId a := mem_listLatestByOpportunity hdb.ids_nodup
  constructor
  · intro hsorted a b ha hb hae hbe hab
    have hmem' {r : MatchResult} (hr : IsLatest db opportunityId r) (hel : r.eligible = false) :
        r ∈ (listLatestByOpportunity db opportunityId).filter (!·.eligible) :=
      List.mem_filter.2 ⟨hmem.2 hr, by rw [hel]; rfl⟩
    -- the ineligible rows are listed in both orders, so the one order is the other
    have hlt := List.rel_of_pairwise (fun _ _ ↦ lt_asymm) hfetched (hsorted.filter _)
      (hmem' ha hae) (hmem' hb hbe) hab
    exact (pictureOrder_lt_iff_of_ineligible hae hbe (hdb.rank_eq_none ha.1 hae)
      (hdb.rank_eq_none hb.1 hbe)).1 hlt
  · intro hinorder
    rw [List.pairwise_filter] at hfetched
    have hnodup : (listLatestByOpportunity db opportunityId).Pairwise fun a b ↦
        a.capacityId ≠ b.capacityId := List.pairwise_map.1 listLatestByOpportunity_nodup
    have hlisted := listLatestByOpportunity_pairwise db opportunityId
    refine (hfetched.and (hnodup.and hlisted)).imp_of_mem fun {a b} ha hb hab ↦ ?_
    obtain ⟨hstored, hne, hle⟩ := hab
    have ha' := hmem.1 ha
    have hb' := hmem.1 hb
    by_cases heligible : a.eligible = false ∧ b.eligible = false
    · obtain ⟨hae, hbe⟩ := heligible
      have hfetch := hstored (by simp [hae]) (by simp [hbe])
      exact (pictureOrder_lt_iff_of_ineligible hae hbe (hdb.rank_eq_none ha'.1 hae)
        (hdb.rank_eq_none hb'.1 hbe)).2 (hinorder a b ha' hb' hae hbe hfetch)
    · exact pictureOrder_lt_of_listedOrder_le hdb ha'.1 hb'.1 hne heligible hle

end

/-- **When the stored picture is in order**: exactly when the ineligible rows it has come in the order of
their capacities as they are fetched. Which rows it has, and that it does not depend on how they are
stored, is so in any case. -/
theorem listLatestByOpportunity_isOrderedPicture_iff {guards : JsonGuards} {db : Db}
    (hdb : Created guards db) (opportunityId : Uuid) :
    (IsOrderedPicture db opportunityId (listLatestByOpportunity db opportunityId) ∧
      ∀ db' : Db, db'.matchResults.Perm db.matchResults →
        listLatestByOpportunity db' opportunityId = listLatestByOpportunity db opportunityId) ↔
      IneligibleInOrder db opportunityId := by
  have hconsistent := hdb.consistent
  have hids := hconsistent.ids_nodup
  constructor
  · rintro ⟨hpicture, -⟩
    exact (sorted_iff hconsistent).1 hpicture.sorted
  · intro hinorder
    refine ⟨⟨fun _ ↦ mem_listLatestByOpportunity hids, listLatestByOpportunity_nodup,
      mem_capacities_iff hids, (sorted_iff hconsistent).2 hinorder⟩, fun _ hperm ↦ ?_⟩
    exact listLatestByOpportunity_eq_of_perm hids hperm

namespace Sample

def ineligible (capacityId : Uuid) : CreateMatchResultInput where
  opportunityId := "o1"
  capacityId := capacityId
  eligible := false
  eligibilityResults := []
  ruleVersion := MatchingConfig.ruleVersion
  inputVersions := []
  evaluatedAt := 0

/-- One evaluation finds two capacities ineligible. -/
def evaluated (first second : Uuid) : Db where
  matchResults := [(ineligible first).toRow "r1", (ineligible second).toRow "r2"]

theorem created_evaluated (first second : Uuid) :
    Created Sample.guards (evaluated first second) := by
  let before : Db := { matchResults := [(ineligible first).toRow "r1"] }
  have hfirst : create Sample.guards "r1" (ineligible first) {} =
      .ok ((ineligible first).toRow "r1", before) := rfl
  have hsecond : create Sample.guards "r2" (ineligible second) before =
      .ok ((ineligible second).toRow "r2", evaluated first second) := rfl
  exact .create (.create (.empty rfl) hfirst) hsecond

theorem isOrderedPicture_of_ascending : IsOrderedPicture (evaluated "c1" "c2") "o1"
    (listLatestByOpportunity (evaluated "c1" "c2") "o1") := by
  refine ((listLatestByOpportunity_isOrderedPicture_iff (created_evaluated "c1" "c2") "o1").2 ?_).1
  intro a b ha hb _ _ hab
  have hmem {r : MatchResult} (hr : r ∈ (evaluated "c1" "c2").matchResults) :
      r = (ineligible "c1").toRow "r1" ∨ r = (ineligible "c2").toRow "r2" := by
    simpa [evaluated] using hr
  rcases hmem ha.1 with rfl | rfl <;> rcases hmem hb.1 with rfl | rfl
  · exact absurd hab (lt_irrefl _)
  · decide
  · exact absurd hab (by decide)
  · exact absurd hab (lt_irrefl _)

/-- The second of two capacities in order is evaluated with the smaller id. -/
theorem not_isOrderedPicture_of_descending : Created Sample.guards (evaluated "c2" "c1") ∧
    (listLatestByOpportunity (evaluated "c2" "c1") "o1").map MatchResult.capacityId = ["c2", "c1"] ∧
      ¬ IsOrderedPicture (evaluated "c2" "c1") "o1"
        (listLatestByOpportunity (evaluated "c2" "c1") "o1") := by
  have hlisted : listLatestByOpportunity (evaluated "c2" "c1") "o1" =
      [(ineligible "c2").toRow "r1", (ineligible "c1").toRow "r2"] := by decide +kernel
  refine ⟨created_evaluated "c2" "c1", ?_, fun hpicture ↦ ?_⟩
  · rw [hlisted]
    rfl
  · have hsorted := hpicture.sorted
    rw [hlisted] at hsorted
    have hlt := (List.pairwise_cons.1 hsorted).1 _ List.mem_cons_self
    exact absurd hlt (by decide)

end Sample

end TolPlatform.Matching.MatchResultRepository
