import TolPlatform.Library.Latest
import TolPlatform.Passports.Effects

/-!
# Status and readiness of a passport

A passport that is `READY` or `VERIFIED` should have a latest readiness result without blockers, and one
that is `INCOMPLETE` a latest result with some (`Coherent`).

Every recompute stores its result and sets the status that this calls for. But the job computes as of
the time at which it was picked up, before it took the lock; meanwhile a call may have stored a later
result. The status is then that of the job's result and the latest result is the call's, and the two
may differ: evidence expires in between. So coherence is kept exactly by the recomputes that have the
last word or agree with it (`LastWord`). The transition table is kept by all of them, and no passport
ever leaves `SUSPENDED` (`statusCoherent_iff`).
-/

namespace TolPlatform.Passports

/-! ### Coherence -/

/-- A latest readiness result of the passport. -/
def IsLatest (db : Db) (passportId : Uuid) (r : ReadinessResult) : Prop :=
  List.IsLatest ReadinessResult.computedAt
    (db.readinessResults.filter (·.passportId = passportId)) r

/-- The status of a passport agrees with a latest result. -/
structure Agrees (db : Db) (passport : Passport) : Prop where
  unblocked : passport.status = .ready ∨ passport.status = .verified →
    ∃ r, IsLatest db passport.id r ∧ r.blockers = []
  blocked : passport.status = .incomplete → ∃ r, IsLatest db passport.id r ∧ r.blockers ≠ []

def Coherent (db : Db) : Prop := ∀ passport ∈ db.passports, Agrees db passport

/-- Statuses move along the edges of the table, and never out of `SUSPENDED`. -/
structure LegalMoves (rows rows' : List Passport) : Prop where
  edges : Rows.StatusLegal Passport.id Passport.status passportTransitions rows rows'
  suspended : ∀ p ∈ rows, p.status = .suspended → ∀ p' ∈ rows', p'.id = p.id →
    p'.status = .suspended

/-- A passport whose status does not go by readiness: it is suspended, or a draft without facts. -/
def Exempt (db : Db) (passport : Passport) : Prop :=
  passport.status = .suspended ∨
    passport.status = .draft ∧ FactRepository.listByPassport db passport.id = []

/-- A recompute of the passport at `now` has the last word, or agrees with a result that has, or the
status does not go by it. -/
def LastWord (now : Instant) (db : Db) (passport : Passport) : Prop :=
  Exempt db passport ∨
    (∀ r ∈ db.readinessResults, r.passportId = passport.id → r.computedAt ≤ now) ∨
    ∃ r, IsLatest db passport.id r ∧
      (r.blockers = [] ↔ Complete db passport.id ∧ Unexpired db now passport.id)

section

variable {who : Recomputer} {now : Instant} {passport : Passport} {result : ReadinessResultShape}
  {db db' : Db}

/-! ### The statuses of a recompute -/

/-- What a recompute makes of the status. -/
theorem RecomputedTo.targetStatus_cases (h : RecomputedTo who now passport result db db') :
    (Exempt db passport ∧ targetStatus db passport result = passport.status) ∨
      ¬ Exempt db passport ∧ ((result.blockers ≠ [] ∧ targetStatus db passport result = .incomplete) ∨
        result.blockers = [] ∧ (targetStatus db passport result = .ready ∨
          targetStatus db passport result = .verified)) := by
  -- a passport without facts is blocked
  have hfacts : FactRepository.listByPassport db passport.id = [] → result.blockers ≠ [] :=
    fun hnone hblockers ↦
      not_complete_of_no_facts hnone ((blockers_eq_nil_iff h.readiness).1 hblockers).1
  unfold Exempt targetStatus targetStatusAfterRecompute isReadinessBlocked
  by_cases hsuspended : passport.status = .suspended
  · simp [hsuspended]
  · by_cases hblocked : result.blockers = []
    · have hsome : FactRepository.listByPassport db passport.id ≠ [] := fun hnone ↦
        hfacts hnone hblocked
      by_cases hverified : passport.status = .verified <;>
        simp [hsuspended, hblocked, hverified, hsome]
    · by_cases hdraft : passport.status = .draft <;>
        by_cases hnone : FactRepository.listByPassport db passport.id = [] <;>
        simp [hsuspended, hblocked, hdraft, hnone]

theorem PassportRepository.setStatus_self (passport : Passport) :
    setStatus passport.status passport = passport := rfl

/-- The passports after a recompute: this one with its new status, and all the others. -/
theorem RecomputedTo.mem_passports_iff (h : RecomputedTo who now passport result db db')
    (hdb : Integrity db) (hmem : passport ∈ db.passports) {p : Passport} : p ∈ db'.passports ↔
      p = PassportRepository.setStatus (targetStatus db passport result) passport ∨
        p ∈ db.passports ∧ p.id ≠ passport.id := by
  have hone (q : Passport) (hq : q ∈ db.passports) (hid : q.id = passport.id) : q = passport :=
    Rows.eq_of_key_eq hdb.passports hmem hq hid
  rw [h.passports_eq]
  split
  · rw [Rows.mem_rewrite_iff]
    constructor
    · rintro ⟨q, hq, rfl⟩
      split
      · next hid => exact Or.inl (by rw [hone q hq hid])
      · next hid => exact Or.inr ⟨hq, hid⟩
    · rintro (rfl | ⟨hp, hid⟩)
      · exact ⟨passport, hmem, if_pos rfl⟩
      · exact ⟨p, hp, if_neg hid⟩
  · next hstays =>
    rw [not_not.1 hstays, PassportRepository.setStatus_self]
    constructor
    · intro hp
      by_cases hid : p.id = passport.id
      · exact Or.inl (hone p hp hid)
      · exact Or.inr ⟨hp, hid⟩
    · rintro (rfl | ⟨hp, -⟩)
      · exact hmem
      · exact hp

/-! ### The results of a recompute -/

/-- The latest results of another passport stay. -/
theorem RecomputedTo.isLatest_iff_of_ne (h : RecomputedTo who now passport result db db')
    {id : Uuid} (hid : id ≠ passport.id) {r : ReadinessResult} :
    IsLatest db' id r ↔ IsLatest db id r := by
  obtain ⟨row, -, hrow, -, hresults⟩ := h.results_eq
  have hother : ¬ row.passportId = id := fun heq ↦ hid (heq.symm.trans hrow)
  rw [IsLatest, IsLatest, hresults, List.filter_append, List.filter_cons_of_neg (by simpa using hother),
    List.filter_nil, List.append_nil]

/-- The latest results of the passport, as to whether there are blockers. -/
theorem RecomputedTo.exists_isLatest_iff (h : RecomputedTo who now passport result db db') :
    (∃ r, IsLatest db' passport.id r ∧ (r.blockers = [] ↔ result.blockers = [])) ↔
      (∀ r ∈ db.readinessResults, r.passportId = passport.id → r.computedAt ≤ now) ∨
        ∃ r, IsLatest db passport.id r ∧ (r.blockers = [] ↔ result.blockers = []) := by
  obtain ⟨row, hshape, hrow, hcomputed, hresults⟩ := h.results_eq
  have hhistory : db'.readinessResults.filter (·.passportId = passport.id) =
      db.readinessResults.filter (·.passportId = passport.id) ++ [row] := by
    rw [hresults, List.filter_append, List.filter_cons_of_pos (by simpa using hrow), List.filter_nil]
  have hsays : row.blockers = [] ↔ result.blockers = [] := by
    rw [← hshape]
  unfold IsLatest
  rw [hhistory, List.exists_isLatest_append_iff
    (P := fun r : ReadinessResult ↦ r.blockers = [] ↔ result.blockers = []) hsays, hcomputed]
  refine or_congr_left ⟨fun hle r hr hpassport ↦ ?_, fun hle r hr ↦ ?_⟩
  · exact hle r (List.mem_filter.2 ⟨hr, decide_eq_true hpassport⟩)
  · obtain ⟨hr, hpassport⟩ := List.mem_filter.1 hr
    exact hle r hr (of_decide_eq_true hpassport)

/-! ### One recompute -/

/-- The passport itself agrees with a latest result exactly when the recompute has the last word. -/
theorem RecomputedTo.agrees_iff (h : RecomputedTo who now passport result db db') :
    Agrees db' (PassportRepository.setStatus (targetStatus db passport result) passport) ↔
      LastWord now db passport := by
  have hready : result.blockers = [] ↔ Complete db passport.id ∧ Unexpired db now passport.id :=
    blockers_eq_nil_iff h.readiness
  have hlatest := h.exists_isLatest_iff
  rw [LastWord, ← hready, ← hlatest]
  rcases h.targetStatus_cases with ⟨hexempt, htarget⟩ | ⟨hexempt, ⟨hblocked, htarget⟩ |
    ⟨hblocked, htarget⟩⟩
  · rw [htarget]
    refine iff_of_true ⟨fun hstatus ↦ ?_, fun hstatus ↦ ?_⟩ (Or.inl hexempt)
    · rcases hexempt with hs | ⟨hs, -⟩ <;> rcases hstatus with hstatus | hstatus <;>
        cases hs.symm.trans hstatus
    · rcases hexempt with hs | ⟨hs, -⟩ <;> cases hs.symm.trans hstatus
  · rw [htarget, or_iff_right hexempt]
    simp only [hblocked, iff_false]
    exact ⟨fun hagrees ↦ hagrees.blocked rfl, fun hlatest ↦ ⟨by simp, fun _ ↦ hlatest⟩⟩
  · rw [or_iff_right hexempt]
    simp only [hblocked, iff_true]
    refine ⟨fun hagrees ↦ hagrees.unblocked htarget, fun hlatest ↦ ⟨fun _ ↦ hlatest, fun hstatus ↦ ?_⟩⟩
    rcases htarget with htarget | htarget <;> cases htarget.symm.trans hstatus

/-- **One recompute** keeps all statuses in agreement exactly when it has the last word. -/
theorem RecomputedTo.coherent_iff (h : RecomputedTo who now passport result db db')
    (hdb : Integrity db) (hcoherent : Coherent db) (hmem : passport ∈ db.passports) :
    Coherent db' ↔ LastWord now db passport := by
  rw [← h.agrees_iff]
  constructor
  · intro hcoherent'
    exact hcoherent' _ ((h.mem_passports_iff hdb hmem).2 (Or.inl rfl))
  · intro hagrees p hp
    rcases (h.mem_passports_iff hdb hmem).1 hp with rfl | ⟨hp, hid⟩
    · exact hagrees
    · obtain ⟨hunblocked, hblocked⟩ := hcoherent p hp
      simp only [← h.isLatest_iff_of_ne hid] at hunblocked hblocked
      exact ⟨hunblocked, hblocked⟩

/-! ### The moves of a step -/

theorem LegalMoves.refl {rows : List Passport} (hids : (rows.map Passport.id).Nodup) :
    LegalMoves rows rows where
  edges := Rows.StatusLegal.refl hids
  suspended _ hp hs _ hp' hid := Rows.eq_of_key_eq hids hp hp' hid ▸ hs

/-- Passports that are not there yet may start in any status. -/
theorem LegalMoves.of_subset {rows rows₁ rows' : List Passport} (hsub : rows ⊆ rows₁)
    (h : LegalMoves rows₁ rows') : LegalMoves rows rows' where
  edges p hp := h.edges p (hsub hp)
  suspended p hp := h.suspended p (hsub hp)

/-- Setting the status of a passport. -/
theorem legalMoves_setStatus {status : PassportStatus} {rows : List Passport}
    (hids : (rows.map Passport.id).Nodup) (hmem : passport ∈ rows)
    (hedge : status = passport.status ∨ status ∈ passportTransitions passport.status)
    (hsuspended : passport.status = .suspended → status = .suspended) :
    LegalMoves rows
      (Rows.rewrite Passport.id passport.id (PassportRepository.setStatus status) rows) where
  edges := by
    rw [Rows.statusLegal_rewrite_iff hids (PassportRepository.setStatus_id status)]
    intro p hp hid
    obtain rfl := Rows.eq_of_key_eq hids hmem hp hid
    exact hedge
  suspended p hp hs p' hp' hid := by
    obtain ⟨q, hq, rfl⟩ := Rows.mem_rewrite_iff.1 hp'
    split at hid
    · next hqid =>
      -- the passport that was rewritten was suspended itself
      obtain rfl := Rows.eq_of_key_eq hids hmem hq hqid
      obtain rfl := Rows.eq_of_key_eq hids hp hmem hid
      rw [if_pos rfl]
      exact hsuspended hs
    · next hqid =>
      rw [if_neg hqid, Rows.eq_of_key_eq hids hp hq hid]
      exact hs

theorem RecomputedTo.legalMoves (h : RecomputedTo who now passport result db db')
    (hdb : Integrity db) (hmem : passport ∈ db.passports) : LegalMoves db.passports db'.passports := by
  rw [h.passports_eq]
  split
  · refine legalMoves_setStatus hdb.passports hmem (targetStatusAfterRecompute_edge _ _ _) ?_
    intro hs
    rcases h.targetStatus_cases with ⟨-, htarget⟩ | ⟨hexempt, -⟩
    · exact htarget.trans hs
    · exact absurd (Or.inl hs) hexempt
  · exact LegalMoves.refl hdb.passports

variable {env : Env} {d : Draws} {l : Local}

/-- **Every write is legal.** -/
theorem Wrote.legalMoves (hdb : Integrity db) (h : Wrote env d db l db') :
    LegalMoves db.passports db'.passports := by
  cases h with
  | created hnew _ hrecomputed =>
    have hmoves := hrecomputed.legalMoves ((hdb.inserted hnew).of_eq rfl rfl rfl)
      (List.mem_append_right _ (List.mem_singleton_self _))
    exact hmoves.of_subset (List.subset_append_left _ _)
  | upserted hfound hupsert hrecomputed =>
    obtain ⟨rows, rfl, hrows⟩ := FactRepository.upsertByFieldKey_eq_ok hupsert
    have hupserted := hdb.upserted (mem_ids_of_findById hfound) hrows
    have hmoves := hrecomputed.legalMoves (hupserted.of_eq rfl rfl rfl)
      (List.mem_of_find?_eq_some hfound)
    exact hmoves
  | added | left | skipped => exact LegalMoves.refl hdb.passports
  | verified hfound hready =>
    rw [← findById_id hfound]
    refine legalMoves_setStatus hdb.passports (List.mem_of_find?_eq_some hfound) ?_ ?_
    · rw [hready]
      decide
    · rw [hready]
      exact (nomatch ·)
  | demoted hfound hedge =>
    rw [← findById_id hfound]
    refine legalMoves_setStatus hdb.passports (List.mem_of_find?_eq_some hfound) (Or.inr hedge) ?_
    intro hs
    rw [hs] at hedge
    exact absurd hedge (by decide)
  | recomputed hfound _ hrecomputed =>
    have hmoves := hrecomputed.legalMoves hdb (List.mem_of_find?_eq_some hfound)
    exact hmoves

/-! ### The agreement of a step -/

/-- The recomputes of existing passports that a commit does have the last word. -/
def SpeaksLast (env : Env) (d : Draws) (db : Db) : Local → Prop
  | .upsertLocked call input => ∀ passport fact db₁,
    PassportRepository.findById db call.passport.id = some passport →
      FactRepository.upsertByFieldKey env.assertJsonSerializableValue
        (newFact d call.passport.id input) db = .ok (fact, db₁) → LastWord d.now db₁ passport
  | .recomputeLocked run passportId => ∀ passport,
    PassportRepository.findById db passportId = some passport → NewRun d run.now db passport →
      LastWord run.now db passport
  | _ => True

/-- A status that no result is needed for, or that is certified by the result of another one. -/
theorem coherent_setStatus (status : PassportStatus) (hdb : Integrity db) (hcoherent : Coherent db)
    (hmem : passport ∈ db.passports) (hpassports : db'.passports =
      Rows.rewrite Passport.id passport.id (PassportRepository.setStatus status) db.passports)
    (hresults : db'.readinessResults = db.readinessResults)
    (hagrees : Agrees db (PassportRepository.setStatus status passport)) : Coherent db' := by
  have hlatest (id : Uuid) : IsLatest db' id = IsLatest db id := by
    unfold IsLatest
    rw [hresults]
  intro p hp
  rw [hpassports] at hp
  obtain ⟨q, hq, rfl⟩ := Rows.mem_rewrite_iff.1 hp
  split
  · next hid =>
    obtain rfl := Rows.eq_of_key_eq hdb.passports hmem hq hid
    obtain ⟨hunblocked, hblocked⟩ := hagrees
    exact ⟨by rwa [hlatest], by rwa [hlatest]⟩
  · obtain ⟨hunblocked, hblocked⟩ := hcoherent q hq
    exact ⟨by rwa [hlatest], by rwa [hlatest]⟩

/-- **Every write keeps agreement exactly when it speaks last.** -/
theorem Wrote.coherent_iff (hdb : Integrity db) (hcoherent : Coherent db)
    (h : Wrote env d db l db') : Coherent db' ↔ SpeaksLast env d db l := by
  cases h with
  | created hnew hdraft hrecomputed =>
    refine iff_of_true ((hrecomputed.coherent_iff ((hdb.inserted hnew).of_eq rfl rfl rfl) ?_
      (List.mem_append_right _ (List.mem_singleton_self _))).2 (Or.inl (Or.inr ⟨hdraft, ?_⟩))) trivial
    · -- a draft needs no result
      intro p hp
      rcases List.mem_append.1 hp with hp | hp
      · obtain ⟨hunblocked, hblocked⟩ := hcoherent p hp
        exact ⟨hunblocked, hblocked⟩
      · obtain rfl := List.mem_singleton.1 hp
        exact ⟨by simp [hdraft], by simp [hdraft]⟩
    · rw [List.eq_nil_iff_forall_not_mem]
      intro fact hfact
      obtain ⟨hfact, hpassport⟩ := FactRepository.mem_listByPassport.1 hfact
      exact hnew (hpassport ▸ hdb.factOf fact hfact)
  | upserted hfound hupsert hrecomputed =>
    obtain ⟨rows, rfl, hrows⟩ := FactRepository.upsertByFieldKey_eq_ok hupsert
    have hintegrity := hdb.upserted (mem_ids_of_findById hfound) hrows
    rw [hrecomputed.coherent_iff (hintegrity.of_eq rfl rfl rfl)
      (fun p hp ↦ ⟨(hcoherent p hp).unblocked, (hcoherent p hp).blocked⟩)
      (List.mem_of_find?_eq_some hfound)]
    constructor
    · intro hlast passport fact db₁ hfound' hupsert'
      obtain rfl := Option.some.inj (hfound.symm.trans hfound')
      obtain ⟨-, rfl⟩ := Prod.mk.inj (Except.ok.inj (hupsert.symm.trans hupsert'))
      exact hlast
    · intro hspeaks
      have hlast := hspeaks _ _ _ hfound hupsert
      exact hlast
  | added => exact iff_of_true (fun p hp ↦ ⟨(hcoherent p hp).1, (hcoherent p hp).2⟩) trivial
  | verified hfound hready =>
    have hmem := List.mem_of_find?_eq_some hfound
    refine iff_of_true (coherent_setStatus .verified hdb hcoherent hmem ?_ rfl ?_) trivial
    · rw [findById_id hfound]
    · exact ⟨fun _ ↦ (hcoherent _ hmem).unblocked (Or.inl hready), (nomatch ·)⟩
  | demoted hfound =>
    refine iff_of_true (coherent_setStatus .stale hdb hcoherent
      (List.mem_of_find?_eq_some hfound) ?_ rfl ?_) trivial
    · rw [findById_id hfound]
    · exact ⟨by simp, (nomatch ·)⟩
  | left => exact iff_of_true hcoherent trivial
  | recomputed hfound hnew hrecomputed =>
    have hiff := hrecomputed.coherent_iff hdb hcoherent (List.mem_of_find?_eq_some hfound)
    constructor
    · intro hcoherent' passport hfound' _
      obtain rfl := Option.some.inj (hfound.symm.trans hfound')
      exact hiff.1 fun p hp ↦ ⟨(hcoherent' p hp).1, (hcoherent' p hp).2⟩
    · intro hlast p hp
      obtain ⟨hunblocked, hblocked⟩ := hiff.2 (hlast _ hfound hnew) p hp
      exact ⟨hunblocked, hblocked⟩
  | skipped hold => exact iff_of_true hcoherent fun p hp hnew ↦ absurd hnew (hold p hp)

end

/-! ### Runs -/

section

variable {env : Env} {Pid : Type} [DecidableEq Pid]

/-- **Status and readiness.** In every run, each status moves along the table and never out of
`SUSPENDED`; and every status agrees with a latest readiness result in every state if and only if every
recompute of an existing passport has the last word. -/
theorem statusCoherent_iff (c : Config Pid) (hdb : Integrity c.shared.db)
    (hcoherent : Coherent c.shared.db) (steps : List (Pid × Tick Draws)) :
    ((calls env).system Pid).Along
        (fun c _ _ c' ↦ LegalMoves c.shared.db.passports c'.shared.db.passports) c steps ∧
      (((calls env).system Pid).Along (fun _ _ _ c' ↦ Coherent c'.shared.db) c steps ↔
        ((calls env).system Pid).Along (fun c p t _ ↦ (calls env).Commits c p t → ∀ d, t = .act d →
          SpeaksLast env d c.shared.db (c.locals p)) c steps) := by
  constructor
  · refine PartySystem.Along.imp_of_inv (Q := fun _ _ _ _ ↦ True)
      (I := fun c : Config Pid ↦ Integrity c.shared.db) (fun {c p t c'} hc hfire _ ↦ ?_) hdb
      (PartySystem.Along.of_forall (fun _ _ _ _ ↦ trivial) c steps)
    refine ⟨hc.fire hfire, ?_⟩
    rcases CallSystem.commits_or_not hfire with ⟨-, hsame⟩ | ⟨-, d, body, hnext, hbody⟩
    · rw [hsame]
      exact LegalMoves.refl hc.passports
    · exact (wrote_of_commit hnext hbody).legalMoves hc
  · refine PartySystem.Along.congr_of_inv
      (I := fun c : Config Pid ↦ Integrity c.shared.db ∧ Coherent c.shared.db)
      (fun {c p t c'} hc hfire ↦ ?_) (fun hc hfire h ↦ ⟨hc.1.fire hfire, h⟩) ⟨hdb, hcoherent⟩ steps
    rcases CallSystem.commits_or_not hfire with ⟨hnot, hsame⟩ | ⟨hcommits, -⟩
    · exact iff_of_true (hsame ▸ hc.2) fun hcommits ↦ absurd hcommits hnot
    · rw [forall_prop_of_true hcommits]
      obtain ⟨d, body, ⟨l', db'⟩, rfl, hnext, hbody⟩ := hcommits
      rw [(CallSystem.commit_of_fire hfire hnext hbody).1,
        (wrote_of_commit hnext hbody).coherent_iff hc.1 hc.2]
      constructor
      · intro hspeaks d' hd
        obtain rfl := Tick.act.inj hd
        exact hspeaks
      · exact fun hspeaks ↦ hspeaks d rfl

end

/-! ### A job overtaken by a call -/

namespace Sample

def certificate : Evidence :=
  ⟨"e1", "p1", .file, "registration.pdf", none, none, 0, some 10, 0⟩

/-- The evidence for the legal entity expires at 10. -/
def expiring : Db :=
  { ready with
    facts := ready.facts.map fun fact ↦
      if fact.id = "f1" then { fact with evidenceId := some "e1" } else fact
    evidence := [certificate] }

theorem integrity_expiring : Integrity expiring where
  passports := by decide
  facts := by decide
  keys := by
    unfold DistinctKeys
    decide
  factOf := by decide
  resultOf := by decide

theorem coherent_expiring : Coherent expiring := by
  intro p hp
  obtain rfl := List.mem_singleton.1 hp
  refine ⟨fun _ ↦ ⟨_, ⟨List.mem_cons_self, ?_⟩, rfl⟩, (nomatch ·)⟩
  decide

/-- A job for the passport, and calls that add a fact to it. -/
def overtaken : Config ℕ where
  shared := ⟨expiring, .free⟩
  locals
    | 0 => .delivered (some "p1")
    | _ => .called reader context (.upsertFact "p1"
        ⟨.risk, "chargebackHistoryDetail", some "\"none\"", none, none⟩)

def moment (now : Instant) (letter : String) : Tick Draws :=
  .act ⟨fun k ↦ s!"{letter}{k}", now⟩

/-- The job is picked up at 9 and recomputes at 12; the call recomputes at 11. -/
def overtaking : List (ℕ × Tick Draws) :=
  (0, moment 9 "a") :: List.replicate 4 (1, moment 11 "b") ++ List.replicate 2 (0, moment 12 "c")

/-- The passport is `READY`, by evidence that had expired when its readiness was last computed. -/
theorem ready_by_belated_result :
    ∃ c', ((calls env).system ℕ).run overtaken overtaking = some c' ∧
      (∃ p ∈ c'.shared.db.passports, p.status = .ready) ∧ ¬ Coherent c'.shared.db := by
  have hrun : (((calls env).system ℕ).run overtaken overtaking).any (fun c' ↦
      c'.shared.db.passports = [⟨"p1", "acquirer", .ready, 0⟩] ∧
        ∀ r ∈ c'.shared.db.readinessResults, r.blockers = [] →
          ∃ r' ∈ c'.shared.db.readinessResults, r'.passportId = "p1" ∧
            r.computedAt < r'.computedAt) = true := by
    decide +kernel
  obtain ⟨c', hc', hpassports, hbelated⟩ := PartySystem.exists_run_of_test hrun
  have hmem : (⟨"p1", "acquirer", .ready, 0⟩ : Passport) ∈ c'.shared.db.passports := by
    rw [hpassports]
    exact List.mem_singleton_self _
  refine ⟨c', hc', ⟨_, hmem, rfl⟩, fun hcoherent ↦ ?_⟩
  obtain ⟨r, ⟨hr, hmax⟩, hblockers⟩ := (hcoherent _ hmem).unblocked (Or.inl rfl)
  obtain ⟨r', hr', hpassport, hlt⟩ := hbelated r (List.mem_filter.1 hr).1 hblockers
  exact hlt.not_ge (hmax r' (List.mem_filter.2 ⟨hr', decide_eq_true hpassport⟩))

/-- The same run, by `statusCoherent_iff`: some recompute of it does not have the last word. -/
theorem statusCoherent_iff_overtaken : Integrity expiring ∧ Coherent expiring ∧
    ((calls env).system ℕ).Along
      (fun c _ _ c' ↦ LegalMoves c.shared.db.passports c'.shared.db.passports) overtaken overtaking ∧
    (((calls env).system ℕ).Along (fun _ _ _ c' ↦ Coherent c'.shared.db) overtaken overtaking ↔
      ((calls env).system ℕ).Along (fun c p t _ ↦ (calls env).Commits c p t → ∀ d, t = .act d →
        SpeaksLast env d c.shared.db (c.locals p)) overtaken overtaking) :=
  ⟨integrity_expiring, coherent_expiring,
    statusCoherent_iff overtaken integrity_expiring coherent_expiring overtaking⟩

end Sample

end TolPlatform.Passports
