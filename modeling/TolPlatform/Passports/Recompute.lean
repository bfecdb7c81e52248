import TolPlatform.Library.Evolution
import TolPlatform.Passports.Service

/-!
# What the readiness job keeps current

A recompute stores the readiness of the facts as they are and moves the passport to the status that it
calls for. The worker runs its recompute under an idempotency key made of the passport's status, its
facts' versions and their freshness classes; these can all be as they were before, and then nothing
happens. So the job has left the passport current exactly when the run could go on record, or there was
nothing to do (`readinessKept_iff`); and on a `STALE` passport, or one whose readiness has aged, there
always is.
-/

namespace TolPlatform.Passports

/-! ### What a recompute writes -/

/-- A recompute at `now`, by what it leaves behind. -/
structure RecomputedTo (who : Recomputer) (now : Instant) (passport : Passport)
    (result : ReadinessResultShape) (db db' : Db) : Prop where
  readiness : readinessOf who now db passport.id = .ok result
  passports_eq : db'.passports =
    if targetStatus db passport result ≠ passport.status then
      Rows.rewrite Passport.id passport.id
        (PassportRepository.setStatus (targetStatus db passport result)) db.passports
    else db.passports
  results_eq : ∃ row : ReadinessResult, row.toReadinessResultShape = result ∧
    row.passportId = passport.id ∧ row.computedAt = now ∧
      db'.readinessResults = db.readinessResults ++ [row]
  facts_eq : db'.facts = db.facts
  evidence_eq : db'.evidence = db.evidence
  keys_eq : db'.idempotencyKeys = db.idempotencyKeys

section

variable {env : Env} {who : Recomputer} {now : Instant} {passport : Passport}
  {result : ReadinessResultShape} {db db' : Db}

theorem storeReadiness_eq_ok {row r : ReadinessResult}
    (h : storeReadiness env row db = .ok (r, db')) :
    r = row ∧ db' = { db with readinessResults := db.readinessResults ++ [row] } := by
  obtain ⟨_, -, h⟩ := Tx.check_bind_eq_ok.1 h
  obtain ⟨_, -, h⟩ := Tx.check_bind_eq_ok.1 h
  obtain ⟨_, -, h⟩ := Tx.check_bind_eq_ok.1 h
  obtain ⟨-, rfl, rfl⟩ := Table.insert_eq_ok_iff.1 h
  exact ⟨rfl, rfl⟩

theorem moveTo_eq_ok {target : PassportStatus} {u : PUnit}
    (h : moveTo who passport target db = .ok (u, db')) : ∃ trails, db' =
      { db with
        passports :=
          if target ≠ passport.status then
            Rows.rewrite Passport.id passport.id (PassportRepository.setStatus target) db.passports
          else db.passports
        trails } := by
  unfold moveTo at h
  split at h
  · next hmoves =>
    obtain ⟨_, -, h⟩ := Tx.check_bind_eq_ok.1 h
    obtain ⟨_, db₁, hupdate, h⟩ := Tx.bind_eq_ok.1 h
    obtain ⟨-, -, -, rfl⟩ := Table.update_eq_ok_iff.1 hupdate
    obtain ⟨-, rfl⟩ := Prod.mk.inj (Except.ok.inj h)
    exact ⟨_, by rw [if_pos hmoves]; rfl⟩
  · next hstays =>
    obtain ⟨-, rfl⟩ := Prod.mk.inj (Tx.pure_eq_ok.1 h)
    exact ⟨_, by rw [if_neg hstays]⟩

/-- **The specification of a recompute.** -/
theorem recompute_eq_ok {id : Uuid} {r : ReadinessResult × PassportStatus}
    (h : recompute env who now id passport db = .ok (r, db')) :
    ∃ result, RecomputedTo who now passport result db db' := by
  obtain ⟨result, hresult, h⟩ := Tx.check_bind_eq_ok.1 (Tx.get_bind_eq_ok.1 h)
  obtain ⟨row, db₁, hstore, h⟩ := Tx.bind_eq_ok.1 h
  obtain ⟨_, db₂, hrecord, h⟩ := Tx.bind_eq_ok.1 h
  obtain ⟨_, db₃, hmove, h⟩ := Tx.bind_eq_ok.1 h
  obtain ⟨-, rfl⟩ := Prod.mk.inj (Tx.pure_eq_ok.1 h)
  obtain ⟨rfl, rfl⟩ := storeReadiness_eq_ok hstore
  obtain ⟨-, rfl⟩ := Prod.mk.inj (Except.ok.inj hrecord)
  obtain ⟨trails, rfl⟩ := moveTo_eq_ok hmove
  exact ⟨result, hresult, rfl, ⟨_, rfl, rfl, rfl, rfl⟩, rfl, rfl, rfl⟩

/-- The passport has the status that was called for. -/
theorem RecomputedTo.status (h : RecomputedTo who now passport result db db')
    (hfound : PassportRepository.findById db passport.id = some passport) :
    ∃ p', PassportRepository.findById db' passport.id = some p' ∧
      p'.status = targetStatus db passport result := by
  unfold PassportRepository.findById
  rw [h.passports_eq]
  split
  · have hrewritten := Rows.find_rewrite (k := passport.id)
      (PassportRepository.setStatus_id (targetStatus db passport result)) db.passports
    exact ⟨_, hrewritten.trans (congrArg (Option.map _) hfound), rfl⟩
  · next hstays => exact ⟨passport, hfound, (not_not.1 hstays).symm⟩

/-- Its latest readiness result is no older than the recompute. -/
theorem RecomputedTo.latest (h : RecomputedTo who now passport result db db') :
    ∃ r, ReadinessResultRepository.findLatestByPassport db' passport.id = some r ∧
      now ≤ r.computedAt := by
  obtain ⟨row, -, hpassport, hcomputed, hresults⟩ := h.results_eq
  have hrow : row ∈ db'.readinessResults := by
    rw [hresults]
    exact List.mem_append_right _ (List.mem_singleton_self _)
  have hlisted : row ∈ ReadinessResultRepository.listByPassport db' passport.id :=
    ReadinessResultRepository.mem_listByPassport.2 ⟨hrow, hpassport⟩
  rcases hlatest : ReadinessResultRepository.findLatestByPassport db' passport.id with - | r
  · rw [List.head?_eq_none_iff.1 hlatest] at hlisted
    cases hlisted
  · obtain ⟨-, -, hmax⟩ := ReadinessResultRepository.findLatestByPassport_eq_some hlatest
    exact ⟨r, rfl, hcomputed ▸ hmax row hrow hpassport⟩

end

/-! ### One run of the job -/

/-- The job has left the passport current: with the status that its facts call for at `now`, and not
aged. -/
structure LeftCurrent (now : Instant) (db db' : Db) (passport : Passport) : Prop where
  status : ∃ result p', readinessOf worker now db passport.id = .ok result ∧
    PassportRepository.findById db' passport.id = some p' ∧
      p'.status = targetStatus db passport result
  fresh : ∀ p', PassportRepository.findById db' passport.id = some p' →
    isStale p'.status (ReadinessResultRepository.findLatestByPassport db' passport.id) now = false

/-- The run can go on record: no earlier one is there under its key. -/
def NewRun (d : Draws) (now : Instant) (db : Db) (passport : Passport) : Prop :=
  Jobs.Recordable idempotencyKeys db (d.ids 1)
    (readinessInfo passport (readinessInputVersions db now passport.id))

/-- There is nothing to do. -/
structure UpToDate (now : Instant) (db : Db) (passport : Passport) : Prop where
  status : ∃ result, readinessOf worker now db passport.id = .ok result ∧
    targetStatus db passport result = passport.status
  fresh : isStale passport.status
    (ReadinessResultRepository.findLatestByPassport db passport.id) now = false

section

variable {env : Env} {d : Draws} {now : Instant} {passport : Passport} {db db' : Db}

/-- There is always something to do for a passport that is `STALE` or has aged. -/
theorem not_upToDate (h : passport.status = .stale ∨ isStale passport.status
    (ReadinessResultRepository.findLatestByPassport db passport.id) now = true) :
    ¬ UpToDate now db passport := by
  rintro ⟨⟨result, -, htarget⟩, hfresh⟩
  rcases h with hstale | haged
  · exact targetStatusAfterRecompute_ne_stale _ _ _ (htarget.trans hstale)
  · exact Bool.false_ne_true (hfresh.symm.trans haged)

/-- What a run that goes on record leaves behind is current. -/
theorem RecomputedTo.leftCurrent {result : ReadinessResultShape}
    (h : RecomputedTo worker now passport result db db')
    (hfound : PassportRepository.findById db passport.id = some passport) :
    LeftCurrent now db db' passport := by
  obtain ⟨p', hp', hstatus⟩ := h.status hfound
  obtain ⟨r, hr, hle⟩ := h.latest
  refine ⟨⟨result, p', h.readiness, hp', hstatus⟩, fun _ _ ↦ ?_⟩
  rw [hr]
  exact isPassportReadinessStale_of_le hle

/-- Where nothing has changed, the passport is current if it was. -/
theorem leftCurrent_self_iff (hfound : PassportRepository.findById db passport.id = some passport) :
    LeftCurrent now db db passport ↔ UpToDate now db passport := by
  constructor
  · rintro ⟨⟨result, p', hresult, hp', hstatus⟩, hfresh⟩
    obtain rfl := Option.some.inj (hfound.symm.trans hp')
    exact ⟨⟨result, hresult, hstatus.symm⟩, hfresh _ hfound⟩
  · rintro ⟨⟨result, hresult, hstatus⟩, hfresh⟩
    refine ⟨⟨result, passport, hresult, hfound, hstatus.symm⟩, fun p' hp' ↦ ?_⟩
    obtain rfl := Option.some.inj (hfound.symm.trans hp')
    exact hfresh

theorem findById_id {id : Uuid} (h : PassportRepository.findById db id = some passport) :
    passport.id = id :=
  of_decide_eq_true (List.find?_some h :)

/-- A run of the job that can go on record recomputes; another one changes nothing. -/
theorem recompute_cases {info : JobIdempotencyInfo} {r : Option Recomputed}
    (hinfo : info = readinessInfo passport (readinessInputVersions db now passport.id))
    (h : Jobs.inTransaction (Jobs.withJobIdempotency idempotencyKeys env.sha256 d.now (d.ids 1) info
      (recomputeHandler env d now passport)) db = .ok (r, db')) :
    (NewRun d now db passport ∧ ∃ result db₁ keys, RecomputedTo worker now passport result db db₁ ∧
      db' = { db₁ with idempotencyKeys := keys }) ∨ (¬ NewRun d now db passport ∧ db' = db) := by
  subst hinfo
  have hhandler {a : Recomputed} {db₁ : Db} (hrun : recomputeHandler env d now passport db = .ok (a, db₁)) :
      ∃ result, RecomputedTo worker now passport result db db₁ := by
    obtain ⟨_, db₂, hrecompute, hret⟩ := Tx.bind_eq_ok.1 hrun
    obtain ⟨-, rfl⟩ := Prod.mk.inj (Except.ok.inj hret)
    exact recompute_eq_ok hrecompute
  rcases Jobs.inTransaction_cases rfl (fun hrun ↦ (hhandler hrun).choose_spec.keys_eq) h with
    ⟨hnew, a, db₁, row, hrun, rfl⟩ | ⟨hold, rfl⟩
  · obtain ⟨result, hresult⟩ := hhandler hrun
    exact Or.inl ⟨hnew, result, db₁, _, hresult, rfl⟩
  · exact Or.inr ⟨hold, rfl⟩

/-- **One run of the job** leaves the passport current if and only if it could go on record or there was
nothing to do. -/
theorem recomputePassport_leftCurrent_iff {passportId : Uuid} {r : Option Recomputed}
    (h : recomputePassport env d passportId now db = .ok (r, db'))
    (hfound : PassportRepository.findById db passportId = some passport) :
    LeftCurrent now db db' passport ↔ NewRun d now db passport ∨ UpToDate now db passport := by
  obtain rfl := findById_id hfound
  replace h := Tx.get_bind_eq_ok.1 h
  simp only [hfound] at h
  rcases recompute_cases rfl h with ⟨hnew, result, db₁, keys, hresult, rfl⟩ | ⟨hold, rfl⟩
  · refine iff_of_true ?_ (Or.inl hnew)
    -- the record itself is no part of what is current
    obtain ⟨hstatus, hfresh⟩ := hresult.leftCurrent hfound
    exact ⟨hstatus, hfresh⟩
  · rw [leftCurrent_self_iff hfound]
    exact ⟨Or.inr, fun h ↦ h.resolve_left hold⟩

end

/-! ### Runs -/

section

variable {env : Env} {Pid : Type} [DecidableEq Pid]

/-- The property holds of a step in which the job recomputes a passport that is there. -/
def AtRecompute (env : Env) (P : Draws → JobRun → Passport → Prop) (c : Config Pid) (p : Pid)
    (t : Tick Draws) : Prop :=
  (calls env).Commits c p t → ∀ d run passportId passport, t = .act d →
    c.locals p = .recomputeLocked run passportId →
      PassportRepository.findById c.shared.db passportId = some passport → P d run passport

/-- **When the job keeps readiness and status current.** In every run, each recompute by the job leaves
its passport current if and only if each of them can go on record or finds nothing to do; and on a
passport that is `STALE` or has aged, there is always something to do. -/
theorem readinessKept_iff (c : Config Pid) (steps : List (Pid × Tick Draws)) :
    (((calls env).system Pid).Along
        (fun c p t c' ↦ AtRecompute env (fun _ run passport ↦
          LeftCurrent run.now c.shared.db c'.shared.db passport) c p t) c steps ↔
      ((calls env).system Pid).Along
        (fun c p t _ ↦ AtRecompute env (fun d run passport ↦
          NewRun d run.now c.shared.db passport ∨ UpToDate run.now c.shared.db passport) c p t)
        c steps) ∧
    ∀ now db passport, (passport.status = .stale ∨ isStale passport.status
        (ReadinessResultRepository.findLatestByPassport db passport.id) now = true) →
      ¬ UpToDate now db passport := by
  refine ⟨PartySystem.Along.congr_of_inv (I := fun _ ↦ True) (fun {c p t c'} _ hfire ↦ ?_)
    (fun _ _ _ ↦ trivial) trivial steps, fun _ _ _ ↦ not_upToDate⟩
  refine forall_congr' fun hcommits ↦ forall_congr' fun d ↦ forall_congr' fun run ↦
    forall_congr' fun passportId ↦ forall_congr' fun passport ↦ forall_congr' fun ht ↦
    forall_congr' fun hlocal ↦ forall_congr' fun hfound ↦ ?_
  obtain ⟨d', body, ⟨l', db'⟩, ht', hnext, hbody⟩ := hcommits
  obtain rfl := Tick.act.inj (ht.symm.trans ht')
  subst ht
  obtain ⟨hdb, -⟩ := CallSystem.commit_of_fire hfire hnext hbody
  rw [hlocal] at hnext
  obtain rfl := NextStep.commit.inj hnext
  obtain ⟨r, hrun, -⟩ := Tx.map_eq_ok.1 hbody
  rw [hdb]
  exact recomputePassport_leftCurrent_iff hrun hfound

end

/-! ### A passport that ages twice -/

namespace Sample

def env : Env where
  hashtext s := s.length
  sha256 s := s
  toISOString t := toString t
  assertJsonSerializableValue _ _ := .ok ()
  assertJsonSafeObjectArray _ _ := .ok ()
  assertStringArray _ _ := .ok ()

def context : RequestContext := ⟨"req", "corr", "office", "browser"⟩

def reader : Actor := ⟨"pia", some "acquirer", some .acquirerProviderUser, some "m1"⟩

/-- A day, and a letter for what is drawn on it. -/
def day (n : ℕ) (letter : String) : Tick Draws :=
  .act ⟨fun k ↦ s!"{letter}{k}", n * millisPerDay⟩

def confirmed (id fieldKey : String) (sectionType : PassportSectionType) : Fact where
  id := id
  passportId := "p1"
  sectionType := sectionType
  fieldKey := fieldKey
  normalizedValue := some "true"
  verification := .operatorVerified
  evidenceId := none
  updatedAt := 0

/-- A passport with every required fact, `READY` since day 0. -/
def ready : Db where
  passports := [⟨"p1", "acquirer", .ready, 0⟩]
  facts :=
    [confirmed "f1" "legalEntityConfirmed" .identity,
     confirmed "f2" "primaryContactConfirmed" .identity,
     confirmed "f3" "processingHistorySummary" .processingMetrics,
     confirmed "f4" "riskProfileSummary" .risk,
     confirmed "f5" "settlementCapability" .commercial,
     confirmed "f6" "technicalIntegrationProfile" .technical]
  readinessResults :=
    [⟨⟨75, [], [], "evidence-rules-v1", "evidence-readiness-v1", []⟩, "r1", "p1", 0⟩]

/-- Reads of the passport, each of them followed by a run of the job. -/
def visited : Config ℕ where
  shared := ⟨ready, .free⟩
  locals
    | 0 | 2 => .called reader context (.getById "p1")
    | _ => .delivered (some "p1")

/-- The passport is read after three months, and refreshed; then the same three months later. -/
def beforeSecondRefresh : List (ℕ × Tick Draws) :=
  List.replicate 5 (0, day 91 "a") ++ List.replicate 3 (1, day 92 "b") ++
    List.replicate 5 (2, day 183 "c") ++ List.replicate 2 (3, day 184 "d")

/-- The first run of the job makes the passport `READY` again; the second one reports that it has
recomputed it, and leaves it `STALE`. -/
theorem stale_after_second_refresh :
    ∃ c c', ((calls env).system ℕ).run visited beforeSecondRefresh = some c ∧
      ((calls env).system ℕ).fire c 3 (day 184 "d") = some c' ∧
        c.locals 1 = .finished ⟨1, 1⟩ ∧ c'.locals 3 = .finished ⟨1, 1⟩ ∧
          c.shared.db.passports = [⟨"p1", "acquirer", .stale, 0⟩] ∧
            ¬ LeftCurrent (184 * millisPerDay) c.shared.db c'.shared.db
              ⟨"p1", "acquirer", .stale, 0⟩ := by
  have hrun : (((calls env).system ℕ).run visited beforeSecondRefresh).any (fun c ↦
      (((calls env).system ℕ).fire c 3 (day 184 "d")).any fun c' ↦
        c.locals 1 = .finished ⟨1, 1⟩ ∧ c'.locals 3 = .finished ⟨1, 1⟩ ∧
          c.shared.db.passports = [⟨"p1", "acquirer", .stale, 0⟩] ∧
            c'.shared.db = c.shared.db) = true := by
    decide +kernel
  obtain ⟨c, c', hc, hc', hfirst, hsecond, hpassports, hdb⟩ :=
    PartySystem.exists_run_fire_of_test hrun
  refine ⟨c, c', hc, hc', hfirst, hsecond, hpassports, ?_⟩
  rw [hdb, leftCurrent_self_iff (by rw [PassportRepository.findById, hpassports]; rfl)]
  exact not_upToDate (Or.inl rfl)

end Sample

end TolPlatform.Passports
