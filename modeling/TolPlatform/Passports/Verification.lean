import TolPlatform.Passports.Coherence

/-!
# What a verification certifies

`verify` goes by the stored status: it asks that the passport is `READY` and does not compute readiness
again. A `READY` passport has every blocking required fact, since facts change only together with a
recompute (`ReadyComplete`); but readiness decays with time, and the evidence for one of them may have
expired since. So a verification certifies facts that nothing blocks exactly when none of their evidence
has expired by then (`verified_iff`).
-/

namespace TolPlatform.Passports

/-- Every `READY` passport has the facts that readiness asks for. -/
def ReadyComplete (db : Db) : Prop :=
  ∀ passport ∈ db.passports, passport.status = .ready → Complete db passport.id

/-- Readiness, computed from the passport's facts as they are, has no blockers at `now`. -/
def ReadyAt (now : Instant) (db : Db) (passportId : Uuid) : Prop :=
  ∃ result, computeReadiness (buildSnapshots db (FactRepository.listByPassport db passportId)) now =
    .ok result ∧ result.blockers = []

section

variable {who : Recomputer} {now : Instant} {passport : Passport} {result : ReadinessResultShape}
  {db db' : Db}

theorem readyAt_iff (hdb : Integrity db) {passportId : Uuid} :
    ReadyAt now db passportId ↔ Complete db passportId ∧ Unexpired db now passportId := by
  constructor
  · rintro ⟨result, hresult, hblockers⟩
    exact (blockers_eq_nil_iff hresult).1 hblockers
  · intro hready
    obtain ⟨result, hresult⟩ := exists_readiness_eq_ok hdb.keys now passportId
    exact ⟨result, hresult, (blockers_eq_nil_iff hresult).2 hready⟩

/-! ### `READY` passports are complete -/

/-- A recompute makes `READY` only what is complete. -/
theorem RecomputedTo.readyComplete (h : RecomputedTo who now passport result db db')
    (hdb : Integrity db) (hmem : passport ∈ db.passports)
    (hothers : ∀ p ∈ db.passports, p.id ≠ passport.id → p.status = .ready → Complete db p.id) :
    ReadyComplete db' := by
  have hfacts (id : Uuid) : Complete db' id ↔ Complete db id := by
    rw [Complete, Complete, h.facts_eq]
  intro p hp hready
  rw [hfacts]
  rcases (h.mem_passports_iff hdb hmem).1 hp with rfl | ⟨hp, hid⟩
  · rw [PassportRepository.setStatus_status] at hready
    rcases h.targetStatus_cases with ⟨hexempt, htarget⟩ | ⟨-, ⟨-, htarget⟩ | ⟨hblockers, -⟩⟩
    · rw [htarget] at hready
      rcases hexempt with hs | ⟨hs, -⟩ <;> cases hs.symm.trans hready
    · cases htarget.symm.trans hready
    · exact ((blockers_eq_nil_iff h.readiness).1 hblockers).1
  · exact hothers p hp hid hready

/-- Setting another status than `READY`. -/
theorem ReadyComplete.setStatus (hdb : ReadyComplete db) (id : Uuid) {status : PassportStatus}
    (hstatus : status ≠ .ready) :
    ∀ p ∈ Rows.rewrite Passport.id id (PassportRepository.setStatus status) db.passports,
      p.status = .ready → Complete db p.id := by
  intro p hp hready
  obtain ⟨q, hq, rfl⟩ := Rows.mem_rewrite_iff.1 hp
  split at hready
  · exact absurd hready hstatus
  · next hid =>
    rw [if_neg hid]
    exact hdb q hq hready

/-- **Every write keeps it**: facts change only together with a recompute. -/
theorem ReadyComplete.wrote {env : Env} {d : Draws} {l : Local} (hdb : Integrity db)
    (hready : ReadyComplete db) (h : Wrote env d db l db') : ReadyComplete db' := by
  cases h with
  | created hnew _ hrecomputed =>
    refine hrecomputed.readyComplete ((hdb.inserted hnew).of_eq rfl rfl rfl)
      (List.mem_append_right _ (List.mem_singleton_self _)) fun p hp hid ↦ ?_
    rcases List.mem_append.1 hp with hp | hp
    · exact hready p hp
    · exact absurd (congrArg Passport.id (List.mem_singleton.1 hp)) hid
  | upserted hfound hupsert hrecomputed =>
    obtain ⟨rows, rfl, hrows⟩ := FactRepository.upsertByFieldKey_eq_ok hupsert
    have hupserted := hdb.upserted (mem_ids_of_findById hfound) hrows
    refine hrecomputed.readyComplete (hupserted.of_eq rfl rfl rfl)
      (List.mem_of_find?_eq_some hfound) fun p hp hid hs req hreq hblocking ↦ ?_
    obtain ⟨fact, hfact, hpassport, hkey⟩ := hready p hp hs req hreq hblocking
    refine ⟨fact, hrows.mem_of_ne hdb.facts hfact ?_, hpassport, hkey⟩
    rw [hpassport, newFact, ← findById_id hfound]
    exact hid
  | added | left | skipped => exact hready
  | verified => exact hready.setStatus _ (by decide)
  | demoted => exact hready.setStatus _ (by decide)
  | recomputed hfound _ hrecomputed =>
    have hcomplete := hrecomputed.readyComplete hdb (List.mem_of_find?_eq_some hfound)
      fun p hp _ ↦ hready p hp
    exact hcomplete

end

/-! ### Runs -/

section

variable {env : Env} {Pid : Type} [DecidableEq Pid]

/-- The property holds at every step that commits a verification. -/
def AtVerify (env : Env) (P : Instant → Db → Uuid → Prop) (c : Config Pid) (p : Pid)
    (t : Tick Draws) : Prop :=
  (calls env).Commits c p t → ∀ d call input, t = .act d → c.locals p = .verifyLocked call input →
    P d.now c.shared.db call.passport.id

/-- **What a verification certifies.** In every run, the readiness of each passport that is verified has
no blockers at that time if and only if no evidence for its blocking required facts has expired. -/
theorem verified_iff (c : Config Pid) (hdb : Integrity c.shared.db)
    (hready : ReadyComplete c.shared.db) (steps : List (Pid × Tick Draws)) :
    ((calls env).system Pid).Along (fun c p t _ ↦ AtVerify env ReadyAt c p t) c steps ↔
      ((calls env).system Pid).Along
        (fun c p t _ ↦ AtVerify env (fun now db id ↦ Unexpired db now id) c p t) c steps := by
  refine PartySystem.Along.congr_of_inv
    (I := fun c : Config Pid ↦ Integrity c.shared.db ∧ ReadyComplete c.shared.db)
    (fun {c p t c'} hc hfire ↦ ?_) (fun {c p t c'} hc hfire _ ↦ ⟨hc.1.fire hfire, ?_⟩)
    ⟨hdb, hready⟩ steps
  · refine forall_congr' fun hcommits ↦ forall_congr' fun d ↦ forall_congr' fun call ↦
      forall_congr' fun input ↦ forall_congr' fun ht ↦ forall_congr' fun hlocal ↦ ?_
    obtain ⟨d', body, ⟨l', db'⟩, -, hnext, hbody⟩ := hcommits
    rw [hlocal] at hnext
    cases wrote_of_commit hnext hbody with
    | verified hfound hs =>
      have hcomplete := hc.2 _ (List.mem_of_find?_eq_some hfound) hs
      rw [findById_id hfound] at hcomplete
      rw [readyAt_iff hc.1]
      exact and_iff_right hcomplete
  · rcases CallSystem.commits_or_not hfire with ⟨-, hsame⟩ | ⟨-, d, body, hnext, hbody⟩
    · exact hsame ▸ hc.2
    · exact hc.2.wrote hc.1 (wrote_of_commit hnext hbody)

end

/-! ### A verification of expired evidence -/

namespace Sample

def reviewer : Actor := ⟨"rae", some "office", some .complianceReviewer, some "m2"⟩

/-- A reviewer verifies the passport whose evidence for the legal entity expires at 10. -/
def reviewed : Config ℕ where
  shared := ⟨expiring, .free⟩
  locals _ := .called reviewer context (.verify "p1" ⟨"documents seen"⟩)

theorem readyComplete_expiring : ReadyComplete expiring := by
  intro p hp _
  obtain rfl := List.mem_singleton.1 hp
  unfold Complete
  decide

theorem not_unexpired_expiring : ¬ Unexpired expiring 20 "p1" := by
  intro h
  exact absurd (h _ List.mem_cons_self rfl _ List.mem_cons_self rfl rfl 10 rfl) (by decide)

/-- It is verified at 20. -/
theorem verified_after_expiry :
    ∃ c c', ((calls env).system ℕ).run reviewed (List.replicate 2 (0, moment 20 "a")) = some c ∧
      ((calls env).system ℕ).fire c 0 (moment 20 "a") = some c' ∧
        c'.shared.db.passports = [⟨"p1", "acquirer", .verified, 0⟩] ∧
          ¬ ReadyAt 20 c.shared.db "p1" := by
  have hrun : (((calls env).system ℕ).run reviewed (List.replicate 2 (0, moment 20 "a"))).any (fun c ↦
      (((calls env).system ℕ).fire c 0 (moment 20 "a")).any fun c' ↦
        c'.shared.db.passports = [⟨"p1", "acquirer", .verified, 0⟩] ∧
          c.shared.db = expiring) = true := by
    decide +kernel
  obtain ⟨c, c', hc, hc', hpassports, hdb⟩ := PartySystem.exists_run_fire_of_test hrun
  refine ⟨c, c', hc, hc', hpassports, ?_⟩
  rw [hdb, readyAt_iff integrity_expiring]
  exact fun hready ↦ not_unexpired_expiring hready.2

/-- Verifying it by `verified_iff`, while the evidence is still valid. -/
theorem verified_iff_reviewed : Integrity expiring ∧ ReadyComplete expiring ∧
    (((calls env).system ℕ).Along (fun c p t _ ↦ AtVerify env ReadyAt c p t) reviewed
        (List.replicate 4 (0, moment 9 "a")) ↔
      ((calls env).system ℕ).Along
        (fun c p t _ ↦ AtVerify env (fun now db id ↦ Unexpired db now id) c p t) reviewed
        (List.replicate 4 (0, moment 9 "a"))) :=
  ⟨integrity_expiring, readyComplete_expiring,
    verified_iff reviewed integrity_expiring readyComplete_expiring _⟩

end Sample

end TolPlatform.Passports
