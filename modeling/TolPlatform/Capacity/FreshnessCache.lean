import TolPlatform.Capacity.Service

/-!
# When the freshness column is current

A recomputation compares the stored class with the class at its own time and writes the difference,
under an idempotency key made of the profile, its `asOf` and the new class. That key is not new when
the profile moves to a class for the second time without a confirmation in between. It does: the time
of a job is read before the lock, so a job may put back an earlier class that a later one has already
replaced. The move forward is then answered from the record of the first one, without a write.

So a recomputation leaves the class right, and returns `true` exactly when it has changed the row, if
and only if the class was right before or the move can go on record (`freshnessWritten_iff`).
-/

namespace TolPlatform.Capacity

/-! ### One recomputation -/

/-- What a recomputation at `now` is to leave: the stored class is the class at that time, and the
result tells whether the row has changed. -/
structure LeftClassified (now : Instant) (db' : Db) (profile : CapacityProfile) (changed : Bool) :
    Prop where
  class_eq : ∃ p', CapacityProfileRepository.findById db' profile.id = some p' ∧
    p'.freshnessClass = classifyCapacityFreshness p'.asOf p'.sourceType now
  changed_iff : changed = true ↔
    CapacityProfileRepository.findById db' profile.id ≠ some profile

/-- The class of the profile at `now`. -/
def classAt (now : Instant) (profile : CapacityProfile) : FreshnessClass :=
  classifyCapacityFreshness profile.asOf profile.sourceType now

/-- There is nothing to do. -/
def AlreadyClassified (now : Instant) (profile : CapacityProfile) : Prop :=
  classAt now profile = profile.freshnessClass

instance (now : Instant) (profile : CapacityProfile) : Decidable (AlreadyClassified now profile) :=
  inferInstanceAs (Decidable (_ = _))

/-- The move can go on record: no earlier one is there under its key. -/
def NewMove (env : Platform) (d : Draws) (now : Instant) (db : Db) (profile : CapacityProfile) :
    Prop :=
  Jobs.Recordable idempotencyKeys db (d.ids 0) (freshnessInfo env profile (classAt now profile))

section

variable {env : Platform} {d : Draws} {now : Instant} {trigger : Trigger} {profile : CapacityProfile}
  {changed : Bool} {db db' : Db}

theorem findById_id {id : Uuid}
    (h : CapacityProfileRepository.findById db id = some profile) : profile.id = id :=
  of_decide_eq_true (List.find?_some h :)

/-- What the handler writes. -/
theorem reclassifyHandler_eq_ok {newClass : FreshnessClass} {a : Reclassified}
    (h : reclassifyHandler profile newClass trigger db = .ok (a, db')) : ∃ trails, db' =
      { db with
        profiles := Rows.rewrite CapacityProfile.id profile.id
          (CapacityProfileRepository.setFreshnessClass newClass) db.profiles
        trails } := by
  obtain ⟨_, db₁, hupdate, h⟩ := Tx.bind_eq_ok.1 h
  obtain ⟨-, -, -, rfl⟩ := Table.update_eq_ok_iff.1 hupdate
  obtain ⟨_, db₂, hrecord, h⟩ := Tx.bind_eq_ok.1 h
  obtain ⟨-, rfl⟩ := Prod.mk.inj (Except.ok.inj hrecord)
  obtain ⟨-, rfl⟩ := Prod.mk.inj (Tx.pure_eq_ok.1 h)
  exact ⟨_, rfl⟩

/-- **The specification of a recomputation** of a profile that is there. -/
theorem recomputeOne_cases (h : recomputeOne env d profile.id now trigger db = .ok (changed, db'))
    (hfound : CapacityProfileRepository.findById db profile.id = some profile) :
    (AlreadyClassified now profile ∧ changed = false ∧ db' = db) ∨
    (¬ AlreadyClassified now profile ∧ NewMove env d now db profile ∧ changed = true ∧
      db'.profiles = Rows.rewrite CapacityProfile.id profile.id
        (CapacityProfileRepository.setFreshnessClass (classAt now profile)) db.profiles) ∨
    (¬ AlreadyClassified now profile ∧ ¬ NewMove env d now db profile ∧ changed = true ∧
      db' = db) := by
  replace h := Tx.get_bind_eq_ok.1 h
  simp only [hfound] at h
  rw [← classAt] at h
  by_cases hsame : classAt now profile = profile.freshnessClass
  · rw [if_pos hsame] at h
    obtain ⟨rfl, rfl⟩ := Prod.mk.inj (Tx.pure_eq_ok.1 h)
    exact Or.inl ⟨hsame, rfl, rfl⟩
  · rw [if_neg hsame] at h
    obtain ⟨r, hrun, rfl⟩ := Tx.map_eq_ok.1 h
    have hkeys {a : Reclassified} {db₁ : Db}
        (hhandler : reclassifyHandler profile (classAt now profile) trigger db = .ok (a, db₁)) :
        db₁.idempotencyKeys = db.idempotencyKeys := by
      obtain ⟨trails, rfl⟩ := reclassifyHandler_eq_ok hhandler
      rfl
    -- the record under the key decides whether the handler runs; the result is `true` either way
    rcases Jobs.inTransaction_cases rfl hkeys hrun with
      ⟨hnew, a, db₁, row, hhandler, rfl⟩ | ⟨hold, rfl⟩
    · obtain ⟨trails, rfl⟩ := reclassifyHandler_eq_ok hhandler
      exact Or.inr (Or.inl ⟨hsame, hnew, rfl, rfl⟩)
    · exact Or.inr (Or.inr ⟨hsame, hold, rfl, rfl⟩)

/-- A move that is written leaves the class right. -/
theorem leftClassified_of_written (hfound : CapacityProfileRepository.findById db profile.id =
      some profile) (hnew : ¬ AlreadyClassified now profile)
    (hprofiles : db'.profiles = Rows.rewrite CapacityProfile.id profile.id
      (CapacityProfileRepository.setFreshnessClass (classAt now profile)) db.profiles) :
    LeftClassified now db' profile true := by
  have hfound' : CapacityProfileRepository.findById db' profile.id =
      some (CapacityProfileRepository.setFreshnessClass (classAt now profile) profile) := by
    unfold CapacityProfileRepository.findById at hfound ⊢
    rw [hprofiles, Rows.find_rewrite (CapacityProfileRepository.setFreshnessClass_id _), hfound]
    rfl
  refine ⟨⟨_, hfound', rfl⟩, iff_of_true rfl fun hsame ↦ hnew ?_⟩
  exact congrArg CapacityProfile.freshnessClass (Option.some.inj (hfound'.symm.trans hsame))

/-- Where nothing is written, the class is right if it was, and the result says so if it is `false`. -/
theorem leftClassified_self_iff (hfound : CapacityProfileRepository.findById db profile.id =
    some profile) :
    LeftClassified now db profile changed ↔ AlreadyClassified now profile ∧ changed = false := by
  constructor
  · rintro ⟨⟨p', hp', hclass⟩, hchanged⟩
    obtain rfl := Option.some.inj (hfound.symm.trans hp')
    exact ⟨hclass.symm, Bool.eq_false_iff.2 fun htrue ↦ hchanged.1 htrue hfound⟩
  · rintro ⟨hclass, rfl⟩
    exact ⟨⟨profile, hfound, hclass.symm⟩, iff_of_false Bool.false_ne_true (not_not.2 hfound)⟩

/-- **One recomputation** leaves the class right and says whether it has changed the row, if and only if
the class was right before or the move could go on record. -/
theorem recomputeOne_leftClassified_iff {profileId : Uuid}
    (h : recomputeOne env d profileId now trigger db = .ok (changed, db'))
    (hfound : CapacityProfileRepository.findById db profileId = some profile) :
    LeftClassified now db' profile changed ↔
      AlreadyClassified now profile ∨ NewMove env d now db profile := by
  obtain rfl := findById_id hfound
  rcases recomputeOne_cases h hfound with ⟨hsame, rfl, rfl⟩ | ⟨hsame, hnew, rfl, hprofiles⟩ |
    ⟨hsame, hold, rfl, rfl⟩
  · exact iff_of_true ((leftClassified_self_iff hfound).2 ⟨hsame, rfl⟩) (Or.inl hsame)
  · exact iff_of_true (leftClassified_of_written hfound hsame hprofiles) (Or.inr hnew)
  · refine iff_of_false (fun h ↦ ?_) (not_or.2 ⟨hsame, hold⟩)
    exact hsame ((leftClassified_self_iff hfound).1 h).1

end

/-! ### Runs -/

/-- What a job goes on with tells what the recomputation has returned. -/
theorem afterOne_injective (run : JobRun) : Function.Injective (afterOne run) := by
  intro a b h
  have hcount : run.result.reclassified + a.toNat = run.result.reclassified + b.toNat := by
    unfold afterOne proceed at h
    rcases hrest : run.rest with _ | ⟨profileId, rest⟩
    · simp only [hrest] at h
      exact congrArg CapacityFreshnessJobResult.reclassified (Local.finished.inj h)
    · simp only [hrest] at h
      exact congrArg (fun r : JobRun ↦ r.result.reclassified) (Local.recomputing.inj h).1
  cases a <;> cases b <;> simp_all

section

variable {env : Platform} {Pid : Type} [DecidableEq Pid]

/-- The property holds of a step in which a job recomputes a profile that is there. -/
def AtRecompute (env : Platform) (P : Draws → JobRun → CapacityProfile → Prop) (c : Config Pid)
    (p : Pid) (t : Tick Draws) : Prop :=
  (calls env).Commits c p t → ∀ d run profileId profile, t = .act d →
    c.locals p = .recomputeLocked run profileId →
      CapacityProfileRepository.findById c.shared.db profileId = some profile → P d run profile

/-- **When the freshness column is written.** In every run, each recomputation leaves its profile with
the class at its own time and returns `true` exactly when it has changed the row, if and only if each of
them finds the class right already or can go on record. -/
theorem freshnessWritten_iff (c : Config Pid) (steps : List (Pid × Tick Draws)) :
    ((calls env).system Pid).Along
        (fun c p t c' ↦ AtRecompute env (fun _ run profile ↦ ∀ changed,
          c'.locals p = afterOne run changed →
            LeftClassified run.now c'.shared.db profile changed) c p t) c steps ↔
      ((calls env).system Pid).Along
        (fun c p t _ ↦ AtRecompute env (fun d run profile ↦
          AlreadyClassified run.now profile ∨ NewMove env d run.now c.shared.db profile) c p t)
        c steps := by
  refine PartySystem.Along.congr_of_inv (I := fun _ ↦ True) (fun {c p t c'} _ hfire ↦ ?_)
    (fun _ _ _ ↦ trivial) trivial steps
  refine forall_congr' fun hcommits ↦ forall_congr' fun d ↦ forall_congr' fun run ↦
    forall_congr' fun profileId ↦ forall_congr' fun profile ↦ forall_congr' fun ht ↦
    forall_congr' fun hlocal ↦ forall_congr' fun hfound ↦ ?_
  -- a step of the recomputing job is one recomputation on the database it finds
  obtain ⟨d', body, ⟨l', db'⟩, ht', hnext, hbody⟩ := hcommits
  obtain rfl := Tick.act.inj (ht.symm.trans ht')
  subst ht
  obtain ⟨hdb, hl'⟩ := CallSystem.commit_of_fire hfire hnext hbody
  rw [hlocal] at hnext
  obtain rfl := NextStep.commit.inj hnext
  obtain ⟨changed, hrun, rfl⟩ := Tx.map_eq_ok.1 hbody
  have hone := recomputeOne_leftClassified_iff hrun hfound
  rw [← hdb] at hone
  refine ⟨fun h ↦ hone.1 (h changed hl'), fun h changed' hchanged ↦ ?_⟩
  obtain rfl := afterOne_injective run (hl'.symm.trans hchanged)
  exact hone.2 h

end

/-! ### A profile that ages twice -/

namespace Sample

def platform : Platform where
  hashtext s := s.length
  sha256 s := s
  toISOString t := toString t

/-- A time after the last instant of the fresh window, and a letter for what is drawn then. -/
def afterWindow (n : ℕ) (letter : String) : Tick Draws :=
  .act ⟨fun k ↦ s!"{letter}{k}", 30 * millisPerDay + n⟩

/-- A fresh profile, confirmed at time 0. -/
def confirmed : CapacityProfile where
  id := "c1"
  providerOrgId := "acquirer"
  asOf := 0
  freshnessClass := .fresh
  currency := "USD"
  settlementRail := "ACH"
  createdAt := 0

/-- Three jobs for the profile. -/
def queued : Config ℕ where
  shared := ⟨{ profiles := [confirmed] }, .free⟩
  locals _ := .delivered (some "c1")

/-- The first job is picked up while the profile is still fresh, and is overtaken by the second one; the
third one comes after both. -/
def beforeThirdCommit : List (ℕ × Tick Draws) :=
  [(1, afterWindow 0 "a")] ++ List.replicate 3 (2, afterWindow 1 "b") ++
    List.replicate 2 (1, afterWindow 2 "a") ++ List.replicate 2 (3, afterWindow 3 "c")

/-- The second job makes the profile `AGING` and the first one `FRESH` again; the third one reports that
it has reclassified it, and leaves it `FRESH`. -/
theorem fresh_after_third_job :
    ∃ c c', ((calls platform).system ℕ).run queued beforeThirdCommit = some c ∧
      ((calls platform).system ℕ).fire c 3 (afterWindow 3 "c") = some c' ∧
        c.shared.db.profiles = [{ confirmed with version := 3 }] ∧
          c'.shared.db = c.shared.db ∧ c'.locals 3 = .finished ⟨1, 1⟩ ∧
            ∀ changed, ¬ LeftClassified (30 * millisPerDay + 3) c'.shared.db
              { confirmed with version := 3 } changed := by
  have hrun : (((calls platform).system ℕ).run queued beforeThirdCommit).any (fun c ↦
      (((calls platform).system ℕ).fire c 3 (afterWindow 3 "c")).any fun c' ↦
        c.shared.db.profiles = [{ confirmed with version := 3 }] ∧
          c'.shared.db = c.shared.db ∧ c'.locals 3 = .finished ⟨1, 1⟩) = true := by
    decide +kernel
  obtain ⟨c, c', hc, hc', hprofiles, hdb, hresult⟩ := PartySystem.exists_run_fire_of_test hrun
  refine ⟨c, c', hc, hc', hprofiles, hdb, hresult, fun changed h ↦ ?_⟩
  have hfound : CapacityProfileRepository.findById c.shared.db "c1" =
      some { confirmed with version := 3 } := by
    rw [CapacityProfileRepository.findById, hprofiles]
    rfl
  rw [hdb] at h
  have hclass := ((leftClassified_self_iff hfound).1 h).1
  exact absurd hclass (by decide)

end Sample

end TolPlatform.Capacity
