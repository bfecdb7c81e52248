import TolPlatform.Shared.IdempotencyRepository

/-!
# Job idempotency

`apps/worker/src/shared/job-idempotency.ts`, for any database with an `idempotency_keys` table and any
type of results. A completed record answers; otherwise the handler runs and its result is recorded.

`withJobIdempotency` swallows a unique violation of its own bookkeeping. The database does not: the
statement that failed has aborted the transaction, so what the job wrote is rolled back while its
result is returned (`Outcome.aborted`, `inTransaction`).

* `inTransaction_eq_ok`: what such a transaction leaves behind, in one of three ways.
* `inTransaction_of_recordable`: when it leaves behind what the handler has done.
* `inTransaction_cases`: whether it leaves anything behind depends only on what is on record before.
-/

namespace TolPlatform

structure JobIdempotencyInfo where
  scope : String
  key : String
  /-- `JSON.stringify` of the request payload. -/
  requestPayload : String

/-- `JobIdempotencyConflictError`. -/
def jobIdempotencyConflictError (scope key : String) : Thrown :=
  .error s!"idempotency key collision: scope=\"{scope}\" key=\"{key}\" was already recorded with a DIFFERENT request payload — this indicates two logically different jobs were assigned the same idempotency key, a caller bug, not a safe-to-replay duplicate"

/-- `JOB_IDEMPOTENCY_TTL_MS`. -/
def jobIdempotencyTtlMs : Int := 24 * 60 * 60 * 1000

namespace Jobs

variable {σ α : Type}

/-- What a transaction ends with: the result to return, and whether the transaction is aborted. -/
structure Outcome (α : Type) where
  result : Option α
  aborted : Bool

/-- `try { … } catch (err) { if (err.code !== "P2002") throw err; }`: whether it was caught. -/
def catchUniqueViolation (body : Tx σ Thrown PUnit) : Tx σ Thrown Bool := fun db ↦
  match body db with
  | .ok (_, db') => .ok (false, db')
  | .error .uniqueViolation => .ok (true, db)
  | .error thrown => .error thrown

/-- A transaction that a statement has aborted ends in a rollback. -/
def inTransaction (body : Tx σ Thrown (Outcome α)) : Tx σ Thrown (Option α) := fun db ↦
  match body db with
  | .ok (outcome, db') => .ok (outcome.result, if outcome.aborted then db else db')
  | .error thrown => .error thrown

section

variable (T : Table σ (IdempotencyKey α) Uuid)

def completedRecord (db : σ) (scope key : String) : Option (IdempotencyKey α) :=
  (IdempotencyRepository.find T db scope key).filter (·.responseStatus ≠ none)

def recordResult (now : Instant) (keyId : Uuid) (info : JobIdempotencyInfo) (requestHash : String)
    (result : α) : Tx σ Thrown PUnit := do
  let reservation ← IdempotencyRepository.reserve T keyId
    { key := info.key, scope := info.scope, requestHash, organizationId := none, userId := none,
      expiresAt := now + jobIdempotencyTtlMs }
  let _ ← IdempotencyRepository.complete T reservation.id 200 (some result)

/-- Run the handler, then record its result under the key. -/
def runAndRecord (now : Instant) (keyId : Uuid) (info : JobIdempotencyInfo) (requestHash : String)
    (handler : Tx σ Thrown α) : Tx σ Thrown (Outcome α) := do
  let result ← handler
  let aborted ← catchUniqueViolation (recordResult T now keyId info requestHash result)
  return { result := some result, aborted }

def withJobIdempotency (sha256 : String → String) (now : Instant) (keyId : Uuid)
    (info : JobIdempotencyInfo) (handler : Tx σ Thrown α) : Tx σ Thrown (Outcome α) := do
  let requestHash := sha256 info.requestPayload
  let db ← get
  match completedRecord T db info.scope info.key with
  | some existing => do
    Tx.check (throwIf (existing.requestHash ≠ requestHash)
      (jobIdempotencyConflictError info.scope info.key))
    return { result := existing.responseBody, aborted := false }
  | none => runAndRecord T now keyId info requestHash handler

end

/-! ### What is left behind -/

/-- The record of a result. -/
def recordOf (now : Instant) (keyId : Uuid) (info : JobIdempotencyInfo) (requestHash : String)
    (result : α) : IdempotencyKey α where
  id := keyId
  key := info.key
  scope := info.scope
  requestHash := requestHash
  responseStatus := some 200
  responseBody := some result
  organizationId := none
  userId := none
  expiresAt := now + jobIdempotencyTtlMs

/-- What a transaction around `withJobIdempotency` leaves behind. -/
inductive Ran (T : Table σ (IdempotencyKey α) Uuid) (sha256 : String → String) (now : Instant)
    (keyId : Uuid) (info : JobIdempotencyInfo) (handler : Tx σ Thrown α) (db : σ) :
    Option α → σ → Prop
  /-- The answer of an earlier run, and no write. -/
  | cached {existing} : completedRecord T db info.scope info.key = some existing →
      Ran T sha256 now keyId info handler db existing.responseBody db
  /-- The handler has run, but its writes are rolled back. -/
  | aborted {a db₁} : completedRecord T db info.scope info.key = none →
      handler db = .ok (a, db₁) → Ran T sha256 now keyId info handler db (some a) db
  /-- The writes of the handler, and its result on record. -/
  | recorded {a db₁} : completedRecord T db info.scope info.key = none →
      handler db = .ok (a, db₁) →
      Ran T sha256 now keyId info handler db (some a)
        (T.put (T.rows db₁ ++ [recordOf now keyId info (sha256 info.requestPayload) a]) db₁)

/-- A result can be recorded: neither its key nor its id is taken. -/
def Recordable (T : Table σ (IdempotencyKey α) Uuid) (db : σ) (keyId : Uuid)
    (info : JobIdempotencyInfo) : Prop :=
  IdempotencyRepository.find T db info.scope info.key = none ∧ keyId ∉ T.keys db

variable {T : Table σ (IdempotencyKey α) Uuid} {sha256 : String → String} {now : Instant}
  {keyId : Uuid} {info : JobIdempotencyInfo} {handler : Tx σ Thrown α} {db db' : σ}

theorem recordResult_eq_ok (hkey : T.key = IdempotencyKey.id) {requestHash : String} {result : α}
    {u : PUnit} (h : recordResult T now keyId info requestHash result db = .ok (u, db')) :
    db' = T.put (T.rows db ++ [recordOf now keyId info requestHash result]) db := by
  obtain ⟨reservation, db₁, hreserve, h⟩ := Tx.bind_eq_ok.1 h
  obtain ⟨row, db₂, hcomplete, h⟩ := Tx.bind_eq_ok.1 h
  obtain ⟨-, rfl⟩ := Prod.mk.inj (Tx.pure_eq_ok.1 h)
  obtain ⟨-, -, hinsert⟩ := Tx.check_bind_eq_ok.1 (Tx.get_bind_eq_ok.1 hreserve)
  obtain ⟨hnew, rfl, rfl⟩ := Table.insert_eq_ok_iff.1 hinsert
  obtain ⟨-, -, -, rfl⟩ := (IdempotencyRepository.complete_eq_ok_iff hkey).1 hcomplete
  rw [T.rows_put, T.put_put, List.map_append]
  -- the id of the reservation is new, so no other row is completed
  have hothers : (T.rows db).map
      (IdempotencyRepository.completed keyId 200 (some result)) = T.rows db := by
    refine (List.map_congr_left fun r hr ↦ if_neg fun hid ↦ hnew ?_).trans (List.map_id _)
    rw [hkey, Table.keys, hkey]
    exact List.mem_map.2 ⟨r, hr, hid⟩
  rw [hothers, List.map_singleton, IdempotencyRepository.completed, if_pos rfl]
  rfl

/-- A result that can be recorded is recorded. -/
theorem recordResult_of_recordable (hkey : T.key = IdempotencyKey.id) {requestHash : String}
    {result : α} (h : Recordable T db keyId info) :
    ∃ db', recordResult T now keyId info requestHash result db = .ok (⟨⟩, db') := by
  obtain ⟨hfree, hid⟩ := h
  let input : CreateIdempotencyKeyInput :=
    { key := info.key, scope := info.scope, requestHash, organizationId := none, userId := none,
      expiresAt := now + jobIdempotencyTtlMs }
  let row : IdempotencyKey α := IdempotencyRepository.reservation keyId input
  let db₁ := T.put (T.rows db ++ [row]) db
  have hreserve : IdempotencyRepository.reserve T keyId input db = .ok (row, db₁) := by
    rw [IdempotencyRepository.reserve_eq, if_neg]
    rintro (htaken | htaken)
    · exact htaken hfree
    · rw [hkey] at htaken
      exact hid htaken
  have hfind : ∃ old, (T.rows db₁).find? (·.id = keyId) = some old := by
    have hmem : row ∈ T.rows db₁ := by
      rw [T.rows_put]
      exact List.mem_append_right _ List.mem_cons_self
    exact Option.isSome_iff_exists.1 (List.find?_isSome.2 ⟨row, hmem, decide_eq_true rfl⟩)
  obtain ⟨old, hold⟩ := hfind
  have hcomplete : IdempotencyRepository.complete T keyId 200 (some result) db₁ = .ok (_, _) :=
    (IdempotencyRepository.complete_eq_ok_iff hkey).2 ⟨old, hold, rfl, rfl⟩
  exact ⟨_, Tx.bind_eq_ok.2 ⟨row, db₁, hreserve, Tx.bind_eq_ok.2 ⟨_, _, hcomplete, rfl⟩⟩⟩

/-- One that cannot is refused by the driver. -/
theorem recordResult_of_not_recordable (hkey : T.key = IdempotencyKey.id) {requestHash : String}
    {result : α} (h : ¬ Recordable T db keyId info) :
    recordResult T now keyId info requestHash result db = .error .uniqueViolation := by
  have hreserve (input : CreateIdempotencyKeyInput) (hinput : input.scope = info.scope ∧
      input.key = info.key) : IdempotencyRepository.reserve T keyId input db =
        .error .uniqueViolation := by
    rw [IdempotencyRepository.reserve_eq, if_pos]
    rw [hinput.1, hinput.2, hkey]
    by_contra hfree
    obtain ⟨hkeyFree, hid⟩ := not_or.1 hfree
    exact h ⟨not_not.1 hkeyFree, hid⟩
  show (IdempotencyRepository.reserve T keyId _ db >>= _) = _
  rw [hreserve _ ⟨rfl, rfl⟩]
  rfl

theorem inTransaction_eq_ok (hkey : T.key = IdempotencyKey.id) {result : Option α}
    (h : inTransaction (withJobIdempotency T sha256 now keyId info handler) db =
      .ok (result, db')) : Ran T sha256 now keyId info handler db result db' := by
  unfold inTransaction at h
  rcases hbody : withJobIdempotency T sha256 now keyId info handler db with e | ⟨outcome, db₁⟩
  · rw [hbody] at h
    cases h
  rw [hbody] at h
  obtain ⟨rfl, rfl⟩ := Prod.mk.inj (Except.ok.inj h)
  have hbody := Tx.get_bind_eq_ok.1 hbody
  rcases hfind : completedRecord T db info.scope info.key with - | existing
  · simp only [hfind] at hbody
    obtain ⟨a, db₂, hhandler, hbody⟩ := Tx.bind_eq_ok.1 hbody
    obtain ⟨aborted, db₃, hcatch, hbody⟩ := Tx.bind_eq_ok.1 hbody
    obtain ⟨rfl, rfl⟩ := Prod.mk.inj (Tx.pure_eq_ok.1 hbody)
    cases aborted with
    | true => exact .aborted hfind hhandler
    | false =>
      unfold catchUniqueViolation at hcatch
      rcases hrecord : recordResult T now keyId info (sha256 info.requestPayload) a db₂ with
        e | ⟨u, db₄⟩
      · cases e <;> simp [hrecord] at hcatch
      · simp only [hrecord] at hcatch
        obtain ⟨-, rfl⟩ := Prod.mk.inj (Except.ok.inj hcatch)
        rw [recordResult_eq_ok hkey hrecord]
        exact .recorded hfind hhandler
  · simp only [hfind] at hbody
    obtain ⟨_, -, hbody⟩ := Tx.check_bind_eq_ok.1 hbody
    obtain ⟨rfl, rfl⟩ := Prod.mk.inj (Tx.pure_eq_ok.1 hbody)
    exact .cached hfind

/-- A job whose result can be recorded does what its handler does, and records the result. -/
theorem inTransaction_of_recordable (hkey : T.key = IdempotencyKey.id) {a : α} {db₁ : σ}
    (hhandler : handler db = .ok (a, db₁)) (hrows : T.rows db₁ = T.rows db)
    (h : Recordable T db keyId info) :
    inTransaction (withJobIdempotency T sha256 now keyId info handler) db = .ok (some a,
      T.put (T.rows db₁ ++ [recordOf now keyId info (sha256 info.requestPayload) a]) db₁) := by
  have hrecordable : Recordable T db₁ keyId info := by
    rw [Recordable, IdempotencyRepository.find, Table.keys, hrows]
    exact h
  obtain ⟨db', hrecord⟩ : ∃ db', recordResult T now keyId info (sha256 info.requestPayload) a db₁ =
      .ok (⟨⟩, db') := recordResult_of_recordable hkey hrecordable
  have hcompleted : completedRecord T db info.scope info.key = none := by
    rw [completedRecord, h.1]
    rfl
  have hcatch : catchUniqueViolation
      (recordResult T now keyId info (sha256 info.requestPayload) a) db₁ = .ok (false, db') := by
    rw [catchUniqueViolation, hrecord]
  have hran : runAndRecord T now keyId info (sha256 info.requestPayload) handler db =
      .ok (⟨some a, false⟩, db') :=
    Tx.bind_eq_ok.2 ⟨a, db₁, hhandler, Tx.bind_eq_ok.2 ⟨false, db', hcatch, rfl⟩⟩
  have hbody : withJobIdempotency T sha256 now keyId info handler db =
      .ok (⟨some a, false⟩, db') := by
    refine Tx.get_bind_eq_ok.2 ?_
    simp only [hcompleted]
    exact hran
  rw [inTransaction, hbody, ← recordResult_eq_ok hkey hrecord]
  rfl

/-- **What is left behind** depends on what is on record before: with a result that can be recorded, the
handler's writes and the record; otherwise nothing. -/
theorem inTransaction_cases (hkey : T.key = IdempotencyKey.id)
    (hhandler : ∀ {a db₁}, handler db = .ok (a, db₁) → T.rows db₁ = T.rows db) {result : Option α}
    (h : inTransaction (withJobIdempotency T sha256 now keyId info handler) db =
      .ok (result, db')) :
    (Recordable T db keyId info ∧ ∃ a db₁ row, handler db = .ok (a, db₁) ∧
      db' = T.put (T.rows db₁ ++ [row]) db₁) ∨ (¬ Recordable T db keyId info ∧ db' = db) := by
  have hsame {db₁ : σ} (hrows : T.rows db₁ = T.rows db) :
      Recordable T db₁ keyId info ↔ Recordable T db keyId info := by
    rw [Recordable, Recordable, IdempotencyRepository.find, IdempotencyRepository.find, Table.keys,
      Table.keys, hrows]
  unfold inTransaction at h
  rcases hbody : withJobIdempotency T sha256 now keyId info handler db with e | ⟨outcome, db₁⟩
  · rw [hbody] at h
    cases h
  rw [hbody] at h
  obtain ⟨rfl, rfl⟩ := Prod.mk.inj (Except.ok.inj h)
  have hbody := Tx.get_bind_eq_ok.1 hbody
  rcases hfind : completedRecord T db info.scope info.key with - | existing
  · simp only [hfind] at hbody
    obtain ⟨a, db₂, hrun, hbody⟩ := Tx.bind_eq_ok.1 hbody
    obtain ⟨aborted, db₃, hcatch, hbody⟩ := Tx.bind_eq_ok.1 hbody
    obtain ⟨rfl, rfl⟩ := Prod.mk.inj (Tx.pure_eq_ok.1 hbody)
    unfold catchUniqueViolation at hcatch
    by_cases hrecordable : Recordable T db₂ keyId info
    · obtain ⟨db₄, hrecord⟩ := recordResult_of_recordable hkey hrecordable
      rw [hrecord] at hcatch
      obtain ⟨rfl, rfl⟩ := Prod.mk.inj (Except.ok.inj hcatch)
      exact Or.inl ⟨(hsame (hhandler hrun)).1 hrecordable, a, db₂, _, hrun,
        recordResult_eq_ok hkey hrecord⟩
    · rw [recordResult_of_not_recordable hkey hrecordable] at hcatch
      obtain ⟨rfl, rfl⟩ := Prod.mk.inj (Except.ok.inj hcatch)
      exact Or.inr ⟨fun h ↦ hrecordable ((hsame (hhandler hrun)).2 h), rfl⟩
  · simp only [hfind] at hbody
    obtain ⟨_, -, hbody⟩ := Tx.check_bind_eq_ok.1 hbody
    obtain ⟨rfl, rfl⟩ := Prod.mk.inj (Tx.pure_eq_ok.1 hbody)
    refine Or.inr ⟨fun hrecordable ↦ ?_, rfl⟩
    rw [completedRecord, hrecordable.1] at hfind
    cases hfind

end Jobs

end TolPlatform
