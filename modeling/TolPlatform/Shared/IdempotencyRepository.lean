import TolPlatform.Library.Table
import TolPlatform.Shared.Errors

/-!
# Idempotency keys

`packages/db/src/repositories/idempotency.repository.ts` over the `idempotency_keys` table, which
the API's `withIdempotency` and the worker's `withJobIdempotency` share. A row is created without a
response and gets one later. The repository is written against any database that has such a table;
the response body is a `Json` column, so its type is a parameter and `none` is JSON's `null`.
-/

namespace TolPlatform

structure IdempotencyKey (Body : Type) where
  id : Uuid
  key : String
  scope : String
  requestHash : String
  responseStatus : Option Nat := none
  responseBody : Option Body := none
  organizationId : Option Uuid
  userId : Option Uuid
  expiresAt : Instant
  deriving DecidableEq, Repr

structure CreateIdempotencyKeyInput where
  key : String
  scope : String
  requestHash : String
  organizationId : Option Uuid
  userId : Option Uuid
  expiresAt : Instant

namespace IdempotencyRepository

variable {σ Body : Type} (T : Table σ (IdempotencyKey Body) Uuid)

/-- The `@@unique([scope, key])` lookup. -/
def find (db : σ) (scope key : String) : Option (IdempotencyKey Body) :=
  (T.rows db).find? fun r ↦ r.scope = scope ∧ r.key = key

/-- Creates the row, or throws the driver's unique violation when the pair is taken. -/
def reserve (id : Uuid) (input : CreateIdempotencyKeyInput) :
    Tx σ Thrown (IdempotencyKey Body) := do
  let db ← get
  Tx.check (throwIf (find T db input.scope input.key ≠ none) .uniqueViolation)
  T.insert .uniqueViolation
    { id, key := input.key, scope := input.scope, requestHash := input.requestHash,
      organizationId := input.organizationId, userId := input.userId, expiresAt := input.expiresAt }

def complete (id : Uuid) (responseStatus : Nat) (responseBody : Option Body) :
    Tx σ Thrown (IdempotencyKey Body) :=
  T.update .recordNotFound id fun r ↦ { r with responseStatus := some responseStatus, responseBody }

/-! ### What the three calls do -/

/-- The row that `reserve` creates. -/
def reservation (id : Uuid) (input : CreateIdempotencyKeyInput) : IdempotencyKey Body :=
  { id, key := input.key, scope := input.scope, requestHash := input.requestHash,
    organizationId := input.organizationId, userId := input.userId, expiresAt := input.expiresAt }

/-- What `complete` makes of the row with its id, and of every other row. -/
def completed (id : Uuid) (responseStatus : Nat) (responseBody : Option Body)
    (row : IdempotencyKey Body) : IdempotencyKey Body :=
  if row.id = id then { row with responseStatus := some responseStatus, responseBody } else row

variable {T} {db db' : σ} {id : Uuid} {scope key : String} {row : IdempotencyKey Body}

theorem find_eq_some (h : find T db scope key = some row) :
    row ∈ T.rows db ∧ row.scope = scope ∧ row.key = key := by
  have hpair := List.find?_some h
  rw [decide_eq_true_eq] at hpair
  exact ⟨List.mem_of_find?_eq_some h, hpair.1, hpair.2⟩

/-- `reserve` creates its row unless the pair or the id is taken; then, and only then, the driver
reports a unique violation. -/
theorem reserve_eq {input : CreateIdempotencyKeyInput} :
    reserve T id input db =
      if find T db input.scope input.key ≠ none ∨ T.key (reservation id input) ∈ T.keys db then
        .error .uniqueViolation
      else .ok (reservation id input, T.put (T.rows db ++ [reservation id input]) db) := by
  show ((throwIf (find T db input.scope input.key ≠ none) .uniqueViolation).map (·, db) >>=
    fun r ↦ T.insert .uniqueViolation (reservation id input) r.2) = _
  by_cases hfree : find T db input.scope input.key = none
  · have hpass : throwIf (find T db input.scope input.key ≠ none) Thrown.uniqueViolation = .ok () :=
      throwIf_eq_ok_iff.2 (not_not.2 hfree)
    rw [hpass]
    simp only [ne_eq, hfree, not_true_eq_false, false_or]
    rfl
  · rw [throwIf, if_pos hfree, if_pos (Or.inl hfree)]
    rfl

/-- A new row is found under its own pair; every other look-up answers as before. -/
theorem find_append (hfree : find T db row.scope row.key = none) :
    find T (T.put (T.rows db ++ [row]) db) scope key =
      if row.scope = scope ∧ row.key = key then some row else find T db scope key := by
  have happ : find T (T.put (T.rows db ++ [row]) db) scope key =
      (find T db scope key).or (if row.scope = scope ∧ row.key = key then some row else none) := by
    rw [find, T.rows_put, List.find?_append, find]
    simp [List.find?_singleton]
  rw [happ]
  by_cases hpair : row.scope = scope ∧ row.key = key
  · obtain ⟨rfl, rfl⟩ := hpair
    simp [hfree]
  · simp [hpair]

theorem complete_eq_ok_iff (hkey : T.key = IdempotencyKey.id) {status : Nat} {body : Option Body} :
    complete T id status body db = .ok (row, db') ↔
      ∃ old, (T.rows db).find? (·.id = id) = some old ∧
        row = { old with responseStatus := some status, responseBody := body } ∧
        db' = T.put ((T.rows db).map (completed id status body)) db := by
  rw [complete, Table.update_eq_ok_iff, hkey]
  rfl

theorem find_complete {status : Nat} {body : Option Body} :
    find T (T.put ((T.rows db).map (completed id status body)) db) scope key =
      (find T db scope key).map (completed id status body) := by
  have hsame : ∀ r : IdempotencyKey Body, (completed id status body r).scope = r.scope ∧
      (completed id status body r).key = r.key := by
    intro r
    unfold completed
    split <;> exact ⟨rfl, rfl⟩
  rw [find, T.rows_put, List.find?_map, find]
  congr 2
  funext r
  show decide _ = decide _
  rw [(hsame r).1, (hsame r).2]

end IdempotencyRepository

end TolPlatform
