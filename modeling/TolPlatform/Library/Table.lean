import Mathlib.Data.List.Basic
import Mathlib.Data.List.Nodup
import Mathlib.Data.List.Forall2
import TolPlatform.Library.Transaction

/-!
# Tables with a primary key

A `Table` is one table of a database: how its rows are read and replaced, and the column that is its
primary key. The record of a table carries the two laws of a well-behaved field, so statements on one
table leave every other field of the database alone by construction.

* `insert` refuses a key that is taken (`insert_eq_ok_iff`).
* `insertEach` is the sequential loop over a statement that inserts one row per input. The rows it
  inserts correspond to the inputs one to one, and their keys are new and pairwise distinct
  (`insertEach_eq_ok`).
* `update` rewrites the row with a key (`update_eq_ok_iff`).
-/

/-- One table of a database `σ`. -/
structure Table (σ Row Key : Type) where
  rows : σ → List Row
  put : List Row → σ → σ
  key : Row → Key
  rows_put : ∀ l s, rows (put l s) = l := by intros; rfl
  put_put : ∀ l l' s, put l (put l' s) = put l s := by intros; rfl
  put_rows : ∀ s, put (rows s) s = s := by intros; rfl

namespace Table

variable {σ ε Row Key Input : Type} [DecidableEq Key] (T : Table σ Row Key)

/-- The keys in use. -/
def keys (s : σ) : List Key := (T.rows s).map T.key

/-- Insert a row, or throw `taken` if its key is in use. -/
def insert (taken : ε) (row : Row) : Tx σ ε Row := fun s ↦
  if T.key row ∈ T.keys s then .error taken else .ok (row, T.put (T.rows s ++ [row]) s)

/-- Rewrite the row with key `k`, or throw `missing` if there is none. -/
def update (missing : ε) (k : Key) (f : Row → Row) : Tx σ ε Row := fun s ↦
  match (T.rows s).find? (T.key · = k) with
  | none => .error missing
  | some row => .ok (f row, T.put ((T.rows s).map fun r ↦ if T.key r = k then f r else r) s)

/-- `for (const input of inputs) rows.push(await create(input))`, the `n`-th iteration drawing the
`n`-th id. -/
def insertEach (create : Key → Input → Tx σ ε Row) (ids : ℕ → Key) :
    List Input → Tx σ ε (List Row)
  | [] => pure []
  | input :: rest => do
    let row ← create (ids 0) input
    let more ← insertEach create (fun n ↦ ids (n + 1)) rest
    return row :: more

variable {T} {s s' : σ} {row : Row}

theorem insert_eq_ok_iff {taken : ε} {r : Row} : T.insert taken row s = .ok (r, s') ↔
    T.key row ∉ T.keys s ∧ r = row ∧ s' = T.put (T.rows s ++ [row]) s := by
  by_cases hk : T.key row ∈ T.keys s
  · simp [insert, hk]
  · simp [insert, hk, eq_comm]

theorem update_eq_ok_iff {missing : ε} {k : Key} {f : Row → Row} {r : Row} :
    T.update missing k f s = .ok (r, s') ↔
      ∃ old, (T.rows s).find? (T.key · = k) = some old ∧ r = f old ∧
        s' = T.put ((T.rows s).map fun r ↦ if T.key r = k then f r else r) s := by
  rcases hf : (T.rows s).find? (T.key · = k) with - | old
  · simp [update, hf]
  · simp only [update, hf, Option.some.injEq, exists_eq_left', Except.ok.injEq, Prod.mk.injEq]
    rw [eq_comm (a := f old), eq_comm (b := s')]

/-- A key that is there can be rewritten. -/
theorem exists_update_eq_ok {missing : ε} {k : Key} (f : Row → Row) (h : k ∈ T.keys s) :
    ∃ row, T.update missing k f s =
      .ok (row, T.put ((T.rows s).map fun r ↦ if T.key r = k then f r else r) s) := by
  obtain ⟨old, hold, hkey⟩ := List.mem_map.1 h
  obtain ⟨found, hfound⟩ : ∃ found, (T.rows s).find? (T.key · = k) = some found :=
    Option.isSome_iff_exists.1 (List.find?_isSome.2 ⟨old, hold, decide_eq_true hkey⟩)
  exact ⟨f found, update_eq_ok_iff.2 ⟨found, hfound, rfl, rfl⟩⟩

/-- Statements on one table do not see the others. -/
structure Apart (T : Table σ Row Key) (φ : σ → σ) : Prop where
  rows : ∀ s, T.rows (φ s) = T.rows s
  put : ∀ l s, T.put l (φ s) = φ (T.put l s)

theorem Apart.insert {φ : σ → σ} (h : T.Apart φ) (taken : ε) (row : Row) :
    (T.insert taken row).Blind φ := by
  intro s
  rw [Table.insert, Table.insert, keys, h.rows, h.put, ← keys]
  split <;> rfl

theorem Apart.update {φ : σ → σ} (h : T.Apart φ) (missing : ε) (k : Key) (f : Row → Row) :
    (T.update missing k f).Blind φ := by
  intro s
  rw [Table.update, Table.update, h.rows, h.put]
  rcases (T.rows s).find? (T.key · = k) with - | row <;> rfl

omit [DecidableEq Key] in
/-- **The insertion loop.** If one `create` inserts one row with the id it was given and stands in
relation `R` to its input, the loop inserts one row per input, with new and distinct ids. -/
theorem insertEach_eq_ok {create : Key → Input → Tx σ ε Row} {R : Input → Row → Prop}
    (hcreate : ∀ {id input s row s'}, create id input s = .ok (row, s') →
      R input row ∧ T.key row ∉ T.keys s ∧ s' = T.put (T.rows s ++ [row]) s) :
    ∀ {inputs : List Input} {ids : ℕ → Key} {s s' : σ} {rows : List Row},
      insertEach create ids inputs s = .ok (rows, s') →
        s' = T.put (T.rows s ++ rows) s ∧ List.Forall₂ R inputs rows ∧ (rows.map T.key).Nodup ∧
          ∀ row ∈ rows, T.key row ∉ T.keys s := by
  intro inputs
  induction inputs with
  | nil =>
    intro ids s s' rows h
    obtain ⟨rfl, rfl⟩ := Prod.mk.inj (Tx.pure_eq_ok.1 h)
    exact ⟨by rw [List.append_nil, T.put_rows], .nil, List.nodup_nil, by simp⟩
  | cons input rest ih =>
    intro ids s s' rows h
    obtain ⟨row, s₁, hrow, h⟩ := Tx.bind_eq_ok.1 h
    obtain ⟨more, s₂, hmore, h⟩ := Tx.bind_eq_ok.1 h
    obtain ⟨rfl, rfl⟩ := Prod.mk.inj (Tx.pure_eq_ok.1 h)
    obtain ⟨hR, hfresh, rfl⟩ := hcreate hrow
    obtain ⟨hs, hRs, hnodup, hnew⟩ := ih hmore
    -- the keys in use once the first row is in
    have hkeys : T.keys (T.put (T.rows s ++ [row]) s) = T.keys s ++ [T.key row] := by
      rw [keys, T.rows_put, List.map_append]
      rfl
    have hnew' : ∀ r ∈ more, T.key r ∉ T.keys s ∧ T.key r ≠ T.key row := by
      intro r hr
      have h := hnew r hr
      rw [hkeys] at h
      simpa using h
    refine ⟨?_, .cons hR hRs, ?_, ?_⟩
    · rw [hs, T.rows_put, T.put_put, List.append_assoc]
      rfl
    · rw [List.map_cons, List.nodup_cons]
      refine ⟨fun hmem ↦ ?_, hnodup⟩
      obtain ⟨r, hr, hkey⟩ := List.mem_map.1 hmem
      exact (hnew' r hr).2 hkey
    · intro r hr
      rcases List.mem_cons.1 hr with rfl | hr
      · exact hfresh
      · exact (hnew' r hr).1

omit [DecidableEq Key] in
/-- Inserting new, distinct keys keeps keys distinct. -/
theorem keys_nodup_append {rows : List Row} (h : (T.keys s).Nodup)
    (hnodup : (rows.map T.key).Nodup) (hnew : ∀ row ∈ rows, T.key row ∉ T.keys s) :
    ((T.rows s ++ rows).map T.key).Nodup := by
  rw [List.map_append]
  refine h.append hnodup fun k hk hk' ↦ ?_
  obtain ⟨row, hrow, rfl⟩ := List.mem_map.1 hk'
  exact hnew row hrow hk

end Table
