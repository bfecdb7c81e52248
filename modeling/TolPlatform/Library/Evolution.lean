import Mathlib.Data.List.Nodup

/-!
# How the rows of a table evolve

Rows have a key and are never deleted; a write inserts rows under new keys or rewrites the row of one
key. Two relations between the rows before and after:

* `Evolves R`: every row lives on as a row related to it by `R`, a preorder that says which columns a
  row may change and how. What a party has read stays true of a later table up to `R`.
* `StatusLegal edges`: a row that is still there has kept its status or moved along an edge.

For both, one lemma about inserting (`…append`) and one about rewriting (`…rewrite`).
-/

namespace Rows

variable {Row Key S : Type*}

/-- Rewrite the row with key `k`. -/
def rewrite [DecidableEq Key] (key : Row → Key) (k : Key) (f : Row → Row) (rows : List Row) :
    List Row :=
  rows.map fun r ↦ if key r = k then f r else r

/-! ### Rows that live on -/

section

variable {R : Row → Row → Prop}

/-- Every row lives on. -/
def Evolves (R : Row → Row → Prop) (rows rows' : List Row) : Prop :=
  ∀ r ∈ rows, ∃ r' ∈ rows', R r r'

theorem Evolves.refl (hR : ∀ r, R r r) (rows : List Row) : Evolves R rows rows :=
  fun r hr ↦ ⟨r, hr, hR r⟩

theorem Evolves.append (hR : ∀ r, R r r) (rows new : List Row) : Evolves R rows (rows ++ new) :=
  fun r hr ↦ ⟨r, List.mem_append_left _ hr, hR r⟩

theorem Evolves.rewrite [DecidableEq Key] {key : Row → Key} {k : Key} {f : Row → Row}
    (hR : ∀ r, R r r) {rows : List Row} (hf : ∀ r ∈ rows, key r = k → R r (f r)) :
    Evolves R rows (rewrite key k f rows) := by
  intro r hr
  by_cases hk : key r = k
  · refine ⟨f r, ?_, hf r hr hk⟩
    exact List.mem_map.2 ⟨r, hr, if_pos hk⟩
  · refine ⟨r, ?_, hR r⟩
    exact List.mem_map.2 ⟨r, hr, if_neg hk⟩

end

/-! ### Paths -/

/-- The moves, each from where the one before it arrived, lead along edges from one status to
another. -/
def Path (edges : S → List S) : S → List (S × S) → S → Prop
  | s, [], t => s = t
  | s, move :: moves, t => move.1 = s ∧ move.2 ∈ edges s ∧ Path edges move.2 moves t

theorem Path.append {edges : S → List S} {s t u : S} {moves moves' : List (S × S)}
    (h : Path edges s moves t) (h' : Path edges t moves' u) : Path edges s (moves ++ moves') u := by
  induction moves generalizing s with
  | nil => exact (show s = t from h) ▸ h'
  | cons move moves ih =>
    obtain ⟨hfrom, hedge, hrest⟩ := h
    exact ⟨hfrom, hedge, ih hrest⟩

theorem Path.edge {edges : S → List S} {s t : S} {moves : List (S × S)} (h : Path edges s moves t)
    {move : S × S} (hmove : move ∈ moves) : move.2 ∈ edges move.1 := by
  induction moves generalizing s with
  | nil => cases hmove
  | cons first moves ih =>
    obtain ⟨hfrom, hedge, hrest⟩ := h
    rcases List.mem_cons.1 hmove with rfl | hmove
    · exact hfrom ▸ hedge
    · exact ih hrest hmove

/-! ### Status changes -/

section

variable {key : Row → Key} {status : Row → S} {edges : S → List S} {rows rows' : List Row}

/-- A row that is still there has kept its status or moved along an edge. -/
def StatusLegal (key : Row → Key) (status : Row → S) (edges : S → List S) (rows rows' : List Row) :
    Prop :=
  ∀ r ∈ rows, ∀ r' ∈ rows', key r' = key r → status r' = status r ∨ status r' ∈ edges (status r)

/-- A key names one row. -/
theorem eq_of_key_eq (hnodup : (rows.map key).Nodup) {r r' : Row} (hr : r ∈ rows) (hr' : r' ∈ rows)
    (h : key r' = key r) : r' = r :=
  List.inj_on_of_nodup_map hnodup hr' hr h

theorem StatusLegal.refl (hnodup : (rows.map key).Nodup) :
    StatusLegal key status edges rows rows := fun r hr r' hr' hk ↦
  Or.inl (by rw [eq_of_key_eq hnodup hr hr' hk])

/-- New rows are nobody's successors. -/
theorem StatusLegal.append (hnodup : (rows.map key).Nodup) {new : List Row}
    (hnew : ∀ r ∈ new, key r ∉ rows.map key) : StatusLegal key status edges rows (rows ++ new) := by
  intro r hr r' hr' hk
  rcases List.mem_append.1 hr' with hr' | hr'
  · exact StatusLegal.refl hnodup r hr r' hr' hk
  · exact absurd (List.mem_map.2 ⟨r, hr, hk.symm⟩) (hnew r' hr')

variable [DecidableEq Key] {k : Key} {f : Row → Row}

/-- A rewritten row is its predecessor's only successor. -/
theorem mem_rewrite_iff {r' : Row} : r' ∈ rewrite key k f rows ↔
    ∃ r ∈ rows, (if key r = k then f r else r) = r' :=
  List.mem_map

theorem rewrite_of_not_mem (hk : k ∉ rows.map key) : rewrite key k f rows = rows := by
  refine (List.map_congr_left fun r hr ↦ if_neg fun hkey ↦ hk ?_).trans (List.map_id rows)
  exact List.mem_map.2 ⟨r, hr, hkey⟩

/-- Rewriting a row that has just been inserted. -/
theorem rewrite_append (hk : k ∉ rows.map key) {r : Row} (hr : key r = k) :
    rewrite key k f (rows ++ [r]) = rows ++ [f r] := by
  show (rows ++ [r]).map _ = _
  rw [List.map_append, List.map_singleton, if_pos hr]
  exact congrArg (· ++ [f r]) (rewrite_of_not_mem hk)

/-- The rewritten row is found under its key. -/
theorem find_rewrite (hf : ∀ r, key (f r) = key r) (rows : List Row) :
    (rewrite key k f rows).find? (key · = k) = (rows.find? (key · = k)).map f := by
  induction rows with
  | nil => rfl
  | cons r rows ih =>
    rw [rewrite, List.map_cons, ← rewrite]
    by_cases hk : key r = k
    · have hk' : key (f r) = k := (hf r).trans hk
      simp [hk, hk']
    · simp [hk, ih]

/-- A row is found as before by columns that the rewrite leaves alone. -/
theorem find_rewrite_of {p : Row → Bool} (hp : ∀ r, p (f r) = p r) (rows : List Row) :
    (rewrite key k f rows).find? p =
      (rows.find? p).map fun r ↦ if key r = k then f r else r := by
  rw [rewrite, List.find?_map]
  refine congrArg (Option.map _) (congrArg (rows.find? ·) (funext fun r ↦ ?_))
  show p (if key r = k then f r else r) = p r
  split
  · exact hp r
  · rfl

/-- A rewrite that takes rows out of a selection. -/
theorem filter_rewrite {p : Row → Bool} (hp : ∀ r, p (f r) = false) (rows : List Row) :
    (rewrite key k f rows).filter p = (rows.filter p).filter fun r ↦ key r ≠ k := by
  induction rows with
  | nil => rfl
  | cons r rows ih =>
    rw [rewrite, List.map_cons, ← rewrite]
    by_cases hk : key r = k
    · rw [if_pos hk, List.filter_cons_of_neg (by rw [hp]; decide), ih]
      by_cases hr : p r = true
      · rw [List.filter_cons_of_pos hr, List.filter_cons_of_neg (by simpa using hk)]
      · rw [List.filter_cons_of_neg hr]
    · rw [if_neg hk]
      by_cases hr : p r = true
      · rw [List.filter_cons_of_pos hr, List.filter_cons_of_pos hr,
          List.filter_cons_of_pos (by simpa using hk), ih]
      · rw [List.filter_cons_of_neg hr, List.filter_cons_of_neg hr, ih]

/-- Two rewrites of one row. -/
theorem rewrite_rewrite {g : Row → Row} (hf : ∀ r, key (f r) = key r) (rows : List Row) :
    rewrite key k g (rewrite key k f rows) = rewrite key k (g ∘ f) rows := by
  rw [rewrite, rewrite, List.map_map]
  refine List.map_congr_left fun r _ ↦ ?_
  show (if key (if key r = k then f r else r) = k then g (if key r = k then f r else r)
    else if key r = k then f r else r) = if key r = k then g (f r) else r
  by_cases hk : key r = k
  · rw [if_pos hk, if_pos ((hf r).trans hk), if_pos hk]
  · rw [if_neg hk, if_neg hk, if_neg hk]

/-- Columns that a rewrite leaves alone. -/
theorem map_rewrite {β : Type*} {column : Row → β} (hf : ∀ r, column (f r) = column r) :
    (rewrite key k f rows).map column = rows.map column := by
  rw [rewrite, List.map_map]
  refine List.map_congr_left fun r _ ↦ ?_
  show column (if key r = k then f r else r) = column r
  split
  · exact hf r
  · rfl

/-- **A rewrite is legal exactly when it moves the one row it concerns along an edge.** -/
theorem statusLegal_rewrite_iff (hnodup : (rows.map key).Nodup) (hf : ∀ r, key (f r) = key r) :
    StatusLegal key status edges rows (rewrite key k f rows) ↔
      ∀ r ∈ rows, key r = k → status (f r) = status r ∨ status (f r) ∈ edges (status r) := by
  constructor
  · intro h r hr hk
    exact h r hr (f r) (mem_rewrite_iff.2 ⟨r, hr, if_pos hk⟩) (hf r)
  · intro h r hr r' hr' hk
    obtain ⟨r₀, hr₀, rfl⟩ := mem_rewrite_iff.1 hr'
    -- the row that was rewritten has the key of the result
    have hkey : key r₀ = key r := by
      rw [← hk]
      split
      · exact (hf r₀).symm
      · rfl
    obtain rfl := eq_of_key_eq hnodup hr hr₀ hkey
    split
    · next hk₀ => exact h r₀ hr₀ hk₀
    · exact Or.inl rfl

omit [DecidableEq Key] in
/-- Keys stay distinct under an insertion of new, distinct keys. -/
theorem nodup_append (hnodup : (rows.map key).Nodup) {new : List Row}
    (hnew : ∀ r ∈ new, key r ∉ rows.map key) (hnewNodup : (new.map key).Nodup) :
    ((rows ++ new).map key).Nodup := by
  rw [List.map_append]
  refine hnodup.append hnewNodup fun k hk hk' ↦ ?_
  obtain ⟨r, hr, rfl⟩ := List.mem_map.1 hk'
  exact hnew r hr hk

/-! ### Single writes -/

variable (key rows) in
/-- What one write makes of a table: nothing, new rows, or another version of a row. -/
inductive Change : List Row → Prop
  | kept : Change rows
  | inserted {new} : (∀ r ∈ new, key r ∉ rows.map key) → (new.map key).Nodup → Change (rows ++ new)
  | rewritten (k : Key) {f : Row → Row} : (∀ r, key (f r) = key r) → Change (rewrite key k f rows)

theorem Change.nodup (hnodup : (rows.map key).Nodup) (h : Change key rows rows') :
    (rows'.map key).Nodup := by
  cases h with
  | kept => exact hnodup
  | inserted hnew hnewNodup => exact nodup_append hnodup hnew hnewNodup
  | rewritten k hf =>
    rw [map_rewrite hf]
    exact hnodup

end

end Rows
