import TolPlatform.Library.Evolution
import TolPlatform.Library.LockedCalls
import TolPlatform.Library.Refinement
import TolPlatform.Library.Table

/-!
# Journals

A journal is a column of a database that transactions only append to. What a body appends is known from its
result (`Tx.Appends`), statement by statement; a body that appends nothing keeps the column (`Tx.Keeps`).
When every step of a party system appends what an observer can see of it, the journal after a run is what
has been seen of the run, entry by entry and in order (`PartySystem.journal_of_run`).

A journal *tells* a status when the last entry about a key says it. `Rows.Told` says this of every row of a
table; it survives an entry that says what has been written (`Rows.Told.written`).
-/

namespace Tx

variable {σ ε ω α β : Type} {journal : σ → List ω} {entries : α → List ω}

/-- A body that leaves a column alone. -/
def Keeps {γ : Type} (column : σ → γ) (body : Tx σ ε α) : Prop :=
  ∀ ⦃s a s'⦄, body s = .ok (a, s') → column s' = column s

/-- A body that appends to the journal, and what, by its result. -/
def Appends (journal : σ → List ω) (body : Tx σ ε α) (entries : α → List ω) : Prop :=
  ∀ ⦃s a s'⦄, body s = .ok (a, s') → journal s' = journal s ++ entries a

/-! ### Keeping a column -/

section

variable {γ : Type} {column : σ → γ}

theorem keeps_pure (a : α) : Keeps column (pure a : Tx σ ε α) := by
  intro s b s' h
  obtain ⟨-, rfl⟩ := Prod.mk.inj (pure_eq_ok.1 h)
  rfl

theorem keeps_check (x : Except ε α) : Keeps column (check x : Tx σ ε α) := by
  intro s a s' h
  obtain ⟨-, rfl⟩ := check_eq_ok.1 h
  rfl

theorem keeps_get : Keeps column (get : Tx σ ε σ) := by
  intro s a s' h
  obtain ⟨-, rfl⟩ := Prod.mk.inj (Except.ok.inj h)
  rfl

theorem keeps_modify {g : σ → σ} (h : ∀ s, column (g s) = column s) :
    Keeps column (modify g : Tx σ ε PUnit) := by
  intro s a s' hret
  obtain ⟨-, rfl⟩ := Prod.mk.inj (Except.ok.inj hret)
  exact h s

theorem Keeps.bind {x : Tx σ ε α} {f : α → Tx σ ε β} (hx : Keeps column x)
    (hf : ∀ a, Keeps column (f a)) : Keeps column (x >>= f) := by
  intro s b s' h
  obtain ⟨a, s₁, hret, h⟩ := bind_eq_ok.1 h
  exact (hf a h).trans (hx hret)

theorem Keeps.ite {c : Prop} [Decidable c] {x y : Tx σ ε α} (hx : Keeps column x)
    (hy : Keeps column y) : Keeps column (if c then x else y) := by
  split
  · exact hx
  · exact hy

end

/-! ### Appending -/

theorem Keeps.appends {body : Tx σ ε α} (h : Keeps journal body) :
    Appends journal body fun _ ↦ [] := by
  intro s a s' hret
  rw [h hret, List.append_nil]

theorem appends_modify {g : σ → σ} {new : List ω} (h : ∀ s, journal (g s) = journal s ++ new) :
    Appends journal (modify g : Tx σ ε PUnit) fun _ ↦ new := by
  intro s a s' hret
  obtain ⟨-, rfl⟩ := Prod.mk.inj (Except.ok.inj hret)
  exact h s

/-- Statements that append nothing, and what comes after them. -/
theorem Keeps.bind_appends {x : Tx σ ε α} {f : α → Tx σ ε β} {entries : β → List ω}
    (hx : Keeps journal x) (hf : ∀ a, Appends journal (f a) entries) :
    Appends journal (x >>= f) entries := by
  intro s b s' h
  obtain ⟨a, s₁, hret, h⟩ := bind_eq_ok.1 h
  rw [hf a h, hx hret]

/-- A statement that appends, and then more of them. -/
theorem Appends.bind {x : Tx σ ε α} {f : α → Tx σ ε β} {first : List ω} {entries : β → List ω}
    (hx : Appends journal x fun _ ↦ first) (hf : ∀ a, Appends journal (f a) entries) :
    Appends journal (x >>= f) fun b ↦ first ++ entries b := by
  intro s b s' h
  obtain ⟨a, s₁, hret, h⟩ := bind_eq_ok.1 h
  rw [hf a h, hx hret, List.append_assoc]

/-- A statement that appends, at the end of a body. -/
theorem Appends.bind_pure {x : Tx σ ε α} {b : β} {entries : β → List ω}
    (hx : Appends journal x fun _ ↦ entries b) : Appends journal (x >>= fun _ ↦ pure b) entries := by
  intro s c s' h
  obtain ⟨a, s₁, hret, h⟩ := bind_eq_ok.1 h
  obtain ⟨rfl, rfl⟩ := Prod.mk.inj (pure_eq_ok.1 h)
  exact hx hret

end Tx

namespace Table

variable {σ ε γ Row Key Input : Type} [DecidableEq Key] {T : Table σ Row Key} {column : σ → γ}

theorem keeps_insert (h : ∀ rows s, column (T.put rows s) = column s) (taken : ε) (row : Row) :
    Tx.Keeps column (T.insert taken row) := by
  intro s a s' hret
  obtain ⟨-, -, rfl⟩ := insert_eq_ok_iff.1 hret
  exact h _ _

theorem keeps_update (h : ∀ rows s, column (T.put rows s) = column s) (missing : ε) (k : Key)
    (f : Row → Row) : Tx.Keeps column (T.update missing k f) := by
  intro s a s' hret
  obtain ⟨-, -, -, rfl⟩ := update_eq_ok_iff.1 hret
  exact h _ _

omit [DecidableEq Key] in
theorem keeps_insertEach {create : Key → Input → Tx σ ε Row}
    (hcreate : ∀ id input, Tx.Keeps column (create id input)) (ids : ℕ → Key) (inputs : List Input) :
    Tx.Keeps column (insertEach create ids inputs) := by
  induction inputs generalizing ids with
  | nil => exact Tx.keeps_pure _
  | cons input rest ih => exact (hcreate _ _).bind fun _ ↦ (ih _).bind fun _ ↦ Tx.keeps_pure _

end Table

namespace PartySystem

variable {Pid Env Shared Local ω : Type*} [DecidableEq Pid] {S : PartySystem Pid Env Shared Local}
  {observe : Observation Pid Shared Local ω} {J : Shared → List ω}
  {I : Config Pid Shared Local → Prop}

/-- **The journal is what has been seen.** -/
theorem journal_of_run (hI : ∀ {c p e c'}, I c → S.fire c p e = some c' → I c')
    (hfire : ∀ {c p e c'}, I c → S.fire c p e = some c' →
      J c'.shared = J c.shared ++ (observe c p c').toList)
    {c c' : Config Pid Shared Local} (hc : I c) {steps : List (Pid × Env)}
    (hrun : S.run c steps = some c') :
    J c'.shared = J c.shared ++ S.eventsAlong observe c steps := by
  induction steps generalizing c with
  | nil =>
    rw [← Option.some.inj hrun]
    exact (List.append_nil _).symm
  | cons step rest ih =>
    obtain ⟨p, e⟩ := step
    obtain ⟨c₁, hstep, hrest⟩ := Option.bind_eq_some_iff.1 hrun
    rw [ih (hI hc hstep) hrest, hfire hc hstep, eventsAlong_cons hstep, List.append_assoc]

end PartySystem

namespace Rows

variable {Row Key S ω : Type*} [DecidableEq Key] {tells : ω → Option (Key × S)} {key : Row → Key}
  {status : Row → S} {journal new : List ω} {rows rows' : List Row} {k : Key} {s : S}

/-- What the last entry about a key says. -/
def lastTold (tells : ω → Option (Key × S)) (journal : List ω) (k : Key) : Option S :=
  (((journal.filterMap tells).filter (·.1 = k)).getLast?).map (·.2)

variable (tells key status) in
/-- The journal tells the status of every row. -/
def Told (journal : List ω) (rows : List Row) : Prop :=
  ∀ r ∈ rows, lastTold tells journal (key r) = some (status r)

/-- An entry about one key. -/
theorem lastTold_append (hnew : new.filterMap tells = [(k, s)]) (k' : Key) :
    lastTold tells (journal ++ new) k' = if k' = k then some s else lastTold tells journal k' := by
  rw [lastTold, List.filterMap_append, hnew, List.filter_append]
  by_cases hk : k' = k
  · subst hk
    rw [if_pos rfl, List.filter_cons_of_pos (by simp), List.filter_nil, List.getLast?_concat]
    rfl
  · rw [if_neg hk, List.filter_cons_of_neg (by simpa using Ne.symm hk), List.filter_nil,
      List.append_nil]
    rfl

/-- Entries that say nothing of a status. -/
theorem Told.silent (h : Told tells key status journal rows) (hnew : new.filterMap tells = []) :
    Told tells key status (journal ++ new) rows := by
  intro r hr
  rw [lastTold, List.filterMap_append, hnew, List.append_nil]
  exact h r hr

/-- **An entry that says what has been written.** -/
theorem Told.written (h : Told tells key status journal rows) (hnew : new.filterMap tells = [(k, s)])
    (hwritten : ∀ r' ∈ rows', (key r' = k ∧ status r' = s) ∨
      (key r' ≠ k ∧ ∃ r ∈ rows, key r = key r' ∧ status r = status r')) :
    Told tells key status (journal ++ new) rows' := by
  intro r' hr'
  rw [lastTold_append hnew]
  rcases hwritten r' hr' with ⟨hk, hs⟩ | ⟨hk, r, hr, hkey, hs⟩
  · rw [if_pos hk, hs]
  · rw [if_neg hk, ← hkey, ← hs]
    exact h r hr

/-- A new row and an entry about it. -/
theorem Told.inserted (h : Told tells key status journal rows) {row : Row}
    (hfresh : key row ∉ rows.map key) (hnew : new.filterMap tells = [(key row, status row)]) :
    Told tells key status (journal ++ new) (rows ++ [row]) := by
  refine h.written hnew fun r' hr' ↦ ?_
  rcases List.mem_append.1 hr' with hr' | hr'
  · exact Or.inr ⟨fun hk ↦ hfresh (List.mem_map.2 ⟨r', hr', hk⟩), r', hr', rfl, rfl⟩
  · rw [List.mem_singleton.1 hr']
    exact Or.inl ⟨rfl, rfl⟩

/-- A status that is written, and an entry about it. -/
theorem Told.rewritten (h : Told tells key status journal rows) {f : Row → Row}
    (hkey : ∀ r, key (f r) = key r) (hstatus : ∀ r, status (f r) = s)
    (hnew : new.filterMap tells = [(k, s)]) :
    Told tells key status (journal ++ new) (rewrite key k f rows) := by
  refine h.written hnew fun r' hr' ↦ ?_
  obtain ⟨r, hr, rfl⟩ := mem_rewrite_iff.1 hr'
  by_cases hk : key r = k
  · rw [if_pos hk]
    exact Or.inl ⟨(hkey r).trans hk, hstatus r⟩
  · rw [if_neg hk]
    exact Or.inr ⟨hk, r, hr, rfl, rfl⟩

end Rows
