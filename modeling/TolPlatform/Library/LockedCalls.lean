import TolPlatform.Library.AdvisoryLock
import TolPlatform.Library.Interleaving
import TolPlatform.Library.Transaction

/-!
# Calls that read, lock and commit

A service call against a database, as other calls can observe it: single reads, at any time; then
perhaps a wait for an advisory lock; reads under the lock; and one transaction body that commits all
of its writes at once and gives the lock up. `CallSystem.next` says which of these a local state does
next, and `CallSystem.system` interleaves any number of such calls. A call may crash at any point:
its open transaction and its locks are then gone.

A client says by `held` which key a local state is under (`LockDiscipline`). That a call between its
lock and its commit really holds the key is then proved here, once (`LockDiscipline.holds`), and with
it the proof rule `Outline.sound`: what a call asserts has to survive only the commits of calls that
are *not* under the same key.
-/

/-- What a local state does next. -/
inductive NextStep (σ ε Key Local : Type)
  /-- Read, and go on with what was read or end with what was thrown. -/
  | query (f : σ → Except ε Local)
  /-- Wait for a key. -/
  | lock (key : Key) (l : Local)
  /-- Run a transaction body to its end. -/
  | commit (body : Tx σ ε Local)
  /-- Nothing: the call has ended. -/
  | stop

/-- What the environment decides: the draws of the step, or that the party crashes. -/
inductive Tick (Draws : Type)
  | act (draws : Draws)
  | crash

/-- Calls over a database `σ`. -/
structure CallSystem (σ ε Key Draws Local : Type) where
  next : Draws → Local → NextStep σ ε Key Local
  /-- A call that has ended cannot crash any more. -/
  ended : Local → Bool
  /-- Where a call that threw ends. -/
  failed : ε → Local
  crashed : Local

namespace CallSystem

variable {σ ε Key Draws Local Pid : Type} [DecidableEq Key] [DecidableEq Pid]

/-- The database and its locks. -/
structure Shared (σ Key Pid : Type) where
  db : σ
  locks : LockTable Key Pid

namespace Shared

/-- The party's transaction ends with the database `db`. -/
def close (s : Shared σ Key Pid) (p : Pid) (db : σ) : Shared σ Key Pid :=
  ⟨db, s.locks.release p⟩

end Shared

variable (C : CallSystem σ ε Key Draws Local)

/-- The step of a party that does not crash. -/
def act (p : Pid) (d : Draws) (s : Shared σ Key Pid) (l : Local) :
    Option (Shared σ Key Pid × Local) :=
  match C.next d l with
  | .query f =>
    match f s.db with
    | .ok l' => some (s, l')
    | .error e => some (s.close p s.db, C.failed e)
  | .lock key l' => (s.locks.acquire key p).map fun locks ↦ ({ s with locks }, l')
  | .commit body =>
    match body s.db with
    | .ok (l', db) => some (s.close p db, l')
    | .error e => some (s.close p s.db, C.failed e)
  | .stop => none

/-- All calls together. -/
def system (Pid : Type) [DecidableEq Pid] :
    PartySystem Pid (Tick Draws) (Shared σ Key Pid) Local where
  step p
    | .act d, s, l => C.act p d s l
    | .crash, s, l => if C.ended l then none else some (s.close p s.db, C.crashed)

/-! ### What a step can do -/

/-- The kinds of steps. -/
inductive Transition (p : Pid) (s : Shared σ Key Pid) (l : Local) :
    Tick Draws → Shared σ Key Pid → Local → Prop
  | queried {d f l'} : C.next d l = .query f → f s.db = .ok l' → Transition p s l (.act d) s l'
  | locked {d key l' locks} : C.next d l = .lock key l' → s.locks.acquire key p = some locks →
      Transition p s l (.act d) { s with locks } l'
  | committed {d body l' db} : C.next d l = .commit body → body s.db = .ok (l', db) →
      Transition p s l (.act d) (s.close p db) l'
  | failed {d e} : Transition p s l (.act d) (s.close p s.db) (C.failed e)
  | crashed : Transition p s l .crash (s.close p s.db) C.crashed

variable {C} {p : Pid} {s s' : Shared σ Key Pid} {l l' : Local} {t : Tick Draws}

/-- **Every step is a transition.** -/
theorem step_cases (h : (C.system Pid).step p t s l = some (s', l')) :
    C.Transition p s l t s' l' := by
  cases t with
  | crash =>
    replace h : (if C.ended l then none else some (s.close p s.db, C.crashed)) = some (s', l') := h
    split_ifs at h
    obtain ⟨rfl, rfl⟩ := Prod.mk.inj (Option.some.inj h)
    exact .crashed
  | act d =>
    replace h : C.act p d s l = some (s', l') := h
    rw [act] at h
    rcases hnext : C.next d l with f | ⟨key, l₁⟩ | body | -
    · rw [hnext] at h
      rcases hf : f s.db with e | l₁
      · simp only [hf] at h
        obtain ⟨rfl, rfl⟩ := Prod.mk.inj (Option.some.inj h)
        exact .failed
      · simp only [hf] at h
        obtain ⟨rfl, rfl⟩ := Prod.mk.inj (Option.some.inj h)
        exact .queried hnext hf
    · rw [hnext] at h
      obtain ⟨locks, hlocks, hret⟩ := Option.map_eq_some_iff.1 h
      obtain ⟨rfl, rfl⟩ := Prod.mk.inj hret
      exact .locked hnext hlocks
    · rw [hnext] at h
      rcases hbody : body s.db with e | ⟨l₁, db⟩
      · simp only [hbody] at h
        obtain ⟨rfl, rfl⟩ := Prod.mk.inj (Option.some.inj h)
        exact .failed
      · simp only [hbody] at h
        obtain ⟨rfl, rfl⟩ := Prod.mk.inj (Option.some.inj h)
        exact .committed hnext hbody
    · rw [hnext] at h
      cases h

/-- A step of the whole system is a transition of its party. -/
theorem transition_of_fire {c c' : PartySystem.Config Pid (Shared σ Key Pid) Local}
    (h : (C.system Pid).fire c p t = some c') :
    C.Transition p c.shared (c.locals p) t c'.shared (c'.locals p) :=
  step_cases (PartySystem.step_of_fire h)

/-- A party that is about to commit a body that succeeds commits it, unless it crashes. -/
theorem commit_of_fire {c c' : PartySystem.Config Pid (Shared σ Key Pid) Local} {d : Draws}
    (h : (C.system Pid).fire c p (.act d) = some c') {body : Tx σ ε Local} {db : σ}
    (hnext : C.next d (c.locals p) = .commit body) (hbody : body c.shared.db = .ok (l', db)) :
    c'.shared.db = db ∧ c'.locals p = l' := by
  have hstep : C.act p d c.shared (c.locals p) = some (c'.shared, c'.locals p) :=
    PartySystem.step_of_fire h
  rw [act, hnext] at hstep
  simp only [hbody] at hstep
  obtain ⟨hshared, hlocal⟩ := Prod.mk.inj (Option.some.inj hstep)
  exact ⟨by rw [← hshared]; rfl, hlocal.symm⟩

/-- A party that reads goes on with what it has read, unless it crashes. -/
theorem query_of_fire {c c' : PartySystem.Config Pid (Shared σ Key Pid) Local} {d : Draws}
    (h : (C.system Pid).fire c p (.act d) = some c') {f : σ → Except ε Local}
    (hnext : C.next d (c.locals p) = .query f) (hf : f c.shared.db = .ok l') :
    c'.shared.db = c.shared.db ∧ c'.locals p = l' := by
  have hstep : C.act p d c.shared (c.locals p) = some (c'.shared, c'.locals p) :=
    PartySystem.step_of_fire h
  rw [act, hnext] at hstep
  simp only [hf] at hstep
  obtain ⟨hshared, hlocal⟩ := Prod.mk.inj (Option.some.inj hstep)
  exact ⟨by rw [← hshared], hlocal.symm⟩

/-- One whose read throws ends with it. -/
theorem throw_of_fire {c c' : PartySystem.Config Pid (Shared σ Key Pid) Local} {d : Draws}
    (h : (C.system Pid).fire c p (.act d) = some c') {f : σ → Except ε Local} {e : ε}
    (hnext : C.next d (c.locals p) = .query f) (hf : f c.shared.db = .error e) :
    c'.shared.db = c.shared.db ∧ c'.locals p = C.failed e := by
  have hstep : C.act p d c.shared (c.locals p) = some (c'.shared, c'.locals p) :=
    PartySystem.step_of_fire h
  rw [act, hnext] at hstep
  simp only [hf] at hstep
  obtain ⟨hshared, hlocal⟩ := Prod.mk.inj (Option.some.inj hstep)
  exact ⟨by rw [← hshared]; rfl, hlocal.symm⟩

/-- What a party that reads does. -/
theorem act_of_query {d : Draws} {f : σ → Except ε Local} (hnext : C.next d l = .query f)
    (hf : f s.db = .ok l') : C.act p d s l = some (s, l') := by
  rw [act, hnext]
  simp only [hf]

/-- A key that nobody holds is got. -/
theorem act_of_lock {d : Draws} {key : Key} (hnext : C.next d l = .lock key l')
    (hfree : s.locks.holder key = none) : ∃ locks, C.act p d s l = some (⟨s.db, locks⟩, l') := by
  refine ⟨⟨Function.update s.locks.holder key (some p)⟩, ?_⟩
  rw [act, hnext]
  exact Option.map_eq_some_iff.2 ⟨_, LockTable.acquire_eq_some_iff.2 (Or.inl ⟨hfree, rfl⟩), rfl⟩

theorem act_of_commit {d : Draws} {body : Tx σ ε Local} {db : σ} (hnext : C.next d l = .commit body)
    (hbody : body s.db = .ok (l', db)) : C.act p d s l = some (s.close p db, l') := by
  rw [act, hnext]
  simp only [hbody]

/-- A party that reads can do so at any time. -/
theorem exists_fire_of_query {c : PartySystem.Config Pid (Shared σ Key Pid) Local} {d : Draws}
    {f : σ → Except ε Local} (hnext : C.next d (c.locals p) = .query f)
    (hf : f c.shared.db = .ok l') : ∃ c', (C.system Pid).fire c p (.act d) = some c' ∧
      c'.shared = c.shared ∧ c'.locals p = l' :=
  ⟨_, PartySystem.fire_eq_some_iff.2 ⟨_, _, act_of_query hnext hf, rfl⟩, rfl, Function.update_self _ _ _⟩

/-- One that waits for a key that nobody holds can have it. -/
theorem exists_fire_of_lock {c : PartySystem.Config Pid (Shared σ Key Pid) Local} {d : Draws} {key : Key}
    (hnext : C.next d (c.locals p) = .lock key l') (hfree : c.shared.locks.holder key = none) :
    ∃ c', (C.system Pid).fire c p (.act d) = some c' ∧ c'.shared.db = c.shared.db ∧
      c'.shared.locks.holder = Function.update c.shared.locks.holder key (some p) ∧
      c'.locals p = l' := by
  have hact : C.act p d c.shared (c.locals p) =
      some (⟨c.shared.db, ⟨Function.update c.shared.locks.holder key (some p)⟩⟩, l') := by
    rw [act, hnext]
    exact Option.map_eq_some_iff.2 ⟨_, LockTable.acquire_eq_some_iff.2 (Or.inl ⟨hfree, rfl⟩), rfl⟩
  exact ⟨_, PartySystem.fire_eq_some_iff.2 ⟨_, _, hact, rfl⟩, rfl, rfl, Function.update_self _ _ _⟩

/-- A body that succeeds can be committed. -/
theorem exists_fire_of_commit {c : PartySystem.Config Pid (Shared σ Key Pid) Local} {d : Draws}
    {body : Tx σ ε Local} {db : σ} (hnext : C.next d (c.locals p) = .commit body)
    (hbody : body c.shared.db = .ok (l', db)) : ∃ c', (C.system Pid).fire c p (.act d) = some c' ∧
      c'.shared = c.shared.close p db ∧ c'.locals p = l' :=
  ⟨_, PartySystem.fire_eq_some_iff.2 ⟨_, _, act_of_commit hnext hbody, rfl⟩, rfl,
    Function.update_self _ _ _⟩

/-- One that waits for a key and moves has got it. -/
theorem lock_of_fire {c c' : PartySystem.Config Pid (Shared σ Key Pid) Local} {d : Draws}
    (h : (C.system Pid).fire c p (.act d) = some c') {key : Key}
    (hnext : C.next d (c.locals p) = .lock key l') :
    c'.shared.db = c.shared.db ∧ c'.locals p = l' := by
  have hstep : C.act p d c.shared (c.locals p) = some (c'.shared, c'.locals p) :=
    PartySystem.step_of_fire h
  rw [act, hnext] at hstep
  obtain ⟨locks, -, hret⟩ := Option.map_eq_some_iff.1 hstep
  obtain ⟨hshared, hlocal⟩ := Prod.mk.inj hret
  exact ⟨by rw [← hshared], hlocal.symm⟩

/-- One that has ended does not move. -/
theorem not_fire_of_stop {c c' : PartySystem.Config Pid (Shared σ Key Pid) Local}
    (hstop : ∀ d, C.next d (c.locals p) = .stop) (hended : C.ended (c.locals p) = true) :
    (C.system Pid).fire c p t ≠ some c' := by
  intro h
  have hstep := PartySystem.step_of_fire h
  cases t with
  | crash =>
    replace hstep : (if C.ended (c.locals p) then none else some (c.shared.close p c.shared.db,
      C.crashed)) = some (c'.shared, c'.locals p) := hstep
    rw [if_pos hended] at hstep
    cases hstep
  | act d =>
    replace hstep : C.act p d c.shared (c.locals p) = some (c'.shared, c'.locals p) := hstep
    rw [act, hstop d] at hstep
    cases hstep

/-- **Only a commit changes the database.** -/
theorem Transition.db_cases (h : C.Transition p s l t s' l') :
    s'.db = s.db ∨
      ∃ d body, t = .act d ∧ C.next d l = .commit body ∧ body s.db = .ok (l', s'.db) := by
  cases h with
  | committed hnext hbody => exact Or.inr ⟨_, _, rfl, hnext, hbody⟩
  | _ => exact Or.inl rfl

variable (C) in
/-- The party's step commits a body that succeeds. -/
def Commits (c : PartySystem.Config Pid (Shared σ Key Pid) Local) (p : Pid) (t : Tick Draws) : Prop :=
  ∃ d body r, t = .act d ∧ C.next d (c.locals p) = .commit body ∧ body c.shared.db = .ok r

/-- A step either commits, and then the body decides, or leaves the database alone. -/
theorem commits_or_not {c c' : PartySystem.Config Pid (Shared σ Key Pid) Local}
    (h : (C.system Pid).fire c p t = some c') :
    (¬ C.Commits c p t ∧ c'.shared.db = c.shared.db) ∨
      C.Commits c p t ∧ ∃ d body, C.next d (c.locals p) = .commit body ∧
        body c.shared.db = .ok (c'.locals p, c'.shared.db) := by
  have hcases := (transition_of_fire h).db_cases
  by_cases hcommits : C.Commits c p t
  · obtain ⟨d, body, ⟨l', db⟩, rfl, hnext, hbody⟩ := hcommits
    obtain ⟨hdb, hl'⟩ := commit_of_fire h hnext hbody
    exact Or.inr ⟨⟨d, body, _, rfl, hnext, hbody⟩, d, body, hnext, by rw [hbody, hdb, hl']⟩
  · rcases hcases with hdb | ⟨d, body, ht, hnext, hbody⟩
    · exact Or.inl ⟨hcommits, hdb⟩
    · exact absurd ⟨d, body, _, ht, hnext, hbody⟩ hcommits

/-- The same database with `φ` applied to it. -/
def Shared.over (φ : σ → σ) (s : Shared σ Key Pid) : Shared σ Key Pid := ⟨φ s.db, s.locks⟩

variable (C) in
/-- What a local state does next does not depend on what `φ` replaces. -/
structure BlindAt (φ : σ → σ) (l : Local) : Prop where
  queries : ∀ {d f}, C.next d l = .query f → ∀ s, f (φ s) = f s
  commits : ∀ {d body}, C.next d l = .commit body → body.Blind φ

/-- **A step that is blind to a part of the database** is the same step whatever that part is. -/
theorem BlindAt.fire {φ : σ → σ} {c c' : PartySystem.Config Pid (Shared σ Key Pid) Local}
    (hblind : C.BlindAt φ (c.locals p)) (h : (C.system Pid).fire c p t = some c') :
    (C.system Pid).fire ⟨c.shared.over φ, c.locals⟩ p t = some ⟨c'.shared.over φ, c'.locals⟩ := by
  obtain ⟨s', l', hstep, rfl⟩ := PartySystem.fire_eq_some_iff.1 h
  refine PartySystem.fire_eq_some_iff.2 ⟨s'.over φ, l', ?_, rfl⟩
  show (C.system Pid).step p t (c.shared.over φ) (c.locals p) = _
  cases t with
  | crash =>
    replace hstep : (if C.ended (c.locals p) then none else some (c.shared.close p c.shared.db,
      C.crashed)) = some (s', l') := hstep
    show (if C.ended (c.locals p) then none else some ((c.shared.over φ).close p (φ c.shared.db),
      C.crashed)) = _
    split_ifs at hstep ⊢
    obtain ⟨rfl, rfl⟩ := Prod.mk.inj (Option.some.inj hstep)
    rfl
  | act d =>
    replace hstep : C.act p d c.shared (c.locals p) = some (s', l') := hstep
    show C.act p d (c.shared.over φ) (c.locals p) = _
    unfold act at hstep ⊢
    rcases hnext : C.next d (c.locals p) with f | ⟨key, l₁⟩ | body | -
    · simp only [hnext] at hstep ⊢
      rw [show f (c.shared.over φ).db = f c.shared.db from hblind.queries hnext _]
      rcases hf : f c.shared.db with e | l₁ <;> simp only [hf] at hstep ⊢ <;>
        · obtain ⟨rfl, rfl⟩ := Prod.mk.inj (Option.some.inj hstep)
          rfl
    · simp only [hnext] at hstep ⊢
      obtain ⟨locks, hlocks, hret⟩ := Option.map_eq_some_iff.1 hstep
      obtain ⟨rfl, rfl⟩ := Prod.mk.inj hret
      exact Option.map_eq_some_iff.2 ⟨locks, hlocks, rfl⟩
    · simp only [hnext] at hstep ⊢
      rw [show body (c.shared.over φ).db = _ from hblind.commits hnext _]
      rcases hbody : body c.shared.db with e | ⟨l₁, db⟩ <;> simp only [hbody] at hstep <;>
        · obtain ⟨rfl, rfl⟩ := Prod.mk.inj (Option.some.inj hstep)
          rfl
    · simp only [hnext] at hstep
      cases hstep

/-- A key outlives every step of another party. -/
theorem Transition.holds {q : Pid} {key : Key} (hq : q ≠ p) (hholds : s.locks.Holds q key)
    (h : C.Transition p s l t s' l') : s'.locks.Holds q key := by
  cases h with
  | queried => exact hholds
  | locked _ hacq => exact hholds.acquire hacq
  | committed | failed | crashed => exact hholds.release hq

/-! ### The lock discipline -/

variable (C) in
/-- Which key a local state is under. A call takes its one key before it reads under it, keeps it
while it reads, and gives it up with its transaction. -/
structure LockDiscipline where
  held : Local → Option Key
  queried : ∀ {d l f s l'}, C.next d l = .query f → f s = .ok l' → held l' = held l
  locked : ∀ {d l key l'}, C.next d l = .lock key l' → held l' = some key
  committed : ∀ {d l body s l' s'}, C.next d l = .commit body → body s = .ok (l', s') →
    held l' = none
  failed : ∀ e, held (C.failed e) = none
  crashed : held C.crashed = none

namespace LockDiscipline

variable (D : LockDiscipline C)

/-- Every party holds the key it is under. -/
def Kept (c : PartySystem.Config Pid (Shared σ Key Pid) Local) : Prop :=
  ∀ p key, D.held (c.locals p) = some key → c.shared.locks.Holds p key

variable {D}

/-- A party's own step keeps the key it is under. -/
theorem holds_own (h : C.Transition p s l t s' l')
    (hl : ∀ key, D.held l = some key → s.locks.Holds p key) {key : Key}
    (hl' : D.held l' = some key) : s'.locks.Holds p key := by
  cases h with
  | queried hnext hf => exact hl key (D.queried hnext hf ▸ hl')
  | locked hnext hacq =>
    obtain rfl := Option.some.inj ((D.locked hnext).symm.trans hl')
    exact LockTable.holds_of_acquire hacq
  | committed hnext hbody => cases (D.committed hnext hbody).symm.trans hl'
  | failed => cases (D.failed _).symm.trans hl'
  | crashed => cases D.crashed.symm.trans hl'

variable {c c' : PartySystem.Config Pid (Shared σ Key Pid) Local}

theorem Kept.fire (hc : D.Kept c) (h : (C.system Pid).fire c p t = some c') : D.Kept c' := by
  intro q key hq
  by_cases hqp : q = p
  · subst hqp
    exact holds_own (transition_of_fire h) (hc q) hq
  · rw [PartySystem.locals_of_fire h hqp] at hq
    exact (transition_of_fire h).holds hqp (hc q key hq)

omit [DecidableEq Key] [DecidableEq Pid] in
/-- **Mutual exclusion**: two calls are never under one key. -/
theorem Kept.exclusive (hc : D.Kept c) {q : Pid} {key : Key}
    (hp : D.held (c.locals p) = some key) (hq : D.held (c.locals q) = some key) : p = q :=
  (hc p key hp).unique (hc q key hq)

end LockDiscipline

/-! ### Outlines -/

variable (C) in
/-- A database invariant and one assertion per local state. A call's own steps establish its next
assertion; another call's commit need not be considered where the two are under one key. -/
structure Outline (D : LockDiscipline C) where
  inv : σ → Prop
  asrt : σ → Local → Prop
  queried : ∀ {d l f s l'}, inv s → asrt s l → C.next d l = .query f → f s = .ok l' → asrt s l'
  locked : ∀ {d l key s l'}, inv s → asrt s l → C.next d l = .lock key l' → asrt s l'
  committed : ∀ {d l body s l' s'}, inv s → asrt s l → C.next d l = .commit body →
    body s = .ok (l', s') → inv s' ∧ asrt s' l'
  failed : ∀ {s} e, asrt s (C.failed e)
  crashed : ∀ {s}, asrt s C.crashed
  stable : ∀ {d l body s l' s' m}, inv s → asrt s l → asrt s m →
    (∀ key, D.held m = some key → D.held l ≠ some key) → C.next d l = .commit body →
    body s = .ok (l', s') → asrt s' m

namespace Outline

variable {D : LockDiscipline C} (O : Outline C D)

/-- The configurations an outline describes. -/
def Holds (c : PartySystem.Config Pid (Shared σ Key Pid) Local) : Prop :=
  O.inv c.shared.db ∧ ∀ p, O.asrt c.shared.db (c.locals p)

variable {O}

/-- A party's own step. -/
theorem own (hinv : O.inv s.db) (hasrt : O.asrt s.db l) (h : C.Transition p s l t s' l') :
    O.inv s'.db ∧ O.asrt s'.db l' := by
  cases h with
  | queried hnext hf => exact ⟨hinv, O.queried hinv hasrt hnext hf⟩
  | locked hnext => exact ⟨hinv, O.locked hinv hasrt hnext⟩
  | committed hnext hbody => exact O.committed hinv hasrt hnext hbody
  | failed => exact ⟨hinv, O.failed _⟩
  | crashed => exact ⟨hinv, O.crashed⟩

variable {c c' : PartySystem.Config Pid (Shared σ Key Pid) Local}

theorem Holds.fire (hc : O.Holds c) (hkept : D.Kept c)
    (h : (C.system Pid).fire c p t = some c') : O.Holds c' := by
  have htrans := transition_of_fire h
  obtain ⟨hinv, hown⟩ := own hc.1 (hc.2 p) htrans
  refine ⟨hinv, fun q ↦ ?_⟩
  by_cases hqp : q = p
  · subst hqp
    exact hown
  · rw [PartySystem.locals_of_fire h hqp]
    rcases htrans.db_cases with hdb | ⟨d, body, -, hnext, hbody⟩
    · rw [hdb]
      exact hc.2 q
    · -- the committing party is not under the key of a resting one
      exact O.stable hc.1 (hc.2 p) (hc.2 q)
        (fun key hq hp ↦ hqp (hkept.exclusive hq hp)) hnext hbody

/-- **Soundness**: an outline describes every reachable configuration, however the steps are
restricted. -/
theorem sound {Ok : PartySystem.StepCond Pid (Tick Draws) (Shared σ Key Pid) Local}
    {Start : PartySystem.Config Pid (Shared σ Key Pid) Local → Prop}
    (hstart : ∀ c, Start c → D.Kept c ∧ O.Holds c)
    (h : (C.system Pid).ReachableBy Ok Start c) : D.Kept c ∧ O.Holds c :=
  h.rec_inv hstart fun _ hc hfire _ ↦ ⟨hc.1.fire hfire, hc.2.fire hc.1 hfire⟩

end Outline

end CallSystem
