import Mathlib.Logic.Function.Basic

/-!
# Transaction-scoped advisory locks

A lock table maps a key to the party that holds it. Locks are exclusive and re-entrant, are taken
one key at a time, and are given up all together when the holder's transaction ends — there is no
separate unlock. A party that asks for a key held by somebody else simply does not get to move; the
table itself never queues.

Two facts are all that a mutual-exclusion argument needs. A key has at most one holder
(`Holds.unique`), and nothing that another party does to the table takes a key away from its holder
(`Holds.acquire`, `Holds.release`).
-/

/-- Who holds which key. -/
structure LockTable (Key Pid : Type*) where
  /-- The holder of a key, if it is taken. -/
  holder : Key → Option Pid

namespace LockTable

variable {Key Pid : Type*} [DecidableEq Key] [DecidableEq Pid]

/-- Nobody holds anything. -/
def free : LockTable Key Pid := ⟨fun _ ↦ none⟩

/-- Party `p` takes key `k`, if it is free or already its own. -/
def acquire (t : LockTable Key Pid) (k : Key) (p : Pid) : Option (LockTable Key Pid) :=
  match t.holder k with
  | none => some ⟨Function.update t.holder k (some p)⟩
  | some q => if q = p then some t else none

/-- End of `p`'s transaction: everything it holds is given up. -/
def release (t : LockTable Key Pid) (p : Pid) : LockTable Key Pid :=
  ⟨fun k ↦ if t.holder k = some p then none else t.holder k⟩

/-- Party `p` holds key `k`. -/
def Holds (t : LockTable Key Pid) (p : Pid) (k : Key) : Prop := t.holder k = some p

variable {t t' : LockTable Key Pid} {k k' : Key} {p q : Pid}

/-- The two ways to get a key. -/
theorem acquire_eq_some_iff : t.acquire k p = some t' ↔
    (t.holder k = none ∧ t' = ⟨Function.update t.holder k (some p)⟩) ∨
      (t.holder k = some p ∧ t' = t) := by
  unfold acquire
  rcases hk : t.holder k with - | q
  · simp [eq_comm]
  · by_cases hq : q = p
    · simp [hq, eq_comm]
    · simp [hq]

omit [DecidableEq Key] [DecidableEq Pid] in
/-- **Mutual exclusion.** -/
theorem Holds.unique (hp : t.Holds p k) (hq : t.Holds q k) : p = q :=
  Option.some.inj (hp.symm.trans hq)

/-- Taking a key makes one its holder. -/
theorem holds_of_acquire (h : t.acquire k p = some t') : t'.Holds p k := by
  rcases acquire_eq_some_iff.1 h with ⟨-, rfl⟩ | ⟨hk, rfl⟩
  · exact Function.update_self _ _ _
  · exact hk

/-- Somebody taking a key takes nothing away from a holder. -/
theorem Holds.acquire (hq : t.Holds q k') (h : t.acquire k p = some t') : t'.Holds q k' := by
  rcases acquire_eq_some_iff.1 h with ⟨hk, rfl⟩ | ⟨-, rfl⟩
  · have hne : k' ≠ k := by
      rintro rfl
      exact absurd (hk.symm.trans hq) (by simp)
    exact (Function.update_of_ne hne _ _).trans hq
  · exact hq

omit [DecidableEq Key] in
/-- The end of another party's transaction takes nothing away from a holder. -/
theorem Holds.release (hq : t.Holds q k) (hne : q ≠ p) : (t.release p).Holds q k := by
  have hnot : ¬ t.holder k = some p := fun h ↦ hne (Holds.unique hq h)
  exact (if_neg hnot).trans hq

end LockTable
