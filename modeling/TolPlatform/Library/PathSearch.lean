import Mathlib.Data.Set.Insert
import Mathlib.Logic.Relation

/-!
# Searches along a path

A recursive search of all that a value contains keeps the values that it is inside of, its path, and
stops at one of these or at a bad value. A value that is contained twice is searched twice, and each time
by its own path. What the whole search meets is a bad value that can be reached or a value that can be
reached and reaches itself (`meets_empty_iff`), so that a value which is merely shared stops no search.

A search of this kind is a check that gives its state back or an error (`Refuses`), and a loop of checks
gives an error when one of them does (`Refuses.foldlM`).
-/

namespace PathSearch

open Relation (ReflTransGen TransGen)

/-! ### What a search meets -/

section

variable {V : Type*}

/-- The search of a value meets something, inside of the values of a path. -/
inductive Meets (contains : V → V → Prop) (bad : V → Prop) : Set V → V → Prop
  | closed {path : Set V} {v : V} (h : v ∈ path) : Meets contains bad path v
  | bad {path : Set V} {v : V} (h : bad v) : Meets contains bad path v
  | inside {path : Set V} {v w : V} (hcontains : contains v w)
    (h : Meets contains bad (insert v path) w) : Meets contains bad path v

/-- Something bad can be reached, or a value from which one comes back to it. -/
def Reaches (contains : V → V → Prop) (bad : V → Prop) (v : V) : Prop :=
  (∃ w, ReflTransGen contains v w ∧ bad w) ∨ ∃ w, ReflTransGen contains v w ∧ TransGen contains w w

variable {contains : V → V → Prop} {bad : V → Prop} {path : Set V} {v w : V}

theorem meets_iff : Meets contains bad path v ↔
    v ∈ path ∨ bad v ∨ ∃ w, contains v w ∧ Meets contains bad (insert v path) w := by
  constructor
  · rintro (h | h | ⟨hcontains, h⟩)
    · exact .inl h
    · exact .inr (.inl h)
    · exact .inr (.inr ⟨_, hcontains, h⟩)
  · rintro (h | h | ⟨w, hcontains, h⟩)
    · exact .closed h
    · exact .bad h
    · exact .inside hcontains h

theorem Reaches.imp {bad' : V → Prop} (h : Reaches contains bad v) (hbad : ∀ w, bad w → bad' w) :
    Reaches contains bad' v :=
  Or.imp (fun ⟨w, hreach, hw⟩ ↦ ⟨w, hreach, hbad w hw⟩) id h

theorem Reaches.of_contains (hcontains : contains v w) (h : Reaches contains bad w) :
    Reaches contains bad v := by
  rcases h with ⟨x, hreach, hbad⟩ | ⟨x, hreach, hcycle⟩
  · exact .inl ⟨x, .head hcontains hreach, hbad⟩
  · exact .inr ⟨x, .head hcontains hreach, hcycle⟩

theorem reaches_iff :
    Reaches contains bad v ↔ bad v ∨ ∃ w, contains v w ∧ Reaches contains bad w := by
  constructor
  · rintro (⟨x, hreach, hbad⟩ | ⟨x, hreach, hcycle⟩)
    · rcases hreach.cases_head with rfl | ⟨w, hcontains, hreach'⟩
      · exact .inl hbad
      · exact .inr ⟨w, hcontains, .inl ⟨x, hreach', hbad⟩⟩
    · rcases hreach.cases_head with rfl | ⟨w, hcontains, hreach'⟩
      · obtain ⟨w, hcontains, hback⟩ := TransGen.head'_iff.1 hcycle
        exact .inr ⟨w, hcontains, .inr ⟨v, hback, hcycle⟩⟩
      · exact .inr ⟨w, hcontains, .inr ⟨x, hreach', hcycle⟩⟩
  · rintro (hbad | ⟨w, hcontains, h⟩)
    · exact .inl ⟨v, .refl, hbad⟩
    · exact .of_contains hcontains h

/-- What the search meets is there, when every value of the path leads to where it is. -/
theorem Meets.reaches (h : Meets contains bad path v) (hpath : ∀ u ∈ path, TransGen contains u v) :
    Reaches contains bad v := by
  induction h with
  | closed hmem => exact .inr ⟨_, .refl, hpath _ hmem⟩
  | bad hbad => exact .inl ⟨_, .refl, hbad⟩
  | inside hcontains _ ih =>
    refine .of_contains hcontains (ih ?_)
    rintro u (rfl | hu)
    · exact .single hcontains
    · exact (hpath u hu).tail hcontains

theorem not_meets_of_contains (h : ¬ Meets contains bad path v) (hcontains : contains v w) :
    ¬ Meets contains bad (insert v path) w := fun hw ↦ h (.inside hcontains hw)

/-- A search that meets nothing goes everywhere. -/
theorem exists_not_meets (h : ¬ Meets contains bad path v) (hreach : ReflTransGen contains v w) :
    ∃ path', ¬ Meets contains bad path' w := by
  induction hreach with
  | refl => exact ⟨path, h⟩
  | tail _ hcontains ih =>
    obtain ⟨path', hpath'⟩ := ih
    exact ⟨_, not_meets_of_contains hpath' hcontains⟩

/-- … with the value that it started from on its path. -/
theorem exists_mem_not_meets (h : ¬ Meets contains bad path v) (hreach : TransGen contains v w) :
    ∃ path', v ∈ path' ∧ ¬ Meets contains bad path' w := by
  induction hreach with
  | single hcontains => exact ⟨_, Set.mem_insert v path, not_meets_of_contains h hcontains⟩
  | tail _ hcontains ih =>
    obtain ⟨path', hmem, hpath'⟩ := ih
    exact ⟨_, Set.mem_insert_of_mem _ hmem, not_meets_of_contains hpath' hcontains⟩

/-- **A search meets something bad that can be reached, or a cycle**, and nothing else. -/
theorem meets_empty_iff : Meets contains bad ∅ v ↔ Reaches contains bad v := by
  constructor
  · exact fun h ↦ h.reaches fun u hu ↦ absurd hu (Set.notMem_empty u)
  · intro h
    by_contra hnot
    rcases h with ⟨w, hreach, hbad⟩ | ⟨w, hreach, hcycle⟩
    · obtain ⟨path, hpath⟩ := exists_not_meets hnot hreach
      exact hpath (.bad hbad)
    · obtain ⟨path, hpath⟩ := exists_not_meets hnot hreach
      obtain ⟨path', hmem, hpath'⟩ := exists_mem_not_meets hpath hcycle
      exact hpath' (.closed hmem)

end

/-! ### Checks -/

section

universe u

variable {ε σ τ : Type u} {ι : Type*} {r : ExceptT ε Option σ} {s : σ} {P Q : Prop}

/-- A check, with fuel that lasts: it gives the state `s` back, or an error just in case of `P`. -/
structure Refuses (r : ExceptT ε Option σ) (s : σ) (P : Prop) : Prop where
  accepted (h : ¬ P) : r = pure s
  refused (h : P) : ∃ e, r = throw e

namespace Refuses

theorem of_pure (h : ¬ P) : Refuses (pure s : ExceptT ε Option σ) s P :=
  ⟨fun _ ↦ rfl, fun hP ↦ absurd hP h⟩

theorem of_throw (e : ε) (h : P) : Refuses (throw e : ExceptT ε Option σ) s P :=
  ⟨fun hP ↦ absurd h hP, fun _ ↦ ⟨e, rfl⟩⟩

theorem congr (h : Refuses r s P) (hPQ : P ↔ Q) : Refuses r s Q :=
  ⟨fun hQ ↦ h.accepted (mt hPQ.1 hQ), fun hQ ↦ h.refused (hPQ.2 hQ)⟩

theorem cases (h : Refuses r s P) : ¬ P ∧ r = pure s ∨ P ∧ ∃ e, r = throw e := by
  by_cases hP : P
  · exact .inr ⟨hP, h.refused hP⟩
  · exact .inl ⟨hP, h.accepted hP⟩

theorem bind_pure (h : Refuses r s P) (f : σ → τ) : Refuses (r >>= fun s ↦ pure (f s)) (f s) P := by
  rcases h.cases with ⟨hP, rfl⟩ | ⟨hP, e, rfl⟩
  · exact .of_pure hP
  · exact .of_throw e hP

/-- **A loop of checks.** -/
theorem foldlM {f : σ → ι → ExceptT ε Option σ} {P : ι → Prop} {l : List ι}
    (h : ∀ i ∈ l, Refuses (f s i) s (P i)) : Refuses (l.foldlM f s) s (∃ i ∈ l, P i) := by
  induction l with
  | nil => exact .of_pure (by simp)
  | cons i l ih =>
    obtain ⟨hi, hl⟩ := List.forall_mem_cons.1 h
    rw [List.foldlM_cons]
    rcases hi.cases with ⟨hP, hf⟩ | ⟨hP, e, hf⟩
    · rw [hf]
      refine (ih hl).congr ?_
      simp only [List.mem_cons, exists_eq_or_imp, or_iff_right hP]
    · rw [hf]
      exact .of_throw e ⟨i, List.mem_cons_self, hP⟩

end Refuses

end

end PathSearch
