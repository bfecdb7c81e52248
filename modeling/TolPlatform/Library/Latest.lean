import Mathlib.Order.Lattice
import Mathlib.Data.List.Basic

/-!
# The latest entry of a history

Entries are only ever appended to a history, but not always in the order of their times: whoever appends
may have read the clock long before. An entry is *latest* if none of the history is later; there may be
several.

`exists_isLatest_append_iff` says what one more entry does to what the latest ones say: the new entry
has the last word if nothing is later than it, and otherwise the latest ones are those there were.
-/

namespace List

variable {Entry T : Type*} [LinearOrder T]

/-- None of the history is later than `e`. -/
def IsLatest (time : Entry → T) (history : List Entry) (e : Entry) : Prop :=
  e ∈ history ∧ ∀ other ∈ history, time other ≤ time e

variable {time : Entry → T} {history : List Entry} {new e : Entry}

theorem IsLatest.mem (h : IsLatest time history e) : e ∈ history := h.1

/-- An entry that nothing is later than has the last word. -/
theorem isLatest_append_self (h : ∀ other ∈ history, time other ≤ time new) :
    IsLatest time (history ++ [new]) new := by
  refine ⟨mem_append_right _ (mem_singleton_self _), fun other hother ↦ ?_⟩
  rcases mem_append.1 hother with hother | hother
  · exact h other hother
  · rw [mem_singleton.1 hother]

/-- A belated entry changes nothing. -/
theorem IsLatest.append {later : Entry} (h : IsLatest time history e) (hlater : later ∈ history)
    (hlt : time new < time later) : IsLatest time (history ++ [new]) e := by
  refine ⟨mem_append_left _ h.1, fun other hother ↦ ?_⟩
  rcases mem_append.1 hother with hother | hother
  · exact h.2 other hother
  · rw [mem_singleton.1 hother]
    exact hlt.le.trans (h.2 later hlater)

/-- **What the latest entries say**, once one more entry has been appended that says so. -/
theorem exists_isLatest_append_iff {P : Entry → Prop} (hnew : P new) :
    (∃ e, IsLatest time (history ++ [new]) e ∧ P e) ↔
      (∀ other ∈ history, time other ≤ time new) ∨ ∃ e, IsLatest time history e ∧ P e := by
  constructor
  · rintro ⟨e, ⟨he, hmax⟩, hP⟩
    rcases mem_append.1 he with he | he
    · exact Or.inr ⟨e, ⟨he, fun other hother ↦ hmax other (mem_append_left _ hother)⟩, hP⟩
    · obtain rfl := mem_singleton.1 he
      exact Or.inl fun other hother ↦ hmax other (mem_append_left _ hother)
  · intro h
    by_cases hlast : ∀ other ∈ history, time other ≤ time new
    · exact ⟨new, isLatest_append_self hlast, hnew⟩
    · obtain ⟨e, he, hP⟩ := h.resolve_left hlast
      push Not at hlast
      obtain ⟨later, hlater, hlt⟩ := hlast
      exact ⟨e, he.append hlater hlt, hP⟩

end List
