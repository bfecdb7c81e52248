import Mathlib.Data.List.Basic

/-!
# What a view of a log gives away

An observer is shown the visible entries of a log, each through a projection (`view`). Some entries are
*secret*. Two logs that agree on all other entries look the same to the observer exactly if their secret
visible entries are projected alike and stand at the same places (`view_eq_view_iff`): projecting an
entry hides no more than what the projection drops, and not that it is there.

Of a record, an observer is shown some of the fields (`reveal`), and whatever it computes from them
is a function of the fields that it reads and is shown (`ReadsOnly.congr`).
-/

namespace Redaction

variable {α β : Type*} {visible secret : α → Bool} {f : α → β} {l l' : List α}

/-- What the observer is shown. -/
def view (visible : α → Bool) (f : α → β) (log : List α) : List β := (log.filter visible).map f

/-- The secret entries that it is shown, with the places of the others left blank. -/
def marks (visible secret : α → Bool) (f : α → β) (log : List α) : List (Option β) :=
  (log.filter visible).map fun a ↦ if secret a then some (f a) else none

/-- Equal images have equal marks, if the image tells what is secret. -/
theorem marks_congr (hsecret : ∀ a b, f a = f b → secret a = secret b) (h : l.map f = l'.map f) :
    (l.map fun a ↦ if secret a then some (f a) else none) =
      l'.map fun a ↦ if secret a then some (f a) else none := by
  induction l generalizing l' with
  | nil => rw [List.map_eq_nil_iff.1 h.symm]
  | cons a l ih =>
    obtain ⟨b, rest, rfl, hb, hrest⟩ := List.map_eq_cons_iff.1 h.symm
    rw [List.map_cons, List.map_cons, ih hrest.symm, hsecret a b hb.symm, hb]

/-- Marks and the entries that are not secret make up the list again. -/
theorem map_eq_of_marks (hrest : (l.filter fun a ↦ !secret a) = l'.filter fun a ↦ !secret a)
    (h : (l.map fun a ↦ if secret a then some (f a) else none) =
      l'.map fun a ↦ if secret a then some (f a) else none) : l.map f = l'.map f := by
  induction l generalizing l' with
  | nil => rw [List.map_eq_nil_iff.1 h.symm]
  | cons a l ih =>
    obtain ⟨b, rest, rfl, hb, hmarks⟩ := List.map_eq_cons_iff.1 h.symm
    replace hb : (if secret b = true then some (f b) else none) =
      if secret a = true then some (f a) else none := hb
    by_cases ha : secret a = true
    · by_cases hsecret : secret b = true
      · rw [if_pos ha, if_pos hsecret] at hb
        rw [List.filter_cons_of_neg (by simpa using ha),
          List.filter_cons_of_neg (by simpa using hsecret)] at hrest
        rw [List.map_cons, List.map_cons, ih hrest hmarks.symm, Option.some.inj hb]
      · rw [if_pos ha, if_neg hsecret] at hb
        cases hb
    · by_cases hsecret : secret b = true
      · rw [if_neg ha, if_pos hsecret] at hb
        cases hb
      · -- both are plain entries, and so the first of what the logs agree on
        rw [List.filter_cons_of_pos (by simpa using ha),
          List.filter_cons_of_pos (by simpa using hsecret)] at hrest
        obtain ⟨rfl, htail⟩ := List.cons.inj hrest
        rw [List.map_cons, List.map_cons, ih htail hmarks.symm]

/-- **What a view gives away**: the secret entries that it shows, and where they stand. -/
theorem view_eq_view_iff (hsecret : ∀ a b, f a = f b → secret a = secret b)
    (hrest : (l.filter fun a ↦ !secret a) = l'.filter fun a ↦ !secret a) :
    view visible f l = view visible f l' ↔
      marks visible secret f l = marks visible secret f l' := by
  have hvisible : ((l.filter visible).filter fun a ↦ !secret a) =
      (l'.filter visible).filter fun a ↦ !secret a := by
    rw [List.filter_comm, hrest, List.filter_comm]
  exact ⟨marks_congr hsecret, map_eq_of_marks hvisible⟩

/-- Nothing, where no secret entry is visible. -/
theorem view_eq_view_of_hidden (hhidden : ∀ a, visible a = true → secret a = false)
    (hrest : (l.filter fun a ↦ !secret a) = l'.filter fun a ↦ !secret a) :
    view visible f l = view visible f l' := by
  have hshown (log : List α) : log.filter visible = (log.filter fun a ↦ !secret a).filter visible := by
    rw [List.filter_filter]
    refine List.filter_congr fun a _ ↦ ?_
    rcases ha : visible a with - | -
    · rfl
    · rw [hhidden a ha]
      rfl
  rw [view, view, hshown l, hrest, ← hshown]

/-! ### Records -/

section

variable {κ : Type*} {V : κ → Type*} {shown shown' : κ → Prop} [DecidablePred shown]
  [DecidablePred shown'] {r r' : (k : κ) → V k}

/-- A record with the fields that are not shown left out. -/
def reveal (shown : κ → Prop) [DecidablePred shown] (r : (k : κ) → V k) (k : κ) : Option (V k) :=
  if shown k then some (r k) else none

theorem reveal_of_shown {k : κ} (h : shown k) : reveal shown r k = some (r k) := if_pos h

theorem reveal_congr {k : κ} (hshown : shown k ↔ shown' k) (hagree : shown k → r k = r' k) :
    reveal shown r k = reveal shown' r' k := by
  unfold reveal
  by_cases h : shown k
  · rw [if_pos h, if_pos (hshown.1 h), hagree h]
  · rw [if_neg h, if_neg fun h' ↦ h (hshown.2 h')]

/-- A computation on partial records that reads no other fields. -/
def ReadsOnly (fields : κ → Prop) (f : ((k : κ) → Option (V k)) → β) : Prop :=
  ∀ v v', (∀ k, fields k → v k = v' k) → f v = f v'

/-- **Noninterference.** Two observers that are shown the same of the fields read compute the same of
records that agree on these. -/
theorem ReadsOnly.congr {fields : κ → Prop} {f : ((k : κ) → Option (V k)) → β}
    (h : ReadsOnly fields f) (hshown : ∀ k, fields k → (shown k ↔ shown' k))
    (hagree : ∀ k, fields k → shown k → r k = r' k) : f (reveal shown r) = f (reveal shown' r') :=
  h _ _ fun k hk ↦ reveal_congr (hshown k hk) (hagree k hk)

end

end Redaction
