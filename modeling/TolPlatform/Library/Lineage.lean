import Mathlib.Algebra.Order.Group.Int
import Mathlib.Data.List.Chain
import Mathlib.Data.List.Nodup
import TolPlatform.Library.Transaction

/-!
# Linear version histories

A history of versions, oldest first: the first version has no predecessor, each later one names the
one before it and carries the next number, and only the last one may be live. `concat` is the only way
such a history grows — the live version is retired and its successor appended — and keeps all of this.

What one usually wants to know of a version table follows: at most one live version
(`live_unique`), distinct numbers (`number_inj`), and no version with two successors (`prev_inj`).
-/

section Lineage

variable {α κ : Type*} (id : α → κ) (prev : α → Option κ) (number : α → ℤ) (live : α → Prop)

/-- A linear history of versions, oldest first. -/
structure Lineage (l : List α) : Prop where
  head : ∀ a ∈ l.head?, prev a = none
  link : l.IsChain fun a b ↦ prev b = some (id a) ∧ number b = number a + 1 ∧ ¬ live a

namespace Lineage

variable {id prev number live} {l : List α} {a b : α}

theorem nil : Lineage id prev number live [] :=
  ⟨by simp, .nil⟩

theorem singleton (h : prev a = none) : Lineage id prev number live [a] :=
  ⟨by simpa using h, .singleton a⟩

/-! ### Reading a history -/

/-- Numbers increase. -/
theorem numbers_pairwise (h : Lineage id prev number live l) : (l.map number).Pairwise (· < ·) := by
  refine List.isChain_iff_pairwise.1 ((List.isChain_map number).2 (h.link.imp ?_))
  intro a b hab
  have hnumber := hab.2.1
  omega

theorem number_inj (h : Lineage id prev number live l) (ha : a ∈ l) (hb : b ∈ l)
    (hnumber : number a = number b) : a = b := by
  have hnodup : (l.map number).Nodup := h.numbers_pairwise.imp fun hlt ↦ ne_of_lt hlt
  exact List.inj_on_of_nodup_map hnodup ha hb hnumber

/-- A version has no predecessor, or its predecessor is there and one number lower. -/
theorem exists_prev (h : Lineage id prev number live l) (ha : a ∈ l) :
    prev a = none ∨ ∃ b ∈ l, prev a = some (id b) ∧ number a = number b + 1 := by
  rcases l with - | ⟨first, rest⟩
  · cases ha
  · rcases List.mem_cons.1 ha with rfl | hrest
    · exact .inl (h.head a rfl)
    · obtain ⟨b, hb, hprev, hnumber, -⟩ := (List.isChain_iff_forall₂.1 h.link).exists_left hrest
      exact .inr ⟨b, List.dropLast_subset _ hb, hprev, hnumber⟩

/-- No version has two successors. -/
theorem prev_inj (h : Lineage id prev number live l)
    (hid : ∀ a ∈ l, ∀ b ∈ l, id a = id b → a = b) (ha : a ∈ l) (hb : b ∈ l)
    (hprev : prev a = prev b) (hsome : prev a ≠ none) : a = b := by
  obtain ⟨a', ha', hpa, hna⟩ := (h.exists_prev ha).resolve_left hsome
  obtain ⟨b', hb', hpb, hnb⟩ := (h.exists_prev hb).resolve_left (hprev ▸ hsome)
  have hsame : a' = b' := hid a' ha' b' hb' (Option.some.inj (hpa.symm.trans (hprev.trans hpb)))
  exact h.number_inj ha hb (by rw [hna, hnb, hsame])

/-- The live version is the last one. -/
theorem getLast_of_live (h : Lineage id prev number live l) (ha : a ∈ l) (hlive : live a) :
    l.getLast? = some a := by
  have hne : l ≠ [] := List.ne_nil_of_mem ha
  rw [List.getLast?_eq_some_getLast hne, Option.some.injEq]
  rw [← List.dropLast_append_getLast hne, List.mem_append, List.mem_singleton] at ha
  rcases ha with hinit | hlast
  · obtain ⟨b, -, -, -, hdead⟩ := (List.isChain_iff_forall₂.1 h.link).exists_right hinit
    exact absurd hlive hdead
  · exact hlast.symm

theorem live_unique (h : Lineage id prev number live l) (ha : a ∈ l) (hb : b ∈ l) (hla : live a)
    (hlb : live b) : a = b :=
  Option.some.inj ((h.getLast_of_live ha hla).symm.trans (h.getLast_of_live hb hlb))

/-! ### Growing a history -/

/-- Rewriting versions without reviving any keeps a history. -/
theorem map (h : Lineage id prev number live l) {f : α → α} (hid : ∀ a, id (f a) = id a)
    (hprev : ∀ a, prev (f a) = prev a) (hnumber : ∀ a, number (f a) = number a)
    (hlive : ∀ a, live (f a) → live a) : Lineage id prev number live (l.map f) := by
  refine ⟨fun b hb ↦ ?_, ?_⟩
  · rw [List.head?_map] at hb
    obtain ⟨a, ha, rfl⟩ := Option.map_eq_some_iff.1 hb
    rw [hprev]
    exact h.head a ha
  · refine List.isChain_map_of_isChain f (fun a b hab ↦ ?_) h.link
    obtain ⟨hp, hn, hd⟩ := hab
    rw [hprev, hid, hnumber, hnumber]
    exact ⟨hp, hn, fun hl ↦ hd (hlive a hl)⟩

/-- **Appending the successor of the last version**, once that is retired, keeps a history. -/
theorem concat (h : Lineage id prev number live l) {last new : α} (hlast : l.getLast? = some last)
    (hprev : prev new = some (id last)) (hnumber : number new = number last + 1)
    (hretired : ¬ live last) : Lineage id prev number live (l ++ [new]) := by
  have hne : l ≠ [] := fun hnil ↦ by simp [hnil] at hlast
  refine ⟨fun a ha ↦ ?_, h.link.append (.singleton new) fun a ha b hb ↦ ?_⟩
  · rw [List.head?_append_of_ne_nil _ hne] at ha
    exact h.head a ha
  · obtain rfl := Option.some.inj (hlast.symm.trans ha)
    obtain rfl := Option.some.inj hb
    exact ⟨hprev, hnumber, hretired⟩

end Lineage

end Lineage
