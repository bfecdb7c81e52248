import Mathlib.Algebra.BigOperators.Group.List.Basic
import Mathlib.Data.List.Induction
import Mathlib.Data.List.Nodup

/-!
# Grouping a list by a key

`groupedBy key xs` collects `xs` into one group per key, keys in order of first appearance and each
group in list order: the insertion-ordered map idiom. A group is exactly the sub-list with its key
(`mem_groupedBy_iff`), every key has one group (`groupedBy_keys_nodup`), and since grouping only
rearranges (`groupedBy_flatMap_perm`), an additive quantity summed group by group is the quantity
summed over the whole list (`sum_map_groupedBy`).
-/

namespace List

variable {κ α M : Type*} [DecidableEq κ]

/-! ### The element of a key -/

/-- Where keys are unique, looking one up finds the element that has it. -/
theorem find?_eq_some_iff_of_nodup {key : α → κ} {l : List α} (h : (l.map key).Nodup) {k : κ} {a : α} :
    l.find? (key · = k) = some a ↔ a ∈ l ∧ key a = k := by
  constructor
  · intro hfind
    exact ⟨mem_of_find?_eq_some hfind, of_decide_eq_true (find?_some hfind :)⟩
  · rintro ⟨ha, rfl⟩
    obtain ⟨b, hb⟩ : ∃ b, l.find? (key · = key a) = some b :=
      Option.isSome_iff_exists.1 (find?_isSome.2 ⟨a, ha, decide_eq_true rfl⟩)
    have hkey : key b = key a := of_decide_eq_true (find?_some hb :)
    rw [hb, inj_on_of_nodup_map h (mem_of_find?_eq_some hb) ha hkey]

/-- … whatever order they are in. -/
theorem find?_eq_of_perm {key : α → κ} {l l' : List α} (h : (l.map key).Nodup) (hperm : l'.Perm l)
    (k : κ) : l'.find? (key · = k) = l.find? (key · = k) := by
  have h' : (l'.map key).Nodup := (hperm.map key).nodup_iff.2 h
  refine Option.ext fun a ↦ ?_
  rw [find?_eq_some_iff_of_nodup h, find?_eq_some_iff_of_nodup h', hperm.mem_iff]

/-! ### Grouping -/

/-- Push `a` onto the group of `k`, opening the group if there is none yet. -/
def pushGroup (k : κ) (a : α) : List (κ × List α) → List (κ × List α)
  | [] => [(k, [a])]
  | (k', g) :: rest => if k' = k then (k', g ++ [a]) :: rest else (k', g) :: pushGroup k a rest

/-- Group a list by a key. -/
def groupedBy (key : α → κ) (xs : List α) : List (κ × List α) :=
  xs.foldl (fun m a ↦ pushGroup (key a) a m) []

@[simp] theorem groupedBy_nil (key : α → κ) : groupedBy key [] = [] := rfl

theorem groupedBy_concat (key : α → κ) (xs : List α) (x : α) :
    groupedBy key (xs ++ [x]) = pushGroup (key x) x (groupedBy key xs) := by
  simp [groupedBy]

/-! ### Pushing one element -/

theorem map_fst_pushGroup (k : κ) (a : α) (m : List (κ × List α)) :
    (pushGroup k a m).map Prod.fst =
      if k ∈ m.map Prod.fst then m.map Prod.fst else m.map Prod.fst ++ [k] := by
  induction m with
  | nil => simp [pushGroup]
  | cons kg rest ih =>
    obtain ⟨k', g⟩ := kg
    by_cases hk : k' = k
    · simp [pushGroup, hk]
    · by_cases hmem : k ∈ rest.map Prod.fst
      · simp [pushGroup, hk, ih, hmem]
      · simp [pushGroup, hk, ih, hmem, Ne.symm hk]

theorem nodup_map_fst_pushGroup {k : κ} {a : α} {m : List (κ × List α)}
    (h : (m.map Prod.fst).Nodup) : ((pushGroup k a m).map Prod.fst).Nodup := by
  rw [map_fst_pushGroup]
  split_ifs with hk
  · exact h
  · exact h.append (nodup_singleton k) (by simpa using hk)

theorem mem_pushGroup_of_ne {k k' : κ} {a : α} {g : List α} {m : List (κ × List α)}
    (hk : k' ≠ k) : (k', g) ∈ pushGroup k a m ↔ (k', g) ∈ m := by
  induction m with
  | nil => simp [pushGroup, hk]
  | cons kg rest ih =>
    obtain ⟨k'', g''⟩ := kg
    by_cases h : k'' = k
    · subst h
      simp [pushGroup, hk]
    · simp [pushGroup, h, ih]

theorem mem_pushGroup_self {k : κ} {a : α} {g : List α} {m : List (κ × List α)}
    (hm : (m.map Prod.fst).Nodup) : (k, g) ∈ pushGroup k a m ↔
      (∃ g₀, (k, g₀) ∈ m ∧ g = g₀ ++ [a]) ∨ (k ∉ m.map Prod.fst ∧ g = [a]) := by
  induction m with
  | nil => simp [pushGroup]
  | cons kg rest ih =>
    obtain ⟨k'', g''⟩ := kg
    obtain ⟨hnot, hrest⟩ := nodup_cons.1 hm
    by_cases h : k'' = k
    · subst h
      have hno : ∀ g, (k'', g) ∉ rest := fun g hg ↦ hnot (mem_map.2 ⟨_, hg, rfl⟩)
      simp [pushGroup, hno]
    · simp [pushGroup, h, ih hrest, Ne.symm h]

/-- Pushing adds one element and otherwise rearranges. -/
theorem flatMap_pushGroup_perm (k : κ) (a : α) (m : List (κ × List α)) :
    ((pushGroup k a m).flatMap Prod.snd).Perm (m.flatMap Prod.snd ++ [a]) := by
  induction m with
  | nil => simp [pushGroup]
  | cons kg rest ih =>
    obtain ⟨k', g⟩ := kg
    by_cases hk : k' = k
    · have hswap : (g ++ ([a] ++ rest.flatMap Prod.snd)).Perm
          (g ++ (rest.flatMap Prod.snd ++ [a])) := perm_append_comm.append_left g
      simpa [pushGroup, hk, flatMap_cons] using hswap
    · simpa [pushGroup, hk, flatMap_cons] using ih.append_left g

/-! ### The groups of a list -/

variable {key : α → κ}

theorem groupedBy_keys_nodup (xs : List α) : ((groupedBy key xs).map Prod.fst).Nodup := by
  induction xs using List.reverseRecOn with
  | nil => simp
  | append_singleton xs x ih =>
    rw [groupedBy_concat]
    exact nodup_map_fst_pushGroup ih

/-- **A group is the sub-list with its key.** -/
theorem mem_groupedBy_iff {xs : List α} {k : κ} {g : List α} :
    (k, g) ∈ groupedBy key xs ↔ g = xs.filter (fun a ↦ key a = k) ∧ g ≠ [] := by
  induction xs using List.reverseRecOn generalizing k g with
  | nil => simp +contextual
  | append_singleton xs x ih =>
    rw [groupedBy_concat, filter_append]
    by_cases hk : k = key x
    · subst hk
      have hkeys : key x ∈ (groupedBy key xs).map Prod.fst ↔
          xs.filter (fun a ↦ key a = key x) ≠ [] := by
        constructor
        · intro h
          obtain ⟨⟨k, g⟩, hg, rfl⟩ := mem_map.1 h
          obtain ⟨rfl, hne⟩ := ih.1 hg
          exact hne
        · exact fun h ↦ mem_map.2 ⟨(key x, _), ih.2 ⟨rfl, h⟩, rfl⟩
      rw [mem_pushGroup_self (groupedBy_keys_nodup xs), hkeys]
      by_cases hnil : xs.filter (fun a ↦ key a = key x) = []
      · simp +contextual [ih, hnil]
      · simp +contextual [ih, hnil]
    · have hx : ¬ key x = k := fun h ↦ hk h.symm
      rw [mem_pushGroup_of_ne hk, ih]
      simp [hx]

theorem groupedBy_flatMap_perm (xs : List α) :
    ((groupedBy key xs).flatMap Prod.snd).Perm xs := by
  induction xs using List.reverseRecOn with
  | nil => simp
  | append_singleton xs x ih =>
    rw [groupedBy_concat]
    exact (flatMap_pushGroup_perm _ _ _).trans (ih.append_right [x])

/-- **Summing group by group is summing the list.** -/
theorem sum_map_groupedBy [AddCommMonoid M] (f : α → M) (xs : List α) :
    ((groupedBy key xs).map fun kg ↦ (kg.2.map f).sum).sum = (xs.map f).sum := by
  have hflat : ((groupedBy key xs).map fun kg ↦ (kg.2.map f).sum).sum =
      (((groupedBy key xs).flatMap Prod.snd).map f).sum := by
    generalize groupedBy key xs = m
    induction m with
    | nil => rfl
    | cons kg rest ih => simp [flatMap_cons, ih]
  rw [hflat]
  exact ((groupedBy_flatMap_perm xs).map f).sum_eq

end List
