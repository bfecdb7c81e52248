import Mathlib.Data.List.Sort
import Mathlib.Data.Prod.Lex

/-!
# Sorting by a key

`sortOn key` is a stable sort by a key in a linear order, as an `ORDER BY` or a comparator that goes by a
key specifies it: it rearranges (`sortOn_perm`), the keys ascend (`pairwise_sortOn`), and its first
element is a least one (`key_le_of_head?_sortOn`). With distinct keys the result does not depend on the
order in which the elements come (`sortOn_eq_of_perm`). A comparator may give the order instead: `sortBy`
sorts by any key that it goes by (`sortBy_eq_sortOn`, `mergeSort_eq_sortOn`). `firstBy key` keeps the
first element for every key, as filling a map with what is not there yet does; `laterBy key` is what it
drops. Together with sorting it picks, for each key, an element that is least in a second order
(`key_le_of_mem_firstBy_sortOn`). Sorting commutes with selecting elements (`filter_sortOn`).

A descending order is an ascending one in the order dual, and a lexicographic one a key in a `Lex`
product. With a unique id as the last component the keys are distinct (`nodup_map_toLex`), and the order
is strict (`pairwise_sortOn_toLex`).
-/

namespace List

variable {α β κ : Type*} [LinearOrder β] {key : α → β} {l : List α} {a b : α}

/-! ### Sorting -/

/-- Sort by a key, ascending; elements of one key stay in their order. -/
def sortOn (key : α → β) (l : List α) : List α := l.insertionSort fun a b ↦ key a ≤ key b

theorem sortOn_perm (key : α → β) (l : List α) : (sortOn key l).Perm l := perm_insertionSort _ _

@[simp] theorem mem_sortOn : a ∈ sortOn key l ↔ a ∈ l := (sortOn_perm key l).mem_iff

theorem pairwise_sortOn (key : α → β) (l : List α) :
    (sortOn key l).Pairwise fun a b ↦ key a ≤ key b := by
  have htotal : Std.Total fun a b : α ↦ key a ≤ key b := ⟨fun _ _ ↦ le_total _ _⟩
  have htrans : IsTrans α fun a b ↦ key a ≤ key b := ⟨fun _ _ _ hab hbc ↦ hab.trans hbc⟩
  exact pairwise_insertionSort _ l

/-- Distinct keys ascend strictly. -/
theorem pairwise_lt_sortOn (key : α → β) (h : (l.map key).Nodup) :
    (sortOn key l).Pairwise fun a b ↦ key a < key b := by
  have hnodup : ((sortOn key l).map key).Nodup := ((sortOn_perm key l).map key).nodup_iff.2 h
  exact ((pairwise_sortOn key l).and (pairwise_map.1 hnodup)).imp fun hab ↦ hab.1.lt_of_ne hab.2

/-- **Distinct keys leave one order.** -/
theorem sortOn_eq_of_perm {l' : List α} (h : (l.map key).Nodup) (hperm : l'.Perm l) :
    sortOn key l' = sortOn key l := by
  have hl' := pairwise_lt_sortOn key ((hperm.map key).nodup_iff.2 h)
  have hsame : (sortOn key l').Perm (sortOn key l) :=
    (sortOn_perm key l').trans (hperm.trans (sortOn_perm key l).symm)
  exact hsame.eq_of_pairwise (fun _ _ _ _ hab hba ↦ (hab.asymm hba).elim) hl'
    (pairwise_lt_sortOn key h)

/-- What is in order stays as it is. -/
theorem sortOn_eq_self (h : l.Pairwise fun a b ↦ key a ≤ key b) : sortOn key l = l :=
  h.insertionSort_eq

/-- Sorting before or after a change that keeps the keys. -/
theorem sortOn_map {γ : Type*} (f : γ → α) {l : List γ} {key' : γ → β}
    (h : ∀ c ∈ l, key (f c) = key' c) : sortOn key (l.map f) = (sortOn key' l).map f := by
  refine (map_insertionSort _ _ f l fun a ha b hb ↦ ?_).symm
  rw [h a ha, h b hb]

/-- Of two relations that a list is ordered by, a strict one implies the other. -/
theorem rel_of_pairwise {R S : α → α → Prop} (hasymm : ∀ a b, R a b → ¬ R b a)
    (hR : l.Pairwise R) (hS : l.Pairwise S) (ha : a ∈ l) (hb : b ∈ l) (hab : R a b) : S a b := by
  have hpairs := hR.and hS
  refine Pairwise.forall_of_forall_of_flip (R := fun a b ↦ R a b → S a b)
    (fun x _ hx ↦ absurd hx (hasymm x x hx)) (hpairs.imp fun h _ ↦ h.2)
    (hpairs.imp fun h hba ↦ absurd hba (hasymm _ _ h.1)) ha hb hab

/-- In a strictly ascending list, as many elements are less as come before. -/
theorem countP_lt_getElem (key : α → β) (h : l.Pairwise fun a b ↦ key a < key b) {i : ℕ}
    (hi : i < l.length) : l.countP (fun b ↦ key b < key l[i]) = i := by
  induction l generalizing i with
  | nil => exact absurd hi (Nat.not_lt_zero i)
  | cons c l ih =>
    obtain ⟨hc, hl⟩ := pairwise_cons.1 h
    rcases i with - | i
    · rw [getElem_cons_zero, countP_eq_zero]
      intro b hb
      rcases mem_cons.1 hb with rfl | hb
      · simp
      · simpa using (hc b hb).le
    · have hi' : i < l.length := Nat.lt_of_succ_lt_succ hi
      rw [getElem_cons_succ, countP_cons_of_pos, ih hl hi']
      exact decide_eq_true (hc _ (getElem_mem hi'))

/-- **The first `k` are those that fewer than `k` come before.** -/
theorem mem_take_sortOn_iff (h : (l.map key).Nodup) (ha : a ∈ l) (k : ℕ) :
    a ∈ (sortOn key l).take k ↔ l.countP (fun b ↦ key b < key a) < k := by
  have hsorted := pairwise_lt_sortOn key h
  have hnodup : (sortOn key l).Nodup := hsorted.imp fun hab heq ↦ hab.ne (congrArg key heq)
  have ha' : a ∈ sortOn key l := mem_sortOn.2 ha
  obtain ⟨i, hi, rfl⟩ := getElem_of_mem ha'
  rw [← (sortOn_perm key l).countP_eq, countP_lt_getElem key hsorted hi, mem_take_iff_getElem]
  constructor
  · rintro ⟨j, hj, heq⟩
    have := (hnodup.getElem_inj_iff).1 heq
    omega
  · intro hik
    exact ⟨i, by omega, rfl⟩

/-- There are `k` such elements. -/
theorem countP_countP_lt (h : (l.map key).Nodup) {k : ℕ} (hk : k ≤ l.length) :
    l.countP (fun a ↦ l.countP (fun b ↦ key b < key a) < k) = k := by
  classical
  have hnodup : (sortOn key l).Nodup :=
    (pairwise_lt_sortOn key h).imp fun hab heq ↦ hab.ne (congrArg key heq)
  have hsplit := take_append_drop k (sortOn key l)
  have hlength : ((sortOn key l).take k).length = k := by
    rw [length_take, (sortOn_perm key l).length_eq]
    omega
  calc l.countP (fun a ↦ l.countP (fun b ↦ key b < key a) < k)
      = l.countP (· ∈ (sortOn key l).take k) := by
        refine countP_congr fun a ha ↦ ?_
        rw [decide_eq_true_iff, decide_eq_true_iff, mem_take_sortOn_iff h ha]
    _ = ((sortOn key l).take k ++ (sortOn key l).drop k).countP (· ∈ (sortOn key l).take k) := by
        rw [hsplit, (sortOn_perm key l).countP_eq]
    _ = k := by
        rw [← hsplit] at hnodup
        have hdrop : ((sortOn key l).drop k).countP (· ∈ (sortOn key l).take k) = 0 :=
          countP_eq_zero.2 fun b hb hmem ↦
            (nodup_append.1 hnodup).2.2 b (of_decide_eq_true hmem) b hb rfl
        have htake : ((sortOn key l).take k).countP (· ∈ (sortOn key l).take k) =
            ((sortOn key l).take k).length := countP_eq_length.2 fun b hb ↦ decide_eq_true hb
        rw [countP_append, hdrop, htake, hlength, Nat.add_zero]

/-- The first element is a least one. -/
theorem key_le_of_head?_sortOn (key : α → β) (h : (sortOn key l).head? = some a) (hb : b ∈ l) :
    key a ≤ key b := by
  obtain ⟨rest, hrest⟩ := head?_eq_some_iff.1 h
  have hsorted := pairwise_sortOn key l
  rw [hrest] at hsorted
  rcases mem_cons.1 (hrest ▸ mem_sortOn.2 hb) with rfl | hb
  · exact le_rfl
  · exact (pairwise_cons.1 hsorted).1 b hb

/-- What comes before everything is inserted in front. -/
theorem orderedInsert_of_forall {r : α → α → Prop} [DecidableRel r] {a : α} {l : List α}
    (h : ∀ b ∈ l, r a b) : l.orderedInsert r a = a :: l := by
  cases l with
  | nil => rfl
  | cons b l => exact orderedInsert_cons_of_le r l (h b mem_cons_self)

/-- Selecting before or after an insertion. -/
theorem filter_orderedInsert {p : α → Bool} (a : α)
    (hl : l.Pairwise fun a b ↦ key a ≤ key b) :
    (l.orderedInsert (fun a b ↦ key a ≤ key b) a).filter p =
      if p a then (l.filter p).orderedInsert (fun a b ↦ key a ≤ key b) a else l.filter p := by
  induction l with
  | nil => by_cases ha : p a = true <;> simp [ha]
  | cons b l ih =>
    obtain ⟨hb, hl⟩ := pairwise_cons.1 hl
    rw [orderedInsert_cons]
    by_cases hab : key a ≤ key b
    · rw [if_pos hab]
      by_cases ha : p a = true
      · -- everything that is kept comes after `a`
        have hafter : ∀ c ∈ (b :: l).filter p, key a ≤ key c := by
          intro c hc
          rcases mem_cons.1 (mem_filter.1 hc).1 with rfl | hc
          · exact hab
          · exact hab.trans (hb c hc)
        rw [if_pos ha, filter_cons_of_pos ha, orderedInsert_of_forall hafter]
      · rw [if_neg ha, filter_cons_of_neg ha]
    · rw [if_neg hab]
      by_cases hpb : p b = true
      · rw [filter_cons_of_pos hpb, filter_cons_of_pos hpb, ih hl]
        split
        · rw [orderedInsert_cons, if_neg hab]
        · rfl
      · rw [filter_cons_of_neg hpb, filter_cons_of_neg hpb, ih hl]

/-- **Sorting and selecting commute**, as the sort is stable. -/
theorem filter_sortOn (key : α → β) (p : α → Bool) (l : List α) :
    (sortOn key l).filter p = sortOn key (l.filter p) := by
  induction l with
  | nil => rfl
  | cons a l ih =>
    show ((sortOn key l).orderedInsert _ a).filter p = _
    rw [filter_orderedInsert a (pairwise_sortOn key l), ih]
    by_cases ha : p a = true
    · rw [if_pos ha, filter_cons_of_pos ha]
      rfl
    · rw [if_neg ha, filter_cons_of_neg ha]

/-- An element is inserted after those that it does not come before. -/
theorem orderedInsert_append {r : α → α → Prop} [DecidableRel r] {a : α} {l l' : List α}
    (h : ∀ b ∈ l, ¬ r a b) : (l ++ l').orderedInsert r a = l ++ l'.orderedInsert r a := by
  induction l with
  | nil => rfl
  | cons b l ih =>
    rw [cons_append, orderedInsert_cons, if_neg (h b mem_cons_self),
      ih fun c hc ↦ h c (mem_cons_of_mem _ hc)]
    rfl

/-- **A merge sort is a sort by a key**, if its comparator goes by it. -/
theorem mergeSort_eq_sortOn {le : α → α → Bool} (h : ∀ a b, le a b = true ↔ key a ≤ key b)
    (l : List α) : l.mergeSort le = sortOn key l := by
  have htrans (a b c : α) (hab : le a b = true) (hbc : le b c = true) : le a c = true :=
    (h a c).2 (((h a b).1 hab).trans ((h b c).1 hbc))
  have htotal (a b : α) : (le a b || le b a) = true := by
    rw [Bool.or_eq_true, h, h]
    exact le_total _ _
  induction l with
  | nil => exact mergeSort_nil
  | cons a l ih =>
    obtain ⟨l₁, l₂, hsorted, hrest, hbefore⟩ := mergeSort_cons htrans htotal a l
    have hafter : ∀ b ∈ l₂, key a ≤ key b := by
      have hpairwise := pairwise_mergeSort htrans htotal (a :: l)
      rw [hsorted, pairwise_append] at hpairwise
      exact fun b hb ↦ (h a b).1 ((pairwise_cons.1 hpairwise.2.1).1 b hb)
    have hnot : ∀ b ∈ l₁, ¬ key a ≤ key b := by
      intro b hb hle
      have := hbefore b hb
      rw [(h a b).2 hle] at this
      cases this
    calc (a :: l).mergeSort le = l₁ ++ a :: l₂ := hsorted
      _ = (l₁ ++ l₂).orderedInsert (fun a b ↦ key a ≤ key b) a := by
        rw [orderedInsert_append hnot, orderedInsert_of_forall hafter]
      _ = sortOn key (a :: l) := by rw [← hrest, ih]; rfl

/-- Sort by a comparator, as `sort` does: elements that compare equal stay in their order. -/
def sortBy (cmp : α → α → Ordering) (l : List α) : List α :=
  l.insertionSort fun a b ↦ cmp a b ≠ .gt

/-- **A comparator that goes by a key sorts by it.** -/
theorem sortBy_eq_sortOn {cmp : α → α → Ordering} (h : ∀ a b, cmp a b ≠ .gt ↔ key a ≤ key b)
    (l : List α) : sortBy cmp l = sortOn key l := by
  unfold sortBy sortOn
  congr!
  exact h _ _

/-- A comparator of several levels: where the first says nothing, the next is asked. -/
theorem ite_compare_ne_gt_iff {x y : β} {next : Ordering} :
    (if x ≠ y then compare x y else next) ≠ .gt ↔ x < y ∨ x = y ∧ next ≠ .gt := by
  rcases eq_or_ne x y with rfl | hne
  · simp
  · rw [if_pos hne, compare_le_iff_le, le_iff_lt_or_eq]
    simp [hne]

theorem sortBy_perm (cmp : α → α → Ordering) (l : List α) : (sortBy cmp l).Perm l :=
  perm_insertionSort _ _

/-! ### Ties broken by an id -/

theorem nodup_map_toLex {γ ι : Type*} {id : α → ι} (key : α → γ) (h : (l.map id).Nodup) :
    (l.map fun a ↦ toLex (key a, id a)).Nodup := by
  refine .of_map (fun k ↦ (ofLex k).2) ?_
  rwa [map_map]

/-- With distinct ids nothing stands level. -/
theorem pairwise_sortOn_toLex {ι : Type*} [LinearOrder ι] {id : α → ι} (key : α → β)
    (h : (l.map id).Nodup) :
    (sortOn (fun a ↦ toLex (key a, id a)) l).Pairwise fun a b ↦
      key a < key b ∨ key a = key b ∧ id a < id b :=
  (pairwise_lt_sortOn _ (nodup_map_toLex key h)).imp Prod.Lex.toLex_lt_toLex.1

/-! ### The first element for every key -/

variable [DecidableEq κ] {group : α → κ}

/-- `for (const a of l) if (!map.has(group(a))) map.set(group(a), a)`: the values of the map. -/
def firstBy (group : α → κ) : List α → List α
  | [] => []
  | a :: l => a :: (firstBy group l).filter fun b ↦ group b ≠ group a

theorem firstBy_sublist (group : α → κ) (l : List α) : (firstBy group l).Sublist l := by
  induction l with
  | nil => exact .slnil
  | cons a l ih => exact (filter_sublist.trans ih).cons_cons a

/-- There is one element for a key. -/
theorem nodup_map_firstBy (group : α → κ) (l : List α) : ((firstBy group l).map group).Nodup := by
  induction l with
  | nil => exact nodup_nil
  | cons a l ih =>
    rw [firstBy, map_cons, nodup_cons]
    refine ⟨fun hmem ↦ ?_, ih.sublist (filter_sublist.map group)⟩
    obtain ⟨b, hb, hgroup⟩ := mem_map.1 hmem
    exact of_decide_eq_true (mem_filter.1 hb).2 hgroup

/-- There is an element for every key. -/
theorem exists_mem_firstBy (group : α → κ) (hb : b ∈ l) : ∃ a ∈ firstBy group l, group a = group b := by
  induction l with
  | nil => cases hb
  | cons c l ih =>
    by_cases hgroup : group c = group b
    · exact ⟨c, mem_cons_self, hgroup⟩
    · have hb' : b ∈ l := (mem_cons.1 hb).resolve_left fun h ↦ hgroup (congrArg group h.symm)
      obtain ⟨a, ha, hab⟩ := ih hb'
      have hne : group a ≠ group c := fun h ↦ hgroup (h.symm.trans hab)
      exact ⟨a, mem_cons_of_mem _ (mem_filter.2 ⟨ha, decide_eq_true hne⟩), hab⟩

/-- It is the one that comes first. -/
theorem rel_of_mem_firstBy {R : α → α → Prop} (hR : l.Pairwise R) (ha : a ∈ firstBy group l)
    (hb : b ∈ l) (hgroup : group b = group a) : b = a ∨ R a b := by
  induction l with
  | nil => cases hb
  | cons c l ih =>
    obtain ⟨hc, hl⟩ := pairwise_cons.1 hR
    rcases mem_cons.1 ha with rfl | ha
    · exact (mem_cons.1 hb).imp_right (hc b)
    · obtain ⟨ha, hne⟩ := mem_filter.1 ha
      rcases mem_cons.1 hb with rfl | hb
      · exact absurd hgroup.symm (of_decide_eq_true hne)
      · exact ih hl ha hb

/-- The elements that are not the first of their group. -/
def laterBy (group : α → κ) : List α → List α
  | [] => []
  | a :: l => ((firstBy group l).filter fun b ↦ group b = group a) ++ laterBy group l

/-- The first elements and the later ones are all of them. -/
theorem firstBy_append_laterBy_perm (group : α → κ) (l : List α) :
    (firstBy group l ++ laterBy group l).Perm l := by
  induction l with
  | nil => exact .nil
  | cons a l ih =>
    have hsplit : ((firstBy group l).filter (fun b ↦ group b ≠ group a) ++
        (firstBy group l).filter fun b ↦ group b = group a).Perm (firstBy group l) := by
      have h := filter_append_perm (fun b ↦ decide (group b ≠ group a)) (firstBy group l)
      simpa using h
    rw [firstBy, laterBy, cons_append, ← append_assoc]
    exact ((hsplit.append_right _).trans ih).cons a

/-- No element comes later exactly if the groups are pairwise distinct. -/
theorem laterBy_eq_nil_iff : laterBy group l = [] ↔ (l.map group).Nodup := by
  induction l with
  | nil => exact iff_of_true rfl nodup_nil
  | cons a l ih =>
    rw [laterBy, append_eq_nil_iff, ih, map_cons, nodup_cons, filter_eq_nil_iff]
    refine and_congr_left fun _ ↦ ⟨fun h hmem ↦ ?_, fun h b hb hgroup ↦ ?_⟩
    · obtain ⟨b, hb, hgroup⟩ := mem_map.1 hmem
      obtain ⟨c, hc, hcb⟩ := exists_mem_firstBy group hb
      exact h c hc (decide_eq_true (hcb.trans hgroup))
    · exact h (of_decide_eq_true hgroup ▸ mem_map_of_mem ((firstBy_sublist group l).mem hb))

/-- **The least of each group.** -/
theorem key_le_of_mem_firstBy_sortOn (key : α → β) (ha : a ∈ firstBy group (sortOn key l))
    (hb : b ∈ l) (hgroup : group b = group a) : key a ≤ key b := by
  rcases rel_of_mem_firstBy (pairwise_sortOn key l) ha (mem_sortOn.2 hb) hgroup with rfl | hle
  · exact le_rfl
  · exact hle

end List
