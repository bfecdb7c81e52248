import Mathlib.Algebra.BigOperators.Group.List.Basic
import Mathlib.Data.List.Nodup

/-!
# Vouchers and the rows they are posted in

Books keep vouchers, each with a total, and rows, each of which may post an amount of a voucher by
naming the voucher's key. They are balanced when every name resolves and every voucher comes to the
sum of its rows (`Posting.Balanced`). Books stay balanced when rows that name no voucher are added
(`Balanced.append_rows`), and when a voucher is added with all of its rows (`Balanced.post`).

**Any slice of balanced books balances** (`Balanced.sum_eq`): the vouchers of the slice come to what the
rows of the slice come to, as soon as a row and the voucher it names are in the slice together.
-/

/-- How vouchers are posted in rows. -/
structure Posting (Voucher Row Key M : Type*) where
  key : Voucher → Key
  total : Voucher → M
  names : Row → Option Key
  amount : Row → M

namespace Posting

variable {Voucher Row Key M : Type*} [DecidableEq Key] [AddCommMonoid M]
  {P : Posting Voucher Row Key M} {vouchers : List Voucher} {rows more : List Row} {k : Key}

variable (P) in
/-- What rows post of the voucher with a key. -/
def posted (rows : List Row) (k : Key) : M :=
  ((rows.filter (P.names · = some k)).map P.amount).sum

variable (P) in
structure Balanced (vouchers : List Voucher) (rows : List Row) : Prop where
  nodup : (vouchers.map P.key).Nodup
  resolves : ∀ r ∈ rows, ∀ k, P.names r = some k → k ∈ vouchers.map P.key
  total_eq : ∀ v ∈ vouchers, P.total v = P.posted rows (P.key v)

theorem posted_cons (r : Row) (rows : List Row) (k : Key) :
    P.posted (r :: rows) k = (if P.names r = some k then P.amount r else 0) + P.posted rows k := by
  unfold posted
  by_cases hr : P.names r = some k <;> simp [hr]

theorem posted_append (rows more : List Row) (k : Key) :
    P.posted (rows ++ more) k = P.posted rows k + P.posted more k := by
  rw [posted, List.filter_append, List.map_append, List.sum_append]
  rfl

/-- Rows that do not name a voucher post nothing of it. -/
theorem posted_of_not_names (h : ∀ r ∈ rows, P.names r ≠ some k) : P.posted rows k = 0 := by
  have hnil : rows.filter (P.names · = some k) = [] := by
    rw [List.filter_eq_nil_iff]
    intro r hr
    simpa using h r hr
  rw [posted, hnil]
  rfl

theorem posted_of_names (h : ∀ r ∈ rows, P.names r = some k) :
    P.posted rows k = (rows.map P.amount).sum := by
  have hself : rows.filter (P.names · = some k) = rows :=
    List.filter_eq_self.2 fun r hr ↦ decide_eq_true (h r hr)
  rw [posted, hself]

/-! ### Slices -/

/-- Over vouchers with different keys, a row counts once. -/
theorem sum_map_ite_names (hnodup : (vouchers.map P.key).Nodup) {r : Row} (a : M) :
    (vouchers.map fun v ↦ if P.names r = some (P.key v) then a else 0).sum =
      if ∃ v ∈ vouchers, P.names r = some (P.key v) then a else 0 := by
  induction vouchers with
  | nil => simp
  | cons v vs ih =>
    obtain ⟨hv, hvs⟩ := List.nodup_cons.1 hnodup
    rw [List.map_cons, List.sum_cons, ih hvs]
    by_cases hname : P.names r = some (P.key v)
    · -- no later voucher has the key
      have hlater : ¬ ∃ v' ∈ vs, P.names r = some (P.key v') := by
        rintro ⟨v', hv', hname'⟩
        have hkey : P.key v = P.key v' := Option.some.inj (hname.symm.trans hname')
        exact hv (hkey ▸ List.mem_map_of_mem hv')
      have hhere : ∃ v' ∈ v :: vs, P.names r = some (P.key v') := ⟨v, List.mem_cons_self, hname⟩
      rw [if_pos hname, if_neg hlater, if_pos hhere, add_zero]
    · simp [hname]

/-- The vouchers of a slice post the rows of the slice. -/
theorem sum_posted {p : Voucher → Bool} {q : Row → Bool} (hnodup : (vouchers.map P.key).Nodup)
    (hslice : ∀ r ∈ rows, q r = true ↔ ∃ v ∈ vouchers.filter p, P.names r = some (P.key v)) :
    ((vouchers.filter p).map fun v ↦ P.posted rows (P.key v)).sum =
      ((rows.filter q).map P.amount).sum := by
  have hfilter : ((vouchers.filter p).map P.key).Nodup :=
    hnodup.sublist (List.filter_sublist.map _)
  induction rows with
  | nil => simp [posted]
  | cons r rows ih =>
    obtain ⟨hr, hrows⟩ := List.forall_mem_cons.1 hslice
    have hhead := sum_map_ite_names hfilter (r := r) (P.amount r)
    simp only [posted_cons, List.sum_map_add, ih hrows, hhead, ← hr]
    rcases hq : q r with - | - <;> simp [hq]

/-- **Any slice of balanced books balances.** -/
theorem Balanced.sum_eq (h : P.Balanced vouchers rows) {p : Voucher → Bool} {q : Row → Bool}
    (hnamed : ∀ r ∈ rows, q r = true → P.names r ≠ none)
    (hslice : ∀ v ∈ vouchers, ∀ r ∈ rows, P.names r = some (P.key v) → q r = p v) :
    ((vouchers.filter p).map P.total).sum = ((rows.filter q).map P.amount).sum := by
  have htotals : (vouchers.filter p).map P.total =
      (vouchers.filter p).map fun v ↦ P.posted rows (P.key v) :=
    List.map_congr_left fun v hv ↦ h.total_eq v (List.mem_filter.1 hv).1
  rw [htotals]
  refine sum_posted h.nodup fun r hr ↦ ⟨fun hq ↦ ?_, ?_⟩
  · obtain ⟨k, hk⟩ := Option.ne_none_iff_exists'.1 (hnamed r hr hq)
    obtain ⟨v, hv, rfl⟩ := List.mem_map.1 (h.resolves r hr k hk)
    exact ⟨v, List.mem_filter.2 ⟨hv, (hslice v hv r hr hk).symm.trans hq⟩, hk⟩
  · rintro ⟨v, hv, hk⟩
    obtain ⟨hmem, hp⟩ := List.mem_filter.1 hv
    exact (hslice v hmem r hr hk).trans hp

/-! ### Bookkeeping -/

/-- Rows that name no voucher. -/
theorem Balanced.append_rows (h : P.Balanced vouchers rows) (hmore : ∀ r ∈ more, P.names r = none) :
    P.Balanced vouchers (rows ++ more) := by
  refine ⟨h.nodup, fun r hr k hk ↦ ?_, fun v hv ↦ ?_⟩
  · rcases List.mem_append.1 hr with hold | hnew
    · exact h.resolves r hold k hk
    · cases (hmore r hnew).symm.trans hk
  · have hnone : P.posted more (P.key v) = 0 :=
      posted_of_not_names fun r hr ↦ by simp [hmore r hr]
    rw [posted_append, hnone, add_zero]
    exact h.total_eq v hv

/-- A new voucher, with all of its rows. -/
theorem Balanced.post (h : P.Balanced vouchers rows) {v : Voucher}
    (hfresh : P.key v ∉ vouchers.map P.key) (hmore : ∀ r ∈ more, P.names r = some (P.key v))
    (htotal : P.total v = (more.map P.amount).sum) :
    P.Balanced (vouchers ++ [v]) (rows ++ more) := by
  have hkeys : (vouchers ++ [v]).map P.key = vouchers.map P.key ++ [P.key v] := List.map_append
  refine ⟨?_, fun r hr k hk ↦ ?_, fun v' hv' ↦ ?_⟩
  · rw [hkeys]
    exact h.nodup.append (List.nodup_singleton _) (by simpa using hfresh)
  · rw [hkeys, List.mem_append, List.mem_singleton]
    rcases List.mem_append.1 hr with hold | hnew
    · exact Or.inl (h.resolves r hold k hk)
    · exact Or.inr (Option.some.inj (hk.symm.trans (hmore r hnew)))
  · rw [posted_append]
    rcases List.mem_append.1 hv' with hold | hnew
    · -- the new rows name another voucher
      have hnone : P.posted more (P.key v') = 0 := posted_of_not_names fun r hr hname ↦
        hfresh (Option.some.inj ((hmore r hr).symm.trans hname) ▸ List.mem_map_of_mem hold)
      rw [hnone, add_zero]
      exact h.total_eq v' hold
    · obtain rfl := List.mem_singleton.1 hnew
      have hnone : P.posted rows (P.key v') = 0 := posted_of_not_names fun r hr hname ↦
        hfresh (h.resolves r hr _ hname)
      rw [hnone, zero_add, posted_of_names hmore, htotal]

end Posting
