import Mathlib.Algebra.Ring.Nat
import Mathlib.Data.Set.Basic
import Mathlib.Data.List.Basic

/-!
# Delimited words

Words written one after another. A word is delimited against a set of words when its end can be seen:
read beside one of them, each followed by a stop or by nothing, it leaves the same rest (`Delimited`).
Then it is the same word, too (`Delimited.eq_and_eq`).

* Words without stops in them are delimited (`eq_and_eq_of_notMem`), from behind as well
  (`eq_and_eq_of_last`), and so are words of one weight (`eq_and_eq_of_weight`) and a code that is read
  back from its front, whatever follows (`PrefixCode.of_read`).
* A list of delimited words is read back from the text of them all, up to a closing symbol: written one
  after another (`eq_and_eq_of_flatten`) or with a separator in between (`eq_and_eq_of_intercalate`).
-/

namespace List

variable {α σ : Type*} {stop : Set σ} {T : Set (List σ)} {t t' r s : List σ}

/-- Nothing, or what goes on with a stop. -/
def Stops (stop : Set σ) (r : List σ) : Prop := ∀ c ∈ r.head?, c ∈ stop

@[simp] theorem stops_cons {c : σ} : Stops stop (c :: r) ↔ c ∈ stop := by
  simp [Stops]

/-- Where `t` ends can be seen beside any word of `T`. -/
def Delimited (stop : Set σ) (T : Set (List σ)) (t : List σ) : Prop :=
  ∀ ⦃t'⦄, t' ∈ T → ∀ ⦃r s⦄, Stops stop r → Stops stop s → t ++ r = t' ++ s → r = s

theorem Delimited.eq_and_eq (h : Delimited stop T t) (ht' : t' ∈ T) (hr : Stops stop r)
    (hs : Stops stop s) (heq : t ++ r = t' ++ s) : t = t' ∧ r = s := by
  obtain rfl := h ht' hr hs heq
  exact ⟨append_cancel_right heq, rfl⟩

/-! ### Words without stops -/

theorem eq_and_eq_of_notMem (ht : ∀ c ∈ t, c ∉ stop) (ht' : ∀ c ∈ t', c ∉ stop)
    (hr : Stops stop r) (hs : Stops stop s) (h : t ++ r = t' ++ s) : t = t' ∧ r = s := by
  induction t generalizing t' with
  | nil =>
    rcases t' with - | ⟨c, t'⟩
    · exact ⟨rfl, h⟩
    · rw [nil_append, cons_append] at h
      rw [h, stops_cons] at hr
      exact absurd hr (ht' c mem_cons_self)
  | cons c t ih =>
    obtain ⟨hc, ht⟩ := forall_mem_cons.1 ht
    rcases t' with - | ⟨c', t'⟩
    · rw [nil_append, cons_append] at h
      rw [← h, stops_cons] at hs
      exact absurd hs hc
    · obtain ⟨hcc', hrest⟩ := cons.inj h
      obtain ⟨htt', hrs⟩ := ih ht (forall_mem_cons.1 ht').2 hrest
      exact ⟨congrArg₂ _ hcc' htt', hrs⟩

/-- The last word, which has no separator in it. -/
theorem eq_and_eq_of_last {sep : σ} (ht : sep ∉ t) (ht' : sep ∉ t')
    (h : r ++ sep :: t = s ++ sep :: t') : r = s ∧ t = t' := by
  have hrev := congrArg reverse h
  rw [reverse_append, reverse_append, reverse_cons, reverse_cons, append_assoc, append_assoc] at hrev
  have hstops {u : List σ} : Stops {sep} ([sep] ++ u) := stops_cons.2 rfl
  have hnot {t : List σ} (ht : sep ∉ t) : ∀ c ∈ t.reverse, c ∉ ({sep} : Set σ) := by
    rintro c hc rfl
    exact ht (mem_reverse.1 hc)
  obtain ⟨hwords, hrest⟩ := eq_and_eq_of_notMem (hnot ht) (hnot ht') hstops hstops hrev
  exact ⟨reverse_injective (cons.inj hrest).2, reverse_injective hwords⟩

/-! ### Words of one weight -/

/-- Words of one weight, where every symbol weighs something. -/
theorem eq_and_eq_of_weight {w : σ → ℕ} (hw : ∀ c, 0 < w c)
    (hsum : (t.map w).sum = (t'.map w).sum) (h : t ++ r = t' ++ s) : t = t' ∧ r = s := by
  induction t generalizing t' with
  | nil =>
    rcases t' with - | ⟨c, t'⟩
    · exact ⟨rfl, h⟩
    · have hc := hw c
      rw [map_cons, sum_cons, map_nil, sum_nil] at hsum
      omega
  | cons c t ih =>
    rcases t' with - | ⟨c', t'⟩
    · have hc := hw c
      rw [map_cons, sum_cons, map_nil, sum_nil] at hsum
      omega
    · obtain ⟨rfl, hrest⟩ := cons.inj h
      rw [map_cons, map_cons, sum_cons, sum_cons, Nat.add_left_cancel_iff] at hsum
      obtain ⟨rfl, hrs⟩ := ih hsum hrest
      exact ⟨rfl, hrs⟩

/-! ### Prefix codes -/

/-- No stop is needed to see where a word of `f` ends, and which it is. -/
def PrefixCode (f : α → List σ) : Prop := ∀ ⦃a b r s⦄, f a ++ r = f b ++ s → a = b ∧ r = s

namespace PrefixCode

variable {f : α → List σ}

/-- What is read back from its front is a prefix code. -/
theorem of_read (read : List σ → Option (α × List σ)) (h : ∀ a r, read (f a ++ r) = some (a, r)) :
    PrefixCode f := by
  intro a b r s heq
  have hread : some (a, r) = some (b, s) := by rw [← h, heq, h]
  exact Prod.mk.inj (Option.some.inj hread)

theorem injective (h : PrefixCode f) : Function.Injective f := fun _ _ hab ↦
  (h (congrArg (· ++ []) hab)).1

theorem delimited (h : PrefixCode f) (a : α) : Delimited stop (Set.range f) (f a) := by
  rintro _ ⟨b, rfl⟩ r s - - heq
  exact (h heq).2

end PrefixCode

/-! ### Lists of words -/

variable {close sep : σ} {l l' : List (List σ)}

variable (stop T) in
/-- **Words one after another.** Each starts with a stop that is not the closing one, so that the word
before it ends there and the list does not. -/
theorem eq_and_eq_of_flatten (hclose : close ∈ stop)
    (hT : ∀ t ∈ T, ∃ c u, t = c :: u ∧ c ∈ stop ∧ c ≠ close)
    (hl : ∀ t ∈ l, t ∈ T ∧ Delimited stop T t) (hl' : ∀ t ∈ l', t ∈ T)
    (h : l.flatten ++ close :: r = l'.flatten ++ close :: s) : l = l' ∧ r = s := by
  have hstops {l : List (List σ)} (hl : ∀ t ∈ l, t ∈ T) (r : List σ) :
      Stops stop (l.flatten ++ close :: r) := by
    rcases l with - | ⟨t, l⟩
    · exact stops_cons.2 hclose
    · obtain ⟨c, u, rfl, hc, -⟩ := hT t (hl t mem_cons_self)
      exact stops_cons.2 hc
  induction l generalizing l' with
  | nil =>
    rcases l' with - | ⟨t', l'⟩
    · exact ⟨rfl, (cons.inj h).2⟩
    · obtain ⟨c, u, rfl, -, hne⟩ := hT t' (hl' t' mem_cons_self)
      exact absurd (cons.inj h).1.symm hne
  | cons t l ih =>
    obtain ⟨⟨ht, hdelimited⟩, hl⟩ := forall_mem_cons.1 hl
    rcases l' with - | ⟨t', l'⟩
    · obtain ⟨c, u, rfl, -, hne⟩ := hT t ht
      exact absurd (cons.inj h).1 hne
    · obtain ⟨ht', hrest'⟩ := forall_mem_cons.1 hl'
      rw [flatten_cons, flatten_cons, append_assoc, append_assoc] at h
      obtain ⟨htt', hrest⟩ := hdelimited.eq_and_eq ht' (hstops (fun t ht ↦ (hl t ht).1) r)
        (hstops hrest' s) h
      obtain ⟨hll', hrs⟩ := ih hl hrest' hrest
      exact ⟨congrArg₂ _ htt' hll', hrs⟩

/-- All but the first word bring their separator along. -/
theorem intercalate_cons_eq (t : List σ) (l : List (List σ)) :
    [sep].intercalate (t :: l) = t ++ (l.map (sep :: ·)).flatten := by
  induction l generalizing t with
  | nil => rw [intercalate_singleton, map_nil, flatten_nil, append_nil]
  | cons t' l ih =>
    rw [intercalate_cons_cons, ih, map_cons, flatten_cons, append_assoc]
    rfl

variable (stop T) in
/-- **Words with a separator in between.** No word starts with a stop. -/
theorem eq_and_eq_of_intercalate (hsep : sep ∈ stop) (hclose : close ∈ stop) (hne : sep ≠ close)
    (hT : ∀ t ∈ T, ∃ c u, t = c :: u ∧ c ∉ stop)
    (hl : ∀ t ∈ l, t ∈ T ∧ Delimited stop T t) (hl' : ∀ t ∈ l', t ∈ T)
    (h : [sep].intercalate l ++ close :: r = [sep].intercalate l' ++ close :: s) :
    l = l' ∧ r = s := by
  rcases l with - | ⟨t, l⟩ <;> rcases l' with - | ⟨t', l'⟩
  · exact ⟨rfl, (cons.inj h).2⟩
  · obtain ⟨c, u, rfl, hc⟩ := hT t' (hl' t' mem_cons_self)
    rw [intercalate_cons_eq] at h
    exact absurd hclose ((cons.inj h).1 ▸ hc)
  · obtain ⟨c, u, rfl, hc⟩ := hT t (hl t mem_cons_self).1
    rw [intercalate_cons_eq] at h
    exact absurd hclose ((cons.inj h).1 ▸ hc)
  · obtain ⟨⟨-, ht⟩, hrest⟩ := forall_mem_cons.1 hl
    obtain ⟨ht', hrest'⟩ := forall_mem_cons.1 hl'
    have hstops (l : List (List σ)) (r : List σ) :
        Stops stop ((l.map (sep :: ·)).flatten ++ close :: r) := by
      rcases l with - | ⟨u, l⟩
      · exact stops_cons.2 hclose
      · exact stops_cons.2 hsep
    rw [intercalate_cons_eq, intercalate_cons_eq, append_assoc, append_assoc] at h
    obtain ⟨htt', heq⟩ := ht.eq_and_eq ht' (hstops l r) (hstops l' s) h
    -- what is left are words that start with the separator
    have hwords : l.map (sep :: ·) = l'.map (sep :: ·) ∧ r = s := by
      refine eq_and_eq_of_flatten stop ((sep :: ·) '' T) hclose ?_ ?_ ?_ heq
      · rintro _ ⟨u, -, rfl⟩
        exact ⟨sep, u, rfl, hsep, hne⟩
      · refine forall_mem_map.2 fun u hu ↦ ⟨⟨u, (hrest u hu).1, rfl⟩, ?_⟩
        rintro _ ⟨u', hu', rfl⟩ r s hr hs hcons
        exact (hrest u hu).2 hu' hr hs (cons.inj hcons).2
      · exact forall_mem_map.2 fun u hu ↦ ⟨u, hrest' u hu, rfl⟩
    have hll' : l = l' := map_injective_iff.2 (fun _ _ h ↦ (cons.inj h).2) hwords.1
    exact ⟨congrArg₂ _ htt' hll', hwords.2⟩

end List
