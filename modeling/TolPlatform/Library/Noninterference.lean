import Mathlib.Data.List.Basic
import Mathlib.Data.List.Nodup

/-!
# Noninterference of a sequential machine

A **machine** answers one action at a time and moves on to its next state. Some actions are
*hidden*; an observer sees the answers to the actions it *sees*. The machine is noninterfering at a
state when deleting the hidden actions from any sequence leaves the observer's answers as they were.

## The two directions of unwinding

* `view_eq_of_unwinding` proves the two-run statement for one sequence from a relation between the
  states of the two runs and the actions still to come: a hidden action may move the first run
  alone, every other action moves both, and related states answer the observer alike.
* `Indistinct` is the coarsest such relation, so noninterference of a machine can be used one action
  at a time (`Indistinct.hidden`, `Indistinct.shown`, `Indistinct.answer`): this is how a machine
  built on top of a noninterfering one inherits the property.
-/

/-- A machine: what it answers to an action in a state, and the state it moves to. -/
structure Machine (Act Out State : Type*) where
  /-- One action. -/
  step : Act → State → Out × State

namespace Machine

variable {Act Out State : Type*} (M : Machine Act Out State)

/-! ### Sequences of actions -/

/-- The state after a sequence of actions. -/
def after (s : State) : List Act → State
  | [] => s
  | a :: as => after (M.step a s).2 as

/-- The actions of a sequence with their answers. -/
def exchanges (s : State) : List Act → List (Act × Out)
  | [] => []
  | a :: as => (a, (M.step a s).1) :: exchanges (M.step a s).2 as

/-- The exchanges an observer takes part in. -/
def view (sees : Act → Prop) [DecidablePred sees] (s : State) (as : List Act) : List (Act × Out) :=
  (M.exchanges s as).filter fun x ↦ sees x.1

/-- A sequence without its hidden actions. -/
def purge (hides : Act → Prop) [DecidablePred hides] (as : List Act) : List Act :=
  as.filter fun a ↦ ¬ hides a

variable {M} {sees hides : Act → Prop} [DecidablePred sees] [DecidablePred hides]
  {s t : State} {a : Act} {as : List Act} {o : Out}

theorem map_fst_exchanges : (M.exchanges s as).map Prod.fst = as := by
  induction as generalizing s with
  | nil => rfl
  | cons a as ih => rw [exchanges, List.map_cons, ih]

/-- An action's answer is the one given in the state its predecessors lead to. -/
theorem mem_exchanges_append {pre post : List Act} :
    (a, (M.step a (M.after s pre)).1) ∈ M.exchanges s (pre ++ a :: post) := by
  induction pre generalizing s with
  | nil => exact List.mem_cons_self
  | cons b pre ih => exact List.mem_cons_of_mem _ ih

theorem mem_view_iff : (a, o) ∈ M.view sees s as ↔ (a, o) ∈ M.exchanges s as ∧ sees a := by
  rw [view, List.mem_filter, decide_eq_true_eq]

/-- In a sequence of distinct actions each has one answer. -/
theorem exchange_unique (has : as.Nodup) {o' : Out} (h : (a, o) ∈ M.exchanges s as)
    (h' : (a, o') ∈ M.exchanges s as) : o = o' := by
  have hnodup : ((M.exchanges s as).map Prod.fst).Nodup := by rwa [map_fst_exchanges]
  exact (Prod.mk.inj (List.inj_on_of_nodup_map hnodup h h' rfl)).2

theorem purge_append {as' : List Act} :
    purge hides (as ++ as') = purge hides as ++ purge hides as' :=
  List.filter_append ..

theorem purge_cons_of_hides (ha : hides a) : purge hides (a :: as) = purge hides as :=
  List.filter_cons_of_neg (by simpa using ha)

theorem purge_cons_of_not (ha : ¬ hides a) : purge hides (a :: as) = a :: purge hides as :=
  List.filter_cons_of_pos (by simpa using ha)

theorem view_cons_of_sees (ha : sees a) :
    M.view sees s (a :: as) = (a, (M.step a s).1) :: M.view sees (M.step a s).2 as :=
  List.filter_cons_of_pos (by simpa using ha)

theorem view_cons_of_not (ha : ¬ sees a) :
    M.view sees s (a :: as) = M.view sees (M.step a s).2 as :=
  List.filter_cons_of_neg (by simpa using ha)

/-! ### Two runs -/

/-- **Unwinding.** A relation that hidden actions keep on one side, that the others keep on both,
and that forces equal answers to the observer, makes the observer's views equal. -/
theorem view_eq_of_unwinding (R : State → State → List Act → Prop)
    (hdisjoint : ∀ a, sees a → ¬ hides a)
    (hhidden : ∀ {s t a as}, R s t (a :: as) → hides a → R (M.step a s).2 t as)
    (hshown : ∀ {s t a as}, R s t (a :: as) → ¬ hides a →
      R (M.step a s).2 (M.step a t).2 as ∧ (sees a → (M.step a s).1 = (M.step a t).1))
    (h : R s t as) : M.view sees s as = M.view sees t (purge hides as) := by
  induction as generalizing s t with
  | nil => rfl
  | cons a as ih =>
    by_cases ha : hides a
    · rw [purge_cons_of_hides ha, view_cons_of_not fun hs ↦ hdisjoint a hs ha]
      exact ih (hhidden h ha)
    · obtain ⟨hnext, hanswer⟩ := hshown h ha
      rw [purge_cons_of_not ha]
      by_cases hs : sees a
      · rw [view_cons_of_sees hs, view_cons_of_sees hs, hanswer hs, ih hnext]
      · rw [view_cons_of_not hs, view_cons_of_not hs, ih hnext]

/-- Equal views of a sequence of distinct actions answer each of them alike. -/
theorem answer_eq_of_view_eq {before later : List Act}
    (h : M.view sees s (before ++ a :: later) = M.view sees s (purge hides (before ++ a :: later)))
    (hnodup : (before ++ a :: later).Nodup) (hsees : sees a) (hshown : ¬ hides a) :
    (M.step a (M.after s before)).1 = (M.step a (M.after s (purge hides before))).1 := by
  have hpurged : (a, (M.step a (M.after s (purge hides before))).1) ∈
      M.view sees s (before ++ a :: later) := by
    rw [h, purge_append, purge_cons_of_not hshown]
    exact mem_view_iff.2 ⟨mem_exchanges_append, hsees⟩
  exact exchange_unique hnodup mem_exchanges_append (mem_view_iff.1 hpurged).1

variable (M sees hides)

/-- From `s`, with the hidden actions, the observer sees what it sees from `t` without them. -/
def Indistinct (s t : State) : Prop :=
  ∀ as, M.view sees s as = M.view sees t (purge hides as)

/-- Hidden actions do not interfere with what the observer sees from `s` on. -/
def Noninterfering (s : State) : Prop := M.Indistinct sees hides s s

variable {M sees hides}

theorem Indistinct.hidden (h : M.Indistinct sees hides s t) (ha : hides a) (hs : ¬ sees a) :
    M.Indistinct sees hides (M.step a s).2 t := by
  intro as
  have := h (a :: as)
  rwa [purge_cons_of_hides ha, view_cons_of_not hs] at this

theorem Indistinct.shown (h : M.Indistinct sees hides s t) (ha : ¬ hides a) :
    M.Indistinct sees hides (M.step a s).2 (M.step a t).2 := by
  intro as
  have hview := h (a :: as)
  rw [purge_cons_of_not ha] at hview
  by_cases hs : sees a
  · rw [view_cons_of_sees hs, view_cons_of_sees hs] at hview
    exact (List.cons.inj hview).2
  · rwa [view_cons_of_not hs, view_cons_of_not hs] at hview

theorem Indistinct.answer (h : M.Indistinct sees hides s t) (ha : ¬ hides a) (hs : sees a) :
    (M.step a s).1 = (M.step a t).1 := by
  have hview := h [a]
  rw [purge_cons_of_not ha, view_cons_of_sees hs, view_cons_of_sees hs] at hview
  exact (Prod.mk.inj (List.cons.inj hview).1).2

end Machine
