import TolPlatform.Library.Interleaving

/-!
# Runs that an automaton allows

An abstract automaton says what each event does, where the event may happen. A party system is observed by
the event that a step shows, if it shows one, and refines the automaton along a relation of configurations
and abstract states when every step keeps the relation, the automaton taking the step's event
(`Refines.fire`). Then what is seen of a whole run is a trace of the automaton (`Refines.run`).
-/

/-- What an event does to an abstract state, or none where it may not happen. -/
abbrev Automaton (Event State : Type*) := State → Event → Option State

namespace Automaton

variable {Event State : Type*} (M : Automaton Event State)

/-- The events one after another. -/
def trace (a : State) (events : List Event) : Option State := events.foldlM M a

variable {M} {a a' : State} {e : Event} {events events' : List Event}

@[simp] theorem trace_nil : M.trace a [] = some a := rfl

@[simp] theorem trace_cons : M.trace a (e :: events) = (M a e).bind fun a₁ ↦ M.trace a₁ events := rfl

theorem trace_append : M.trace a (events ++ events') =
    (M.trace a events).bind fun a₁ ↦ M.trace a₁ events' :=
  List.foldlM_append

/-- What a trace keeps when each event does. -/
theorem trace_keeps {I : State → Prop} (hI : ∀ {a e a'}, I a → M a e = some a' → I a') (ha : I a)
    (h : M.trace a events = some a') : I a' := by
  induction events generalizing a with
  | nil => exact Option.some.inj h ▸ ha
  | cons e events ih =>
    obtain ⟨a₁, hstep, hrest⟩ := Option.bind_eq_some_iff.1 h
    exact ih (hI ha hstep) hrest

end Automaton

namespace PartySystem

variable {Pid Env Shared Local Event State : Type*} [DecidableEq Pid]

/-- What a step shows: the configuration before it, the party and the configuration after it. -/
abbrev Observation (Pid Shared Local Event : Type*) :=
  Config Pid Shared Local → Pid → Config Pid Shared Local → Option Event

variable (S : PartySystem Pid Env Shared Local) (observe : Observation Pid Shared Local Event)

/-- What is seen of a schedule, up to a step that is not enabled. -/
def eventsAlong : Config Pid Shared Local → List (Pid × Env) → List Event
  | _, [] => []
  | c, (p, e) :: rest =>
    match S.fire c p e with
    | none => []
    | some c' => (observe c p c').toList ++ eventsAlong c' rest

/-- A party system does what an automaton allows. -/
structure Refines (M : Automaton Event State) where
  rel : Config Pid Shared Local → State → Prop
  fire : ∀ {c p e c' a}, rel c a → S.fire c p e = some c' →
    ∃ a', M.trace a (observe c p c').toList = some a' ∧ rel c' a'

variable {S observe} {M : Automaton Event State}

theorem eventsAlong_cons {c c' : Config Pid Shared Local} {p : Pid} {e : Env}
    (hfire : S.fire c p e = some c') (rest : List (Pid × Env)) :
    S.eventsAlong observe c ((p, e) :: rest) =
      (observe c p c').toList ++ S.eventsAlong observe c' rest := by
  rw [eventsAlong, hfire]

/-- What shows when a party comes to satisfy `P` has been seen of every run after which one does. -/
theorem mem_eventsAlong {P : Local → Prop} {event : Event}
    (hobserve : ∀ {c p e c'}, S.fire c p e = some c' → ¬ P (c.locals p) → P (c'.locals p) →
      observe c p c' = some event)
    {c c' : Config Pid Shared Local} {q : Pid} {steps : List (Pid × Env)}
    (hrun : S.run c steps = some c') (hq : ¬ P (c.locals q)) (hq' : P (c'.locals q)) :
    event ∈ S.eventsAlong observe c steps := by
  induction steps generalizing c with
  | nil =>
    obtain rfl := Option.some.inj hrun
    exact absurd hq' hq
  | cons step rest ih =>
    obtain ⟨p, e⟩ := step
    obtain ⟨c₁, hfire, hrest⟩ := Option.bind_eq_some_iff.1 hrun
    rw [eventsAlong_cons hfire, List.mem_append]
    by_cases hnow : P (c₁.locals q)
    · -- it was the step of `q` itself
      obtain rfl : p = q := by
        by_contra hne
        exact hq (locals_of_fire hfire (Ne.symm hne) ▸ hnow)
      exact Or.inl (Option.mem_toList.2 (hobserve hfire hq hnow))
    · exact Or.inr (ih hrest hnow)

/-- **What is seen of a run is a trace.** -/
theorem Refines.run (R : S.Refines observe M) {c c' : Config Pid Shared Local} {a : State}
    (h : R.rel c a) {steps : List (Pid × Env)} (hrun : S.run c steps = some c') :
    ∃ a', M.trace a (S.eventsAlong observe c steps) = some a' ∧ R.rel c' a' := by
  induction steps generalizing c a with
  | nil => exact ⟨a, rfl, Option.some.inj hrun ▸ h⟩
  | cons step rest ih =>
    obtain ⟨p, e⟩ := step
    obtain ⟨c₁, hfire, hrest⟩ := Option.bind_eq_some_iff.1 hrun
    obtain ⟨a₁, hevent, h₁⟩ := R.fire h hfire
    obtain ⟨a', hevents, h'⟩ := ih h₁ hrest
    refine ⟨a', ?_, h'⟩
    rw [eventsAlong_cons hfire, Automaton.trace_append, hevent]
    exact hevents

end PartySystem
