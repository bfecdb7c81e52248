import TolPlatform.Library.Refinement

/-!
# Systems that serve another one

A party system **hosts** another one with the same parties when each of its steps is a step of the same party
of the other system, or none of that system at all. The steps of a run that are one, in the order in which
they are taken, are then a run of the hosted system (`Hosts.run`), so that whatever holds of every run of it
holds of what the host does to it.

The host says when a party is *busy*: it has to be once it has taken a hosted step, and then stays so. A host
that lets one party of a kind become busy lets one party of that kind take steps, and what such a party shows
only with its last step is seen at most once (`length_eventsAlong_le_one`), and once if it comes to it
(`eventsAlong_ne_nil`).
-/

namespace PartySystem

variable {Pid Env Shared Local Env' Shared' Local' Event : Type*} [DecidableEq Pid]

/-- The steps of `T` are steps of `S`, or nothing to it. -/
structure Hosts (T : PartySystem Pid Env Shared Local) (S : PartySystem Pid Env' Shared' Local') where
  rel : Config Pid Shared Local → Config Pid Shared' Local' → Prop
  busy : Local → Prop
  /-- What the hosted step draws. -/
  env : Env → Env'
  fire : ∀ {c p e c' a}, rel c a → T.fire c p e = some c' →
    rel c' a ∨ busy (c'.locals p) ∧ ∃ a', S.fire a p (env e) = some a' ∧ rel c' a'
  stays : ∀ {p e s l s' l'}, busy l → T.step p e s l = some (s', l') → busy l'

variable {T : PartySystem Pid Env Shared Local} {S : PartySystem Pid Env' Shared' Local'}

theorem Hosts.busy_of_fire (H : T.Hosts S) {c c' : Config Pid Shared Local} {p q : Pid} {e : Env}
    (hq : H.busy (c.locals q)) (hfire : T.fire c p e = some c') : H.busy (c'.locals q) := by
  by_cases hqp : q = p
  · subst hqp
    exact H.stays hq (step_of_fire hfire)
  · rwa [locals_of_fire hfire hqp]

theorem Hosts.busy_of_run (H : T.Hosts S) {c c' : Config Pid Shared Local} {q : Pid}
    {steps : List (Pid × Env)} (hrun : T.run c steps = some c') (hq : H.busy (c.locals q)) :
    H.busy (c'.locals q) :=
  inv_of_run (I := fun c ↦ H.busy (c.locals q)) (fun hq hfire ↦ H.busy_of_fire hq hfire) hq hrun

/-- **A run of the host is a run of the hosted system**, by parties that are busy. -/
theorem Hosts.run (H : T.Hosts S) {c c' : Config Pid Shared Local} {a : Config Pid Shared' Local'}
    (h : H.rel c a) {steps : List (Pid × Env)} (hrun : T.run c steps = some c') :
    ∃ calls a', calls.Sublist (steps.map (Prod.map id H.env)) ∧ S.run a calls = some a' ∧ H.rel c' a' ∧
      ∀ call ∈ calls, H.busy (c'.locals call.1) := by
  induction steps generalizing c a with
  | nil => exact ⟨[], a, .slnil, rfl, Option.some.inj hrun ▸ h, by simp⟩
  | cons step rest ih =>
    obtain ⟨p, e⟩ := step
    obtain ⟨c₁, hfire, hrest⟩ := Option.bind_eq_some_iff.1 hrun
    rcases H.fire h hfire with h₁ | ⟨hbusy, a₁, hstep, h₁⟩
    · obtain ⟨calls, a', hsub, hcalls, h', hall⟩ := ih h₁ hrest
      exact ⟨calls, a', hsub.cons _, hcalls, h', hall⟩
    · obtain ⟨calls, a', hsub, hcalls, h', hall⟩ := ih h₁ hrest
      refine ⟨(p, H.env e) :: calls, a', hsub.cons_cons _, ?_, h', ?_⟩
      · rw [PartySystem.run, hstep]
        exact hcalls
      · rintro call (- | ⟨-, hcall⟩)
        · exact H.busy_of_run hrest hbusy
        · exact hall call hcall

/-! ### What one party shows with its last step -/

variable {observe : Observation Pid Shared Local Event} {Start : Config Pid Shared Local → Prop}
  {G : Pid → Prop} {E : Local → Prop}

/-- Nothing is seen of a kind once the only party of it that has steps left has ended. -/
theorem eventsAlong_eq_nil (hstop : ∀ {p e s l}, E l → T.step p e s l = none)
    (hother : ∀ {c p c'}, ¬ G p → observe c p c' = none) {c : Config Pid Shared Local} {q : Pid}
    (hq : E (c.locals q)) {steps : List (Pid × Env)} (hone : ∀ step ∈ steps, G step.1 → step.1 = q) :
    T.eventsAlong observe c steps = [] := by
  induction steps generalizing c with
  | nil => rfl
  | cons step rest ih =>
    obtain ⟨p, e⟩ := step
    rcases hfire : T.fire c p e with - | c'
    · rw [eventsAlong, hfire]
    · have hpq : p ≠ q := by
        rintro rfl
        have hstep := step_of_fire hfire
        rw [hstop hq] at hstep
        cases hstep
      have hp : ¬ G p := fun hG ↦ hpq (hone (p, e) List.mem_cons_self hG)
      rw [eventsAlong_cons hfire, hother hp]
      refine ih ?_ fun step hstep ↦ hone step (List.mem_cons_of_mem _ hstep)
      rwa [locals_of_fire hfire hpq.symm]

/-- **At most one event** is seen of a kind of which one party takes steps, if the event ends it. -/
theorem length_eventsAlong_le_one (hstop : ∀ {p e s l}, E l → T.step p e s l = none)
    (hother : ∀ {c p c'}, ¬ G p → observe c p c' = none)
    (hshow : ∀ {c p e c' event}, T.Reachable Start c → G p → T.fire c p e = some c' →
      observe c p c' = some event → E (c'.locals p))
    {c : Config Pid Shared Local} (hc : T.Reachable Start c) {steps : List (Pid × Env)}
    (hone : ∀ step ∈ steps, ∀ step' ∈ steps, G step.1 → G step'.1 → step.1 = step'.1) :
    (T.eventsAlong observe c steps).length ≤ 1 := by
  induction steps generalizing c with
  | nil => exact Nat.zero_le 1
  | cons step rest ih =>
    obtain ⟨p, e⟩ := step
    rcases hfire : T.fire c p e with - | c'
    · rw [eventsAlong, hfire]
      exact Nat.zero_le 1
    · rw [eventsAlong_cons hfire]
      rcases hobserve : observe c p c' with - | event
      · exact ih (hc.fire hfire) fun step hstep step' hstep' ↦
          hone step (List.mem_cons_of_mem _ hstep) step' (List.mem_cons_of_mem _ hstep')
      · have hp : G p := by
          by_contra hnot
          rw [hother hnot] at hobserve
          cases hobserve
        have hrest : T.eventsAlong observe c' rest = [] :=
          eventsAlong_eq_nil hstop hother (hshow hc hp hfire hobserve) fun step hstep hG ↦
            hone step (List.mem_cons_of_mem _ hstep) (p, e) List.mem_cons_self hG hp
        rw [hrest]
        exact Nat.le_refl 1

/-- Something is seen of a run in which a party comes to satisfy `P`, if that shows. -/
theorem eventsAlong_ne_nil {P : Local → Prop} {q : Pid}
    (hshow : ∀ {c e c'}, T.Reachable Start c → T.fire c q e = some c' → P (c'.locals q) →
      observe c q c' ≠ none)
    {c c' : Config Pid Shared Local} (hc : T.Reachable Start c) {steps : List (Pid × Env)}
    (hrun : T.run c steps = some c') (hq : ¬ P (c.locals q)) (hq' : P (c'.locals q)) :
    T.eventsAlong observe c steps ≠ [] := by
  induction steps generalizing c with
  | nil => exact absurd (Option.some.inj hrun ▸ hq') hq
  | cons step rest ih =>
    obtain ⟨p, e⟩ := step
    obtain ⟨c₁, hfire, hrest⟩ := Option.bind_eq_some_iff.1 hrun
    rw [eventsAlong_cons hfire]
    by_cases hnow : P (c₁.locals q)
    · -- it was the step of `q` itself
      obtain rfl : p = q := by
        by_contra hne
        exact hq (locals_of_fire hfire (Ne.symm hne) ▸ hnow)
      obtain ⟨event, hevent⟩ := Option.ne_none_iff_exists'.1 (hshow hc hfire hnow)
      rw [hevent]
      exact List.cons_ne_nil _ _
    · exact fun hnil ↦ ih (hc.fire hfire) hrest hnow (List.append_eq_nil_iff.1 hnil).2

end PartySystem
