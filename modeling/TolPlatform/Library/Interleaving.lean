import Mathlib.Logic.Function.Basic
import Mathlib.Data.Option.Basic
import Mathlib.Data.Nat.Notation

/-!
# Interleaved parties over a shared state

A **party system** is a family of parties, each with a local state of its own (a program counter
together with what the party has read so far), acting in turn on one shared state. A step belongs
to one party and is driven by an environment value that supplies whatever the party does not choose
itself. Nothing is assumed about the order of steps: a run is any list of (party, environment) pairs
all of whose steps are enabled.

The index type of parties is arbitrary. A party that never steps is indistinguishable from one that
does not exist, so "any number of concurrent requests" is an infinite family of parties rather than
a dynamically growing pool.

## The two rules

* `ReachableBy.rec_inv` is the plain induction: a predicate of configurations that holds at the
  start and is kept by every admitted step holds of every reachable configuration. The step premise
  may use that the configuration before the step is itself reachable, so invariants are proved in
  layers.
* `ProofOutline.sound` is the Owicki–Gries rule: a shared invariant together with one assertion per
  local state, where a party's own step establishes its next assertion and no other party's step
  can falsify the assertion a party is currently resting on.

Runs are restricted through a step predicate `Ok` rather than by changing the system, so that "in
every run whose steps all meet a condition" and "in every run" are instances of one definition.
-/

/-- Parties with local states acting on one shared state. `step p e s l` is what party `p` does from
local state `l` at shared state `s` when the environment supplies `e`; `none` means the party cannot
move there. -/
structure PartySystem (Pid Env Shared Local : Type*) where
  /-- One step of one party. -/
  step : Pid → Env → Shared → Local → Option (Shared × Local)

namespace PartySystem

/-- The shared state together with every party's local state. -/
structure Config (Pid Shared Local : Type*) where
  /-- What every party sees. -/
  shared : Shared
  /-- Where each party stands. -/
  locals : Pid → Local

variable {Pid Env Shared Local : Type*} [DecidableEq Pid]
variable (S : PartySystem Pid Env Shared Local)

/-! ### Firing one step -/

/-- Let party `p` take one step. -/
def fire (c : Config Pid Shared Local) (p : Pid) (e : Env) : Option (Config Pid Shared Local) :=
  (S.step p e c.shared (c.locals p)).map fun r ↦ ⟨r.1, Function.update c.locals p r.2⟩

variable {S}

/-- What a fired step says about the configuration after it. -/
theorem fire_eq_some_iff {c c' : Config Pid Shared Local} {p : Pid} {e : Env} :
    S.fire c p e = some c' ↔ ∃ s' l', S.step p e c.shared (c.locals p) = some (s', l') ∧
      c' = ⟨s', Function.update c.locals p l'⟩ := by
  simp only [fire, Option.map_eq_some_iff, Prod.exists, eq_comm (a := c')]

/-- A party's own local state after its step. -/
theorem step_of_fire {c c' : Config Pid Shared Local} {p : Pid} {e : Env}
    (h : S.fire c p e = some c') :
    S.step p e c.shared (c.locals p) = some (c'.shared, c'.locals p) := by
  obtain ⟨s', l', hstep, rfl⟩ := fire_eq_some_iff.1 h
  simpa using hstep

/-- Everybody else's local state is untouched. -/
theorem locals_of_fire {c c' : Config Pid Shared Local} {p q : Pid} {e : Env}
    (h : S.fire c p e = some c') (hq : q ≠ p) : c'.locals q = c.locals q := by
  obtain ⟨s', l', -, rfl⟩ := fire_eq_some_iff.1 h
  exact Function.update_of_ne hq _ _

/-! ### Reachability and runs -/

variable (S)

/-- A condition on steps: the configuration before, the party, the environment, the configuration
after. -/
abbrev StepCond (Pid Env Shared Local : Type*) :=
  Config Pid Shared Local → Pid → Env → Config Pid Shared Local → Prop

/-- Configurations reached from `Start` by steps that all satisfy `Ok`. -/
inductive ReachableBy (Ok : StepCond Pid Env Shared Local)
    (Start : Config Pid Shared Local → Prop) : Config Pid Shared Local → Prop
  | start {c} : Start c → ReachableBy Ok Start c
  | step {c c' p e} : ReachableBy Ok Start c → S.fire c p e = some c' → Ok c p e c' →
      ReachableBy Ok Start c'

/-- Configurations reached by any steps at all. -/
def Reachable (Start : Config Pid Shared Local → Prop) : Config Pid Shared Local → Prop :=
  S.ReachableBy (fun _ _ _ _ ↦ True) Start

/-- Execute a schedule: each entry names the party that moves and what the environment supplies. -/
def run : Config Pid Shared Local → List (Pid × Env) → Option (Config Pid Shared Local)
  | c, [] => some c
  | c, (p, e) :: rest => (S.fire c p e).bind fun c' ↦ run c' rest

/-- Every step of a schedule satisfies `Q`. -/
def Along (Q : StepCond Pid Env Shared Local) :
    Config Pid Shared Local → List (Pid × Env) → Prop
  | _, [] => True
  | c, (p, e) :: rest => ∀ c', S.fire c p e = some c' → Q c p e c' ∧ Along Q c' rest

/-- Execute a schedule, testing the configuration before every step. -/
def testAlong (test : Config Pid Shared Local → Pid → Bool) :
    Config Pid Shared Local → List (Pid × Env) → Bool
  | _, [] => true
  | c, (p, e) :: rest => test c p && (S.fire c p e).all fun c' ↦ testAlong test c' rest

/-- Execute a schedule, testing every step before it is taken. -/
def checkAlong (test : Config Pid Shared Local → Pid → Env → Bool) :
    Config Pid Shared Local → List (Pid × Env) → Bool
  | _, [] => true
  | c, (p, e) :: rest => test c p e && (S.fire c p e).all fun c' ↦ checkAlong test c' rest

/-- Let one party take `n` steps with nobody in between. -/
def solo (p : Pid) (e : Env) : ℕ → Shared → Local → Option (Shared × Local)
  | 0, s, l => some (s, l)
  | n + 1, s, l => (S.step p e s l).bind fun r ↦ solo p e n r.1 r.2

/-- How many steps of a schedule are events of a kind. -/
def countAlong (event : Config Pid Shared Local → Pid → Config Pid Shared Local → Bool) :
    Config Pid Shared Local → List (Pid × Env) → ℕ
  | _, [] => 0
  | c, (p, e) :: rest =>
    match S.fire c p e with
    | none => 0
    | some c' => (if event c p c' then 1 else 0) + countAlong event c' rest

variable {S} {Ok Ok' : StepCond Pid Env Shared Local} {Start : Config Pid Shared Local → Prop}

/-- A run that was executed and tested at its end. -/
theorem exists_run_of_test {P : Config Pid Shared Local → Prop} [DecidablePred P]
    {c : Config Pid Shared Local} {steps : List (Pid × Env)}
    (h : (S.run c steps).any (fun c' ↦ P c') = true) : ∃ c', S.run c steps = some c' ∧ P c' := by
  obtain ⟨c', hc', hP⟩ := (Option.any_eq_true _ _).1 h
  exact ⟨c', hc', of_decide_eq_true hP⟩

/-- A run and one step after it, tested before and after that step. -/
theorem exists_run_fire_of_test {P : Config Pid Shared Local → Config Pid Shared Local → Prop}
    [∀ c₁ c₂, Decidable (P c₁ c₂)] {c : Config Pid Shared Local} {steps : List (Pid × Env)}
    {p : Pid} {e : Env}
    (h : (S.run c steps).any (fun c₁ ↦ (S.fire c₁ p e).any fun c₂ ↦ P c₁ c₂) = true) :
    ∃ c₁ c₂, S.run c steps = some c₁ ∧ S.fire c₁ p e = some c₂ ∧ P c₁ c₂ := by
  obtain ⟨c₁, hc₁, h⟩ := (Option.any_eq_true _ _).1 h
  obtain ⟨c₂, hc₂, hP⟩ := (Option.any_eq_true _ _).1 h
  exact ⟨c₁, c₂, hc₁, hc₂, of_decide_eq_true hP⟩

/-- Weakening the step condition keeps a configuration reachable. -/
theorem ReachableBy.mono (hOk : ∀ {c p e c'}, Ok c p e c' → Ok' c p e c')
    {c : Config Pid Shared Local} (h : S.ReachableBy Ok Start c) : S.ReachableBy Ok' Start c := by
  induction h with
  | start h => exact .start h
  | step _ hfire hok ih => exact .step ih hfire (hOk hok)

/-- So does weakening where a run may start. -/
theorem ReachableBy.mono_start {Start' : Config Pid Shared Local → Prop}
    (hStart : ∀ c, Start c → Start' c) {c : Config Pid Shared Local}
    (h : S.ReachableBy Ok Start c) : S.ReachableBy Ok Start' c := by
  induction h with
  | start h => exact .start (hStart _ h)
  | step _ hfire hok ih => exact .step ih hfire hok

/-- What is reached from somewhere that has been reached. -/
theorem ReachableBy.trans {c c' : Config Pid Shared Local} (h : S.ReachableBy Ok Start c)
    (h' : S.ReachableBy Ok (· = c) c') : S.ReachableBy Ok Start c' := by
  induction h' with
  | start hc => exact hc ▸ h
  | step _ hfire hok ih => exact .step ih hfire hok

theorem ReachableBy.reachable {c : Config Pid Shared Local} (h : S.ReachableBy Ok Start c) :
    S.Reachable Start c :=
  h.mono fun _ ↦ trivial

/-- Executing a schedule from a reachable configuration, all of whose steps meet the condition,
stays reachable. -/
theorem ReachableBy.run {c c' : Config Pid Shared Local} (h : S.ReachableBy Ok Start c) :
    ∀ {steps : List (Pid × Env)}, S.run c steps = some c' → S.Along Ok c steps →
      S.ReachableBy Ok Start c' := by
  intro steps
  induction steps generalizing c with
  | nil =>
    intro hrun _
    rw [PartySystem.run, Option.some.injEq] at hrun
    exact hrun ▸ h
  | cons pe rest ih =>
    obtain ⟨p, e⟩ := pe
    intro hrun halong
    obtain ⟨c₁, hfire, hrest⟩ := Option.bind_eq_some_iff.1 hrun
    obtain ⟨hok, hrest'⟩ := halong c₁ hfire
    exact ih (.step h hfire hok) hrest hrest'

/-- A party that takes no step of a schedule stays where it is. -/
theorem locals_of_run {p : Pid} {c c' : Config Pid Shared Local} {steps : List (Pid × Env)}
    (hrun : S.run c steps = some c') (hp : ∀ step ∈ steps, step.1 ≠ p) :
    c'.locals p = c.locals p := by
  induction steps generalizing c with
  | nil => rw [Option.some.inj hrun]
  | cons step rest ih =>
    obtain ⟨c₁, hfire, hrest⟩ := Option.bind_eq_some_iff.1 hrun
    rw [ih hrest fun s hs ↦ hp s (List.mem_cons_of_mem _ hs),
      locals_of_fire hfire (hp step List.mem_cons_self).symm]

/-- What a party comes to on its own is what a schedule of its steps comes to. -/
theorem run_replicate_of_solo {p : Pid} {e : Env} {n : ℕ} {c : Config Pid Shared Local} {s : Shared}
    {l : Local} (h : S.solo p e n c.shared (c.locals p) = some (s, l)) :
    ∃ c', S.run c (List.replicate n (p, e)) = some c' ∧ c'.shared = s ∧ c'.locals p = l := by
  induction n generalizing c with
  | zero =>
    obtain ⟨hs, hl⟩ := Prod.mk.inj (Option.some.inj h)
    exact ⟨c, rfl, hs, hl⟩
  | succ n ih =>
    obtain ⟨⟨s', l'⟩, hstep, hrest⟩ := Option.bind_eq_some_iff.1 h
    have hfire : S.fire c p e = some ⟨s', Function.update c.locals p l'⟩ :=
      fire_eq_some_iff.2 ⟨s', l', hstep, rfl⟩
    obtain ⟨c', hrun, hc'⟩ := ih (c := ⟨s', Function.update c.locals p l'⟩)
      (by simpa using hrest)
    refine ⟨c', ?_, hc'⟩
    rw [List.replicate_succ, PartySystem.run, hfire]
    exact hrun

theorem Along.of_forall {Q : StepCond Pid Env Shared Local} (hQ : ∀ c p e c', Q c p e c') :
    ∀ (c : Config Pid Shared Local) (steps : List (Pid × Env)), S.Along Q c steps := by
  intro c steps
  induction steps generalizing c with
  | nil => trivial
  | cons pe rest ih => exact fun c' _ ↦ ⟨hQ _ _ _ _, ih c'⟩

/-- A condition that a test decides can be checked by executing the schedule. -/
theorem Along.of_test {Q : StepCond Pid Env Shared Local} {test : Config Pid Shared Local → Pid → Bool}
    (hQ : ∀ c p e c', test c p = true → Q c p e c') {c : Config Pid Shared Local}
    {steps : List (Pid × Env)} (h : S.testAlong test c steps = true) : S.Along Q c steps := by
  induction steps generalizing c with
  | nil => trivial
  | cons step rest ih =>
    intro c' hfire
    obtain ⟨htest, hrest⟩ := Bool.and_eq_true_iff.1 h
    rw [hfire] at hrest
    exact ⟨hQ _ _ _ _ htest, ih hrest⟩

theorem Along.of_check {Q : StepCond Pid Env Shared Local}
    {test : Config Pid Shared Local → Pid → Env → Bool}
    (hQ : ∀ c p e c', test c p e = true → Q c p e c') {c : Config Pid Shared Local}
    {steps : List (Pid × Env)} (h : S.checkAlong test c steps = true) : S.Along Q c steps := by
  induction steps generalizing c with
  | nil => trivial
  | cons step rest ih =>
    intro c' hfire
    obtain ⟨htest, hrest⟩ := Bool.and_eq_true_iff.1 h
    rw [hfire] at hrest
    exact ⟨hQ _ _ _ _ htest, ih hrest⟩

theorem Reachable.run {c c' : Config Pid Shared Local} (h : S.Reachable Start c)
    {steps : List (Pid × Env)} (hrun : S.run c steps = some c') : S.Reachable Start c' :=
  ReachableBy.run h hrun (Along.of_forall (fun _ _ _ _ ↦ trivial) _ _)

theorem Reachable.fire {c c' : Config Pid Shared Local} {p : Pid} {e : Env}
    (h : S.Reachable Start c) (hfire : S.fire c p e = some c') : S.Reachable Start c' :=
  .step h hfire trivial

/-! ### Invariants -/

/-- **Layered induction.** A predicate kept by every admitted step out of a reachable configuration
holds of every reachable configuration. -/
theorem ReachableBy.rec_inv {I : Config Pid Shared Local → Prop}
    (hstart : ∀ c, Start c → I c)
    (hstep : ∀ {c p e c'}, S.ReachableBy Ok Start c → I c → S.fire c p e = some c' →
      Ok c p e c' → I c')
    {c : Config Pid Shared Local} (h : S.ReachableBy Ok Start c) : I c := by
  induction h with
  | start h => exact hstart _ h
  | step hc hfire hok ih => exact hstep hc ih hfire hok

/-- **Two conditions that agree where an invariant holds**, one of which keeps the invariant, hold
along the same schedules. -/
theorem Along.congr_of_inv {Q Q' : StepCond Pid Env Shared Local}
    {I : Config Pid Shared Local → Prop}
    (hQ : ∀ {c p e c'}, I c → S.fire c p e = some c' → (Q c p e c' ↔ Q' c p e c'))
    (hI : ∀ {c p e c'}, I c → S.fire c p e = some c' → Q c p e c' → I c')
    {c : Config Pid Shared Local} (hc : I c) (steps : List (Pid × Env)) :
    S.Along Q c steps ↔ S.Along Q' c steps := by
  induction steps generalizing c with
  | nil => exact Iff.rfl
  | cons pe rest ih =>
    obtain ⟨p, e⟩ := pe
    refine forall_congr' fun c' ↦ forall_congr' fun hfire ↦ ?_
    rw [← hQ hc hfire]
    exact and_congr_right fun hstep ↦ ih (hI hc hfire hstep)

/-- A condition that holds of every step that meets another one, where an invariant holds that such
steps keep. -/
theorem Along.imp_of_inv {Q Q' : StepCond Pid Env Shared Local}
    {I : Config Pid Shared Local → Prop}
    (hI : ∀ {c p e c'}, I c → S.fire c p e = some c' → Q c p e c' → I c' ∧ Q' c p e c')
    {c : Config Pid Shared Local} (hc : I c) {steps : List (Pid × Env)} (h : S.Along Q c steps) :
    S.Along Q' c steps := by
  induction steps generalizing c with
  | nil => trivial
  | cons pe rest ih =>
    intro c' hfire
    obtain ⟨hstep, hrest⟩ := h c' hfire
    obtain ⟨hc', hstep'⟩ := hI hc hfire hstep
    exact ⟨hstep', ih hc' hrest⟩

/-- An invariant that every admitted step keeps holds where a schedule of such steps ends. -/
theorem Along.inv {Q : StepCond Pid Env Shared Local} {I : Config Pid Shared Local → Prop}
    (hI : ∀ {c p e c'}, I c → S.fire c p e = some c' → Q c p e c' → I c')
    {c c' : Config Pid Shared Local} (hc : I c) {steps : List (Pid × Env)}
    (halong : S.Along Q c steps) (hrun : S.run c steps = some c') : I c' :=
  have hreach : S.ReachableBy Q I c' := (ReachableBy.start hc).run hrun halong
  hreach.rec_inv (fun _ h ↦ h) fun _ h hfire hstep ↦ hI h hfire hstep

/-- An invariant that every step keeps holds where a schedule ends. -/
theorem inv_of_run {I : Config Pid Shared Local → Prop}
    (hI : ∀ {c p e c'}, I c → S.fire c p e = some c' → I c')
    {c c' : Config Pid Shared Local} (hc : I c) {steps : List (Pid × Env)}
    (hrun : S.run c steps = some c') : I c' := by
  induction steps generalizing c with
  | nil => exact Option.some.inj hrun ▸ hc
  | cons step rest ih =>
    obtain ⟨c₁, hfire, hrest⟩ := Option.bind_eq_some_iff.1 hrun
    exact ih (hI hc hfire) hrest

/-- **At most once.** An event after which a predicate holds that lasts and rules the event out
happens at most once in a run, and not at all once the predicate holds. -/
theorem countAlong_le_one {event : Config Pid Shared Local → Pid → Config Pid Shared Local → Bool}
    (Spent : Config Pid Shared Local → Prop)
    (hspend : ∀ {c p e c'}, S.fire c p e = some c' → event c p c' = true → Spent c')
    (hspent : ∀ {c p e c'}, S.Reachable Start c → S.fire c p e = some c' → Spent c →
      Spent c' ∧ event c p c' = false)
    {c : Config Pid Shared Local} (hc : S.Reachable Start c) (steps : List (Pid × Env)) :
    S.countAlong event c steps ≤ 1 ∧ (Spent c → S.countAlong event c steps = 0) := by
  induction steps generalizing c with
  | nil => exact ⟨Nat.zero_le 1, fun _ ↦ rfl⟩
  | cons pe rest ih =>
    obtain ⟨p, e⟩ := pe
    rcases hfire : S.fire c p e with - | c'
    · simp [countAlong, hfire]
    · obtain ⟨hle, hzero⟩ := ih (hc.fire hfire)
      have hcount : S.countAlong event c ((p, e) :: rest) =
          (if event c p c' then 1 else 0) + S.countAlong event c' rest := by
        rw [countAlong, hfire]
      rw [hcount]
      refine ⟨?_, fun hspentc ↦ ?_⟩
      · by_cases hevent : event c p c' = true
        · have := hzero (hspend hfire hevent)
          rw [if_pos hevent]
          omega
        · rw [if_neg hevent]
          omega
      · obtain ⟨hspentc', hevent⟩ := hspent hc hfire hspentc
        rw [hevent, hzero hspentc']
        rfl

variable (S) in
/-- A shared invariant and one assertion per local state, with the two Owicki–Gries obligations.
`stable` is the interference condition: it names the resting party `q` and the moving party `p`
separately, so a proof may use what *both* assert. -/
structure ProofOutline where
  /-- Holds of the shared state between any two steps. -/
  inv : Shared → Prop
  /-- What a party may rely on while it rests at a local state. -/
  asrt : Pid → Shared → Local → Prop
  /-- A party's step re-establishes the invariant and its own next assertion. -/
  own : ∀ {p e s l s' l'}, inv s → asrt p s l → S.step p e s l = some (s', l') →
    inv s' ∧ asrt p s' l'
  /-- No other party's step falsifies an assertion. -/
  stable : ∀ {p q e s l s' l' m}, q ≠ p → inv s → asrt p s l → asrt q s m →
    S.step p e s l = some (s', l') → asrt q s' m

/-- The configurations an outline describes. -/
def ProofOutline.Holds (O : S.ProofOutline) (c : Config Pid Shared Local) : Prop :=
  O.inv c.shared ∧ ∀ p, O.asrt p c.shared (c.locals p)

theorem ProofOutline.holds_of_fire (O : S.ProofOutline) {c c' : Config Pid Shared Local} {p : Pid}
    {e : Env} (h : O.Holds c) (hfire : S.fire c p e = some c') : O.Holds c' := by
  have hstep := step_of_fire hfire
  obtain ⟨hinv, hown⟩ := O.own h.1 (h.2 p) hstep
  refine ⟨hinv, fun q ↦ ?_⟩
  by_cases hq : q = p
  · subst hq
    exact hown
  · rw [locals_of_fire hfire hq]
    exact O.stable hq h.1 (h.2 p) (h.2 q) hstep

/-- **Soundness of an outline**: it describes every reachable configuration, however the steps are
restricted. -/
theorem ProofOutline.sound (O : S.ProofOutline) (hstart : ∀ c, Start c → O.Holds c)
    {c : Config Pid Shared Local} (h : S.ReachableBy Ok Start c) : O.Holds c :=
  h.rec_inv hstart fun _ hc hfire _ ↦ O.holds_of_fire hc hfire

end PartySystem
