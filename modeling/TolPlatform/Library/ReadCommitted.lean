import Mathlib.Logic.Relation
import TolPlatform.Library.LockedCalls

/-!
# Transactions at READ COMMITTED

A transaction here is a sequence of statements, and others run between any two of them. A statement that
writes first looks for what it is to change, among what is committed at that moment and what its own
transaction has changed (`visible`). Before it changes anything it waits until nobody else has a change
pending that is in its way, and then drops whatever has meanwhile gone (`Changes.stands`); what has been
committed in the wait it does not look for again. Its changes stay pending, for its own transaction to
see, until that commits them all at once (`commit`) or ends without (`abort`). A statement outside a
transaction is one with a commit of its own.

The parties interleave as those of a `PartySystem`. The database changes by commits only
(`Transition.db_cases`), and what a party has pending by its own steps only (`Transition.others`). So what
a local state says about its own pending changes can be proved one statement at a time, as long as no
change of the others disturbs it (`Protocol.fire`). A party with nobody in between changes what it looked
for at once (`does_write`).
-/

/-- What can be changed in a database `σ`. -/
structure Changes (σ ε δ : Type) where
  apply : σ → δ → σ
  /-- What was to be changed is still there. -/
  stands : σ → δ → Bool
  /-- What a constraint throws at it. -/
  refuses : σ → δ → Option ε
  /-- It has to wait while the other one is pending. -/
  waitsFor : δ → δ → Bool

/-- What a local state does next. -/
inductive NextStatement (σ ε δ Local : Type)
  /-- Read, and go on with what was read or end with what was thrown. -/
  | query (f : σ → Except ε Local)
  /-- Look for what is to be changed, and change it. -/
  | write (f : σ → Except ε (List δ × Local))
  /-- Commit what is pending. -/
  | commit (l : Local)
  /-- Nothing: the call has ended. -/
  | stop

/-- Calls whose transactions interleave statement by statement. -/
structure StatementSystem (σ ε δ Draws Local : Type) where
  changes : Changes σ ε δ
  next : Draws → Local → NextStatement σ ε δ Local
  /-- A call that has ended cannot crash any more. -/
  ended : Local → Bool
  /-- Where a call that threw ends. -/
  failed : ε → Local
  crashed : Local

namespace StatementSystem

variable {σ ε δ Draws Local Pid : Type} [DecidableEq Pid]

/-- The database, the pending changes in their order, and the statements that wait, each with where it
leads. -/
structure Shared (σ δ Local Pid : Type) where
  db : σ
  pending : List (Pid × δ)
  running : Pid → Option (List δ × Local)

namespace Shared

/-- Nobody has a transaction open. -/
def quiet (db : σ) : Shared σ δ Local Pid := ⟨db, [], fun _ ↦ none⟩

/-- The changes that a party has pending. -/
def pendingOf (s : Shared σ δ Local Pid) (p : Pid) : List δ :=
  (s.pending.filter (·.1 = p)).map Prod.snd

/-- What a party sees of the database. -/
def visible (C : Changes σ ε δ) (s : Shared σ δ Local Pid) (p : Pid) : σ :=
  (s.pendingOf p).foldl C.apply s.db

/-- Somebody else has a change pending that is in the way. -/
def blocked (C : Changes σ ε δ) (s : Shared σ δ Local Pid) (p : Pid) (changes : List δ) : Bool :=
  s.pending.any fun other ↦ other.1 ≠ p && changes.any (C.waitsFor · other.2)

def start (s : Shared σ δ Local Pid) (p : Pid) (changes : List δ) (l : Local) : Shared σ δ Local Pid :=
  { s with running := Function.update s.running p (some (changes, l)) }

def finish (s : Shared σ δ Local Pid) (p : Pid) (changes : List δ) : Shared σ δ Local Pid :=
  { s with
    pending := s.pending ++ changes.map (p, ·), running := Function.update s.running p none }

/-- The party's transaction ends with the database `db`. -/
def close (s : Shared σ δ Local Pid) (p : Pid) (db : σ) : Shared σ δ Local Pid where
  db := db
  pending := s.pending.filter (·.1 ≠ p)
  running := Function.update s.running p none

end Shared

variable (C : StatementSystem σ ε δ Draws Local)

/-- The step of a party that does not crash. -/
def act (p : Pid) (d : Draws) (s : Shared σ δ Local Pid) (l : Local) :
    Option (Shared σ δ Local Pid × Local) :=
  match s.running p with
  | some (changes, l') =>
    if s.blocked C.changes p changes then none
    else
      let standing := changes.filter (C.changes.stands (s.visible C.changes p))
      match standing.findSome? (C.changes.refuses (s.visible C.changes p)) with
      | some e => some (s.close p s.db, C.failed e)
      | none => some (s.finish p standing, l')
  | none =>
    match C.next d l with
    | .query f =>
      match f (s.visible C.changes p) with
      | .ok l' => some (s, l')
      | .error e => some (s.close p s.db, C.failed e)
    | .write f =>
      match f (s.visible C.changes p) with
      | .ok (changes, l') => some (s.start p changes l', l)
      | .error e => some (s.close p s.db, C.failed e)
    | .commit l' => some (s.close p (s.visible C.changes p), l')
    | .stop => none

/-- All calls together. -/
def system (Pid : Type) [DecidableEq Pid] :
    PartySystem Pid (Tick Draws) (Shared σ δ Local Pid) Local where
  step p
    | .act d, s, l => C.act p d s l
    | .crash, s, l => if C.ended l then none else some (s.close p s.db, C.crashed)

/-! ### What a step can do -/

/-- The kinds of steps. -/
inductive Transition (p : Pid) (s : Shared σ δ Local Pid) (l : Local) :
    Tick Draws → Shared σ δ Local Pid → Local → Prop
  | queried {d f l'} : s.running p = none → C.next d l = .query f →
      f (s.visible C.changes p) = .ok l' → Transition p s l (.act d) s l'
  | started {d f changes l'} : s.running p = none → C.next d l = .write f →
      f (s.visible C.changes p) = .ok (changes, l') →
      Transition p s l (.act d) (s.start p changes l') l
  | finished {d changes l'} : s.running p = some (changes, l') →
      s.blocked C.changes p changes = false →
      (∀ change ∈ changes.filter (C.changes.stands (s.visible C.changes p)),
        C.changes.refuses (s.visible C.changes p) change = none) →
      Transition p s l (.act d)
        (s.finish p (changes.filter (C.changes.stands (s.visible C.changes p)))) l'
  | committed {d l'} : s.running p = none → C.next d l = .commit l' →
      Transition p s l (.act d) (s.close p (s.visible C.changes p)) l'
  | failed {d e} : Transition p s l (.act d) (s.close p s.db) (C.failed e)
  | crashed : Transition p s l .crash (s.close p s.db) C.crashed

variable {C} {p q : Pid} {s s' : Shared σ δ Local Pid} {l l' : Local} {t : Tick Draws}

/-- **Every step is a transition.** -/
theorem step_cases (h : (C.system Pid).step p t s l = some (s', l')) :
    C.Transition p s l t s' l' := by
  cases t with
  | crash =>
    replace h : (if C.ended l then none else some (s.close p s.db, C.crashed)) = some (s', l') := h
    split_ifs at h
    obtain ⟨rfl, rfl⟩ := Prod.mk.inj (Option.some.inj h)
    exact .crashed
  | act d =>
    replace h : C.act p d s l = some (s', l') := h
    rw [act] at h
    rcases hrunning : s.running p with - | ⟨changes, l₁⟩
    · rcases hnext : C.next d l with f | f | l₁ | -
      · simp only [hrunning, hnext] at h
        rcases hf : f (s.visible C.changes p) with e | l₁
        · simp only [hf] at h
          obtain ⟨rfl, rfl⟩ := Prod.mk.inj (Option.some.inj h)
          exact .failed
        · simp only [hf] at h
          obtain ⟨rfl, rfl⟩ := Prod.mk.inj (Option.some.inj h)
          exact .queried hrunning hnext hf
      · simp only [hrunning, hnext] at h
        rcases hf : f (s.visible C.changes p) with e | ⟨changes, l₁⟩
        · simp only [hf] at h
          obtain ⟨rfl, rfl⟩ := Prod.mk.inj (Option.some.inj h)
          exact .failed
        · simp only [hf] at h
          obtain ⟨rfl, rfl⟩ := Prod.mk.inj (Option.some.inj h)
          exact .started hrunning hnext hf
      · simp only [hrunning, hnext] at h
        obtain ⟨rfl, rfl⟩ := Prod.mk.inj (Option.some.inj h)
        exact .committed hrunning hnext
      · simp only [hrunning, hnext] at h
        cases h
    · simp only [hrunning] at h
      split_ifs at h with hblocked
      rcases hrefused : (changes.filter (C.changes.stands (s.visible C.changes p))).findSome?
          (C.changes.refuses (s.visible C.changes p)) with - | e
      · simp only [hrefused] at h
        obtain ⟨rfl, rfl⟩ := Prod.mk.inj (Option.some.inj h)
        exact .finished hrunning (Bool.not_eq_true _ ▸ hblocked) (List.findSome?_eq_none_iff.1 hrefused)
      · simp only [hrefused] at h
        obtain ⟨rfl, rfl⟩ := Prod.mk.inj (Option.some.inj h)
        exact .failed

/-- A step of the whole system is a transition of its party. -/
theorem transition_of_fire {c c' : PartySystem.Config Pid (Shared σ δ Local Pid) Local}
    (h : (C.system Pid).fire c p t = some c') :
    C.Transition p c.shared (c.locals p) t c'.shared (c'.locals p) :=
  step_cases (PartySystem.step_of_fire h)

/-- **Only a commit changes the database.** -/
theorem Transition.db_cases (h : C.Transition p s l t s' l') :
    s'.db = s.db ∨ ∃ d, t = .act d ∧ s.running p = none ∧ C.next d l = .commit l' ∧
      s'.db = s.visible C.changes p := by
  cases h with
  | committed hrunning hnext => exact Or.inr ⟨_, rfl, hrunning, hnext, rfl⟩
  | _ => exact Or.inl rfl

/-! ### A party and the steps of others -/

namespace Shared

@[simp] theorem pendingOf_quiet (db : σ) : (quiet db : Shared σ δ Local Pid).pendingOf p = [] := rfl

@[simp] theorem pendingOf_start (s : Shared σ δ Local Pid) (changes : List δ) (l : Local) :
    (s.start p changes l).pendingOf q = s.pendingOf q := rfl

@[simp] theorem pendingOf_finish_self (s : Shared σ δ Local Pid) (changes : List δ) :
    (s.finish p changes).pendingOf p = s.pendingOf p ++ changes := by
  show ((s.pending ++ changes.map (p, ·)).filter (·.1 = p)).map Prod.snd = _
  have hown : (changes.map (p, ·)).filter (·.1 = p) = changes.map (p, ·) :=
    List.filter_eq_self.2 fun other hother ↦ by
      obtain ⟨change, -, rfl⟩ := List.mem_map.1 hother
      exact decide_eq_true rfl
  rw [List.filter_append, List.map_append, hown, List.map_map]
  exact congrArg (_ ++ ·) (List.map_id _)

theorem pendingOf_finish_of_ne (s : Shared σ δ Local Pid) (changes : List δ) (hq : q ≠ p) :
    (s.finish p changes).pendingOf q = s.pendingOf q := by
  show ((s.pending ++ changes.map (p, ·)).filter (·.1 = q)).map Prod.snd = _
  have hother : (changes.map (p, ·)).filter (·.1 = q) = [] :=
    List.filter_eq_nil_iff.2 fun other hother ↦ by
      obtain ⟨change, -, rfl⟩ := List.mem_map.1 hother
      exact fun h ↦ hq (of_decide_eq_true h).symm
  rw [List.filter_append, hother, List.append_nil]
  rfl

@[simp] theorem pendingOf_close_self (s : Shared σ δ Local Pid) (db : σ) :
    (s.close p db).pendingOf p = [] := by
  show ((s.pending.filter (·.1 ≠ p)).filter (·.1 = p)).map Prod.snd = []
  rw [List.filter_filter, List.filter_eq_nil_iff.2, List.map_nil]
  intro other _ h
  obtain ⟨hp, hne⟩ := Bool.and_eq_true_iff.1 h
  exact of_decide_eq_true hne (of_decide_eq_true hp)

theorem pendingOf_close_of_ne (s : Shared σ δ Local Pid) (db : σ) (hq : q ≠ p) :
    (s.close p db).pendingOf q = s.pendingOf q := by
  show ((s.pending.filter (·.1 ≠ p)).filter (·.1 = q)).map Prod.snd = _
  rw [List.filter_filter]
  refine congrArg (List.map Prod.snd) (List.filter_congr fun other _ ↦ ?_)
  by_cases hother : other.1 = q
  · rw [hother, decide_eq_true hq, Bool.and_true]
  · rw [decide_eq_false hother, Bool.false_and]

end Shared

/-- Somebody else's step leaves a party's pending changes and its statement alone. -/
theorem Transition.others (h : C.Transition p s l t s' l') (hq : q ≠ p) :
    s'.pendingOf q = s.pendingOf q ∧ s'.running q = s.running q := by
  cases h with
  | queried => exact ⟨rfl, rfl⟩
  | started => exact ⟨rfl, Function.update_of_ne hq _ _⟩
  | finished => exact ⟨Shared.pendingOf_finish_of_ne _ _ hq, Function.update_of_ne hq _ _⟩
  | committed | failed | crashed =>
    exact ⟨Shared.pendingOf_close_of_ne _ _ hq, Function.update_of_ne hq _ _⟩

/-- A statement that runs is one of its party's local state. -/
def Started (C : StatementSystem σ ε δ Draws Local)
    (c : PartySystem.Config Pid (Shared σ δ Local Pid) Local) : Prop :=
  ∀ q changes l', c.shared.running q = some (changes, l') →
    ∃ d f db, C.next d (c.locals q) = .write f ∧ f db = .ok (changes, l')

omit [DecidableEq Pid] in
theorem started_quiet {db : σ} {locals : Pid → Local} : Started C ⟨.quiet db, locals⟩ :=
  fun _ _ _ hrun ↦ nomatch hrun

theorem Started.fire {c c' : PartySystem.Config Pid (Shared σ δ Local Pid) Local} (h : Started C c)
    (hfire : (C.system Pid).fire c p t = some c') : Started C c' := by
  have htransition := transition_of_fire hfire
  intro q changes l₁ hrun
  by_cases hq : q = p
  · subst hq
    generalize c'.shared = s', c'.locals q = m at htransition hrun ⊢
    cases htransition with
    | queried hidle =>
      rw [hidle] at hrun
      cases hrun
    | started hidle hnext hf =>
      have hrun' := (Function.update_self q _ c.shared.running).symm.trans hrun
      obtain ⟨rfl, rfl⟩ := Prod.mk.inj (Option.some.inj hrun')
      exact ⟨_, _, _, hnext, hf⟩
    | finished | committed | failed | crashed =>
      cases (Function.update_self q _ c.shared.running).symm.trans hrun
  · rw [PartySystem.locals_of_fire hfire hq]
    exact h q changes l₁ ((htransition.others hq).2 ▸ hrun)

/-- Where a commit is next, it commits what the party sees. -/
theorem Started.db_of_commit {c c' : PartySystem.Config Pid (Shared σ δ Local Pid) Local} {d : Draws}
    (h : Started C c) (hnext : ∀ d, C.next d (c.locals p) = .commit l)
    (hfire : (C.system Pid).fire c p (.act d) = some c') :
    c'.shared.db = c.shared.visible C.changes p := by
  have hstep : C.act p d c.shared (c.locals p) = some (c'.shared, c'.locals p) :=
    PartySystem.step_of_fire hfire
  rcases hrunning : c.shared.running p with - | ⟨changes, l₁⟩
  · simp only [act, hrunning, hnext d] at hstep
    exact congrArg Shared.db (Prod.mk.inj (Option.some.inj hstep)).1.symm
  · obtain ⟨d', f, db, hwrite, -⟩ := h p changes l₁ hrunning
    rw [hnext d'] at hwrite
    cases hwrite

/-! ### What the database keeps -/

/-- What every change keeps, several of them keep. -/
theorem foldl_kept (Kept : σ → Prop) (hkept : ∀ {db change}, Kept db → Kept (C.changes.apply db change))
    {db : σ} (h : Kept db) (pending : List δ) : Kept (pending.foldl C.changes.apply db) := by
  induction pending generalizing db with
  | nil => exact h
  | cons change pending ih => exact ih (hkept h)

/-- What every change keeps, every step keeps. -/
theorem Transition.kept (Kept : σ → Prop)
    (hkept : ∀ {db change}, Kept db → Kept (C.changes.apply db change)) (h : Kept s.db)
    (htransition : C.Transition p s l t s' l') : Kept s'.db := by
  rcases htransition.db_cases with hdb | ⟨_, -, -, -, hdb⟩
  · exact hdb ▸ h
  · exact hdb ▸ foldl_kept Kept hkept h _

/-- What every change keeps, every run keeps. -/
theorem kept_of_run (Kept : σ → Prop)
    (hkept : ∀ {db change}, Kept db → Kept (C.changes.apply db change))
    {c c' : PartySystem.Config Pid (Shared σ δ Local Pid) Local} {steps : List (Pid × Tick Draws)}
    (h : Kept c.shared.db) (hrun : (C.system Pid).run c steps = some c') : Kept c'.shared.db :=
  PartySystem.inv_of_run (I := fun c ↦ Kept c.shared.db)
    (fun hc hfire ↦ (transition_of_fire hfire).kept Kept hkept hc) h hrun

/-! ### What a party has written -/

variable (C) in
/-- `Kept` is what every commit keeps of the database, and `Rests db pending` says of a local state what
its transaction has pending there. That outlives what others change. -/
structure Protocol (Kept : σ → Prop) (Rests : σ → List δ → Local → Prop) : Prop where
  stable : ∀ {db pending l change}, Rests db pending l → Rests (C.changes.apply db change) pending l
  query : ∀ {db pending d l f l'}, Kept db → Rests db pending l → C.next d l = .query f →
    f (pending.foldl C.changes.apply db) = .ok l' → Rests db pending l'
  /-- However much of what it looked for is gone after the wait. -/
  write : ∀ {db pending d l f changes l'}, Kept db → Rests db pending l → C.next d l = .write f →
    f (pending.foldl C.changes.apply db) = .ok (changes, l') →
      ∀ db', Rests db (pending ++ changes.filter (C.changes.stands db')) l'
  commit : ∀ {db pending d l l'}, Kept db → Rests db pending l → C.next d l = .commit l' →
    Kept (pending.foldl C.changes.apply db) ∧ Rests (pending.foldl C.changes.apply db) [] l'
  failed : ∀ db e, Rests db [] (C.failed e)
  crashed : ∀ db, Rests db [] C.crashed

/-- A party is at rest, or in a statement whose end is at rest. -/
def Resting (C : StatementSystem σ ε δ Draws Local) (Rests : σ → List δ → Local → Prop)
    (s : Shared σ δ Local Pid) (p : Pid) (l : Local) : Prop :=
  Rests s.db (s.pendingOf p) l ∧ ∀ changes l', s.running p = some (changes, l') →
    ∀ db, Rests s.db (s.pendingOf p ++ changes.filter (C.changes.stands db)) l'

section

variable {Kept : σ → Prop} {Rests : σ → List δ → Local → Prop}

theorem resting_quiet {db : σ} (h : Rests db [] l) : Resting C Rests (.quiet db) p l :=
  ⟨h, fun _ _ hrunning ↦ nomatch hrunning⟩

/-- A commit of a party at rest keeps what is kept. -/
theorem Protocol.kept_of_transition (h : C.Protocol Kept Rests) (hkept : Kept s.db)
    (hp : Resting C Rests s p l) (htransition : C.Transition p s l t s' l') : Kept s'.db := by
  rcases htransition.db_cases with hdb | ⟨_, -, -, hnext, hdb⟩
  · exact hdb ▸ hkept
  · exact hdb ▸ (h.commit hkept hp.1 hnext).1

/-- A party's own step leaves it at rest. -/
theorem Protocol.own (h : C.Protocol Kept Rests) (hkept : Kept s.db) (hp : Resting C Rests s p l)
    (htransition : C.Transition p s l t s' l') : Resting C Rests s' p l' := by
  obtain ⟨hrests, hrunning⟩ := hp
  cases htransition with
  | queried hidle hnext hf =>
    refine ⟨h.query hkept hrests hnext hf, fun changes l₁ hrun ↦ ?_⟩
    rw [hidle] at hrun
    cases hrun
  | started hidle hnext hf =>
    refine ⟨hrests, fun changes l₁ hrun ↦ ?_⟩
    have hrun' := (Function.update_self p _ s.running).symm.trans hrun
    obtain ⟨rfl, rfl⟩ := Prod.mk.inj (Option.some.inj hrun')
    exact h.write hkept hrests hnext hf
  | finished hrun =>
    refine ⟨?_, fun changes l₁ hrun' ↦ ?_⟩
    · rw [Shared.pendingOf_finish_self]
      exact hrunning _ _ hrun _
    · cases (Function.update_self p _ s.running).symm.trans hrun'
  | committed hidle hnext =>
    refine ⟨?_, fun changes l₁ hrun ↦ ?_⟩
    · rw [Shared.pendingOf_close_self]
      exact (h.commit hkept hrests hnext).2
    · cases (Function.update_self p _ s.running).symm.trans hrun
  | failed =>
    refine ⟨?_, fun changes l₁ hrun ↦ ?_⟩
    · rw [Shared.pendingOf_close_self]
      exact h.failed _ _
    · cases (Function.update_self p _ s.running).symm.trans hrun
  | crashed =>
    refine ⟨?_, fun changes l₁ hrun ↦ ?_⟩
    · rw [Shared.pendingOf_close_self]
      exact h.crashed _
    · cases (Function.update_self p _ s.running).symm.trans hrun

/-- Nobody else's step disturbs a party at rest. -/
theorem Protocol.others (h : C.Protocol Kept Rests) {m : Local} (hm : Resting C Rests s q m)
    (htransition : C.Transition p s l t s' l') (hq : q ≠ p) : Resting C Rests s' q m := by
  have hstable {pending l₁} (hrests : Rests s.db pending l₁) : Rests s'.db pending l₁ :=
    htransition.kept (fun db ↦ Rests db pending l₁) h.stable hrests
  obtain ⟨hpending, hrunning⟩ := htransition.others hq
  refine ⟨hpending ▸ hstable hm.1, fun changes l₁ hrun db ↦ ?_⟩
  rw [hpending]
  exact hstable (hm.2 changes l₁ (hrunning ▸ hrun) db)

/-- **All parties stay at rest**: each by its own steps, as nobody else touches what it has pending. -/
theorem Protocol.fire {c c' : PartySystem.Config Pid (Shared σ δ Local Pid) Local}
    (h : C.Protocol Kept Rests)
    (hc : Kept c.shared.db ∧ ∀ q, Resting C Rests c.shared q (c.locals q))
    (hfire : (C.system Pid).fire c p t = some c') :
    Kept c'.shared.db ∧ ∀ q, Resting C Rests c'.shared q (c'.locals q) := by
  have htransition := transition_of_fire hfire
  refine ⟨h.kept_of_transition hc.1 (hc.2 p) htransition, fun q ↦ ?_⟩
  by_cases hq : q = p
  · subst hq
    exact h.own hc.1 (hc.2 q) htransition
  · rw [PartySystem.locals_of_fire hfire hq]
    exact h.others (hc.2 q) htransition hq

end

/-! ### A party alone -/

namespace Shared

/-- Nobody but `p` has anything pending, and nobody waits. -/
def alone (p : Pid) (db : σ) (pending : List δ) : Shared σ δ Local Pid :=
  ⟨db, pending.map (p, ·), fun _ ↦ none⟩

theorem pendingOf_alone (db : σ) (pending : List δ) :
    (alone p db pending : Shared σ δ Local Pid).pendingOf p = pending :=
  pendingOf_finish_self (quiet db : Shared σ δ Local Pid) pending

theorem visible_alone (db : σ) (pending : List δ) :
    (alone p db pending : Shared σ δ Local Pid).visible C.changes p =
      pending.foldl C.changes.apply db := by
  rw [visible, pendingOf_alone]
  rfl

theorem blocked_alone (db : σ) (pending changes : List δ) (l : Local) :
    ((alone p db pending).start p changes l).blocked C.changes p changes = false := by
  refine List.any_eq_false.2 fun other hother h ↦ ?_
  obtain ⟨change, -, rfl⟩ := List.mem_map.1 hother
  exact of_decide_eq_true (Bool.and_eq_true_iff.1 h).1 rfl

theorem finish_start_alone (db : σ) (pending changes changes' : List δ) (l : Local) :
    ((alone p db pending).start p changes l).finish p changes' = alone p db (pending ++ changes') := by
  rw [start, finish, alone, Function.update_idem, Function.update_eq_self_iff.2 rfl, ← List.map_append]
  rfl

theorem close_alone (db db' : σ) (pending : List δ) :
    (alone p db pending : Shared σ δ Local Pid).close p db' = quiet db' := by
  rw [close, alone, Function.update_eq_self_iff.2 rfl, List.filter_eq_nil_iff.2]
  · rfl
  · intro other hother h
    obtain ⟨change, -, rfl⟩ := List.mem_map.1 hother
    exact of_decide_eq_true h rfl

end Shared

variable (C) in
/-- One step of `p`, with whatever is drawn. -/
def Does (p : Pid) (r r' : Shared σ δ Local Pid × Local) : Prop := ∃ d, C.act p d r.1 r.2 = some r'

variable {db : σ} {pending : List δ} {d : Draws}

theorem does_query {f : σ → Except ε Local} (hnext : C.next d l = .query f)
    (hf : f (pending.foldl C.changes.apply db) = .ok l') :
    C.Does p (.alone p db pending, l) (.alone p db pending, l') := by
  refine ⟨d, ?_⟩
  rw [← Shared.visible_alone (p := p)] at hf
  simp only [act, Shared.alone, hnext] at hf ⊢
  rw [hf]

theorem does_commit (hnext : C.next d l = .commit l') :
    C.Does p (.alone p db pending, l) (.quiet (pending.foldl C.changes.apply db), l') := by
  refine ⟨d, ?_⟩
  rw [← Shared.visible_alone (p := p), ← Shared.close_alone (p := p) db _ pending]
  simp only [act, Shared.alone, hnext]

/-- What nobody is in the way of is changed at once. -/
theorem does_write {f : σ → Except ε (List δ × Local)} {changes : List δ}
    (hnext : C.next d l = .write f)
    (hf : f (pending.foldl C.changes.apply db) = .ok (changes, l'))
    (hstands : ∀ change ∈ changes, C.changes.stands (pending.foldl C.changes.apply db) change = true)
    (hrefuses : ∀ change ∈ changes,
      C.changes.refuses (pending.foldl C.changes.apply db) change = none) :
    Relation.ReflTransGen (C.Does p) (.alone p db pending, l)
      (.alone p db (pending ++ changes), l') := by
  rw [← Shared.visible_alone (p := p)] at hf hstands hrefuses
  have hstart : C.Does p (.alone p db pending, l) ((Shared.alone p db pending).start p changes l', l) := by
    refine ⟨d, ?_⟩
    simp only [act, Shared.alone, hnext] at hf ⊢
    rw [hf]
  have hfinish : C.Does p ((Shared.alone p db pending).start p changes l', l)
      (.alone p db (pending ++ changes), l') := by
    refine ⟨d, ?_⟩
    have hrunning : ((Shared.alone p db pending).start p changes l').running p = some (changes, l') :=
      Function.update_self ..
    have hvisible : ((Shared.alone p db pending).start p changes l').visible C.changes p =
        (Shared.alone p db pending : Shared σ δ Local Pid).visible C.changes p := rfl
    rw [act]
    simp only [hrunning, Shared.blocked_alone, hvisible, List.filter_eq_self.2 hstands,
      List.findSome?_eq_none_iff.2 hrefuses, Shared.finish_start_alone]
    rfl
  exact .head hstart (.single hfinish)

theorem exists_run_of_does {c : PartySystem.Config Pid (Shared σ δ Local Pid) Local}
    {r' : Shared σ δ Local Pid × Local}
    (h : Relation.ReflTransGen (C.Does p) (c.shared, c.locals p) r') :
    ∃ steps c', (C.system Pid).run c steps = some c' ∧ c'.shared = r'.1 ∧ c'.locals p = r'.2 := by
  generalize hr : (c.shared, c.locals p) = r at h
  induction h using Relation.ReflTransGen.head_induction_on generalizing c with
  | refl =>
    subst hr
    exact ⟨[], c, rfl, rfl, rfl⟩
  | @head r₁ r₂ hstep _ ih =>
    subst hr
    obtain ⟨d, hd⟩ := hstep
    have hfire : (C.system Pid).fire c p (.act d) = some ⟨r₂.1, Function.update c.locals p r₂.2⟩ :=
      PartySystem.fire_eq_some_iff.2 ⟨_, _, hd, rfl⟩
    obtain ⟨steps, c', hrun, hc'⟩ := ih (c := ⟨r₂.1, Function.update c.locals p r₂.2⟩)
      (Prod.ext rfl (Function.update_self ..))
    refine ⟨(p, .act d) :: steps, c', ?_, hc'⟩
    rw [PartySystem.run, hfire]
    exact hrun

end StatementSystem
