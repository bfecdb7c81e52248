import TolPlatform.Library.LockedCalls

/-!
# Calls over a part of the database

A database often grows tables and columns that some of its calls never touch. A `SubState` says where the
smaller database sits in the larger one, and `zoom` runs a transaction body, or the next step of a call,
on that part: everything else stays as it was (`Tx.zoom_eq_ok`). So the calls of one model are calls of a
larger model, and what is known of their steps carries over (`NextStep.zoom_eq_query`,
`NextStep.zoom_eq_lock`, `NextStep.zoom_eq_commit`).
-/

/-- A part `σ` of a state `τ`. -/
structure SubState (τ σ : Type) where
  get : τ → σ
  put : σ → τ → τ
  get_put : ∀ s t, get (put s t) = s := by intros; rfl
  put_get : ∀ t, put (get t) t = t := by intros; rfl
  put_put : ∀ s s' t, put s (put s' t) = put s t := by intros; rfl

variable {τ σ ε Key Local Local' α : Type}

namespace Tx

/-- Run a body on a part. -/
def zoom (P : SubState τ σ) (body : Tx σ ε α) : Tx τ ε α := fun t ↦
  (body (P.get t)).map fun r ↦ (r.1, P.put r.2 t)

theorem zoom_eq_ok {P : SubState τ σ} {body : Tx σ ε α} {t t' : τ} {a : α} :
    body.zoom P t = .ok (a, t') ↔ ∃ s', body (P.get t) = .ok (a, s') ∧ t' = P.put s' t := by
  unfold zoom
  rcases body (P.get t) with e | ⟨b, s⟩
  · exact iff_of_false (fun h ↦ nomatch h) fun ⟨_, h, _⟩ ↦ nomatch h
  · constructor
    · intro h
      obtain ⟨rfl, rfl⟩ := Prod.mk.inj (Except.ok.inj h)
      exact ⟨s, rfl, rfl⟩
    · rintro ⟨s', h, rfl⟩
      obtain ⟨rfl, rfl⟩ := Prod.mk.inj (Except.ok.inj h)
      rfl

end Tx

namespace NextStep

/-- The same step of a call over the larger database. -/
def zoom (P : SubState τ σ) (wrap : Local → Local') : NextStep σ ε Key Local → NextStep τ ε Key Local'
  | .query f => .query fun t ↦ (f (P.get t)).map wrap
  | .lock key l => .lock key (wrap l)
  | .commit body => .commit (wrap <$> body.zoom P)
  | .stop => .stop

variable {P : SubState τ σ} {wrap : Local → Local'} {n : NextStep σ ε Key Local} {l' : Local'} {t t' : τ}

/-- A read of the larger call is one of the smaller. -/
theorem zoom_eq_query {g : τ → Except ε Local'} (h : n.zoom P wrap = .query g)
    (hg : g t = .ok l') : ∃ f l, n = .query f ∧ f (P.get t) = .ok l ∧ l' = wrap l := by
  cases n with
  | query f =>
    obtain rfl := NextStep.query.inj h
    rcases hf : f (P.get t) with e | l
    · simp only [hf] at hg
      cases hg
    · simp only [hf] at hg
      exact ⟨f, l, rfl, hf, (Except.ok.inj hg).symm⟩
  | _ => cases h

theorem zoom_eq_lock {key : Key} (h : n.zoom P wrap = .lock key l') :
    ∃ l, n = .lock key l ∧ l' = wrap l := by
  cases n with
  | lock key' l =>
    obtain ⟨rfl, rfl⟩ := NextStep.lock.inj h
    exact ⟨l, rfl, rfl⟩
  | _ => cases h

/-- So is a commit, which leaves everything else alone. -/
theorem zoom_eq_commit {body : Tx τ ε Local'} (h : n.zoom P wrap = .commit body)
    (hbody : body t = .ok (l', t')) :
    ∃ b l s', n = .commit b ∧ b (P.get t) = .ok (l, s') ∧ l' = wrap l ∧ t' = P.put s' t := by
  cases n with
  | commit b =>
    obtain rfl := NextStep.commit.inj h
    obtain ⟨l, hl, rfl⟩ := Tx.map_eq_ok.1 hbody
    obtain ⟨s', hs, rfl⟩ := Tx.zoom_eq_ok.1 hl
    exact ⟨b, l, s', rfl, hs, rfl, rfl⟩
  | _ => cases h

end NextStep
