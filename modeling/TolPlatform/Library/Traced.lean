import Mathlib.Data.List.Basic

/-!
# Computations with a log

A computation that throws or returns and logs events on the way; a throw keeps what was logged
before it. An instrumented program is the program with log entries put in, and `result` erases them
again: it is a monad morphism (`result_bind`, `result_foldlM`, `result_mapM`), so that an
instrumented program computes what the program computes is a rewriting proof.

`Ensures` is the contract of such a computation: it returns, the returned value meets a
postcondition and every logged event meets a condition. It composes along sequencing and carries an
invariant along a loop.
-/

/-- A computation with result `Except ε α` and the events `ω` it logged, oldest first. -/
structure Traced (ω ε α : Type) where
  result : Except ε α
  log : List ω

namespace Traced

variable {ω ε α β γ : Type}

@[ext] theorem ext {x y : Traced ω ε α} (hresult : x.result = y.result) (hlog : x.log = y.log) :
    x = y := by
  obtain ⟨r, l⟩ := x
  obtain ⟨r', l'⟩ := y
  obtain rfl : r = r' := hresult
  obtain rfl : l = l' := hlog
  rfl

/-- Continue with the value returned, after what was logged so far. -/
def andThen (x : Traced ω ε α) (f : α → Traced ω ε β) : Traced ω ε β :=
  match x.result with
  | .ok a => ⟨(f a).result, x.log ++ (f a).log⟩
  | .error e => ⟨.error e, x.log⟩

instance : Monad (Traced ω ε) where
  pure a := ⟨.ok a, []⟩
  bind := andThen

theorem andThen_pure (x : Traced ω ε α) : x.andThen pure = x := by
  obtain ⟨e | a, l⟩ := x
  · rfl
  · exact ext rfl (List.append_nil l)

theorem andThen_assoc (x : Traced ω ε α) (f : α → Traced ω ε β) (g : β → Traced ω ε γ) :
    (x.andThen f).andThen g = x.andThen fun a ↦ (f a).andThen g := by
  obtain ⟨e | a, l⟩ := x
  · rfl
  · rcases hf : f a with ⟨e | b, l'⟩
    · simp only [andThen, hf]
    · simp only [andThen, hf, List.append_assoc]

instance : LawfulMonad (Traced ω ε) :=
  LawfulMonad.mk' (Traced ω ε) andThen_pure (fun _ _ ↦ rfl) andThen_assoc

/-- Log one event. -/
def emit (w : ω) : Traced ω ε Unit := ⟨.ok (), [w]⟩

/-- A computation that logs nothing. -/
def silent (x : Except ε α) : Traced ω ε α := ⟨x, []⟩

/-! ### Erasing the log -/

@[simp] theorem result_pure (a : α) : (pure a : Traced ω ε α).result = .ok a := rfl

@[simp] theorem result_emit (w : ω) : (emit w : Traced ω ε Unit).result = .ok () := rfl

@[simp] theorem result_silent (x : Except ε α) : (silent x : Traced ω ε α).result = x := rfl

@[simp] theorem result_bind (x : Traced ω ε α) (f : α → Traced ω ε β) :
    (x >>= f).result = x.result >>= fun a ↦ (f a).result := by
  obtain ⟨e | a, l⟩ := x <;> rfl

@[simp] theorem result_map (f : α → β) (x : Traced ω ε α) : (f <$> x).result = f <$> x.result := by
  obtain ⟨e | a, l⟩ := x <;> rfl

theorem result_foldlM {f : β → α → Traced ω ε β} {g : β → α → Except ε β}
    (h : ∀ b a, (f b a).result = g b a) (l : List α) (b : β) :
    (l.foldlM f b).result = l.foldlM g b := by
  induction l generalizing b with
  | nil => rfl
  | cons a l ih =>
    rw [List.foldlM_cons, List.foldlM_cons, result_bind, h]
    exact congrArg _ (funext ih)

theorem result_mapM {f : α → Traced ω ε β} {g : α → Except ε β} (h : ∀ a, (f a).result = g a)
    (l : List α) : (l.mapM f).result = l.mapM g := by
  induction l with
  | nil => rfl
  | cons a l ih =>
    simp only [List.mapM_cons, result_bind, h, ih, result_pure]
    rfl

/-! ### Contracts -/

/-- The computation returns a value in `Q`, and every event it logs meets `p`. -/
structure Ensures (p : ω → Prop) (x : Traced ω ε α) (Q : α → Prop) : Prop where
  returns : ∃ a, x.result = .ok a ∧ Q a
  logged : ∀ w ∈ x.log, p w

namespace Ensures

variable {p : ω → Prop} {x : Traced ω ε α} {Q Q' : α → Prop} {R : β → Prop}

theorem pure {a : α} (h : Q a) : Ensures p (pure a : Traced ω ε α) Q :=
  ⟨⟨a, rfl, h⟩, fun _ hw ↦ absurd hw List.not_mem_nil⟩

theorem silent {r : Except ε α} {a : α} (hr : r = .ok a) (h : Q a) :
    Ensures p (silent r : Traced ω ε α) Q :=
  ⟨⟨a, hr, h⟩, fun _ hw ↦ absurd hw List.not_mem_nil⟩

theorem emit {w : ω} (h : p w) : Ensures p (emit w : Traced ω ε Unit) fun _ ↦ True := by
  refine ⟨⟨(), rfl, trivial⟩, fun w' hw' ↦ ?_⟩
  obtain rfl := List.mem_singleton.1 hw'
  exact h

theorem mono (h : Ensures p x Q) (hQ : ∀ a, Q a → Q' a) : Ensures p x Q' := by
  obtain ⟨a, ha, hQa⟩ := h.returns
  exact ⟨⟨a, ha, hQ a hQa⟩, h.logged⟩

/-- The value returned is known otherwise. -/
theorem with_result (h : Ensures p x Q) {a : α} (ha : x.result = .ok a) (hR : Q' a) :
    Ensures p x Q' :=
  ⟨⟨a, ha, hR⟩, h.logged⟩

/-- **Sequencing.** -/
theorem bind {f : α → Traced ω ε β} (hx : Ensures p x Q) (hf : ∀ a, Q a → Ensures p (f a) R) :
    Ensures p (x >>= f) R := by
  obtain ⟨r, l⟩ := x
  obtain ⟨⟨a, rfl, ha⟩, hlog⟩ := hx
  obtain ⟨hret, hlog'⟩ := hf a ha
  refine ⟨hret, fun w hw ↦ ?_⟩
  rcases List.mem_append.1 hw with hw | hw
  · exact hlog w hw
  · exact hlog' w hw

theorem map {f : α → β} (hx : Ensures p x fun a ↦ R (f a)) : Ensures p (f <$> x) R := by
  rw [map_eq_pure_bind]
  exact hx.bind fun a ha ↦ Ensures.pure ha

/-- **Loops**: an invariant of each pass is one of the loop. -/
theorem foldlM {I : β → Prop} {f : β → α → Traced ω ε β} {l : List α}
    (hf : ∀ b, ∀ a ∈ l, I b → Ensures p (f b a) I) {b : β} (hb : I b) :
    Ensures p (l.foldlM f b) I := by
  induction l generalizing b with
  | nil => exact Ensures.pure hb
  | cons a l ih =>
    rw [List.foldlM_cons]
    exact (hf b a List.mem_cons_self hb).bind fun b' hb' ↦
      ih (fun c a' ha' ↦ hf c a' (List.mem_cons_of_mem a ha')) hb'

theorem mapM {f : α → Traced ω ε β} {l : List α}
    (hf : ∀ a ∈ l, Ensures p (f a) fun _ ↦ True) : Ensures p (l.mapM f) fun _ ↦ True := by
  induction l with
  | nil => exact Ensures.pure trivial
  | cons a l ih =>
    rw [List.mapM_cons]
    refine (hf a List.mem_cons_self).bind fun b _ ↦ ?_
    exact (ih fun a' ha' ↦ hf a' (List.mem_cons_of_mem a ha')).bind fun bs _ ↦ Ensures.pure trivial

end Ensures

end Traced
