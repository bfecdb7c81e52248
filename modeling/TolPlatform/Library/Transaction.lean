import Mathlib.Data.List.Forall2

/-!
# Transaction bodies

A transaction body reads and writes a private copy of the database and may throw. On success its
copy becomes the database; a throw discards it (`commit`). Bodies are written in `do` notation over
`StateT σ (Except ε)`, and a proof takes one apart through `bind_eq_ok`: whenever a sequence of
statements succeeded, each of them did, on the state the one before it left. A statement that only
throws is run with `check`, a query with `get`, a write with `modify`; each has its own
inversion (`check_bind_eq_ok`, `get_bind_eq_ok`, `modify_bind_eq_ok`).
-/

/-- A transaction body over database `σ`, throwing `ε`, returning `α`. -/
abbrev Tx (σ ε α : Type) := StateT σ (Except ε) α

namespace Tx

variable {σ ε α β : Type}

/-- Run a body as one transaction: keep its writes on success, discard them on a throw. -/
def commit (body : Tx σ ε α) (s : σ) : Except ε α × σ :=
  match body s with
  | .ok (a, s') => (.ok a, s')
  | .error e => (.error e, s)

/-- **Inversion of sequencing.** -/
theorem bind_eq_ok {x : Tx σ ε α} {f : α → Tx σ ε β} {s : σ} {r : β × σ} :
    (x >>= f) s = .ok r ↔ ∃ a s₁, x s = .ok (a, s₁) ∧ f a s₁ = .ok r := by
  change (x s >>= fun q ↦ f q.1 q.2) = .ok r ↔ _
  rcases hx : x s with e | ⟨a, s₁⟩
  · simp [bind, Except.bind]
  · simp [bind, Except.bind]

theorem pure_eq_ok {a : α} {s : σ} {r : α × σ} :
    (pure a : Tx σ ε α) s = .ok r ↔ r = (a, s) := by
  change Except.ok (a, s) = .ok r ↔ _
  rw [Except.ok.injEq, eq_comm]

theorem map_eq_ok {x : Tx σ ε α} {f : α → β} {s s' : σ} {b : β} :
    (f <$> x) s = .ok (b, s') ↔ ∃ a, x s = .ok (a, s') ∧ f a = b := by
  change (x s >>= fun q ↦ Except.ok (f q.1, q.2)) = .ok (b, s') ↔ _
  rcases x s with e | ⟨a, s₁⟩
  · simp [bind, Except.bind]
  · simp [bind, Except.bind, and_comm]

/-! ### Statements -/

/-- A statement that touches no row. -/
def check (x : Except ε α) : Tx σ ε α := fun s ↦ x.map (·, s)

theorem check_eq_ok {x : Except ε α} {s s' : σ} {a : α} :
    check x s = .ok (a, s') ↔ x = .ok a ∧ s' = s := by
  rcases x with e | b
  · simp [check, Except.map]
  · simp [check, Except.map, eq_comm]

theorem check_bind_eq_ok {x : Except ε α} {f : α → Tx σ ε β} {s : σ} {r : β × σ} :
    (check x >>= f) s = .ok r ↔ ∃ a, x = .ok a ∧ f a s = .ok r := by
  rw [bind_eq_ok]
  constructor
  · rintro ⟨a, s₁, hx, hf⟩
    obtain ⟨hret, rfl⟩ := check_eq_ok.1 hx
    exact ⟨a, hret, hf⟩
  · rintro ⟨a, hx, hf⟩
    exact ⟨a, s, check_eq_ok.2 ⟨hx, rfl⟩, hf⟩

theorem get_bind_eq_ok {f : σ → Tx σ ε β} {s : σ} {r : β × σ} :
    ((get : Tx σ ε σ) >>= f) s = .ok r ↔ f s s = .ok r :=
  Iff.rfl

theorem modify_bind_eq_ok {g : σ → σ} {f : PUnit → Tx σ ε β} {s : σ} {r : β × σ} :
    ((modify g : Tx σ ε PUnit) >>= f) s = .ok r ↔ f ⟨⟩ (g s) = .ok r :=
  Iff.rfl

/-! ### What a body does not see -/

/-- A body that neither reads nor writes what `φ` replaces. -/
def Blind (φ : σ → σ) (body : Tx σ ε α) : Prop :=
  ∀ s, body (φ s) = (body s).map fun r ↦ (r.1, φ r.2)

variable {φ : σ → σ}

theorem Blind.bind {x : Tx σ ε α} {f : α → Tx σ ε β} (hx : x.Blind φ) (hf : ∀ a, (f a).Blind φ) :
    (x >>= f).Blind φ := by
  intro s
  show (x (φ s) >>= fun q ↦ f q.1 q.2) = (x s >>= fun q ↦ f q.1 q.2).map _
  rw [hx s]
  rcases x s with e | ⟨a, s₁⟩
  · rfl
  · exact hf a s₁

theorem blind_pure (a : α) : (pure a : Tx σ ε α).Blind φ := fun _ ↦ rfl

theorem Blind.map {x : Tx σ ε α} (hx : x.Blind φ) (f : α → β) : (f <$> x).Blind φ := by
  intro s
  show (x (φ s) >>= fun q ↦ Except.ok (f q.1, q.2)) = (x s >>= fun q ↦ Except.ok (f q.1, q.2)).map _
  rw [hx s]
  rcases x s with e | ⟨a, s₁⟩ <;> rfl

theorem blind_modify {g : σ → σ} (h : ∀ s, g (φ s) = φ (g s)) :
    (modify g : Tx σ ε PUnit).Blind φ := by
  intro s
  show Except.ok (PUnit.unit, g (φ s)) = Except.ok (PUnit.unit, φ (g s))
  rw [h]

/-! ### The end of a transaction -/

/-- A committed transaction is a body that succeeded. -/
theorem commit_eq_ok {body : Tx σ ε α} {s s' : σ} {a : α} :
    body.commit s = (.ok a, s') ↔ body s = .ok (a, s') := by
  unfold commit
  rcases body s with e | ⟨b, t⟩ <;> simp

/-- A rolled-back transaction leaves the database as it was. -/
theorem commit_eq_error {body : Tx σ ε α} {s s' : σ} {e : ε}
    (h : body.commit s = (.error e, s')) : s' = s := by
  unfold commit at h
  rcases hb : body s with e' | ⟨b, t⟩
  · rw [hb] at h
    exact (Prod.mk.inj h).2.symm
  · rw [hb] at h
    cases (Prod.mk.inj h).1

end Tx

namespace Except

variable {ε α β : Type}

/-- Inversion of sequencing for a computation that only throws. -/
theorem bind_eq_ok' {x : Except ε α} {f : α → Except ε β} {b : β} :
    (x >>= f) = .ok b ↔ ∃ a, x = .ok a ∧ f a = .ok b := by
  rcases x with e | a <;> simp [bind, Except.bind]

theorem mapError_eq_ok {ε' : Type} {f : ε → ε'} {x : Except ε α} {a : α} :
    x.mapError f = .ok a ↔ x = .ok a := by
  rcases x with e | a' <;> simp [Except.mapError]

/-- What returns nothing throws. -/
theorem exists_eq_error {x : Except ε α} (h : ∀ a, x ≠ .ok a) : ∃ e, x = .error e := by
  rcases x with e | a
  · exact ⟨e, rfl⟩
  · exact absurd rfl (h a)

/-- A loop that carries a state ends if none of its iterations throws, whatever the state. -/
theorem exists_foldlM_eq_ok {f : β → α → Except ε β} {xs : List α}
    (h : ∀ b, ∀ x ∈ xs, ∃ b', f b x = .ok b') (b : β) : ∃ b', xs.foldlM f b = .ok b' := by
  induction xs generalizing b with
  | nil => exact ⟨b, rfl⟩
  | cons x xs ih =>
    obtain ⟨b₁, hx⟩ := h b x List.mem_cons_self
    obtain ⟨b', hxs⟩ := ih (fun b y hy ↦ h b y (List.mem_cons_of_mem _ hy)) b₁
    rw [List.foldlM_cons]
    exact ⟨b', bind_eq_ok'.2 ⟨b₁, hx, hxs⟩⟩

/-- A loop over a throwing function succeeds when every iteration does, with the results in order. -/
theorem mapM_eq_ok {f : α → Except ε β} {xs : List α} {ys : List β} :
    xs.mapM f = .ok ys ↔ List.Forall₂ (fun x y ↦ f x = .ok y) xs ys := by
  induction xs generalizing ys with
  | nil =>
    rw [List.mapM_nil, List.forall₂_nil_left_iff]
    show Except.ok [] = Except.ok ys ↔ ys = []
    rw [Except.ok.injEq, eq_comm]
  | cons x xs ih =>
    rw [List.mapM_cons, bind_eq_ok', List.forall₂_cons_left_iff]
    constructor
    · rintro ⟨y, hy, h⟩
      obtain ⟨rest, hrest, hret⟩ := bind_eq_ok'.1 h
      exact ⟨y, rest, hy, ih.1 hrest, (Except.ok.inj hret).symm⟩
    · rintro ⟨y, rest, hy, hrest, rfl⟩
      exact ⟨y, hy, bind_eq_ok'.2 ⟨rest, ih.2 hrest, rfl⟩⟩

/-- A loop run for its checks alone succeeds when every check does. -/
theorem forM_eq_ok {f : α → Except ε Unit} {xs : List α} :
    xs.forM f = .ok () ↔ ∀ x ∈ xs, f x = .ok () := by
  induction xs with
  | nil => exact ⟨fun _ _ hx ↦ (List.not_mem_nil hx).elim, fun _ ↦ rfl⟩
  | cons x xs ih =>
    show (f x >>= fun _ ↦ xs.forM f) = _ ↔ _
    rw [bind_eq_ok', List.forall_mem_cons]
    constructor
    · rintro ⟨_, hx, hxs⟩
      exact ⟨hx, ih.1 hxs⟩
    · rintro ⟨hx, hxs⟩
      exact ⟨(), hx, ih.2 hxs⟩

/-- A loop none of whose iterations throws succeeds. -/
theorem exists_mapM_eq_ok {f : α → Except ε β} {xs : List α} (h : ∀ x ∈ xs, ∃ y, f x = .ok y) :
    ∃ ys, xs.mapM f = .ok ys := by
  induction xs with
  | nil => exact ⟨[], mapM_eq_ok.2 .nil⟩
  | cons x xs ih =>
    obtain ⟨y, hy⟩ := h x List.mem_cons_self
    obtain ⟨ys, hys⟩ := ih fun x hx ↦ h x (List.mem_cons_of_mem _ hx)
    exact ⟨y :: ys, mapM_eq_ok.2 (.cons hy (mapM_eq_ok.1 hys))⟩

/-! ### Which errors are thrown -/

/-- Whatever is thrown is in `E`. -/
def ThrowsIn (E : ε → Prop) (x : Except ε α) : Prop := ∀ e, x = .error e → E e

variable {E : ε → Prop} {x : Except ε α}

theorem throwsIn_ok (a : α) : ThrowsIn E (.ok a : Except ε α) := fun _ h ↦ nomatch h

theorem ThrowsIn.bind {f : α → Except ε β} (hx : ThrowsIn E x) (hf : ∀ a, ThrowsIn E (f a)) :
    ThrowsIn E (x >>= f) := by
  intro e he
  rcases x with e' | a
  · cases he
    exact hx e rfl
  · exact hf a e he

theorem ThrowsIn.map (hx : ThrowsIn E x) (f : α → β) : ThrowsIn E (f <$> x) := by
  intro e he
  rcases x with e' | a
  · cases he
    exact hx e rfl
  · cases he

theorem throwsIn_foldlM {f : β → α → Except ε β} (hf : ∀ b a, ThrowsIn E (f b a)) (xs : List α)
    (b : β) : ThrowsIn E (xs.foldlM f b) := by
  induction xs generalizing b with
  | nil => exact throwsIn_ok b
  | cons a xs ih =>
    rw [List.foldlM_cons]
    exact (hf b a).bind ih

theorem throwsIn_mapM {f : α → Except ε β} (hf : ∀ a, ThrowsIn E (f a)) (xs : List α) :
    ThrowsIn E (xs.mapM f) := by
  induction xs with
  | nil => exact throwsIn_ok []
  | cons a xs ih =>
    rw [List.mapM_cons]
    exact (hf a).bind fun b ↦ ih.bind fun bs ↦ throwsIn_ok _

theorem throwsIn_forM {f : α → Except ε Unit} (hf : ∀ a, ThrowsIn E (f a)) (xs : List α) :
    ThrowsIn E (xs.forM f) := by
  induction xs with
  | nil => exact throwsIn_ok ()
  | cons a xs ih => exact (hf a).bind fun _ ↦ ih

end Except

/-- Every right-hand element of related lists is related to a left-hand one. -/
theorem List.Forall₂.exists_left {α β : Type*} {R : α → β → Prop} {l₁ : List α} {l₂ : List β}
    (h : List.Forall₂ R l₁ l₂) {b : β} (hb : b ∈ l₂) : ∃ a ∈ l₁, R a b := by
  induction h with
  | nil => cases hb
  | cons hR _ ih =>
    rcases List.mem_cons.1 hb with rfl | hb
    · exact ⟨_, List.mem_cons_self, hR⟩
    · obtain ⟨a, ha, hRa⟩ := ih hb
      exact ⟨a, List.mem_cons_of_mem _ ha, hRa⟩

/-- Every left-hand element of related lists is related to a right-hand one. -/
theorem List.Forall₂.exists_right {α β : Type*} {R : α → β → Prop} {l₁ : List α} {l₂ : List β}
    (h : List.Forall₂ R l₁ l₂) {a : α} (ha : a ∈ l₁) : ∃ b ∈ l₂, R a b :=
  h.flip.exists_left ha

/-- Related lists have the same image under maps that agree on related elements. -/
theorem List.Forall₂.map_eq {α β γ : Type*} {R : α → β → Prop} {f : α → γ} {g : β → γ}
    {l₁ : List α} {l₂ : List β} (h : List.Forall₂ R l₁ l₂) (hfg : ∀ a b, R a b → f a = g b) :
    l₁.map f = l₂.map g := by
  induction h with
  | nil => rfl
  | cons hR _ ih => rw [List.map_cons, List.map_cons, hfg _ _ hR, ih]
