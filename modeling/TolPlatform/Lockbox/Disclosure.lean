import TolPlatform.Library.Evolution
import TolPlatform.Lockbox.Service

/-!
# Disclosure is safe

Start with a sealed lockbox whose three shares are active, and let any number of `withdraw` and
`release` calls, on it and on other boxes, interleave. At most one of them discloses the payload, and
none once another has withdrawn the box (`disclosureSafe_of_reachable`).

What a call has validated under the lock stays true until it commits, and both kinds of commit move
the box on to a status that neither kind can start from: `OPENED` or `WITHDRAWN`. That alone orders
the calls; the destroyed shares are never what stops a release.
-/

namespace TolPlatform.Lockboxes

open Crypto (WrappedShare RoleKeks)

/-! ### Moving a box -/

/-- The status `UPDATE`s of a box so far. -/
def movesOf (db : Db) (id : Uuid) : List (LockboxStatus × LockboxStatus) :=
  (db.statusUpdates.filter (·.lockboxId = id)).map (·.move)

/-- The box goes along edges, by `UPDATE`s of its own, to the status `t`. -/
structure Moved (id : Uuid) (t : LockboxStatus) (db db' : Db) : Prop where
  boxes : ∃ f : Lockbox → Lockbox, (∀ r, (f r).id = r.id) ∧
    (∀ r ∈ db.lockboxes, r.id = id → (f r).status = t) ∧
      db'.lockboxes = Rows.rewrite Lockbox.id id f db.lockboxes
  updates : ∃ moves, db'.statusUpdates = db.statusUpdates ++ moves.map (⟨id, ·⟩) ∧
    ∀ r ∈ db.lockboxes, r.id = id → Rows.Path lockboxTransitions r.status moves t

section

variable {id : Uuid} {s t : LockboxStatus} {db db' db'' : Db}

theorem Moved.refl (h : ∀ r ∈ db.lockboxes, r.id = id → r.status = t) : Moved id t db db where
  boxes := ⟨fun r ↦ r, fun _ ↦ rfl, h, by simp [Rows.rewrite]⟩
  updates := ⟨[], by simp, h⟩

theorem Moved.trans (h : Moved id s db db') (h' : Moved id t db' db'') : Moved id t db db'' := by
  obtain ⟨⟨f, hid, hs, hboxes⟩, moves, hupdates, hpath⟩ := h
  obtain ⟨⟨g, hid', ht, hboxes'⟩, moves', hupdates', hpath'⟩ := h'
  -- the moved row is what the second part starts from
  have hmem {r : Lockbox} (hr : r ∈ db.lockboxes) (hk : r.id = id) : f r ∈ db'.lockboxes :=
    hboxes ▸ Rows.mem_rewrite_iff.2 ⟨r, hr, if_pos hk⟩
  refine ⟨⟨g ∘ f, fun r ↦ (hid' _).trans (hid r), fun r hr hk ↦ ?_, ?_⟩, moves ++ moves', ?_,
    fun r hr hk ↦ ?_⟩
  · exact ht _ (hmem hr hk) ((hid r).trans hk)
  · rw [hboxes', hboxes, Rows.rewrite_rewrite hid]
  · rw [hupdates', hupdates, List.map_append, List.append_assoc]
  · have hnext := hpath' _ (hmem hr hk) ((hid r).trans hk)
    rw [hs r hr hk] at hnext
    exact (hpath r hr hk).append hnext

theorem Moved.ids (h : Moved id t db db') :
    db'.lockboxes.map (·.id) = db.lockboxes.map (·.id) := by
  obtain ⟨f, hid, -, hboxes⟩ := h.boxes
  rw [hboxes]
  exact Rows.map_rewrite hid

theorem Moved.status_eq (h : Moved id t db db') {r : Lockbox} (hr : r ∈ db'.lockboxes)
    (hk : r.id = id) : r.status = t := by
  obtain ⟨f, hid, ht, hboxes⟩ := h.boxes
  rw [hboxes] at hr
  obtain ⟨r₀, hr₀, rfl⟩ := Rows.mem_rewrite_iff.1 hr
  by_cases hk₀ : r₀.id = id
  · rw [if_pos hk₀]
    exact ht r₀ hr₀ hk₀
  · rw [if_neg hk₀] at hk
    exact absurd hk hk₀

theorem Moved.mem_of_ne (h : Moved id t db db') {r : Lockbox} (hk : r.id ≠ id) :
    r ∈ db'.lockboxes ↔ r ∈ db.lockboxes := by
  obtain ⟨f, hid, -, hboxes⟩ := h.boxes
  rw [hboxes, Rows.mem_rewrite_iff]
  constructor
  · rintro ⟨r₀, hr₀, rfl⟩
    split at hk
    · next hk₀ => exact absurd ((hid r₀).trans hk₀) hk
    · next hk₀ => rwa [if_neg hk₀]
  · exact fun hr ↦ ⟨r, hr, if_neg hk⟩

theorem Moved.exists_of_mem (h : Moved id t db db') {r : Lockbox} (hr : r ∈ db.lockboxes)
    (hk : r.id = id) : ∃ r' ∈ db'.lockboxes, r'.id = id ∧ r'.status = t := by
  obtain ⟨f, hid, ht, hboxes⟩ := h.boxes
  exact ⟨f r, hboxes ▸ Rows.mem_rewrite_iff.2 ⟨r, hr, if_pos hk⟩, (hid r).trans hk, ht r hr hk⟩

theorem Moved.movesOf_of_ne (h : Moved id t db db') {j : Uuid} (hj : j ≠ id) :
    movesOf db' j = movesOf db j := by
  obtain ⟨moves, hupdates, -⟩ := h.updates
  have hnil : (moves.map (StatusUpdate.mk id)).filter (·.lockboxId = j) = [] := by
    rw [List.filter_eq_nil_iff]
    rintro u hu huj
    obtain ⟨move, -, rfl⟩ := List.mem_map.1 hu
    exact hj (of_decide_eq_true huj).symm
  rw [movesOf, hupdates, List.filter_append, hnil, List.append_nil]
  rfl

theorem Moved.path (h : Moved id t db db') {r : Lockbox} (hr : r ∈ db.lockboxes) (hk : r.id = id)
    (hpath : Rows.Path lockboxTransitions s (movesOf db id) r.status) :
    Rows.Path lockboxTransitions s (movesOf db' id) t := by
  obtain ⟨moves, hupdates, hmoves⟩ := h.updates
  have hall : (moves.map (StatusUpdate.mk id)).filter (·.lockboxId = id) =
      moves.map (StatusUpdate.mk id) := by
    rw [List.filter_eq_self]
    intro u hu
    obtain ⟨move, -, rfl⟩ := List.mem_map.1 hu
    exact decide_eq_true rfl
  have hmovesOf : movesOf db' id = movesOf db id ++ moves := by
    rw [movesOf, hupdates, List.filter_append, List.map_append, hall, List.map_map]
    exact congrArg _ (List.map_id moves)
  rw [hmovesOf]
  exact hpath.append (hmoves r hr hk)

/-- One `UPDATE`, of a box whose status has an edge to the new one. -/
theorem setStatus_eq_ok (hids : (db.lockboxes.map (·.id)).Nodup) {columns : Lockbox → Lockbox}
    {box : Lockbox} (hedge : ∀ r ∈ db.lockboxes, r.id = id → t ∈ lockboxTransitions r.status)
    (h : LockboxRepository.setStatus id t columns db = .ok (box, db')) :
    Moved id t db db' ∧ db'.lockboxKeyShares = db.lockboxKeyShares ∧ box.id = id := by
  rw [LockboxRepository.setStatus, Tx.get_bind_eq_ok, Tx.check_bind_eq_ok] at h
  obtain ⟨old, hold, h⟩ := h
  rw [Tx.modify_bind_eq_ok] at h
  obtain ⟨r, hfind, rfl, rfl⟩ := Table.update_eq_ok_iff.1 h
  have hfound : db.lockboxes.find? (·.id = id) = some old := orThrow_eq_ok_iff.1 hold
  have hmem := List.mem_of_find?_eq_some hfound
  have hold_id : old.id = id := of_decide_eq_true (List.find?_some hfound :)
  refine ⟨⟨⟨LockboxRepository.withStatus t columns, fun _ ↦ rfl, fun _ _ _ ↦ rfl, rfl⟩,
    [(old.status, t)], rfl, fun r hr hk ↦ ?_⟩, rfl, ?_⟩
  · rw [Rows.eq_of_key_eq hids hmem hr (hk.trans hold_id.symm)]
    exact ⟨rfl, hedge old hmem hold_id, rfl⟩
  · exact of_decide_eq_true (List.find?_some hfind :)

/-- The hops of the cascade. -/
theorem releaseHops_eq_ok {rest : List LockboxStatus} {current result : LockboxStatus}
    (hids : (db.lockboxes.map (·.id)).Nodup)
    (hcurrent : ∀ r ∈ db.lockboxes, r.id = id → r.status = current)
    (h : releaseHops id current rest db = .ok (result, db')) :
    Moved id result db db' ∧ db'.lockboxKeyShares = db.lockboxKeyShares := by
  induction rest generalizing current db with
  | nil =>
    obtain ⟨rfl, rfl⟩ := Prod.mk.inj (Tx.pure_eq_ok.1 h)
    exact ⟨.refl hcurrent, rfl⟩
  | cons next rest ih =>
    cases rest with
    | nil =>
      obtain ⟨rfl, rfl⟩ := Prod.mk.inj (Tx.pure_eq_ok.1 h)
      exact ⟨.refl hcurrent, rfl⟩
    | cons last rest =>
      obtain ⟨_, hedge, h⟩ := Tx.check_bind_eq_ok.1 h
      obtain ⟨box, db₁, hupdate, h⟩ := Tx.bind_eq_ok.1 h
      obtain ⟨hmoved, hshares, -⟩ := setStatus_eq_ok hids (fun r hr hk ↦ by
        rw [hcurrent r hr hk]
        exact (assertValidTransition_eq_ok_iff.1 hedge).2) hupdate
      obtain ⟨hmoved', hshares'⟩ := ih (hmoved.ids ▸ hids) (fun r hr hk ↦ hmoved.status_eq hr hk) h
      exact ⟨hmoved.trans hmoved', hshares'.trans hshares⟩

end

/-! ### What the transactions write -/

/-- The statuses that a release can start from. -/
def Releasable (status : LockboxStatus) : Prop :=
  status ≠ .opened ∧ status ≠ .withdrawn

/-- The key shares of a box. -/
def sharesOf (db : Db) (id : Uuid) : List LockboxKeyShare :=
  db.lockboxKeyShares.filter (·.lockboxId = id)

/-- What a call may rely on. -/
def Knows (db : Db) : Local → Prop
  | .withdrawValidated call =>
    ∃ box ∈ db.lockboxes, box.id = call.lockboxId ∧ .withdrawn ∈ lockboxTransitions box.status
  | .releaseValidated call _ box _ =>
    box ∈ db.lockboxes ∧ box.id = call.lockboxId ∧ Releasable box.status
  | .withdrew box => ∃ r ∈ db.lockboxes, r.id = box.id ∧ r.status = .withdrawn
  | .released result => ∃ r ∈ db.lockboxes, r.id = result.lockbox.id ∧ r.status = .opened
  | _ => True

/-- A withdrawal: the box is `WITHDRAWN` and has no share that is not destroyed. -/
structure Withdrawn (id : Uuid) (db db' : Db) : Prop where
  moved : Moved id .withdrawn db db'
  shares_eq : ∃ now reason, db'.lockboxKeyShares =
    db.lockboxKeyShares.map (LockboxKeyShareRepository.destroyIfActive id now reason)

/-- A release: the box is `OPENED`. -/
structure Opened (id : Uuid) (db db' : Db) : Prop where
  moved : Moved id .opened db db'
  shares_eq : db'.lockboxKeyShares = db.lockboxKeyShares

/-- What the transaction of a local state has written. -/
inductive Wrote (db db' : Db) : Local → Local → Prop
  | withdrawn {call box} : box.id = call.lockboxId → Withdrawn call.lockboxId db db' →
      Wrote db db' (.withdrawValidated call) (.withdrew box)
  | opened {call keks box shares result} : result.lockbox.id = call.lockboxId →
      Opened call.lockboxId db db' →
      Wrote db db' (.releaseValidated call keks box shares) (.released result)

section

variable {db db' : Db}

theorem withdrawTx_eq_ok (hids : (db.lockboxes.map (·.id)).Nodup) {d : Draws} {call : WithdrawCall}
    {box : Lockbox} (hknows : Knows db (.withdrawValidated call))
    (h : withdrawTx d call db = .ok (box, db')) :
    box.id = call.lockboxId ∧ Withdrawn call.lockboxId db db' := by
  obtain ⟨updated, db₁, hupdate, h⟩ := Tx.bind_eq_ok.1 h
  obtain ⟨count, db₂, hdestroy, h⟩ := Tx.bind_eq_ok.1 h
  obtain ⟨_, -, h⟩ := Tx.check_bind_eq_ok.1 h
  obtain ⟨rfl, rfl⟩ := Prod.mk.inj (Except.ok.inj h)
  obtain ⟨-, rfl⟩ := Prod.mk.inj (Except.ok.inj hdestroy)
  obtain ⟨hmoved, hshares, hid⟩ := setStatus_eq_ok hids (fun r hr hk ↦ by
    obtain ⟨r₀, hr₀, hk₀, hedge⟩ := hknows
    rw [Rows.eq_of_key_eq hids hr₀ hr (hk.trans hk₀.symm)]
    exact hedge) hupdate
  exact ⟨hid, ⟨hmoved.boxes, hmoved.updates⟩, _, _, by rw [← hshares]⟩

theorem createEvidence_eq_ok {d : Draws} {call : ReleaseCall} {box : Lockbox}
    {row : LockboxReleaseEvidence} (h : createEvidence d call box db = .ok (row, db')) :
    db'.lockboxes = db.lockboxes ∧ db'.statusUpdates = db.statusUpdates ∧
      db'.lockboxKeyShares = db.lockboxKeyShares := by
  rw [createEvidence, Tx.get_bind_eq_ok] at h
  obtain ⟨-, -, rfl⟩ := Table.insert_eq_ok_iff.1 h
  exact ⟨rfl, rfl, rfl⟩

theorem releaseTx_eq_ok (hids : (db.lockboxes.map (·.id)).Nodup) {env : Env} {d : Draws}
    {call : ReleaseCall} {box : Lockbox} {shares : List WrappedShare} {keks : RoleKeks}
    {result : ReleaseResult} (hknows : Knows db (.releaseValidated call keks box shares))
    (h : releaseTx env d call box shares keks db = .ok (result, db')) :
    result.lockbox.id = call.lockboxId ∧ Opened call.lockboxId db db' := by
  obtain ⟨payload, -, h⟩ := Tx.check_bind_eq_ok.1 h
  obtain ⟨current, db₁, hhops, h⟩ := Tx.bind_eq_ok.1 h
  obtain ⟨_, hedge, h⟩ := Tx.check_bind_eq_ok.1 h
  obtain ⟨updated, db₂, hupdate, h⟩ := Tx.bind_eq_ok.1 h
  obtain ⟨row, db₃, hevidence, h⟩ := Tx.bind_eq_ok.1 h
  obtain ⟨rfl, rfl⟩ := Prod.mk.inj (Except.ok.inj h)
  obtain ⟨hmem, hid, -⟩ := hknows
  obtain ⟨hmoved, hshares⟩ := releaseHops_eq_ok hids (fun r hr hk ↦ by
    rw [Rows.eq_of_key_eq hids hmem hr (hk.trans hid.symm)]) hhops
  obtain ⟨hmoved', hshares', hid'⟩ := setStatus_eq_ok (hmoved.ids ▸ hids) (fun r hr hk ↦ by
    rw [hmoved.status_eq hr hk]
    exact (assertValidTransition_eq_ok_iff.1 hedge).2) hupdate
  obtain ⟨hboxes, hupdates, hkept⟩ := createEvidence_eq_ok hevidence
  have hall := hmoved.trans hmoved'
  refine ⟨hid', ⟨?_, ?_⟩, hkept.trans (hshares'.trans hshares)⟩
  · exact (hboxes : db₃.lockboxes = _) ▸ hall.boxes
  · exact (hupdates : db₃.statusUpdates = _) ▸ hall.updates

/-- A call that commits has succeeded. -/
theorem finished_of_commit {env : Env} {d : Draws} {l l' : Local} {body : Tx Db Thrown Local}
    (hnext : (calls env).next d l = .commit body) (hbody : body db = .ok (l', db')) :
    (∃ box, l' = .withdrew box) ∨ ∃ result, l' = .released result := by
  cases l with
  | withdrawValidated call =>
    obtain rfl := NextStep.commit.inj hnext
    obtain ⟨box, -, rfl⟩ := Tx.map_eq_ok.1 hbody
    exact Or.inl ⟨box, rfl⟩
  | releaseValidated call keks box shares =>
    obtain rfl := NextStep.commit.inj hnext
    obtain ⟨result, -, rfl⟩ := Tx.map_eq_ok.1 hbody
    exact Or.inr ⟨result, rfl⟩
  | _ => cases hnext

theorem wrote_of_commit {env : Env} {d : Draws} {l l' : Local} {body : Tx Db Thrown Local}
    (hids : (db.lockboxes.map (·.id)).Nodup) (hl : Knows db l)
    (hnext : (calls env).next d l = .commit body) (hbody : body db = .ok (l', db')) :
    Wrote db db' l l' := by
  cases l with
  | withdrawValidated call =>
    obtain rfl := NextStep.commit.inj hnext
    obtain ⟨box, hbox, rfl⟩ := Tx.map_eq_ok.1 hbody
    obtain ⟨hid, hwithdrawn⟩ := withdrawTx_eq_ok hids hl hbox
    exact .withdrawn hid hwithdrawn
  | releaseValidated call keks box shares =>
    obtain rfl := NextStep.commit.inj hnext
    obtain ⟨result, hresult, rfl⟩ := Tx.map_eq_ok.1 hbody
    obtain ⟨hid, hopened⟩ := releaseTx_eq_ok hids hl hresult
    exact .opened hid hopened
  | _ => cases hnext

end

/-! ### Each write concerns one box, that can still be moved -/

/-- The key of the box that a call has locked. -/
def held (env : Env) : Local → Option Int
  | .withdrawLocked call | .withdrawValidated call => some (env.hashtext call.lockboxId)
  | .releaseLocked call _ | .releaseValidated call _ _ _ => some (env.hashtext call.lockboxId)
  | _ => none

section

variable {db db' : Db} {l l' : Local}

/-- The shares of a box after those of some box were destroyed. -/
theorem sharesOf_of_destroyed {id : Uuid} {now : Instant} {reason : String}
    (h : db'.lockboxKeyShares =
      db.lockboxKeyShares.map (LockboxKeyShareRepository.destroyIfActive id now reason)) (j : Uuid) :
    sharesOf db' j =
      (sharesOf db j).map (LockboxKeyShareRepository.destroyIfActive id now reason) := by
  have hsame (share : LockboxKeyShare) :
      (LockboxKeyShareRepository.destroyIfActive id now reason share).lockboxId =
        share.lockboxId := by
    unfold LockboxKeyShareRepository.destroyIfActive
    split <;> rfl
  rw [sharesOf, sharesOf, h, List.filter_map]
  simp only [Function.comp_def, hsame]

theorem destroyIfActive_of_ne {id : Uuid} {now : Instant} {reason : String}
    {share : LockboxKeyShare} (h : share.lockboxId ≠ id) :
    LockboxKeyShareRepository.destroyIfActive id now reason share = share :=
  if_neg fun hactive ↦ h (of_decide_eq_true hactive).1

/-- A withdrawal leaves the shares of the other boxes alone. -/
theorem Withdrawn.sharesOf_of_ne {id : Uuid} (h : Withdrawn id db db') {j : Uuid} (hj : j ≠ id) :
    sharesOf db' j = sharesOf db j := by
  obtain ⟨now, reason, hshares⟩ := h.shares_eq
  rw [sharesOf_of_destroyed hshares]
  refine (List.map_congr_left fun share hshare ↦ destroyIfActive_of_ne ?_).trans (List.map_id _)
  exact (of_decide_eq_true (List.mem_filter.1 hshare).2).symm ▸ hj

/-- A release leaves all shares alone. -/
theorem Opened.sharesOf_eq {id : Uuid} (h : Opened id db db') (j : Uuid) :
    sharesOf db' j = sharesOf db j := by
  rw [sharesOf, sharesOf, h.shares_eq]

theorem releasable_of_withdrawable {status : LockboxStatus}
    (h : .withdrawn ∈ lockboxTransitions status) : Releasable status := by
  constructor
  · rintro rfl
    exact absurd h (by decide)
  · rintro rfl
    exact absurd h (by decide)

/-- The box that a commit concerns: it is neither `OPENED` nor `WITHDRAWN` before, one of them after,
and locked by the committing call. -/
theorem Wrote.concerns (hl : Knows db l) (h : Wrote db db' l l') :
    ∃ id t, Moved id t db db' ∧ (∀ env, held env l = some (env.hashtext id)) ∧
      ∃ r ∈ db.lockboxes, r.id = id ∧ Releasable r.status := by
  cases h with
  | withdrawn _ h =>
    obtain ⟨r, hr, hk, hedge⟩ := hl
    exact ⟨_, _, h.moved, fun _ ↦ rfl, r, hr, hk, releasable_of_withdrawable hedge⟩
  | opened _ h =>
    obtain ⟨hmem, hk, hreleasable⟩ := hl
    exact ⟨_, _, h.moved, fun _ ↦ rfl, _, hmem, hk, hreleasable⟩

/-- **Non-interference.** A write under another key, or under none, leaves what a call knows; and what
an ended call knows, no write at all can undo. -/
theorem knows_of_wrote {env : Env} (hids : (db.lockboxes.map (·.id)).Nodup) (hl : Knows db l)
    {m : Local} (hm : Knows db m) (hlock : ∀ key, held env m = some key → held env l ≠ some key)
    (h : Wrote db db' l l') : Knows db' m := by
  obtain ⟨id, t, hmoved, hheld, r, hr, hk, hreleasable⟩ := h.concerns hl
  -- a box in a status that no commit starts from is another one
  have hended {r' : Lockbox} (hr' : r' ∈ db.lockboxes) (hstatus : ¬ Releasable r'.status) :
      r' ∈ db'.lockboxes := by
    refine (hmoved.mem_of_ne fun hid ↦ hstatus ?_).2 hr'
    rw [Rows.eq_of_key_eq hids hr hr' (hid.trans hk.symm)]
    exact hreleasable
  -- and so is the box that `m` has locked
  have hother {j : Uuid} (hj : held env m = some (env.hashtext j)) : j ≠ id := by
    rintro rfl
    exact hlock _ hj (hheld env)
  cases m with
  | withdrawValidated call =>
    obtain ⟨r', hr', hk', hedge⟩ := hm
    exact ⟨r', (hmoved.mem_of_ne (hk'.symm ▸ hother rfl)).2 hr', hk', hedge⟩
  | releaseValidated call keks box shares =>
    obtain ⟨hmem, hid, hstatus⟩ := hm
    exact ⟨(hmoved.mem_of_ne (hid.symm ▸ hother rfl)).2 hmem, hid, hstatus⟩
  | withdrew box =>
    obtain ⟨r', hr', hid, hstatus⟩ := hm
    exact ⟨r', hended hr' fun h ↦ h.2 hstatus, hid, hstatus⟩
  | released result =>
    obtain ⟨r', hr', hid, hstatus⟩ := hm
    exact ⟨r', hended hr' fun h ↦ h.1 hstatus, hid, hstatus⟩
  | _ => trivial

theorem Wrote.knows (hl : Knows db l) (h : Wrote db db' l l') : Knows db' l' := by
  cases h with
  | withdrawn hid h =>
    obtain ⟨r, hr, hk, -⟩ := hl
    obtain ⟨r', hr', hk', hstatus⟩ := h.moved.exists_of_mem hr hk
    exact ⟨r', hr', hk'.trans hid.symm, hstatus⟩
  | opened hid h =>
    obtain ⟨hr, hk, -⟩ := hl
    obtain ⟨r', hr', hk', hstatus⟩ := h.moved.exists_of_mem hr hk
    exact ⟨r', hr', hk'.trans hid.symm, hstatus⟩

end

/-! ### What the reads establish -/

section

variable {db : Db} {l l' : Local}

theorem findById_eq_some {id : Uuid} {box : Lockbox}
    (h : LockboxRepository.findById db id = some box) : box ∈ db.lockboxes ∧ box.id = id :=
  ⟨List.mem_of_find?_eq_some h, of_decide_eq_true (List.find?_some h :)⟩

theorem releasable_of_cascade {status : LockboxStatus} {u : Unit}
    (h : assertValidLockboxReleaseCascade status = .ok u) : Releasable status := by
  constructor
  · rintro rfl
    cases h
  · rintro rfl
    cases h

/-- What a read of a call has found. -/
inductive Read (db : Db) : Local → Local → Prop
  | withdrawChecked {actor context lockboxId input call} :
      Read db (.called actor context (.withdraw lockboxId input)) (.withdrawChecked call)
  | releaseChecked {actor context lockboxId input call keks} :
      Read db (.called actor context (.release lockboxId input)) (.releaseChecked call keks)
  | withdrawValidated {call} : Knows db (.withdrawValidated call) →
      Read db (.withdrawLocked call) (.withdrawValidated call)
  | releaseValidated {call keks box shares} : Knows db (.releaseValidated call keks box shares) →
      Read db (.releaseLocked call keks) (.releaseValidated call keks box shares)

theorem read_of_query {env : Env} {d : Draws} {f : Db → Except Thrown Local}
    (hnext : (calls env).next d l = .query f) (hf : f db = .ok l') : Read db l l' := by
  cases l with
  | called actor context request =>
    obtain rfl := NextStep.query.inj hnext
    cases request with
    | withdraw lockboxId input =>
      obtain ⟨_, -, h⟩ := Except.bind_eq_ok'.1 hf
      obtain rfl := Except.ok.inj h
      exact .withdrawChecked
    | release lockboxId input =>
      obtain ⟨_, -, h⟩ := Except.bind_eq_ok'.1 hf
      obtain ⟨_, -, h⟩ := Except.bind_eq_ok'.1 h
      obtain rfl := Except.ok.inj h
      exact .releaseChecked
  | withdrawLocked call =>
    obtain rfl := NextStep.query.inj hnext
    obtain ⟨_, hcheck, h⟩ := Except.bind_eq_ok'.1 hf
    obtain rfl := Except.ok.inj h
    obtain ⟨box, hbox, hcheck⟩ := Except.bind_eq_ok'.1 hcheck
    obtain ⟨_, -, hedge⟩ := Except.bind_eq_ok'.1 hcheck
    obtain ⟨hmem, hid⟩ := findById_eq_some (orThrow_eq_ok_iff.1 hbox)
    exact .withdrawValidated ⟨box, hmem, hid, (assertValidTransition_eq_ok_iff.1 hedge).2⟩
  | releaseLocked call keks =>
    obtain rfl := NextStep.query.inj hnext
    obtain ⟨fresh, hfresh, h⟩ := Except.bind_eq_ok'.1 hf
    obtain rfl := Except.ok.inj h
    obtain ⟨box, hbox, hfresh⟩ := Except.bind_eq_ok'.1 hfresh
    obtain ⟨_, hcascade, hfresh⟩ := Except.bind_eq_ok'.1 hfresh
    obtain ⟨_, -, hfresh⟩ := Except.bind_eq_ok'.1 hfresh
    obtain rfl := Except.ok.inj hfresh
    obtain ⟨hmem, hid⟩ := findById_eq_some (orThrow_eq_ok_iff.1 hbox)
    exact .releaseValidated ⟨hmem, hid, releasable_of_cascade hcascade⟩
  | _ => cases hnext

theorem Read.knows (h : Read db l l') : Knows db l' := by
  cases h with
  | withdrawValidated h => exact h
  | releaseValidated h => exact h
  | _ => trivial

end

/-! ### The box under observation -/

/-- Of the three shares of a box all are destroyed once it is `WITHDRAWN`, and all active until then. -/
structure SharesInStep (db : Db) (box : Lockbox) : Prop where
  length : (sharesOf db box.id).length = Crypto.lockboxShareTotal
  destroyed : box.status = .withdrawn → ∀ share ∈ sharesOf db box.id, share.wrapped = none
  active : box.status ≠ .withdrawn → ∀ share ∈ sharesOf db box.id, share.wrapped.isSome

theorem SharesInStep.withdrawn_iff {db : Db} {box : Lockbox} (h : SharesInStep db box) :
    box.status = .withdrawn ↔ ∀ share ∈ sharesOf db box.id, share.wrapped = none := by
  refine ⟨h.destroyed, fun hnone ↦ ?_⟩
  by_contra hstatus
  have hpos : 0 < (sharesOf db box.id).length := by
    rw [h.length]
    decide
  obtain ⟨share, hshare⟩ := List.exists_mem_of_length_pos hpos
  have hactive := h.active hstatus share hshare
  rw [hnone share hshare] at hactive
  cases hactive

/-- The history and the shares of one box. -/
structure Consistent (id : Uuid) (db : Db) : Prop where
  ids : (db.lockboxes.map (·.id)).Nodup
  box : ∃ box ∈ db.lockboxes, box.id = id ∧
    Rows.Path lockboxTransitions .sealed (movesOf db id) box.status ∧ SharesInStep db box

section

variable {id : Uuid} {db db' : Db} {l l' : Local}

theorem destroyIfActive_wrapped {now : Instant} {reason : String} {share : LockboxKeyShare}
    (h : share.lockboxId = id) :
    (LockboxKeyShareRepository.destroyIfActive id now reason share).wrapped = none := by
  unfold LockboxKeyShareRepository.destroyIfActive
  split
  · rfl
  · next hactive =>
    exact Option.not_isSome_iff_eq_none.1 fun hsome ↦ hactive (decide_eq_true ⟨h, hsome⟩)

theorem Withdrawn.sharesInStep (h : Withdrawn id db db') {r r' : Lockbox} (hk : r.id = id)
    (hk' : r'.id = id) (hstatus : r'.status = .withdrawn) (hr : SharesInStep db r) :
    SharesInStep db' r' := by
  obtain ⟨now, reason, hshares⟩ := h.shares_eq
  have heq := sharesOf_of_destroyed hshares id
  refine ⟨?_, fun _ share hshare ↦ ?_, fun hnot ↦ absurd hstatus hnot⟩
  · rw [hk', heq, List.length_map, ← hk]
    exact hr.length
  · rw [hk', heq] at hshare
    obtain ⟨old, hold, rfl⟩ := List.mem_map.1 hshare
    exact destroyIfActive_wrapped (of_decide_eq_true (List.mem_filter.1 hold).2)

theorem Opened.sharesInStep (h : Opened id db db') {r r' : Lockbox} (hk : r.id = id)
    (hk' : r'.id = id) (hreleasable : Releasable r.status) (hstatus : r'.status = .opened)
    (hr : SharesInStep db r) : SharesInStep db' r' := by
  have heq : sharesOf db' r'.id = sharesOf db r.id := by
    rw [hk, hk', h.sharesOf_eq]
  refine ⟨heq ▸ hr.length, fun hwithdrawn ↦ ?_, fun _ ↦ heq ▸ hr.active hreleasable.2⟩
  rw [hstatus] at hwithdrawn
  cases hwithdrawn

theorem Moved.consistent {t : LockboxStatus} (h : Moved id t db db') (hc : Consistent id db)
    (hshares : ∀ {r r'}, r ∈ db.lockboxes → r.id = id → r'.id = id → r'.status = t →
      SharesInStep db r → SharesInStep db' r') : Consistent id db' := by
  obtain ⟨r, hr, hk, hpath, hstep⟩ := hc.box
  obtain ⟨r', hr', hk', hstatus⟩ := h.exists_of_mem hr hk
  exact ⟨h.ids ▸ hc.ids, r', hr', hk', hstatus ▸ h.path hr hk hpath, hshares hr hk hk' hstatus hstep⟩

theorem Moved.consistent_of_ne {id' : Uuid} {t : LockboxStatus} (h : Moved id' t db db')
    (hne : id ≠ id') (hshares : sharesOf db' id = sharesOf db id) (hc : Consistent id db) :
    Consistent id db' := by
  obtain ⟨r, hr, hk, hpath, hlength, hdestroyed, hactive⟩ := hc.box
  rw [hk, ← hshares, ← hk] at hlength hdestroyed hactive
  exact ⟨h.ids ▸ hc.ids, r, (h.mem_of_ne (hk.symm ▸ hne)).2 hr, hk,
    (h.movesOf_of_ne hne).symm ▸ hpath, hlength, hdestroyed, hactive⟩

theorem Wrote.consistent (hc : Consistent id db) (hl : Knows db l) (h : Wrote db db' l l') :
    Consistent id db' := by
  cases h with
  | @withdrawn call _ _ h =>
    by_cases hid : id = call.lockboxId
    · subst hid
      exact h.moved.consistent hc fun _ hk hk' hstatus hstep ↦ h.sharesInStep hk hk' hstatus hstep
    · exact h.moved.consistent_of_ne hid (h.sharesOf_of_ne hid) hc
  | @opened call _ box _ _ _ h =>
    by_cases hid : id = call.lockboxId
    · subst hid
      obtain ⟨hmem, hk₀, hreleasable⟩ := hl
      refine h.moved.consistent hc fun {r r'} hr hk hk' hstatus hstep ↦ ?_
      -- the row that was read is the row that is there
      obtain rfl : r = box := Rows.eq_of_key_eq hc.ids hmem hr (hk.trans hk₀.symm)
      exact h.sharesInStep hk hk' hreleasable hstatus hstep
    · exact h.moved.consistent_of_ne hid (h.sharesOf_eq id) hc

end

/-! ### Runs -/

section

variable (env : Env) {Pid : Type} [DecidableEq Pid]

/-- Each call is under the key of its box from its lock to its commit. -/
def lockDiscipline : (calls env).LockDiscipline where
  held := held env
  queried hnext hf := by cases read_of_query hnext hf <;> rfl
  locked {d l key l'} hnext := by
    cases l with
    | withdrawChecked | releaseChecked =>
      obtain ⟨rfl, rfl⟩ := NextStep.lock.inj hnext
      rfl
    | _ => cases hnext
  committed {d l body db l' db'} hnext hbody := by
    rcases finished_of_commit hnext hbody with ⟨box, rfl⟩ | ⟨result, rfl⟩
    · rfl
    · rfl
  failed _ := rfl
  crashed := rfl

/-- The outline of the calls, with an eye on one box. -/
def outline (id : Uuid) : (calls env).Outline (lockDiscipline env) where
  inv := Consistent id
  asrt := Knows
  queried _ _ hnext hf := (read_of_query hnext hf).knows
  locked {d l key s l'} _ _ hnext := by
    cases l with
    | withdrawChecked | releaseChecked =>
      obtain ⟨rfl, rfl⟩ := NextStep.lock.inj hnext
      trivial
    | _ => cases hnext
  committed hc hl hnext hbody :=
    have hwrote := wrote_of_commit hc.ids hl hnext hbody
    ⟨hwrote.consistent hc hl, hwrote.knows hl⟩
  failed _ := trivial
  crashed := trivial
  stable hc hl hm hlock hnext hbody :=
    knows_of_wrote hc.ids hl hm hlock (wrote_of_commit hc.ids hl hnext hbody)

/-- A configuration of lockbox calls. -/
abbrev Config (Pid : Type) : Type :=
  PartySystem.Config Pid (CallSystem.Shared Db Int Pid) Local

/-- Where a run starts: the box is sealed, its shares are active, and no call has done anything. -/
structure Initial (id : Uuid) (c : Config Pid) : Prop where
  ids : (c.shared.db.lockboxes.map (·.id)).Nodup
  sealed : ∃ box ∈ c.shared.db.lockboxes, box.id = id ∧ box.status = .sealed
  shares : (sharesOf c.shared.db id).length = Crypto.lockboxShareTotal
  active : ∀ share ∈ sharesOf c.shared.db id, share.wrapped.isSome
  unmoved : movesOf c.shared.db id = []
  called : ∀ p, ∃ actor context request, c.locals p = .called actor context request

variable {env} {id : Uuid} {c c' : Config Pid}

omit [DecidableEq Pid] in
theorem Initial.consistent (h : Initial id c) : Consistent id c.shared.db := by
  obtain ⟨box, hbox, hid, hstatus⟩ := h.sealed
  refine ⟨h.ids, box, hbox, hid, ?_, ?_⟩
  · rw [h.unmoved]
    exact hstatus.symm
  · refine ⟨hid ▸ h.shares, fun hwithdrawn ↦ ?_, fun _ ↦ hid ▸ h.active⟩
    rw [hstatus] at hwithdrawn
    cases hwithdrawn

theorem outline_holds (h : ((calls env).system Pid).Reachable (Initial id) c) :
    (lockDiscipline env).Kept c ∧ (outline env id).Holds c := by
  refine (outline env id).sound (fun c₀ h₀ ↦ ⟨fun p key hheld ↦ ?_, h₀.consistent, fun p ↦ ?_⟩) h
  · obtain ⟨actor, context, request, hlocal⟩ := h₀.called p
    rw [hlocal] at hheld
    cases hheld
  · obtain ⟨actor, context, request, hlocal⟩ := h₀.called p
    rw [hlocal]
    trivial

/-! ### Safety -/

/-- The call has released the box: it has returned the plaintext. -/
def Released (id : Uuid) : Local → Prop
  | .released result => result.lockbox.id = id
  | _ => False

/-- The call has withdrawn the box. -/
def Withdrew (id : Uuid) : Local → Prop
  | .withdrew box => box.id = id
  | _ => False

/-- What the call does next begins with the decryption. -/
def Decrypting (id : Uuid) : Local → Prop
  | .releaseValidated call _ _ _ => call.lockboxId = id
  | _ => False

/-- The box has reached a status that `canWithdrawFrom` excludes. -/
def Excluded (id : Uuid) (db : Db) : Prop :=
  ∃ box ∈ db.lockboxes, box.id = id ∧ canWithdrawFrom box.status = false

variable {p : Pid} {s s' : CallSystem.Shared Db Int Pid} {l l' : Local} {t : Tick Draws}

theorem knows_of_released {db : Db} (hl : Knows db l) (h : Released id l) :
    ∃ r ∈ db.lockboxes, r.id = id ∧ r.status = .opened := by
  cases l with
  | released result =>
    obtain ⟨r, hr, hk, hstatus⟩ := hl
    exact ⟨r, hr, hk.trans h, hstatus⟩
  | _ => exact h.elim

theorem knows_of_withdrew {db : Db} (hl : Knows db l) (h : Withdrew id l) :
    ∃ r ∈ db.lockboxes, r.id = id ∧ r.status = .withdrawn := by
  cases l with
  | withdrew box =>
    obtain ⟨r, hr, hk, hstatus⟩ := hl
    exact ⟨r, hr, hk.trans h, hstatus⟩
  | _ => exact h.elim

theorem knows_of_decrypting {db : Db} (hl : Knows db l) (h : Decrypting id l) :
    ∃ r ∈ db.lockboxes, r.id = id ∧ Releasable r.status := by
  cases l with
  | releaseValidated call keks box shares =>
    obtain ⟨hmem, hk, hreleasable⟩ := hl
    exact ⟨box, hmem, hk.trans h, hreleasable⟩
  | _ => exact h.elim

/-- A call succeeds by its commit. -/
theorem wrote_of_success (hids : (s.db.lockboxes.map (·.id)).Nodup) (hl : Knows s.db l)
    (h : (calls env).Transition p s l t s' l') (hl' : Released id l' ∨ Withdrew id l') :
    Wrote s.db s'.db l l' := by
  cases h with
  | queried hnext hf => cases read_of_query hnext hf <;> exact (or_self_iff.1 hl').elim
  | locked hnext =>
    cases l with
    | withdrawChecked | releaseChecked =>
      obtain ⟨rfl, rfl⟩ := NextStep.lock.inj hnext
      exact (or_self_iff.1 hl').elim
    | _ => cases hnext
  | committed hnext hbody => exact wrote_of_commit hids hl hnext hbody
  | failed | crashed => exact (or_self_iff.1 hl').elim

/-- A release starts from a releasable status. -/
theorem Wrote.releasable {db db' : Db} (hl : Knows db l) (h : Wrote db db' l l')
    (hl' : Released id l') : ∃ r ∈ db.lockboxes, r.id = id ∧ Releasable r.status := by
  cases h with
  | withdrawn => exact hl'.elim
  | opened hid h =>
    obtain ⟨hmem, hk, hreleasable⟩ := hl
    exact ⟨_, hmem, hk.trans (hid.symm.trans hl'), hreleasable⟩

theorem Wrote.not_excluded {db db' : Db} (hids : (db.lockboxes.map (·.id)).Nodup)
    (hl : Knows db l) (h : Wrote db db' l l') (hl' : Withdrew id l') : ¬ Excluded id db := by
  rintro ⟨box, hbox, hid, hexcluded⟩
  cases h with
  | withdrawn hcall h =>
    obtain ⟨r, hr, hk, hedge⟩ := hl
    obtain rfl : r = box :=
      Rows.eq_of_key_eq hids hbox hr (hk.trans (hcall.symm.trans (hl'.trans hid.symm)))
    exact of_decide_eq_false hexcluded hedge
  | opened => exact hl'.elim

theorem Moved.excluded {j : Uuid} {status : LockboxStatus} {db db' : Db} (h : Moved j status db db')
    (hstatus : canWithdrawFrom status = false) (hex : Excluded id db) : Excluded id db' := by
  obtain ⟨box, hbox, hid, hexcluded⟩ := hex
  by_cases hj : id = j
  · obtain ⟨box', hbox', hid', rfl⟩ := h.exists_of_mem hbox (hid.trans hj)
    exact ⟨box', hbox', hid'.trans hj.symm, hstatus⟩
  · exact ⟨box, (h.mem_of_ne (hid.symm ▸ hj)).2 hbox, hid, hexcluded⟩

/-- A status that cannot be withdrawn from is left only for another one. -/
theorem Wrote.excluded {db db' : Db} (h : Wrote db db' l l') (hex : Excluded id db) :
    Excluded id db' := by
  cases h with
  | withdrawn _ h => exact h.moved.excluded rfl hex
  | opened _ h => exact h.moved.excluded rfl hex

theorem excluded_of_fire (hc : ((calls env).system Pid).Reachable (Initial id) c)
    (hfire : ((calls env).system Pid).fire c p t = some c') (hex : Excluded id c.shared.db) :
    Excluded id c'.shared.db := by
  obtain ⟨-, hconsistent, hknows⟩ := outline_holds hc
  rcases (CallSystem.transition_of_fire hfire).db_cases with hdb | ⟨d, body, -, hnext, hbody⟩
  · rwa [hdb]
  · exact (wrote_of_commit hconsistent.ids (hknows p) hnext hbody).excluded hex

theorem withdrew_of_fire (hc : ((calls env).system Pid).Reachable (Initial id) c)
    (hfire : ((calls env).system Pid).fire c p t = some c') (hex : Excluded id c.shared.db)
    {q : Pid} (hq : Withdrew id (c'.locals q)) : Withdrew id (c.locals q) := by
  obtain ⟨-, hconsistent, hknows⟩ := outline_holds hc
  by_cases hqp : q = p
  · subst hqp
    have hwrote := wrote_of_success hconsistent.ids (hknows q)
      (CallSystem.transition_of_fire hfire) (Or.inr hq)
    exact absurd hex (hwrote.not_excluded hconsistent.ids (hknows q) hq)
  · rwa [← PartySystem.locals_of_fire hfire hqp]

/-- **No late withdrawal**: once the box cannot be withdrawn from, no further call withdraws it. -/
theorem withdrew_of_run (hc : ((calls env).system Pid).Reachable (Initial id) c)
    (hex : Excluded id c.shared.db) {steps : List (Pid × Tick Draws)}
    (hrun : ((calls env).system Pid).run c steps = some c') {q : Pid}
    (hq : Withdrew id (c'.locals q)) : Withdrew id (c.locals q) := by
  induction steps generalizing c with
  | nil => rwa [Option.some.inj hrun]
  | cons step rest ih =>
    obtain ⟨c₁, hfire, hrest⟩ := Option.bind_eq_some_iff.1 hrun
    exact withdrew_of_fire hc hfire hex (ih (hc.fire hfire) (excluded_of_fire hc hfire hex) hrest)

/-- **One release**: a second one would start from `OPENED`. -/
theorem released_unique (h : ((calls env).system Pid).Reachable (Initial id) c) :
    ∀ p q, Released id (c.locals p) → Released id (c.locals q) → p = q := by
  refine h.rec_inv (I := fun c : Config Pid ↦
    ∀ p q, Released id (c.locals p) → Released id (c.locals q) → p = q)
    (fun c₀ h₀ p q hp ↦ ?_) fun {c p t c'} hc ih hfire _ ↦ ?_
  · obtain ⟨actor, context, request, hlocal⟩ := h₀.called p
    rw [hlocal] at hp
    exact hp.elim
  · obtain ⟨-, hconsistent, hknows⟩ := outline_holds hc
    -- when `p` has just released the box, nobody had before
    have hfirst : Released id (c'.locals p) → ∀ q, q ≠ p → ¬ Released id (c'.locals q) := by
      intro hp q hqp hq
      rw [PartySystem.locals_of_fire hfire hqp] at hq
      have hwrote := wrote_of_success hconsistent.ids (hknows p)
        (CallSystem.transition_of_fire hfire) (Or.inl hp)
      obtain ⟨r, hr, hk, hreleasable⟩ := hwrote.releasable (hknows p) hp
      obtain ⟨r', hr', hk', hopened⟩ := knows_of_released (hknows q) hq
      rw [Rows.eq_of_key_eq hconsistent.ids hr hr' (hk'.trans hk.symm)] at hopened
      exact hreleasable.1 hopened
    intro q q' hq hq'
    by_cases hqp : q = p
    · subst hqp
      by_contra hne
      exact hfirst hq q' (Ne.symm hne) hq'
    · by_cases hqp' : q' = p
      · subst hqp'
        exact absurd hq (hfirst hq' q hqp)
      · rw [PartySystem.locals_of_fire hfire hqp] at hq
        rw [PartySystem.locals_of_fire hfire hqp'] at hq'
        exact ih q q' hq hq'

/-- What holds in a reachable configuration, and of every run out of it. -/
structure DisclosureSafe (env : Env) (id : Uuid) (c : Config Pid) : Prop where
  releasedOnce : ∀ p q, Released id (c.locals p) → Released id (c.locals q) → p = q
  notDecrypting : ∀ p q, Withdrew id (c.locals p) → ¬ Decrypting id (c.locals q)
  noLateWithdrawal : Excluded id c.shared.db → ∀ steps c',
    ((calls env).system Pid).run c steps = some c' →
      ∀ p, Withdrew id (c'.locals p) → Withdrew id (c.locals p)
  edges : ∀ move ∈ movesOf c.shared.db id, move.2 ∈ lockboxTransitions move.1
  box : ∃ box ∈ c.shared.db.lockboxes, box.id = id ∧
    Rows.Path lockboxTransitions .sealed (movesOf c.shared.db id) box.status ∧
    (box.status = .withdrawn ↔ ∀ share ∈ sharesOf c.shared.db id, share.wrapped = none) ∧
      (box.status ≠ .withdrawn → ∀ share ∈ sharesOf c.shared.db id, share.wrapped.isSome)

/-- **Disclosure safety** of a box that was sealed at the start, in every interleaving of `withdraw`
and `release` calls. -/
theorem disclosureSafe_of_reachable (h : ((calls env).system Pid).Reachable (Initial id) c) :
    DisclosureSafe env id c := by
  obtain ⟨-, hconsistent, hknows⟩ := outline_holds h
  obtain ⟨box, hbox, hid, hpath, hstep⟩ := hconsistent.box
  refine ⟨released_unique h, fun p q hp hq ↦ ?_, fun hex steps c' hrun p ↦ withdrew_of_run h hex hrun,
    fun move ↦ hpath.edge, box, hbox, hid, hpath, ?_, ?_⟩
  · obtain ⟨r, hr, hk, hwithdrawn⟩ := knows_of_withdrew (hknows p) hp
    obtain ⟨r', hr', hk', hreleasable⟩ := knows_of_decrypting (hknows q) hq
    rw [Rows.eq_of_key_eq hconsistent.ids hr' hr (hk.trans hk'.symm)] at hwithdrawn
    exact hreleasable.2 hwithdrawn
  · rw [← hid]
    exact hstep.withdrawn_iff
  · rw [← hid]
    exact hstep.active

end

namespace Sample

def sealed (n : UInt8) : Crypto.AesGcmCiphertext := ⟨[], [n], [n]⟩

/-- Nothing here was encrypted under the keys there are, so no tag verifies. -/
def env : Env where
  hashtext s := s.length
  utf8 _ := []
  roleKeks := .ok fun _ ↦ []
  decrypt _ _ _ := .error .tamperOrWrongKey
  parsePayload _ := none

def db : Db where
  organizations := ["merchant", "acquirer"]
  lockboxes :=
    [{ id := "box", sealerOrgId := "merchant", status := .sealed, envelope := sealed 0,
       ciphertextHash := "hash" }]
  lockboxKeyShares :=
    [{ lockboxId := "box", holderRole := .sealer, shareIndex := 1, wrapped := some (sealed 1) },
     { lockboxId := "box", holderRole := .operator, shareIndex := 2, wrapped := some (sealed 2) },
     { lockboxId := "box", holderRole := .escrow, shareIndex := 3, wrapped := some (sealed 3) }]

def context : RequestContext := ⟨"req", "corr", "office", "browser"⟩

/-- The sealer withdraws while an operator releases. -/
def start : Config ℕ where
  shared := ⟨db, .free⟩
  locals
    | 0 => .called ⟨"merle", some "merchant", some .merchantPspUser, some "m1"⟩ context
        (.withdraw "box" {})
    | _ => .called ⟨"oscar", some "desk", some .marketplaceOperator, some "m2"⟩ context
        (.release "box" ⟨"acquirer", "condition"⟩)

def draws : Draws := ⟨fun n ↦ s!"e{n}", 1000⟩

/-- Both pass their first checks; the withdrawal gets the lock. -/
def steps : List (ℕ × Tick Draws) :=
  [(0, .act draws), (1, .act draws), (0, .act draws), (0, .act draws), (0, .act draws),
   (1, .act draws), (1, .act draws)]

theorem initial_start : Initial "box" start where
  ids := by decide
  sealed := ⟨_, List.mem_singleton_self _, rfl, rfl⟩
  shares := by decide
  active := by decide
  unmoved := rfl
  called p := by
    cases p with
    | zero => exact ⟨_, _, _, rfl⟩
    | succ p => exact ⟨_, _, _, rfl⟩

theorem disclosureSafe_of_steps : ∃ c : Config ℕ,
    c.shared.db.lockboxes.map (·.status) = [.withdrawn] ∧ DisclosureSafe env "box" c := by
  have hrun : (((calls env).system ℕ).run start steps).any (fun c ↦
      c.shared.db.lockboxes.map (·.status) = [.withdrawn]) = true := by
    decide +kernel
  obtain ⟨c, hc, hstatus⟩ := PartySystem.exists_run_of_test hrun
  exact ⟨c, hstatus,
    disclosureSafe_of_reachable (PartySystem.Reachable.run (.start initial_start) hc)⟩

/-- The same under a cipher that encrypts nothing. -/
def plainEnv : Env :=
  { env with
    decrypt := fun c _ _ ↦ .ok c.ciphertext
    parsePayload := fun _ ↦ some ⟨"", "", ""⟩ }

/-- There a release on its own opens the box. -/
example : (((calls plainEnv).system ℕ).run start (List.replicate 4 (1, .act draws))).any (fun c ↦
    c.shared.db.lockboxes.map (·.status) = [.opened]) = true := by
  decide +kernel

end Sample

end TolPlatform.Lockboxes
