import TolPlatform.Rfqs.Expiry

/-!
# The backlog of overdue RFQs

A sweep lists at most 500 of the RFQs that are overdue, the longest overdue first. Wherever a run has led,
sweeps that are left to themselves clear the backlog: each ends with a result that counts as expired all that
it has listed, `k` of them leave 500 · `k` RFQs fewer, and none of those is due later than one that is left
(`drained_of_reachable`).
-/

namespace TolPlatform.Rfqs

/-! ### What a sweep leaves -/

/-- The RFQs that `listOverdue` chooses from. -/
def overdue (db : Db) (now : Instant) : List RFQ :=
  db.rfqs.filter fun r ↦ r.dueAt < now ∧ r.status ∈ RfqRepository.expirableStatuses

/-- Several RFQs expired. -/
def expireAll (ids : List Uuid) (rows : List RFQ) : List RFQ :=
  rows.map fun r ↦ if r.id ∈ ids then RfqRepository.setStatus .expired r else r

section

variable {db db' : Db} {now : Instant} {ids : List Uuid} {rows : List RFQ}

theorem mem_overdue {r : RFQ} : r ∈ overdue db now ↔
    r ∈ db.rfqs ∧ r.dueAt < now ∧ r.status ∈ RfqRepository.expirableStatuses := by
  rw [overdue, List.mem_filter, decide_eq_true_iff]

theorem expireAll_nil (rows : List RFQ) : expireAll [] rows = rows :=
  (List.map_congr_left fun _ _ ↦ if_neg List.not_mem_nil).trans (List.map_id rows)

theorem expireAll_singleton (id : Uuid) (rows : List RFQ) :
    expireAll [id] rows = Rows.rewrite RFQ.id id (RfqRepository.setStatus .expired) rows := by
  refine List.map_congr_left fun r _ ↦ ?_
  simp only [List.mem_singleton]

theorem expireAll_append (ids ids' : List Uuid) (rows : List RFQ) :
    expireAll (ids ++ ids') rows = expireAll ids' (expireAll ids rows) := by
  rw [expireAll, expireAll, expireAll, List.map_map]
  refine List.map_congr_left fun r _ ↦ ?_
  by_cases hid : r.id ∈ ids
  · by_cases hid' : r.id ∈ ids'
    · simp [hid, hid', RfqRepository.setStatus]
    · simp [hid, hid', RfqRepository.setStatus]
  · simp [hid]

/-- A row that is not expired stays as it is. -/
theorem mem_expireAll_of_notMem {r : RFQ} (hr : r ∈ rows) (hid : r.id ∉ ids) : r ∈ expireAll ids rows :=
  List.mem_map.2 ⟨r, hr, if_neg hid⟩

/-- What is overdue after a sweep. -/
theorem overdue_expireAll (h : db'.rfqs = expireAll ids db.rfqs) :
    overdue db' now = (overdue db now).filter fun r ↦ r.id ∉ ids := by
  rw [overdue, overdue, h, expireAll, List.filter_filter]
  generalize db.rfqs = rows
  induction rows with
  | nil => rfl
  | cons r rows ih =>
    rw [List.map_cons, List.filter_cons, List.filter_cons, ih]
    by_cases hid : r.id ∈ ids
    · have hexpired : RfqStatus.expired ∉ RfqRepository.expirableStatuses := by decide
      simp [hid, RfqRepository.setStatus, hexpired]
    · simp [hid]

/-- The backlog, the longest overdue first. -/
def backlog (db : Db) (now : Instant) : List RFQ :=
  (overdue db now).mergeSort fun a b ↦ decide (a.dueAt ≤ b.dueAt)

theorem backlog_perm (db : Db) (now : Instant) : (backlog db now).Perm (overdue db now) :=
  List.mergeSort_perm _ _

theorem listOverdue_eq (db : Db) (now : Instant) :
    RfqRepository.listOverdue db now = (backlog db now).take 500 := rfl

theorem nodup_backlog (hc : Consistent db) : ((backlog db now).map (·.id)).Nodup := by
  have hsub : (overdue db now).Sublist db.rfqs := List.filter_sublist
  exact ((backlog_perm db now).map _).nodup_iff.2 ((hsub.map _).nodup hc.rfqIds)

theorem filter_notMem_take {rows : List RFQ} (hnodup : (rows.map (·.id)).Nodup) (n : ℕ) :
    rows.filter (fun r ↦ r.id ∉ (rows.take n).map (·.id)) = rows.drop n := by
  have hparts : rows.take n ++ rows.drop n = rows := List.take_append_drop n rows
  rw [← hparts, List.map_append, List.nodup_append'] at hnodup
  obtain ⟨-, -, hdisjoint⟩ := hnodup
  have hnone : (rows.take n).filter (fun r ↦ r.id ∉ (rows.take n).map (·.id)) = [] :=
    List.filter_eq_nil_iff.2 fun r hr hnot ↦ of_decide_eq_true hnot (List.mem_map_of_mem hr)
  have hall : (rows.drop n).filter (fun r ↦ r.id ∉ (rows.take n).map (·.id)) = rows.drop n :=
    List.filter_eq_self.2 fun r hr ↦ decide_eq_true fun hmem ↦
      hdisjoint hmem (List.mem_map_of_mem hr)
  calc rows.filter (fun r ↦ r.id ∉ (rows.take n).map (·.id))
      = (rows.take n ++ rows.drop n).filter (fun r ↦ r.id ∉ (rows.take n).map (·.id)) := by rw [hparts]
    _ = rows.drop n := by rw [List.filter_append, hnone, hall, List.nil_append]

/-- **A sweep leaves the rest of the backlog.** -/
theorem overdue_perm_drop (hc : Consistent db)
    (h : db'.rfqs = expireAll ((RfqRepository.listOverdue db now).map (·.id)) db.rfqs) :
    (overdue db' now).Perm ((backlog db now).drop 500) := by
  rw [overdue_expireAll h, ← filter_notMem_take (nodup_backlog hc)]
  exact (backlog_perm db now).symm.filter _

end

/-! ### One expiry -/

section

variable {env : Env} {Pid : Type} [DecidableEq Pid] {c c' : Config Pid} {p : Pid} {sweeps : List Pid}
  {now : Instant} {supply : ℕ → Uuid}

/-- Steps of the given sweeps, and of nobody else. -/
def StepOf (sweeps : List Pid) (c : Config Pid) (p : Pid) (t : Tick Draws) (c' : Config Pid) : Prop :=
  p ∈ sweeps ∧ DrawsNewIds c p t c'

/-- New ids. -/
def Supplies (supply : ℕ → Uuid) (c : Config Pid) : Prop :=
  ∀ n, ':' ∉ (supply n).toList ∧ supply n ∉ c.shared.db.idempotencyKeys.map (·.id)

/-- One sweep has expired the RFQs with these ids, and nobody else has moved. -/
structure Cleared (env : Env) (sweeps : List Pid) (supply : ℕ → Uuid) (p : Pid) (ids : List Uuid)
    (c c' : Config Pid) : Prop where
  reached : ((calls env).system Pid).ReachableBy (StepOf sweeps) (· = c) c'
  others : ∀ q, q ≠ p → c'.locals q = c.locals q
  rfqs_eq : c'.shared.db.rfqs = expireAll ids c.shared.db.rfqs
  frees : ∀ key, c.shared.locks.holder key = none → c'.shared.locks.holder key = none
  supplies : Supplies (fun n ↦ supply (n + ids.length)) c'

theorem Sweepable.of_stepOf (h : Sweepable env c)
    (hreach : ((calls env).system Pid).ReachableBy (StepOf sweeps) (· = c) c') : Sweepable env c' :=
  hreach.rec_inv (fun _ hc ↦ hc ▸ h) fun _ h hfire hstep ↦ h.fire hfire hstep.2

theorem Cleared.refl (hsupply : Supplies supply c) : Cleared env sweeps supply p [] c c :=
  ⟨.start rfl, fun _ _ ↦ rfl, (expireAll_nil _).symm, fun _ h ↦ h, hsupply⟩

theorem Cleared.trans {ids ids' : List Uuid} {c₁ : Config Pid}
    (h : Cleared env sweeps supply p ids c c₁)
    (h' : Cleared env sweeps (fun n ↦ supply (n + ids.length)) p ids' c₁ c') :
    Cleared env sweeps supply p (ids ++ ids') c c' where
  reached := h.reached.trans h'.reached
  others q hq := (h'.others q hq).trans (h.others q hq)
  rfqs_eq := by rw [h'.rfqs_eq, h.rfqs_eq, expireAll_append]
  frees key hkey := h'.frees key (h.frees key hkey)
  supplies n := by
    have hlength : n + (ids ++ ids').length = n + ids'.length + ids.length := by
      rw [List.length_append]
      omega
    show ':' ∉ (supply (n + (ids ++ ids').length)).toList ∧
      supply (n + (ids ++ ids').length) ∉ c'.shared.db.idempotencyKeys.map (·.id)
    rw [hlength]
    exact h'.supplies n

/-- The next RFQ of a sweep is expired, if it can be. -/
theorem exists_cleared_one (h : Sweepable env c) (hp : p ∈ sweeps) {run : ExpiryRun}
    (hlocal : c.locals p = .expiring run) {status : RfqStatus}
    (hexpirable : status ∈ RfqRepository.expirableStatuses)
    (hstatus : StatusIs c.shared.db run.rfqId status)
    (hfree : c.shared.locks.holder (env.hashtext run.rfqId) = none)
    (hinj : Function.Injective supply) (hsupply : Supplies supply c) :
    ∃ c', Cleared env sweeps supply p [run.rfqId] c c' ∧ c'.locals p = afterOne run true := by
  let d : Draws := ⟨fun _ ↦ supply 0, 0⟩
  have hc : Consistent c.shared.db := h.sound.2.1
  have hdraws {c₁ : Config Pid} (hdb : c₁.shared.db = c.shared.db) (c₂ : Config Pid) :
      StepOf sweeps c₁ p (.act d) c₂ := by
    refine ⟨hp, fun d' hd ↦ ?_⟩
    obtain rfl := Tick.act.inj hd
    rw [hdb]
    exact hsupply 0
  -- the lock
  have hnext₁ : (calls env).next d (c.locals p) = .lock (env.hashtext run.rfqId) (.expiryLocked run) := by
    rw [hlocal]
    rfl
  obtain ⟨c₁, hfire₁, hdb₁, hholder, hlocal₁⟩ := CallSystem.exists_fire_of_lock hnext₁ hfree
  -- the look at the RFQ under it
  have hnext₂ : (calls env).next d (c₁.locals p) =
      .query fun db ↦ .ok (.expiryFresh run (expirableStatus db run.rfqId)) := by
    rw [hlocal₁]
    rfl
  have hlook : expirableStatus c₁.shared.db run.rfqId = some status := by
    obtain ⟨r, hr, hstatus⟩ := Option.map_eq_some_iff.1 (hstatus.statusOf hc)
    rw [hdb₁, expirableStatus, hr, Option.map_some, hstatus, Option.filter_some,
      if_pos (decide_eq_true hexpirable)]
  obtain ⟨c₂, hfire₂, hshared₂, hlocal₂⟩ := CallSystem.exists_fire_of_query hnext₂
    (congrArg (fun o ↦ Except.ok (Local.expiryFresh run o)) hlook)
  have hdb₂ : c₂.shared.db = c.shared.db := by rw [hshared₂, hdb₁]
  -- the commit
  have hnext₃ : (calls env).next d (c₂.locals p) =
      .commit (afterOne run <$> expireOne env d run (some status)) := by
    rw [hlocal₂]
    rfl
  have hfresh : d.ids 0 ∉ c.shared.db.idempotencyKeys.map (·.id) := (hsupply 0).2
  obtain ⟨db, hok, hby⟩ := exists_expireOne_eq_ok hc h.plain h.records hexpirable hstatus hfresh
  obtain ⟨c₃, hfire₃, hshared₃, hlocal₃⟩ := CallSystem.exists_fire_of_commit hnext₃
    (Tx.map_eq_ok.2 ⟨true, hdb₂ ▸ hok, rfl⟩)
  refine ⟨c₃, ⟨?_, fun q hq ↦ ?_, ?_, fun key hkey ↦ ?_, fun n ↦ ?_⟩, hlocal₃⟩
  · exact .step (.step (.step (.start rfl) hfire₁ (hdraws rfl _)) hfire₂ (hdraws hdb₁ _)) hfire₃
      (hdraws hdb₂ _)
  · rw [PartySystem.locals_of_fire hfire₃ hq, PartySystem.locals_of_fire hfire₂ hq,
      PartySystem.locals_of_fire hfire₁ hq]
  · rw [hshared₃, expireAll_singleton]
    exact hby.rfqs_eq
  · rw [hshared₃, hshared₂]
    show (if c₁.shared.locks.holder key = some p then none else c₁.shared.locks.holder key) = none
    rw [hholder]
    by_cases hsame : key = env.hashtext run.rfqId
    · rw [hsame, Function.update_self, if_pos rfl]
    · rw [Function.update_of_ne hsame, hkey, if_neg (Option.some_ne_none p).symm]
  · refine ⟨(hsupply _).1, fun hmem ↦ ?_⟩
    rw [hshared₃] at hmem
    have hkeys := hby.keys_eq
    rw [show (c₂.shared.close p db).db = db from rfl, hkeys, List.map_append] at hmem
    rcases List.mem_append.1 hmem with hmem | hmem
    · exact (hsupply _).2 hmem
    · -- the id that has been used up
      have hused := hinj (List.mem_singleton.1 hmem)
      rw [List.length_singleton] at hused
      omega

/-! ### One sweep -/

/-- Nothing stands in the way of expiring these RFQs. -/
structure Expirable (env : Env) (c : Config Pid) (ids : List Uuid) : Prop where
  nodup : ids.Nodup
  statuses : ∀ id ∈ ids, ∃ r ∈ c.shared.db.rfqs, r.id = id ∧
    r.status ∈ RfqRepository.expirableStatuses
  free : ∀ id ∈ ids, c.shared.locks.holder (env.hashtext id) = none

/-- A sweep gets to its end. -/
theorem exists_cleared (h : Sweepable env c) (hp : p ∈ sweeps) {result : RfqExpiryJobResult}
    {rest : List (Uuid × Instant)} (hlocal : c.locals p = proceed result rest)
    (hrest : Expirable env c (rest.map (·.1))) (hinj : Function.Injective supply)
    (hsupply : Supplies supply c) :
    ∃ c', Cleared env sweeps supply p (rest.map (·.1)) c c' ∧
      c'.locals p = .finished { result with expired := result.expired + rest.length } := by
  induction rest generalizing c result supply with
  | nil => exact ⟨c, .refl hsupply, hlocal⟩
  | cons next rest ih =>
    obtain ⟨hnotMem, hnodup⟩ := List.nodup_cons.1 hrest.nodup
    obtain ⟨r, hr, hid, hexpirable⟩ := hrest.statuses next.1 List.mem_cons_self
    have hfree := hrest.free next.1 List.mem_cons_self
    obtain ⟨c₁, hone, hlocal₁⟩ :=
      exists_cleared_one h hp hlocal hexpirable ⟨r, hr, hid, rfl⟩ hfree hinj hsupply
    have hinj₁ : Function.Injective fun n ↦ supply (n + [next.1].length) := fun m n hmn ↦
      Nat.add_right_cancel (hinj hmn)
    -- the RFQs that are left are as they were
    have hleft : Expirable env c₁ (rest.map (·.1)) := by
      refine ⟨hnodup, fun id hmem ↦ ?_, fun id hmem ↦ ?_⟩
      · obtain ⟨r', hr', hid', hexpirable'⟩ := hrest.statuses id (List.mem_cons_of_mem _ hmem)
        refine ⟨r', ?_, hid', hexpirable'⟩
        rw [hone.rfqs_eq]
        refine mem_expireAll_of_notMem hr' fun hsame ↦ hnotMem ?_
        have hnext : r'.id = next.1 := List.mem_singleton.1 hsame
        rwa [← hid', hnext] at hmem
      · exact hone.frees _ (hrest.free id (List.mem_cons_of_mem _ hmem))
    obtain ⟨c', hall, hend⟩ := ih (h.of_stepOf hone.reached) hlocal₁ hleft hinj₁ hone.supplies
    refine ⟨c', hone.trans hall, hend.trans (congrArg Local.finished ?_)⟩
    show RfqExpiryJobResult.mk _ (result.expired + 1 + rest.length) = ⟨_, _ + (rest.length + 1)⟩
    rw [Nat.add_assoc, Nat.add_comm rest.length]

omit [DecidableEq Pid] in
theorem expirable_listOverdue (h : Sweepable env c)
    (hfree : ∀ r ∈ overdue c.shared.db now, c.shared.locks.holder (env.hashtext r.id) = none) :
    Expirable env c ((RfqRepository.listOverdue c.shared.db now).map (·.id)) := by
  have hsub : (RfqRepository.listOverdue c.shared.db now).Sublist (backlog c.shared.db now) :=
    List.take_sublist _ _
  have hmem {id : Uuid} (hid : id ∈ (RfqRepository.listOverdue c.shared.db now).map (·.id)) :
      ∃ r ∈ overdue c.shared.db now, r.id = id := by
    obtain ⟨r, hr, rfl⟩ := List.mem_map.1 hid
    exact ⟨r, (backlog_perm _ _).mem_iff.1 (hsub.mem hr), rfl⟩
  refine ⟨(hsub.map _).nodup (nodup_backlog h.sound.2.1), fun id hid ↦ ?_, fun id hid ↦ ?_⟩
  · obtain ⟨r, hr, hrid⟩ := hmem hid
    obtain ⟨hrow, -, hexpirable⟩ := mem_overdue.1 hr
    exact ⟨r, hrow, hrid, hexpirable⟩
  · obtain ⟨r, hr, rfl⟩ := hmem hid
    exact hfree r hr

/-- **A sweep that is left to itself** expires all that it lists. -/
theorem exists_sweep (h : Sweepable env c) (hp : p ∈ sweeps) (hdelivered : c.locals p = .delivered none)
    (hfree : ∀ r ∈ overdue c.shared.db now, c.shared.locks.holder (env.hashtext r.id) = none)
    (hinj : Function.Injective supply) (hsupply : Supplies supply c) :
    ∃ c' n, Cleared env sweeps supply p ((RfqRepository.listOverdue c.shared.db now).map (·.id)) c c' ∧
      c'.locals p = .finished ⟨n, n⟩ := by
  let d : Draws := ⟨fun _ ↦ supply 0, now⟩
  have hdraws (c₁ : Config Pid) : StepOf sweeps c p (.act d) c₁ := by
    refine ⟨hp, fun d' hd ↦ ?_⟩
    obtain rfl := Tick.act.inj hd
    exact hsupply 0
  have hnext : (calls env).next d (c.locals p) = .query fun db ↦ .ok (findDue db now none) := by
    rw [hdelivered]
    rfl
  obtain ⟨c₁, hfire, hshared, hlocal⟩ := CallSystem.exists_fire_of_query hnext rfl
  have hlisted : Cleared env sweeps supply p [] c c₁ :=
    ⟨.step (.start rfl) hfire (hdraws _), fun q hq ↦ PartySystem.locals_of_fire hfire hq,
      by rw [hshared, expireAll_nil], fun key hkey ↦ hshared ▸ hkey, fun n ↦ hshared ▸ hsupply n⟩
  have hids : ((RfqRepository.listOverdue c.shared.db now).map fun r ↦ (r.id, r.dueAt)).map (·.1) =
      (RfqRepository.listOverdue c.shared.db now).map (·.id) := by
    rw [List.map_map]
    rfl
  have hexpirable : Expirable env c₁ ((RfqRepository.listOverdue c₁.shared.db now).map (·.id)) :=
    expirable_listOverdue (h.of_stepOf hlisted.reached) (hshared ▸ hfree)
  rw [hshared, ← hids] at hexpirable
  obtain ⟨c', hcleared, hend⟩ := exists_cleared (h.of_stepOf hlisted.reached) hp hlocal hexpirable hinj
    hlisted.supplies
  refine ⟨c', (RfqRepository.listOverdue c.shared.db now).length, hids ▸ hlisted.trans hcleared, ?_⟩
  rw [hend, List.length_map, Nat.zero_add]

/-! ### Many sweeps -/

theorem PastExpiry.of_stepOf {id : Uuid} (h : Sweepable env c) (hpast : PastExpiry c.shared.db id)
    (hreach : ((calls env).system Pid).ReachableBy (StepOf sweeps) (· = c) c') :
    PastExpiry c'.shared.db id := by
  have hboth : Sweepable env c' ∧ PastExpiry c'.shared.db id :=
    hreach.rec_inv (I := fun c ↦ Sweepable env c ∧ PastExpiry c.shared.db id)
      (fun _ hc ↦ hc ▸ ⟨h, hpast⟩) fun _ h hfire hstep ↦
        ⟨h.1.fire hfire hstep.2, h.2.later (h.1.evolves hfire)⟩
  exact hboth.2

/-- A backlog that sweeps have worked off. -/
structure WorkedOff (now : Instant) (sweeps : List Pid) (c c' : Config Pid) : Prop where
  others : ∀ q, q ∉ sweeps → c'.locals q = c.locals q
  finished : ∀ p ∈ sweeps, ∃ n, c'.locals p = .finished ⟨n, n⟩
  length_eq : (overdue c'.shared.db now).length =
    (overdue c.shared.db now).length - 500 * sweeps.length
  subset : overdue c'.shared.db now ⊆ overdue c.shared.db now
  longest : ∀ r ∈ overdue c.shared.db now, r ∈ overdue c'.shared.db now ∨
    PastExpiry c'.shared.db r.id ∧ ∀ r' ∈ overdue c'.shared.db now, r.dueAt ≤ r'.dueAt

theorem pairwise_backlog (db : Db) (now : Instant) :
    (backlog db now).Pairwise fun a b ↦ a.dueAt ≤ b.dueAt := by
  have hsorted : (backlog db now).Pairwise fun a b ↦ decide (a.dueAt ≤ b.dueAt) :=
    List.pairwise_mergeSort
      (fun a b c hab hbc ↦ decide_eq_true ((of_decide_eq_true hab).trans (of_decide_eq_true hbc)))
      (fun a b ↦ by simpa using le_total a.dueAt b.dueAt) (overdue db now)
  exact hsorted.imp of_decide_eq_true

/-- What a sweep has listed was due before what is left. -/
theorem dueAt_le_of_listed {db : Db} {r r' : RFQ} (hr : r ∈ (backlog db now).take 500)
    (hr' : r' ∈ (backlog db now).drop 500) : r.dueAt ≤ r'.dueAt := by
  have hsorted := pairwise_backlog db now
  rw [← List.take_append_drop 500 (backlog db now), List.pairwise_append] at hsorted
  exact hsorted.2.2 r hr r' hr'

theorem exists_workedOff (h : Sweepable env c) (hnodup : sweeps.Nodup)
    (hdelivered : ∀ p ∈ sweeps, c.locals p = .delivered none)
    (hfree : ∀ r ∈ overdue c.shared.db now, c.shared.locks.holder (env.hashtext r.id) = none)
    (hinj : Function.Injective supply) (hsupply : Supplies supply c) :
    ∃ c', ((calls env).system Pid).ReachableBy (StepOf sweeps) (· = c) c' ∧
      WorkedOff now sweeps c c' := by
  induction sweeps generalizing c supply with
  | nil =>
    exact ⟨c, .start rfl, fun _ _ ↦ rfl, nofun, rfl, List.Subset.refl _, fun r hr ↦ Or.inl hr⟩
  | cons p sweeps ih =>
    obtain ⟨hnotMem, hnodup⟩ := List.nodup_cons.1 hnodup
    have hc : Consistent c.shared.db := h.sound.2.1
    obtain ⟨c₁, n, hcleared, hfinished⟩ : ∃ c₁ n, Cleared env (p :: sweeps) supply p
        ((RfqRepository.listOverdue c.shared.db now).map (·.id)) c c₁ ∧
          c₁.locals p = .finished ⟨n, n⟩ :=
      exists_sweep h List.mem_cons_self (hdelivered p List.mem_cons_self) hfree hinj hsupply
    have h₁ := h.of_stepOf hcleared.reached
    have hperm : (overdue c₁.shared.db now).Perm ((backlog c.shared.db now).drop 500) :=
      overdue_perm_drop hc hcleared.rfqs_eq
    have hsubset : overdue c₁.shared.db now ⊆ overdue c.shared.db now := fun r hr ↦
      (backlog_perm _ _).mem_iff.1 (List.mem_of_mem_drop (hperm.mem_iff.1 hr))
    -- the other sweeps go on from there
    have hothers : ∀ q ∈ sweeps, c₁.locals q = .delivered none := by
      intro q hq
      rw [hcleared.others q fun hqp ↦ hnotMem (hqp ▸ hq)]
      exact hdelivered q (List.mem_cons_of_mem _ hq)
    obtain ⟨c', hreach, hrest⟩ := ih h₁ hnodup hothers
      (fun r hr ↦ hcleared.frees _ (hfree r (hsubset hr)))
      (fun m n hmn ↦ Nat.add_right_cancel (hinj hmn)) hcleared.supplies
    refine ⟨c', hcleared.reached.trans (hreach.mono fun hstep ↦
      ⟨List.mem_cons_of_mem _ hstep.1, hstep.2⟩), ?_, ?_, ?_, fun r hr ↦ hsubset (hrest.subset hr), ?_⟩
    · intro q hq
      rw [hrest.others q fun hmem ↦ hq (List.mem_cons_of_mem _ hmem)]
      exact hcleared.others q fun hqp ↦ hq (hqp ▸ List.mem_cons_self)
    · refine List.forall_mem_cons.2 ⟨⟨n, ?_⟩, hrest.finished⟩
      rw [hrest.others p hnotMem, hfinished]
    · have hlength := hperm.length_eq
      rw [List.length_drop, (backlog_perm _ _).length_eq] at hlength
      rw [hrest.length_eq, hlength, List.length_cons]
      omega
    · intro r hr
      have hmem := (backlog_perm _ _).mem_iff.2 hr
      rw [← List.take_append_drop 500 (backlog c.shared.db now)] at hmem
      rcases List.mem_append.1 hmem with hlisted | hleft
      · refine Or.inr ⟨PastExpiry.of_stepOf h₁ ?_ hreach, fun r' hr' ↦ ?_⟩
        · have hexpired : RfqStatus.expired ∉ RfqRepository.expirableStatuses := by decide
          refine ⟨RfqRepository.setStatus .expired r, ?_, rfl, hexpired⟩
          rw [hcleared.rfqs_eq]
          exact List.mem_map.2 ⟨r, (mem_overdue.1 hr).1, if_pos (List.mem_map_of_mem hlisted)⟩
        · exact dueAt_le_of_listed hlisted (hperm.mem_iff.1 (hrest.subset hr'))
      · exact hrest.longest r (hperm.mem_iff.2 hleft)

end

namespace Sample

end Sample

end TolPlatform.Rfqs
