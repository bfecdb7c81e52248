import TolPlatform.Economics.Outline
import TolPlatform.Economics.Reconciliation

/-!
# Payments

What is owed on a chain is a sum over its rows, so a write moves it by what its own rows add
(`owedOn_append`). A payment batch takes its total off every chain (`PaymentWritten.owedOn_eq`). Every
entry was checked against the balance, but on its own: the entries that name one accrual repeatedly
are not checked together. Under the deal room's lock nothing else can go wrong, so right after a
commit every accrual of the batch is paid within its net amount exactly when the repeated entries fit
(`recordPayment_withinNet_iff`).
-/

namespace TolPlatform

open AccrualLedgerEntryLike

/-! ### What is owed on a chain -/

/-- The entries of one accrual's chain, as the service reads them. -/
def chainOf (db : Db) (accrualRootId : Uuid) : List AccrualLedgerEntryLike :=
  (CommissionAccrualRepository.listByAccrualRoot db accrualRootId).map CommissionAccrual.toLike

/-- What rows add to the amount owed on a chain. -/
def owedOn (rows : List CommissionAccrual) (accrualRootId : Uuid) : Int :=
  (rows.map fun r ↦ if r.accrualRootId = accrualRootId then r.toLike.owedMinor else 0).sum

theorem chainOf_perm (db : Db) (id : Uuid) : (chainOf db id).Perm (chainIn db.commissionAccruals id) :=
  (CommissionAccrualRepository.listByAccrualRoot_perm db id).map _

theorem owedOn_append (rows more : List CommissionAccrual) (id : Uuid) :
    owedOn (rows ++ more) id = owedOn rows id + owedOn more id := by
  rw [owedOn, List.map_append, List.sum_append]
  rfl

theorem sum_owedMinor_chainIn (rows : List CommissionAccrual) (id : Uuid) :
    ((chainIn rows id).map owedMinor).sum = owedOn rows id := by
  have hsplit := List.sum_map_ite (fun r : CommissionAccrual ↦ r.accrualRootId = id)
    (fun r ↦ r.toLike.owedMinor) (fun _ ↦ 0) rows
  have hzero : ((rows.filter fun r ↦ ¬ r.accrualRootId = id).map fun _ ↦ (0 : Int)).sum = 0 := by
    simp
  rw [hzero, add_zero] at hsplit
  rw [owedOn, hsplit, chainIn, List.map_map]
  rfl

theorem sum_owedMinor_chainOf (db : Db) (id : Uuid) :
    ((chainOf db id).map owedMinor).sum = owedOn db.commissionAccruals id := by
  rw [((chainOf_perm db id).map owedMinor).sum_eq, sum_owedMinor_chainIn]

section Ledger

variable {db : Db}

/-- **The chain of a ledger row has exactly one `ACCRUAL` row.** -/
theorem LedgerShape.rooted_chainIn (h : LedgerShape db) {row : CommissionAccrual}
    (hrow : row ∈ db.commissionAccruals) :
    Rooted (chainIn db.commissionAccruals row.accrualRootId) := by
  obtain ⟨root, hroot, htype, hid, -⟩ := h.row_root row hrow
  have hself : root.accrualRootId = row.accrualRootId := (h.accrual_self root hroot htype).trans hid
  have hlikes : (chainIn db.commissionAccruals row.accrualRootId).filter (·.entryType = .accrual) =
      ((db.commissionAccruals.filter (·.accrualRootId = row.accrualRootId)).filter
        (·.entryType = .accrual)).map CommissionAccrual.toLike := by
    rw [chainIn, List.filter_map]
    rfl
  have honly : ((db.commissionAccruals.filter (·.accrualRootId = row.accrualRootId)).filter
      (·.entryType = .accrual)) = [root] := by
    have hnodup := ((h.accruals_nodup.of_map _).filter
      fun r ↦ r.accrualRootId = row.accrualRootId).filter fun r ↦ r.entryType = .accrual
    refine List.perm_singleton.1 ((List.perm_ext_iff_of_nodup hnodup (List.nodup_singleton _)).2 ?_)
    intro r
    simp only [List.mem_filter, decide_eq_true_eq, List.mem_singleton]
    constructor
    · rintro ⟨⟨hr, hchain⟩, haccrual⟩
      refine h.row_unique hr hroot ?_
      rw [← h.accrual_self r hr haccrual, hchain, hid]
    · rintro rfl
      exact ⟨⟨hroot, hself⟩, htype⟩
  rw [Rooted, hlikes, honly]
  rfl

theorem LedgerShape.rooted_chainOf (h : LedgerShape db) {row : CommissionAccrual}
    (hrow : row ∈ db.commissionAccruals) : Rooted (chainOf db row.accrualRootId) :=
  (h.rooted_chainIn hrow).perm (chainOf_perm db _).symm

theorem LedgerShape.not_reversed (h : LedgerShape db) (id : Uuid) :
    hasEntry .reversal (chainIn db.commissionAccruals id) = false := by
  rw [hasEntry, List.any_eq_false]
  intro entry hentry
  obtain ⟨row, hrow, rfl⟩ := List.mem_map.1 hentry
  exact fun htype ↦ h.not_reversal row (List.mem_filter.1 hrow).1 (of_decide_eq_true htype)

/-- Nothing is reversed, so the outstanding balance is what is owed. -/
theorem LedgerShape.outstandingOf_chainIn (h : LedgerShape db) (id : Uuid) :
    outstandingOf (chainIn db.commissionAccruals id) = owedOn db.commissionAccruals id := by
  rw [outstandingOf, h.not_reversed, sum_owedMinor_chainIn]
  rfl

theorem LedgerShape.outstandingOf_chainOf (h : LedgerShape db) (id : Uuid) :
    outstandingOf (chainOf db id) = owedOn db.commissionAccruals id := by
  rw [outstandingOf_perm (chainOf_perm db id), h.outstandingOf_chainIn]

theorem LedgerShape.paidOf_nonneg (h : LedgerShape db) (id : Uuid) :
    0 ≤ paidOf (chainIn db.commissionAccruals id) := by
  refine List.sum_nonneg fun n hn ↦ ?_
  obtain ⟨entry, hentry, rfl⟩ := List.mem_map.1 hn
  obtain ⟨row, hrow, rfl⟩ := List.mem_map.1 hentry
  exact paidMinor_nonneg (h.amount_nonneg row (List.mem_filter.1 hrow).1)

end Ledger

/-! ### What a payment batch takes off a chain -/

/-- What a batch pays on one accrual, over all the entries that name it. -/
def batchTotal (payments : List PaymentEntry) (accrualRootId : Uuid) : Int :=
  (payments.map fun p ↦ if p.accrualRootId = accrualRootId then p.minorUnits else 0).sum

/-- The entries that name one accrual more than once fit its outstanding balance together. -/
def RepeatsFit (db : Db) (payments : List PaymentEntry) : Prop :=
  ∀ accrualRootId, 1 < (payments.map (·.accrualRootId)).count accrualRootId →
    batchTotal payments accrualRootId ≤ outstandingOf (chainOf db accrualRootId)

theorem batchTotal_eq_zero {payments : List PaymentEntry} {id : Uuid}
    (h : id ∉ payments.map (·.accrualRootId)) : batchTotal payments id = 0 := by
  refine List.sum_eq_zero fun n hn ↦ ?_
  obtain ⟨p, hp, rfl⟩ := List.mem_map.1 hn
  have hne : ¬ p.accrualRootId = id := fun heq ↦ h (heq ▸ List.mem_map_of_mem hp)
  exact if_neg hne

/-- An accrual named once is paid what its one entry asks for. -/
theorem batchTotal_of_count_le_one {payments : List PaymentEntry} {p : PaymentEntry}
    (hp : p ∈ payments) (h : (payments.map (·.accrualRootId)).count p.accrualRootId ≤ 1) :
    batchTotal payments p.accrualRootId = p.minorUnits := by
  induction payments with
  | nil => cases hp
  | cons q rest ih =>
    have hcons : batchTotal (q :: rest) p.accrualRootId =
        (if q.accrualRootId = p.accrualRootId then q.minorUnits else 0) +
          batchTotal rest p.accrualRootId := List.sum_cons
    rw [List.map_cons, List.count_cons] at h
    rcases List.mem_cons.1 hp with rfl | hrest
    · have hnone : (rest.map (·.accrualRootId)).count p.accrualRootId = 0 := by
        simp only [beq_self_eq_true, if_true] at h
        omega
      rw [hcons, if_pos rfl, batchTotal_eq_zero (List.count_eq_zero.1 hnone), add_zero]
    · have hsome : 0 < (rest.map (·.accrualRootId)).count p.accrualRootId :=
        List.count_pos_iff.2 (List.mem_map_of_mem hrest)
      have hne : ¬ q.accrualRootId = p.accrualRootId := fun heq ↦ by
        simp only [heq, beq_self_eq_true, if_true] at h
        omega
      rw [hcons, if_neg hne, zero_add, ih hrest (by omega)]

/-- **A committed batch takes its total off every chain.** -/
theorem PaymentWritten.owedOn_eq {e : Draws} {call : ServiceCall RecordPaymentRequest}
    {plan : PaymentPlan} {valid : ValidatedPayment} {db db' : Db} {rows : List CommissionAccrual}
    (h : PaymentWritten e call plan valid db db' rows)
    (hvalid : revalidatePayment db call = .ok valid) (id : Uuid) :
    owedOn db'.commissionAccruals id =
      owedOn db.commissionAccruals id - batchTotal call.input.payments id := by
  obtain ⟨paymentId, hrows⟩ := h.rows
  have hloaded := Except.mapM_eq_ok.1 (revalidatePayment_eq_ok hvalid)
  -- the rows against the loaded entries, and these against the request
  have hmade := (List.forall₂_map_left_iff.1 hrows.made).map_eq
    (f := fun l ↦ if l.accrualRootId = id then -l.amountMinor else 0)
    (g := fun r ↦ if r.accrualRootId = id then r.toLike.owedMinor else 0) fun l r hr ↦ by
      rw [hr]
      have howed : (CommissionAccrualRepository.toRow (paymentInput call plan valid.currency
          paymentId l) e.now r.id).toLike.owedMinor = 0 + 0 - l.amountMinor := rfl
      rw [howed, zero_add, zero_sub]
      rfl
  have hasked := hloaded.map_eq
    (f := fun p ↦ if p.accrualRootId = id then -p.minorUnits else 0)
    (g := fun l ↦ if l.accrualRootId = id then -l.amountMinor else 0) fun p l hl ↦ by
      obtain ⟨_, -, -, hid, hamount, -⟩ := loadAndValidatePayment_eq_ok hl
      rw [hid, hamount]
  have hneg : (call.input.payments.map
      fun p ↦ if p.accrualRootId = id then -p.minorUnits else 0).sum =
        -batchTotal call.input.payments id := by
    rw [batchTotal, List.sum_neg, List.map_map]
    refine congrArg List.sum (List.map_congr_left fun p _ ↦ ?_)
    simp only [Function.comp_apply, apply_ite Neg.neg, neg_zero]
  rw [hrows.accruals_eq, owedOn_append, owedOn, owedOn, ← hmade, ← hasked, hneg]
  rfl

/-- **A batch whose repeats fit takes no more off an accrual than is outstanding on it.** An accrual
that it names once was checked on its own. -/
theorem batchTotal_le_outstanding {call : ServiceCall RecordPaymentRequest}
    {valid : ValidatedPayment} {db : Db} (hvalid : revalidatePayment db call = .ok valid)
    (hfit : RepeatsFit db call.input.payments) {entry : PaymentEntry}
    (hentry : entry ∈ call.input.payments) :
    batchTotal call.input.payments entry.accrualRootId ≤
      outstandingOf (chainOf db entry.accrualRootId) := by
  rcases Nat.lt_or_ge 1 ((call.input.payments.map (·.accrualRootId)).count entry.accrualRootId)
    with hrepeated | honce
  · exact hfit _ hrepeated
  · obtain ⟨l, -, hl⟩ :=
      (Except.mapM_eq_ok.1 (revalidatePayment_eq_ok hvalid)).exists_right hentry
    obtain ⟨rest, hchain, -, -, hamount, -, -, hle⟩ := loadAndValidatePayment_eq_ok hl
    rw [batchTotal_of_count_le_one hentry honce, ← hamount, chainOf, hchain]
    exact hle

/-! ### Payments -/

/-- An accrual has been paid no more than its net amount. -/
def PaidWithinNet (db : Db) (accrualRootId : Uuid) : Prop :=
  ∃ balance, computeAccrualBalance (chainOf db accrualRootId) = .ok balance ∧
    balance.paidAmountMinor ≤ balance.netAmountMinor ∧ 0 ≤ balance.outstandingAmountMinor

theorem LedgerShape.paidWithinNet_iff {db : Db} (h : LedgerShape db) {row : CommissionAccrual}
    (hrow : row ∈ db.commissionAccruals) : PaidWithinNet db row.accrualRootId ↔
      0 ≤ owedOn db.commissionAccruals row.accrualRootId := by
  have hout := h.outstandingOf_chainOf row.accrualRootId
  constructor
  · rintro ⟨balance, hbalance, -, hnonneg⟩
    obtain ⟨-, rfl⟩ := computeAccrualBalance_eq_ok_iff.1 hbalance
    rw [← hout]
    exact hnonneg
  · intro hnonneg
    refine ⟨_, (h.rooted_chainOf hrow).computeAccrualBalance, ?_, ?_⟩
    · have howed := sum_owedMinor (chainOf db row.accrualRootId)
      rw [sum_owedMinor_chainOf] at howed
      show paidOf _ ≤ netOf _
      unfold paidOf netOf
      omega
    · show 0 ≤ outstandingOf _
      rw [hout]
      exact hnonneg

section Runs

variable {Pid : Type} [DecidableEq Pid] {P : Platform} {c c' : EconomicsConfig Pid} {p : Pid} {e : Env}

theorem paymentResponse_ne_ok {thrown : Thrown} {message : String} {r : Response} :
    (runUniqueConstraintSafe (.error thrown) message).map .payment ≠ .ok r := by
  unfold runUniqueConstraintSafe
  split <;> simp [Except.map]

/-- A `recordPayment` that answers has committed. -/
theorem paymentWritten_of_fire {call : ServiceCall RecordPaymentRequest} {plan : PaymentPlan}
    {valid : ValidatedPayment} {response : Response}
    (hfire : (economicsSystem P Pid).fire c p e = some c')
    (hp : c.locals p = .paymentValidated call plan valid)
    (hp' : c'.locals p = .finished (.ok response)) :
    ∃ rows, PaymentWritten e.toDraws call plan valid c.shared.db c'.shared.db rows := by
  have hadvance := advance_of_fire hfire (by simp [hp'])
  rw [hp, hp'] at hadvance
  obtain ⟨⟨payment, rows⟩, hbody, -⟩ := close_eq_ok paymentResponse_ne_ok (Option.some.inj hadvance)
  exact ⟨rows, commitPayment_eq_ok hbody⟩

/-- **When a payment overpays.** Right after it commits, every accrual of the batch is paid within
its net amount exactly when the entries that name one accrual repeatedly fit together. -/
theorem recordPayment_withinNet_iff {call : ServiceCall RecordPaymentRequest} {plan : PaymentPlan}
    {valid : ValidatedPayment} {response : Response} (h : EconomicsReachable P c)
    (hfire : (economicsSystem P Pid).fire c p e = some c')
    (hp : c.locals p = .paymentValidated call plan valid)
    (hp' : c'.locals p = .finished (.ok response)) :
    (∀ entry ∈ call.input.payments, PaidWithinNet c'.shared.db entry.accrualRootId) ↔
      RepeatsFit c.shared.db call.input.payments := by
  obtain ⟨hc, hlocals⟩ := outline_of_reachable h
  have hc' := (outline_of_reachable (h.fire hfire)).1
  have hvalid : revalidatePayment c.shared.db call = .ok valid := by
    have hknows := (hlocals p).knows
    rw [hp] at hknows
    exact hknows
  obtain ⟨rows, hwritten⟩ := paymentWritten_of_fire hfire hp hp'
  have hloaded := Except.mapM_eq_ok.1 (revalidatePayment_eq_ok hvalid)
  have hrow : ∀ entry ∈ call.input.payments, ∃ row ∈ c'.shared.db.commissionAccruals,
      row.accrualRootId = entry.accrualRootId := by
    intro entry hentry
    obtain ⟨l, -, hl⟩ := hloaded.exists_right hentry
    obtain ⟨rest, hchain, -⟩ := loadAndValidatePayment_eq_ok hl
    have hroot := CommissionAccrualRepository.mem_listByAccrualRoot.1 (hchain ▸ List.mem_cons_self)
    obtain ⟨paymentId, happended⟩ := hwritten.rows
    exact ⟨l.root, happended.accruals_eq ▸ List.mem_append_left _ hroot.1, hroot.2⟩
  have howed : ∀ entry ∈ call.input.payments, PaidWithinNet c'.shared.db entry.accrualRootId ↔
      batchTotal call.input.payments entry.accrualRootId ≤
        outstandingOf (chainOf c.shared.db entry.accrualRootId) := by
    intro entry hentry
    obtain ⟨row, hmem, hid⟩ := hrow entry hentry
    have hafter := hwritten.owedOn_eq hvalid entry.accrualRootId
    rw [← hid, hc'.paidWithinNet_iff hmem, hid, hafter, hc.outstandingOf_chainOf]
    omega
  constructor
  · intro hwithin id hrepeated
    obtain ⟨entry, hentry, rfl⟩ := List.mem_map.1 (List.count_pos_iff.1 (Nat.zero_lt_of_lt hrepeated))
    exact (howed entry hentry).1 (hwithin entry hentry)
  · intro hfit entry hentry
    exact (howed entry hentry).2 (batchTotal_le_outstanding hvalid hfit hentry)

end Runs

namespace Sample

/-- Pay the accrual of 100 in two entries of one batch. -/
def payTwice (first second : String) : ServiceCall RecordPaymentRequest :=
  call { payments := [⟨accrualId, first⟩, ⟨accrualId, second⟩], reference := "PAY-2026-01" }

/-- Party 0 records the event, the others pay. -/
def paymentCalls (pay : ServiceCall RecordPaymentRequest) : ℕ → Call
  | 0 => recordEvent
  | _ => .recordPayment pay

def paymentDraws : Env :=
  draws ["3f0b7c1e-58f2-4d0e-9a64-1c2d5e7f9a12", "3f0b7c1e-58f2-4d0e-9a64-1c2d5e7f9a13",
    "3f0b7c1e-58f2-4d0e-9a64-1c2d5e7f9a14"]

/-- Up to the commit of party 1's payment, which `f` is told about. -/
def atPayment (pay : ServiceCall RecordPaymentRequest) (f : Db → Db → Bool) : Bool :=
  ((economicsSystem platform ℕ).run (start (paymentCalls pay))
    (recordEventSteps ++ List.replicate 3 (1, paymentDraws))).any fun c ↦
      ((economicsSystem platform ℕ).fire c 1 paymentDraws).any fun c' ↦
        match c.locals 1, c'.locals 1 with
        | .paymentValidated call _ _, .finished (.ok _) => call = pay && f c.shared.db c'.shared.db
        | _, _ => false

/-- A payment of the sample deal room that commits. -/
def CommitsPayment (pay : ServiceCall RecordPaymentRequest) (c c' : EconomicsConfig ℕ) : Prop :=
  EconomicsReachable platform c ∧ ∃ p e plan valid response,
    (economicsSystem platform ℕ).fire c p e = some c' ∧
      c.locals p = .paymentValidated pay plan valid ∧ c'.locals p = .finished (.ok response)

theorem exists_commit_of_atPayment {pay : ServiceCall RecordPaymentRequest} {f : Db → Db → Bool}
    (h : atPayment pay f = true) :
    ∃ c c', CommitsPayment pay c c' ∧ f c.shared.db c'.shared.db = true := by
  obtain ⟨c, hrun, h⟩ := (Option.any_eq_true _ _).1 h
  obtain ⟨c', hfire, h⟩ := (Option.any_eq_true _ _).1 h
  split at h
  · next call plan valid response hp hp' =>
    rw [Bool.and_eq_true, decide_eq_true_eq] at h
    obtain ⟨rfl, hf⟩ := h
    exact ⟨c, c', ⟨reachable_of_run hrun, 1, _, plan, valid, response, hfire, hp, hp'⟩, hf⟩
  · cases h

end Sample

/-- Two entries of 60 and 40 fit an accrual of 100 together, and leave it paid within its net. -/
theorem recordPayment_withinNet_of_fit : ∃ c c', Sample.CommitsPayment (Sample.payTwice "60" "40") c c' ∧
    PaidWithinNet c'.shared.db Sample.accrualId := by
  have hcommit : Sample.atPayment (Sample.payTwice "60" "40") (fun db _ ↦
      decide (outstandingOf (chainOf db Sample.accrualId) = 100)) = true := by
    decide +kernel
  obtain ⟨c, c', hcommits, hout⟩ := Sample.exists_commit_of_atPayment hcommit
  have hout := of_decide_eq_true hout
  refine ⟨c, c', hcommits, ?_⟩
  obtain ⟨hreach, p, e, plan, valid, response, hfire, hp, hp'⟩ := hcommits
  refine (recordPayment_withinNet_iff hreach hfire hp hp').2 (fun id hrepeated ↦ ?_) ⟨_, "60"⟩
    List.mem_cons_self
  have hid : id = Sample.accrualId := by
    have hmem := List.count_pos_iff.1 (Nat.zero_lt_of_lt hrepeated)
    simpa [Sample.payTwice, Sample.call] using hmem
  rw [hid, hout]
  decide

/-- Two entries of 60 each are checked against the same 100, and together overpay it. -/
theorem recordPayment_overpays : ∃ c c', Sample.CommitsPayment (Sample.payTwice "60" "60") c c' ∧
    ¬ PaidWithinNet c'.shared.db Sample.accrualId := by
  have hcommit : Sample.atPayment (Sample.payTwice "60" "60") (fun _ db' ↦
      decide (outstandingOf (chainOf db' Sample.accrualId) = -20)) = true := by
    decide +kernel
  obtain ⟨c, c', hcommits, hout⟩ := Sample.exists_commit_of_atPayment hcommit
  refine ⟨c, c', hcommits, fun ⟨balance, hbalance, _, hnonneg⟩ ↦ ?_⟩
  obtain ⟨-, rfl⟩ := computeAccrualBalance_eq_ok_iff.1 hbalance
  change 0 ≤ outstandingOf _ at hnonneg
  rw [of_decide_eq_true hout] at hnonneg
  omega

end TolPlatform
