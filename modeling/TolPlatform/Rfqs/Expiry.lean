import TolPlatform.Db.Ids
import TolPlatform.Library.Delimited
import TolPlatform.Rfqs.AuditTrail

/-!
# The expiry sweep

The job of `apps/worker/src/jobs/rfq-expiry.job.ts` counts an RFQ as expired once `withJobIdempotency` has
returned, and that returns without an effect when there is a record under the key of the RFQ and its due
date. There never is one for an RFQ that could still expire: a record is written with the expiry, an RFQ
that is past expiring stays so, and a key says which RFQ it is about, since ids have no colon. So a sweep
does what it reports, whatever interleaves with it: when it has finished, every RFQ that it has listed is
past expiring, and as many were expired by its own commits as it says (`swept_of_run`).
-/

namespace TolPlatform.Rfqs

/-! ### RFQs that are past expiring -/

/-- The RFQ is there, in a status that does not expire. -/
def PastExpiry (db : Db) (rfqId : Uuid) : Prop :=
  ∃ r ∈ db.rfqs, r.id = rfqId ∧ r.status ∉ RfqRepository.expirableStatuses

/-- What an RFQ keeps. -/
structure StaysPast (a b : RFQ) : Prop where
  id : b.id = a.id
  past : a.status ∉ RfqRepository.expirableStatuses → b.status ∉ RfqRepository.expirableStatuses

section

variable {db db' : Db} {l : Local}

theorem StaysPast.refl (r : RFQ) : StaysPast r r := ⟨rfl, fun h ↦ h⟩

theorem expirable_of_edge {status : RfqStatus} (h : .quoted ∈ rfqTransitions status) :
    status ∈ RfqRepository.expirableStatuses := by
  cases status <;> revert h <;> decide

/-- **An RFQ that is past expiring stays so.** -/
theorem WroteRfq.staysPast (hc : Consistent db) (hl : Knows db l) (h : WroteRfq db db' l) :
    Rows.Evolves StaysPast db.rfqs db'.rfqs := by
  have hset {id : Uuid} {status : RfqStatus} (hpast : status ∉ RfqRepository.expirableStatuses)
      (hrfqs : db'.rfqs = Rows.rewrite RFQ.id id (RfqRepository.setStatus status) db.rfqs) :
      Rows.Evolves StaysPast db.rfqs db'.rfqs :=
    hrfqs ▸ Rows.Evolves.rewrite StaysPast.refl fun _ _ _ ↦ ⟨rfl, fun _ ↦ hpast⟩
  cases h with
  | created h => exact h.rfqs_eq ▸ Rows.Evolves.append StaysPast.refl _ _
  | declined h | withdrew h => exact evolves_of_eq StaysPast.refl h.rfqs_eq
  | selected h => exact hset (by decide) h.rfqs_eq
  | expiring h =>
    rcases h.rfqs_eq with hrfqs | ⟨-, hrfqs⟩
    · exact evolves_of_eq StaysPast.refl hrfqs
    · exact hset (by decide) hrfqs
  | submitted h =>
    have hrfqs := h.rfqs_eq
    split at hrfqs
    · exact evolves_of_eq StaysPast.refl hrfqs
    · next hstatus =>
      refine hrfqs ▸ Rows.Evolves.rewrite StaysPast.refl fun r hr hid ↦ ⟨rfl, fun hpast ↦ ?_⟩
      -- the status that was read under the lock is the one that is there
      rw [hl.2.status_eq hc hr hid] at hpast
      exact absurd (expirable_of_edge (h.edge hstatus)) hpast

theorem PastExpiry.later {rfqId : Uuid} (h : PastExpiry db rfqId)
    (hevolves : Rows.Evolves StaysPast db.rfqs db'.rfqs) : PastExpiry db' rfqId := by
  obtain ⟨r, hr, rfl, hpast⟩ := h
  obtain ⟨r', hr', hstays⟩ := hevolves r hr
  exact ⟨r', hr', hstays.id, hstays.past hpast⟩

theorem PastExpiry.not_expirable (hc : Consistent db) {rfqId : Uuid} {status : RfqStatus}
    (h : PastExpiry db rfqId) (hstatus : StatusIs db rfqId status) :
    status ∉ RfqRepository.expirableStatuses := by
  obtain ⟨r, hr, hid, hpast⟩ := h
  rwa [← hstatus.status_eq hc hr hid]

/-- After a job has expired it. -/
theorem pastExpiry_of_rewrite {rfqId : Uuid} (hid : rfqId ∈ db.rfqs.map (·.id))
    (h : db'.rfqs = Rows.rewrite RFQ.id rfqId (RfqRepository.setStatus .expired) db.rfqs) :
    PastExpiry db' rfqId := by
  obtain ⟨r, hr, rfl⟩ := List.mem_map.1 hid
  have hexpired : .expired ∉ RfqRepository.expirableStatuses := by decide
  refine ⟨RfqRepository.setStatus .expired r, ?_, rfl, hexpired⟩
  rw [h]
  exact Rows.mem_rewrite_iff.2 ⟨r, hr, if_pos rfl⟩

end

/-! ### What is on record -/

/-- The ids of RFQs have no colon in them. -/
def PlainIds (db : Db) : Prop := ∀ r ∈ db.rfqs, ':' ∉ r.id.toList

/-- What the job has on record is about RFQs that are past expiring. -/
def RecordsPast (db : Db) : Prop :=
  ∀ k ∈ db.idempotencyKeys, k.scope = "worker.rfq-expiry" →
    ∃ rfqId dueAt : String, k.key = s!"{rfqId}:{dueAt}" ∧ PastExpiry db rfqId

section

variable {env : Env} {db db' : Db} {l l' : Local} {d : Draws}

/-- An id ends at the first colon. -/
theorem rfqId_eq_of_key {a b t u : String} (ha : ':' ∉ a.toList) (hb : ':' ∉ b.toList)
    (h : s!"{a}:{t}" = s!"{b}:{u}") : a = b := by
  have htext (a t : String) : (s!"{a}:{t}").toList = a.toList ++ ':' :: t.toList := by
    show (a ++ ":" ++ t).toList = _
    rw [String.toList_append, String.toList_append, List.append_assoc]
    rfl
  have hchars : a.toList ++ ':' :: t.toList = b.toList ++ ':' :: u.toList := by
    rw [← htext, ← htext, h]
  have hnot {s : String} (hs : ':' ∉ s.toList) : ∀ c ∈ s.toList, c ∉ ({':'} : Set Char) := by
    rintro c hc rfl
    exact hs hc
  have hstops {s : List Char} : List.Stops {':'} (':' :: s) := List.stops_cons.2 rfl
  exact String.toList_inj.1 (List.eq_and_eq_of_notMem (hnot ha) (hnot hb) hstops hstops hchars).1

/-- **There is no record for an RFQ that can still expire.** -/
theorem RecordsPast.find_eq_none (hc : Consistent db) (hplain : PlainIds db) (h : RecordsPast db)
    {run : ExpiryRun} {fromStatus : RfqStatus}
    (hexpirable : fromStatus ∈ RfqRepository.expirableStatuses)
    (hstatus : StatusIs db run.rfqId fromStatus) :
    IdempotencyRepository.find idempotencyKeys db (expiryInfo env run fromStatus).scope
      (expiryInfo env run fromStatus).key = none := by
  rcases hfind : IdempotencyRepository.find idempotencyKeys db (expiryInfo env run fromStatus).scope
    (expiryInfo env run fromStatus).key with - | k
  · rfl
  obtain ⟨hmem, hscope, hkey⟩ := IdempotencyRepository.find_eq_some hfind
  obtain ⟨rfqId, dueAt, hkey', hpast⟩ := h k hmem hscope
  have hrunPlain : ':' ∉ run.rfqId.toList := by
    obtain ⟨r, hr, hid, -⟩ := hstatus
    exact hid ▸ hplain r hr
  have hrecordPlain : ':' ∉ rfqId.toList := by
    obtain ⟨r, hr, hid, -⟩ := hpast
    exact hid ▸ hplain r hr
  obtain rfl : rfqId = run.rfqId := rfqId_eq_of_key hrecordPlain hrunPlain (hkey'.symm.trans hkey)
  exact absurd hexpirable (hpast.not_expirable hc hstatus)

/-! ### Only the job writes records -/

theorem createTx_keeps (call : CreateCall) : Tx.Keeps Db.idempotencyKeys (createTx env d call) := by
  refine (Table.keeps_insert (fun _ _ ↦ rfl) _ _).bind fun rfq ↦ ?_
  refine (Tx.keeps_check _).bind fun _ ↦ (Table.keeps_insert (fun _ _ ↦ rfl) _ _).bind fun _ ↦ ?_
  refine (Table.keeps_insertEach (createRecipient_keeps (fun _ _ ↦ rfl) _) _ _).bind fun _ ↦ ?_
  refine (cascade_keeps (fun _ _ _ ↦ rfl) _ _ _).bind fun _ ↦ ?_
  exact (record_keeps (fun _ _ ↦ rfl) _).bind fun _ ↦ Tx.keeps_pure _

theorem declineTx_keeps (call : DeclineCall) : Tx.Keeps Db.idempotencyKeys (declineTx call) := by
  refine (Table.keeps_update (fun _ _ ↦ rfl) _ _ _).bind fun _ ↦ ?_
  exact (record_keeps (fun _ _ ↦ rfl) _).bind fun _ ↦ Tx.keeps_pure _

theorem submitQuoteTx_keeps (call : SubmitCall) (freshStatus : RfqStatus) (quoteVersion : ℕ) :
    Tx.Keeps Db.idempotencyKeys (submitQuoteTx env d call freshStatus quoteVersion) := by
  have hrecipient : Tx.Keeps Db.idempotencyKeys (markRecipientQuoted call.recipient) :=
    Tx.Keeps.ite ((Table.keeps_update (fun _ _ ↦ rfl) _ _ _).bind fun _ ↦ Tx.keeps_pure _)
      (Tx.keeps_pure _)
  have hrfq : Tx.Keeps Db.idempotencyKeys (markRfqQuoted call.rfq.id freshStatus) :=
    Tx.Keeps.ite ((Tx.keeps_check _).bind fun _ ↦
      (Table.keeps_update (fun _ _ ↦ rfl) _ _ _).bind fun _ ↦ Tx.keeps_pure _) (Tx.keeps_pure _)
  refine (createQuote_keeps (fun _ _ ↦ rfl) _ _).bind fun _ ↦ hrecipient.bind fun _ ↦ ?_
  refine hrfq.bind fun _ ↦ (cascade_keeps (fun _ _ _ ↦ rfl) _ _ _).bind fun _ ↦ ?_
  exact (record_keeps (fun _ _ ↦ rfl) _).bind fun _ ↦ Tx.keeps_pure _

theorem withdrawQuoteTx_keeps (call : WithdrawCall) :
    Tx.Keeps Db.idempotencyKeys (withdrawQuoteTx call) := by
  refine (Table.keeps_update (fun _ _ ↦ rfl) _ _ _).bind fun _ ↦ ?_
  exact (record_keeps (fun _ _ ↦ rfl) _).bind fun _ ↦ Tx.keeps_pure _

theorem selectQuoteTx_keeps (call : SelectCall) (considered : List Uuid) :
    Tx.Keeps Db.idempotencyKeys (selectQuoteTx d call considered) := by
  have hroom (row : DealRoom) : Tx.Keeps Db.idempotencyKeys (DealRoomRepository.create row) :=
    Tx.keeps_get.bind fun _ ↦ (Tx.keeps_check _).bind fun _ ↦
      Table.keeps_insert (fun _ _ ↦ rfl) _ _
  have hparticipant (row : DealRoomParticipant) :
      Tx.Keeps Db.idempotencyKeys (DealRoomParticipantRepository.create row) :=
    Tx.keeps_get.bind fun _ ↦ (Tx.keeps_check _).bind fun _ ↦
      Table.keeps_insert (fun _ _ ↦ rfl) _ _
  refine (Table.keeps_update (fun _ _ ↦ rfl) _ _ _).bind fun _ ↦ ?_
  refine (Table.keeps_update (fun _ _ ↦ rfl) _ _ _).bind fun _ ↦ ?_
  refine (updateOpportunity_keeps (fun _ _ _ ↦ rfl) _ _).bind fun _ ↦ (hroom _).bind fun _ ↦ ?_
  refine (hparticipant _).bind fun _ ↦ (hparticipant _).bind fun _ ↦ ?_
  refine (Table.keeps_insert (fun _ _ ↦ rfl) _ _).bind fun _ ↦ ?_
  exact (record_keeps (fun _ _ ↦ rfl) _).bind fun _ ↦ Tx.keeps_pure _

/-! ### The commit of an expiry -/

/-- The record of an expiry. -/
def expiryRecord (env : Env) (d : Draws) (run : ExpiryRun) (fromStatus : RfqStatus) :
    IdempotencyKey Expired :=
  Jobs.recordOf d.now (d.ids 0) (expiryInfo env run fromStatus)
    (env.sha256 (expiryInfo env run fromStatus).requestPayload) {}

/-- The RFQ is expired, audited and on record. -/
structure ExpiredBy (env : Env) (d : Draws) (run : ExpiryRun) (fromStatus : RfqStatus) (db db' : Db) :
    Prop where
  rfqs_eq : db'.rfqs = Rows.rewrite RFQ.id run.rfqId (RfqRepository.setStatus .expired) db.rfqs
  keys_eq : db'.idempotencyKeys = db.idempotencyKeys ++ [expiryRecord env d run fromStatus]

/-- An RFQ that can expire is expired. -/
theorem exists_expireOne_eq_ok (hc : Consistent db) (hplain : PlainIds db) (hrecords : RecordsPast db)
    {run : ExpiryRun} {fromStatus : RfqStatus}
    (hexpirable : fromStatus ∈ RfqRepository.expirableStatuses)
    (hstatus : StatusIs db run.rfqId fromStatus) (hfresh : d.ids 0 ∉ db.idempotencyKeys.map (·.id)) :
    ∃ db', expireOne env d run (some fromStatus) db = .ok (true, db') ∧
      ExpiredBy env d run fromStatus db db' := by
  have hid : run.rfqId ∈ rfqs.keys db := by
    obtain ⟨r, hr, hid, -⟩ := hstatus
    exact List.mem_map.2 ⟨r, hr, hid⟩
  have hedge : assertValidRfqTransition fromStatus .expired = .ok () :=
    throwIf_eq_ok_iff.2 (not_not.2 (expired_edge hexpirable))
  obtain ⟨db₁, hhandler, hrfqs, hkeys⟩ : ∃ db₁, expire env run fromStatus db = .ok ({}, db₁) ∧
      db₁.rfqs = Rows.rewrite RFQ.id run.rfqId (RfqRepository.setStatus .expired) db.rfqs ∧
        db₁.idempotencyKeys = db.idempotencyKeys := by
    obtain ⟨row, hrow⟩ : ∃ row, rfqs.update Thrown.recordNotFound run.rfqId
        (RfqRepository.setStatus .expired) db = .ok (row, _) :=
      Table.exists_update_eq_ok (RfqRepository.setStatus .expired) hid
    exact ⟨_, Tx.check_bind_eq_ok.2 ⟨(), hedge, Tx.bind_eq_ok.2 ⟨row, _, hrow, rfl⟩⟩, rfl, rfl⟩
  have hrecordable : Jobs.Recordable idempotencyKeys db (d.ids 0) (expiryInfo env run fromStatus) :=
    ⟨hrecords.find_eq_none hc hplain hexpirable hstatus, hfresh⟩
  have hran : Jobs.inTransaction (Jobs.withJobIdempotency idempotencyKeys env.sha256 d.now (d.ids 0)
      (expiryInfo env run fromStatus) (expire env run fromStatus)) db = .ok (some {}, _) :=
    Jobs.inTransaction_of_recordable rfl hhandler hkeys hrecordable
  exact ⟨_, Tx.bind_eq_ok.2 ⟨_, _, hran, rfl⟩, hrfqs, congrArg (· ++ _) hkeys⟩

/-- What a commit does to the records. -/
theorem expiry_of_commit (hc : Consistent db) (hl : Knows db l) (hplain : PlainIds db)
    (hrecords : RecordsPast db) (hfresh : d.ids 0 ∉ db.idempotencyKeys.map (·.id))
    {body : Tx Db Thrown Local} (hnext : (calls env).next d l = .commit body)
    (hbody : body db = .ok (l', db')) :
    db'.idempotencyKeys = db.idempotencyKeys ∧ (∀ run fromStatus, l = .expiryFresh run fromStatus →
        fromStatus = none ∧ db' = db ∧ l' = afterOne run false) ∨
      ∃ run fromStatus, l = .expiryFresh run (some fromStatus) ∧ l' = afterOne run true ∧
        ExpiredBy env d run fromStatus db db' := by
  cases l with
  | createReady call =>
    obtain rfl := NextStep.commit.inj hnext
    obtain ⟨detail, hdetail, -⟩ := Tx.map_eq_ok.1 hbody
    exact Or.inl ⟨createTx_keeps call hdetail, nofun⟩
  | declineLocked call =>
    obtain rfl := NextStep.commit.inj hnext
    obtain ⟨row, hrow, -⟩ := Tx.map_eq_ok.1 hbody
    exact Or.inl ⟨declineTx_keeps call hrow, nofun⟩
  | submitNumbered call freshStatus quoteVersion =>
    obtain rfl := NextStep.commit.inj hnext
    obtain ⟨quote, hquote, -⟩ := Tx.map_eq_ok.1 hbody
    exact Or.inl ⟨submitQuoteTx_keeps call freshStatus quoteVersion (conflictOnDuplicate_eq_ok hquote),
      nofun⟩
  | withdrawFresh call =>
    obtain rfl := NextStep.commit.inj hnext
    obtain ⟨quote, hquote, -⟩ := Tx.map_eq_ok.1 hbody
    exact Or.inl ⟨withdrawQuoteTx_keeps call hquote, nofun⟩
  | selectFresh call considered =>
    obtain rfl := NextStep.commit.inj hnext
    obtain ⟨room, hroom, -⟩ := Tx.map_eq_ok.1 hbody
    exact Or.inl ⟨selectQuoteTx_keeps call considered (conflictOnDuplicate_eq_ok hroom), nofun⟩
  | expiryFresh run fromStatus =>
    obtain rfl := NextStep.commit.inj hnext
    obtain ⟨expired, hexpired, rfl⟩ := Tx.map_eq_ok.1 hbody
    cases fromStatus with
    | none =>
      obtain ⟨rfl, rfl⟩ := Prod.mk.inj (Tx.pure_eq_ok.1 hexpired)
      refine Or.inl ⟨rfl, fun run' fromStatus' heq ↦ ?_⟩
      obtain ⟨rfl, rfl⟩ := Local.expiryFresh.inj heq
      exact ⟨rfl, rfl, rfl⟩
    | some fromStatus =>
      obtain ⟨hexpirable, hstatus⟩ := hl fromStatus rfl
      obtain ⟨db₁, hok, hby⟩ := exists_expireOne_eq_ok hc hplain hrecords hexpirable hstatus hfresh
      obtain ⟨rfl, rfl⟩ := Prod.mk.inj (Except.ok.inj (hok.symm.trans hexpired))
      exact Or.inr ⟨run, fromStatus, rfl, rfl, hby⟩
  | _ => cases hnext

/-- Whose id an RFQ has. -/
theorem rfqIds_of_commit {body : Tx Db Thrown Local} (hnext : (calls env).next d l = .commit body)
    (hbody : body db = .ok (l', db')) {r : RFQ} (hr : r ∈ db'.rfqs) :
    (∃ r₀ ∈ db.rfqs, r.id = r₀.id) ∨ r.id = d.ids 0 := by
  have hrewritten {id : Uuid} {status : RfqStatus}
      (h : db'.rfqs = Rows.rewrite RFQ.id id (RfqRepository.setStatus status) db.rfqs) :
      ∃ r₀ ∈ db.rfqs, r.id = r₀.id := by
    rw [h] at hr
    obtain ⟨r₀, hr₀, rfl⟩ := Rows.mem_rewrite_iff.1 hr
    exact ⟨r₀, hr₀, by split <;> rfl⟩
  have hwrote := (wrote_of_commit hnext hbody).rfq
  cases hwrote with
  | created h =>
    obtain rfl := NextStep.commit.inj hnext
    obtain ⟨detail, hdetail, -⟩ := Tx.map_eq_ok.1 hbody
    obtain ⟨hrfqs, -, -, hid⟩ := createTx_rfqs hdetail
    rw [hrfqs] at hr
    rcases List.mem_append.1 hr with hr | hr
    · exact Or.inl ⟨r, hr, rfl⟩
    · rw [List.mem_singleton.1 hr]
      exact Or.inr hid
  | declined h | withdrew h => exact Or.inl ⟨r, h.rfqs_eq ▸ hr, rfl⟩
  | submitted h =>
    have hrfqs := h.rfqs_eq
    split at hrfqs
    · exact Or.inl ⟨r, hrfqs ▸ hr, rfl⟩
    · exact Or.inl (hrewritten hrfqs)
  | selected h => exact Or.inl (hrewritten h.rfqs_eq)
  | expiring h =>
    rcases h.rfqs_eq with hrfqs | ⟨-, hrfqs⟩
    · exact Or.inl ⟨r, hrfqs ▸ hr, rfl⟩
    · exact Or.inl (hrewritten hrfqs)

/-- **A commit keeps the records to RFQs that are past expiring.** -/
theorem recordsPast_of_commit (hc : Consistent db) (hl : Knows db l) (hplain : PlainIds db)
    (hrecords : RecordsPast db) (hfresh : d.ids 0 ∉ db.idempotencyKeys.map (·.id))
    {body : Tx Db Thrown Local} (hnext : (calls env).next d l = .commit body)
    (hbody : body db = .ok (l', db')) : RecordsPast db' := by
  have hevolves := (wrote_of_commit hnext hbody).rfq.staysPast hc hl
  have hold : ∀ k ∈ db.idempotencyKeys, k.scope = "worker.rfq-expiry" →
      ∃ rfqId dueAt : String, k.key = s!"{rfqId}:{dueAt}" ∧ PastExpiry db' rfqId := by
    intro k hk hscope
    obtain ⟨rfqId, dueAt, hkey, hpast⟩ := hrecords k hk hscope
    exact ⟨rfqId, dueAt, hkey, hpast.later hevolves⟩
  rcases expiry_of_commit hc hl hplain hrecords hfresh hnext hbody with
    ⟨hkeys, -⟩ | ⟨run, fromStatus, rfl, -, hby⟩
  · intro k hk
    exact hold k (hkeys ▸ hk)
  · intro k hk hscope
    rw [hby.keys_eq] at hk
    rcases List.mem_append.1 hk with hk | hk
    · exact hold k hk hscope
    · rw [List.mem_singleton.1 hk]
      obtain ⟨-, r, hr, hid, -⟩ := hl fromStatus rfl
      exact ⟨run.rfqId, _, rfl, pastExpiry_of_rewrite (List.mem_map.2 ⟨r, hr, hid⟩) hby.rfqs_eq⟩

end

/-! ### A job at work -/

/-- The RFQs that a job has yet to deal with, and its result so far. -/
def pending : Local → Option (List Uuid × RfqExpiryJobResult)
  | .expiring run | .expiryLocked run | .expiryFresh run _ =>
    some (run.rfqId :: run.rest.map (·.1), run.result)
  | .finished result => some ([], result)
  | _ => none

/-- What a job may rely on. -/
structure Sweeping (db : Db) (l : Local) (ids : List Uuid) (result : RfqExpiryJobResult) : Prop where
  pending_eq : pending l = some (ids, result)
  listed : ∀ id ∈ ids, id ∈ db.rfqs.map (·.id)
  looked : ∀ run, l = .expiryFresh run none → PastExpiry db run.rfqId

/-- How far a job has got: what it has dealt with is past expiring, and the events are those of the RFQs
that it counts as expired. -/
def Swept (db : Db) (l : Local) (ids : List Uuid) (result : RfqExpiryJobResult)
    (events : List AuditEntry) : Prop :=
  ∃ done expired rest : List Uuid, ids = done ++ rest ∧ (∀ id ∈ done, PastExpiry db id) ∧
    expired.Sublist done ∧ events = expired.map (.byWorker "rfq.expired" "rfq") ∧
      Sweeping db l rest { result with expired := result.expired + expired.length }

/-- A job that will not go on. -/
def Ended (l : Local) : Prop := (∃ e, l = .threw e) ∨ l = .crashed

section

variable {db db' : Db} {l l' : Local} {ids : List Uuid} {result : RfqExpiryJobResult}

theorem pending_proceed (result : RfqExpiryJobResult) (rest : List (Uuid × Instant)) :
    pending (proceed result rest) = some (rest.map (·.1), result) := by
  cases rest with
  | nil => rfl
  | cons next rest => rfl

theorem proceed_ne_fresh {rest : List (Uuid × Instant)} {run : ExpiryRun}
    {fromStatus : Option RfqStatus} : proceed result rest ≠ .expiryFresh run fromStatus := by
  cases rest with
  | nil => nofun
  | cons next rest => nofun

theorem ids_stay (h : Rows.Evolves StaysPast db.rfqs db'.rfqs) {id : Uuid}
    (hid : id ∈ db.rfqs.map (·.id)) : id ∈ db'.rfqs.map (·.id) := by
  obtain ⟨r, hr, rfl⟩ := List.mem_map.1 hid
  obtain ⟨r', hr', hstays⟩ := h r hr
  exact List.mem_map.2 ⟨r', hr', hstays.id⟩

theorem Sweeping.later (h : Sweeping db l ids result) (hevolves : Rows.Evolves StaysPast db.rfqs db'.rfqs) :
    Sweeping db' l ids result :=
  ⟨h.pending_eq, fun id hid ↦ ids_stay hevolves (h.listed id hid),
    fun run hrun ↦ (h.looked run hrun).later hevolves⟩

theorem Sweeping.swept (h : Sweeping db l ids result) : Swept db l ids result [] :=
  ⟨[], [], ids, rfl, nofun, .slnil, rfl, h⟩

/-- One thing after another. -/
theorem Swept.trans {events events' : List AuditEntry} (h : Swept db l ids result events)
    (hevolves : Rows.Evolves StaysPast db.rfqs db'.rfqs)
    (h' : ∀ {ids result}, Sweeping db l ids result → Swept db' l' ids result events') :
    Swept db' l' ids result (events ++ events') := by
  obtain ⟨done, expired, rest, rfl, hpast, hsub, rfl, hsweeping⟩ := h
  obtain ⟨done', expired', rest', rfl, hpast', hsub', rfl, hsweeping'⟩ := h' hsweeping
  refine ⟨done ++ done', expired ++ expired', rest', (List.append_assoc _ _ _).symm, ?_,
    hsub.append hsub', List.map_append.symm, ?_⟩
  · exact List.forall_mem_append.2 ⟨fun id hid ↦ (hpast id hid).later hevolves, hpast'⟩
  · rw [List.length_append, ← Nat.add_assoc]
    exact hsweeping'

/-- A job that has looked at an RFQ. -/
theorem pastExpiry_of_expirableStatus (hc : Consistent db) {id : Uuid} (hid : id ∈ db.rfqs.map (·.id))
    (h : expirableStatus db id = none) : PastExpiry db id := by
  obtain ⟨r, hr, rfl⟩ := List.mem_map.1 hid
  have hfind : RfqRepository.findById db r.id = some r :=
    (List.find?_eq_some_iff_of_nodup hc.rfqIds).2 ⟨hr, rfl⟩
  rw [expirableStatus, hfind] at h
  refine ⟨r, hr, rfl, fun hexpirable ↦ ?_⟩
  rw [Option.map_some, Option.filter_some, if_pos (decide_eq_true hexpirable)] at h
  cases h

end

/-! ### Runs -/

section

variable {env : Env} {Pid : Type} [DecidableEq Pid] {c c' : Config Pid} {p q : Pid} {t : Tick Draws}
  {ids : List Uuid} {result : RfqExpiryJobResult}

/-- The first id that a step draws, which becomes that of an RFQ or of a record, is a UUID and not that of a
record already. -/
def DrawsNewIds (c : Config Pid) (_ : Pid) (t : Tick Draws) (_ : Config Pid) : Prop :=
  ∀ d, t = .act d → ':' ∉ (d.ids 0).toList ∧ d.ids 0 ∉ c.shared.db.idempotencyKeys.map (·.id)

omit [DecidableEq Pid] in
/-- Ids of `newId` have no colon. -/
theorem drawsNewIds_of_newId (h : ∀ d, t = .act d → (∃ unixTsMs rand, d.ids 0 = Ids.newId unixTsMs rand) ∧
    d.ids 0 ∉ c.shared.db.idempotencyKeys.map (·.id)) : DrawsNewIds c p t c' := by
  intro d hd
  obtain ⟨⟨unixTsMs, rand, hid⟩, hnew⟩ := h d hd
  exact ⟨hid ▸ Ids.colon_notMem_newId, hnew⟩

structure Sweepable (env : Env) (c : Config Pid) : Prop where
  sound : Sound env c
  plain : PlainIds c.shared.db
  records : RecordsPast c.shared.db

theorem Sweepable.evolves (h : Sweepable env c) (hfire : ((calls env).system Pid).fire c p t = some c') :
    Rows.Evolves StaysPast c.shared.db.rfqs c'.shared.db.rfqs := by
  rcases (CallSystem.transition_of_fire hfire).db_cases with hdb | ⟨d, body, -, hnext, hbody⟩
  · exact evolves_of_eq StaysPast.refl (congrArg Db.rfqs hdb)
  · exact (wrote_of_commit hnext hbody).rfq.staysPast h.sound.2.1 (h.sound.2.2 p)

theorem Sweepable.fire (h : Sweepable env c) (hfire : ((calls env).system Pid).fire c p t = some c')
    (hids : DrawsNewIds c p t c') : Sweepable env c' := by
  rcases (CallSystem.transition_of_fire hfire).db_cases with hdb | ⟨d, body, rfl, hnext, hbody⟩
  · exact ⟨h.sound.fire hfire, hdb ▸ h.plain, hdb ▸ h.records⟩
  · have hnew := hids d rfl
    refine ⟨h.sound.fire hfire, fun r hr ↦ ?_, recordsPast_of_commit h.sound.2.1 (h.sound.2.2 p)
      h.plain h.records hnew.2 hnext hbody⟩
    rcases rfqIds_of_commit hnext hbody hr with ⟨r₀, hr₀, hid⟩ | hid
    · exact hid ▸ h.plain r₀ hr₀
    · exact hid ▸ hnew.1

/-- What a party's own steps show. -/
def own (p : Pid) : PartySystem.Observation Pid (CallSystem.Shared Db Int Pid) Local AuditEntry :=
  fun c q c' ↦ if q = p then seen c q c' else none

/-- **A step of a job.** -/
theorem Sweepable.swept_fire (h : Sweepable env c)
    (hsweeping : Sweeping c.shared.db (c.locals p) ids result)
    (hfire : ((calls env).system Pid).fire c p t = some c') (hids : DrawsNewIds c p t c') :
    Ended (c'.locals p) ∨
      Swept c'.shared.db (c'.locals p) ids result (seen c p c').toList := by
  have hc : Consistent c.shared.db := h.sound.2.1
  have hl : Knows c.shared.db (c.locals p) := h.sound.2.2 p
  have hevolves := h.evolves hfire
  have htransition := CallSystem.transition_of_fire hfire
  unfold seen
  obtain ⟨hpending, hlisted, hlooked⟩ := hsweeping
  generalize c.locals p = l, c'.locals p = l', c'.shared = s' at *
  cases htransition with
  | failed => exact Or.inl (Or.inl ⟨_, rfl⟩)
  | crashed => exact Or.inl (Or.inr rfl)
  | @queried d f _ hnext hf =>
    cases l with
    | expiryLocked run =>
      obtain rfl := NextStep.query.inj hnext
      obtain rfl := Except.ok.inj hf
      obtain ⟨rfl, rfl⟩ := Prod.mk.inj (Option.some.inj hpending)
      refine Or.inr (Sweeping.swept ⟨rfl, hlisted, fun run' heq ↦ ?_⟩)
      obtain ⟨rfl, hnone⟩ := Local.expiryFresh.inj heq
      exact pastExpiry_of_expirableStatus hc (hlisted _ List.mem_cons_self) hnone
    | expiring | expiryFresh | finished => cases hnext
    | _ => cases hpending
  | @locked d key _ locks hnext hacquire =>
    cases l with
    | expiring run =>
      obtain ⟨-, rfl⟩ := NextStep.lock.inj hnext
      obtain ⟨rfl, rfl⟩ := Prod.mk.inj (Option.some.inj hpending)
      exact Or.inr (Sweeping.swept ⟨rfl, hlisted, nofun⟩)
    | expiryLocked | expiryFresh | finished => cases hnext
    | _ => cases hpending
  | @committed d body _ db hnext hbody =>
    cases l with
    | expiryFresh run fromStatus =>
      obtain ⟨rfl, rfl⟩ := Prod.mk.inj (Option.some.inj hpending)
      obtain ⟨hid, hlisted⟩ := List.forall_mem_cons.1 hlisted
      rcases expiry_of_commit hc hl h.plain h.records (hids d rfl).2 hnext hbody with
        ⟨-, hunchanged⟩ | ⟨run', status, heq, rfl, hby⟩
      · obtain ⟨rfl, rfl, rfl⟩ := hunchanged run fromStatus rfl
        refine Or.inr ⟨[run.rfqId], [], _, rfl, ?_, List.nil_sublist _, ?_, ?_⟩
        · exact List.forall_mem_singleton.2 (hlooked run rfl)
        · show (expiredNow c.shared.db c.shared.db run.rfqId).toList = _
          rw [expiredNow_self]
          rfl
        · exact ⟨pending_proceed _ _, hlisted, fun _ heq ↦ absurd heq proceed_ne_fresh⟩
      · obtain ⟨rfl, rfl⟩ := Local.expiryFresh.inj heq
        obtain ⟨hexpirable, hstatus⟩ := hl status rfl
        have hne : status ≠ .expired := by
          rintro rfl
          revert hexpirable
          decide
        refine Or.inr ⟨[run.rfqId], [run.rfqId], _, rfl, ?_, List.Sublist.refl _, ?_, ?_⟩
        · exact List.forall_mem_singleton.2 (pastExpiry_of_rewrite hid hby.rfqs_eq)
        · show (expiredNow c.shared.db db run.rfqId).toList = _
          rw [expiredNow_of_rewrite (hstatus.statusOf hc) hne hby.rfqs_eq]
          rfl
        · exact ⟨pending_proceed _ _, fun id hid ↦ ids_stay hevolves (hlisted id hid),
            fun _ heq ↦ absurd heq proceed_ne_fresh⟩
    | expiring | expiryLocked | finished => cases hnext
    | _ => cases hpending

theorem Ended.fire (h : Ended (c.locals p)) (hfire : ((calls env).system Pid).fire c q t = some c') :
    Ended (c'.locals p) := by
  by_cases hp : p = q
  · subst hp
    have hstop (d : Draws) : (calls env).next d (c.locals p) = .stop := by
      rcases h with ⟨e, hl⟩ | hl <;> rw [hl] <;> rfl
    have hended : (calls env).ended (c.locals p) = true := by
      rcases h with ⟨e, hl⟩ | hl <;> rw [hl] <;> rfl
    exact absurd hfire (CallSystem.not_fire_of_stop hstop hended)
  · rw [PartySystem.locals_of_fire hfire hp]
    exact h

/-- **A run of a job**: it fails, or gets as far as its own steps show. -/
theorem Sweepable.swept_run (h : Sweepable env c) {events : List AuditEntry}
    (hswept : Swept c.shared.db (c.locals p) ids result events) {steps : List (Pid × Tick Draws)}
    (hids : ((calls env).system Pid).Along DrawsNewIds c steps)
    (hrun : ((calls env).system Pid).run c steps = some c') :
    Ended (c'.locals p) ∨ Swept c'.shared.db (c'.locals p) ids result
      (events ++ ((calls env).system Pid).eventsAlong (own p) c steps) := by
  induction steps generalizing c events with
  | nil =>
    obtain rfl := Option.some.inj hrun
    refine Or.inr ?_
    rw [PartySystem.eventsAlong, List.append_nil]
    exact hswept
  | cons step rest ih =>
    obtain ⟨q, t⟩ := step
    obtain ⟨c₁, hfire, hrest⟩ := Option.bind_eq_some_iff.1 hrun
    obtain ⟨hdraws, hids⟩ := hids c₁ hfire
    have h₁ := h.fire hfire hdraws
    by_cases hended : Ended (c'.locals p)
    · exact Or.inl hended
    have hevolves := h.evolves hfire
    have hnext : Swept c₁.shared.db (c₁.locals p) ids result (events ++ (own p c q c₁).toList) := by
      refine hswept.trans hevolves fun hsweeping ↦ ?_
      by_cases hq : q = p
      · subst hq
        rw [own, if_pos rfl]
        refine (h.swept_fire hsweeping hfire hdraws).resolve_left fun hfailed ↦ hended ?_
        exact PartySystem.inv_of_run (fun h hfire ↦ Ended.fire h hfire) hfailed hrest
      · rw [own, if_neg hq, PartySystem.locals_of_fire hfire (Ne.symm hq)]
        exact (hsweeping.later hevolves).swept
    rw [PartySystem.eventsAlong_cons hfire, ← List.append_assoc]
    exact ih h₁ hnext hids hrest

/-- Where a run starts from: nothing of the job is on record but RFQs that are past expiring. -/
structure InitialSweep (c : Config Pid) : Prop extends Initial c where
  plain : PlainIds c.shared.db
  records : RecordsPast c.shared.db

theorem sweepable_of_reachable
    (h : ((calls env).system Pid).ReachableBy DrawsNewIds InitialSweep c) : Sweepable env c :=
  h.rec_inv (fun _ h ↦ ⟨h.toInitial.sound, h.plain, h.records⟩) fun _ h hfire hids ↦ h.fire hfire hids

/-- What a sweep lists. -/
theorem sweeping_of_listed {d : Draws} (hdelivered : c.locals p = .delivered none)
    (hfire : ((calls env).system Pid).fire c p (.act d) = some c') :
    Sweeping c'.shared.db (c'.locals p)
      ((RfqRepository.listOverdue c.shared.db d.now).map (·.id))
      ⟨(RfqRepository.listOverdue c.shared.db d.now).length, 0⟩ := by
  have hnext : (calls env).next d (c.locals p) =
      .query fun db ↦ .ok (findDue db d.now none) := by rw [hdelivered]; rfl
  obtain ⟨hdb, hlocal⟩ := CallSystem.query_of_fire hfire hnext rfl
  rw [hlocal, hdb]
  refine ⟨?_, fun id hid ↦ ?_, fun run heq ↦ absurd heq proceed_ne_fresh⟩
  · show pending (proceed _ _) = _
    rw [pending_proceed, List.map_map]
    rfl
  · obtain ⟨r, hr, rfl⟩ := List.mem_map.1 hid
    have hmem := List.mem_of_mem_take hr
    rw [List.mem_mergeSort] at hmem
    exact List.mem_map.2 ⟨r, List.mem_of_mem_filter hmem, rfl⟩

/-- **A sweep does what it reports**, whatever interleaves with it. When it has finished, every RFQ that it
has listed is past expiring; and what it counts as expired its own commits have expired, each of them one of
the RFQs listed. -/
theorem swept_of_run (hreach : ((calls env).system Pid).ReachableBy DrawsNewIds InitialSweep c)
    (hdelivered : c.locals p = .delivered none) {d : Draws} {c₁ : Config Pid}
    (hlists : ((calls env).system Pid).fire c p (.act d) = some c₁) (hd : DrawsNewIds c p (.act d) c₁)
    {steps : List (Pid × Tick Draws)} (hids : ((calls env).system Pid).Along DrawsNewIds c₁ steps)
    (hrun : ((calls env).system Pid).run c₁ steps = some c') (hfinished : c'.locals p = .finished result) :
    result.scanned = (RfqRepository.listOverdue c.shared.db d.now).length ∧
      (∀ r ∈ RfqRepository.listOverdue c.shared.db d.now, PastExpiry c'.shared.db r.id) ∧
      ∃ expired : List Uuid,
        expired.Sublist ((RfqRepository.listOverdue c.shared.db d.now).map (·.id)) ∧
        result.expired = expired.length ∧
        ((calls env).system Pid).eventsAlong (own p) c₁ steps =
          expired.map (.byWorker "rfq.expired" "rfq") := by
  have h := sweepable_of_reachable hreach
  have hsweeping := sweeping_of_listed hdelivered hlists
  obtain ⟨done, expired, rest, hlisted, hpast, hsub, hevents, hend⟩ :=
    ((h.fire hlists hd).swept_run hsweeping.swept hids hrun).resolve_left fun hended ↦ by
      rcases hended with ⟨e, he⟩ | he <;> cases hfinished.symm.trans he
  obtain ⟨rfl, rfl⟩ : [] = rest ∧ result =
      ⟨(RfqRepository.listOverdue c.shared.db d.now).length, 0 + expired.length⟩ := by
    have hpending := hend.pending_eq
    rw [hfinished] at hpending
    exact Prod.mk.inj (Option.some.inj hpending)
  rw [List.append_nil] at hlisted
  refine ⟨rfl, fun r hr ↦ hpast _ (hlisted ▸ List.mem_map_of_mem hr), expired, ?_, Nat.zero_add _, ?_⟩
  · rw [hlisted]
    exact hsub
  · rw [← hevents, List.nil_append]

end

/-! ### A sweep and a job for one of its RFQs -/

namespace Sample

def overdueRfqs : List RFQ :=
  [{ id := "r1", opportunityId := "opp", status := .sent, dueAt := 1000 },
    { id := "r2", opportunityId := "opp", status := .quoted, dueAt := 1100 }]

/-- A sweep has been delivered, and jobs for the first of the RFQs. -/
def delivered : Config ℕ where
  shared :=
    ⟨{ opportunities := [{ id := "opp", ownerOrgId := "merchant", status := .invited }]
       rfqs := overdueRfqs }, .free⟩
  locals
    | 0 => .delivered none
    | _ => .delivered (some "r1")

/-- The sweep has listed both. -/
def listed : Config ℕ where
  shared := delivered.shared
  locals := Function.update delivered.locals 0 (.expiring ⟨"r1", 1000, [("r2", 1100)], ⟨2, 0⟩⟩)

def drawsOf (n : ℕ) : Draws := ⟨fun _ ↦ s!"k{n}", 2000⟩

/-- The other job is faster with the first RFQ. -/
def interleaved : List (ℕ × Tick Draws) :=
  List.replicate 4 (1, .act (drawsOf 1)) ++ List.replicate 3 (0, .act (drawsOf 2)) ++
    List.replicate 3 (0, .act (drawsOf 3))

theorem initial_delivered : InitialSweep delivered where
  consistent := ⟨by decide, by decide, by decide, by decide, by decide⟩
  new p := by
    cases p with
    | zero => exact Or.inr ⟨_, rfl⟩
    | succ p => exact Or.inr ⟨_, rfl⟩
  plain := by
    unfold PlainIds
    decide
  records := nofun

theorem listOverdue_delivered : RfqRepository.listOverdue delivered.shared.db 2000 = overdueRfqs := by
  have hoverdue : delivered.shared.db.rfqs.filter (fun r ↦ r.dueAt < 2000 ∧
      r.status ∈ RfqRepository.expirableStatuses) = overdueRfqs := by decide
  rw [RfqRepository.listOverdue, hoverdue, List.mergeSort_of_pairwise (by decide)]
  rfl

theorem fire_delivered :
    ((calls env).system ℕ).fire delivered 0 (.act (drawsOf 0)) = some listed := by
  have hfound : findDue delivered.shared.db 2000 none =
      .expiring ⟨"r1", 1000, [("r2", 1100)], ⟨2, 0⟩⟩ := by
    rw [findDue, listOverdue_delivered]
    rfl
  have hnext : (calls env).next (drawsOf 0) (delivered.locals 0) =
      .query fun db ↦ .ok (findDue db 2000 none) := rfl
  exact PartySystem.fire_eq_some_iff.2
    ⟨_, _, CallSystem.act_of_query (p := 0) hnext (congrArg Except.ok hfound), rfl⟩

/-- The condition on draws, as a test. -/
def drawsNewIds (c : Config ℕ) (_ : ℕ) : Tick Draws → Bool
  | .act d => ':' ∉ (d.ids 0).toList ∧ d.ids 0 ∉ c.shared.db.idempotencyKeys.map (·.id)
  | .crash => true

theorem drawsNewIds_of_test {c c' : Config ℕ} {p : ℕ} {t : Tick Draws} (h : drawsNewIds c p t = true) :
    DrawsNewIds c p t c' := by
  rintro d rfl
  exact of_decide_eq_true h

theorem swept_of_interleaved :
    ∃ c', ((calls env).system ℕ).run listed interleaved = some c' ∧ c'.locals 0 = .finished ⟨2, 1⟩ ∧
      ∀ r ∈ RfqRepository.listOverdue delivered.shared.db 2000, PastExpiry c'.shared.db r.id := by
  have hchecked : ((calls env).system ℕ).checkAlong drawsNewIds listed interleaved = true := by
    decide +kernel
  obtain ⟨c', hrun, hfinished⟩ : ∃ c', ((calls env).system ℕ).run listed interleaved = some c' ∧
      c'.locals 0 = .finished ⟨2, 1⟩ := by
    refine PartySystem.exists_run_of_test ?_
    decide +kernel
  have hids := PartySystem.Along.of_check (Q := DrawsNewIds)
    (fun _ _ _ _ h ↦ drawsNewIds_of_test h) hchecked
  have hd : DrawsNewIds delivered 0 (.act (drawsOf 0)) listed := drawsNewIds_of_test (by decide)
  exact ⟨c', hrun, hfinished,
    (swept_of_run (.start initial_delivered) rfl fire_delivered hd hids hrun hfinished).2.1⟩

end Sample

end TolPlatform.Rfqs
