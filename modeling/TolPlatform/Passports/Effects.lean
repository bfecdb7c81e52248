import TolPlatform.Passports.Facts
import TolPlatform.Passports.Recompute

/-!
# What the commits of passport calls write

One inversion for each transaction body, collected in `Wrote`: by the local state that commits, what is
checked and what the database is afterwards. Every check is made again under the lock, so nothing that a
call has read before its transaction appears here.

The keys of the tables and their references are kept (`Integrity.wrote`).
-/

namespace TolPlatform.Passports

/-! ### Upserting a fact -/

/-- What an upsert makes of the facts. -/
inductive Upserted (row : Fact) (rows : List Fact) : List Fact → Prop
  | inserted : (∀ fact ∈ rows, (fact.passportId, fact.fieldKey) ≠ (row.passportId, row.fieldKey)) →
      row.id ∉ rows.map Fact.id → Upserted row rows (rows ++ [row])
  | replaced {old} : old ∈ rows →
      (old.passportId, old.fieldKey) = (row.passportId, row.fieldKey) →
      Upserted row rows (Rows.rewrite Fact.id old.id (FactRepository.setFact row) rows)

theorem FactRepository.upsertByFieldKey_eq_ok {assertJson : Option String → String → Except Thrown Unit}
    {row fact : Fact} {db db' : Db} (h : upsertByFieldKey assertJson row db = .ok (fact, db')) :
    ∃ rows, db' = { db with facts := rows } ∧ Upserted row db.facts rows := by
  obtain ⟨_, -, h⟩ := Tx.check_bind_eq_ok.1 h
  replace h := Tx.get_bind_eq_ok.1 h
  rcases hfind : findByFieldKey db row.passportId row.fieldKey with - | old
  · simp only [hfind] at h
    obtain ⟨hnew, -, rfl⟩ := Table.insert_eq_ok_iff.1 h
    refine ⟨_, rfl, .inserted (fun fact hfact heq ↦ ?_) hnew⟩
    exact absurd (decide_eq_true (Prod.mk.inj heq)) (List.find?_eq_none.1 hfind fact hfact)
  · simp only [hfind] at h
    obtain ⟨-, -, -, rfl⟩ := Table.update_eq_ok_iff.1 h
    obtain ⟨hpassport, hkey⟩ := of_decide_eq_true (List.find?_some hfind :)
    exact ⟨_, rfl, .replaced (List.mem_of_find?_eq_some hfind) (by rw [hpassport, hkey])⟩

section

variable {row : Fact} {rows rows' : List Fact}

/-- Rewriting a fact under its own field key changes no field key. -/
theorem Upserted.map_key_replaced {old : Fact} (hids : (rows.map Fact.id).Nodup) (hold : old ∈ rows)
    (hkey : (old.passportId, old.fieldKey) = (row.passportId, row.fieldKey)) :
    (Rows.rewrite Fact.id old.id (FactRepository.setFact row) rows).map
        (fun fact ↦ (fact.passportId, fact.fieldKey)) =
      rows.map fun fact ↦ (fact.passportId, fact.fieldKey) := by
  rw [Rows.rewrite, List.map_map]
  refine List.map_congr_left fun fact hfact ↦ ?_
  show (fun fact : Fact ↦ (fact.passportId, fact.fieldKey))
    (if fact.id = old.id then FactRepository.setFact row fact else fact) = _
  split
  · next hid =>
    rw [Rows.eq_of_key_eq hids hold hfact hid]
    exact hkey.symm
  · rfl

theorem Upserted.ids (h : Upserted row rows rows') (hids : (rows.map Fact.id).Nodup) :
    (rows'.map Fact.id).Nodup := by
  cases h with
  | inserted _ hnew =>
    exact Rows.nodup_append hids (by simpa using hnew) (List.nodup_singleton _)
  | replaced =>
    have hid (fact : Fact) : (FactRepository.setFact row fact).id = fact.id := rfl
    rw [Rows.map_rewrite hid]
    exact hids

theorem Upserted.keys (h : Upserted row rows rows') (hids : (rows.map Fact.id).Nodup)
    (hkeys : (rows.map fun fact ↦ (fact.passportId, fact.fieldKey)).Nodup) :
    (rows'.map fun fact ↦ (fact.passportId, fact.fieldKey)).Nodup := by
  cases h with
  | inserted hfree =>
    refine Rows.nodup_append hkeys ?_ (List.nodup_singleton _)
    simpa using fun fact hfact hpassport hkey ↦ hfree fact hfact (by rw [hpassport, hkey])
  | replaced hold hkey =>
    rw [Upserted.map_key_replaced hids hold hkey]
    exact hkeys

/-- Every fact afterwards is of a passport that had one before, or of the one whose fact it is. -/
theorem Upserted.passportId (h : Upserted row rows rows') {fact : Fact} (hfact : fact ∈ rows') :
    fact.passportId = row.passportId ∨ fact ∈ rows := by
  cases h with
  | inserted =>
    rcases List.mem_append.1 hfact with hfact | hfact
    · exact Or.inr hfact
    · exact Or.inl (congrArg Fact.passportId (List.mem_singleton.1 hfact))
  | replaced =>
    obtain ⟨fact₀, hfact₀, rfl⟩ := Rows.mem_rewrite_iff.1 hfact
    split
    · exact Or.inl rfl
    · exact Or.inr hfact₀

/-- The facts of another passport stay. -/
theorem Upserted.mem_of_ne (h : Upserted row rows rows') (hids : (rows.map Fact.id).Nodup)
    {fact : Fact} (hfact : fact ∈ rows) (hne : fact.passportId ≠ row.passportId) : fact ∈ rows' := by
  cases h with
  | inserted => exact List.mem_append_left _ hfact
  | replaced hold hkey =>
    refine Rows.mem_rewrite_iff.2 ⟨fact, hfact, if_neg fun hid ↦ hne ?_⟩
    rw [Rows.eq_of_key_eq hids hold hfact hid]
    exact (Prod.mk.inj hkey).1

end

/-! ### Writes -/

/-- What the commit of a local state makes of the database. -/
inductive Wrote (env : Env) (d : Draws) (db : Db) : Local → Db → Prop
  | created {actor context organizationId passport result trails db'} :
      passport.id ∉ db.passports.map Passport.id → passport.status = .draft →
      RecomputedTo (recomputerOf actor context) d.now passport result
        { db with
          passports := db.passports ++ [passport]
          trails } db' →
      Wrote env d db (.createReady actor context organizationId) db'
  | upserted {call input passport fact result db₁ trails db'} :
      PassportRepository.findById db call.passport.id = some passport →
      FactRepository.upsertByFieldKey env.assertJsonSerializableValue
        (newFact d call.passport.id input) db = .ok (fact, db₁) →
      RecomputedTo (recomputerOf call.actor call.context) d.now passport result
        { db₁ with trails } db' →
      Wrote env d db (.upsertLocked call input) db'
  | added {call input row trails} : row.id ∉ db.evidence.map Evidence.id →
      Wrote env d db (.addReady call input)
        { db with
          evidence := db.evidence ++ [row]
          trails }
  | verified {call input passport trails} :
      PassportRepository.findById db call.passport.id = some passport → passport.status = .ready →
      Wrote env d db (.verifyLocked call input)
        { db with
          passports := Rows.rewrite Passport.id call.passport.id
            (PassportRepository.setStatus .verified) db.passports
          trails }
  | demoted {call passport} :
      PassportRepository.findById db call.passport.id = some passport →
      .stale ∈ passportTransitions passport.status →
      Wrote env d db (.demoteLocked call)
        { db with
          passports := Rows.rewrite Passport.id call.passport.id
            (PassportRepository.setStatus .stale) db.passports }
  | left {call} : Wrote env d db (.demoteLocked call) db
  | recomputed {run passportId passport result db₁ keys} :
      PassportRepository.findById db passportId = some passport → NewRun d run.now db passport →
      RecomputedTo worker run.now passport result db db₁ →
      Wrote env d db (.recomputeLocked run passportId) { db₁ with idempotencyKeys := keys }
  | skipped {run passportId} :
      (∀ passport, PassportRepository.findById db passportId = some passport →
        ¬ NewRun d run.now db passport) →
      Wrote env d db (.recomputeLocked run passportId) db

section

variable {env : Env} {d : Draws} {db db' : Db}

theorem record_bind_eq_ok {α : Type} {f : Trails → Trails} {g : PUnit → Tx Db Thrown α}
    {r : α × Db} : (record f >>= g) db = .ok r ↔ g ⟨⟩ { db with trails := f db.trails } = .ok r :=
  Iff.rfl

theorem createTx_eq_ok {actor : Actor} {context : RequestContext} {organizationId : Uuid}
    {passport : Passport} (h : createTx env d actor context organizationId db = .ok (passport, db')) :
    Wrote env d db (.createReady actor context organizationId) db' := by
  obtain ⟨created, db₁, hcreate, h⟩ := Tx.bind_eq_ok.1 h
  obtain ⟨_, -, hinsert⟩ := Tx.check_bind_eq_ok.1 (Tx.get_bind_eq_ok.1 hcreate)
  obtain ⟨hnew, rfl, rfl⟩ := Table.insert_eq_ok_iff.1 hinsert
  obtain ⟨_, db₂, hrecompute, hret⟩ := Tx.bind_eq_ok.1 (record_bind_eq_ok.1 h)
  obtain ⟨-, rfl⟩ := Prod.mk.inj (Tx.pure_eq_ok.1 hret)
  obtain ⟨result, hresult⟩ := recompute_eq_ok hrecompute
  exact .created hnew rfl hresult

theorem upsertFactTx_eq_ok {call : PassportCall} {input : UpsertFactRequest} {r : UpsertedFact}
    (h : upsertFactTx env d call input db = .ok (r, db')) :
    Wrote env d db (.upsertLocked call input) db' := by
  obtain ⟨passport, hfound, h⟩ := Tx.check_bind_eq_ok.1 (Tx.get_bind_eq_ok.1 h)
  obtain ⟨fact, db₁, hupsert, h⟩ := Tx.bind_eq_ok.1 h
  obtain ⟨_, db₂, hrecompute, hret⟩ := Tx.bind_eq_ok.1 (record_bind_eq_ok.1 h)
  obtain ⟨-, rfl⟩ := Prod.mk.inj (Tx.pure_eq_ok.1 hret)
  obtain ⟨result, hresult⟩ := recompute_eq_ok hrecompute
  exact .upserted (orThrow_eq_ok_iff.1 hfound) hupsert hresult

theorem addEvidenceTx_eq_ok {call : PassportCall} {input : CreateEvidenceRequest} {r : Evidence}
    (h : addEvidenceTx d call input db = .ok (r, db')) :
    Wrote env d db (.addReady call input) db' := by
  obtain ⟨row, db₁, hinsert, h⟩ := Tx.bind_eq_ok.1 h
  obtain ⟨hnew, rfl, rfl⟩ := Table.insert_eq_ok_iff.1 hinsert
  replace h := record_bind_eq_ok.1 h
  obtain ⟨-, rfl⟩ := Prod.mk.inj (Tx.pure_eq_ok.1 h)
  exact .added hnew

theorem verifyTx_eq_ok {call : PassportCall} {input : VerifyPassportRequest} {r : Passport}
    (h : verifyTx call input db = .ok (r, db')) : Wrote env d db (.verifyLocked call input) db' := by
  obtain ⟨passport, hfound, h⟩ := Tx.check_bind_eq_ok.1 (Tx.get_bind_eq_ok.1 h)
  obtain ⟨_, hready, h⟩ := Tx.check_bind_eq_ok.1 h
  obtain ⟨_, -, h⟩ := Tx.check_bind_eq_ok.1 h
  obtain ⟨_, db₁, hupdate, h⟩ := Tx.bind_eq_ok.1 h
  obtain ⟨-, -, -, rfl⟩ := Table.update_eq_ok_iff.1 hupdate
  replace h := record_bind_eq_ok.1 h
  obtain ⟨-, rfl⟩ := Prod.mk.inj (Tx.pure_eq_ok.1 h)
  exact .verified (orThrow_eq_ok_iff.1 hfound) (not_not.1 (throwIf_eq_ok_iff.1 hready))

theorem demoteTx_eq_ok {call r : DetailCall} (h : demoteTx call db = .ok (r, db')) :
    Wrote env d db (.demoteLocked call) db' := by
  replace h := Tx.get_bind_eq_ok.1 h
  rcases hfound : PassportRepository.findById db call.passport.id with - | fresh
  · simp only [hfound] at h
    obtain ⟨-, rfl⟩ := Prod.mk.inj (Tx.pure_eq_ok.1 h)
    exact .left
  · simp only [hfound] at h
    split at h
    · obtain ⟨_, hedge, h⟩ := Tx.check_bind_eq_ok.1 h
      obtain ⟨_, db₁, hupdate, hret⟩ := Tx.bind_eq_ok.1 h
      obtain ⟨-, -, -, rfl⟩ := Table.update_eq_ok_iff.1 hupdate
      obtain ⟨-, rfl⟩ := Prod.mk.inj (Tx.pure_eq_ok.1 hret)
      exact .demoted hfound (assertValidTransition_eq_ok_iff.1 hedge).2
    · obtain ⟨-, rfl⟩ := Prod.mk.inj (Tx.pure_eq_ok.1 h)
      exact .left

theorem recomputePassport_eq_ok {run : JobRun} {passportId : Uuid} {r : Option Recomputed}
    (h : recomputePassport env d passportId run.now db = .ok (r, db')) :
    Wrote env d db (.recomputeLocked run passportId) db' := by
  replace h := Tx.get_bind_eq_ok.1 h
  rcases hfound : PassportRepository.findById db passportId with - | passport
  · simp only [hfound] at h
    obtain ⟨-, rfl⟩ := Prod.mk.inj (Tx.pure_eq_ok.1 h)
    exact .skipped fun _ hsome ↦ nomatch hfound.symm.trans hsome
  · simp only [hfound] at h
    rcases recompute_cases rfl h with ⟨hnew, result, db₁, keys, hresult, rfl⟩ | ⟨hold, rfl⟩
    · exact .recomputed hfound hnew hresult
    · refine .skipped fun other hother ↦ ?_
      obtain rfl := Option.some.inj (hfound.symm.trans hother)
      exact hold

/-- **Every commit is a write.** -/
theorem wrote_of_commit {l l' : Local} {body : Tx Db Thrown Local}
    (hnext : (calls env).next d l = .commit body) (hbody : body db = .ok (l', db')) :
    Wrote env d db l db' := by
  cases l <;> cases hnext <;> obtain ⟨_, h, -⟩ := Tx.map_eq_ok.1 hbody
  case createReady => exact createTx_eq_ok h
  case upsertLocked => exact upsertFactTx_eq_ok h
  case addReady => exact addEvidenceTx_eq_ok h
  case verifyLocked => exact verifyTx_eq_ok h
  case demoteLocked => exact demoteTx_eq_ok h
  case recomputeLocked => exact recomputePassport_eq_ok h

end

/-! ### Keys and references -/

/-- Primary keys are distinct, and what belongs to a passport belongs to one that is there. -/
structure Integrity (db : Db) : Prop where
  passports : (db.passports.map Passport.id).Nodup
  facts : (db.facts.map Fact.id).Nodup
  keys : DistinctKeys db
  factOf : ∀ fact ∈ db.facts, fact.passportId ∈ db.passports.map Passport.id
  resultOf : ∀ r ∈ db.readinessResults, r.passportId ∈ db.passports.map Passport.id

section

variable {env : Env} {d : Draws} {who : Recomputer} {now : Instant} {passport : Passport}
  {result : ReadinessResultShape} {db db' : Db}

theorem mem_ids_of_findById {id : Uuid} (h : PassportRepository.findById db id = some passport) :
    id ∈ db.passports.map Passport.id :=
  List.mem_map.2 ⟨passport, List.mem_of_find?_eq_some h, findById_id h⟩

theorem map_id_setStatus (id : Uuid) (status : PassportStatus) (rows : List Passport) :
    (Rows.rewrite Passport.id id (PassportRepository.setStatus status) rows).map Passport.id =
      rows.map Passport.id :=
  Rows.map_rewrite (PassportRepository.setStatus_id status)

theorem RecomputedTo.ids (h : RecomputedTo who now passport result db db') :
    db'.passports.map Passport.id = db.passports.map Passport.id := by
  rw [h.passports_eq]
  split
  · exact map_id_setStatus _ _ _
  · rfl

/-- Evidence, records and trails are no part of it. -/
theorem Integrity.of_eq (hdb : Integrity db) (hpassports : db'.passports = db.passports)
    (hfacts : db'.facts = db.facts) (hresults : db'.readinessResults = db.readinessResults) :
    Integrity db' where
  passports := hpassports ▸ hdb.passports
  facts := hfacts ▸ hdb.facts
  keys := by
    rw [DistinctKeys, hfacts]
    exact hdb.keys
  factOf := hpassports ▸ hfacts ▸ hdb.factOf
  resultOf := hpassports ▸ hresults ▸ hdb.resultOf

theorem Integrity.recomputed (hdb : Integrity db) (hid : passport.id ∈ db.passports.map Passport.id)
    (h : RecomputedTo who now passport result db db') : Integrity db' := by
  obtain ⟨row, -, hrow, -, hresults⟩ := h.results_eq
  refine ⟨?_, ?_, ?_, ?_, ?_⟩
  · exact h.ids ▸ hdb.passports
  · exact h.facts_eq ▸ hdb.facts
  · rw [DistinctKeys, h.facts_eq]
    exact hdb.keys
  · rw [h.ids, h.facts_eq]
    exact hdb.factOf
  · rw [h.ids, hresults]
    intro r hr
    rcases List.mem_append.1 hr with hr | hr
    · exact hdb.resultOf r hr
    · rw [List.mem_singleton.1 hr, hrow]
      exact hid

theorem Integrity.upserted {row : Fact} {rows : List Fact} (hdb : Integrity db)
    (hid : row.passportId ∈ db.passports.map Passport.id) (h : Upserted row db.facts rows) :
    Integrity { db with facts := rows } where
  passports := hdb.passports
  facts := h.ids hdb.facts
  keys := h.keys hdb.facts hdb.keys
  factOf fact hfact := by
    rcases h.passportId hfact with hrow | hold
    · exact hrow ▸ hid
    · exact hdb.factOf fact hold
  resultOf := hdb.resultOf

/-- A new passport has no facts yet and no readiness. -/
theorem Integrity.inserted (hdb : Integrity db) (hnew : passport.id ∉ db.passports.map Passport.id) :
    Integrity { db with passports := db.passports ++ [passport] } where
  passports := Rows.nodup_append hdb.passports (by simpa using hnew) (List.nodup_singleton _)
  facts := hdb.facts
  keys := hdb.keys
  factOf fact hfact := by
    rw [List.map_append]
    exact List.mem_append_left _ (hdb.factOf fact hfact)
  resultOf r hr := by
    rw [List.map_append]
    exact List.mem_append_left _ (hdb.resultOf r hr)

theorem Integrity.setStatus (hdb : Integrity db) (id : Uuid) (status : PassportStatus) :
    Integrity { db with
      passports := Rows.rewrite Passport.id id (PassportRepository.setStatus status) db.passports } := by
  have hids := map_id_setStatus id status db.passports
  refine ⟨?_, hdb.facts, hdb.keys, ?_, ?_⟩
  · exact hids ▸ hdb.passports
  · exact hids ▸ hdb.factOf
  · exact hids ▸ hdb.resultOf

/-- **Every write keeps keys and references.** -/
theorem Integrity.wrote (hdb : Integrity db) {l : Local} (h : Wrote env d db l db') :
    Integrity db' := by
  cases h with
  | created hnew _ hrecomputed =>
    refine Integrity.recomputed ?_ ?_ hrecomputed
    · exact (hdb.inserted hnew).of_eq rfl rfl rfl
    · rw [List.map_append]
      exact List.mem_append_right _ (List.mem_singleton_self _)
  | upserted hfound hupsert hrecomputed =>
    obtain ⟨rows, rfl, hrows⟩ := FactRepository.upsertByFieldKey_eq_ok hupsert
    have hid := mem_ids_of_findById hfound
    refine Integrity.recomputed ?_ ?_ hrecomputed
    · exact (hdb.upserted hid hrows).of_eq rfl rfl rfl
    · rw [findById_id hfound]
      exact hid
  | added => exact hdb.of_eq rfl rfl rfl
  | verified => exact (hdb.setStatus _ .verified).of_eq rfl rfl rfl
  | demoted => exact hdb.setStatus _ .stale
  | left | skipped => exact hdb
  | recomputed hfound _ hrecomputed =>
    have hid := findById_id hfound ▸ mem_ids_of_findById hfound
    exact (hdb.recomputed hid hrecomputed).of_eq rfl rfl rfl

variable {Pid : Type} [DecidableEq Pid]

theorem Integrity.fire {c c' : Config Pid} {p : Pid} {t : Tick Draws} (hc : Integrity c.shared.db)
    (h : ((calls env).system Pid).fire c p t = some c') : Integrity c'.shared.db := by
  rcases CallSystem.commits_or_not h with ⟨-, hdb⟩ | ⟨-, d, body, hnext, hbody⟩
  · exact hdb ▸ hc
  · exact hc.wrote (wrote_of_commit hnext hbody)

end

end TolPlatform.Passports
