import TolPlatform.Idempotency.Service
import TolPlatform.Library.Interleaving

/-!
# Requests under idempotency keys, interleaved

Any number of requests run `withIdempotency` on one database and may interleave between any two of
its statements. Each party serves one request; a client's retry is another party with the same
request. A handler is a process of its own that may take any number of steps on the rest of the
database, throw, resolve or never end.

`RequestStep` lists what one step can do, and `run_alone` that a party nobody interrupts computes
`withIdempotency`. The invariant comes in three layers, each proved with the one before it:

* a pair whose handler was entered is taken (`taken_of_entered`), as rows are never deleted;
* so no two requests enter the handler under one pair (`entered_unique`);
* so the row of a pair follows the one request that reserved it (`followed`).
-/

namespace TolPlatform

/-! ### Handlers and requests -/

/-- A handler: where it starts, and what its next step does to the rest of the database, ending in
another state of its own or in the handler's outcome. -/
structure Handler (World Env Local Body : Type) where
  entry : Local
  step : Env → World → Local → Option (World × (Local ⊕ Except Thrown Body))

/-- What a step draws from outside: `newId()`, the clock and what the handler draws. -/
structure RequestDraws (Env : Type) where
  id : Uuid
  now : Instant
  handler : Env

/-- How far a request has got. -/
inductive RequestPc (Local Body : Type)
  | called
  /-- The look-up found no row. -/
  | cleared
  /-- In the handler. -/
  | running (h : Local)
  /-- The handler resolved, and nothing is recorded yet. -/
  | handled (result : Body)
  /-- The second look-up found the row with this id. -/
  | recording (id : Uuid) (result : Body)
  /-- The handler threw. -/
  | threw (thrown : Thrown)
  /-- Ended after the handler resolved. -/
  | returned (response : Except Thrown Body)
  /-- Ended without the handler. -/
  | answered (response : Except Thrown (Option Body))
  deriving DecidableEq

namespace RequestPc

variable {Local Body : Type}

/-- The handler has been entered. -/
def entered : RequestPc Local Body → Bool
  | called | cleared | answered _ => false
  | running _ | handled _ | recording _ _ | threw _ | returned _ => true

/-- What `withIdempotency` has come to. -/
def response : RequestPc Local Body → Option (Except Thrown (Option Body))
  | threw thrown => some (.error thrown)
  | returned response => some (response.map some)
  | answered response => some response
  | _ => none

end RequestPc

/-! ### One step -/

section

variable {World Env Local Body : Type} (sha256 : String → String)

/-- One step of a request. -/
def requestStep (info : IdempotencyRequestInfo) (handler : Handler World Env Local Body)
    (e : RequestDraws Env) (db : ApiDb World Body) :
    RequestPc Local Body → Option (ApiDb World Body × RequestPc Local Body)
  | .called =>
    if info.keyText = "" then some (db, .running handler.entry)
    else
      match db.find info.scope info.keyText with
      | some existing => some (db, .answered (answerExisting sha256 info existing))
      | none => some (db, .cleared)
  | .cleared =>
    match reserveKey sha256 e.id e.now info db with
    | (.error thrown, db) => some (db, .answered (.error thrown))
    | (.ok _, db) => some (db, .running handler.entry)
  | .running h =>
    match handler.step e.handler db.world h with
    | none => none
    | some (world, .inl h) => some ({ db with world }, .running h)
    | some (world, .inr (.error thrown)) => some ({ db with world }, .threw thrown)
    | some (world, .inr (.ok result)) =>
      some ({ db with world }, if info.keyText = "" then .returned (.ok result) else .handled result)
  | .handled result =>
    match db.find info.scope info.keyText with
    | none => some (db, .returned (.ok result))
    | some reserved => some (db, .recording reserved.id result)
  | .recording id result =>
    match recordResponse id db result with
    | (.error thrown, db) => some (db, .returned (.error thrown))
    | (.ok _, db) => some (db, .returned (.ok result))
  | .threw _ | .returned _ | .answered _ => none

variable {Pid : Type}

/-- The requests of all parties. -/
def requestSystem (requests : Pid → IdempotencyRequestInfo)
    (handlers : Pid → Handler World Env Local Body) :
    PartySystem Pid (RequestDraws Env) (ApiDb World Body) (RequestPc Local Body) where
  step p e db pc := requestStep sha256 (requests p) (handlers p) e db pc

end

/-! ### What a step can do -/

/-- The steps of a request, one constructor a kind. -/
inductive RequestStep {World Env Local Body : Type} (sha256 : String → String)
    (info : IdempotencyRequestInfo) (handler : Handler World Env Local Body) (e : RequestDraws Env)
    (db : ApiDb World Body) :
    RequestPc Local Body → ApiDb World Body → RequestPc Local Body → Prop
  | unkeyed : info.keyText = "" → RequestStep sha256 info handler e db
      .called db (.running handler.entry)
  | answer {existing} : info.keyText ≠ "" → db.find info.scope info.keyText = some existing →
      RequestStep sha256 info handler e db
        .called db (.answered (answerExisting sha256 info existing))
  | clear : info.keyText ≠ "" → db.find info.scope info.keyText = none →
      RequestStep sha256 info handler e db .called db .cleared
  | lose : RequestStep sha256 info handler e db
      .cleared db (.answered (.error alreadyProcessing))
  | reserve : db.find info.scope info.keyText = none → e.id ∉ db.ids →
      RequestStep sha256 info handler e db .cleared
        { db with idempotencyKeys := db.idempotencyKeys ++ [reservedRow sha256 e.id e.now info] }
        (.running handler.entry)
  | work {h h' world} : RequestStep sha256 info handler e db
      (.running h) { db with world } (.running h')
  | throw {h thrown world} : RequestStep sha256 info handler e db
      (.running h) { db with world } (.threw thrown)
  | resolveUnkeyed {h result world} : info.keyText = "" → RequestStep sha256 info handler e db
      (.running h) { db with world } (.returned (.ok result))
  | resolve {h result world} : info.keyText ≠ "" → RequestStep sha256 info handler e db
      (.running h) { db with world } (.handled result)
  | lost {result} : db.find info.scope info.keyText = none → RequestStep sha256 info handler e db
      (.handled result) db (.returned (.ok result))
  | refind {reserved result} : db.find info.scope info.keyText = some reserved →
      RequestStep sha256 info handler e db (.handled result) db (.recording reserved.id result)
  | record {id result} : (db.idempotencyKeys.find? (·.id = id)).isSome →
      RequestStep sha256 info handler e db (.recording id result)
        { db with idempotencyKeys :=
            db.idempotencyKeys.map (IdempotencyRepository.completed id 200 (some result)) }
        (.returned (.ok result))
  | missing {id result} : ¬ (db.idempotencyKeys.find? (·.id = id)).isSome →
      RequestStep sha256 info handler e db (.recording id result) db
        (.returned (.error .recordNotFound))

section

variable {World Env Local Body : Type} {sha256 : String → String} {info : IdempotencyRequestInfo}
  {handler : Handler World Env Local Body} {e : RequestDraws Env} {db db' : ApiDb World Body}
  {pc pc' : RequestPc Local Body}

/-- **What one step can do.** -/
theorem requestStep_cases (h : requestStep sha256 info handler e db pc = some (db', pc')) :
    RequestStep sha256 info handler e db pc db' pc' := by
  cases pc with
  | called =>
    rw [requestStep] at h
    split at h
    · next hkey =>
      obtain ⟨rfl, rfl⟩ := Prod.mk.inj (Option.some.inj h)
      exact .unkeyed hkey
    · next hkey =>
      rcases hfind : db.find info.scope info.keyText with - | existing
      · rw [hfind] at h
        obtain ⟨rfl, rfl⟩ := Prod.mk.inj (Option.some.inj h)
        exact .clear hkey hfind
      · rw [hfind] at h
        obtain ⟨rfl, rfl⟩ := Prod.mk.inj (Option.some.inj h)
        exact .answer hkey hfind
  | cleared =>
    rw [requestStep, reserveKey_eq] at h
    by_cases htaken : db.find info.scope info.keyText ≠ none ∨ e.id ∈ db.ids
    · rw [if_pos htaken] at h
      obtain ⟨rfl, rfl⟩ := Prod.mk.inj (Option.some.inj h)
      exact .lose
    · rw [if_neg htaken] at h
      obtain ⟨rfl, rfl⟩ := Prod.mk.inj (Option.some.inj h)
      obtain ⟨hfree, hid⟩ := not_or.1 htaken
      exact .reserve (not_not.1 hfree) hid
  | running l =>
    rw [requestStep] at h
    rcases hstep : handler.step e.handler db.world l with - | ⟨world, l' | thrown | result⟩
    · rw [hstep] at h
      cases h
    · rw [hstep] at h
      obtain ⟨rfl, rfl⟩ := Prod.mk.inj (Option.some.inj h)
      exact .work
    · rw [hstep] at h
      obtain ⟨rfl, rfl⟩ := Prod.mk.inj (Option.some.inj h)
      exact .throw
    · rw [hstep] at h
      obtain ⟨rfl, rfl⟩ := Prod.mk.inj (Option.some.inj h)
      by_cases hkey : info.keyText = ""
      · rw [if_pos hkey]
        exact .resolveUnkeyed hkey
      · rw [if_neg hkey]
        exact .resolve hkey
  | handled result =>
    rw [requestStep] at h
    rcases hfind : db.find info.scope info.keyText with - | reserved
    · rw [hfind] at h
      obtain ⟨rfl, rfl⟩ := Prod.mk.inj (Option.some.inj h)
      exact .lost hfind
    · rw [hfind] at h
      obtain ⟨rfl, rfl⟩ := Prod.mk.inj (Option.some.inj h)
      exact .refind hfind
  | recording id result =>
    rw [requestStep, recordResponse_eq] at h
    by_cases hrow : (db.idempotencyKeys.find? (·.id = id)).isSome
    · rw [if_pos hrow] at h
      obtain ⟨rfl, rfl⟩ := Prod.mk.inj (Option.some.inj h)
      exact .record hrow
    · rw [if_neg hrow] at h
      obtain ⟨rfl, rfl⟩ := Prod.mk.inj (Option.some.inj h)
      exact .missing hrow
  | threw => cases h
  | returned => cases h
  | answered => cases h

/-! ### What a step leaves alone -/

variable {scope key : String} {row : IdempotencyKey Body}

/-- Ids stay distinct. -/
theorem RequestStep.ids_nodup (h : RequestStep sha256 info handler e db pc db' pc')
    (hids : db.ids.Nodup) : db'.ids.Nodup := by
  cases h with
  | reserve hfree hid =>
    rw [ApiDb.ids_append]
    exact hids.append (List.nodup_singleton _) (List.disjoint_singleton.2 hid)
  | record => rwa [ApiDb.ids_map_completed]
  | _ => exact hids

/-- A row found stays unless it is the one being completed. -/
theorem RequestStep.find_of_find (h : RequestStep sha256 info handler e db pc db' pc')
    (hfind : db.find scope key = some row)
    (hother : ∀ id result, pc = .recording id result → row.id ≠ id) :
    db'.find scope key = some row := by
  cases h with
  | reserve hfree hid =>
    rw [ApiDb.find_append hfree, if_neg, hfind]
    rintro ⟨hscope, hkey⟩
    have hnone : db.find scope key = none := by rw [← hscope, ← hkey]; exact hfree
    rw [hfind] at hnone
    cases hnone
  | @record id result hrow =>
    rw [ApiDb.find_map_completed, hfind, Option.map_some, IdempotencyRepository.completed,
      if_neg (hother id result rfl)]
  | _ => exact hfind

/-- A pair that is taken stays taken. -/
theorem RequestStep.taken (h : RequestStep sha256 info handler e db pc db' pc')
    (htaken : db.find scope key ≠ none) : db'.find scope key ≠ none := by
  obtain ⟨row, hfind⟩ := Option.ne_none_iff_exists'.1 htaken
  cases h with
  | record hrow =>
    rw [ApiDb.find_map_completed, hfind]
    exact Option.some_ne_none _
  | reserve hfree hid =>
    rw [ApiDb.find_append hfree]
    split
    · exact Option.some_ne_none _
    · exact htaken
  | _ => exact htaken

/-- A request in its handler stays entered. -/
theorem RequestStep.entered (h : RequestStep sha256 info handler e db pc db' pc')
    (hentered : pc.entered = true) : pc'.entered = true := by
  cases h <;> first | rfl | cases hentered

/-- The only way in, under a key, is to find the pair free. -/
theorem RequestStep.free_of_enters (h : RequestStep sha256 info handler e db pc db' pc')
    (hkey : info.keyText ≠ "") (hbefore : pc.entered = false) (hafter : pc'.entered = true) :
    db.find info.scope info.keyText = none := by
  cases h with
  | unkeyed hunkeyed => exact absurd hunkeyed hkey
  | reserve hfree => exact hfree
  | answer | clear | lose => cases hafter
  | _ => cases hbefore

end

/-! ### A request nobody interrupts -/

/-- A handler that takes one step. -/
def Handler.atomic {World Env Body : Type} (run : World → Except Thrown Body × World) :
    Handler World Env Unit Body where
  entry := ()
  step _ world _ := some ((run world).2, .inr (run world).1)

/-- **Alone, a request computes `withIdempotency`.** -/
theorem run_alone {Pid World Env Body : Type} [DecidableEq Pid] {sha256 : String → String}
    {requests : Pid → IdempotencyRequestInfo} {handlers : Pid → Handler World Env Unit Body}
    {c : PartySystem.Config Pid (ApiDb World Body) (RequestPc Unit Body)} {p : Pid}
    {run : World → Except Thrown Body × World} (hhandler : handlers p = .atomic run)
    (hcalled : c.locals p = .called) (e : RequestDraws Env) :
    ∃ n c', (requestSystem sha256 requests handlers).run c (List.replicate n (p, e)) = some c' ∧
      c'.shared = (withIdempotency sha256 e.id e.now (requests p) c.shared run).2 ∧
      (c'.locals p).response =
        some (withIdempotency sha256 e.id e.now (requests p) c.shared run).1 := by
  suffices hsolo : ∃ n pc, (requestSystem sha256 requests handlers).solo p e n c.shared .called =
      some ((withIdempotency sha256 e.id e.now (requests p) c.shared run).2, pc) ∧
      pc.response = some (withIdempotency sha256 e.id e.now (requests p) c.shared run).1 by
    obtain ⟨n, pc, hn, hpc⟩ := hsolo
    obtain ⟨c', hrun, hshared, hlocal⟩ :=
      PartySystem.run_replicate_of_solo (c := c) (by rw [hcalled]; exact hn)
    exact ⟨n, c', hrun, hshared, hlocal ▸ hpc⟩
  by_cases hkey : (requests p).keyText = ""
  · rcases hrun : run c.shared.world with ⟨thrown | result, world⟩
    · refine ⟨2, .threw thrown, ?_⟩
      simp [PartySystem.solo, requestSystem, requestStep, withIdempotency, hkey, hhandler,
        Handler.atomic, hrun, RequestPc.response, Except.map]
    · refine ⟨2, .returned (.ok result), ?_⟩
      simp [PartySystem.solo, requestSystem, requestStep, withIdempotency, hkey, hhandler,
        Handler.atomic, hrun, RequestPc.response, Except.map]
  rcases hfind : c.shared.find (requests p).scope (requests p).keyText with - | existing
  swap
  · refine ⟨1, .answered (answerExisting sha256 (requests p) existing), ?_⟩
    simp [PartySystem.solo, requestSystem, requestStep, withIdempotency, hkey, hfind,
      RequestPc.response]
  rcases hreserve : reserveKey sha256 e.id e.now (requests p) c.shared with ⟨thrown | _, db⟩
  · refine ⟨2, .answered (.error thrown), ?_⟩
    simp [PartySystem.solo, requestSystem, requestStep, withIdempotency, hkey, hfind, hreserve,
      RequestPc.response]
  rcases hrun : run db.world with ⟨thrown | result, world⟩
  · refine ⟨3, .threw thrown, ?_⟩
    simp [PartySystem.solo, requestSystem, requestStep, withIdempotency, hkey, hfind, hreserve,
      hhandler, Handler.atomic, hrun, RequestPc.response]
  rcases hrefind : ({ db with world } : ApiDb World Body).find (requests p).scope
    (requests p).keyText with - | reserved
  · refine ⟨4, .returned (.ok result), ?_⟩
    simp [PartySystem.solo, requestSystem, requestStep, withIdempotency, hkey, hfind, hreserve,
      hhandler, Handler.atomic, hrun, hrefind, RequestPc.response, Except.map]
  rcases hrecord : recordResponse reserved.id { db with world } result with ⟨thrown | _, db'⟩
  · refine ⟨5, .returned (.error thrown), ?_⟩
    simp [PartySystem.solo, requestSystem, requestStep, withIdempotency, hkey, hfind, hreserve,
      hhandler, Handler.atomic, hrun, hrefind, hrecord, RequestPc.response, Except.map]
  · refine ⟨5, .returned (.ok result), ?_⟩
    simp [PartySystem.solo, requestSystem, requestStep, withIdempotency, hkey, hfind, hreserve,
      hhandler, Handler.atomic, hrun, hrefind, hrecord, RequestPc.response, Except.map]

/-! ### Runs -/

section

variable {Pid World Env Local Body : Type} [DecidableEq Pid] {sha256 : String → String}
  {requests : Pid → IdempotencyRequestInfo} {handlers : Pid → Handler World Env Local Body}
  {c c' : PartySystem.Config Pid (ApiDb World Body) (RequestPc Local Body)} {p q : Pid}
  {e : RequestDraws Env}

/-- Where a run starts: any table whose ids are distinct, and nobody has begun. -/
structure RequestsStart (c : PartySystem.Config Pid (ApiDb World Body) (RequestPc Local Body)) :
    Prop where
  ids : c.shared.ids.Nodup
  called : ∀ p, c.locals p = .called

theorem requestStep_of_fire (h : (requestSystem sha256 requests handlers).fire c p e = some c') :
    RequestStep sha256 (requests p) (handlers p) e c.shared (c.locals p) c'.shared (c'.locals p) :=
  requestStep_cases (PartySystem.step_of_fire h)

variable (sha256 requests handlers) in
/-- First layer: under a key, nobody is past the reservation of a pair that is free. -/
def takenOutline : (requestSystem sha256 requests handlers).ProofOutline where
  inv db := db.ids.Nodup
  asrt p db pc := (requests p).keyText ≠ "" → pc.entered = true →
    db.find (requests p).scope (requests p).keyText ≠ none
  own := by
    intro p e db pc db' pc' hids htaken hstep
    have hcases := requestStep_cases hstep
    refine ⟨hcases.ids_nodup hids, fun hkey hentered ↦ ?_⟩
    rcases hbefore : pc.entered with - | -
    · cases hcases with
      | unkeyed hunkeyed => exact absurd hunkeyed hkey
      | reserve hfree hid =>
        rw [ApiDb.find_append hfree, if_pos ⟨rfl, rfl⟩]
        exact Option.some_ne_none _
      | answer | clear | lose => cases hentered
      | _ => cases hbefore
    · exact hcases.taken (htaken hkey hbefore)
  stable := by
    intro p q e db pc db' pc' m _ _ _ hq hstep hkey hentered
    exact (requestStep_cases hstep).taken (hq hkey hentered)

theorem takenOutline_holds
    (h : (requestSystem sha256 requests handlers).Reachable RequestsStart c) :
    (takenOutline sha256 requests handlers).Holds c := by
  refine (takenOutline sha256 requests handlers).sound (fun c hstart ↦ ⟨hstart.ids, fun p ↦ ?_⟩) h
  rw [hstart.called p]
  rintro _ ⟨⟩

/-- A pair whose handler was entered is taken. -/
theorem taken_of_entered (h : (requestSystem sha256 requests handlers).Reachable RequestsStart c)
    (hkey : (requests p).keyText ≠ "") (hentered : (c.locals p).entered = true) :
    c.shared.find (requests p).scope (requests p).keyText ≠ none :=
  (takenOutline_holds h).2 p hkey hentered

/-! ### One request a pair -/

/-- Two requests under the same key. -/
def SameKey (info info' : IdempotencyRequestInfo) : Prop :=
  info.keyText ≠ "" ∧ info.scope = info'.scope ∧ info.keyText = info'.keyText

instance (info info' : IdempotencyRequestInfo) : Decidable (SameKey info info') :=
  inferInstanceAs (Decidable (_ ∧ _ ∧ _))

theorem SameKey.symm {info info' : IdempotencyRequestInfo} (h : SameKey info info') :
    SameKey info' info :=
  ⟨h.2.2 ▸ h.1, h.2.1.symm, h.2.2.symm⟩

/-- A request enters its handler only while nobody else has under its key. -/
theorem not_entered_of_enters
    (h : (requestSystem sha256 requests handlers).Reachable RequestsStart c)
    (hfire : (requestSystem sha256 requests handlers).fire c p e = some c')
    (hbefore : (c.locals p).entered = false) (hafter : (c'.locals p).entered = true)
    (hkey : SameKey (requests p) (requests q)) : (c.locals q).entered = false := by
  rw [← Bool.not_eq_true]
  intro hentered
  refine taken_of_entered h hkey.symm.1 hentered ?_
  rw [← hkey.2.1, ← hkey.2.2]
  exact (requestStep_of_fire hfire).free_of_enters hkey.1 hbefore hafter

/-- Second layer: no two requests enter the handler under one key. -/
theorem entered_unique (h : (requestSystem sha256 requests handlers).Reachable RequestsStart c)
    (hkey : SameKey (requests p) (requests q)) (hp : (c.locals p).entered = true)
    (hq : (c.locals q).entered = true) : p = q := by
  revert p q
  refine h.rec_inv (I := fun c ↦ ∀ {p q}, SameKey (requests p) (requests q) →
    (c.locals p).entered = true → (c.locals q).entered = true → p = q) ?_ ?_
  · intro c hstart p q _ hp
    rw [hstart.called p] at hp
    cases hp
  · intro c r e c' hc ih hfire _ p q hkey hp hq
    -- nobody else had entered when the moving party came in, nor had it while somebody else has
    have hmover : ∀ {q}, SameKey (requests r) (requests q) → (c'.locals r).entered = true →
        (c'.locals q).entered = true → q = r := by
      intro q hkey hr hq
      by_contra hqr
      rw [PartySystem.locals_of_fire hfire hqr] at hq
      rcases hbefore : (c.locals r).entered with - | -
      · have hout := not_entered_of_enters hc hfire hbefore hr hkey
        rw [hq] at hout
        cases hout
      · exact hqr (ih hkey hbefore hq).symm
    by_cases hpr : p = r
    · subst hpr
      exact (hmover hkey hp hq).symm
    · by_cases hqr : q = r
      · subst hqr
        exact hmover hkey.symm hq hp
      · rw [PartySystem.locals_of_fire hfire hpr] at hp
        rw [PartySystem.locals_of_fire hfire hqr] at hq
        exact ih hkey hp hq

/-! ### The row of a pair -/

/-- The request's pair holds a row with the request's digest and property `P`. -/
def RowHas (sha256 : String → String) (info : IdempotencyRequestInfo)
    (P : IdempotencyKey Body → Prop) (db : ApiDb World Body) : Prop :=
  ∃ row, db.find info.scope info.keyText = some row ∧ row.requestHash = info.requestHash sha256 ∧ P row

/-- What the table says about a request, by how far it has got. -/
def Follows (sha256 : String → String) (info : IdempotencyRequestInfo) (db : ApiDb World Body) :
    RequestPc Local Body → Prop
  | .called => True
  | .cleared => info.keyText ≠ ""
  | .running _ | .threw _ => info.keyText ≠ "" → RowHas sha256 info (·.responseStatus = none) db
  | .handled _ => info.keyText ≠ "" ∧ RowHas sha256 info (·.responseStatus = none) db
  | .recording id _ => info.keyText ≠ "" ∧
      RowHas sha256 info (fun row ↦ row.responseStatus = none ∧ row.id = id) db
  | .returned response => info.keyText ≠ "" → ∃ result, response = .ok result ∧
      RowHas sha256 info (fun row ↦ row.responseStatus = some 200 ∧ row.responseBody = some result) db
  | .answered (.ok body) => info.keyText ≠ "" ∧
      RowHas sha256 info (fun row ↦ row.responseStatus ≠ none ∧ row.responseBody = body) db
  | .answered (.error thrown) => info.keyText ≠ "" ∧ (thrown = keyReused ∨ thrown = alreadyProcessing)

/-- A request's own step keeps what the table says about it. -/
theorem Follows.own {info : IdempotencyRequestInfo} {handler : Handler World Env Local Body}
    {db db' : ApiDb World Body} {pc pc' : RequestPc Local Body}
    (h : Follows sha256 info db pc) (hstep : RequestStep sha256 info handler e db pc db' pc') :
    Follows sha256 info db' pc' := by
  cases hstep with
  | unkeyed hunkeyed => exact fun hkey ↦ absurd hunkeyed hkey
  | @answer existing hkey hfind =>
    rcases hanswer : answerExisting sha256 info existing with thrown | body
    · refine ⟨hkey, ?_⟩
      unfold answerExisting at hanswer
      split at hanswer
      · exact .inl (Except.error.inj hanswer).symm
      · split at hanswer
        · cases hanswer
        · exact .inr (Except.error.inj hanswer).symm
    · obtain ⟨hhash, hstatus, hbody⟩ := answerExisting_eq_ok_iff.1 hanswer
      exact ⟨hkey, existing, hfind, hhash, hstatus, hbody.symm⟩
  | clear hkey => exact hkey
  | lose => exact ⟨h, .inr rfl⟩
  | reserve hfree => exact fun _ ↦ ⟨_, find_reserved hfree, rfl, rfl⟩
  | work => exact h
  | throw => exact h
  | resolveUnkeyed hunkeyed => exact fun hkey ↦ absurd hunkeyed hkey
  | resolve hkey => exact ⟨hkey, h hkey⟩
  | lost hfree =>
    obtain ⟨-, row, hfind, -⟩ := h
    rw [hfree] at hfind
    cases hfind
  | refind hfind =>
    obtain ⟨hkey, row, hrow, hhash, hstatus⟩ := h
    obtain rfl := Option.some.inj (hfind.symm.trans hrow)
    exact ⟨hkey, _, hrow, hhash, hstatus, rfl⟩
  | @record id result =>
    obtain ⟨hkey, row, hfind, hhash, -, hid⟩ := h
    refine fun _ ↦ ⟨result, rfl, IdempotencyRepository.completed id 200 (some result) row, ?_, ?_⟩
    · rw [ApiDb.find_map_completed, hfind, Option.map_some]
    · rw [IdempotencyRepository.completed, if_pos hid]
      exact ⟨hhash, rfl, rfl⟩
  | @missing id result hnone =>
    obtain ⟨-, row, hfind, -, -, hid⟩ := h
    refine absurd (List.find?_isSome.2 ⟨row, ?_, decide_eq_true hid⟩) hnone
    exact (IdempotencyRepository.find_eq_some hfind).1

/-- The row a request is about to complete is the incomplete row of its own pair. -/
theorem row_of_recording {info : IdempotencyRequestInfo} {db : ApiDb World Body} {id : Uuid}
    {result : Body} {row : IdempotencyKey Body} (hids : db.ids.Nodup)
    (h : Follows sha256 info db (.recording id result : RequestPc Local Body))
    (hrow : row ∈ db.idempotencyKeys) (hid : row.id = id) :
    info.keyText ≠ "" ∧ row.scope = info.scope ∧ row.key = info.keyText ∧ row.responseStatus = none := by
  obtain ⟨hkey, row', hfind, -, hstatus, hid'⟩ := h
  obtain ⟨hrow', hscope, hkeyText⟩ := IdempotencyRepository.find_eq_some hfind
  obtain rfl := ApiDb.row_eq_of_id hids hrow hrow' (hid.trans hid'.symm)
  exact ⟨hkey, hscope, hkeyText, hstatus⟩

/-- A row that nobody else completes keeps its properties. -/
theorem RowHas.step {info info' : IdempotencyRequestInfo} {handler : Handler World Env Local Body}
    {P : IdempotencyKey Body → Prop} {db db' : ApiDb World Body} {m m' : RequestPc Local Body}
    (h : RowHas sha256 info P db) (hstep : RequestStep sha256 info' handler e db m db' m')
    (hother : ∀ id result row, m = .recording id result →
      db.find info.scope info.keyText = some row → P row → row.id ≠ id) :
    RowHas sha256 info P db' := by
  obtain ⟨row, hfind, hhash, hP⟩ := h
  exact ⟨row, hstep.find_of_find hfind fun id result hm ↦ hother id result row hm hfind hP, hhash, hP⟩

/-- Another request's step keeps what the table says about a request, if not both are past the
reservation of one pair. -/
theorem Follows.stable {info info' : IdempotencyRequestInfo} {handler : Handler World Env Local Body}
    {db db' : ApiDb World Body} {pc m m' : RequestPc Local Body} (hids : db.ids.Nodup)
    (h : Follows sha256 info db pc) (hmover : Follows sha256 info' db m)
    (hstep : RequestStep sha256 info' handler e db m db' m')
    (hexclusive : SameKey info' info → m.entered = true → pc.entered = false) :
    Follows sha256 info db' pc := by
  have hincomplete : ∀ {P : IdempotencyKey Body → Prop}, pc.entered = true →
      RowHas sha256 info P db → RowHas sha256 info P db' := by
    intro P hentered hrow
    refine hrow.step hstep fun id result row hm hfind _ hid ↦ ?_
    subst hm
    obtain ⟨hmem, hscope, hkeyText⟩ := IdempotencyRepository.find_eq_some hfind
    obtain ⟨hkey, hscope', hkeyText', -⟩ := row_of_recording hids hmover hmem hid
    rw [hexclusive ⟨hkey, hscope'.symm.trans hscope, hkeyText'.symm.trans hkeyText⟩ rfl] at hentered
    cases hentered
  have hcomplete : ∀ {P : IdempotencyKey Body → Prop}, (∀ row, P row → row.responseStatus ≠ none) →
      RowHas sha256 info P db → RowHas sha256 info P db' := by
    intro P hstatus hrow
    refine hrow.step hstep fun id result row hm hfind hP hid ↦ ?_
    subst hm
    have hmem := (IdempotencyRepository.find_eq_some hfind).1
    exact hstatus row hP (row_of_recording hids hmover hmem hid).2.2.2
  cases pc with
  | called => trivial
  | cleared => exact h
  | running => exact fun hkey ↦ hincomplete rfl (h hkey)
  | threw => exact fun hkey ↦ hincomplete rfl (h hkey)
  | handled => exact ⟨h.1, hincomplete rfl h.2⟩
  | recording => exact ⟨h.1, hincomplete rfl h.2⟩
  | returned =>
    intro hkey
    obtain ⟨result, hresponse, hrow⟩ := h hkey
    exact ⟨result, hresponse, hincomplete rfl hrow⟩
  | answered response =>
    rcases response with thrown | body
    · exact h
    · exact ⟨h.1, hcomplete (fun row hP ↦ hP.1) h.2⟩

/-- Third layer: the table follows every request. -/
theorem followed (h : (requestSystem sha256 requests handlers).Reachable RequestsStart c) :
    ∀ p, Follows sha256 (requests p) c.shared (c.locals p) := by
  refine h.rec_inv (I := fun c ↦ ∀ p, Follows sha256 (requests p) c.shared (c.locals p)) ?_ ?_
  · intro c hstart p
    rw [hstart.called p]
    trivial
  · intro c r e c' hc ih hfire _ p
    have hstep := requestStep_of_fire hfire
    by_cases hpr : p = r
    · subst hpr
      exact (ih p).own hstep
    · rw [PartySystem.locals_of_fire hfire hpr]
      refine (ih p).stable (takenOutline_holds hc).1 (ih r) hstep fun hkey hr ↦ ?_
      rw [← Bool.not_eq_true]
      exact fun hp ↦ hpr (entered_unique hc hkey hr hp).symm

end

end TolPlatform
