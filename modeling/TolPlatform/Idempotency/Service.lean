import TolPlatform.Shared.IdempotencyRepository

/-!
# Requests under an idempotency key

`apps/api/src/shared/idempotency.ts`. A request that carries an `Idempotency-Key` looks its
`(scope, key)` up, reserves the pair if it is free, runs its handler and records what the handler
resolved to; a request that finds the pair taken is answered from the row without its handler. Each
statement on `idempotency_keys` is a transaction of its own, so what was written before a throw stays
written.

The rest of the database is the type `World`. Handlers read and write nothing else: no service
touches `idempotency_keys`. `JSON.stringify(body ?? null)` is done by the caller, so a request
carries the text of its body; the digest is a parameter.

## Where the status of a response comes from

The recorded `responseStatus` only marks a row as complete. `withIdempotency` returns a body, and
the route sends it with a status of its own (`Route.respond`).
-/

namespace TolPlatform

/-! ### The database -/

/-- The `idempotency_keys` table and everything else. -/
structure ApiDb (World Body : Type) where
  idempotencyKeys : List (IdempotencyKey Body)
  world : World
  deriving DecidableEq, Repr

namespace ApiDb

variable {World Body : Type}

def keys : Table (ApiDb World Body) (IdempotencyKey Body) Uuid where
  rows := idempotencyKeys
  put l db := { db with idempotencyKeys := l }
  key := (·.id)

/-- The row of a pair. -/
def find (db : ApiDb World Body) (scope key : String) : Option (IdempotencyKey Body) :=
  IdempotencyRepository.find keys db scope key

/-- The ids in use. -/
def ids (db : ApiDb World Body) : List Uuid := keys.keys db

variable {db : ApiDb World Body} {world : World} {row : IdempotencyKey Body} {scope key : String}
  {id : Uuid} {status : Nat} {body : Option Body}

theorem find_append (hfree : db.find row.scope row.key = none) :
    ({ idempotencyKeys := db.idempotencyKeys ++ [row], world } : ApiDb World Body).find scope key =
      if row.scope = scope ∧ row.key = key then some row else db.find scope key :=
  IdempotencyRepository.find_append hfree

theorem ids_append :
    ({ idempotencyKeys := db.idempotencyKeys ++ [row], world } : ApiDb World Body).ids =
      db.ids ++ [row.id] :=
  List.map_append

/-- Completing a row changes no other one. -/
theorem map_completed_of_not_mem (hid : id ∉ db.ids) :
    db.idempotencyKeys.map (IdempotencyRepository.completed id status body) = db.idempotencyKeys := by
  refine (List.map_congr_left fun row hrow ↦ ?_).trans (List.map_id _)
  refine if_neg fun (hrowid : row.id = id) ↦ hid ?_
  rw [← hrowid]
  exact List.mem_map_of_mem hrow

theorem find_map_completed :
    ({ idempotencyKeys := db.idempotencyKeys.map (IdempotencyRepository.completed id status body), world } :
      ApiDb World Body).find scope key =
        (db.find scope key).map (IdempotencyRepository.completed id status body) := by
  show IdempotencyRepository.find keys (keys.put ((keys.rows db).map _) db) scope key = _
  exact IdempotencyRepository.find_complete

theorem ids_map_completed :
    ({ idempotencyKeys := db.idempotencyKeys.map (IdempotencyRepository.completed id status body), world } :
      ApiDb World Body).ids = db.ids := by
  show (db.idempotencyKeys.map _).map IdempotencyKey.id = db.idempotencyKeys.map IdempotencyKey.id
  rw [List.map_map]
  refine List.map_congr_left fun row _ ↦ ?_
  show (IdempotencyRepository.completed id status body row).id = row.id
  unfold IdempotencyRepository.completed
  split <;> rfl

/-- Rows with one id are one row. -/
theorem row_eq_of_id {row row' : IdempotencyKey Body} (h : db.ids.Nodup)
    (hrow : row ∈ db.idempotencyKeys) (hrow' : row' ∈ db.idempotencyKeys) (hid : row.id = row'.id) :
    row = row' :=
  List.inj_on_of_nodup_map h hrow hrow' hid

end ApiDb

/-! ### Requests -/

structure IdempotencyRequestInfo where
  key : Option String
  scope : String
  method : String
  path : String
  /-- `JSON.stringify(body ?? null)`. -/
  body : String
  organizationId : Option Uuid
  userId : Option Uuid
  deriving DecidableEq, Repr

/-- `info.key` as text: a missing key and an empty one are both falsy. -/
def IdempotencyRequestInfo.keyText (info : IdempotencyRequestInfo) : String := info.key.getD ""

def hashRequest (sha256 : String → String) (method path body : String) : String :=
  sha256 s!"{method} {path}\n{body}"

/-- The digest a request is compared by. -/
def IdempotencyRequestInfo.requestHash (sha256 : String → String) (info : IdempotencyRequestInfo) :
    String :=
  hashRequest sha256 info.method info.path info.body

/-- `IDEMPOTENCY_KEY_TTL_MS`. -/
def idempotencyKeyTtlMs : Int := 24 * 60 * 60 * 1000

def keyReused : Thrown :=
  conflict "Idempotency-Key was already used for a different request body — use a new key for a new logical request."

def alreadyProcessing : Thrown :=
  conflict "A request with this Idempotency-Key is already being processed." true

/-- What `reserve` is called with. -/
def IdempotencyRequestInfo.reservationInput (sha256 : String → String)
    (info : IdempotencyRequestInfo) (now : Instant) : CreateIdempotencyKeyInput where
  key := info.keyText
  scope := info.scope
  requestHash := info.requestHash sha256
  organizationId := info.organizationId
  userId := info.userId
  expiresAt := now + idempotencyKeyTtlMs

/-! ### The parts of `withIdempotency` -/

section

variable {World Body : Type} (sha256 : String → String) (id : Uuid) (now : Instant)
  (info : IdempotencyRequestInfo) (db : ApiDb World Body)

/-- The row a request reserves. -/
def reservedRow : IdempotencyKey Body :=
  IdempotencyRepository.reservation id (info.reservationInput sha256 now)

/-- What a request finding a row is answered with. -/
def answerExisting (existing : IdempotencyKey Body) : Except Thrown (Option Body) :=
  if existing.requestHash ≠ info.requestHash sha256 then .error keyReused
  else if existing.responseStatus ≠ none then .ok existing.responseBody
  else .error alreadyProcessing

/-- `reserve` inside its `try`: a unique violation means that another request won the race. -/
def reserveKey : Except Thrown Unit × ApiDb World Body :=
  match (IdempotencyRepository.reserve ApiDb.keys id (info.reservationInput sha256 now)).commit db with
  | (.ok _, db') => (.ok (), db')
  | (.error .uniqueViolation, db') => (.error alreadyProcessing, db')
  | (.error thrown, db') => (.error thrown, db')

/-- Records a result, always with status 200. -/
def recordResponse (result : Body) : Except Thrown Unit × ApiDb World Body :=
  match (IdempotencyRepository.complete ApiDb.keys id 200 (some result)).commit db with
  | (.ok _, db') => (.ok (), db')
  | (.error thrown, db') => (.error thrown, db')

/-- One request, with nobody else at work. `handler` may have written before it throws. -/
def withIdempotency (handler : World → Except Thrown Body × World) :
    Except Thrown (Option Body) × ApiDb World Body :=
  if info.keyText = "" then
    let (result, world) := handler db.world
    (result.map some, { db with world })
  else
    match db.find info.scope info.keyText with
    | some existing => (answerExisting sha256 info existing, db)
    | none =>
      match reserveKey sha256 id now info db with
      | (.error thrown, db) => (.error thrown, db)
      | (.ok _, db) =>
        match handler db.world with
        | (.error thrown, world) => (.error thrown, { db with world })
        | (.ok result, world) =>
          let db := { db with world }
          match db.find info.scope info.keyText with
          | none => (.ok (some result), db)
          | some reserved =>
            match recordResponse reserved.id db result with
            | (.error thrown, db) => (.error thrown, db)
            | (.ok _, db) => (.ok (some result), db)

end

/-! ### The routes -/

/-- The routes that serve requests under a key. -/
inductive Route
  | matchingEvaluate | opportunityCreate | opportunityReplaceVolumeSlices | lockboxSeal
  | economicsScheduleCreate | economicsRevenueEventRecord | economicsPaymentRecord
  | economicsLedgerAdjust | claimCreate | claimDispute | membershipCreate | passportCreate
  | passportUpsertFact | passportAddEvidence | capacityCreate | rfqCreate | rfqSubmitQuote
  | rfqSelectQuote
  deriving DecidableEq, Repr

def Route.scope : Route → String
  | .matchingEvaluate => "matching.evaluate"
  | .opportunityCreate => "opportunity.create"
  | .opportunityReplaceVolumeSlices => "opportunity.replace_volume_slices"
  | .lockboxSeal => "lockbox.seal"
  | .economicsScheduleCreate => "economics.schedule_create"
  | .economicsRevenueEventRecord => "economics.revenue_event_record"
  | .economicsPaymentRecord => "economics.payment_record"
  | .economicsLedgerAdjust => "economics.ledger_adjust"
  | .claimCreate => "claim.create"
  | .claimDispute => "claim.dispute"
  | .membershipCreate => "membership.create"
  | .passportCreate => "passport.create"
  | .passportUpsertFact => "passport.upsert_fact"
  | .passportAddEvidence => "passport.add_evidence"
  | .capacityCreate => "capacity.create"
  | .rfqCreate => "rfq.create"
  | .rfqSubmitQuote => "rfq.submit_quote"
  | .rfqSelectQuote => "rfq.select_quote"

/-- The status the route sends a body with. -/
def Route.successStatus : Route → Nat
  | .opportunityReplaceVolumeSlices | .passportUpsertFact => 200
  | _ => 201

/-- No two routes share a scope, so a pair belongs to one route. -/
theorem Route.scope_injective : Function.Injective Route.scope := by
  intro r r' h
  cases r <;> cases r' <;> first | rfl | exact absurd h (by decide)

/-- What the client receives on success. -/
structure Reply (Body : Type) where
  status : Nat
  body : Option Body
  deriving DecidableEq, Repr

/-- `return reply.code(…).send(body)`; a throw becomes a problem response elsewhere. -/
def Route.respond {Body : Type} (route : Route) (response : Except Thrown (Option Body)) :
    Except Thrown (Reply Body) :=
  response.map fun body ↦ { status := route.successStatus, body }

/-! ### What the parts do -/

section

variable {World Body : Type} {sha256 : String → String} {id : Uuid} {now : Instant}
  {info : IdempotencyRequestInfo} {db : ApiDb World Body} {handler : World → Except Thrown Body × World}

/-- A stored response is only ever an answer to a request with the same digest. -/
theorem answerExisting_eq_ok_iff {existing : IdempotencyKey Body} {body : Option Body} :
    answerExisting sha256 info existing = .ok body ↔
      existing.requestHash = info.requestHash sha256 ∧ existing.responseStatus ≠ none ∧
        body = existing.responseBody := by
  unfold answerExisting
  split
  · next hhash => simp [hhash]
  · next hhash =>
    rw [not_not] at hhash
    split
    · next hstatus => simp [hhash, hstatus, eq_comm]
    · next hstatus => simp [hstatus]

theorem answerExisting_of_incomplete {existing : IdempotencyKey Body}
    (hhash : existing.requestHash = info.requestHash sha256)
    (hstatus : existing.responseStatus = none) :
    answerExisting sha256 info existing = .error alreadyProcessing := by
  rw [answerExisting, if_neg (not_not.2 hhash), if_neg (not_not.2 hstatus)]

/-- `reserveKey` appends the request's row, or leaves the table alone and answers that the request is
already being processed. -/
theorem reserveKey_eq : reserveKey sha256 id now info db =
    if db.find info.scope info.keyText ≠ none ∨ id ∈ db.ids then
      (.error alreadyProcessing, db)
    else (.ok (), { db with idempotencyKeys := db.idempotencyKeys ++ [reservedRow sha256 id now info] }) := by
  rw [reserveKey, Tx.commit, IdempotencyRepository.reserve_eq]
  by_cases htaken : db.find info.scope info.keyText ≠ none ∨ id ∈ db.ids
  · rw [if_pos htaken, if_pos]
    exact htaken
  · rw [if_neg htaken, if_neg]
    · rfl
    · exact htaken

/-- `recordResponse` completes the row with its id, and throws if there is none. -/
theorem recordResponse_eq {result : Body} : recordResponse id db result =
    if (db.idempotencyKeys.find? (·.id = id)).isSome then
      (.ok (), { db with
        idempotencyKeys := db.idempotencyKeys.map (IdempotencyRepository.completed id 200 (some result)) })
    else (.error .recordNotFound, db) := by
  rw [recordResponse, Tx.commit, IdempotencyRepository.complete, Table.update]
  rcases hfind : db.idempotencyKeys.find? (·.id = id) with - | row
  · have hmissing : (ApiDb.keys.rows db).find? ((@ApiDb.keys World Body).key · = id) = none := hfind
    rw [hmissing, hfind]
    rfl
  · have hrow : (ApiDb.keys.rows db).find? ((@ApiDb.keys World Body).key · = id) = some row := hfind
    rw [hrow, hfind]
    rfl

/-! ### One request -/

/-- Without a key the handler runs unprotected. -/
theorem withIdempotency_of_unkeyed (hkey : info.keyText = "") :
    withIdempotency sha256 id now info db handler =
      ((handler db.world).1.map some, { db with world := (handler db.world).2 }) := by
  rw [withIdempotency, if_pos hkey]

/-- A request whose pair is taken is answered from the row, and nothing changes. -/
theorem withIdempotency_of_taken (hkey : info.keyText ≠ "") {existing : IdempotencyKey Body}
    (hfind : db.find info.scope info.keyText = some existing) :
    withIdempotency sha256 id now info db handler = (answerExisting sha256 info existing, db) := by
  rw [withIdempotency, if_neg hkey, hfind]

/-- What becomes of a reserved row when its handler ends. -/
def settledRow (sha256 : String → String) (id : Uuid) (now : Instant) (info : IdempotencyRequestInfo) :
    Except Thrown Body → IdempotencyKey Body
  | .error _ => reservedRow sha256 id now info
  | .ok result =>
    { (reservedRow sha256 id now info : IdempotencyKey Body) with
      responseStatus := some 200, responseBody := some result }

section

variable {result : Except Thrown Body}

@[simp] theorem settledRow_id : (settledRow sha256 id now info result).id = id := by
  cases result <;> rfl

@[simp] theorem settledRow_scope : (settledRow sha256 id now info result).scope = info.scope := by
  cases result <;> rfl

@[simp] theorem settledRow_key : (settledRow sha256 id now info result).key = info.keyText := by
  cases result <;> rfl

@[simp] theorem settledRow_organizationId :
    (settledRow sha256 id now info result).organizationId = info.organizationId := by
  cases result <;> rfl

@[simp] theorem settledRow_userId : (settledRow sha256 id now info result).userId = info.userId := by
  cases result <;> rfl

end

/-- The second look-up finds the reservation. -/
theorem find_reserved {world : World} (hfree : db.find info.scope info.keyText = none) :
    ApiDb.find ⟨db.idempotencyKeys ++ [reservedRow sha256 id now info], world⟩ info.scope info.keyText =
      some (reservedRow sha256 id now info) := by
  rw [ApiDb.find_append hfree]
  exact if_pos ⟨rfl, rfl⟩

/-- Recording the result completes the reservation and touches no earlier row. -/
theorem recordResponse_reserved {world : World} {result : Body} (hid : id ∉ db.ids) :
    recordResponse id ⟨db.idempotencyKeys ++ [reservedRow sha256 id now info], world⟩ result =
      (.ok (), ⟨db.idempotencyKeys ++ [settledRow sha256 id now info (.ok result)], world⟩) := by
  have hpresent : ((db.idempotencyKeys ++ [reservedRow sha256 id now info]).find?
      fun row : IdempotencyKey Body ↦ row.id = id).isSome :=
    List.find?_isSome.2 ⟨_, List.mem_append_right _ List.mem_cons_self, decide_eq_true rfl⟩
  rw [recordResponse_eq, if_pos hpresent, List.map_append, ApiDb.map_completed_of_not_mem hid,
    List.map_singleton, IdempotencyRepository.completed]
  refine congrArg (fun row ↦ (Except.ok (), ApiDb.mk (db.idempotencyKeys ++ [row]) world)) ?_
  exact if_pos rfl

/-- A request whose pair is free runs its handler and leaves one more row behind: complete when the
handler resolved, incomplete when it threw. -/
theorem withIdempotency_of_free (hkey : info.keyText ≠ "")
    (hfree : db.find info.scope info.keyText = none) (hid : id ∉ db.ids) :
    withIdempotency sha256 id now info db handler =
      ((handler db.world).1.map some,
        { idempotencyKeys := db.idempotencyKeys ++ [settledRow sha256 id now info (handler db.world).1],
          world := (handler db.world).2 }) := by
  have hreserve : reserveKey sha256 id now info db =
      (.ok (), { db with idempotencyKeys := db.idempotencyKeys ++ [reservedRow sha256 id now info] }) := by
    rw [reserveKey_eq, if_neg (not_or.2 ⟨not_not.2 hfree, hid⟩)]
  rw [withIdempotency, if_neg hkey, hfree]
  rcases hhandler : handler db.world with ⟨thrown | result, world⟩
  · simp only [hreserve, hhandler]
    rfl
  · simp only [hreserve, hhandler, find_reserved hfree]
    have hrecord : recordResponse (reservedRow sha256 id now info : IdempotencyKey Body).id
        ⟨db.idempotencyKeys ++ [reservedRow sha256 id now info], world⟩ result = _ :=
      recordResponse_reserved hid
    rw [hrecord]
    rfl

end

end TolPlatform
