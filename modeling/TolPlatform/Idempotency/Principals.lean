import Mathlib.Data.List.Induction
import TolPlatform.Idempotency.Service
import TolPlatform.Library.Noninterference

/-!
# Who an idempotency key belongs to

A row of `idempotency_keys` names the organization and the user it was reserved for, but a look-up
goes by `(scope, key)` and compares the digest of method, path and body only. A request whose pair
is taken is answered from the row whoever reserved it, and its handler, which is where the caller is
authorised, does not run.

Requests are served one after the other here: the server is a `Machine` over the handlers' machine.
`ReplayConfined` says that replay never crosses principals in a sequence of requests, and
`replayConfined_iff_keysPrivate` that this holds of exactly the sequences in which no two principals
use one pair.
-/

namespace TolPlatform

/-! ### Principals and sequences of requests -/

/-- On whose behalf a request is made. -/
structure Principal where
  organizationId : Option Uuid
  userId : Option Uuid
  deriving DecidableEq, Repr

def IdempotencyRequestInfo.principal (info : IdempotencyRequestInfo) : Principal :=
  { organizationId := info.organizationId, userId := info.userId }

def IdempotencyKey.principal {Body : Type} (row : IdempotencyKey Body) : Principal :=
  { organizationId := row.organizationId, userId := row.userId }

/-- A request with what it draws if it reserves its key: `newId()` and the clock. -/
structure Arrival where
  info : IdempotencyRequestInfo
  id : Uuid
  now : Instant
  deriving DecidableEq, Repr

namespace Arrival

abbrev principal (r : Arrival) : Principal := r.info.principal

/-- Two requests that name the same pair. -/
def SamePair (r r' : Arrival) : Prop :=
  r.info.keyText ≠ "" ∧ r.info.scope = r'.info.scope ∧ r.info.keyText = r'.info.keyText

end Arrival

/-- No pair is used by two principals. -/
def KeysPrivate (arrivals : List Arrival) : Prop :=
  arrivals.Pairwise fun r r' ↦ r.SamePair r' → r.principal = r'.principal

instance (r r' : Arrival) : Decidable (r.SamePair r') :=
  inferInstanceAs (Decidable (_ ∧ _ ∧ _))

instance (arrivals : List Arrival) : Decidable (KeysPrivate arrivals) :=
  inferInstanceAs (Decidable (List.Pairwise _ arrivals))

section

variable {World Body : Type} (sha256 : String → String)
  (handlers : Machine Arrival (Except Thrown Body) World)

/-- `withIdempotency` around every handler. -/
def server : Machine Arrival (Except Thrown (Option Body)) (ApiDb World Body) where
  step r db := withIdempotency sha256 r.id r.now r.info db (handlers.step r)

/-- The handlers, with a log of what each request's own handler ended with. -/
def logged : Machine Arrival (Except Thrown Body) (World × List (Arrival × Except Thrown Body)) where
  step r w :=
    let (result, world) := handlers.step r w.1
    (result, (world, w.2 ++ [(r, result)]))

end

/-- **Replay stays within a principal.** -/
structure ReplayConfined (sha256 : String → String) (arrivals : List Arrival) : Prop where
  /-- Handlers that keep `hidden` from interfering with `caller` still do so behind the keys: without
  `hidden`'s requests `caller` receives the same responses. -/
  noninterference : ∀ {World Body : Type} (handlers : Machine Arrival (Except Thrown Body) World)
    (world : World) {caller hidden : Principal}, caller ≠ hidden →
      handlers.Noninterfering (·.principal = caller) (·.principal = hidden) world →
        (server sha256 handlers).view (·.principal = caller) ⟨[], world⟩ arrivals =
          (server sha256 handlers).view (·.principal = caller) ⟨[], world⟩
            (Machine.purge (·.principal = hidden) arrivals)
  /-- A success is what a handler run for the same principal resolved to. -/
  authorised : ∀ {World Body : Type} (handlers : Machine Arrival (Except Thrown Body) World)
    (world : World) {before later : List Arrival} {r : Arrival} {body : Option Body}
    {db : ApiDb (World × List (Arrival × Except Thrown Body)) Body},
      arrivals = before ++ r :: later →
        (server sha256 (logged handlers)).step r
            ((server sha256 (logged handlers)).after ⟨[], (world, [])⟩ before) = (.ok body, db) →
          ∃ own result, (own, .ok result) ∈ db.world.2 ∧ own.principal = r.principal ∧
            body = some result

/-! ### What one request does to the table -/

section

variable {World Body : Type} {sha256 : String → String}
  {handlers : Machine Arrival (Except Thrown Body) World} {db : ApiDb World Body} {r : Arrival}
  {scope key : String} {row : IdempotencyKey Body}

theorem server_step : (server sha256 handlers).step r db =
    withIdempotency sha256 r.id r.now r.info db (handlers.step r) := rfl

/-- The three ways a request is served. -/
inductive Served (sha256 : String → String) (handlers : Machine Arrival (Except Thrown Body) World)
    (r : Arrival) (db : ApiDb World Body) : Except Thrown (Option Body) × ApiDb World Body → Prop
  | unkeyed (hkey : r.info.keyText = "") : Served sha256 handlers r db
      ((handlers.step r db.world).1.map some, { db with world := (handlers.step r db.world).2 })
  | taken (hkey : r.info.keyText ≠ "") {existing : IdempotencyKey Body}
      (hfind : db.find r.info.scope r.info.keyText = some existing) : Served sha256 handlers r db
      (answerExisting sha256 r.info existing, db)
  | free (hkey : r.info.keyText ≠ "") (hfree : db.find r.info.scope r.info.keyText = none) :
      Served sha256 handlers r db
        ((handlers.step r db.world).1.map some,
          { idempotencyKeys := db.idempotencyKeys ++
              [settledRow sha256 r.id r.now r.info (handlers.step r db.world).1],
            world := (handlers.step r db.world).2 })

variable (sha256 handlers) in
theorem served_step (hid : r.id ∉ db.ids) :
    Served sha256 handlers r db ((server sha256 handlers).step r db) := by
  rw [server_step]
  by_cases hkey : r.info.keyText = ""
  · rw [withIdempotency_of_unkeyed hkey]
    exact .unkeyed hkey
  · rcases hfind : db.find r.info.scope r.info.keyText with - | existing
    · rw [withIdempotency_of_free hkey hfind hid]
      exact .free hkey hfind
    · rw [withIdempotency_of_taken hkey hfind]
      exact .taken hkey hfind

theorem settledRow_principal {result : Except Thrown Body} :
    (settledRow sha256 r.id r.now r.info result).principal = r.principal := by
  rw [IdempotencyKey.principal, settledRow_organizationId, settledRow_userId]
  rfl

/-- A new row is found under the request's own pair; every other look-up answers as before. -/
theorem find_settled {result : Except Thrown Body} {world : World}
    (hfree : db.find r.info.scope r.info.keyText = none) :
    ApiDb.find ⟨db.idempotencyKeys ++ [settledRow sha256 r.id r.now r.info result], world⟩ scope key =
      if r.info.scope = scope ∧ r.info.keyText = key then
        some (settledRow sha256 r.id r.now r.info result)
      else db.find scope key := by
  rw [ApiDb.find_append, settledRow_scope, settledRow_key]
  rwa [settledRow_scope, settledRow_key]

/-- A row found after a request was found before it, or is the request's own. -/
theorem find_step (hid : r.id ∉ db.ids)
    (h : ((server sha256 handlers).step r db).2.find scope key = some row) :
    db.find scope key = some row ∨ r.info.keyText ≠ "" ∧ r.info.scope = scope ∧
      r.info.keyText = key ∧ row.principal = r.principal := by
  generalize hserved : (server sha256 handlers).step r db = served at h
  have hcases := served_step sha256 handlers hid
  rw [hserved] at hcases
  cases hcases with
  | unkeyed => exact .inl h
  | taken => exact .inl h
  | free hkey hfree =>
    rw [find_settled hfree] at h
    split at h
    · next hpair =>
      refine .inr ⟨hkey, hpair.1, hpair.2, ?_⟩
      rw [← Option.some.inj h, settledRow_principal]
    · exact .inl h

/-- A row that is there stays as it is. -/
theorem find_step_of_find (hid : r.id ∉ db.ids) (h : db.find scope key = some row) :
    ((server sha256 handlers).step r db).2.find scope key = some row := by
  generalize hserved : (server sha256 handlers).step r db = served
  have hcases := served_step sha256 handlers hid
  rw [hserved] at hcases
  cases hcases with
  | unkeyed => exact h
  | taken => exact h
  | free hkey hfree =>
    rw [find_settled hfree, if_neg, h]
    rintro ⟨rfl, rfl⟩
    rw [hfree] at h
    cases h

/-- After a keyed request its pair is taken. -/
theorem exists_find_step (hid : r.id ∉ db.ids) (hkey : r.info.keyText ≠ "") :
    ∃ row, ((server sha256 handlers).step r db).2.find r.info.scope r.info.keyText = some row := by
  generalize hserved : (server sha256 handlers).step r db = served
  have hcases := served_step sha256 handlers hid
  rw [hserved] at hcases
  cases hcases with
  | unkeyed hkey' => exact absurd hkey' hkey
  | taken _ hfind => exact ⟨_, hfind⟩
  | free _ hfree => exact ⟨_, by rw [find_settled hfree, if_pos ⟨rfl, rfl⟩]⟩

theorem mem_ids_step (hid : r.id ∉ db.ids) {id : Uuid}
    (h : id ∈ ((server sha256 handlers).step r db).2.ids) : id ∈ db.ids ∨ id = r.id := by
  generalize hserved : (server sha256 handlers).step r db = served at h
  have hcases := served_step sha256 handlers hid
  rw [hserved] at hcases
  cases hcases with
  | unkeyed => exact .inl h
  | taken => exact .inl h
  | free =>
    rw [ApiDb.ids_append, List.mem_append, List.mem_singleton, settledRow_id] at h
    exact h

/-! ### Sequences -/

/-- The requests to come draw ids that are new and pairwise distinct. -/
structure FreshIds (db : ApiDb World Body) (arrivals : List Arrival) : Prop where
  new : ∀ r ∈ arrivals, r.id ∉ db.ids
  nodup : (arrivals.map (·.id)).Nodup

variable {arrivals : List Arrival}

theorem FreshIds.head (h : FreshIds db (r :: arrivals)) : r.id ∉ db.ids := h.new r List.mem_cons_self

theorem FreshIds.tail (h : FreshIds db (r :: arrivals)) : FreshIds db arrivals where
  new := fun r' hr' ↦ h.new r' (List.mem_cons_of_mem _ hr')
  nodup := (List.nodup_cons.1 h.nodup).2

theorem FreshIds.init {later : List Arrival} (h : FreshIds db (arrivals ++ later)) :
    FreshIds db arrivals where
  new := fun r hr ↦ h.new r (List.mem_append_left _ hr)
  nodup := h.nodup.sublist ((List.sublist_append_left _ _).map _)

theorem FreshIds.step (h : FreshIds db (r :: arrivals)) :
    FreshIds ((server sha256 handlers).step r db).2 arrivals where
  new := by
    intro r' hr' hmem
    rcases mem_ids_step h.head hmem with hmem | hid
    · exact h.tail.new r' hr' hmem
    · refine (List.nodup_cons.1 h.nodup).1 ?_
      show r.id ∈ _
      rw [← hid]
      exact List.mem_map_of_mem hr'
  nodup := h.tail.nodup

theorem FreshIds.after {later : List Arrival} (h : FreshIds db (arrivals ++ later)) :
    FreshIds ((server sha256 handlers).after db arrivals) later := by
  induction arrivals generalizing db with
  | nil => exact h
  | cons r arrivals ih => exact ih h.step

/-- Every row of a run was there at the start or was reserved for one of its requests. -/
theorem find_after (hfresh : FreshIds db arrivals)
    (h : ((server sha256 handlers).after db arrivals).find scope key = some row) :
    db.find scope key = some row ∨ ∃ r ∈ arrivals, r.info.keyText ≠ "" ∧ r.info.scope = scope ∧
      r.info.keyText = key ∧ row.principal = r.principal := by
  induction arrivals generalizing db with
  | nil => exact .inl h
  | cons r arrivals ih =>
    rcases ih hfresh.step h with hfind | ⟨r', hr', hrow⟩
    · rcases find_step hfresh.head hfind with hfind | hrow
      · exact .inl hfind
      · exact .inr ⟨r, List.mem_cons_self, hrow⟩
    · exact .inr ⟨r', List.mem_cons_of_mem _ hr', hrow⟩

theorem find_after_of_find (hfresh : FreshIds db arrivals) (h : db.find scope key = some row) :
    ((server sha256 handlers).after db arrivals).find scope key = some row := by
  induction arrivals generalizing db with
  | nil => exact h
  | cons r arrivals ih => exact ih hfresh.step (find_step_of_find hfresh.head h)

/-- The pair of a keyed request is taken from then on. -/
theorem exists_find_after (hfresh : FreshIds db arrivals) (hr : r ∈ arrivals)
    (hkey : r.info.keyText ≠ "") :
    ∃ row, ((server sha256 handlers).after db arrivals).find r.info.scope r.info.keyText =
      some row := by
  induction arrivals generalizing db with
  | nil => cases hr
  | cons r' arrivals ih =>
    rcases List.mem_cons.1 hr with rfl | hr
    · obtain ⟨row, hrow⟩ := exists_find_step hfresh.head hkey
      refine ⟨row, ?_⟩
      rw [Machine.after]
      exact find_after_of_find hfresh.step hrow
    · exact ih hfresh.step hr

/-! ### Private keys -/

/-- A run in which every pair stays with one principal: the requests to come agree with one another
and with the rows that are there. -/
structure OwnKeys (db : ApiDb World Body) (arrivals : List Arrival) : Prop where
  fresh : FreshIds db arrivals
  keysPrivate : KeysPrivate arrivals
  own : ∀ r ∈ arrivals, r.info.keyText ≠ "" → ∀ row,
    db.find r.info.scope r.info.keyText = some row → row.principal = r.principal

theorem OwnKeys.step (h : OwnKeys db (r :: arrivals)) :
    OwnKeys ((server sha256 handlers).step r db).2 arrivals where
  fresh := h.fresh.step
  keysPrivate := (List.pairwise_cons.1 h.keysPrivate).2
  own := by
    intro r' hr' hkey row hfind
    rcases find_step h.fresh.head hfind with hfind | ⟨hkeyed, hscope, hkeyText, hprincipal⟩
    · exact h.own r' (List.mem_cons_of_mem _ hr') hkey row hfind
    · rw [hprincipal]
      exact (List.pairwise_cons.1 h.keysPrivate).1 r' hr' ⟨hkeyed, hscope, hkeyText⟩

theorem OwnKeys.after {later : List Arrival} (h : OwnKeys db (arrivals ++ later)) :
    OwnKeys ((server sha256 handlers).after db arrivals) later := by
  induction arrivals generalizing db with
  | nil => exact h
  | cons r arrivals ih => exact ih h.step

theorem ownKeys_of_keysPrivate {world : World} (hids : (arrivals.map (·.id)).Nodup)
    (h : KeysPrivate arrivals) : OwnKeys (⟨[], world⟩ : ApiDb World Body) arrivals where
  fresh := ⟨fun _ _ ↦ List.not_mem_nil, hids⟩
  keysPrivate := h
  own := fun _ _ _ _ hfind ↦ by cases hfind

/-! ### Removing a principal's requests -/

/-- How the table relates to the table of the run without `hidden`'s requests: rows of `hidden` are
missing, and `caller`'s own rows are the same. A third party's rows may hold other results. -/
structure RowsUnwind (caller hidden : Principal) (db db' : ApiDb World Body) : Prop where
  kept : ∀ {scope key row}, db.find scope key = some row → row.principal ≠ hidden →
    ∃ row', db'.find scope key = some row' ∧ (row.principal = caller → row' = row)
  missing : ∀ {scope key}, (∀ row, db.find scope key = some row → row.principal = hidden) →
    db'.find scope key = none

/-- How the two runs relate: besides, `caller` cannot tell the handlers' worlds apart. -/
structure Unwinds (handlers : Machine Arrival (Except Thrown Body) World) (caller hidden : Principal)
    (db db' : ApiDb World Body) (arrivals : List Arrival) : Prop where
  ownKeys : OwnKeys db arrivals
  fresh : FreshIds db' arrivals
  world : handlers.Indistinct (·.principal = caller) (·.principal = hidden) db.world db'.world
  rows : RowsUnwind caller hidden db db'

variable {caller hidden : Principal} {db' : ApiDb World Body}

theorem RowsUnwind.find_eq_none (h : RowsUnwind caller hidden db db')
    (hfree : db.find scope key = none) : db'.find scope key = none :=
  h.missing fun row hrow ↦ by rw [hfree] at hrow; cases hrow

/-- Both runs reserve and settle the row of a request that is not `hidden`'s. -/
theorem RowsUnwind.settle (h : RowsUnwind caller hidden db db') (hr : r.principal ≠ hidden)
    (hfree : db.find r.info.scope r.info.keyText = none) {result result' : Except Thrown Body}
    {world world' : World} (hresult : r.principal = caller → result = result') :
    RowsUnwind caller hidden
      ⟨db.idempotencyKeys ++ [settledRow sha256 r.id r.now r.info result], world⟩
      ⟨db'.idempotencyKeys ++ [settledRow sha256 r.id r.now r.info result'], world'⟩ where
  kept := by
    intro scope key row hrow hprincipal
    rw [find_settled hfree] at hrow
    rw [find_settled (h.find_eq_none hfree)]
    split at hrow
    · next hpair =>
      refine ⟨_, if_pos hpair, fun hcaller ↦ ?_⟩
      rw [← Option.some.inj hrow, settledRow_principal] at hcaller
      rw [← Option.some.inj hrow, hresult hcaller]
    · next hpair =>
      rw [if_neg hpair]
      exact h.kept hrow hprincipal
  missing := by
    intro scope key hmissing
    rw [find_settled hfree] at hmissing
    rw [find_settled (h.find_eq_none hfree)]
    by_cases hpair : r.info.scope = scope ∧ r.info.keyText = key
    · rw [if_pos hpair] at hmissing
      exact absurd (settledRow_principal.symm.trans (hmissing _ rfl)) hr
    · rw [if_neg hpair] at hmissing ⊢
      exact h.missing hmissing

/-- `hidden`'s request moves only the run it is in. -/
theorem Unwinds.step_hidden (hne : caller ≠ hidden)
    (h : Unwinds handlers caller hidden db db' (r :: arrivals)) (hr : r.principal = hidden) :
    Unwinds handlers caller hidden ((server sha256 handlers).step r db).2 db' arrivals := by
  have hid := h.ownKeys.fresh.head
  have hsees : ¬ r.principal = caller := fun hcaller ↦ hne (hcaller.symm.trans hr)
  refine ⟨h.ownKeys.step, h.fresh.tail, ?_, ⟨?_, ?_⟩⟩
  · generalize hserved : (server sha256 handlers).step r db = served
    have hcases := served_step sha256 handlers hid
    rw [hserved] at hcases
    cases hcases with
    | unkeyed => exact h.world.hidden hr hsees
    | taken => exact h.world
    | free => exact h.world.hidden hr hsees
  · intro scope key row hfind hrow
    rcases find_step hid hfind with hfind | ⟨-, -, -, hprincipal⟩
    · exact h.rows.kept hfind hrow
    · exact absurd (hprincipal.trans hr) hrow
  · intro scope key hmissing
    exact h.rows.missing fun row hfind ↦ hmissing row (find_step_of_find hid hfind)

/-- Anybody else's request is served in both runs in the same way. -/
theorem Unwinds.step_shown (h : Unwinds handlers caller hidden db db' (r :: arrivals))
    (hr : r.principal ≠ hidden) :
    Unwinds handlers caller hidden ((server sha256 handlers).step r db).2
        ((server sha256 handlers).step r db').2 arrivals ∧
      (r.principal = caller →
        ((server sha256 handlers).step r db).1 = ((server sha256 handlers).step r db').1) := by
  have hown : OwnKeys ((server sha256 handlers).step r db).2 arrivals := h.ownKeys.step
  have hfresh : FreshIds ((server sha256 handlers).step r db').2 arrivals := h.fresh.step
  have hanswer := h.world.answer hr
  by_cases hkey : r.info.keyText = ""
  · have hstep : (server sha256 handlers).step r db = _ := withIdempotency_of_unkeyed hkey
    have hstep' : (server sha256 handlers).step r db' = _ := withIdempotency_of_unkeyed hkey
    rw [hstep] at hown ⊢
    rw [hstep'] at hfresh ⊢
    refine ⟨⟨hown, hfresh, h.world.shown hr, ⟨h.rows.kept, h.rows.missing⟩⟩, fun hcaller ↦ ?_⟩
    rw [hanswer hcaller]
  · rcases hfind : db.find r.info.scope r.info.keyText with - | existing
    · have hstep : (server sha256 handlers).step r db = _ :=
        withIdempotency_of_free hkey hfind h.ownKeys.fresh.head
      have hstep' : (server sha256 handlers).step r db' = _ :=
        withIdempotency_of_free hkey (h.rows.find_eq_none hfind) h.fresh.head
      rw [hstep] at hown ⊢
      rw [hstep'] at hfresh ⊢
      refine ⟨⟨hown, hfresh, h.world.shown hr, h.rows.settle hr hfind hanswer⟩, fun hcaller ↦ ?_⟩
      rw [hanswer hcaller]
    · -- the row is the request's own, so it is there without `hidden` as well
      have hprincipal := h.ownKeys.own r List.mem_cons_self hkey existing hfind
      obtain ⟨existing', hfind', hsame⟩ := h.rows.kept hfind (hprincipal ▸ hr)
      have hstep : (server sha256 handlers).step r db = _ := withIdempotency_of_taken hkey hfind
      have hstep' : (server sha256 handlers).step r db' = _ := withIdempotency_of_taken hkey hfind'
      rw [hstep] at hown ⊢
      rw [hstep'] at hfresh ⊢
      refine ⟨⟨hown, hfresh, h.world, h.rows⟩, fun hcaller ↦ ?_⟩
      rw [hsame (hprincipal.trans hcaller)]

/-- With private keys, `caller`'s view does not depend on `hidden`'s requests. -/
theorem view_eq_of_keysPrivate {world : World} (hids : (arrivals.map (·.id)).Nodup)
    (hprivate : KeysPrivate arrivals) (hne : caller ≠ hidden)
    (hhandlers : handlers.Noninterfering (·.principal = caller) (·.principal = hidden) world) :
    (server sha256 handlers).view (·.principal = caller) ⟨[], world⟩ arrivals =
      (server sha256 handlers).view (·.principal = caller) ⟨[], world⟩
        (Machine.purge (·.principal = hidden) arrivals) := by
  have hown : OwnKeys (⟨[], world⟩ : ApiDb World Body) arrivals := ownKeys_of_keysPrivate hids hprivate
  refine Machine.view_eq_of_unwinding (Unwinds handlers caller hidden)
    (fun r hcaller hhidden ↦ hne (hcaller.symm.trans hhidden))
    (fun h hr ↦ h.step_hidden hne hr) (fun h hr ↦ h.step_shown hr)
    ⟨hown, hown.fresh, hhandlers, ⟨?_, fun _ ↦ rfl⟩⟩
  intro scope key row hfind
  cases hfind

/-! ### Whose handler a success comes from -/

/-- Every complete row holds what a handler run for its principal resolved to. -/
def RowsOwn (ran : Arrival → Except Thrown Body → Prop) (db : ApiDb World Body) : Prop :=
  ∀ row ∈ db.idempotencyKeys, row.responseStatus ≠ none → ∃ own result, ran own (.ok result) ∧
    own.principal = row.principal ∧ row.responseBody = some result

theorem RowsOwn.mono {ran ran' : Arrival → Except Thrown Body → Prop} (h : RowsOwn ran db)
    (hran : ∀ {own result}, ran own result → ran' own result) : RowsOwn ran' db := by
  intro row hrow hstatus
  obtain ⟨own, result, hown, hrest⟩ := h row hrow hstatus
  exact ⟨own, result, hran hown, hrest⟩

/-- A request keeps that up if the handler run behind a new row counts. -/
theorem RowsOwn.step {ran : Arrival → Except Thrown Body → Prop} (h : RowsOwn ran db)
    (hid : r.id ∉ db.ids)
    (hran : r.info.keyText ≠ "" → db.find r.info.scope r.info.keyText = none →
      ran r (handlers.step r db.world).1) :
    RowsOwn ran ((server sha256 handlers).step r db).2 := by
  generalize hserved : (server sha256 handlers).step r db = served
  have hcases := served_step sha256 handlers hid
  rw [hserved] at hcases
  cases hcases with
  | unkeyed => exact h
  | taken => exact h
  | free hkey hfree =>
    intro row hrow hstatus
    rcases List.mem_append.1 hrow with hrow | hrow
    · exact h row hrow hstatus
    · obtain rfl := List.mem_singleton.1 hrow
      rcases hresult : (handlers.step r db.world).1 with thrown | result
      · rw [hresult] at hstatus
        exact absurd rfl hstatus
      · exact ⟨r, result, hresult ▸ hran hkey hfree, settledRow_principal.symm, rfl⟩

section

variable {db : ApiDb (World × List (Arrival × Except Thrown Body)) Body}

/-- The log only grows. -/
theorem mem_log_step (hid : r.id ∉ db.ids) {entry : Arrival × Except Thrown Body}
    (h : entry ∈ db.world.2) :
    entry ∈ ((server sha256 (logged handlers)).step r db).2.world.2 := by
  generalize hserved : (server sha256 (logged handlers)).step r db = served
  have hcases := served_step sha256 (logged handlers) hid
  rw [hserved] at hcases
  cases hcases with
  | unkeyed => exact List.mem_append_left _ h
  | taken => exact h
  | free => exact List.mem_append_left _ h

theorem RowsOwn.step_logged (h : RowsOwn (fun own result ↦ (own, result) ∈ db.world.2) db)
    (hid : r.id ∉ db.ids) :
    RowsOwn (fun own result ↦ (own, result) ∈ ((server sha256 (logged handlers)).step r db).2.world.2)
      ((server sha256 (logged handlers)).step r db).2 := by
  refine (h.mono fun hentry ↦ mem_log_step hid hentry).step hid fun hkey hfree ↦ ?_
  have hstep : (server sha256 (logged handlers)).step r db = _ :=
    withIdempotency_of_free hkey hfree hid
  rw [hstep]
  exact List.mem_append_right _ List.mem_cons_self

theorem RowsOwn.after_logged (h : RowsOwn (fun own result ↦ (own, result) ∈ db.world.2) db)
    (hfresh : FreshIds db arrivals) :
    RowsOwn (fun own result ↦
        (own, result) ∈ ((server sha256 (logged handlers)).after db arrivals).world.2)
      ((server sha256 (logged handlers)).after db arrivals) := by
  induction arrivals generalizing db with
  | nil => exact h
  | cons r arrivals ih => exact ih (h.step_logged hfresh.head) hfresh.step

/-- A request that succeeds gets a result of its principal's own handler. -/
theorem own_of_step_eq_ok (hown : OwnKeys db (r :: arrivals))
    (hrows : RowsOwn (fun own result ↦ (own, result) ∈ db.world.2) db) {body : Option Body}
    {db' : ApiDb (World × List (Arrival × Except Thrown Body)) Body}
    (h : (server sha256 (logged handlers)).step r db = (.ok body, db')) :
    ∃ own result, (own, .ok result) ∈ db'.world.2 ∧ own.principal = r.principal ∧
      body = some result := by
  -- a request that ran its own handler has logged what that resolved to
  have hself : ∀ {result : Except Thrown Body}, result.map some = .ok body →
      (r, result) ∈ db'.world.2 → ∃ own result, (own, .ok result) ∈ db'.world.2 ∧
        own.principal = r.principal ∧ body = some result := by
    intro result hbody hlogged
    rcases result with thrown | result
    · cases hbody
    · exact ⟨r, result, hlogged, rfl, (Except.ok.inj hbody).symm⟩
  have hcases := served_step sha256 (logged handlers) hown.fresh.head
  generalize hanswer : (Except.ok body : Except Thrown (Option Body)) = answer at h hself
  rw [h] at hcases
  cases hcases with
  | unkeyed => exact hself rfl (List.mem_append_right _ List.mem_cons_self)
  | free => exact hself rfl (List.mem_append_right _ List.mem_cons_self)
  | @taken hkey existing hfind =>
    obtain ⟨-, hstatus, hbody⟩ := answerExisting_eq_ok_iff.1 hanswer.symm
    obtain ⟨own, result, hlogged, hprincipal, hstored⟩ :=
      hrows existing (IdempotencyRepository.find_eq_some hfind).1 hstatus
    refine ⟨own, result, hlogged, ?_, hbody.trans hstored⟩
    exact hprincipal.trans (hown.own r List.mem_cons_self hkey existing hfind)

end

end

/-! ### Two principals on one pair -/

/-- A list that breaks a pairwise relation has a first element that does. -/
theorem exists_first_of_not_pairwise {α : Type*} {R : α → α → Prop} {l : List α}
    (h : ¬ l.Pairwise R) : ∃ before a later, l = before ++ a :: later ∧ before.Pairwise R ∧
      ∃ b ∈ before, ¬ R b a := by
  induction l using List.reverseRecOn with
  | nil => exact absurd List.Pairwise.nil h
  | append_singleton l a ih =>
    by_cases hl : l.Pairwise R
    · refine ⟨l, a, [], rfl, hl, ?_⟩
      by_contra hnone
      push Not at hnone
      refine h (List.pairwise_append.2 ⟨hl, List.pairwise_singleton R a, fun b hb c hc ↦ ?_⟩)
      rw [List.mem_singleton.1 hc]
      exact hnone b hb
    · obtain ⟨before, c, later, rfl, hbefore, hclash⟩ := ih hl
      exact ⟨before, c, later ++ [a], by simp, hbefore, hclash⟩

theorem KeysPrivate.principal_eq {arrivals : List Arrival} {r r' : Arrival}
    (h : KeysPrivate arrivals) (hr : r ∈ arrivals) (hr' : r' ∈ arrivals) (hpair : r.SamePair r') :
    r.principal = r'.principal := by
  have hflip : arrivals.Pairwise fun r r' ↦ r'.SamePair r → r'.principal = r.principal :=
    List.Pairwise.imp (fun {r r'} hsame (hpair : r'.SamePair r) ↦
      (hsame ⟨hpair.2.2 ▸ hpair.1, hpair.2.1.symm, hpair.2.2.symm⟩).symm) h
  exact List.Pairwise.forall_of_forall_of_flip (fun _ _ _ ↦ rfl) h hflip hr hr' hpair

/-- Handlers that resolve to the caller. -/
def echo : Machine Arrival (Except Thrown Principal) Unit where
  step r _ := (.ok r.principal, ())

theorem echo_noninterfering {caller hidden : Principal} (hne : caller ≠ hidden) :
    echo.Noninterfering (·.principal = caller) (·.principal = hidden) () :=
  fun _ ↦ Machine.view_eq_of_unwinding (fun _ _ _ ↦ True)
    (fun _ hcaller hhidden ↦ hne (hcaller.symm.trans hhidden)) (fun _ _ ↦ trivial)
    (fun _ _ ↦ ⟨trivial, fun _ ↦ rfl⟩) trivial

section

variable {sha256 : String → String} {before later : List Arrival} {r r' : Arrival}

/-- Behind the keys, what they resolve to is recorded as the caller that reserved the row. -/
theorem rowsOwn_after_echo {db : ApiDb Unit Principal} {arrivals : List Arrival}
    (hrows : RowsOwn (fun own result ↦ result = .ok own.principal) db)
    (hfresh : FreshIds db arrivals) :
    RowsOwn (fun own result ↦ result = .ok own.principal)
      ((server sha256 echo).after db arrivals) := by
  induction arrivals generalizing db with
  | nil => exact hrows
  | cons r arrivals ih => exact ih (hrows.step hfresh.head fun _ _ ↦ rfl) hfresh.step

/-- The first principal to use a pair answers for the second. -/
theorem echo_answer_of_clash (hfresh : FreshIds (⟨[], ()⟩ : ApiDb Unit Principal) before)
    (hbefore : KeysPrivate before) (hr : r ∈ before) (hpair : r.SamePair r')
    (hne : r.principal ≠ r'.principal) :
    ((server sha256 echo).step r' ((server sha256 echo).after ⟨[], ()⟩ before)).1 ≠
      .ok (some r'.principal) := by
  obtain ⟨row, hfind⟩ : ∃ row, ((server sha256 echo).after ⟨[], ()⟩ before).find r.info.scope
      r.info.keyText = some row := exists_find_after hfresh hr hpair.1
  have hprincipal : row.principal = r.principal := by
    rcases find_after hfresh hfind with hfind | ⟨own, hown, hkey, hscope, hkeyText, hrow⟩
    · cases hfind
    · exact hrow.trans (hbefore.principal_eq hown hr ⟨hkey, hscope, hkeyText⟩)
  rw [hpair.2.1, hpair.2.2] at hfind
  rw [server_step, withIdempotency_of_taken (hpair.2.2 ▸ hpair.1) hfind]
  intro hanswer
  obtain ⟨-, hstatus, hbody⟩ := answerExisting_eq_ok_iff.1 hanswer
  obtain ⟨own, result, hresult, howner, hstored⟩ :=
    rowsOwn_after_echo (fun _ hrow ↦ by cases hrow) hfresh row
      (IdempotencyRepository.find_eq_some hfind).1 hstatus
  rw [hstored, Except.ok.inj hresult, howner, hprincipal] at hbody
  exact hne (Option.some.inj hbody).symm

/-- Without the first one the second is answered by its own handler. -/
theorem echo_answer_of_purged (hfresh : FreshIds (⟨[], ()⟩ : ApiDb Unit Principal) (before ++ [r']))
    (hbefore : KeysPrivate before) (hr : r ∈ before) (hpair : r.SamePair r') :
    ((server sha256 echo).step r' ((server sha256 echo).after ⟨[], ()⟩
      (Machine.purge (·.principal = r.principal) before))).1 = .ok (some r'.principal) := by
  have hpurged : FreshIds (⟨[], ()⟩ : ApiDb Unit Principal)
      (Machine.purge (·.principal = r.principal) before ++ [r']) := by
    refine ⟨fun _ _ ↦ List.not_mem_nil, ?_⟩
    exact hfresh.nodup.sublist ((List.filter_sublist.append_right _).map _)
  have hfree : ((server sha256 echo).after ⟨[], ()⟩
      (Machine.purge (·.principal = r.principal) before)).find r'.info.scope r'.info.keyText = none := by
    rw [Option.eq_none_iff_forall_ne_some]
    intro row hfind
    rcases find_after hpurged.init hfind with hfind | ⟨own, hown, hkey, hscope, hkeyText, -⟩
    · cases hfind
    · obtain ⟨hown, hother⟩ := List.mem_filter.1 hown
      refine of_decide_eq_true hother (hbefore.principal_eq hown hr ⟨hkey, ?_, ?_⟩)
      · rw [hscope, hpair.2.1]
      · rw [hkeyText, hpair.2.2]
  rw [server_step, withIdempotency_of_free (hpair.2.2 ▸ hpair.1) hfree hpurged.after.head]
  rfl

end

/-! ### The condition -/

/-- **Replay stays within a principal exactly when no pair is used by two.** -/
theorem replayConfined_iff_keysPrivate {sha256 : String → String} {arrivals : List Arrival}
    (hids : (arrivals.map (·.id)).Nodup) :
    ReplayConfined sha256 arrivals ↔ KeysPrivate arrivals := by
  constructor
  · intro h
    by_contra hnot
    obtain ⟨before, r', later, rfl, hbefore, r, hr, hclash⟩ := exists_first_of_not_pairwise hnot
    obtain ⟨hpair, hne⟩ := Classical.not_imp.1 hclash
    have hfresh : FreshIds (⟨[], ()⟩ : ApiDb Unit Principal) ((before ++ [r']) ++ later) :=
      ⟨fun _ _ ↦ List.not_mem_nil, by rwa [List.append_assoc]⟩
    -- the echoing handlers show `r'` who answered it, with `r`'s requests and without them
    have hview := h.noninterference echo () (Ne.symm hne) (echo_noninterfering (Ne.symm hne))
    have hclashing : ((server sha256 echo).step r' _).1 ≠ .ok (some r'.principal) :=
      echo_answer_of_clash hfresh.init.init hbefore hr hpair hne
    rw [Machine.answer_eq_of_view_eq hview hids.of_map rfl (Ne.symm hne)] at hclashing
    exact hclashing (echo_answer_of_purged hfresh.init hbefore hr hpair)
  · intro hprivate
    refine ⟨fun _ _ _ _ hne hhandlers ↦ view_eq_of_keysPrivate hids hprivate hne hhandlers, ?_⟩
    intro World Body handlers world before later r body db harrivals hstep
    subst harrivals
    have hown : OwnKeys (⟨[], (world, [])⟩ : ApiDb (World × List (Arrival × Except Thrown Body)) Body)
        (before ++ r :: later) :=
      ownKeys_of_keysPrivate hids hprivate
    refine own_of_step_eq_ok hown.after ?_ hstep
    exact RowsOwn.after_logged (fun _ hrow ↦ by cases hrow) hown.fresh.init

namespace Sample

def opportunityBody : String :=
  "\x7b\"opportunityType\":\"ACQUIRING\",\"requestedService\":\"Card acquiring\",\"currency\":\"EUR\"\x7d"

def sha256 (text : String) : String :=
  if text = "POST /opportunities\n" ++ opportunityBody then
    "14ee3cb4e0209080d08eba869e6fb8fc958c97ac89486c0533b9dbab022c2b53"
  else ""

/-- `POST /opportunities` with a key. -/
def createOpportunity (key : String) (organizationId userId : Option Uuid) : IdempotencyRequestInfo where
  key := some key
  scope := Route.scope .opportunityCreate
  method := "POST"
  path := "/opportunities"
  body := opportunityBody
  organizationId
  userId

/-- A merchant creates an opportunity. -/
def merchant (key : String) : Arrival where
  info := createOpportunity key (some "7d1e0b52-6c7f-4b1a-8f7e-0a5f3c9d2e01")
    (some "7d1e0b52-6c7f-4b1a-8f7e-0a5f3c9d2e02")
  id := "019b8d6c-2a40-7c1e-9b7d-5e0f6a1b2c01"
  now := 1767603600000

/-- So does a user without an active membership, an hour later. -/
def stranger (key : String) : Arrival where
  info := createOpportunity key none (some "7d1e0b52-6c7f-4b1a-8f7e-0a5f3c9d2e03")
  id := "019b8da3-18c0-7c1e-9b7d-5e0f6a1b2c02"
  now := 1767607200000

/-- `opportunitiesService.create`: the body is the new opportunity's owner. -/
def opportunities : Machine Arrival (Except Thrown Uuid) Unit where
  step r _ :=
    match r.info.organizationId with
    | none => (.error (forbidden "Actor has no active organization membership."), ())
    | some organizationId => (.ok organizationId, ())

end Sample

/-- Two principals with keys of their own. -/
theorem replayConfined_of_separate_keys :
    ReplayConfined Sample.sha256 [Sample.merchant "import-1", Sample.stranger "import-2"] :=
  (replayConfined_iff_keysPrivate (by decide)).2 (by decide)

/-- A user whom the handler would refuse gets the merchant's opportunity by sending its key. -/
theorem replay_crosses_principals :
    ((server Sample.sha256 Sample.opportunities).step (Sample.stranger "import-1")
        ((server Sample.sha256 Sample.opportunities).after ⟨[], ()⟩ [Sample.merchant "import-1"])).1 =
      .ok (some "7d1e0b52-6c7f-4b1a-8f7e-0a5f3c9d2e01") ∧
    (Sample.opportunities.step (Sample.stranger "import-1") ()).1 =
      .error (forbidden "Actor has no active organization membership.") ∧
    ¬ ReplayConfined Sample.sha256 [Sample.merchant "import-1", Sample.stranger "import-1"] := by
  refine ⟨by decide +kernel, rfl, fun h ↦ ?_⟩
  have hanswer : ((server Sample.sha256 (logged Sample.opportunities)).step (Sample.stranger "import-1")
      ((server Sample.sha256 (logged Sample.opportunities)).after ⟨[], ((), [])⟩
        [Sample.merchant "import-1"])).1 = .ok (some "7d1e0b52-6c7f-4b1a-8f7e-0a5f3c9d2e01") := by
    decide +kernel
  have hlog : ∀ entry ∈ ((server Sample.sha256 (logged Sample.opportunities)).step
      (Sample.stranger "import-1") ((server Sample.sha256 (logged Sample.opportunities)).after
        ⟨[], ((), [])⟩ [Sample.merchant "import-1"])).2.world.2,
      entry.1.principal ≠ (Sample.stranger "import-1").principal := by
    decide +kernel
  obtain ⟨own, result, hown, hprincipal, -⟩ :=
    h.authorised Sample.opportunities () rfl (Prod.ext hanswer rfl)
  exact hlog _ hown hprincipal

end TolPlatform
