import TolPlatform.Idempotency.System
import TolPlatform.Library.Hosting

/-!
# Service calls behind idempotency keys

A route runs its service call as the handler of `withIdempotency`, so the requests of an API are a party
system that hosts the one of the service calls. Whatever the requests interleave, the database is what a run
of the calls makes of it; of the requests under one key one takes steps of a call; and whoever is answered
with a body, at once or from the row, is answered with what that call came to (`served_of_run`). So each
theorem about every run of a service holds of the API, and what a call shows with its last step is seen at
most once under a key, however often the request is sent.

A service tells by `outcome` what a call that has ended came to. A call that crashed came to nothing: its
request never goes on.
-/

namespace TolPlatform

section

variable {Pid World Env Local Body Event : Type} [DecidableEq Pid]
  (S : PartySystem Pid Env World Local) (outcome : Local → Option (Except Thrown Body))
  (entry : Pid → Local)

/-! ### The API of a service -/

/-- A call as a handler. -/
def handlerOf (p : Pid) : Handler World Env Local Body where
  entry := entry p
  step e world l := (S.step p e world l).map fun r ↦ (r.1, (outcome r.2).elim (.inl r.2) .inr)

/-- The requests of an API, each serving the call of its party. -/
abbrev served (sha256 : String → String) (requests : Pid → IdempotencyRequestInfo) :
    PartySystem Pid (RequestDraws Env) (ApiDb World Body) (RequestPc Local Body) :=
  requestSystem sha256 requests (handlerOf S outcome entry)

/-- The calls that have been made, none of which has begun. -/
def callsAt (world : World) : PartySystem.Config Pid World Local := ⟨world, entry⟩

/-- How far a request has got says where its call stands. -/
def Stands (l₀ : Local) : RequestPc Local Body → Local → Prop
  | .called, l | .cleared, l | .answered _, l => l = l₀
  | .running h, l => l = h
  | .handled result, l | .recording _ result, l => outcome l = some (.ok result)
  | .threw thrown, l => outcome l = some (.error thrown)
  | .returned response, l => ∃ result, outcome l = some (.ok result) ∧
      ∀ body, response = .ok body → body = result

variable {S outcome entry} {sha256 : String → String} {requests : Pid → IdempotencyRequestInfo}
  {info : IdempotencyRequestInfo} {c c' : PartySystem.Config Pid (ApiDb World Body) (RequestPc Local Body)}
  {db db' : ApiDb World Body} {p q : Pid} {e : RequestDraws Env} {l l' : Local}
  {pc pc' : RequestPc Local Body}

/-! ### One step -/

omit [DecidableEq Pid] in
/-- A request in its handler takes a step of its call. -/
theorem call_of_running (h : requestStep sha256 info (handlerOf S outcome entry p) e db (.running l) =
    some (db', pc')) : ∃ world l', S.step p e.handler db.world l = some (world, l') ∧
      db'.world = world ∧ Stands outcome (entry p) pc' l' ∧ pc'.entered = true := by
  rw [requestStep] at h
  rcases hstep : S.step p e.handler db.world l with - | ⟨world, l'⟩
  · have hnone : (handlerOf S outcome entry p).step e.handler db.world l = none :=
      Option.map_eq_none_iff.2 hstep
    rw [hnone] at h
    cases h
  · have hsome : (handlerOf S outcome entry p).step e.handler db.world l =
        some (world, (outcome l').elim (.inl l') .inr) := by
      show (S.step p e.handler db.world l).map _ = _
      rw [hstep]
      rfl
    rw [hsome] at h
    refine ⟨world, l', rfl, ?_⟩
    rcases houtcome : outcome l' with - | thrown | result
    · rw [houtcome] at h
      obtain ⟨rfl, rfl⟩ := Prod.mk.inj (Option.some.inj h)
      exact ⟨rfl, rfl, rfl⟩
    · rw [houtcome] at h
      obtain ⟨rfl, rfl⟩ := Prod.mk.inj (Option.some.inj h)
      exact ⟨rfl, houtcome, rfl⟩
    · rw [houtcome] at h
      obtain ⟨rfl, rfl⟩ := Prod.mk.inj (Option.some.inj h)
      by_cases hkey : info.keyText = ""
      · rw [if_pos hkey]
        exact ⟨rfl, ⟨result, houtcome, fun body hbody ↦ (Except.ok.inj hbody).symm⟩, rfl⟩
      · rw [if_neg hkey]
        exact ⟨rfl, houtcome, rfl⟩

omit [DecidableEq Pid] in
/-- Any other step is none of its call. -/
theorem stands_of_step {handler : Handler World Env Local Body}
    (h : RequestStep sha256 info handler e db pc db' pc') (hl : Stands outcome handler.entry pc l)
    (hpc : ∀ l, pc ≠ .running l) : db'.world = db.world ∧ Stands outcome handler.entry pc' l := by
  cases h with
  | unkeyed | answer | clear | lose | reserve => exact ⟨rfl, hl⟩
  | work | throw | resolveUnkeyed | resolve => exact absurd rfl (hpc _)
  | lost | record => exact ⟨rfl, _, hl, fun body hbody ↦ (Except.ok.inj hbody).symm⟩
  | refind => exact ⟨rfl, hl⟩
  | missing => exact ⟨rfl, _, hl, nofun⟩

variable (S outcome entry sha256 requests) in
/-- **The API hosts the service.** -/
def hosting : (served S outcome entry sha256 requests).Hosts S where
  rel c a := a.shared = c.shared.world ∧ ∀ p, Stands outcome (entry p) (c.locals p) (a.locals p)
  busy pc := pc.entered = true
  env e := e.handler
  fire := by
    intro c p e c' a hrel hfire
    have hstep : requestStep sha256 (requests p) (handlerOf S outcome entry p) e c.shared (c.locals p) =
        some (c'.shared, c'.locals p) := PartySystem.step_of_fire hfire
    by_cases hrunning : ∃ l, c.locals p = .running l
    · obtain ⟨l, hl⟩ := hrunning
      have hstands := hrel.2 p
      rw [hl] at hstep hstands
      obtain ⟨world, l', hcall, hworld, hstands', hentered⟩ := call_of_running hstep
      refine Or.inr ⟨hentered, ⟨world, Function.update a.locals p l'⟩,
        PartySystem.fire_eq_some_iff.2 ⟨world, l', ?_, rfl⟩, hworld.symm, fun q ↦ ?_⟩
      · rw [hrel.1, show a.locals p = l from hstands]
        exact hcall
      · by_cases hq : q = p
        · subst hq
          show Stands outcome (entry q) (c'.locals q) (Function.update a.locals q l' q)
          rwa [Function.update_self]
        · show Stands outcome (entry q) (c'.locals q) (Function.update a.locals p l' q)
          rw [Function.update_of_ne hq, PartySystem.locals_of_fire hfire hq]
          exact hrel.2 q
    · obtain ⟨hworld, hstands⟩ := stands_of_step (requestStep_of_fire hfire) (hrel.2 p)
        fun l hl ↦ hrunning ⟨l, hl⟩
      refine Or.inl ⟨hrel.1.trans hworld.symm, fun q ↦ ?_⟩
      by_cases hq : q = p
      · subst hq
        exact hstands
      · rw [PartySystem.locals_of_fire hfire hq]
        exact hrel.2 q
  stays hbusy hstep := (requestStep_cases hstep).entered hbusy

/-! ### Where a recorded body comes from -/

/-- What the row of a pair says has been answered to a request under it. -/
def RowAnswered (requests : Pid → IdempotencyRequestInfo) (scope key : String)
    (c : PartySystem.Config Pid (ApiDb World Body) (RequestPc Local Body)) : Prop :=
  ∀ row, c.shared.find scope key = some row → row.responseStatus ≠ none →
    ∃ q result, (requests q).scope = scope ∧ (requests q).keyText = key ∧
      row.responseBody = some result ∧ c.locals q = .returned (.ok result)

variable {scope key : String} {handlers : Pid → Handler World Env Local Body}

/-- A step keeps it. -/
theorem RowAnswered.fire (h : RowAnswered requests scope key c)
    (hc : (requestSystem sha256 requests handlers).Reachable RequestsStart c)
    (hfire : (requestSystem sha256 requests handlers).fire c p e = some c') :
    RowAnswered requests scope key c' := by
  intro row hfind hstatus
  have hstep := requestStep_of_fire hfire
  -- somebody who has been answered is not the one who moves
  have hkept (hbefore : c.shared.find scope key = some row) :
      ∃ q result, (requests q).scope = scope ∧ (requests q).keyText = key ∧
        row.responseBody = some result ∧ c'.locals q = .returned (.ok result) := by
    obtain ⟨q, result, hscope, hkey, hbody, hq⟩ := h row hbefore hstatus
    refine ⟨q, result, hscope, hkey, hbody, ?_⟩
    rw [PartySystem.locals_of_fire hfire, hq]
    rintro rfl
    have hmoved := PartySystem.step_of_fire hfire
    rw [hq] at hmoved
    cases hmoved
  have hfollows := followed hc p
  generalize hpc : c.locals p = pc, hdb' : c'.shared = db', hpc' : c'.locals p = pc' at hstep hfollows
  rw [hdb'] at hfind
  cases hstep with
  | reserve hfree =>
    rw [ApiDb.find_append hfree] at hfind
    split_ifs at hfind with hpair
    · obtain rfl := Option.some.inj hfind
      exact absurd rfl hstatus
    · exact hkept hfind
  | @record id result =>
    rw [ApiDb.find_map_completed] at hfind
    obtain ⟨old, hold, rfl⟩ := Option.map_eq_some_iff.1 hfind
    by_cases hid : old.id = id
    · -- the row is that of the moving party
      obtain ⟨-, hscope, hkey, -⟩ := row_of_recording (takenOutline_holds hc).1 hfollows
        (IdempotencyRepository.find_eq_some hold).1 hid
      obtain ⟨-, hscope', hkey'⟩ := IdempotencyRepository.find_eq_some hold
      rw [IdempotencyRepository.completed, if_pos hid]
      exact ⟨p, result, hscope.symm.trans hscope', hkey.symm.trans hkey', rfl, hpc'⟩
    · rw [IdempotencyRepository.completed, if_neg hid] at hstatus hkept ⊢
      exact hkept hold
  | _ => exact hkept hfind

theorem rowAnswered_of_run (hstart : RequestsStart c) (hfree : c.shared.find scope key = none)
    {steps : List (Pid × RequestDraws Env)}
    (hrun : (requestSystem sha256 requests handlers).run c steps = some c') :
    RowAnswered requests scope key c' := by
  refine (PartySystem.inv_of_run (I := fun c ↦
    (requestSystem sha256 requests handlers).Reachable RequestsStart c ∧ RowAnswered requests scope key c)
    (fun h hfire ↦ ⟨h.1.fire hfire, h.2.fire h.1 hfire⟩) ⟨.start hstart, fun row hrow ↦ ?_⟩ hrun).2
  rw [hfree] at hrow
  cases hrow

/-! ### Runs -/

/-- What is seen of the calls under one pair. -/
def under (requests : Pid → IdempotencyRequestInfo) (scope key : String)
    (observe : PartySystem.Observation Pid World Local Event) :
    PartySystem.Observation Pid World Local Event := fun a p a' ↦
  if (requests p).scope = scope ∧ (requests p).keyText = key then observe a p a' else none

variable (S outcome entry) in
/-- The calls that a run of the API has run, and where they have come to. -/
structure HasRun (world : World)
    (c' : PartySystem.Config Pid (ApiDb World Body) (RequestPc Local Body)) (calls : List (Pid × Env))
    (a' : PartySystem.Config Pid World Local) : Prop where
  run : S.run (callsAt entry world) calls = some a'
  world_eq : a'.shared = c'.shared.world
  stands : ∀ p, Stands outcome (entry p) (c'.locals p) (a'.locals p)
  entered : ∀ call ∈ calls, (c'.locals call.1).entered = true

theorem exists_hasRun (hstart : RequestsStart c) {steps : List (Pid × RequestDraws Env)}
    (hrun : (served S outcome entry sha256 requests).run c steps = some c') :
    ∃ calls a', calls.Sublist (steps.map (Prod.map id RequestDraws.handler)) ∧
      HasRun S outcome entry c.shared.world c' calls a' := by
  have hstands (p : Pid) : Stands outcome (entry p) (c.locals p) (entry p) := by
    rw [hstart.called p]
    rfl
  obtain ⟨calls, a', hsub, hcalls, ⟨hworld, hstands'⟩, hentered⟩ :=
    (hosting S outcome entry sha256 requests).run (a := callsAt entry c.shared.world) ⟨rfl, hstands⟩ hrun
  exact ⟨calls, a', hsub, hcalls, hworld, hstands', hentered⟩

variable {world : World} {calls : List (Pid × Env)} {a' : PartySystem.Config Pid World Local}
  {observe : PartySystem.Observation Pid World Local Event}

namespace HasRun

/-- One call is run under a key. -/
theorem eq_of_sameKey (h : HasRun S outcome entry world c' calls a')
    (hc' : (requestSystem sha256 requests handlers).Reachable RequestsStart c') {call call' : Pid × Env}
    (hcall : call ∈ calls) (hcall' : call' ∈ calls)
    (hkey : SameKey (requests call.1) (requests call'.1)) : call.1 = call'.1 :=
  entered_unique hc' hkey (h.entered call hcall) (h.entered call' hcall')

/-- What a call shows with its last step is seen at most once under a key. -/
theorem length_under_le_one (h : HasRun S outcome entry world c' calls a')
    (hc' : (requestSystem sha256 requests handlers).Reachable RequestsStart c')
    (hstop : ∀ {p e s l}, outcome l ≠ none → S.step p e s l = none)
    (hshow : ∀ {a p e a₁ event}, S.Reachable (· = callsAt entry world) a → (requests p).keyText ≠ "" →
      S.fire a p e = some a₁ → observe a p a₁ = some event → outcome (a₁.locals p) ≠ none)
    (hkey : key ≠ "") :
    (S.eventsAlong (under requests scope key observe) (callsAt entry world) calls).length ≤ 1 := by
  have hstart : S.Reachable (· = callsAt entry world) (callsAt entry world) := .start rfl
  refine PartySystem.length_eventsAlong_le_one
    (G := fun p ↦ (requests p).scope = scope ∧ (requests p).keyText = key)
    hstop (fun hnot ↦ if_neg hnot) ?_ hstart ?_
  · rintro a p e a₁ event ha ⟨hscope, hkeyText⟩ hfire hevent
    replace hevent : (if (requests p).scope = scope ∧ (requests p).keyText = key then observe a p a₁
      else none) = some event := hevent
    rw [if_pos ⟨hscope, hkeyText⟩] at hevent
    exact hshow ha (hkeyText ▸ hkey) hfire hevent
  · rintro call hcall call' hcall' ⟨hscope, hkeyText⟩ ⟨hscope', hkeyText'⟩
    exact h.eq_of_sameKey hc' hcall hcall'
      ⟨hkeyText ▸ hkey, hscope.trans hscope'.symm, hkeyText.trans hkeyText'.symm⟩

/-- Whoever is answered with a body is answered with what a call under the same key came to. -/
theorem exists_outcome (h : HasRun S outcome entry world c' calls a')
    (hc' : (requestSystem sha256 requests handlers).Reachable RequestsStart c')
    (hrow : RowAnswered requests (requests p).scope (requests p).keyText c') {body : Option Body}
    (hresponse : (c'.locals p).response = some (.ok body)) :
    ∃ q result, body = some result ∧ (q = p ∨ SameKey (requests p) (requests q)) ∧
      outcome (a'.locals q) = some (.ok result) := by
  have hstands := h.stands p
  have hfollows := followed hc' p
  generalize c'.locals p = pc at hresponse hstands hfollows
  cases pc with
  | called | cleared | running | handled | recording => cases hresponse
  | threw thrown => cases hresponse
  | returned response =>
    obtain ⟨result, hresult, hbody⟩ := hstands
    rcases response with thrown | body'
    · cases hresponse
    · obtain rfl := hbody body' rfl
      exact ⟨p, body', (Except.ok.inj (Option.some.inj hresponse)).symm, Or.inl rfl, hresult⟩
  | answered response =>
    obtain rfl : response = .ok body := Option.some.inj hresponse
    obtain ⟨hkey, row, hfind, -, hstatus, hbody⟩ := hfollows
    obtain ⟨q, result, hscope, hkeyText, hresult, hq⟩ := hrow row hfind hstatus
    have hstands' := h.stands q
    rw [hq] at hstands'
    obtain ⟨result', houtcome, heq⟩ := hstands'
    obtain rfl := heq result rfl
    exact ⟨q, result, hbody ▸ hresult, Or.inr ⟨hkey, hscope.symm, hkeyText.symm⟩, houtcome⟩

end HasRun

/-- **An API does what its service does, under each key once.** What a run of it does to the database is a
run of calls, each in its own steps. Under one key at most one last step of a call is seen; and a request
under a key that is new is answered with a body only if that is what a call under the key came to. -/
theorem served_of_run (hstart : RequestsStart c)
    (hstop : ∀ {p e s l}, outcome l ≠ none → S.step p e s l = none)
    (hshow : ∀ {a p e a₁ event}, S.Reachable (· = callsAt entry c.shared.world) a →
      (requests p).keyText ≠ "" → S.fire a p e = some a₁ → observe a p a₁ = some event →
      outcome (a₁.locals p) ≠ none)
    {steps : List (Pid × RequestDraws Env)}
    (hrun : (served S outcome entry sha256 requests).run c steps = some c') :
    ∃ calls a', calls.Sublist (steps.map (Prod.map id RequestDraws.handler)) ∧
      S.run (callsAt entry c.shared.world) calls = some a' ∧ a'.shared = c'.shared.world ∧
      (∀ scope key, key ≠ "" →
        (S.eventsAlong (under requests scope key observe) (callsAt entry c.shared.world) calls).length ≤ 1) ∧
      ∀ p body, c.shared.find (requests p).scope (requests p).keyText = none →
        (c'.locals p).response = some (.ok body) → ∃ q result, body = some result ∧
          (q = p ∨ SameKey (requests p) (requests q)) ∧ outcome (a'.locals q) = some (.ok result) := by
  obtain ⟨calls, a', hsub, h⟩ := exists_hasRun hstart hrun
  have hc' := PartySystem.Reachable.run (.start hstart) hrun
  exact ⟨calls, a', hsub, h.run, h.world_eq, fun _ _ ↦ h.length_under_le_one hc' hstop hshow,
    fun p body hfree ↦ h.exists_outcome hc' (rowAnswered_of_run hstart hfree hrun)⟩

end

/-! ### A till -/

namespace Sample

/-- Calls that take one step each, which counts them. -/
def till : PartySystem ℕ Unit ℕ Bool where
  step _ _ count paid := if paid then none else some (count + 1, true)

/-- The number of the call. -/
def tillOutcome (paid : Bool) : Option (Except Thrown String) := if paid then some (.ok "paid") else none

/-- One request and its retry. -/
def tillRequests (p : ℕ) : IdempotencyRequestInfo where
  key := if p < 2 then some "k" else none
  scope := "till"
  method := "POST"
  path := "/till"
  body := "null"
  organizationId := none
  userId := none

def tillDigest (text : String) : String :=
  if text = "POST /till\nnull" then "6696aba3dfcf66c3095d781825eca29c36bb958c8760a56afc826a8cc02836e8" else ""

def tillStart : PartySystem.Config ℕ (ApiDb ℕ String) (RequestPc Bool String) := ⟨⟨[], 0⟩, fun _ ↦ .called⟩

def tillDraws : RequestDraws Unit := ⟨"r0", 0, ()⟩

/-- The request, its retry, and one without a key. -/
def tillSteps : List (ℕ × RequestDraws Unit) :=
  List.replicate 5 (0, tillDraws) ++ (1, tillDraws) :: List.replicate 2 (2, tillDraws)

theorem till_stop {p : ℕ} {e : Unit} {count : ℕ} {paid : Bool} (h : tillOutcome paid ≠ none) :
    till.step p e count paid = none := by
  cases paid with
  | false => exact absurd rfl h
  | true => rfl

theorem till_paid {a a' : PartySystem.Config ℕ ℕ Bool} {p : ℕ} {e : Unit}
    (hfire : till.fire a p e = some a') : tillOutcome (a'.locals p) ≠ none := by
  have hstep := PartySystem.step_of_fire hfire
  cases hpaid : a.locals p with
  | false =>
    rw [hpaid] at hstep
    obtain ⟨-, htrue⟩ := Prod.mk.inj (Option.some.inj hstep)
    rw [← htrue]
    exact Option.some_ne_none _
  | true =>
    rw [hpaid] at hstep
    cases hstep

theorem till_run :
    ((served till tillOutcome (fun _ ↦ false) tillDigest tillRequests).run tillStart tillSteps).any
      (fun c ↦ c.shared.world = 2 ∧ (c.locals 1).response = some (.ok (some "paid"))) = true := by
  decide +kernel

end Sample

/-- The retry is answered with what the first request has counted. -/
theorem served_of_till : ∃ c', (served Sample.till Sample.tillOutcome (fun _ ↦ false) Sample.tillDigest
      Sample.tillRequests).run Sample.tillStart Sample.tillSteps = some c' ∧
    ∃ calls a', Sample.till.run (callsAt (fun _ ↦ false) 0) calls = some a' ∧ a'.shared = c'.shared.world ∧
      (Sample.till.eventsAlong (under Sample.tillRequests "till" "k" fun a _ _ ↦ some a.shared)
        (callsAt (fun _ ↦ false) 0) calls).length ≤ 1 ∧
      ∃ q, Sample.tillOutcome (a'.locals q) = some (.ok "paid") := by
  obtain ⟨c', hrun, hworld, hresponse⟩ := PartySystem.exists_run_of_test Sample.till_run
  obtain ⟨calls, a', -, hcalls, hshared, hunder, hanswer⟩ :=
    served_of_run (c := Sample.tillStart) ⟨List.nodup_nil, fun _ ↦ rfl⟩ Sample.till_stop
      (fun _ _ hfire _ ↦ Sample.till_paid hfire) hrun
  obtain ⟨q, result, hbody, -, houtcome⟩ := hanswer 1 _ rfl hresponse
  exact ⟨c', hrun, calls, a', hcalls, hshared, hunder "till" "k" (by decide), q,
    Option.some.inj hbody ▸ houtcome⟩

end TolPlatform
