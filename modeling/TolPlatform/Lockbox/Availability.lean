import TolPlatform.Lockbox.Custody

/-!
# The vault is not stuck

Safety alone would be met by a vault that never gives anything back. Wherever a run of the vault has led, a
lockbox that is still sealed can be released: an actor who may release it, naming an organization there is,
gets the sealed payload in four steps of its own as soon as nobody holds the lock of the lockbox
(`released_of_run`). Nothing that the other calls have done before, or have read and will do later, stands in
the way. And a member who may seal can do so at any time (`sealed_of_reachable`).
-/

namespace TolPlatform.Lockboxes

open Crypto (Bytes WrappedShare RoleKeks)

/-! ### The transaction of a release succeeds -/

section

variable {db : Db} {id : Uuid} {t : LockboxStatus} {columns : Lockbox → Lockbox}

theorem Keeps.ids {db' : Db} (h : Keeps db db') :
    db'.lockboxes.map (·.id) = db.lockboxes.map (·.id) := by
  have hfixed := congrArg (List.map Prod.fst) h.fixed
  rw [List.map_map, List.map_map] at hfixed
  exact hfixed

/-- A row that is there can be updated. -/
theorem exists_setStatus_eq_ok (hid : id ∈ db.lockboxes.map (·.id)) (t : LockboxStatus)
    (columns : Lockbox → Lockbox)
    (hcolumns : ∀ r, (LockboxRepository.withStatus t columns r).fixed = r.fixed) :
    ∃ box db', LockboxRepository.setStatus id t columns db = .ok (box, db') ∧
      id ∈ db'.lockboxes.map (·.id) ∧
      db'.lockboxReleaseEvidence = db.lockboxReleaseEvidence := by
  obtain ⟨r, hr, hrid⟩ := List.mem_map.1 hid
  obtain ⟨old, hold⟩ : ∃ old, LockboxRepository.findById db id = some old :=
    Option.isSome_iff_exists.1 (List.find?_isSome.2 ⟨r, hr, decide_eq_true hrid⟩)
  obtain ⟨box, db', hset⟩ :
      ∃ box db', LockboxRepository.setStatus id t columns db = .ok (box, db') := by
    let db₁ : Db := { db with statusUpdates := db.statusUpdates ++ [⟨id, old.status, t⟩] }
    have hid₁ : id ∈ lockboxes.keys db₁ := hid
    obtain ⟨box, db', hbox⟩ : ∃ box db', lockboxes.update Thrown.recordNotFound id
        (LockboxRepository.withStatus t columns) db₁ = .ok (box, db') := by
      obtain ⟨box, hbox⟩ := Table.exists_update_eq_ok (LockboxRepository.withStatus t columns) hid₁
      exact ⟨box, _, hbox⟩
    refine ⟨box, db', ?_⟩
    rw [LockboxRepository.setStatus, Tx.get_bind_eq_ok, Tx.check_bind_eq_ok]
    exact ⟨old, orThrow_eq_ok_iff.2 hold, Tx.modify_bind_eq_ok.2 hbox⟩
  obtain ⟨hkeeps, hevidence⟩ := setStatus_keeps hset hcolumns
  exact ⟨box, db', hset, hkeeps.ids ▸ hid, hevidence⟩

theorem exists_releaseTx_eq_ok {env : Env} {d : Draws} {call : ReleaseCall} {box : Lockbox}
    {shares : List WrappedShare} {keks : RoleKeks} {payload : LockboxPayload}
    (hid : call.lockboxId ∈ db.lockboxes.map (·.id)) (hstatus : box.status = .sealed)
    (hpayload : disclose env call box shares keks = .ok payload)
    (hfresh : d.ids 0 ∉ db.lockboxReleaseEvidence.map (·.id)) :
    ∃ result db', releaseTx env d call box shares keks db = .ok (result, db') := by
  obtain ⟨box₁, db₁, hcommitted, hid₁, hevidence₁⟩ :=
    exists_setStatus_eq_ok hid .committed (fun r ↦ r) fun _ ↦ rfl
  obtain ⟨box₂, db₂, hfrozen, hid₂, hevidence₂⟩ :=
    exists_setStatus_eq_ok hid₁ .frozen (fun r ↦ r) fun _ ↦ rfl
  obtain ⟨box₃, db₃, hopened, -, hevidence₃⟩ := exists_setStatus_eq_ok hid₂ .opened
    (fun r ↦ { r with releasedAt := some d.now, recipientOrgId := some call.input.recipientOrgId,
                      conditionRef := some call.input.conditionRef }) fun _ ↦ rfl
  -- the two hops before the last one
  have hhops : releaseHops call.lockboxId box.status (remainingCascade box.status) db =
      .ok (.frozen, db₂) := by
    rw [hstatus]
    refine Tx.check_bind_eq_ok.2 ⟨(), rfl, Tx.bind_eq_ok.2 ⟨box₁, db₁, hcommitted, ?_⟩⟩
    exact Tx.check_bind_eq_ok.2 ⟨(), rfl, Tx.bind_eq_ok.2 ⟨box₂, db₂, hfrozen, rfl⟩⟩
  obtain ⟨row, db₄, hrow⟩ : ∃ row db₄, createEvidence d call box db₃ = .ok (row, db₄) := by
    refine ⟨_, _, Tx.get_bind_eq_ok.2 (Table.insert_eq_ok_iff.2 ⟨?_, rfl, rfl⟩)⟩
    show d.ids 0 ∉ db₃.lockboxReleaseEvidence.map (·.id)
    rwa [hevidence₃, hevidence₂, hevidence₁]
  exact ⟨_, _, Tx.check_bind_eq_ok.2 ⟨payload, hpayload, Tx.bind_eq_ok.2 ⟨_, _, hhops,
    Tx.check_bind_eq_ok.2 ⟨(), rfl, Tx.bind_eq_ok.2 ⟨_, _, hopened,
      Tx.bind_eq_ok.2 ⟨row, db₄, hrow, rfl⟩⟩⟩⟩⟩⟩

end

/-! ### The shares that are found -/

section

variable {env : VaultEnv} {v : Vault} {call : SealCall} {box : Lockbox}

/-- The shares that a release unwraps. -/
def authorizingShares (gcm : Crypto.Gcm) (d : Crypto.SealDraws) (keks : RoleKeks) :
    List WrappedShare :=
  releaseAuthorizingRoles.map (Crypto.sealedShare gcm d keks)

/-- They are those of the sealing. -/
theorem revalidateRelease_eq_ok (hids : (v.lockboxes.map (·.id)).Nodup) {d : Crypto.SealDraws}
    {keks : RoleKeks} {plaintext : Crypto.Bytes} {aad : Option Crypto.Bytes}
    (hsealed : Crypto.SealedAs env.gcm d plaintext keks aad call.sealed) (hstored : Stored v call box)
    (hstatus : box.status = .sealed) {c : ReleaseCall} (hid : c.lockboxId = call.lockboxId) :
    revalidateRelease v.toDb c = .ok (box, authorizingShares env.gcm d keks) := by
  have hfind : LockboxRepository.findById v.toDb c.lockboxId = some box :=
    (List.find?_eq_some_iff_of_nodup hids).2 ⟨hstored.mem, hstored.id_eq.trans hid.symm⟩
  have hrows : call.shareRows = Crypto.lockboxShareRoles.map fun role ↦
      { lockboxId := c.lockboxId, holderRole := role, shareIndex := Crypto.roleToIndex role,
        wrapped := some (Crypto.sealedShare env.gcm d keks role).wrapped } := by
    rw [SealCall.shareRows, hsealed.shares_eq, List.map_map, hid]
    rfl
  have hactive : LockboxKeyShareRepository.findActiveByLockboxAndRoles v.toDb c.lockboxId
      releaseAuthorizingRoles = call.shareRows.filter (·.holderRole ∈ releaseAuthorizingRoles) := by
    have hkept : sharesOf v.toDb c.lockboxId = call.shareRows :=
      hid ▸ hstored.shares (by rw [hstatus]; decide)
    rw [← hkept, sharesOf, List.filter_filter, LockboxKeyShareRepository.findActiveByLockboxAndRoles]
    refine List.filter_congr fun share hshare ↦ ?_
    by_cases hlockbox : share.lockboxId = c.lockboxId
    · -- none of the shares of this lockbox is destroyed
      have hmem : share ∈ call.shareRows :=
        hkept ▸ List.mem_filter.2 ⟨hshare, decide_eq_true hlockbox⟩
      rw [hrows] at hmem
      obtain ⟨role, -, rfl⟩ := List.mem_map.1 hmem
      simp
    · simp [hlockbox]
  have hfresh : call.shareRows.filter (·.holderRole ∈ releaseAuthorizingRoles) =
      releaseAuthorizingRoles.map fun role ↦
        { lockboxId := c.lockboxId, holderRole := role, shareIndex := Crypto.roleToIndex role,
          wrapped := some (Crypto.sealedShare env.gcm d keks role).wrapped } := by
    rw [hrows]
    rfl
  refine Except.bind_eq_ok'.2 ⟨box, orThrow_eq_ok_iff.2 hfind, Except.bind_eq_ok'.2 ⟨(), ?_, ?_⟩⟩
  · rw [hstatus]
    rfl
  · rw [hactive, hfresh]
    rfl

/-- And they release the payload. -/
theorem disclose_eq_ok (hgcm : Crypto.IdealGcm env.gcm) {d : Crypto.SealDraws} {keks : RoleKeks}
    (hsealed : Crypto.SealedAs env.gcm d (serializePayload call.input.payload) keks
      (some (lockboxAad call.lockboxId)) call.sealed)
    (henvelope : box.envelope = call.sealed.toAesGcmCiphertext) {c : ReleaseCall}
    (hid : c.lockboxId = call.lockboxId) :
    disclose env.toEnv c box (authorizingShares env.gcm d keks) keks =
      .ok call.input.payload.shown := by
  have hchoice : Crypto.Choice call.sealed (authorizingShares env.gcm d keks) := by
    refine ⟨le_rfl, (by decide : releaseAuthorizingRoles.Nodup), ?_⟩
    rw [hsealed.shares_eq]
    exact List.map_subset _ (by decide)
  have hrelease : Crypto.releasePayload env.toEnv.decrypt box.envelope
      (authorizingShares env.gcm d keks) keks (some (env.toEnv.utf8 c.lockboxId)) =
        .ok (serializePayload call.input.payload) := by
    rw [henvelope, hid]
    exact hchoice.releasePayload_eq hgcm hsealed
  rw [disclose, hrelease]
  refine orThrow_eq_ok_iff.2 ?_
  show (deserializePayload env.replaced _).map PayloadTexts.shown = _
  rw [deserializePayload_serializePayload, parsePayload_toValue_eq_some_iff.2
    ⟨call.input.payload_admissible, rfl⟩]
  rfl

end

/-! ### The keys and rows of a sealing -/

section

variable {env : VaultEnv} {v : Vault} {call : SealCall}

theorem length_of_loadRoleKeks {config : KeyConfig} {keks : RoleKeks}
    (h : loadRoleKeks config = .ok keks) (role : Crypto.LockboxShareRole) :
    (keks role).length = Crypto.aesKeyBytes := by
  obtain ⟨_, hsealer, h⟩ := Except.bind_eq_ok'.1 h
  obtain ⟨_, hoperator, h⟩ := Except.bind_eq_ok'.1 h
  obtain ⟨_, hescrow, h⟩ := Except.bind_eq_ok'.1 h
  obtain rfl := Except.ok.inj h
  cases role with
  | sealer => exact Crypto.length_of_parseKeyHex hsealer
  | operator => exact Crypto.length_of_parseKeyHex hoperator
  | escrow => exact Crypto.length_of_parseKeyHex hescrow

/-- The three share rows of a new lockbox violate no constraint. -/
theorem nodup_shareKeys (hprepared : call.Prepared env)
    (hkeys : (v.lockboxKeyShares.map shareKey).Nodup) (hnone : sharesOf v.toDb call.lockboxId = []) :
    ((v.lockboxKeyShares ++ call.shareRows).map shareKey).Nodup := by
  obtain ⟨d, keks, -, hsealed⟩ := hprepared.sealed
  have hrows : call.shareRows.map shareKey =
      Crypto.lockboxShareRoles.map fun role ↦ (call.lockboxId, role) := by
    rw [SealCall.shareRows, hsealed.shares_eq, List.map_map, List.map_map]
    rfl
  rw [List.map_append, hrows]
  refine hkeys.append ?_ fun k hk hk' ↦ ?_
  · exact (by decide : Crypto.lockboxShareRoles.Nodup).map fun _ _ h ↦ (Prod.mk.inj h).2
  · obtain ⟨share, hshare, rfl⟩ := List.mem_map.1 hk
    obtain ⟨role, -, hrole⟩ := List.mem_map.1 hk'
    have hmem : share ∈ sharesOf v.toDb call.lockboxId :=
      List.mem_filter.2 ⟨hshare, decide_eq_true (Prod.mk.inj hrole).1.symm⟩
    rw [hnone] at hmem
    cases hmem

end

/-! ### Runs -/

/-- What is seen of the commit of a sealing. -/
theorem seen_sealed {env : VaultEnv} {Pid : Type} {p : Pid}
    [DecidableEq Pid] {s s' : CallSystem.Shared Vault Int Pid} {l l' : VaultLocal}
    {t : Tick VaultDraws} {call : SealCall} {box : Lockbox}
    (h : (vaultCalls env).Transition p s l t s' l') (hl' : l' = .sealed call box) :
    seen l l' = some (.sealed call.actor box.id call.input.payload) := by
  cases h with
  | queried hnext hf =>
    rcases vaultQuery_cases hnext hf with ⟨_, _, _, _, -, rfl, -⟩ | ⟨_, _, _, -, rfl, -⟩ <;> cases hl'
  | locked hnext =>
    obtain ⟨_, _, -, rfl, -⟩ := vaultLock_cases hnext
    cases hl'
  | committed hnext hbody =>
    rcases vaultCommit_cases hnext hbody with ⟨_, _, rfl, rfl, -⟩ | ⟨_, _, _, _, -, rfl, -⟩
    · obtain ⟨rfl, rfl⟩ := VaultLocal.sealed.inj hl'
      rfl
    · cases hl'
  | failed => cases hl'
  | crashed => cases hl'

/-- The marketplace may release the lockboxes of every organization. -/
theorem can_lockboxRelease {actor : Actor} (hmay : MayRelease actor)
    (horg : actor.organizationId.isSome) (sealerOrgId : Uuid) :
    (can actor .lockboxRelease ⟨.lockbox, some sealerOrgId⟩).allowed = true := by
  obtain ⟨organizationId, horg⟩ := Option.isSome_iff_exists.1 horg
  have hcross {role : PersonaRole} (hgrant : .lockboxRelease ∈ (authorityMatrix role).allowedActions)
      (h : .lockboxRelease ∈ (authorityMatrix role).crossOrgActions) (hrole : actor.role = some role) :
      (can actor .lockboxRelease ⟨.lockbox, some sealerOrgId⟩).allowed = true := by
    simp [can, actionResourceType, hrole, horg, hgrant, canGranted, h, allow]
  rcases hmay with hrole | hrole
  · exact hcross (by decide) (by decide) hrole
  · exact hcross (by decide) (by decide) hrole

section

variable {env : VaultEnv} {organizations : List Uuid} {Pid : Type} [DecidableEq Pid] {p : Pid}
  {c₀ c : VaultConfig Pid} {steps : List (Pid × Tick VaultDraws)}

/-- What a run has sealed and not moved on is still in the tables. -/
theorem stored_of_run (hgcm : Crypto.IdealGcm env.gcm) (h₀ : Vacant organizations c₀)
    (hrun : ((vaultCalls env).system Pid).run c₀ steps = some c) {sealer : Actor} {id : Uuid}
    {payload : PayloadTexts}
    (hseen : .sealed sealer id payload ∈ ((vaultCalls env).system Pid).eventsAlong
      (fun c p c' ↦ seen (c.locals p) (c'.locals p)) c₀ steps)
    (hstatus : (LockboxRepository.findById c.shared.db.toDb id).map (·.status) = some .sealed) :
    (c.shared.db.lockboxes.map (·.id)).Nodup ∧ c.shared.db.organizations = organizations ∧
      ∃ call box, call.lockboxId = id ∧ call.input.payload = payload ∧ call.Prepared env ∧
        Stored c.shared.db call box ∧ box.status = .sealed := by
  obtain ⟨e, htrace, -, ⟨hids, -⟩, hrep⟩ := (refines hgcm organizations).run
    ⟨h₀.holds.1, h₀.holds.2, h₀.represents⟩ hrun
  generalize hevents : ((vaultCalls env).system Pid).eventsAlong _ c₀ steps = events at hseen htrace
  have hhistory := history_of_trace htrace id
  have hmem : .sealed sealer id payload ∈ events.filter (·.id = id) :=
    List.mem_filter.2 ⟨hseen, decide_eq_true rfl⟩
  have hrow := hrep.id id
  have hdep := (hrow.findById hids).symm.trans hstatus
  rcases he : e id with _ | dep
  · rw [he] at hdep
    cases hdep
  rw [he] at hrow hhistory hdep
  refine ⟨hids, hrep.organizations, ?_⟩
  cases hrow with
  | @present _ call row hid hprepared hstored hshows =>
    cases dep with
    | held sealerOrgId held =>
      obtain ⟨hsealed, -, rfl⟩ := hshows
      generalize events.filter (·.id = id) = about at hhistory hmem
      cases hhistory with
      | sealed =>
        obtain ⟨-, -, hpayload⟩ := EscrowEvent.sealed.inj (List.mem_singleton.1 hmem)
        exact ⟨call, row, hid, hpayload.symm, hprepared, hstored, hsealed⟩
    | withdrawn => cases Option.some.inj hdep
    | disclosed => cases Option.some.inj hdep

/-- The first checks of a release, by the marketplace. -/
theorem enter_release_eq_ok {v : Vault} {call : SealCall} {box : Lockbox} {actor : Actor}
    {context : RequestContext} {input : ReleaseLockboxRequest} {keks : RoleKeks}
    (hids : (v.lockboxes.map (·.id)).Nodup) (hstored : Stored v call box)
    (hstatus : box.status = .sealed) (hkeks : loadRoleKeks env.config = .ok keks)
    (hmay : MayRelease actor) (horg : actor.organizationId.isSome)
    (hrecipient : input.recipientOrgId ∈ v.organizations) :
    enter env.toEnv v.toDb actor context (.release call.lockboxId input) =
      .ok (.releaseChecked ⟨actor, call.lockboxId, input, context, box.sealerOrgId⟩ keks) := by
  have hfind : LockboxRepository.findById v.toDb call.lockboxId = some box :=
    (List.find?_eq_some_iff_of_nodup hids).2 ⟨hstored.mem, hstored.id_eq⟩
  have hchecked : precheckRelease v.toDb actor call.lockboxId input = .ok box := by
    refine Except.bind_eq_ok'.2 ⟨box, orThrow_eq_ok_iff.2 hfind, Except.bind_eq_ok'.2 ⟨(),
      requireAllowed_eq_ok_iff.2 (can_lockboxRelease hmay horg _), Except.bind_eq_ok'.2 ⟨(),
        throwIf_eq_ok_iff.2 (not_not.2 hrecipient), ?_⟩⟩⟩
    rw [hstatus]
    rfl
  exact Except.bind_eq_ok'.2 ⟨box, hchecked, Except.bind_eq_ok'.2 ⟨keks, hkeks, rfl⟩⟩

/-- A release on its own. -/
theorem solo_release (hgcm : Crypto.IdealGcm env.gcm) {s : CallSystem.Shared Vault Int Pid}
    {call : SealCall} {box : Lockbox} {actor : Actor} {context : RequestContext}
    {input : ReleaseLockboxRequest} (hids : (s.db.lockboxes.map (·.id)).Nodup)
    (hprepared : call.Prepared env) (hstored : Stored s.db call box) (hstatus : box.status = .sealed)
    (hmay : MayRelease actor) (horg : actor.organizationId.isSome)
    (hrecipient : input.recipientOrgId ∈ s.db.organizations)
    (hfree : s.locks.holder (env.hashtext call.lockboxId) = none) (d : VaultDraws)
    (hfresh : d.ids 0 ∉ s.db.lockboxReleaseEvidence.map (·.id)) :
    ∃ s' result, ((vaultCalls env).system Pid).solo p (.act d) 4 s
        (.other (.called actor context (.release call.lockboxId input))) =
          some (s', .other (.released result)) ∧
      result.lockbox.id = call.lockboxId ∧ result.disclosedPayload = call.input.payload.shown := by
  obtain ⟨sealing, keks, hkeks, hsealing⟩ := hprepared.sealed
  let rel : ReleaseCall := ⟨actor, call.lockboxId, input, context, box.sealerOrgId⟩
  let shares := authorizingShares env.gcm sealing keks
  -- the first checks
  have hentered : enter env.toEnv s.db.toDb actor context (.release call.lockboxId input) =
      .ok (.releaseChecked rel keks) :=
    enter_release_eq_ok hids hstored hstatus hkeks hmay horg hrecipient
  have hquery : (vaultCalls env).act p d s
      (.other (.called actor context (.release call.lockboxId input))) =
        some (s, .other (.releaseChecked rel keks)) := by
    refine CallSystem.act_of_query rfl ?_
    show (enter env.toEnv s.db.toDb actor context _).map VaultLocal.other = _
    rw [hentered]
    rfl
  -- the lock, and the checks under it
  obtain ⟨locks, hlock⟩ : ∃ locks, (vaultCalls env).act p d s (.other (.releaseChecked rel keks)) =
      some (⟨s.db, locks⟩, .other (.releaseLocked rel keks)) := CallSystem.act_of_lock rfl hfree
  have hvalidated : (vaultCalls env).act p d ⟨s.db, locks⟩ (.other (.releaseLocked rel keks)) =
      some (⟨s.db, locks⟩, .other (.releaseValidated rel keks box shares)) := by
    refine CallSystem.act_of_query rfl ?_
    have hread := revalidateRelease_eq_ok hids hsealing hstored hstatus (c := rel) rfl
    show ((revalidateRelease s.db.toDb rel >>= fun fresh ↦ Except.ok
      (Local.releaseValidated rel keks fresh.1 fresh.2)).map VaultLocal.other) = _
    rw [hread]
    rfl
  -- the transaction
  have hdisclose : disclose env.toEnv rel box shares keks = .ok call.input.payload.shown :=
    disclose_eq_ok hgcm hsealing (congrArg (fun x ↦ x.2.2.1) hstored.fixed) rfl
  obtain ⟨result, db', hrelease⟩ : ∃ result db',
      releaseTx env.toEnv d.toDraws rel box shares keks s.db.toDb = .ok (result, db') :=
    exists_releaseTx_eq_ok (List.mem_map.2 ⟨box, hstored.mem, hstored.id_eq⟩) hstatus hdisclose hfresh
  have hcommitted : (vaultCalls env).act p d ⟨s.db, locks⟩
      (.other (.releaseValidated rel keks box shares)) = some (CallSystem.Shared.close
        ⟨s.db, locks⟩ p { s.db with toDb := db' }, .other (.released result)) := by
    refine CallSystem.act_of_commit rfl ?_
    exact Tx.map_eq_ok.2 ⟨_, Tx.zoom_eq_ok.2 ⟨db', Tx.map_eq_ok.2 ⟨result, hrelease, rfl⟩, rfl⟩, rfl⟩
  refine ⟨_, result, Option.bind_eq_some_iff.2 ⟨_, hquery, Option.bind_eq_some_iff.2 ⟨_, hlock,
    Option.bind_eq_some_iff.2 ⟨_, hvalidated, Option.bind_eq_some_iff.2 ⟨_, hcommitted, rfl⟩⟩⟩⟩, ?_, ?_⟩
  · have hknows : Knows s.db.toDb (.releaseValidated rel keks box shares) :=
      ⟨hstored.mem, hstored.id_eq, by rw [hstatus]; exact ⟨(fun h ↦ nomatch h), (fun h ↦ nomatch h)⟩⟩
    exact (releaseTx_eq_ok hids hknows hrelease).1
  · have hpayload := (releaseTx_disclosed hrelease).payload
    rw [hdisclose] at hpayload
    exact (Except.ok.inj hpayload).symm

/-- **A sealed lockbox can be released**, wherever a run has led: by a call of the marketplace that meets
no lock, in four steps of its own, and to the payload that was sealed. -/
theorem released_of_run (hgcm : Crypto.IdealGcm env.gcm) (h₀ : Vacant organizations c₀)
    (hrun : ((vaultCalls env).system Pid).run c₀ steps = some c) {sealer : Actor} {id : Uuid}
    {payload : PayloadTexts}
    (hseen : .sealed sealer id payload ∈ ((vaultCalls env).system Pid).eventsAlong
      (fun c p c' ↦ seen (c.locals p) (c'.locals p)) c₀ steps)
    (hstatus : (LockboxRepository.findById c.shared.db.toDb id).map (·.status) = some .sealed)
    {actor : Actor} {context : RequestContext} {input : ReleaseLockboxRequest}
    (hlocal : c.locals p = .other (.called actor context (.release id input)))
    (hmay : MayRelease actor) (horg : actor.organizationId.isSome)
    (hrecipient : input.recipientOrgId ∈ organizations)
    (hfree : c.shared.locks.holder (env.hashtext id) = none) (d : VaultDraws)
    (hfresh : d.ids 0 ∉ c.shared.db.lockboxReleaseEvidence.map (·.id)) :
    ∃ c' result, ((vaultCalls env).system Pid).run c (List.replicate 4 (p, .act d)) = some c' ∧
      c'.locals p = .other (.released result) ∧ result.lockbox.id = id ∧
      result.disclosedPayload = payload.shown := by
  obtain ⟨hids, horgs, call, box, rfl, rfl, hprepared, hstored, hsealed⟩ :=
    stored_of_run hgcm h₀ hrun hseen hstatus
  obtain ⟨s', result, hsolo, hid, hpayload⟩ := solo_release (p := p) hgcm hids hprepared hstored
    hsealed hmay horg (horgs ▸ hrecipient) hfree d hfresh
  rw [← hlocal] at hsolo
  obtain ⟨c', hrun', -, hreleased⟩ := PartySystem.run_replicate_of_solo hsolo
  exact ⟨c', result, hrun', hreleased, hid, hpayload⟩

/-- A sealing on its own. -/
theorem solo_seal {s : CallSystem.Shared Vault Int Pid} {e : Escrow}
    (hrep : Represents env organizations s.db e) {actor : Actor} {context : RequestContext}
    {input : SealLockboxRequest} {organizationId : Uuid}
    (horg : actor.organizationId = some organizationId)
    (hallowed : (can actor .lockboxSeal ⟨.lockbox, some organizationId⟩).allowed = true)
    {keks : RoleKeks} (hkeks : loadRoleKeks env.config = .ok keks) {hmacKey : Bytes}
    (hkey : loadReceiptHmacKey env.config = .ok hmacKey) (d : VaultDraws)
    (hfresh : d.ids 0 ∉ s.db.lockboxes.map (·.id))
    (hreceipt : d.ids 0 ∉ s.db.lockboxReceipts.map (·.id)) :
    ∃ call, ((vaultCalls env).system Pid).solo p (.act d) 2 s (.calledSeal actor context input) =
        some (s.close p (s.db.withSeal call (d.ids 0)), .sealed call call.row) ∧
      call.Prepared env ∧ call.input = input ∧ call.actor = actor ∧ call.lockboxId = d.ids 0 := by
  obtain ⟨sealed, hsealed⟩ := Crypto.exists_sealPayload env.gcm env.sha256 d.sealing
    (serializePayload input.payload) (length_of_loadRoleKeks hkeks) (some (lockboxAad (d.ids 0)))
  obtain ⟨call, hcall⟩ : ∃ call, prepareSeal env d actor input context = .ok call :=
    ⟨_, Except.bind_eq_ok'.2 ⟨_, orThrow_eq_ok_iff.2 horg, Except.bind_eq_ok'.2 ⟨(),
      requireAllowed_eq_ok_iff.2 hallowed, Except.bind_eq_ok'.2 ⟨keks, hkeks, Except.bind_eq_ok'.2
        ⟨sealed, Except.mapError_eq_ok.2 hsealed, Except.bind_eq_ok'.2 ⟨hmacKey, hkey, rfl⟩⟩⟩⟩⟩⟩
  obtain ⟨hprepared, hactor, hinput, hid⟩ := prepareSeal_eq_ok hcall
  -- nothing is there under the new id
  have huntouched : sharesOf s.db.toDb call.lockboxId = [] := by
    have hrow := hrep.id call.lockboxId
    rcases he : e call.lockboxId with _ | dep
    · rw [he] at hrow
      cases hrow with
      | absent h => exact h.shares
    · rw [he] at hrow
      cases hrow with
      | present hrowId _ hstored =>
        exact absurd (List.mem_map.2 ⟨_, hstored.mem, hstored.id_eq.trans (hrowId.trans hid)⟩) hfresh
  have hquery : (vaultCalls env).act p d s (.calledSeal actor context input) =
      some (s, .sealing call) :=
    CallSystem.act_of_query rfl (Except.bind_eq_ok'.2 ⟨call, hcall, rfl⟩)
  have hcommitted : (vaultCalls env).act p d s (.sealing call) =
      some (s.close p (s.db.withSeal call (d.ids 0)), .sealed call call.row) :=
    CallSystem.act_of_commit rfl (Tx.map_eq_ok.2 ⟨call.row, sealTx_eq_ok_iff.2
      ⟨hid ▸ hfresh, nodup_shareKeys hprepared hrep.shareKeys huntouched, hreceipt, rfl, rfl⟩, rfl⟩)
  exact ⟨call, Option.bind_eq_some_iff.2 ⟨_, hquery, Option.bind_eq_some_iff.2 ⟨_, hcommitted, rfl⟩⟩,
    hprepared, hinput, hactor, hid⟩

end

namespace VaultSample

/-! A merchant seals a payload, and an operator releases it. -/

open Crypto.Sample (fill bytesOf framed framed_ideal vectors sealing)

def payload : PayloadTexts where
  counterpartyPrivate := codeUnits "Acme"
  evidenceSummary := codeUnits "calls"
  priorDealHistory := codeUnits "none"

theorem payload_admissible : payload.Admissible :=
  ⟨by decide, by decide, by decide⟩

/-- What AES-256-GCM makes of it. -/
def envelope : Bytes × Bytes :=
  (bytesOf 82 0x4ebc5448aacaa1de0b95db09cb0cfbf95f0b52fdd0e9b76d3a85d6a9eac3dd065b8a51eae1fb0a262bd07d9bde576d62da49ddf8fb5b85ccc4a82b7b59742660ac73f32d36e07a3b3a4ebead0650cf8a4791,
    bytesOf 16 0x1a91c0784645f34185e14f671fb4a016)

/-- With the key shares of `sealing`. -/
def gcm : Crypto.Gcm := framed.withVectors
  (⟨fill 32 7, fill 12 10, lockboxAad "box", serializePayload payload, envelope⟩ :: vectors)

theorem gcm_ideal : Crypto.IdealGcm gcm := by
  have htags : ∀ c ∈ envelope :: vectors.map (·.cipher),
      c.2.length = Crypto.gcmAuthTagBytes ∧ c.2 ≠ List.replicate Crypto.gcmAuthTagBytes 0 := by
    decide +kernel
  have hnodup : (envelope :: vectors.map (·.cipher)).Nodup := by decide +kernel
  constructor
  · refine framed_ideal.withVectors hnodup fun v hv key iv aad m h ↦ ?_
    -- no vector has a tag of zeros
    exact (htags v.cipher (List.mem_map_of_mem (f := fun v ↦ v.cipher) hv)).2
      (congrArg Prod.snd h.symm)
  · intro key iv aad m
    rcases Aead.withVectors_encrypt_cases framed _ key iv aad m with
      ⟨v, hv, -, -, -, -, hcipher⟩ | hcipher
    · rw [gcm, hcipher]
      exact (htags v.cipher (List.mem_map_of_mem (f := fun v ↦ v.cipher) hv)).1
    · rw [gcm, hcipher]
      exact List.length_replicate

def hash : String := "3c8dc6e8d79eb8406ff83ee77b5d68e9bf6e6d07ceb3ecbe1d5ad65c21c59541"

def toISOString (t : Instant) : String := if t = 1000 then "1970-01-01T00:00:01.000Z" else ""

/-- The digest of HMAC-SHA256 for the receipt. -/
def hmac : Crypto.Hmac := fun key m ↦
  if key = fill 32 7 ∧
      m = Crypto.message (receiptPayload toISOString "box" hash "merchant" 1000).toValue then
    ⟨bytesOf 32 0x1db646ef7b69e607e5296538b1acdf581f9e4f47fce84b42c7528d276bbcc07f,
      List.length_map _ |>.trans List.length_range⟩
  else ⟨fill 32 1, List.length_replicate⟩

def config : KeyConfig where
  lockboxKekSealer := some "0101010101010101010101010101010101010101010101010101010101010101"
  lockboxKekOperator := some "0202020202020202020202020202020202020202020202020202020202020202"
  lockboxKekEscrow := some "0303030303030303030303030303030303030303030303030303030303030303"
  lockboxReceiptHmacKey := some "0707070707070707070707070707070707070707070707070707070707070707"

def env : VaultEnv where
  hashtext s := s.length
  config := config
  gcm := gcm
  hmac := hmac
  sha256 b := if b = envelope.1 then hash else ""
  toISOString := toISOString
  replaced _ := []

theorem config_keys :
    Crypto.parseKeyHex config.lockboxKekSealer "LOCKBOX_KEK_SEALER" = .ok (fill 32 1) ∧
    Crypto.parseKeyHex config.lockboxKekOperator "LOCKBOX_KEK_OPERATOR" = .ok (fill 32 2) ∧
    Crypto.parseKeyHex config.lockboxKekEscrow "LOCKBOX_KEK_ESCROW" = .ok (fill 32 3) ∧
    Crypto.parseKeyHex config.lockboxReceiptHmacKey "LOCKBOX_RECEIPT_HMAC_KEY" = .ok (fill 32 7) := by
  decide +kernel

def merle : Actor := ⟨"merle", some "merchant", some .merchantPspUser, some "m1"⟩

def oscar : Actor := ⟨"oscar", some "desk", some .marketplaceOperator, some "m2"⟩

def input : SealLockboxRequest where
  relationshipType := .acquirerRelationship
  region := .eu
  payload := payload
  payload_admissible := payload_admissible

def start : VaultConfig ℕ where
  shared := ⟨{ organizations := ["merchant", "acquirer"], lockboxes := [], lockboxKeyShares := [] }, .free⟩
  locals
    | 0 => .calledSeal merle Sample.context input
    | _ => .other (.called oscar Sample.context (.release "box" ⟨"acquirer", "condition"⟩))

def draws : VaultDraws where
  ids _ := "box"
  now := 1000
  sealing := sealing

theorem vacant_start : Vacant ["merchant", "acquirer"] start where
  organizations := rfl
  lockboxes := rfl
  shares := rfl
  receipts := rfl
  receiptColumns := rfl
  evidence := rfl
  called p := by
    cases p with
    | zero => exact Or.inl ⟨_, _, _, rfl⟩
    | succ p => exact Or.inr ⟨_, _, _, rfl⟩

theorem keys_loaded : (∃ keks, loadRoleKeks env.config = .ok keks) ∧
    loadReceiptHmacKey env.config = .ok (fill 32 7) := by
  obtain ⟨hsealer, hoperator, hescrow, hkey⟩ := config_keys
  exact ⟨⟨_, Except.bind_eq_ok'.2 ⟨_, hsealer, Except.bind_eq_ok'.2 ⟨_, hoperator,
    Except.bind_eq_ok'.2 ⟨_, hescrow, rfl⟩⟩⟩⟩, hkey⟩

/-- The sealing. -/
def steps : List (ℕ × Tick VaultDraws) := List.replicate 2 (0, .act draws)

theorem run_steps : ∃ c call, ((vaultCalls env).system ℕ).run start steps = some c ∧
    c.locals 0 = .sealed call call.row ∧ call.lockboxId = "box" ∧ call.input = input ∧
    call.organizationId = "merchant" ∧
    c.shared = start.shared.close 0 (start.shared.db.withSeal call "box") := by
  obtain ⟨⟨keks, hkeks⟩, hkey⟩ := keys_loaded
  have horg : merle.organizationId = some "merchant" := rfl
  have hrep : Represents env ["merchant", "acquirer"] start.shared.db fun _ ↦ none :=
    vacant_start.represents
  obtain ⟨call, hsolo, hprepared, hinput, hactor, hid⟩ := solo_seal (p := 0) hrep horg (by decide)
    hkeks hkey draws List.not_mem_nil List.not_mem_nil
  obtain ⟨c, hrun, hshared, hlocal⟩ := PartySystem.run_replicate_of_solo (c := start) hsolo
  refine ⟨c, call, hrun, hlocal, hid, hinput, ?_, hshared⟩
  have hsealer := hprepared.organization
  rw [hactor, horg] at hsealer
  exact (Option.some.inj hsealer).symm

theorem seen_steps {c : VaultConfig ℕ} {call : SealCall}
    (hrun : ((vaultCalls env).system ℕ).run start steps = some c)
    (hlocal : c.locals 0 = .sealed call call.row) :
    .sealed call.actor call.row.id call.input.payload ∈ ((vaultCalls env).system ℕ).eventsAlong
      (fun c p c' ↦ seen (c.locals p) (c'.locals p)) start steps := by
  have hstart : start.locals 0 ≠ .sealed call call.row := by
    intro h
    cases h
  refine PartySystem.mem_eventsAlong (P := fun l ↦ l = .sealed call call.row)
    (fun {c p t c'} hfire _ hl' ↦ ?_) hrun hstart hlocal
  exact seen_sealed (CallSystem.transition_of_fire hfire) hl'

theorem history_of_steps : ∃ c dep, ((vaultCalls env).system ℕ).run start steps = some c ∧
    History ["merchant", "acquirer"] "box" ((((vaultCalls env).system ℕ).eventsAlong
      (fun c p c' ↦ seen (c.locals p) (c'.locals p)) start steps).filter (·.id = "box")) dep ∧
    (LockboxRepository.findById c.shared.db.toDb "box").map (·.status) = dep.map Deposit.status := by
  obtain ⟨c, _, hrun, -⟩ := run_steps
  obtain ⟨dep, h⟩ := history_of_run gcm_ideal vacant_start hrun "box"
  exact ⟨c, dep, hrun, h⟩

theorem released_of_steps : ∃ c c' result, ((vaultCalls env).system ℕ).run start steps = some c ∧
    ((vaultCalls env).system ℕ).run c (List.replicate 4 (1, .act draws)) = some c' ∧
    c'.locals 1 = .other (.released result) ∧ result.lockbox.id = "box" ∧
    result.disclosedPayload = ⟨"Acme", "calls", "none"⟩ := by
  obtain ⟨c, call, hrun, hlocal, hid, hinput, -, hshared⟩ := run_steps
  have hseen := seen_steps hrun hlocal
  have hstatus : (LockboxRepository.findById c.shared.db.toDb call.row.id).map (·.status) =
      some .sealed := by
    have hfind : LockboxRepository.findById c.shared.db.toDb call.row.id = some call.row := by
      rw [hshared]
      exact List.find?_cons_of_pos (decide_eq_true rfl)
    rw [hfind]
    rfl
  have hother : c.locals 1 = start.locals 1 :=
    PartySystem.locals_of_run hrun fun step hstep h ↦ by
      rw [List.eq_of_mem_replicate hstep] at h
      cases h
  rw [show call.row.id = "box" from hid] at hseen hstatus
  obtain ⟨c', result, hrun', hreleased, hbox, hpayload⟩ := released_of_run gcm_ideal vacant_start hrun
    hseen hstatus (p := 1) (hother : c.locals 1 = .other (.called oscar Sample.context _))
    (Or.inr rfl) rfl (by decide) (by rw [hshared]; rfl) draws (by rw [hshared]; exact List.not_mem_nil)
  refine ⟨c, c', result, hrun, hrun', hreleased, hbox, hpayload.trans ?_⟩
  rw [hinput]
  decide +kernel

end VaultSample

end TolPlatform.Lockboxes
