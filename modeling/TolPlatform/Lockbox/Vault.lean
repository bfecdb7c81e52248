import TolPlatform.Lockbox.Disclosure
import TolPlatform.Lockbox.Escrow
import TolPlatform.Lockbox.Seal

/-!
# The calls of the vault

Any number of `seal`, `withdraw` and `release` calls on one vault. Beyond what is known of a withdrawal and a
release on their own (`Knows`), each leaves alone what a sealing has fixed (`Keeps`), a release appends one
row of evidence and returns what it has decrypted (`Disclosed`), and whoever was allowed to make the call
when it was checked is still allowed when it commits (`Authorized`). A sealing takes no lock and knows only
what it has computed itself. These assertions are the outline of the vault (`vaultOutline`).
-/

namespace TolPlatform.Lockboxes

open Crypto (WrappedShare RoleKeks)

/-! ### What a withdrawal and a release leave alone -/

/-- What a sealing fixes of a row. -/
def Lockbox.fixed (box : Lockbox) : Uuid × Uuid × Crypto.AesGcmCiphertext × String :=
  (box.id, box.sealerOrgId, box.envelope, box.ciphertextHash)

structure Keeps (db db' : Db) : Prop where
  organizations : db'.organizations = db.organizations
  fixed : db'.lockboxes.map Lockbox.fixed = db.lockboxes.map Lockbox.fixed
  receipts : db'.lockboxReceipts = db.lockboxReceipts

section

variable {db db' db'' : Db}

theorem Keeps.refl (db : Db) : Keeps db db := ⟨rfl, rfl, rfl⟩

theorem Keeps.trans (h : Keeps db db') (h' : Keeps db' db'') : Keeps db db'' :=
  ⟨h'.organizations.trans h.organizations, h'.fixed.trans h.fixed, h'.receipts.trans h.receipts⟩

theorem Keeps.fixed_eq (h : Keeps db db') (hids : (db.lockboxes.map (·.id)).Nodup) {r r' : Lockbox}
    (hr : r ∈ db.lockboxes) (hr' : r' ∈ db'.lockboxes) (hid : r'.id = r.id) : r'.fixed = r.fixed := by
  have hmem : r'.fixed ∈ db.lockboxes.map Lockbox.fixed := h.fixed ▸ List.mem_map_of_mem hr'
  obtain ⟨r₀, hr₀, hfixed⟩ := List.mem_map.1 hmem
  have hid₀ : r₀.id = r.id := (congrArg Prod.fst hfixed).trans hid
  rw [← hfixed, Rows.eq_of_key_eq hids hr hr₀ hid₀]

theorem Keeps.exists_mem (h : Keeps db db') {r : Lockbox} (hr : r ∈ db.lockboxes) :
    ∃ r' ∈ db'.lockboxes, r'.fixed = r.fixed :=
  List.mem_map.1 (h.fixed ▸ List.mem_map_of_mem hr)

/-- A status `UPDATE` whose columns are not among the fixed ones. -/
theorem setStatus_keeps {id : Uuid} {t : LockboxStatus} {columns : Lockbox → Lockbox} {box : Lockbox}
    (h : LockboxRepository.setStatus id t columns db = .ok (box, db'))
    (hcolumns : ∀ r, (LockboxRepository.withStatus t columns r).fixed = r.fixed) :
    Keeps db db' ∧ db'.lockboxReleaseEvidence = db.lockboxReleaseEvidence := by
  rw [LockboxRepository.setStatus, Tx.get_bind_eq_ok, Tx.check_bind_eq_ok] at h
  obtain ⟨old, -, h⟩ := h
  rw [Tx.modify_bind_eq_ok] at h
  obtain ⟨r, -, -, rfl⟩ := Table.update_eq_ok_iff.1 h
  refine ⟨⟨rfl, ?_, rfl⟩, rfl⟩
  show (db.lockboxes.map fun r ↦ if r.id = id then _ else r).map Lockbox.fixed = _
  rw [List.map_map]
  refine List.map_congr_left fun r _ ↦ ?_
  show (if r.id = id then LockboxRepository.withStatus t columns r else r).fixed = r.fixed
  split_ifs
  · exact hcolumns r
  · rfl

theorem releaseHops_keeps {id : Uuid} {rest : List LockboxStatus} {current result : LockboxStatus}
    (h : releaseHops id current rest db = .ok (result, db')) :
    Keeps db db' ∧ db'.lockboxReleaseEvidence = db.lockboxReleaseEvidence := by
  induction rest generalizing current db with
  | nil =>
    obtain ⟨rfl, rfl⟩ := Prod.mk.inj (Tx.pure_eq_ok.1 h)
    exact ⟨.refl _, rfl⟩
  | cons next rest ih =>
    cases rest with
    | nil =>
      obtain ⟨rfl, rfl⟩ := Prod.mk.inj (Tx.pure_eq_ok.1 h)
      exact ⟨.refl _, rfl⟩
    | cons last rest =>
      obtain ⟨_, -, h⟩ := Tx.check_bind_eq_ok.1 h
      obtain ⟨box, db₁, hupdate, h⟩ := Tx.bind_eq_ok.1 h
      obtain ⟨hkeeps, hevidence⟩ := setStatus_keeps hupdate fun _ ↦ rfl
      obtain ⟨hkeeps', hevidence'⟩ := ih h
      exact ⟨hkeeps.trans hkeeps', hevidence'.trans hevidence⟩

theorem withdrawTx_keeps {d : Draws} {call : WithdrawCall} {box : Lockbox}
    (h : withdrawTx d call db = .ok (box, db')) :
    Keeps db db' ∧ db'.lockboxReleaseEvidence = db.lockboxReleaseEvidence := by
  obtain ⟨updated, db₁, hupdate, h⟩ := Tx.bind_eq_ok.1 h
  obtain ⟨count, db₂, hdestroy, h⟩ := Tx.bind_eq_ok.1 h
  obtain ⟨_, -, h⟩ := Tx.check_bind_eq_ok.1 h
  obtain ⟨rfl, rfl⟩ := Prod.mk.inj (Except.ok.inj h)
  obtain ⟨-, rfl⟩ := Prod.mk.inj (Except.ok.inj hdestroy)
  obtain ⟨⟨horgs, hfixed, hreceipts⟩, hevidence⟩ := setStatus_keeps hupdate fun _ ↦ rfl
  exact ⟨⟨horgs, hfixed, hreceipts⟩, hevidence⟩

/-- A release has decrypted what it returns, and leaves one row of evidence. -/
structure Disclosed (env : Env) (call : ReleaseCall) (box : Lockbox) (shares : List WrappedShare)
    (keks : RoleKeks) (result : ReleaseResult) (db db' : Db) : Prop where
  payload : disclose env call box shares keks = .ok result.disclosedPayload
  keeps : Keeps db db'
  evidence : db'.lockboxReleaseEvidence = db.lockboxReleaseEvidence ++ [result.releaseEvidence]
  lockboxId : result.releaseEvidence.lockboxId = call.lockboxId
  ciphertextHash : result.releaseEvidence.ciphertextHash = box.ciphertextHash
  receiptId : result.releaseEvidence.receiptId =
    (LockboxReceiptRepository.findLatestByLockbox db call.lockboxId).map (·.id)

theorem releaseTx_disclosed {env : Env} {d : Draws} {call : ReleaseCall} {box : Lockbox}
    {shares : List WrappedShare} {keks : RoleKeks} {result : ReleaseResult}
    (h : releaseTx env d call box shares keks db = .ok (result, db')) :
    Disclosed env call box shares keks result db db' := by
  obtain ⟨payload, hpayload, h⟩ := Tx.check_bind_eq_ok.1 h
  obtain ⟨current, db₁, hhops, h⟩ := Tx.bind_eq_ok.1 h
  obtain ⟨_, -, h⟩ := Tx.check_bind_eq_ok.1 h
  obtain ⟨updated, db₂, hupdate, h⟩ := Tx.bind_eq_ok.1 h
  obtain ⟨row, db₃, hevidence, h⟩ := Tx.bind_eq_ok.1 h
  obtain ⟨rfl, rfl⟩ := Prod.mk.inj (Except.ok.inj h)
  obtain ⟨hkeeps₁, hrows₁⟩ := releaseHops_keeps hhops
  obtain ⟨hkeeps₂, hrows₂⟩ := setStatus_keeps hupdate fun _ ↦ rfl
  have hkeeps := hkeeps₁.trans hkeeps₂
  rw [createEvidence, Tx.get_bind_eq_ok] at hevidence
  obtain ⟨-, rfl, rfl⟩ := Table.insert_eq_ok_iff.1 hevidence
  refine ⟨hpayload, ⟨hkeeps.organizations, hkeeps.fixed, hkeeps.receipts⟩, ?_, rfl, rfl, ?_⟩
  · show db₂.lockboxReleaseEvidence ++ _ = _
    rw [hrows₂, hrows₁]
  · show (LockboxReceiptRepository.findLatestByLockbox db₂ call.lockboxId).map _ = _
    rw [LockboxReceiptRepository.findLatestByLockbox, LockboxReceiptRepository.findLatestByLockbox,
      hkeeps.receipts]

/-- What the commit of a withdrawal or a release does. -/
inductive Did (env : Env) (db db' : Db) : Local → Local → Prop
  | withdrew {call box} : box.id = call.lockboxId → Withdrawn call.lockboxId db db' →
      Keeps db db' → db'.lockboxReleaseEvidence = db.lockboxReleaseEvidence →
      Did env db db' (.withdrawValidated call) (.withdrew box)
  | released {call keks box shares result} : result.lockbox.id = call.lockboxId →
      Opened call.lockboxId db db' → Disclosed env call box shares keks result db db' →
      Did env db db' (.releaseValidated call keks box shares) (.released result)

theorem did_of_commit {env : Env} {d : Draws} {l l' : Local} {body : Tx Db Thrown Local}
    (hids : (db.lockboxes.map (·.id)).Nodup) (hl : Knows db l)
    (hnext : (calls env).next d l = .commit body) (hbody : body db = .ok (l', db')) :
    Did env db db' l l' := by
  have hwrote := wrote_of_commit hids hl hnext hbody
  cases hwrote with
  | withdrawn hid h =>
    obtain rfl := NextStep.commit.inj hnext
    obtain ⟨box, hbox, hret⟩ := Tx.map_eq_ok.1 hbody
    obtain rfl := Local.withdrew.inj hret
    obtain ⟨hkeeps, hevidence⟩ := withdrawTx_keeps hbox
    exact .withdrew hid h hkeeps hevidence
  | opened hid h =>
    obtain rfl := NextStep.commit.inj hnext
    obtain ⟨result, hresult, hret⟩ := Tx.map_eq_ok.1 hbody
    obtain rfl := Local.released.inj hret
    exact .released hid h (releaseTx_disclosed hresult)

end

/-! ### Who may -/

/-- No role withdraws the lockbox of another organization. -/
theorem can_lockboxWithdraw_allowed {actor : Actor} {sealerOrgId : Uuid}
    (h : (can actor .lockboxWithdraw ⟨.lockbox, some sealerOrgId⟩).allowed = true) :
    MayWithdraw actor sealerOrgId := by
  obtain ⟨role, organizationId, -, horg, -, hgranted⟩ := can_allowed_grant h
  have hcross : Action.lockboxWithdraw ∉ (authorityMatrix role).crossOrgActions := by
    cases role <;> decide
  by_cases hown : sealerOrgId = organizationId
  · exact hown ▸ horg
  · have hdenied : (canGranted role organizationId .lockboxWithdraw ⟨.lockbox, some sealerOrgId⟩
        {}).allowed = false := by
      simp [canGranted, hcross, hown, deny]
    rw [hdenied] at hgranted
    cases hgranted

theorem can_lockboxRelease_allowed {actor : Actor} {resource : Resource}
    (h : (can actor .lockboxRelease resource).allowed = true) : MayRelease actor := by
  obtain ⟨role, -, hrole, -, hgrant, -⟩ := can_allowed_grant h
  rw [MayRelease, hrole]
  cases role with
  | platformOwner => exact Or.inl rfl
  | marketplaceOperator => exact Or.inr rfl
  | _ => exact absurd hgrant (by decide)

/-- What a call was allowed to do when it was checked. -/
def Authorized (db : Db) : Local → Prop
  | .withdrawChecked call | .withdrawLocked call | .withdrawValidated call =>
    ∃ box ∈ db.lockboxes, box.id = call.lockboxId ∧ MayWithdraw call.actor box.sealerOrgId
  | .releaseChecked call _ | .releaseLocked call _ | .releaseValidated call _ _ _ =>
    MayRelease call.actor ∧ call.input.recipientOrgId ∈ db.organizations
  | _ => True

section

variable {db db' : Db} {l l' : Local}

theorem requireAllowed_eq_ok_iff {decision : AuthDecision} {u : Unit} :
    requireAllowed decision = .ok u ↔ decision.allowed = true := by
  rw [requireAllowed, throwIf_eq_ok_iff, Bool.not_eq_false]

theorem authorized_of_query {env : Env} {d : Draws} {f : Db → Except Thrown Local}
    (hl : Authorized db l) (hnext : (calls env).next d l = .query f) (hf : f db = .ok l') :
    Authorized db l' := by
  cases l with
  | called actor context request =>
    obtain rfl := NextStep.query.inj hnext
    cases request with
    | withdraw lockboxId input =>
      obtain ⟨box, hcheck, h⟩ := Except.bind_eq_ok'.1 hf
      obtain rfl := Except.ok.inj h
      obtain ⟨found, hfound, h⟩ := Except.bind_eq_ok'.1 hcheck
      obtain ⟨_, hallowed, h⟩ := Except.bind_eq_ok'.1 h
      obtain ⟨_, -, h⟩ := Except.bind_eq_ok'.1 h
      obtain rfl := Except.ok.inj h
      obtain ⟨hmem, hid⟩ := findById_eq_some (orThrow_eq_ok_iff.1 hfound)
      exact ⟨found, hmem, hid, can_lockboxWithdraw_allowed (requireAllowed_eq_ok_iff.1 hallowed)⟩
    | release lockboxId input =>
      obtain ⟨box, hcheck, h⟩ := Except.bind_eq_ok'.1 hf
      obtain ⟨_, -, h⟩ := Except.bind_eq_ok'.1 h
      obtain rfl := Except.ok.inj h
      obtain ⟨found, -, h⟩ := Except.bind_eq_ok'.1 hcheck
      obtain ⟨_, hallowed, h⟩ := Except.bind_eq_ok'.1 h
      obtain ⟨_, hrecipient, -⟩ := Except.bind_eq_ok'.1 h
      exact ⟨can_lockboxRelease_allowed (requireAllowed_eq_ok_iff.1 hallowed),
        not_not.1 (throwIf_eq_ok_iff.1 hrecipient)⟩
  | withdrawLocked call =>
    obtain rfl := NextStep.query.inj hnext
    obtain ⟨_, -, h⟩ := Except.bind_eq_ok'.1 hf
    obtain rfl := Except.ok.inj h
    exact hl
  | releaseLocked call keks =>
    obtain rfl := NextStep.query.inj hnext
    obtain ⟨_, -, h⟩ := Except.bind_eq_ok'.1 hf
    obtain rfl := Except.ok.inj h
    exact hl
  | _ => cases hnext

/-- It stays true as long as the rows live on with what a sealing has fixed. -/
theorem Authorized.of_evolves (hl : Authorized db l)
    (hboxes : ∀ r ∈ db.lockboxes, ∃ r' ∈ db'.lockboxes, r'.fixed = r.fixed)
    (horgs : db'.organizations = db.organizations) : Authorized db' l := by
  have hmove {id : Uuid} {actor : Actor}
      (h : ∃ box ∈ db.lockboxes, box.id = id ∧ MayWithdraw actor box.sealerOrgId) :
      ∃ box ∈ db'.lockboxes, box.id = id ∧ MayWithdraw actor box.sealerOrgId := by
    obtain ⟨box, hbox, hid, hmay⟩ := h
    obtain ⟨box', hbox', hfixed⟩ := hboxes box hbox
    have hid' : box'.id = box.id := congrArg Prod.fst hfixed
    have hsealer : box'.sealerOrgId = box.sealerOrgId := congrArg (fun x ↦ x.2.1) hfixed
    exact ⟨box', hbox', hid'.trans hid, hsealer ▸ hmay⟩
  cases l with
  | withdrawChecked | withdrawLocked | withdrawValidated => exact hmove hl
  | releaseChecked | releaseLocked | releaseValidated => exact ⟨hl.1, horgs ▸ hl.2⟩
  | _ => trivial

/-- What a call knows of rows stays true when rows are added. -/
theorem Knows.mono (hl : Knows db l) (hboxes : ∀ r ∈ db.lockboxes, r ∈ db'.lockboxes) :
    Knows db' l := by
  cases l with
  | withdrawValidated call =>
    obtain ⟨r, hr, h⟩ := hl
    exact ⟨r, hboxes r hr, h⟩
  | releaseValidated call keks box shares => exact ⟨hboxes box hl.1, hl.2⟩
  | withdrew box =>
    obtain ⟨r, hr, h⟩ := hl
    exact ⟨r, hboxes r hr, h⟩
  | released result =>
    obtain ⟨r, hr, h⟩ := hl
    exact ⟨r, hboxes r hr, h⟩
  | _ => trivial

theorem Did.keeps {env : Env} (h : Did env db db' l l') : Keeps db db' := by
  cases h with
  | withdrew _ _ hkeeps => exact hkeeps
  | released _ _ h => exact h.keeps

theorem Did.authorized {env : Env} (h : Did env db db' l l') : Authorized db' l' := by
  cases h <;> trivial

end

/-! ### The calls of the vault -/

/-- The commit of a sealing, or one of the other calls on its part of the vault. -/
theorem vaultCommit_cases {env : VaultEnv} {d : VaultDraws} {l l' : VaultLocal} {v v' : Vault}
    {body : Tx Vault Thrown VaultLocal} (hnext : (vaultCalls env).next d l = .commit body)
    (hbody : body v = .ok (l', v')) :
    (∃ call box, l = .sealing call ∧ l' = .sealed call box ∧ sealTx d.toDraws call v = .ok (box, v')) ∨
      ∃ m m' b db', l = .other m ∧ l' = .other m' ∧
        (calls env.toEnv).next d.toDraws m = .commit b ∧ b v.toDb = .ok (m', db') ∧
          v' = { v with toDb := db' } := by
  cases l with
  | sealing call =>
    obtain rfl := NextStep.commit.inj hnext
    obtain ⟨box, hbox, rfl⟩ := Tx.map_eq_ok.1 hbody
    exact Or.inl ⟨call, box, rfl, rfl, hbox⟩
  | other m =>
    obtain ⟨b, m', db', hb, hm', rfl, rfl⟩ := NextStep.zoom_eq_commit hnext hbody
    exact Or.inr ⟨m, m', b, db', rfl, rfl, hb, hm', rfl⟩
  | _ => cases hnext

theorem vaultQuery_cases {env : VaultEnv} {d : VaultDraws} {l l' : VaultLocal} {v : Vault}
    {f : Vault → Except Thrown VaultLocal} (hnext : (vaultCalls env).next d l = .query f)
    (hf : f v = .ok l') :
    (∃ actor context input call, l = .calledSeal actor context input ∧ l' = .sealing call ∧
      prepareSeal env d actor input context = .ok call) ∨
    ∃ m m' g, l = .other m ∧ l' = .other m' ∧ (calls env.toEnv).next d.toDraws m = .query g ∧
      g v.toDb = .ok m' := by
  cases l with
  | calledSeal actor context input =>
    obtain rfl := NextStep.query.inj hnext
    obtain ⟨call, hcall, hret⟩ := Except.bind_eq_ok'.1 hf
    exact Or.inl ⟨actor, context, input, call, rfl, (Except.ok.inj hret).symm, hcall⟩
  | other m =>
    obtain ⟨g, m', hg, hm', rfl⟩ := NextStep.zoom_eq_query hnext hf
    exact Or.inr ⟨m, m', g, rfl, rfl, hg, hm'⟩
  | _ => cases hnext

theorem vaultLock_cases {env : VaultEnv} {d : VaultDraws} {l l' : VaultLocal} {key : Int}
    (hnext : (vaultCalls env).next d l = .lock key l') :
    ∃ m m', l = .other m ∧ l' = .other m' ∧ (calls env.toEnv).next d.toDraws m = .lock key m' := by
  cases l with
  | other m =>
    obtain ⟨m', hm', rfl⟩ := NextStep.zoom_eq_lock hnext
    exact ⟨m, m', rfl, rfl, hm'⟩
  | _ => cases hnext

section

variable (env : VaultEnv)

/-- A sealing takes no lock. -/
def heldInVault : VaultLocal → Option Int
  | .other l => held env.toEnv l
  | _ => none

def vaultDiscipline : (vaultCalls env).LockDiscipline where
  held := heldInVault env
  queried hnext hf := by
    rcases vaultQuery_cases hnext hf with ⟨_, _, _, _, rfl, rfl, -⟩ | ⟨m, m', g, rfl, rfl, hg, hm'⟩
    · rfl
    · exact (lockDiscipline env.toEnv).queried hg hm'
  locked hnext := by
    obtain ⟨m, m', rfl, rfl, hm'⟩ := vaultLock_cases hnext
    exact (lockDiscipline env.toEnv).locked hm'
  committed hnext hbody := by
    rcases vaultCommit_cases hnext hbody with ⟨_, _, rfl, rfl, -⟩ | ⟨m, m', b, _, rfl, rfl, hb, hm', -⟩
    · rfl
    · exact (lockDiscipline env.toEnv).committed hb hm'
  failed _ := rfl
  crashed := rfl

/-- What a call of the vault may rely on. -/
def VaultKnows (v : Vault) : VaultLocal → Prop
  | .sealing call => call.Prepared env
  | .other l => Knows v.toDb l ∧ Authorized v.toDb l
  | _ => True

variable {env}

theorem sealTx_lockboxes {d : Draws} {call : SealCall} {v v' : Vault} {box : Lockbox}
    (h : sealTx d call v = .ok (box, v')) :
    v'.lockboxes = v.lockboxes ++ [call.row] ∧ call.lockboxId ∉ v.lockboxes.map (·.id) := by
  obtain ⟨hfresh, -, -, -, rfl⟩ := sealTx_eq_ok_iff.1 h
  exact ⟨rfl, hfresh⟩

/-- A commit keeps what another call knows. -/
theorem vaultKnows_of_commit {d : VaultDraws} {l l' m : VaultLocal} {v v' : Vault}
    {body : Tx Vault Thrown VaultLocal} (hids : (v.lockboxes.map (·.id)).Nodup)
    (hl : VaultKnows env v l) (hm : VaultKnows env v m)
    (hlock : ∀ key, heldInVault env m = some key → heldInVault env l ≠ some key)
    (hnext : (vaultCalls env).next d l = .commit body) (hbody : body v = .ok (l', v')) :
    VaultKnows env v' m := by
  cases m with
  | sealing call => exact hm
  | other m =>
    obtain ⟨hknows, hauth⟩ := hm
    rcases vaultCommit_cases hnext hbody with
      ⟨call, box, rfl, rfl, hseal⟩ | ⟨k, k', b, db', rfl, rfl, hb, hk', rfl⟩
    · obtain ⟨-, -, -, -, rfl⟩ := sealTx_eq_ok_iff.1 hseal
      refine ⟨hknows.mono fun r hr ↦ List.mem_append_left _ hr,
        hauth.of_evolves (fun r hr ↦ ⟨r, List.mem_append_left _ hr, rfl⟩) rfl⟩
    · have hdid := did_of_commit hids hl.1 hb hk'
      refine ⟨knows_of_wrote hids hl.1 hknows hlock (wrote_of_commit hids hl.1 hb hk'),
        hauth.of_evolves (fun r hr ↦ hdid.keeps.exists_mem hr) hdid.keeps.organizations⟩
  | _ => trivial

def vaultOutline (env : VaultEnv) : (vaultCalls env).Outline (vaultDiscipline env) where
  inv v := (v.lockboxes.map (·.id)).Nodup
  asrt := VaultKnows env
  queried _ hl hnext hf := by
    rcases vaultQuery_cases hnext hf with
      ⟨_, _, _, call, rfl, rfl, hcall⟩ | ⟨m, m', g, rfl, rfl, hg, hm'⟩
    · exact (prepareSeal_eq_ok hcall).1
    · exact ⟨(read_of_query hg hm').knows, authorized_of_query hl.2 hg hm'⟩
  locked {d l key v l'} _ hl hnext := by
    obtain ⟨m, m', rfl, rfl, hm'⟩ := vaultLock_cases hnext
    cases m with
    | withdrawChecked | releaseChecked =>
      obtain ⟨rfl, rfl⟩ := NextStep.lock.inj hm'
      exact ⟨trivial, hl.2⟩
    | _ => cases hm'
  committed {d l body v l' v'} hids hl hnext hbody := by
    rcases vaultCommit_cases hnext hbody with
      ⟨call, box, rfl, rfl, hseal⟩ | ⟨m, m', b, db', rfl, rfl, hb, hm', rfl⟩
    · obtain ⟨hboxes, hfresh⟩ := sealTx_lockboxes hseal
      refine ⟨?_, trivial⟩
      rw [hboxes, List.map_append]
      refine hids.append (List.nodup_singleton _) fun id hid hid' ↦ hfresh ?_
      have hrow : id = call.lockboxId := List.mem_singleton.1 hid'
      exact hrow ▸ hid
    · have hwrote := wrote_of_commit hids hl.1 hb hm'
      have hdid := did_of_commit hids hl.1 hb hm'
      refine ⟨?_, hwrote.knows hl.1, hdid.authorized⟩
      have hfixed := congrArg (List.map Prod.fst) hdid.keeps.fixed
      rw [List.map_map, List.map_map] at hfixed
      exact (hfixed : db'.lockboxes.map (·.id) = v.lockboxes.map (·.id)) ▸ hids
  failed _ := ⟨trivial, trivial⟩
  crashed := ⟨trivial, trivial⟩
  stable hids hl hm hlock hnext hbody := vaultKnows_of_commit hids hl hm hlock hnext hbody

end

end TolPlatform.Lockboxes
