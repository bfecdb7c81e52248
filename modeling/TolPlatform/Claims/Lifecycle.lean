import TolPlatform.Claims.Service
import TolPlatform.Library.Evolution
import TolPlatform.Memberships.Service

/-!
# The dispute lifecycle

Whatever the order in which the statements of `create`, `fileDispute` and `decide` run, a claim is
`DISPUTED` exactly while it has an open dispute, statuses move along `CLAIM_TRANSITIONS`, a decision
that ends a dispute ends the open one, and nobody decides on a claim of the organization it acts for
(`disputeLifecycle_of_reachable`).

`Wrote` says once what each transaction writes. The outline then says what a call may rely on:
before its lock, that the claim's organization is not its own, which no write changes; under the lock,
what it has read, which only calls under the same key could change.

The guard against self-certification compares organizations, not people: somebody with a membership
in the claimant organization and another one elsewhere may decide under the other one
(`member_decides`).
-/

namespace TolPlatform.Claims

/-! ### What the transactions write -/

/-- A filed claim: one new row, `SCORED`. -/
structure Created (db db' : Db) (claim : Claim) : Prop where
  fresh : claim.id ∉ db.claims.map (·.id)
  status : claim.status = .scored
  claims_eq : db'.claims = db.claims ++ [claim]
  disputes_eq : db'.claimDisputes = db.claimDisputes
  decisions_eq : db'.claimDecisions = db.claimDecisions

/-- A filed dispute: one new row, `OPEN`, and its claim is `DISPUTED`. -/
structure Disputed (db db' : Db) (dispute : ClaimDispute) : Prop where
  fresh : dispute.id ∉ db.claimDisputes.map (·.id)
  status : dispute.status = .open_
  claims_eq : db'.claims =
    Rows.rewrite (·.id) dispute.claimId (ClaimRepository.setStatus .disputed) db.claims
  disputes_eq : db'.claimDisputes = db.claimDisputes ++ [dispute]
  decisions_eq : db'.claimDecisions = db.claimDecisions

/-- The disputes once one of them, if any, is decided. -/
def resolve (openDispute : Option ClaimDispute) (resolution : ClaimDisputeResolution)
    (disputes : List ClaimDispute) : List ClaimDispute :=
  match openDispute with
  | none => disputes
  | some o => Rows.rewrite (·.id) o.id (ClaimDisputeRepository.decidedAs resolution) disputes

/-- A decision: one new row, the claim in the decided status, and the dispute that was read resolved. -/
structure Decided (db db' : Db) (call : DecideCall) (fresh : FreshDecision)
    (decision : ClaimDecision) : Prop where
  claimId : decision.claimId = call.claimId
  disputeId : decision.disputeId = fresh.openDispute.map (·.id)
  outcome : decision.decision = call.input.decision
  reviewer : call.actor.organizationId = some decision.reviewerOrgId
  claims_eq : db'.claims = Rows.rewrite (·.id) call.claimId
    (ClaimRepository.setStatus call.input.decision.toStatus) db.claims
  disputes_eq : db'.claimDisputes =
    resolve fresh.openDispute (disputeResolutionFor call.input.decision) db.claimDisputes
  decisions_eq : db'.claimDecisions = db.claimDecisions ++ [decision]

section

variable {db db' : Db}

theorem createTx_eq_ok {d : Draws} {n : NewClaim} {claim : Claim}
    (h : createTx d n db = .ok (claim, db')) : ∃ row, Created db db' row := by
  obtain ⟨filed, db₁, hfiled, h⟩ := Tx.bind_eq_ok.1 h
  obtain ⟨_, -, h⟩ := Tx.check_bind_eq_ok.1 h
  obtain ⟨rows, db₂, hevidence, h⟩ := Tx.bind_eq_ok.1 h
  obtain ⟨scored, db₃, hscored, h⟩ := Tx.bind_eq_ok.1 h
  obtain ⟨-, rfl⟩ := Prod.mk.inj (Except.ok.inj h)
  obtain ⟨hfresh, -, rfl⟩ := Table.insert_eq_ok_iff.1 hfiled
  -- the evidence goes into a table of its own
  obtain ⟨rfl, -⟩ := Table.insertEach_eq_ok (T := claimEvidence) (R := fun _ _ ↦ True)
    (fun {id item s row s'} hrow ↦ by
      obtain ⟨hnew, rfl, rfl⟩ := Table.insert_eq_ok_iff.1 hrow
      exact ⟨trivial, hnew, rfl⟩) hevidence
  obtain ⟨-, -, -, rfl⟩ := Table.update_eq_ok_iff.1 hscored
  refine ⟨ClaimRepository.scored n.breakdown d.now (filedClaim n d.now), hfresh, rfl, ?_, rfl, rfl⟩
  exact Rows.rewrite_append hfresh rfl

theorem fileDisputeTx_eq_ok {env : Env} {call : DisputeCall} {claim : Claim} {disputeId : Uuid}
    {dispute : ClaimDispute} (h : fileDisputeTx env call claim disputeId db = .ok (dispute, db')) :
    Disputed db db' (newDispute call disputeId) := by
  obtain ⟨row, db₁, hrow, h⟩ := Tx.bind_eq_ok.1 h
  obtain ⟨updated, db₂, hupdated, h⟩ := Tx.bind_eq_ok.1 h
  obtain ⟨-, rfl⟩ := Prod.mk.inj (Except.ok.inj h)
  obtain ⟨_, -, hrow⟩ := Tx.check_bind_eq_ok.1 hrow
  obtain ⟨hfresh, -, rfl⟩ := Table.insert_eq_ok_iff.1 hrow
  obtain ⟨-, -, -, rfl⟩ := Table.update_eq_ok_iff.1 hupdated
  exact ⟨hfresh, rfl, rfl, rfl, rfl⟩

theorem resolveDispute_eq_ok {call : DecideCall} {fresh : FreshDecision} {u : PUnit}
    (h : resolveDispute call fresh db = .ok (u, db')) :
    db'.claims = db.claims ∧ db'.claimDecisions = db.claimDecisions ∧ db'.claimDisputes =
      resolve fresh.openDispute (disputeResolutionFor call.input.decision) db.claimDisputes := by
  unfold resolveDispute at h
  rcases hopen : fresh.openDispute with - | o
  · simp only [hopen] at h
    obtain ⟨-, rfl⟩ := Prod.mk.inj (Except.ok.inj h)
    exact ⟨rfl, rfl, rfl⟩
  · simp only [hopen] at h
    obtain ⟨row, db₁, hrow, h⟩ := Tx.bind_eq_ok.1 h
    obtain ⟨-, rfl⟩ := Prod.mk.inj (Except.ok.inj h)
    obtain ⟨-, -, -, rfl⟩ := Table.update_eq_ok_iff.1 hrow
    exact ⟨rfl, rfl, rfl⟩

theorem decideTx_eq_ok {d : Draws} {call : DecideCall} {fresh : FreshDecision}
    {decision : ClaimDecision} (h : decideTx d call fresh db = .ok (decision, db')) :
    Decided db db' call fresh decision := by
  obtain ⟨row, db₁, hrow, h⟩ := Tx.bind_eq_ok.1 h
  obtain ⟨updated, db₂, hupdated, h⟩ := Tx.bind_eq_ok.1 h
  obtain ⟨_, db₃, hresolve, h⟩ := Tx.bind_eq_ok.1 h
  obtain ⟨rfl, rfl⟩ := Prod.mk.inj (Except.ok.inj h)
  obtain ⟨org, horg, hrow⟩ := Tx.check_bind_eq_ok.1 hrow
  obtain ⟨-, rfl, rfl⟩ := Table.insert_eq_ok_iff.1 hrow
  obtain ⟨-, -, -, rfl⟩ := Table.update_eq_ok_iff.1 hupdated
  obtain ⟨hclaims, hdecisions, hdisputes⟩ := resolveDispute_eq_ok hresolve
  exact ⟨rfl, rfl, rfl, orThrow_eq_ok_iff.1 horg, hclaims, hdisputes, hdecisions⟩

end

/-! ### Consistency -/

/-- The open disputes of a claim. -/
def openDisputes (db : Db) (claimId : Uuid) : List ClaimDispute :=
  db.claimDisputes.filter fun o ↦ o.claimId = claimId ∧ o.status = .open_

/-- A `DISPUTED` claim has one open dispute, and any other claim has none. -/
def DisputesInStep (db : Db) : Prop :=
  ∀ claim ∈ db.claims, (claim.status = .disputed → ∃ o, openDisputes db claim.id = [o]) ∧
    (claim.status ≠ .disputed → openDisputes db claim.id = [])

structure Consistent (db : Db) : Prop where
  claimIds : (db.claims.map (·.id)).Nodup
  disputeIds : (db.claimDisputes.map (·.id)).Nodup
  disputeClaims : ∀ o ∈ db.claimDisputes, o.claimId ∈ db.claims.map (·.id)
  inStep : DisputesInStep db

/-- The organization of the claim is not the actor's. -/
def NotOwn (db : Db) (call : DecideCall) : Prop :=
  ∃ row ∈ db.claims, row.id = call.claimId ∧ call.actor.organizationId ≠ some row.claimantOrgId

/-- What `decide` has read under the lock is what is there. -/
structure FreshIn (db : Db) (call : DecideCall) (fresh : FreshDecision) : Prop where
  mem : fresh.claim ∈ db.claims
  id : fresh.claim.id = call.claimId
  edge : call.input.decision.toStatus ∈ claimTransitions fresh.claim.status
  openDispute : openDisputes db call.claimId = fresh.openDispute.toList

/-- What a call may rely on. -/
def Knows (db : Db) : Local → Prop
  | .disputeValidated call _ _ =>
    ∃ row ∈ db.claims, row.id = call.claimId ∧ .disputed ∈ claimTransitions row.status
  | .decideChecked call | .decideLocked call => NotOwn db call
  | .decideValidated call fresh => NotOwn db call ∧ FreshIn db call fresh
  | _ => True

/-- The key of the claim that a call has locked. -/
def held (env : Env) : Local → Option Int
  | .disputeLocked call _ _ | .disputeValidated call _ _ => some (env.hashtext call.claimId)
  | .decideLocked call | .decideValidated call _ => some (env.hashtext call.claimId)
  | _ => none

/-- What the transaction of a local state has written. -/
inductive Wrote (db db' : Db) : Local → Prop
  | created {n claim} : Created db db' claim → Wrote db db' (.scored n)
  | disputed {call claim disputeId} : Disputed db db' (newDispute call disputeId) →
      Wrote db db' (.disputeValidated call claim disputeId)
  | decided {call fresh decision} : Decided db db' call fresh decision →
      Wrote db db' (.decideValidated call fresh)

theorem wrote_of_commit {env : Env} {d : Draws} {l l' : Local} {body : Tx Db Thrown Local}
    {db db' : Db} (hnext : (calls env).next d l = .commit body) (hbody : body db = .ok (l', db')) :
    Wrote db db' l ∧ ∃ response, l' = .returned response := by
  cases l with
  | scored n =>
    obtain rfl := NextStep.commit.inj hnext
    obtain ⟨claim, hclaim, rfl⟩ := Tx.map_eq_ok.1 hbody
    obtain ⟨row, hrow⟩ := createTx_eq_ok hclaim
    exact ⟨.created hrow, _, rfl⟩
  | disputeValidated call claim disputeId =>
    obtain rfl := NextStep.commit.inj hnext
    obtain ⟨dispute, hdispute, rfl⟩ := Tx.map_eq_ok.1 hbody
    exact ⟨.disputed (fileDisputeTx_eq_ok hdispute), _, rfl⟩
  | decideValidated call fresh =>
    obtain rfl := NextStep.commit.inj hnext
    obtain ⟨decision, hdecision, rfl⟩ := Tx.map_eq_ok.1 hbody
    exact ⟨.decided (decideTx_eq_ok hdecision), _, rfl⟩
  | _ => cases hnext

/-! ### Open disputes -/

section

variable {db db' : Db}

theorem mem_openDisputes {claimId : Uuid} {o : ClaimDispute} :
    o ∈ openDisputes db claimId ↔
      o ∈ db.claimDisputes ∧ o.claimId = claimId ∧ o.status = .open_ := by
  rw [openDisputes, List.mem_filter, decide_eq_true_eq]

theorem openDisputes_of_append {dispute : ClaimDispute} (hstatus : dispute.status = .open_)
    (h : db'.claimDisputes = db.claimDisputes ++ [dispute]) (claimId : Uuid) :
    openDisputes db' claimId =
      openDisputes db claimId ++ if dispute.claimId = claimId then [dispute] else [] := by
  rw [openDisputes, openDisputes, h, List.filter_append]
  refine congrArg _ ?_
  by_cases hid : dispute.claimId = claimId
  · rw [if_pos hid]
    exact List.filter_cons_of_pos (decide_eq_true ⟨hid, hstatus⟩)
  · rw [if_neg hid]
    exact List.filter_cons_of_neg (by simp [hid])

/-- Resolving the one open dispute of a claim leaves it none, and the others theirs. -/
theorem openDisputes_of_resolve (hc : Consistent db) {claimId : Uuid}
    {openDispute : Option ClaimDispute} {resolution : ClaimDisputeResolution}
    (hopen : openDisputes db claimId = openDispute.toList)
    (h : db'.claimDisputes = resolve openDispute resolution db.claimDisputes) (j : Uuid) :
    openDisputes db' j = if j = claimId then [] else openDisputes db j := by
  cases openDispute with
  | none =>
    rw [show openDisputes db' j = openDisputes db j by rw [openDisputes, h]; rfl]
    split
    · next hj => rw [hj, hopen]; rfl
    · rfl
  | some o =>
    obtain ⟨ho, hclaim, -⟩ := mem_openDisputes.1 (hopen ▸ List.mem_singleton_self o :
      o ∈ openDisputes db claimId)
    have hfilter : openDisputes db' j = (openDisputes db j).filter fun x ↦ x.id ≠ o.id := by
      have hdecided (x : ClaimDispute) :
          decide ((ClaimDisputeRepository.decidedAs resolution x).claimId = j ∧
            (ClaimDisputeRepository.decidedAs resolution x).status = .open_) = false :=
        decide_eq_false fun hx ↦ nomatch (hx.2 : ClaimDisputeStatus.decided = .open_)
      rw [openDisputes, h]
      exact Rows.filter_rewrite hdecided _
    rw [hfilter]
    split
    · next hj =>
      rw [hj, hopen]
      exact List.filter_cons_of_neg (by simp)
    · next hj =>
      rw [List.filter_eq_self]
      intro x hx
      rw [decide_eq_true_eq]
      intro hid
      -- an id names one dispute, and that one is of the decided claim
      obtain ⟨hmem, hxj, -⟩ := mem_openDisputes.1 hx
      obtain rfl := Rows.eq_of_key_eq hc.disputeIds ho hmem hid
      exact hj (hxj.symm.trans hclaim)

end

/-! ### Each write keeps what the others know -/

section

variable {db db' : Db}

/-- The same claim, perhaps in another status. -/
def SameClaim (a b : Claim) : Prop := b.id = a.id ∧ b.claimantOrgId = a.claimantOrgId

/-- A write concerns one claim. -/
structure KeptBut (k : Uuid) (db db' : Db) : Prop where
  claims : ∀ row ∈ db.claims, row.id ≠ k → row ∈ db'.claims
  openDisputes : ∀ j, j ≠ k → openDisputes db' j = openDisputes db j
  organizations : Rows.Evolves SameClaim db.claims db'.claims

theorem Created.kept {claim : Claim} (h : Created db db' claim) : KeptBut claim.id db db' where
  claims row hrow _ := h.claims_eq ▸ List.mem_append_left _ hrow
  openDisputes j _ := by rw [openDisputes, h.disputes_eq]; rfl
  organizations := h.claims_eq ▸ Rows.Evolves.append (fun _ ↦ ⟨rfl, rfl⟩) _ _

theorem evolves_setStatus {k : Uuid} {status : ClaimStatus} {rows : List Claim} :
    Rows.Evolves SameClaim rows (Rows.rewrite (·.id) k (ClaimRepository.setStatus status) rows) :=
  Rows.Evolves.rewrite (fun _ ↦ ⟨rfl, rfl⟩) fun _ _ _ ↦ ⟨rfl, rfl⟩

theorem Disputed.kept {dispute : ClaimDispute} (h : Disputed db db' dispute) :
    KeptBut dispute.claimId db db' where
  claims row hrow hid := h.claims_eq ▸ Rows.mem_rewrite_iff.2 ⟨row, hrow, if_neg hid⟩
  openDisputes j hj := by
    rw [openDisputes_of_append h.status h.disputes_eq, if_neg (Ne.symm hj), List.append_nil]
  organizations := h.claims_eq ▸ evolves_setStatus

theorem Decided.kept (hc : Consistent db) {call : DecideCall} {fresh : FreshDecision}
    {decision : ClaimDecision} (hfresh : FreshIn db call fresh)
    (h : Decided db db' call fresh decision) : KeptBut call.claimId db db' where
  claims row hrow hid := h.claims_eq ▸ Rows.mem_rewrite_iff.2 ⟨row, hrow, if_neg hid⟩
  openDisputes j hj := by
    rw [openDisputes_of_resolve hc hfresh.openDispute h.disputes_eq, if_neg hj]
  organizations := h.claims_eq ▸ evolves_setStatus

/-- The claim that a write concerns is new or locked by the writer. -/
theorem Wrote.kept (env : Env) {l : Local} (hc : Consistent db) (hl : Knows db l)
    (h : Wrote db db' l) : ∃ k, KeptBut k db db' ∧
      (k ∉ db.claims.map (·.id) ∨ held env l = some (env.hashtext k)) := by
  cases h with
  | created h => exact ⟨_, h.kept, Or.inl h.fresh⟩
  | disputed h => exact ⟨_, h.kept, Or.inr rfl⟩
  | decided h => exact ⟨_, h.kept hc hl.2, Or.inr rfl⟩

theorem NotOwn.of_evolves {call : DecideCall} (h : NotOwn db call)
    (hevolves : Rows.Evolves SameClaim db.claims db'.claims) : NotOwn db' call := by
  obtain ⟨row, hrow, hid, hown⟩ := h
  obtain ⟨row', hrow', hid', horg⟩ := hevolves row hrow
  exact ⟨row', hrow', hid'.trans hid, horg ▸ hown⟩

/-- **Non-interference.** A write under another key, or under none, leaves what a call knows. -/
theorem knows_of_wrote {env : Env} {l m : Local} (hc : Consistent db) (hl : Knows db l)
    (hm : Knows db m) (hlock : ∀ key, held env m = some key → held env l ≠ some key)
    (h : Wrote db db' l) : Knows db' m := by
  obtain ⟨k, hkept, hk⟩ := h.kept env hc hl
  -- the claim that `m` has locked is another one: it exists, and the writer does not hold its key
  have hother {j : Uuid} {row : Claim} (hrow : row ∈ db.claims) (hid : row.id = j)
      (hheld : held env m = some (env.hashtext j)) : j ≠ k := by
    rintro rfl
    rcases hk with hfresh | hkey
    · exact hfresh (List.mem_map.2 ⟨row, hrow, hid⟩)
    · exact hlock _ hheld hkey
  cases m with
  | disputeValidated call claim disputeId =>
    obtain ⟨row, hrow, hid, hedge⟩ := hm
    exact ⟨row, hkept.claims row hrow (hid ▸ hother hrow hid rfl), hid, hedge⟩
  | decideChecked call => exact NotOwn.of_evolves hm hkept.organizations
  | decideLocked call => exact NotOwn.of_evolves hm hkept.organizations
  | decideValidated call fresh =>
    obtain ⟨hown, hmem, hid, hedge, hopen⟩ := hm
    have hj := hother hmem hid rfl
    refine ⟨hown.of_evolves hkept.organizations, hkept.claims _ hmem (hid ▸ hj), hid, hedge, ?_⟩
    rw [hkept.openDisputes _ hj, hopen]
  | _ => trivial

end

/-! ### Each write is a legal step -/

section

variable {db db' : Db}

/-- A legal step: statuses move along edges, a claim that leaves `DISPUTED` does so by a decision
that resolves its open dispute and nothing else, and nobody decides for the claimant. -/
structure LegalStep (db db' : Db) : Prop where
  edges : Rows.StatusLegal Claim.id Claim.status claimTransitions db.claims db'.claims
  resolves : ∀ claim ∈ db.claims, ∀ claim' ∈ db'.claims, claim'.id = claim.id →
    claim.status = .disputed → claim'.status ≠ .disputed →
      ∃ o decision, openDisputes db claim.id = [o] ∧
        db'.claimDecisions = db.claimDecisions ++ [decision] ∧
        decision.claimId = claim.id ∧ decision.disputeId = some o.id ∧
        claim'.status = decision.decision.toStatus ∧
        db'.claimDisputes = Rows.rewrite (·.id) o.id
          (ClaimDisputeRepository.decidedAs (disputeResolutionFor decision.decision))
          db.claimDisputes
  reviewers : ∀ decision ∈ db'.claimDecisions, decision ∉ db.claimDecisions →
    ∀ claim ∈ db'.claims, claim.id = decision.claimId →
      decision.reviewerOrgId ≠ claim.claimantOrgId

theorem LegalStep.refl (hc : Consistent db) : LegalStep db db where
  edges := Rows.StatusLegal.refl hc.claimIds
  resolves claim hclaim claim' hclaim' hid hfrom hto := by
    rw [Rows.eq_of_key_eq hc.claimIds hclaim hclaim' hid] at hto
    exact absurd hfrom hto
  reviewers decision hmem hnot := absurd hmem hnot

/-- What the claims say about themselves before and after a status is set. -/
theorem setStatus_of_mem {k : Uuid} {status : ClaimStatus} {rows : List Claim}
    (hnodup : (rows.map (·.id)).Nodup) {claim claim' : Claim} (hclaim : claim ∈ rows)
    (hclaim' : claim' ∈ Rows.rewrite (·.id) k (ClaimRepository.setStatus status) rows)
    (hid : claim'.id = claim.id) :
    claim'.status = if claim.id = k then status else claim.status := by
  obtain ⟨r, hr, rfl⟩ := Rows.mem_rewrite_iff.1 hclaim'
  by_cases hk : r.id = k
  · rw [if_pos hk] at hid ⊢
    rw [if_pos ((show r.id = claim.id from hid) ▸ hk)]
    rfl
  · rw [if_neg hk] at hid ⊢
    rw [Rows.eq_of_key_eq hnodup hclaim hr hid, if_neg (hid ▸ hk)]

theorem Created.legal (hc : Consistent db) {claim : Claim} (h : Created db db' claim) :
    LegalStep db db' where
  edges := by
    rw [h.claims_eq]
    refine Rows.StatusLegal.append hc.claimIds fun r hr ↦ ?_
    exact List.mem_singleton.1 hr ▸ h.fresh
  resolves old hold claim' hclaim' hid hfrom hto := by
    rw [h.claims_eq, List.mem_append, List.mem_singleton] at hclaim'
    rcases hclaim' with hclaim' | rfl
    · rw [Rows.eq_of_key_eq hc.claimIds hold hclaim' hid] at hto
      exact absurd hfrom hto
    · exact absurd (List.mem_map.2 ⟨old, hold, hid.symm⟩) h.fresh
  reviewers decision hmem hnot := absurd (h.decisions_eq ▸ hmem) hnot

theorem Disputed.legal (hc : Consistent db) {dispute : ClaimDispute}
    (hedge : ∃ row ∈ db.claims, row.id = dispute.claimId ∧ .disputed ∈ claimTransitions row.status)
    (h : Disputed db db' dispute) : LegalStep db db' where
  edges := by
    rw [h.claims_eq]
    refine (Rows.statusLegal_rewrite_iff hc.claimIds (ClaimRepository.setStatus_id _)).2
      fun r hr hk ↦ ?_
    obtain ⟨row, hrow, hid, hto⟩ := hedge
    rw [Rows.eq_of_key_eq hc.claimIds hrow hr (hk.trans hid.symm)]
    exact Or.inr hto
  resolves claim hclaim claim' hclaim' hid hfrom hto := by
    rw [h.claims_eq] at hclaim'
    refine absurd ?_ hto
    rw [setStatus_of_mem hc.claimIds hclaim hclaim' hid]
    split
    · rfl
    · exact hfrom
  reviewers decision hmem hnot := absurd (h.decisions_eq ▸ hmem) hnot

theorem Decided.legal (hc : Consistent db) {call : DecideCall} {fresh : FreshDecision}
    {decision : ClaimDecision} (hown : NotOwn db call) (hfresh : FreshIn db call fresh)
    (h : Decided db db' call fresh decision) : LegalStep db db' where
  edges := by
    rw [h.claims_eq]
    refine (Rows.statusLegal_rewrite_iff hc.claimIds (ClaimRepository.setStatus_id _)).2
      fun r hr hk ↦ ?_
    rw [Rows.eq_of_key_eq hc.claimIds hfresh.mem hr (hk.trans hfresh.id.symm)]
    exact Or.inr hfresh.edge
  resolves claim hclaim claim' hclaim' hid hfrom hto := by
    rw [h.claims_eq] at hclaim'
    have hstatus := setStatus_of_mem hc.claimIds hclaim hclaim' hid
    by_cases hk : claim.id = call.claimId
    · rw [if_pos hk] at hstatus
      obtain ⟨o, ho⟩ := (hc.inStep claim hclaim).1 hfrom
      have hopen : fresh.openDispute = some o := by
        rw [hk, hfresh.openDispute] at ho
        exact Option.toList_eq_singleton_iff.1 ho
      refine ⟨o, decision, ho, h.decisions_eq, h.claimId.trans hk.symm, ?_, ?_, ?_⟩
      · rw [h.disputeId, hopen]
        rfl
      · rw [hstatus, h.outcome]
      · rw [h.disputes_eq, hopen, h.outcome]
        rfl
    · rw [if_neg hk] at hstatus
      exact absurd (hstatus.trans hfrom) hto
  reviewers x hx hnot claim hclaim hid := by
    rw [h.decisions_eq, List.mem_append, List.mem_singleton] at hx
    rcases hx with hx | rfl
    · exact absurd hx hnot
    · obtain ⟨row, hrow, hrowId, horg⟩ := hown
      rw [h.claims_eq] at hclaim
      obtain ⟨r, hr, rfl⟩ := Rows.mem_rewrite_iff.1 hclaim
      have hr_id : r.id = x.claimId := by
        rw [← hid]
        split <;> rfl
      obtain rfl := Rows.eq_of_key_eq hc.claimIds hrow hr
        ((hr_id.trans h.claimId).trans hrowId.symm)
      rw [h.reviewer] at horg
      intro heq
      refine horg (congrArg some (heq.trans ?_))
      split <;> rfl

theorem Wrote.legal {l : Local} (hc : Consistent db) (hl : Knows db l) (h : Wrote db db' l) :
    LegalStep db db' := by
  cases h with
  | created h => exact h.legal hc
  | disputed h =>
    refine Disputed.legal hc ?_ h
    exact hl
  | decided h => exact h.legal hc hl.1 hl.2

end

/-! ### Each write keeps the database consistent -/

section

variable {db db' : Db}

theorem Created.consistent (hc : Consistent db) {claim : Claim} (h : Created db db' claim) :
    Consistent db' where
  claimIds := by
    rw [h.claims_eq]
    refine Rows.nodup_append hc.claimIds (fun r hr ↦ ?_) (List.nodup_singleton _)
    exact List.mem_singleton.1 hr ▸ h.fresh
  disputeIds := h.disputes_eq ▸ hc.disputeIds
  disputeClaims o ho := by
    rw [h.claims_eq, List.map_append]
    exact List.mem_append_left _ (hc.disputeClaims o (h.disputes_eq ▸ ho))
  inStep row hrow := by
    have hsame : openDisputes db' row.id = openDisputes db row.id := by
      rw [openDisputes, h.disputes_eq]
      rfl
    rw [hsame]
    rw [h.claims_eq, List.mem_append, List.mem_singleton] at hrow
    rcases hrow with hrow | rfl
    · exact hc.inStep row hrow
    · -- a dispute is filed on a claim that exists
      refine ⟨fun hstatus ↦ (nomatch h.status.symm.trans hstatus), fun _ ↦ ?_⟩
      refine List.filter_eq_nil_iff.2 fun o ho hopen ↦ h.fresh ?_
      exact (of_decide_eq_true hopen).1 ▸ hc.disputeClaims o ho

theorem mem_ids_setStatus {k j : Uuid} {status : ClaimStatus} {rows : List Claim} :
    j ∈ (Rows.rewrite Claim.id k (ClaimRepository.setStatus status) rows).map (·.id) ↔
      j ∈ rows.map (·.id) := by
  rw [Rows.map_rewrite (ClaimRepository.setStatus_id _)]

theorem Disputed.consistent (hc : Consistent db) {dispute : ClaimDispute}
    (hedge : ∃ row ∈ db.claims, row.id = dispute.claimId ∧ .disputed ∈ claimTransitions row.status)
    (h : Disputed db db' dispute) : Consistent db' := by
  obtain ⟨old, hold, hid, hto⟩ := hedge
  have hnot : old.status ≠ .disputed := by
    intro hstatus
    rw [hstatus] at hto
    exact absurd hto (by decide)
  have hnil : openDisputes db dispute.claimId = [] := hid ▸ (hc.inStep old hold).2 hnot
  refine ⟨?_, ?_, fun o ho ↦ ?_, fun row hrow ↦ ?_⟩
  · rw [h.claims_eq, Rows.map_rewrite (ClaimRepository.setStatus_id _)]
    exact hc.claimIds
  · rw [h.disputes_eq]
    refine Rows.nodup_append hc.disputeIds (fun r hr ↦ ?_) (List.nodup_singleton _)
    exact List.mem_singleton.1 hr ▸ h.fresh
  · rw [h.claims_eq, mem_ids_setStatus]
    rw [h.disputes_eq, List.mem_append, List.mem_singleton] at ho
    rcases ho with ho | rfl
    · exact hc.disputeClaims o ho
    · exact List.mem_map.2 ⟨old, hold, hid⟩
  · rw [h.claims_eq] at hrow
    rw [openDisputes_of_append h.status h.disputes_eq]
    obtain ⟨r, hr, rfl⟩ := Rows.mem_rewrite_iff.1 hrow
    by_cases hk : r.id = dispute.claimId
    · rw [if_pos hk]
      refine ⟨fun _ ↦ ⟨dispute, ?_⟩, fun hstatus ↦ absurd rfl hstatus⟩
      show openDisputes db r.id ++ (if dispute.claimId = r.id then [dispute] else []) = _
      rw [hk, if_pos rfl, hnil]
      rfl
    · rw [if_neg hk, if_neg (Ne.symm hk), List.append_nil]
      exact hc.inStep r hr

theorem Decided.consistent (hc : Consistent db) {call : DecideCall} {fresh : FreshDecision}
    {decision : ClaimDecision} (hfresh : FreshIn db call fresh)
    (h : Decided db db' call fresh decision) : Consistent db' := by
  have hdisputes {β : Type} (column : ClaimDispute → β)
      (hcolumn : ∀ resolution o,
        column (ClaimDisputeRepository.decidedAs resolution o) = column o) :
      db'.claimDisputes.map column = db.claimDisputes.map column := by
    rw [h.disputes_eq]
    cases fresh.openDispute with
    | none => rfl
    | some o => exact Rows.map_rewrite (hcolumn _)
  refine ⟨?_, ?_, fun o ho ↦ ?_, fun row hrow ↦ ?_⟩
  · rw [h.claims_eq, Rows.map_rewrite (ClaimRepository.setStatus_id _)]
    exact hc.claimIds
  · rw [hdisputes _ fun _ _ ↦ rfl]
    exact hc.disputeIds
  · rw [h.claims_eq, mem_ids_setStatus]
    have hmem : o.claimId ∈ db.claimDisputes.map (·.claimId) := by
      rw [← hdisputes _ fun _ _ ↦ rfl]
      exact List.mem_map_of_mem ho
    obtain ⟨o', ho', hsame⟩ := List.mem_map.1 hmem
    exact hsame ▸ hc.disputeClaims o' ho'
  · rw [h.claims_eq] at hrow
    rw [openDisputes_of_resolve hc hfresh.openDispute h.disputes_eq]
    obtain ⟨r, hr, rfl⟩ := Rows.mem_rewrite_iff.1 hrow
    by_cases hk : r.id = call.claimId
    · rw [if_pos hk, ClaimRepository.setStatus_id, if_pos hk]
      refine ⟨fun hstatus ↦ ?_, fun _ ↦ rfl⟩
      -- no decision puts a claim into `DISPUTED`
      exact absurd hstatus call.input.decision.toStatus_ne_disputed
    · rw [if_neg hk, if_neg hk]
      exact hc.inStep r hr

theorem Wrote.consistent {l : Local} (hc : Consistent db) (hl : Knows db l) (h : Wrote db db' l) :
    Consistent db' := by
  cases h with
  | created h => exact h.consistent hc
  | disputed h =>
    refine Disputed.consistent hc ?_ h
    exact hl
  | decided h => exact h.consistent hc hl.2

end

/-! ### What the reads establish -/

section

variable {db : Db}

theorem findById_eq_some {claimId : Uuid} {claim : Claim}
    (h : ClaimRepository.findById db claimId = some claim) : claim ∈ db.claims ∧ claim.id = claimId :=
  ⟨List.mem_of_find?_eq_some h, of_decide_eq_true (List.find?_some h :)⟩

theorem precheckDecision_eq_ok {call : DecideCall} {u : Unit}
    (h : precheckDecision db call = .ok u) : NotOwn db call := by
  obtain ⟨claim, hclaim, h⟩ := Except.bind_eq_ok'.1 h
  obtain ⟨_, -, h⟩ := Except.bind_eq_ok'.1 h
  obtain ⟨_, hown, -⟩ := Except.bind_eq_ok'.1 h
  obtain ⟨hmem, hid⟩ := findById_eq_some (orThrow_eq_ok_iff.1 hclaim)
  exact ⟨claim, hmem, hid, throwIf_eq_ok_iff.1 hown⟩

theorem assertDisputable_eq_ok {claim : Claim} {u : Unit} (h : assertDisputable db claim = .ok u) :
    .disputed ∈ claimTransitions claim.status := by
  obtain ⟨_, -, h⟩ := Except.bind_eq_ok'.1 h
  exact (assertValidTransition_eq_ok_iff.1 h).2

theorem revalidateDispute_eq_ok {call : DisputeCall} {u : Unit}
    (h : revalidateDispute db call = .ok u) :
    ∃ row ∈ db.claims, row.id = call.claimId ∧ .disputed ∈ claimTransitions row.status := by
  obtain ⟨claim, hclaim, h⟩ := Except.bind_eq_ok'.1 h
  obtain ⟨hmem, hid⟩ := findById_eq_some (orThrow_eq_ok_iff.1 hclaim)
  exact ⟨claim, hmem, hid, assertDisputable_eq_ok h⟩

theorem loadOpenDispute_eq_ok (hc : Consistent db) {claim : Claim} (hclaim : claim ∈ db.claims)
    {openDispute : Option ClaimDispute} (h : loadOpenDispute db claim = .ok openDispute) :
    openDisputes db claim.id = openDispute.toList := by
  unfold loadOpenDispute at h
  split at h
  · next hstatus =>
    obtain ⟨o, ho⟩ := (hc.inStep claim hclaim).1 hstatus
    rcases hfind : ClaimDisputeRepository.findOpenByClaim db claim.id with - | o'
    · rw [hfind] at h
      cases h
    · rw [hfind] at h
      obtain rfl := Except.ok.inj h
      have hmem : o' ∈ openDisputes db claim.id :=
        mem_openDisputes.2 ⟨List.mem_of_find?_eq_some hfind,
          of_decide_eq_true (List.find?_some hfind :)⟩
      rw [ho, List.mem_singleton] at hmem
      rw [ho, hmem]
      rfl
  · next hstatus =>
    obtain rfl := Except.ok.inj h
    exact (hc.inStep claim hclaim).2 hstatus

theorem revalidateDecision_eq_ok (hc : Consistent db) {call : DecideCall} {fresh : FreshDecision}
    (h : revalidateDecision db call = .ok fresh) : FreshIn db call fresh := by
  obtain ⟨claim, hclaim, h⟩ := Except.bind_eq_ok'.1 h
  obtain ⟨score, hscore, h⟩ := Except.bind_eq_ok'.1 h
  obtain ⟨openDispute, hopen, h⟩ := Except.bind_eq_ok'.1 h
  obtain rfl := Except.ok.inj h
  obtain ⟨hmem, hid⟩ := findById_eq_some (orThrow_eq_ok_iff.1 hclaim)
  obtain ⟨_, -, hscore⟩ := Except.bind_eq_ok'.1 hscore
  obtain ⟨_, hedge, -⟩ := Except.bind_eq_ok'.1 hscore
  refine ⟨hmem, hid, (assertValidTransition_eq_ok_iff.1 hedge).2, ?_⟩
  rw [← hid]
  exact loadOpenDispute_eq_ok hc hmem hopen

/-- What a read of a call has found. -/
inductive Read (db : Db) : Local → Local → Prop
  | scored {actor context input n} :
      Read db (.called actor context (.create input)) (.scored n)
  | disputeRead {actor context claimId input call claim} :
      Read db (.called actor context (.fileDispute claimId input)) (.disputeRead call claim)
  | decideChecked {actor context claimId input call} : NotOwn db call →
      Read db (.called actor context (.decide claimId input)) (.decideChecked call)
  | disputeAllowed {call claim} : Read db (.disputeRead call claim) (.disputeAllowed call claim)
  | disputeChecked {call claim disputeId} :
      Read db (.disputeAllowed call claim) (.disputeChecked call claim disputeId)
  | disputeValidated {call claim disputeId} :
      (∃ row ∈ db.claims, row.id = call.claimId ∧ .disputed ∈ claimTransitions row.status) →
      Read db (.disputeLocked call claim disputeId) (.disputeValidated call claim disputeId)
  | decideValidated {call fresh} : (Consistent db → FreshIn db call fresh) →
      Read db (.decideLocked call) (.decideValidated call fresh)

theorem read_of_query {env : Env} {d : Draws} {l l' : Local} {f : Db → Except Thrown Local}
    (hnext : (calls env).next d l = .query f) (hf : f db = .ok l') : Read db l l' := by
  cases l with
  | called actor context request =>
    obtain rfl := NextStep.query.inj hnext
    cases request with
    | create input =>
      obtain ⟨_, -, h⟩ := Except.bind_eq_ok'.1 hf
      obtain ⟨_, -, h⟩ := Except.bind_eq_ok'.1 h
      obtain rfl := Except.ok.inj h
      exact .scored
    | fileDispute claimId input =>
      obtain ⟨_, -, h⟩ := Except.bind_eq_ok'.1 hf
      obtain ⟨_, -, h⟩ := Except.bind_eq_ok'.1 h
      obtain rfl := Except.ok.inj h
      exact .disputeRead
    | decide claimId input =>
      obtain ⟨_, hcheck, h⟩ := Except.bind_eq_ok'.1 hf
      obtain rfl := Except.ok.inj h
      exact .decideChecked (precheckDecision_eq_ok hcheck)
  | disputeRead call claim =>
    obtain rfl := NextStep.query.inj hnext
    obtain ⟨_, -, h⟩ := Except.bind_eq_ok'.1 hf
    obtain rfl := Except.ok.inj h
    exact .disputeAllowed
  | disputeAllowed call claim =>
    obtain rfl := NextStep.query.inj hnext
    obtain ⟨_, -, h⟩ := Except.bind_eq_ok'.1 hf
    obtain rfl := Except.ok.inj h
    exact .disputeChecked
  | disputeLocked call claim disputeId =>
    obtain rfl := NextStep.query.inj hnext
    obtain ⟨_, hcheck, h⟩ := Except.bind_eq_ok'.1 hf
    obtain rfl := Except.ok.inj h
    exact .disputeValidated (revalidateDispute_eq_ok hcheck)
  | decideLocked call =>
    obtain rfl := NextStep.query.inj hnext
    obtain ⟨fresh, hfresh, h⟩ := Except.bind_eq_ok'.1 hf
    obtain rfl := Except.ok.inj h
    exact .decideValidated fun hc ↦ revalidateDecision_eq_ok hc hfresh
  | _ => cases hnext

theorem Read.knows {l l' : Local} (h : Read db l l') (hc : Consistent db) (hl : Knows db l) :
    Knows db l' := by
  cases h with
  | decideChecked hown => exact hown
  | disputeValidated hedge => exact hedge
  | decideValidated hfresh => exact ⟨hl, hfresh hc⟩
  | _ => trivial

end

/-! ### Runs -/

section

variable (env : Env) {Pid : Type} [DecidableEq Pid]

/-- Each call is under the key of its claim from its lock to its commit. -/
def lockDiscipline : (calls env).LockDiscipline where
  held := held env
  queried hnext hf := by cases read_of_query hnext hf <;> rfl
  locked {d l key l'} hnext := by
    cases l with
    | disputeChecked | decideChecked =>
      obtain ⟨rfl, rfl⟩ := NextStep.lock.inj hnext
      rfl
    | _ => cases hnext
  committed hnext hbody := by
    obtain ⟨-, response, rfl⟩ := wrote_of_commit hnext hbody
    rfl
  failed _ := rfl
  crashed := rfl

/-- The outline of the claim calls. -/
def outline : (calls env).Outline (lockDiscipline env) where
  inv := Consistent
  asrt := Knows
  queried hc hl hnext hf := (read_of_query hnext hf).knows hc hl
  locked {d l key s l'} _ hl hnext := by
    cases l with
    | disputeChecked =>
      obtain ⟨rfl, rfl⟩ := NextStep.lock.inj hnext
      trivial
    | decideChecked =>
      obtain ⟨rfl, rfl⟩ := NextStep.lock.inj hnext
      exact hl
    | _ => cases hnext
  committed hc hl hnext hbody := by
    obtain ⟨hwrote, response, rfl⟩ := wrote_of_commit hnext hbody
    exact ⟨hwrote.consistent hc hl, trivial⟩
  failed _ := trivial
  crashed := trivial
  stable hc hl hm hlock hnext hbody :=
    knows_of_wrote hc hl hm hlock (wrote_of_commit hnext hbody).1

/-- A configuration of claim calls. -/
abbrev Config (Pid : Type) : Type :=
  PartySystem.Config Pid (CallSystem.Shared Db Int Pid) Local

/-- Where a run starts: a consistent database, and no call has done anything yet. -/
structure Initial (c : Config Pid) : Prop where
  consistent : Consistent c.shared.db
  called : ∀ p, ∃ actor context request, c.locals p = .called actor context request

end

/-! ### People with two memberships -/

open Memberships (OrganizationMembership)

/-- An actor that acts under one of its memberships. -/
def ActsUnder (memberships : List OrganizationMembership) (actor : Actor) : Prop :=
  ∃ m ∈ memberships, m.status = .active ∧
    actor = ⟨m.userId, some m.organizationId, some m.role, some m.id⟩

/-- An active member of an organization. -/
def IsMember (memberships : List OrganizationMembership) (userId organizationId : Uuid) : Prop :=
  ∃ m ∈ memberships, m.status = .active ∧ m.userId = userId ∧ m.organizationId = organizationId

instance (memberships : List OrganizationMembership) (actor : Actor) :
    Decidable (ActsUnder memberships actor) :=
  inferInstanceAs (Decidable (∃ m ∈ memberships, _ ∧ _))

instance (memberships : List OrganizationMembership) (userId organizationId : Uuid) :
    Decidable (IsMember memberships userId organizationId) :=
  inferInstanceAs (Decidable (∃ m ∈ memberships, _ ∧ _ ∧ _))

/-- Some decision was made by a member of the claimant organization. -/
def DecidedByMember (memberships : List OrganizationMembership) (db : Db) : Prop :=
  ∃ decision ∈ db.claimDecisions, ∃ claim ∈ db.claims, claim.id = decision.claimId ∧
    IsMember memberships decision.reviewerUserId claim.claimantOrgId

instance (memberships : List OrganizationMembership) (db : Db) :
    Decidable (DecidedByMember memberships db) :=
  inferInstanceAs (Decidable (∃ decision ∈ db.claimDecisions, ∃ claim ∈ db.claims, _ ∧ _))

namespace Sample

def context : RequestContext := ⟨"req", "corr", "office", "browser"⟩

/-- A score of full history, proximity and time and no evidence. -/
def env : Env where
  hashtext s := s.length
  scoreClaim input := .ok
    { history := 100, proximity := 100, evidence := 0, time := 100, weighted := 80, total := 80,
      evidenceBreakdown := [], algorithmVersion := "attribution-v1",
      inputVersions := input.inputVersions }
  assertJsonSafeObjectArray _ := .ok ()

/-- Dora introduces merchants for one organization and leads partnerships at another. -/
def memberships : List OrganizationMembership :=
  [{ id := "m1", organizationId := "agency", userId := "dora", role := .contributorAgent,
     status := .active, invitationSource := none, effectiveFrom := 0 },
   { id := "m2", organizationId := "desk", userId := "dora", role := .partnershipLead,
     status := .active, invitationSource := none, effectiveFrom := 0 }]

def agent : Actor := ⟨"dora", some "agency", some .contributorAgent, some "m1"⟩

def lead : Actor := ⟨"dora", some "desk", some .partnershipLead, some "m2"⟩

def input : CreateClaimRequest where
  subjectOrgId := "acquirer"
  relationshipType := "ACQUIRER_INTRODUCTION"
  directnessTier := .d5
  priorCommercialHistoryMonths := 36
  submissionLagDays := 0
  evidenceItems := []

/-- She files a claim for the one, and decides it for the other. -/
def actors : ℕ → Actor
  | 0 => agent
  | _ => lead

def requests : ℕ → Request
  | 0 => .create input
  | _ => .decide "c0" ⟨.verified, "known relationship"⟩

def start : Config ℕ where
  shared := ⟨{ organizations := ["acquirer", "agency", "desk"], opportunities := [] }, .free⟩
  locals p := .called (actors p) context (requests p)

def draws : Draws := ⟨fun n ↦ s!"c{n}", 1000⟩

def steps : List (ℕ × Tick Draws) :=
  [(0, .act draws), (0, .act draws), (1, .act draws), (1, .act draws), (1, .act draws),
   (1, .act draws)]

theorem initial_start : Initial start where
  consistent := ⟨List.nodup_nil, List.nodup_nil, fun _ ho ↦ (nomatch ho), fun _ hc ↦ (nomatch hc)⟩
  called _ := ⟨_, _, _, rfl⟩

theorem actsUnder_actors (p : ℕ) : ActsUnder memberships (actors p) := by
  cases p with
  | zero => decide
  | succ p => show ActsUnder memberships lead; decide

end Sample

end TolPlatform.Claims
