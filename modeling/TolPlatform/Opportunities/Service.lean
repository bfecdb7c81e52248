import TolPlatform.Authz.Can
import TolPlatform.Opportunities.Tables

/-!
# Volume slices

`getVolumeSlices` and `replaceVolumeSlices` of `apps/api/src/modules/opportunities/service.ts`. A
replacement reconciles what was submitted, and stores the first slice of each cell in place of all slices
that were there; a read reconciles what is stored.
-/

namespace TolPlatform.Opportunities

/-! ### Requests -/

inductive CardOrigin
  | domestic | international
  deriving DecidableEq, Repr

instance : ToString CardOrigin where
  toString
    | .domestic => "DOMESTIC"
    | .international => "INTERNATIONAL"

inductive Channel
  | ecommerce | cardPresent | moto
  deriving DecidableEq, Repr

instance : ToString Channel where
  toString
    | .ecommerce => "ECOMMERCE"
    | .cardPresent => "CARD_PRESENT"
    | .moto => "MOTO"

structure SubmittedSlice where
  jurisdiction : String
  mcc : String
  cardOrigin : CardOrigin
  channel : Channel
  amountMinor : String
  period : String
  deriving DecidableEq, Repr

structure ReplaceVolumeSlicesRequest where
  slices : List SubmittedSlice
  deriving DecidableEq, Repr

structure ReplaceCall where
  actor : Actor
  opportunityId : Uuid
  input : ReplaceVolumeSlicesRequest
  context : RequestContext
  deriving DecidableEq, Repr

/-! ### Replacing -/

def loadOpportunity (db : Db) (opportunityId : Uuid) : Except Thrown Opportunity :=
  orThrow (OpportunityRepository.findById db opportunityId) (notFound "Opportunity not found.")

def sliceForReconciliation (currency : String) (s : SubmittedSlice) :
    Except Thrown VolumeSliceInput := do
  let amountMinor ← parseBigIntMinorUnits (some s.amountMinor) "amountMinor"
  return { jurisdiction := s.jurisdiction, mcc := s.mcc, cardOrigin := toString s.cardOrigin,
           channel := toString s.channel, period := s.period, currency, amountMinor }

def inputForReconciliation (currency : String) (input : ReplaceVolumeSlicesRequest) :
    Except Thrown (List VolumeSliceInput) :=
  input.slices.mapM (sliceForReconciliation currency)

/-- What `replaceVolumeSlices` knows when its transaction opens. -/
structure ReplacePlan where
  opportunity : Opportunity
  toInsert : List VolumeSliceInput
  reconciliation : VolumeReconciliationResult
  deriving DecidableEq, Repr

/-- `replaceVolumeSlices` up to its transaction. -/
def planReplacement (db : Db) (call : ReplaceCall) : Except Thrown ReplacePlan := do
  let opportunity ← loadOpportunity db call.opportunityId
  requireAllowed (can call.actor .opportunityUpdate ⟨.opportunity, some opportunity.ownerOrgId⟩)
  let inputs ← inputForReconciliation opportunity.currency call.input
  let reconciliation ← reconcileOpportunityVolume inputs opportunity.summary
  return ⟨opportunity, inputs.firstBy VolumeSliceInput.cellKey, reconciliation⟩

def replaceTrails (call : ReplaceCall) (plan : ReplacePlan) (rows : List VolumeSlice) (t : Trails) :
    Trails :=
  t.audit call.actor call.context (some plan.opportunity.ownerOrgId) "opportunity.volume_slices_replaced"
    "opportunity" call.opportunityId
    [("sliceCount", .number rows.length), ("reconciled", .bool plan.reconciliation.reconciled),
     ("mismatchCount", .number plan.reconciliation.mismatches.length)]

def replaceVolumeSlicesTx (d : Draws) (call : ReplaceCall) (plan : ReplacePlan) :
    Tx Db Thrown (List VolumeSlice) := do
  VolumeSliceRepository.deleteAllByOpportunity call.opportunityId
  let rows ← Table.insertEach (VolumeSliceRepository.create call.opportunityId) d.ids plan.toInsert
  modify fun db : Db ↦ { db with trails := replaceTrails call plan rows db.trails }
  return rows

def replaceVolumeSlices (d : Draws) (call : ReplaceCall) :
    Tx Db Thrown (List VolumeSlice × VolumeReconciliationResult) := do
  let db ← get
  let plan ← Tx.check (planReplacement db call)
  let slices ← replaceVolumeSlicesTx d call plan
  return (slices, plan.reconciliation)

/-! ### Reading -/

def reconcileVolume (opportunity : Opportunity) (slices : List VolumeSlice) :
    Except Thrown VolumeReconciliationResult :=
  reconcileOpportunityVolume (slices.map (·.toInput)) opportunity.summary

def getVolumeSlices (db : Db) (actor : Actor) (opportunityId : Uuid) :
    Except Thrown (List VolumeSlice × VolumeReconciliationResult) := do
  let opportunity ← loadOpportunity db opportunityId
  requireAllowed (can actor .opportunityRead ⟨.opportunity, some opportunity.ownerOrgId⟩)
  let slices := VolumeSliceRepository.listByOpportunity db opportunityId
  let reconciliation ← reconcileVolume opportunity slices
  return (slices, reconciliation)

/-! ### What is planned and what is stored -/

variable {db db' : Db} {call : ReplaceCall} {plan : ReplacePlan}

theorem planReplacement_eq_ok (h : planReplacement db call = .ok plan) :
    OpportunityRepository.findById db call.opportunityId = some plan.opportunity ∧
      ∃ inputs, inputForReconciliation plan.opportunity.currency call.input = .ok inputs ∧
        plan.toInsert = inputs.firstBy VolumeSliceInput.cellKey ∧
        reconcileOpportunityVolume inputs plan.opportunity.summary = .ok plan.reconciliation := by
  obtain ⟨opportunity, hfound, h⟩ := Except.bind_eq_ok'.1 h
  obtain ⟨_, -, h⟩ := Except.bind_eq_ok'.1 h
  obtain ⟨inputs, hinputs, h⟩ := Except.bind_eq_ok'.1 h
  obtain ⟨reconciliation, hreconciliation, h⟩ := Except.bind_eq_ok'.1 h
  obtain rfl := Except.ok.inj h
  exact ⟨orThrow_eq_ok_iff.1 hfound, inputs, hinputs, rfl, hreconciliation⟩

/-- Everything that is submitted is in the opportunity's currency. -/
theorem currency_of_inputForReconciliation {currency : String} {input : ReplaceVolumeSlicesRequest}
    {inputs : List VolumeSliceInput} (h : inputForReconciliation currency input = .ok inputs) :
    ∀ s ∈ inputs, s.currency = currency := by
  intro s hs
  obtain ⟨submitted, -, hsubmitted⟩ := (Except.mapM_eq_ok.1 h).exists_left hs
  obtain ⟨amountMinor, -, hret⟩ := Except.bind_eq_ok'.1 hsubmitted
  exact congrArg VolumeSliceInput.currency (Except.ok.inj hret).symm

theorem replaceVolumeSlicesTx_eq_ok {d : Draws} {rows : List VolumeSlice}
    (h : replaceVolumeSlicesTx d call plan db = .ok (rows, db')) :
    rows.map (·.toInput) = plan.toInsert ∧ (∀ row ∈ rows, row.opportunityId = call.opportunityId) ∧
      db'.opportunities = db.opportunities ∧
      db'.volumeSlices = db.volumeSlices.filter (·.opportunityId ≠ call.opportunityId) ++ rows := by
  obtain ⟨_, db₁, hdelete, h⟩ := Tx.bind_eq_ok.1 h
  obtain ⟨-, rfl⟩ := Prod.mk.inj (Except.ok.inj hdelete)
  obtain ⟨rows', db₂, hinsert, h⟩ := Tx.bind_eq_ok.1 h
  obtain ⟨rfl, rfl⟩ := Prod.mk.inj (Except.ok.inj h)
  obtain ⟨rfl, hrows, -, -⟩ := Table.insertEach_eq_ok (T := volumeSlices)
    (R := fun s row ↦ s = row.toInput ∧ row.opportunityId = call.opportunityId) (fun hcreate ↦ by
      obtain ⟨rfl, -, hfresh, rfl⟩ := VolumeSliceRepository.create_eq_ok hcreate
      exact ⟨⟨rfl, rfl⟩, hfresh, rfl⟩) hinsert
  refine ⟨?_, fun row hrow ↦ ?_, rfl, rfl⟩
  · have hinputs := List.forall₂_map_right_iff.2 (hrows.imp fun _ _ h ↦ h.1)
    rw [List.forall₂_eq_eq_eq] at hinputs
    exact hinputs.symm
  · obtain ⟨s, -, -, hown⟩ := hrows.exists_left hrow
    exact hown

/-- What a replacement reports and stores. -/
theorem replaceVolumeSlices_eq_ok {d : Draws} {opportunity : Opportunity}
    {inputs : List VolumeSliceInput} {slices : List VolumeSlice} {reported : VolumeReconciliationResult}
    (h : replaceVolumeSlices d call db = .ok ((slices, reported), db'))
    (hfound : OpportunityRepository.findById db call.opportunityId = some opportunity)
    (hinputs : inputForReconciliation opportunity.currency call.input = .ok inputs) :
    reconcileOpportunityVolume inputs opportunity.summary = .ok reported ∧
      slices.map (·.toInput) = inputs.firstBy VolumeSliceInput.cellKey ∧
      db'.opportunities = db.opportunities ∧
      db'.volumeSlices.filter (·.opportunityId = call.opportunityId) = slices := by
  obtain ⟨plan, hplan, h⟩ := Tx.check_bind_eq_ok.1 (Tx.get_bind_eq_ok.1 h)
  obtain ⟨rows, db₁, htx, h⟩ := Tx.bind_eq_ok.1 h
  obtain ⟨hret, rfl⟩ := Prod.mk.inj (Except.ok.inj h)
  obtain ⟨rfl, rfl⟩ := Prod.mk.inj hret
  obtain ⟨hplanned, inputs', hinputs', htoInsert, hreconciled⟩ := planReplacement_eq_ok hplan
  rw [Option.some.inj (hplanned.symm.trans hfound)] at hinputs' hreconciled
  obtain rfl : inputs' = inputs := Except.ok.inj (hinputs'.symm.trans hinputs)
  obtain ⟨hrows, hown, hopportunities, hslices⟩ := replaceVolumeSlicesTx_eq_ok htx
  refine ⟨hreconciled, hrows.trans htoInsert, hopportunities, ?_⟩
  -- of the slices that were there none is left
  rw [hslices, List.filter_append, List.filter_filter, List.filter_eq_nil_iff.2, List.nil_append]
  · exact List.filter_eq_self.2 fun row hrow ↦ decide_eq_true (hown row hrow)
  · intro row _ hboth
    obtain ⟨hmine, hother⟩ := Bool.and_eq_true_iff.1 hboth
    exact of_decide_eq_true hother (of_decide_eq_true hmine)

theorem getVolumeSlices_eq_ok {reader : Actor} {opportunityId : Uuid} {opportunity : Opportunity}
    {slices : List VolumeSlice} {reread : VolumeReconciliationResult}
    (h : getVolumeSlices db reader opportunityId = .ok (slices, reread))
    (hfound : OpportunityRepository.findById db opportunityId = some opportunity) :
    slices = VolumeSliceRepository.listByOpportunity db opportunityId ∧
      reconcileVolume opportunity slices = .ok reread := by
  obtain ⟨found, hloaded, h⟩ := Except.bind_eq_ok'.1 h
  obtain rfl : found = opportunity :=
    Option.some.inj ((orThrow_eq_ok_iff.1 hloaded).symm.trans hfound)
  obtain ⟨_, -, h⟩ := Except.bind_eq_ok'.1 h
  obtain ⟨result, hreconciled, h⟩ := Except.bind_eq_ok'.1 h
  obtain ⟨rfl, rfl⟩ := Prod.mk.inj (Except.ok.inj h)
  exact ⟨rfl, hreconciled⟩

end TolPlatform.Opportunities
