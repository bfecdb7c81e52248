import TolPlatform.Library.ReadCommitted
import TolPlatform.Opportunities.Rereads

/-!
# Replacements that overlap

"One reconcilable whole": a replacement deletes all slices of the opportunity and stores those submitted,
in one transaction. The transactions run at READ COMMITTED and take no lock, and so the `DELETE` of one
finds only what was committed when it ran. Slices of another replacement that commit after that stay, next
to those of the first.

Where every slice that is stored at a commit was found by the `DELETE` before it, the slices stored are
those of one request (`wholeReplacement`). With nobody in between, the statements do what
`replaceVolumeSlices` does at once (`replaces_alone`, `exists_run_alone`).
-/

namespace TolPlatform.Opportunities

/-! ### Statements -/

inductive Change
  | delete (row : VolumeSlice)
  | insert (row : VolumeSlice)
  | audit (call : ReplaceCall) (plan : ReplacePlan) (rows : List VolumeSlice)
  deriving DecidableEq, Repr

/-- Two rows that a unique constraint keeps apart. -/
def Clash (r other : VolumeSlice) : Prop := r.cell = other.cell ∨ r.id = other.id

instance (r other : VolumeSlice) : Decidable (Clash r other) := inferInstanceAs (Decidable (_ ∨ _))

def changes : Changes Db Thrown Change where
  apply db
    | .delete row => { db with volumeSlices := db.volumeSlices.filter (· ≠ row) }
    | .insert row => { db with volumeSlices := db.volumeSlices ++ [row] }
    | .audit call plan rows => { db with trails := replaceTrails call plan rows db.trails }
  stands db
    | .delete row => row ∈ db.volumeSlices
    | .insert _ | .audit .. => true
  refuses db
    | .insert row =>
      if db.volumeSlices.any (Clash row ·) then
        some (VolumeSliceRepository.duplicateVolumeSliceCellError row)
      else none
    | .delete _ | .audit .. => none
  waitsFor
    | .delete row, .delete other => row = other
    | .insert row, .insert other | .insert row, .delete other => Clash row other
    | _, _ => false

/-- How far a replacement has got. -/
inductive Local
  | called (call : ReplaceCall)
  | planned (call : ReplaceCall) (plan : ReplacePlan)
  /-- The old slices are deleted; some of the new ones are stored. -/
  | replacing (call : ReplaceCall) (plan : ReplacePlan) (rows : List VolumeSlice)
      (rest : List VolumeSliceInput)
  | audited (call : ReplaceCall) (plan : ReplacePlan) (rows : List VolumeSlice)
  | returned (slices : List VolumeSlice) (reconciliation : VolumeReconciliationResult)
  | threw (thrown : Thrown)
  | crashed
  deriving DecidableEq, Repr

def replacements : StatementSystem Db Thrown Change Draws Local where
  changes := changes
  next d
    | .called call => .query fun db ↦ do
      let plan ← planReplacement db call
      return .planned call plan
    | .planned call plan => .write fun db ↦
      .ok ((db.volumeSlices.filter (·.opportunityId = call.opportunityId)).map .delete,
        .replacing call plan [] plan.toInsert)
    | .replacing call plan rows (s :: rest) => .write fun _ ↦
      let row := VolumeSlice.ofInput (d.ids 0) call.opportunityId s
      .ok ([.insert row], .replacing call plan (rows ++ [row]) rest)
    | .replacing call plan rows [] => .write fun _ ↦
      .ok ([.audit call plan rows], .audited call plan rows)
    | .audited _ plan rows => .commit (.returned rows plan.reconciliation)
    | .returned .. | .threw _ | .crashed => .stop
  ended
    | .returned .. | .threw _ | .crashed => true
    | _ => false
  failed := .threw
  crashed := .crashed

/-- The request whose replacement commits next. -/
def Local.committing : Local → Option ReplaceCall
  | .audited call _ _ => some call
  | _ => none

abbrev Config (Pid : Type) :=
  PartySystem.Config Pid (StatementSystem.Shared Db Change Local Pid) Local

/-! ### The slices of an opportunity -/

def stored (db : Db) (opportunityId : Uuid) : List VolumeSlice :=
  db.volumeSlices.filter (·.opportunityId = opportunityId)

/-- The replacements of an opportunity that have been recorded. -/
def recordedReplacements (db : Db) (opportunityId : Uuid) : List AuditEvent :=
  db.trails.auditEvents.filter fun e ↦
    e.action = "opportunity.volume_slices_replaced" ∧ e.resourceId = some opportunityId

/-- The slices are those of the request: the first one of each cell. -/
def StoredAsSubmitted (db : Db) (call : ReplaceCall) : Prop :=
  ∃ opportunity inputs, OpportunityRepository.findById db call.opportunityId = some opportunity ∧
    inputForReconciliation opportunity.currency call.input = .ok inputs ∧
      (stored db call.opportunityId).map (·.toInput) = inputs.firstBy VolumeSliceInput.cellKey

theorem storedAsSubmitted_iff {db : Db} {call : ReplaceCall} :
    StoredAsSubmitted db call ↔
      ∃ opportunity ∈ OpportunityRepository.findById db call.opportunityId,
        ∃ inputs ∈ (inputForReconciliation opportunity.currency call.input).toOption,
          (stored db call.opportunityId).map (·.toInput) = inputs.firstBy VolumeSliceInput.cellKey := by
  refine exists_congr fun opportunity ↦ ?_
  rcases hinputs : inputForReconciliation opportunity.currency call.input with e | inputs
  · simp [Except.toOption]
  · simp [Except.toOption]

instance (db : Db) (call : ReplaceCall) : Decidable (StoredAsSubmitted db call) :=
  decidable_of_iff' _ storedAsSubmitted_iff

/-- A plan made for the request, on these opportunities. -/
def PlannedFor (opportunities : List Opportunity) (call : ReplaceCall) (plan : ReplacePlan) : Prop :=
  opportunities.find? (·.id = call.opportunityId) = some plan.opportunity ∧
    ∃ inputs, inputForReconciliation plan.opportunity.currency call.input = .ok inputs ∧
      plan.toInsert = inputs.firstBy VolumeSliceInput.cellKey

/-- What a replacement has written before its audit row. -/
structure Replaced (call : ReplaceCall) (rows : List VolumeSlice) (pending : List Change) : Prop where
  pending_eq : ∃ old : List VolumeSlice, (∀ row ∈ old, row.opportunityId = call.opportunityId) ∧
    pending = old.map .delete ++ rows.map .insert
  own : ∀ row ∈ rows, row.opportunityId = call.opportunityId

/-- What a local state has pending, of a request that was made. -/
def Rests (Requested : ReplaceCall → Prop) (opportunities : List Opportunity) (pending : List Change) :
    Local → Prop
  | .called call => pending = [] ∧ Requested call
  | .planned call plan => pending = [] ∧ Requested call ∧ PlannedFor opportunities call plan
  | .replacing call plan rows rest => Requested call ∧ PlannedFor opportunities call plan ∧
    Replaced call rows pending ∧ rows.map (·.toInput) ++ rest = plan.toInsert
  | .audited call plan rows => Requested call ∧ PlannedFor opportunities call plan ∧
    rows.map (·.toInput) = plan.toInsert ∧
      ∃ written, Replaced call rows written ∧ pending = written ++ [.audit call plan rows]
  | .returned .. | .threw _ | .crashed => pending = []

section

variable {call : ReplaceCall} {db : Db}

theorem opportunities_apply {os : List Opportunity} {change : Change} (h : db.opportunities = os) :
    (changes.apply db change).opportunities = os := by
  cases change <;> exact h

variable {Requested : ReplaceCall → Prop} {os : List Opportunity} {pending : List Change} {d : Draws}
  {l l' : Local}

theorem rests_of_query {f : Db → Except Thrown Local} (hkept : db.opportunities = os)
    (hrests : Rests Requested os pending l) (hnext : replacements.next d l = .query f)
    (hf : f (pending.foldl replacements.changes.apply db) = .ok l') :
    Rests Requested os pending l' := by
  have hkept' := StatementSystem.foldl_kept (C := replacements) (·.opportunities = os)
    opportunities_apply hkept pending
  cases l with
  | called call =>
    obtain rfl := NextStatement.query.inj hnext
    obtain ⟨plan, hplan, hret⟩ := Except.bind_eq_ok'.1 hf
    obtain rfl := Except.ok.inj hret
    obtain ⟨hfound, inputs, hinputs, htoInsert, -⟩ := planReplacement_eq_ok hplan
    rw [OpportunityRepository.findById, hkept'] at hfound
    exact ⟨hrests.1, hrests.2, hfound, inputs, hinputs, htoInsert⟩
  | replacing call plan rows rest => cases rest <;> cases hnext
  | _ => cases hnext

theorem rests_of_write {f : Db → Except Thrown (List Change × Local)} {changes : List Change}
    (hrests : Rests Requested os pending l) (hnext : replacements.next d l = .write f)
    (hf : f (pending.foldl replacements.changes.apply db) = .ok (changes, l')) (db' : Db) :
    Rests Requested os (pending ++ changes.filter (replacements.changes.stands db')) l' := by
  cases l with
  | planned call plan =>
    obtain rfl := NextStatement.write.inj hnext
    obtain ⟨rfl, rfl⟩ := Prod.mk.inj (Except.ok.inj hf)
    obtain ⟨rfl, hrequested, hplanned⟩ := hrests
    refine ⟨hrequested, hplanned,
      ⟨⟨(stored db call.opportunityId).filter (· ∈ db'.volumeSlices), ?_, ?_⟩, ?_⟩, rfl⟩
    · exact fun row hrow ↦ of_decide_eq_true (List.mem_filter.1 (List.mem_filter.1 hrow).1).2
    · rw [List.nil_append, List.map_nil, List.append_nil, List.filter_map]
      rfl
    · exact fun row hrow ↦ absurd hrow List.not_mem_nil
  | replacing call plan rows rest =>
    obtain ⟨hrequested, hplanned, ⟨⟨old, hold, rfl⟩, hown⟩, htoInsert⟩ := hrests
    cases rest with
    | nil =>
      obtain rfl := NextStatement.write.inj hnext
      obtain ⟨rfl, rfl⟩ := Prod.mk.inj (Except.ok.inj hf)
      exact ⟨hrequested, hplanned, (List.append_nil _).symm.trans htoInsert, _,
        ⟨⟨old, hold, rfl⟩, hown⟩, rfl⟩
    | cons s rest =>
      obtain rfl := NextStatement.write.inj hnext
      obtain ⟨rfl, rfl⟩ := Prod.mk.inj (Except.ok.inj hf)
      refine ⟨hrequested, hplanned, ⟨⟨old, hold, ?_⟩, ?_⟩, ?_⟩
      · rw [List.map_append, List.append_assoc]
        rfl
      · intro row hrow
        rcases List.mem_append.1 hrow with hrow | hrow
        · exact hown row hrow
        · rw [List.mem_singleton.1 hrow]
          rfl
      · rw [List.map_append, List.append_assoc]
        exact htoInsert
  | _ => cases hnext

/-- **What a replacement has pending**, statement by statement. -/
theorem protocol (Requested : ReplaceCall → Prop) (os : List Opportunity) :
    replacements.Protocol (fun db ↦ db.opportunities = os) (fun _ ↦ Rests Requested os) where
  stable h := h
  query := rests_of_query
  write _ := rests_of_write
  commit {db pending d l l'} hkept _ hnext := by
    refine ⟨StatementSystem.foldl_kept (C := replacements) (·.opportunities = os) opportunities_apply hkept
      pending, ?_⟩
    cases l with
    | audited call plan rows =>
      obtain rfl := NextStatement.commit.inj hnext
      rfl
    | replacing call plan rows rest => cases rest <;> cases hnext
    | _ => cases hnext
  failed _ _ := rfl
  crashed _ := rfl

/-! ### What a commit stores -/

theorem foldl_delete (old : List VolumeSlice) (db : Db) :
    (old.map Change.delete).foldl changes.apply db =
      { db with volumeSlices := db.volumeSlices.filter (· ∉ old) } := by
  induction old generalizing db with
  | nil =>
    rw [List.filter_eq_self.2 fun row _ ↦ decide_eq_true (List.not_mem_nil)]
    rfl
  | cons first old ih =>
    have hslices : (db.volumeSlices.filter (· ≠ first)).filter (· ∉ old) =
        db.volumeSlices.filter (· ∉ first :: old) := by
      rw [List.filter_filter]
      refine List.filter_congr fun row _ ↦ ?_
      rw [Bool.and_comm, ← Bool.decide_and]
      exact decide_eq_decide.2 (by rw [List.mem_cons, not_or])
    exact (ih _).trans (congrArg (fun l ↦ ({ db with volumeSlices := l } : Db)) hslices)

theorem foldl_insert (rows : List VolumeSlice) (db : Db) :
    (rows.map Change.insert).foldl changes.apply db =
      { db with volumeSlices := db.volumeSlices ++ rows } := by
  induction rows generalizing db with
  | nil =>
    rw [List.append_nil]
    rfl
  | cons first rows ih =>
    have hslices : db.volumeSlices ++ [first] ++ rows = db.volumeSlices ++ first :: rows :=
      List.append_assoc _ _ _
    exact (ih _).trans (congrArg (fun l ↦ ({ db with volumeSlices := l } : Db)) hslices)

/-- What a replacement's own transaction makes of the database. -/
theorem foldl_replaced (old rows : List VolumeSlice) (plan : ReplacePlan) (db : Db) :
    (old.map Change.delete ++ rows.map Change.insert ++ [Change.audit call plan rows]).foldl
        changes.apply db =
      { db with
        volumeSlices := db.volumeSlices.filter (· ∉ old) ++ rows
        trails := replaceTrails call plan rows db.trails } := by
  rw [List.foldl_append, List.foldl_append, foldl_delete, foldl_insert]
  rfl

theorem recordedReplacements_audited {rows : List VolumeSlice} {plan : ReplacePlan} {o : Uuid}
    {slices : List VolumeSlice} (ho : o ≠ call.opportunityId) :
    recordedReplacements
        { db with volumeSlices := slices, trails := replaceTrails call plan rows db.trails } o =
      recordedReplacements db o := by
  show (db.trails.auditEvents ++ [_]).filter _ = _
  rw [List.filter_append, List.filter_cons_of_neg, List.filter_nil, List.append_nil]
  · rfl
  · exact fun h ↦ ho (Option.some.inj (of_decide_eq_true h).2).symm

end

/-! ### A replacement alone -/

section

variable {Pid : Type} [DecidableEq Pid] {p : Pid} {d : Draws} {call : ReplaceCall} {plan : ReplacePlan}
  {db db' : Db} {pending : List Change}

/-- The insertion loop, one statement for each row. -/
theorem inserts_alone {rest : List VolumeSliceInput} {ids : ℕ → Uuid} {more : List VolumeSlice}
    (rows : List VolumeSlice)
    (h : Table.insertEach (VolumeSliceRepository.create call.opportunityId) ids rest
      (pending.foldl changes.apply db) = .ok (more, db')) :
    Relation.ReflTransGen (replacements.Does p) (.alone p db pending, .replacing call plan rows rest)
        (.alone p db (pending ++ more.map .insert), .replacing call plan (rows ++ more) []) ∧
      (pending ++ more.map Change.insert).foldl changes.apply db = db' := by
  induction rest generalizing ids pending rows more with
  | nil =>
    obtain ⟨rfl, rfl⟩ := Prod.mk.inj (Tx.pure_eq_ok.1 h)
    rw [List.map_nil, List.append_nil, List.append_nil]
    exact ⟨.refl, rfl⟩
  | cons s rest ih =>
    obtain ⟨row, db₁, hcreate, h⟩ := Tx.bind_eq_ok.1 h
    obtain ⟨more, db₂, hmore, h⟩ := Tx.bind_eq_ok.1 h
    obtain ⟨rfl, rfl⟩ := Prod.mk.inj (Tx.pure_eq_ok.1 h)
    obtain ⟨rfl, hcell, hid, rfl⟩ := VolumeSliceRepository.create_eq_ok hcreate
    set row := VolumeSlice.ofInput (ids 0) call.opportunityId s
    have hclash : ∀ change ∈ [Change.insert row],
        changes.refuses (pending.foldl changes.apply db) change = none := by
      intro change hchange
      rw [List.mem_singleton.1 hchange]
      refine if_neg fun h ↦ ?_
      obtain ⟨other, hother, hclash⟩ := List.any_eq_true.1 h
      rcases of_decide_eq_true hclash with heq | heq
      · exact hcell (List.mem_map.2 ⟨other, hother, heq.symm⟩)
      · exact hid (List.mem_map.2 ⟨other, hother, heq.symm⟩)
    have hinsert := StatementSystem.does_write (C := replacements) (p := p) (d := ⟨fun _ ↦ ids 0, 0⟩)
      (l := .replacing call plan rows (s :: rest)) rfl rfl
      (fun change hchange ↦ List.mem_singleton.1 hchange ▸ rfl) hclash
    have hmore' : Table.insertEach (VolumeSliceRepository.create call.opportunityId)
        (fun n ↦ ids (n + 1)) rest ((pending ++ [Change.insert row]).foldl changes.apply db) =
          .ok (more, db') := by
      rw [List.foldl_append]
      exact hmore
    obtain ⟨hrest, hdb'⟩ := ih (rows ++ [row]) hmore'
    rw [List.append_assoc, List.append_assoc] at hrest
    rw [List.append_assoc] at hdb'
    exact ⟨hinsert.trans hrest, hdb'⟩

/-- Deleting what was found deletes what there is of the opportunity. -/
theorem foldl_delete_stored (db : Db) (o : Uuid) :
    ((stored db o).map Change.delete).foldl changes.apply db =
      { db with volumeSlices := db.volumeSlices.filter (·.opportunityId ≠ o) } := by
  have hslices : db.volumeSlices.filter (· ∉ stored db o) =
      db.volumeSlices.filter (·.opportunityId ≠ o) := by
    refine List.filter_congr fun row hrow ↦ decide_eq_decide.2 (not_congr ?_)
    rw [stored, List.mem_filter, decide_eq_true_iff]
    exact and_iff_right hrow
  rw [foldl_delete, hslices]

/-- **With nobody in between** the statements do what `replaceVolumeSlices` does at once. -/
theorem replaces_alone {slices : List VolumeSlice} {reported : VolumeReconciliationResult}
    (h : replaceVolumeSlices d call db = .ok ((slices, reported), db')) :
    Relation.ReflTransGen (replacements.Does p) (.quiet db, .called call)
      (.quiet db', .returned slices reported) := by
  obtain ⟨plan, hplan, h⟩ := Tx.check_bind_eq_ok.1 (Tx.get_bind_eq_ok.1 h)
  obtain ⟨rows, db₃, htx, h⟩ := Tx.bind_eq_ok.1 h
  obtain ⟨hret, rfl⟩ := Prod.mk.inj (Except.ok.inj h)
  obtain ⟨rfl, rfl⟩ := Prod.mk.inj hret
  obtain ⟨_, db₁, hdelete, htx⟩ := Tx.bind_eq_ok.1 htx
  obtain ⟨-, rfl⟩ := Prod.mk.inj (Except.ok.inj hdelete)
  obtain ⟨rows', db₂, hinsert, htx⟩ := Tx.bind_eq_ok.1 htx
  obtain ⟨rfl, rfl⟩ := Prod.mk.inj (Except.ok.inj htx)
  have hquery : replacements.Does p (.alone p db [], .called call)
      (.alone p db [], .planned call plan) :=
    StatementSystem.does_query (d := d) rfl (Except.bind_eq_ok'.2 ⟨plan, hplan, rfl⟩)
  have hold : Relation.ReflTransGen (replacements.Does p) (.alone p db [], .planned call plan)
      (.alone p db ((stored db call.opportunityId).map .delete),
        .replacing call plan [] plan.toInsert) := by
    refine StatementSystem.does_write (d := d) rfl rfl (fun change hchange ↦ ?_) fun change hchange ↦ ?_
    · obtain ⟨row, hrow, rfl⟩ := List.mem_map.1 hchange
      exact decide_eq_true (List.mem_filter.1 hrow).1
    · obtain ⟨row, -, rfl⟩ := List.mem_map.1 hchange
      rfl
  replace hinsert : Table.insertEach (VolumeSliceRepository.create call.opportunityId) d.ids
      plan.toInsert (((stored db call.opportunityId).map Change.delete).foldl changes.apply db) =
        .ok (rows', db₂) := by
    rw [foldl_delete_stored]
    exact hinsert
  set written := (stored db call.opportunityId).map Change.delete ++ rows'.map Change.insert
  obtain ⟨hnew, hdb₂⟩ : Relation.ReflTransGen (replacements.Does p)
      (.alone p db ((stored db call.opportunityId).map .delete),
        .replacing call plan [] plan.toInsert)
      (.alone p db written, .replacing call plan rows' []) ∧
        written.foldl changes.apply db = db₂ :=
    inserts_alone [] hinsert
  have haudit : Relation.ReflTransGen (replacements.Does p)
      (.alone p db written, .replacing call plan rows' [])
      (.alone p db (written ++ [.audit call plan rows']), .audited call plan rows') := by
    refine StatementSystem.does_write (d := d) rfl rfl (fun change hchange ↦ ?_) fun change hchange ↦ ?_
    · rw [List.mem_singleton.1 hchange]
      rfl
    · rw [List.mem_singleton.1 hchange]
      rfl
  have hcommit : replacements.Does p
      (.alone p db (written ++ [.audit call plan rows']), .audited call plan rows')
      (.quiet ((written ++ [Change.audit call plan rows']).foldl changes.apply db),
        .returned rows' plan.reconciliation) :=
    StatementSystem.does_commit (d := d) rfl
  rw [List.foldl_append, hdb₂] at hcommit
  exact (((Relation.ReflTransGen.head hquery hold).trans hnew).trans haudit).tail hcommit

end

/-! ### Runs -/

section

variable {Pid : Type}

/-- All requests before their first statement. -/
def start (db : Db) (calls : Pid → ReplaceCall) : Config Pid := ⟨.quiet db, fun p ↦ .called (calls p)⟩

/-- **A run of one request alone** ends as `replaceVolumeSlices` does. -/
theorem exists_run_alone [DecidableEq Pid] {p : Pid} {d : Draws} {db db' : Db}
    {calls : Pid → ReplaceCall} {slices : List VolumeSlice} {reported : VolumeReconciliationResult}
    (h : replaceVolumeSlices d (calls p) db = .ok ((slices, reported), db')) :
    ∃ steps c', (replacements.system Pid).run (start db calls) steps = some c' ∧
      c'.shared = .quiet db' ∧ c'.locals p = .returned slices reported := by
  have hdoes := replaces_alone (p := p) h
  exact StatementSystem.exists_run_of_does (c := start db calls) hdoes

/-- The slices of an opportunity are those that there were, or those of one request. -/
def Whole (db₀ : Db) (calls : Pid → ReplaceCall) (db : Db) : Prop :=
  ∀ o, recordedReplacements db o = recordedReplacements db₀ o ∨
    ∃ p, (calls p).opportunityId = o ∧ StoredAsSubmitted db (calls p)

variable {db₀ db db' : Db} {calls : Pid → ReplaceCall}

/-- Slices that stay, stay as submitted. -/
theorem StoredAsSubmitted.of_eq {call : ReplaceCall} (h : StoredAsSubmitted db call)
    (hopportunities : db'.opportunities = db.opportunities)
    (hslices : stored db' call.opportunityId = stored db call.opportunityId) :
    StoredAsSubmitted db' call := by
  obtain ⟨opportunity, inputs, hfound, hinputs, hstored⟩ := h
  rw [OpportunityRepository.findById, ← hopportunities] at hfound
  exact ⟨opportunity, inputs, hfound, hinputs, hslices ▸ hstored⟩

/-- **A commit that found all slices** leaves those of its own request. -/
theorem Whole.commit {call : ReplaceCall} {plan : ReplacePlan} {rows old : List VolumeSlice}
    (h : Whole db₀ calls db) (hcall : call ∈ Set.range calls)
    (hplanned : PlannedFor db.opportunities call plan)
    (hrows : rows.map (·.toInput) = plan.toInsert)
    (hown : ∀ row ∈ rows, row.opportunityId = call.opportunityId)
    (hold : ∀ row ∈ old, row.opportunityId = call.opportunityId)
    (hfound : ∀ row ∈ stored db call.opportunityId, row ∈ old) :
    Whole db₀ calls
      { db with
        volumeSlices := db.volumeSlices.filter (· ∉ old) ++ rows
        trails := replaceTrails call plan rows db.trails } := by
  intro o
  by_cases ho : o = call.opportunityId
  · subst ho
    obtain ⟨p, rfl⟩ := hcall
    obtain ⟨hopportunity, inputs, hinputs, htoInsert⟩ := hplanned
    refine Or.inr ⟨p, rfl, plan.opportunity, inputs, hopportunity, hinputs, ?_⟩
    -- none of those that were there is left
    have hstored : (db.volumeSlices.filter (· ∉ old) ++ rows).filter
        (·.opportunityId = (calls p).opportunityId) = rows := by
      rw [List.filter_append, List.filter_filter, List.filter_eq_nil_iff.2, List.nil_append]
      · exact List.filter_eq_self.2 fun row hrow ↦ decide_eq_true (hown row hrow)
      · intro row hrow hboth
        obtain ⟨hmine, hleft⟩ := Bool.and_eq_true_iff.1 hboth
        exact of_decide_eq_true hleft (hfound row (List.mem_filter.2 ⟨hrow, hmine⟩))
    exact (congrArg (List.map (·.toInput)) hstored).trans (hrows.trans htoInsert)
  · rw [recordedReplacements_audited ho]
    refine (h o).imp_right fun ⟨p, hp, hstored⟩ ↦ ⟨p, hp, hstored.of_eq rfl ?_⟩
    -- neither its `DELETE` nor its insertions are about another opportunity
    show (db.volumeSlices.filter (· ∉ old) ++ rows).filter _ = db.volumeSlices.filter _
    rw [hp, List.filter_append, List.filter_filter, List.filter_eq_nil_iff (l := rows) |>.2,
      List.append_nil]
    · refine List.filter_congr fun row _ ↦ ?_
      by_cases hrow : row.opportunityId = o
      · rw [decide_eq_true hrow, Bool.true_and, decide_eq_true]
        exact fun hmem ↦ ho (hrow.symm.trans (hold row hmem))
      · rw [decide_eq_false hrow, Bool.false_and]
    · exact fun row hrow h ↦ ho ((of_decide_eq_true h).symm.trans (hown row hrow))

variable [DecidableEq Pid]

/-- Where a replacement commits, every slice that is stored of its opportunity was found by its own
`DELETE`. -/
def FoundAll (c : Config Pid) (p : Pid) : Prop :=
  ∀ call ∈ (c.locals p).committing, ∀ row ∈ stored c.shared.db call.opportunityId,
    Change.delete row ∈ c.shared.pendingOf p

instance (c : Config Pid) (p : Pid) : Decidable (FoundAll c p) := inferInstanceAs (Decidable (∀ _ ∈ _, _))

/-- What holds between any two steps. -/
def WholeAndAtRest (db₀ : Db) (calls : Pid → ReplaceCall) (c : Config Pid) : Prop :=
  Whole db₀ calls c.shared.db ∧ c.shared.db.opportunities = db₀.opportunities ∧
    ∀ q, StatementSystem.Resting replacements (fun _ ↦ Rests (· ∈ Set.range calls) db₀.opportunities)
      c.shared q (c.locals q)

/-- **Whatever commits, the slices stay whole** while every commit finds them all. -/
theorem WholeAndAtRest.fire {c c' : Config Pid} {p : Pid} {t : Tick Draws}
    (h : WholeAndAtRest db₀ calls c) (hfire : (replacements.system Pid).fire c p t = some c')
    (hfound : FoundAll c p) : WholeAndAtRest db₀ calls c' := by
  obtain ⟨hwhole, hrest⟩ := h
  refine ⟨?_, (protocol _ _).fire hrest hfire⟩
  rcases (StatementSystem.transition_of_fire hfire).db_cases with hdb | ⟨d, -, -, hnext, hdb⟩
  · rwa [hdb]
  · -- only a replacement that has written its audit row commits
    have hrests := (hrest.2 p).1
    unfold FoundAll at hfound
    generalize c.locals p = l at hnext hrests hfound
    cases l with
    | audited call plan rows =>
      obtain ⟨hcall, hplanned, hrows, written, ⟨⟨old, hold, rfl⟩, hown⟩, hpending⟩ := hrests
      rw [hdb, StatementSystem.Shared.visible, hpending]
      show Whole db₀ calls (List.foldl changes.apply _ _)
      rw [foldl_replaced]
      refine hwhole.commit hcall (hrest.1 ▸ hplanned) hrows hown hold fun row hrow ↦ ?_
      have hdelete := hfound call rfl row hrow
      rw [hpending] at hdelete
      simpa using hdelete
    | replacing call plan rows rest => cases rest <;> cases hnext
    | _ => cases hnext

/-- **A whole replacement.** Once a replacement of an opportunity has committed, its slices are those that
one request submitted, the first of each cell, in every run in which the `DELETE` of a replacement finds
all slices that are stored when it commits. -/
theorem wholeReplacement {steps : List (Pid × Tick Draws)} {c : Config Pid} {o : Uuid}
    (hrun : (replacements.system Pid).run (start db₀ calls) steps = some c)
    (hfound : (replacements.system Pid).Along (fun c p _ _ ↦ FoundAll c p) (start db₀ calls) steps)
    (hreplaced : recordedReplacements c.shared.db o ≠ recordedReplacements db₀ o) :
    ∃ p, (calls p).opportunityId = o ∧ StoredAsSubmitted c.shared.db (calls p) := by
  have hstart : WholeAndAtRest db₀ calls (start db₀ calls) :=
    ⟨fun _ ↦ Or.inl rfl, rfl, fun q ↦ StatementSystem.resting_quiet ⟨rfl, q, rfl⟩⟩
  have hc := hfound.inv (fun h hfire hstep ↦ h.fire hfire hstep) hstart hrun
  exact (hc.1 o).resolve_left hreplaced

end

/-! ### Two requests -/

namespace Sample

/-- An opportunity with one slice. -/
def stocked : Db where
  opportunities := [opportunity]
  volumeSlices := [⟨"s0", "opp", "US", "4111", "DOMESTIC", "ECOMMERCE", "EUR", 500, "2026-06"⟩]

/-- Two requests to replace it, by slices of different cells. -/
def requests : Bool → ReplaceCall
  | false => replace [slice "5411" "500"]
  | true => replace [slice "5812" "500"]

/-- Steps of one request. -/
def steps (p : Bool) (n : ℕ) : List (Bool × Tick Draws) :=
  List.replicate n (p, .act ⟨fun _ ↦ if p then "s2" else "s1", 500⟩)

/-- The `DELETE` of the second looks for the slices while the first has not committed, and waits for it. -/
def overlapping : List (Bool × Tick Draws) :=
  steps false 3 ++ steps true 2 ++ steps false 5 ++ steps true 6

/-- One after the other. -/
def inTurn : List (Bool × Tick Draws) := steps false 8 ++ steps true 8

/-- Then the slices of both are stored. -/
theorem overlapping_mixes : ∃ c : Config Bool,
    (replacements.system Bool).run (start stocked requests) overlapping = some c ∧
      recordedReplacements c.shared.db "opp" ≠ recordedReplacements stocked "opp" ∧
      ¬ ∃ p, (requests p).opportunityId = "opp" ∧ StoredAsSubmitted c.shared.db (requests p) :=
  PartySystem.exists_run_of_test (by decide +kernel)

/-- The slices of the second alone are stored. -/
theorem wholeReplacement_inTurn : ∃ c : Config Bool,
    (replacements.system Bool).run (start stocked requests) inTurn = some c ∧
      ∃ p, (requests p).opportunityId = "opp" ∧ StoredAsSubmitted c.shared.db (requests p) := by
  obtain ⟨c, hrun, hreplaced⟩ : ∃ c : Config Bool,
      (replacements.system Bool).run (start stocked requests) inTurn = some c ∧
        recordedReplacements c.shared.db "opp" ≠ recordedReplacements stocked "opp" :=
    PartySystem.exists_run_of_test (by decide +kernel)
  refine ⟨c, hrun, wholeReplacement hrun ?_ hreplaced⟩
  have htest : (replacements.system Bool).testAlong (fun c p ↦ decide (FoundAll c p))
      (start stocked requests) inTurn = true := by
    decide +kernel
  exact PartySystem.Along.of_test (fun _ _ _ _ ↦ by exact of_decide_eq_true) htest

end Sample

end TolPlatform.Opportunities
