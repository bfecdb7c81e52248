import TolPlatform.Economics.Outline
import TolPlatform.Library.Lineage

/-!
# Schedule versions over runs

`createSchedule` checks that the version it supersedes is `ACTIVE` before its transaction opens, and
`recordRevenueEvent` chooses its schedule before its transaction opens. Nothing is locked and nothing
is read again, so what was true of a version then need not be true at the commit.

* A family of versions stays one linear history with one live version as long as every version is
  still active when it is superseded; the first commit that supersedes a version a second time ends
  that (`singleLiveVersion_of_supersedesActive`).
* An event is committed against an active version exactly when nobody superseded the version between
  the choice and the commit (`event_on_active_iff`).
-/

namespace TolPlatform

/-- A version is there and active. -/
def ActiveVersion (db : Db) (id : Uuid) : Prop :=
  ∃ row ∈ db.commissionSchedules, row.id = id ∧ row.status = .active

/-! ### Families of versions -/

/-- The versions of a schedule family. -/
def familyVersions (db : Db) (scheduleFamilyId : Uuid) : List CommissionSchedule :=
  db.commissionSchedules.filter (·.scheduleFamilyId = scheduleFamilyId)

/-- Versions that form one linear history, oldest first. -/
abbrev VersionHistory : List CommissionSchedule → Prop :=
  Lineage (·.id) (·.previousVersionId) (·.versionNumber) (·.status = .active)

/-- Every family is a linear history that starts with the version the family is named after. -/
def LinearFamilies (db : Db) : Prop :=
  ∀ scheduleFamilyId, ∃ versions, versions.Perm (familyVersions db scheduleFamilyId) ∧
    VersionHistory versions ∧ ∀ s ∈ versions.head?, s.id = scheduleFamilyId

/-- One active version for each family, distinct version numbers, and a single chain of versions. -/
structure SingleLiveVersion (db : Db) : Prop where
  one_active : ∀ s ∈ db.commissionSchedules, ∀ s' ∈ db.commissionSchedules,
    s.scheduleFamilyId = s'.scheduleFamilyId → s.status = .active → s'.status = .active → s = s'
  versions_distinct : ∀ s ∈ db.commissionSchedules, ∀ s' ∈ db.commissionSchedules,
    s.scheduleFamilyId = s'.scheduleFamilyId → s.versionNumber = s'.versionNumber → s = s'
  superseded_once : ∀ s ∈ db.commissionSchedules, ∀ s' ∈ db.commissionSchedules,
    s.previousVersionId = s'.previousVersionId → s.previousVersionId ≠ none → s = s'
  chain : ∀ scheduleFamilyId, ∃ versions : List CommissionSchedule,
    versions.Perm (familyVersions db scheduleFamilyId) ∧
    (∀ s ∈ versions.head?, s.previousVersionId = none) ∧
      versions.IsChain fun s s' ↦ s'.previousVersionId = some s.id

section Families

variable {db db' : Db}

theorem mem_familyVersions {family : Uuid} {s : CommissionSchedule} :
    s ∈ familyVersions db family ↔ s ∈ db.commissionSchedules ∧ s.scheduleFamilyId = family := by
  rw [familyVersions, List.mem_filter, decide_eq_true_eq]

/-- The history of a version's own family has it. -/
theorem LinearFamilies.history (h : LinearFamilies db) {s : CommissionSchedule}
    (hs : s ∈ db.commissionSchedules) : ∃ versions, s ∈ versions ∧ VersionHistory versions ∧
      versions.Perm (familyVersions db s.scheduleFamilyId) := by
  obtain ⟨versions, hperm, hhistory, -⟩ := h s.scheduleFamilyId
  exact ⟨versions, hperm.mem_iff.2 (mem_familyVersions.2 ⟨hs, rfl⟩), hhistory, hperm⟩

/-- **Linear families have a single live version.** -/
theorem LinearFamilies.singleLiveVersion (h : LinearFamilies db)
    (hnodup : (db.commissionSchedules.map (·.id)).Nodup) : SingleLiveVersion db := by
  have hid : ∀ s ∈ db.commissionSchedules, ∀ s' ∈ db.commissionSchedules, s.id = s'.id → s = s' :=
    fun s hs s' hs' heq ↦ List.inj_on_of_nodup_map hnodup hs hs' heq
  have hsame : ∀ s ∈ db.commissionSchedules, ∀ s' ∈ db.commissionSchedules,
      s.scheduleFamilyId = s'.scheduleFamilyId →
        ∃ versions, s ∈ versions ∧ s' ∈ versions ∧ VersionHistory versions := by
    intro s hs s' hs' hfamily
    obtain ⟨versions, hmem, hhistory, hperm⟩ := h.history hs
    exact ⟨versions, hmem, hperm.mem_iff.2 (mem_familyVersions.2 ⟨hs', hfamily.symm⟩), hhistory⟩
  refine ⟨fun s hs s' hs' hfamily ha ha' ↦ ?_, fun s hs s' hs' hfamily hnumber ↦ ?_,
    fun s hs s' hs' hprevious hsome ↦ ?_, fun family ↦ ?_⟩
  · obtain ⟨versions, hmem, hmem', hhistory⟩ := hsame s hs s' hs' hfamily
    exact hhistory.live_unique hmem hmem' ha ha'
  · obtain ⟨versions, hmem, hmem', hhistory⟩ := hsame s hs s' hs' hfamily
    exact hhistory.number_inj hmem hmem' hnumber
  · -- both name the same predecessor, so they are of its family
    have hpredecessor : ∀ t ∈ db.commissionSchedules, t.previousVersionId ≠ none →
        ∃ a ∈ db.commissionSchedules, t.previousVersionId = some a.id ∧
          a.scheduleFamilyId = t.scheduleFamilyId := by
      intro t ht hne
      obtain ⟨versions, hmem, hhistory, hperm⟩ := h.history ht
      obtain ⟨a, ha, hprev, -⟩ := (hhistory.exists_prev hmem).resolve_left hne
      obtain ⟨hadb, hfamily⟩ := mem_familyVersions.1 (hperm.mem_iff.1 ha)
      exact ⟨a, hadb, hprev, hfamily⟩
    obtain ⟨a, ha, hpa, hfa⟩ := hpredecessor s hs hsome
    obtain ⟨b, hb, hpb, hfb⟩ := hpredecessor s' hs' (hprevious ▸ hsome)
    have hab : a = b := hid a ha b hb (Option.some.inj (hpa.symm.trans (hprevious.trans hpb)))
    obtain ⟨versions, hmem, hhistory, hperm⟩ := h.history hs
    have hmem' : s' ∈ versions := by
      refine hperm.mem_iff.2 (mem_familyVersions.2 ⟨hs', ?_⟩)
      rw [← hfb, ← hab, hfa]
    have hids : ∀ a ∈ versions, ∀ b ∈ versions, a.id = b.id → a = b := fun a ha b hb ↦
      hid a (mem_familyVersions.1 (hperm.mem_iff.1 ha)).1 b
        (mem_familyVersions.1 (hperm.mem_iff.1 hb)).1
    exact hhistory.prev_inj hids hmem hmem' hprevious hsome
  · obtain ⟨versions, hperm, hhistory, -⟩ := h family
    exact ⟨versions, hperm, hhistory.head, hhistory.link.imp fun _ _ hlink ↦ hlink.1⟩

@[simp] theorem retire_family {actor : Actor} {previous : Option CommissionSchedule}
    {s : CommissionSchedule} :
    (retire actor previous s).scheduleFamilyId = s.scheduleFamilyId := by
  unfold retire
  split_ifs <;> rfl

@[simp] theorem retire_previousVersionId {actor : Actor} {previous : Option CommissionSchedule}
    {s : CommissionSchedule} :
    (retire actor previous s).previousVersionId = s.previousVersionId := by
  unfold retire
  split_ifs <;> rfl

@[simp] theorem retire_versionNumber {actor : Actor} {previous : Option CommissionSchedule}
    {s : CommissionSchedule} : (retire actor previous s).versionNumber = s.versionNumber := by
  unfold retire
  split_ifs <;> rfl

/-- Superseding revives nothing, and takes the superseded version out of service. -/
theorem retire_active_iff {actor : Actor} {previous : Option CommissionSchedule}
    {s : CommissionSchedule} : (retire actor previous s).status = .active ↔
      s.status = .active ∧ previous.map (·.id) ≠ some s.id := by
  unfold retire
  split_ifs with hretired
  · simp [CommissionScheduleRepository.withStatus, hretired]
  · simp [hretired]

namespace ScheduleWritten

variable {call : ServiceCall CreateScheduleRequest} {plan : SchedulePlan}
  {new : CommissionSchedule} {components : List CommissionComponent}

theorem familyVersions_eq (h : ScheduleWritten call plan db db' new components) (family : Uuid) :
    familyVersions db' family = (familyVersions db family).map (retire call.actor plan.previous) ++
      if new.scheduleFamilyId = family then [new] else [] := by
  rw [familyVersions, h.schedules_eq, List.filter_append, List.filter_map]
  congr 1
  · refine congrArg (List.map _) (List.filter_congr fun s _ ↦ ?_)
    rw [Function.comp_apply, retire_family]
  · rw [List.filter_singleton]
    simp

/-- The predecessor that a new version continues. -/
theorem exists_predecessor (h : ScheduleWritten call plan db db' new components) {id : Uuid}
    (hid : plan.previous.map (·.id) = some id) : ∃ found ∈ db.commissionSchedules,
      found.id = id ∧ new.scheduleFamilyId = found.scheduleFamilyId ∧
        new.versionNumber = found.versionNumber + 1 := by
  have hfv := h.familyAndVersion
  rw [hid] at hfv
  rcases hfind : CommissionScheduleRepository.findById db id with - | found
  · simp [CommissionScheduleRepository.familyAndVersion, hfind] at hfv
  · simp only [CommissionScheduleRepository.familyAndVersion, hfind, Except.ok.injEq,
      Prod.mk.injEq] at hfv
    exact ⟨found, List.mem_of_find?_eq_some hfind, by simpa using List.find?_some hfind,
      hfv.1.symm, hfv.2.symm⟩

/-- **Superseding an active version keeps families linear.** -/
theorem linearFamilies (h : ScheduleWritten call plan db db' new components)
    (hnodup : (db.commissionSchedules.map (·.id)).Nodup) (hl : LinearFamilies db)
    (hactive : ∀ id, plan.previous.map (·.id) = some id → ActiveVersion db id) :
    LinearFamilies db' := by
  intro family
  obtain ⟨versions, hperm, hhistory, hhead⟩ := hl family
  have hretired : VersionHistory (versions.map (retire call.actor plan.previous)) :=
    hhistory.map (fun _ ↦ retire_id) (fun _ ↦ retire_previousVersionId)
      (fun _ ↦ retire_versionNumber) fun _ hlive ↦ (retire_active_iff.1 hlive).1
  have hhead' : ∀ s ∈ (versions.map (retire call.actor plan.previous)).head?, s.id = family := by
    intro s hs
    rw [List.head?_map] at hs
    obtain ⟨first, hfirst, rfl⟩ := Option.map_eq_some_iff.1 hs
    rw [retire_id]
    exact hhead first hfirst
  rw [h.familyVersions_eq]
  split_ifs with hfamily
  · rcases hprevious : plan.previous.map (·.id) with - | id
    · -- a new family: nothing is in it yet, as its first version would have the new id
      have hfv := h.familyAndVersion
      rw [hprevious] at hfv
      have hnew : new.id = new.scheduleFamilyId := (Prod.mk.inj (Except.ok.inj hfv)).1
      have hempty : versions = [] := by
        rcases versions with - | ⟨first, rest⟩
        · rfl
        · refine absurd ?_ h.fresh
          rw [hnew, hfamily, ← hhead first rfl]
          have hmem := hperm.mem_iff.1 (List.mem_cons_self : first ∈ first :: rest)
          exact List.mem_map_of_mem (mem_familyVersions.1 hmem).1
      subst hempty
      refine ⟨[new], ?_, .singleton (by rw [h.previousVersion, hprevious]), ?_⟩
      · rw [List.nil_perm.1 hperm]
        rfl
      · intro s hs
        rw [← Option.some.inj hs, hnew, hfamily]
    · -- the superseded version was live, so it was the last one
      obtain ⟨found, hfound, hid, hfoundFamily, hnumber⟩ := h.exists_predecessor hprevious
      obtain ⟨row, hrow, hrowId, hrowActive⟩ := hactive id hprevious
      obtain rfl : row = found := List.inj_on_of_nodup_map hnodup hrow hfound (hrowId.trans hid.symm)
      have hmem : row ∈ versions :=
        hperm.mem_iff.2 (mem_familyVersions.2 ⟨hrow, hfoundFamily ▸ hfamily⟩)
      have hlast := hhistory.getLast_of_live hmem hrowActive
      have hlast' : (versions.map (retire call.actor plan.previous)).getLast? =
          some (retire call.actor plan.previous row) := by
        rw [List.getLast?_map, hlast]
        rfl
      refine ⟨versions.map (retire call.actor plan.previous) ++ [new],
        (hperm.map _).append_right _, hretired.concat hlast' ?_ ?_ ?_, fun s hs ↦ ?_⟩
      · rw [h.previousVersion, hprevious, retire_id, hid]
      · rw [hnumber, retire_versionNumber]
      · rw [retire_active_iff, hprevious, hid]
        simp
      · rw [List.head?_append_of_ne_nil _ (by simpa using List.ne_nil_of_mem hmem)] at hs
        exact hhead' s hs
  · rw [List.append_nil]
    exact ⟨_, hperm.map _, hretired, hhead'⟩

/-- Superseding a version that is not active any more supersedes it twice. -/
theorem active_of_singleLiveVersion (h : ScheduleWritten call plan db db' new components)
    (hknown : PreviousKnown db plan.previous) (hs : SingleLiveVersion db') {id : Uuid}
    (hid : plan.previous.map (·.id) = some id) : ActiveVersion db id := by
  obtain ⟨v, hv, rfl⟩ := Option.map_eq_some_iff.1 hid
  obtain ⟨row, hrow, hrowId, hactive | ⟨s, hsdb, hsuperseded⟩⟩ := hknown v hv
  · exact ⟨row, hrow, hrowId, hactive⟩
  · have htwice := hs.superseded_once _ (h.retire_mem hsdb) new (h.mem_schedules.2 (.inr rfl))
      (by rw [retire_previousVersionId, hsuperseded, h.previousVersion, hid])
      (by rw [retire_previousVersionId, hsuperseded]; simp)
    refine absurd ?_ h.fresh
    rw [← htwice, retire_id]
    exact List.mem_map_of_mem hsdb

end ScheduleWritten

end Families

/-! ### One live version -/

section Live

/-- The version that a party is about to supersede is active. -/
def SupersedesActive (db : Db) : Local → Prop
  | .schedulePrepared call _ =>
    ∀ id, call.input.supersedesScheduleId = some id → ActiveVersion db id
  | _ => True

theorem LinearFamilies.congr {db db' : Db} (h : LinearFamilies db)
    (hschedules : db'.commissionSchedules = db.commissionSchedules) : LinearFamilies db' := by
  intro family
  rw [familyVersions, hschedules]
  exact h family

variable {P : Platform} {e : Draws} {db db' : Db} {l : Local}

theorem wrote_linearFamilies (hc : Consistent db) (hk : Knows db l) (h : Wrote P e l db db')
    (hactive : SupersedesActive db l) (hl : LinearFamilies db) : LinearFamilies db' := by
  cases h with
  | schedule hw =>
    refine hw.linearFamilies hc.schedules_nodup hl fun id hid ↦ hactive id ?_
    rw [← hk.1, hid]
  | event hw => exact hl.congr hw.schedules_eq
  | payment hw => exact hl.congr hw.schedules_eq
  | adjustment hw => exact hl.congr hw.schedules_eq
  | job hw => exact hl.congr hw.schedules_eq

theorem supersedesActive_of_singleLiveVersion (hk : Knows db l) (h : Wrote P e l db db')
    (hs : SingleLiveVersion db') : SupersedesActive db l := by
  cases h with
  | schedule hw =>
    intro id hid
    exact hw.active_of_singleLiveVersion hk.2 hs (hk.1.trans hid)
  | event | payment | adjustment | job => trivial

variable {Pid : Type} [DecidableEq Pid] {c c' : EconomicsConfig Pid}

/-- Where the schedule results start: nobody has done anything, and the families are linear. -/
def StartLinear (c : EconomicsConfig Pid) : Prop := Start c ∧ LinearFamilies c.shared.db

/-- What a step supersedes, if it commits, is active. -/
def SupersedesOnlyActive (c : EconomicsConfig Pid) (p : Pid) (_ : Env) (c' : EconomicsConfig Pid) :
    Prop :=
  c'.shared.db ≠ c.shared.db → SupersedesActive c.shared.db (c.locals p)

/-- **When a family keeps a single live version.** In every run whose superseding commits find their
version active, every configuration has a single live version for each family; the first commit that
does not ends that. -/
theorem singleLiveVersion_of_supersedesActive
    (h : (economicsSystem P Pid).ReachableBy SupersedesOnlyActive StartLinear c) :
    SingleLiveVersion c.shared.db ∧ ∀ p e c', (economicsSystem P Pid).fire c p e = some c' →
      (SingleLiveVersion c'.shared.db ↔ SupersedesOnlyActive c p e c') := by
  have hstep : ∀ {c p e c'}, (economicsSystem P Pid).ReachableBy SupersedesOnlyActive StartLinear c →
      LinearFamilies c.shared.db → (economicsSystem P Pid).fire c p e = some c' →
      SupersedesOnlyActive c p e c' → LinearFamilies c'.shared.db := by
    intro c p e c' h hl hfire hactive
    obtain ⟨hc, hlocals⟩ := outline_of_reachableBy (h.mono_start fun _ hstart ↦ hstart.1)
    by_cases hdb : c'.shared.db = c.shared.db
    · rw [hdb]
      exact hl
    · have hwrote := ((db_of_step (PartySystem.step_of_fire hfire)).1).resolve_left hdb
      exact wrote_linearFamilies hc (hlocals p).knows hwrote (hactive hdb) hl
  have hl : LinearFamilies c.shared.db :=
    h.rec_inv (I := fun c ↦ LinearFamilies c.shared.db) (fun _ hstart ↦ hstart.2) hstep
  have hreach := h.mono_start fun _ hstart ↦ hstart.1
  obtain ⟨hc, hlocals⟩ := outline_of_reachableBy hreach
  refine ⟨hl.singleLiveVersion hc.schedules_nodup, fun p e c' hfire ↦ ?_⟩
  have hc' := (outline_of_reachable (hreach.reachable.fire hfire)).1
  constructor
  · intro hs hdb
    have hwrote := ((db_of_step (PartySystem.step_of_fire hfire)).1).resolve_left hdb
    exact supersedesActive_of_singleLiveVersion (hlocals p).knows hwrote hs
  · exact fun hactive ↦ (hstep h hl hfire hactive).singleLiveVersion hc'.schedules_nodup

end Live

namespace Sample

/-- Supersede the sample schedule. -/
def supersede : Call :=
  .createSchedule (call
    { basis := .netPlatformRevenue, supersedesScheduleId := some scheduleId
      components := [{ recipientType := .contributor, recipientOrgId,
                       componentType := .percentageBps, bps := some 10000, priority := 0 }] })

/-- What the two parties that supersede it draw. -/
def supersedeDraws : ℕ → Env
  | 0 => draws ["3f0b7c1e-58f2-4d0e-9a64-1c2d5e7f9a40", "3f0b7c1e-58f2-4d0e-9a64-1c2d5e7f9a41"]
  | _ => draws ["3f0b7c1e-58f2-4d0e-9a64-1c2d5e7f9a42", "3f0b7c1e-58f2-4d0e-9a64-1c2d5e7f9a43"]

theorem linearFamilies : LinearFamilies db := by
  intro family
  by_cases hfamily : scheduleId = family
  · refine ⟨[schedule], ?_, .singleton rfl, ?_⟩
    · simp [familyVersions, db, schedule, hfamily]
    · intro s hs
      rw [← Option.some.inj hs]
      exact hfamily
  · refine ⟨[], ?_, .nil, by simp⟩
    simp [familyVersions, db, schedule, hfamily]

theorem start_linear (calls : ℕ → Call) : StartLinear (start calls) :=
  ⟨start_start calls, linearFamilies⟩

/-- What a step is about to supersede is active. -/
def supersedesActive (c : EconomicsConfig ℕ) (p : ℕ) : Bool :=
  match c.locals p with
  | .schedulePrepared call _ => call.input.supersedesScheduleId.all fun id ↦
      c.shared.db.commissionSchedules.any fun s ↦ s.id = id ∧ s.status = .active
  | _ => true

theorem supersedesActive_of_test {c : EconomicsConfig ℕ} {p : ℕ} (h : supersedesActive c p = true) :
    SupersedesActive c.shared.db (c.locals p) := by
  unfold supersedesActive at h
  split at h
  · next call plan hlocal =>
    rw [hlocal]
    intro id hid
    rw [hid, Option.all_some] at h
    obtain ⟨s, hs, hactive⟩ := List.any_eq_true.1 h
    exact ⟨s, hs, of_decide_eq_true hactive⟩
  · next hnot =>
    generalize c.locals p = l at hnot ⊢
    cases l with
    | schedulePrepared call plan => exact absurd rfl (hnot call plan)
    | _ => trivial

end Sample

/-- One after the other, the second request is rejected and one version is live. -/
theorem singleLiveVersion_of_sequence : ∃ c : EconomicsConfig ℕ,
    c.shared.db.commissionSchedules.map (·.status) = [.superseded, .active] ∧
      SingleLiveVersion c.shared.db := by
  have hrun : ((economicsSystem Sample.platform ℕ).run (Sample.start fun _ ↦ Sample.supersede)
      [(0, Sample.supersedeDraws 0), (0, Sample.supersedeDraws 0), (1, Sample.supersedeDraws 1)]).any
        (fun c ↦ c.shared.db.commissionSchedules.map (·.status) = [.superseded, .active]) = true := by
    decide +kernel
  have htest : (economicsSystem Sample.platform ℕ).testAlong Sample.supersedesActive
      (Sample.start fun _ ↦ Sample.supersede)
      [(0, Sample.supersedeDraws 0), (0, Sample.supersedeDraws 0), (1, Sample.supersedeDraws 1)] =
        true := by
    decide +kernel
  obtain ⟨c, hc, hstatus⟩ := PartySystem.exists_run_of_test hrun
  have halong := PartySystem.Along.of_test (Q := SupersedesOnlyActive)
    (fun _ _ _ _ h _ ↦ Sample.supersedesActive_of_test h) htest
  have hreach : (economicsSystem Sample.platform ℕ).ReachableBy SupersedesOnlyActive StartLinear c :=
    PartySystem.ReachableBy.run (.start (Sample.start_linear _)) hc halong
  exact ⟨c, hstatus, (singleLiveVersion_of_supersedesActive hreach).1⟩

/-- Two requests that read the active version before either commits both supersede it: its family has
two active versions with the same number. -/
theorem supersede_twice : ∃ c : EconomicsConfig ℕ,
    (economicsSystem Sample.platform ℕ).Reachable StartLinear c ∧
      c.shared.db.commissionSchedules.map (fun s ↦ (s.scheduleFamilyId, s.versionNumber, s.status)) =
        [(Sample.scheduleId, 1, .superseded), (Sample.scheduleId, 2, .active),
          (Sample.scheduleId, 2, .active)] ∧
      ¬ SingleLiveVersion c.shared.db := by
  have hrun : ((economicsSystem Sample.platform ℕ).run (Sample.start fun _ ↦ Sample.supersede)
      [(0, Sample.supersedeDraws 0), (1, Sample.supersedeDraws 1), (0, Sample.supersedeDraws 0),
        (1, Sample.supersedeDraws 1)]).any (fun c ↦
          c.shared.db.commissionSchedules.map (fun s ↦ (s.scheduleFamilyId, s.versionNumber, s.status)) =
            [(Sample.scheduleId, 1, .superseded), (Sample.scheduleId, 2, .active),
              (Sample.scheduleId, 2, .active)]) = true := by
    decide +kernel
  obtain ⟨c, hc, hversions⟩ := PartySystem.exists_run_of_test hrun
  have hreach : (economicsSystem Sample.platform ℕ).Reachable StartLinear c :=
    PartySystem.Reachable.run (.start (Sample.start_linear _)) hc
  refine ⟨c, hreach, hversions, fun hsingle ↦ ?_⟩
  have hnodup := (outline_of_reachableBy (hreach.mono_start fun _ hstart ↦ hstart.1)).1.schedules_nodup
  obtain ⟨first, rest, hschedules, -, hrest⟩ := List.map_eq_cons_iff.1 hversions
  obtain ⟨second, rest, rfl, hsecond, hrest⟩ := List.map_eq_cons_iff.1 hrest
  obtain ⟨third, rest, rfl, hthird, -⟩ := List.map_eq_cons_iff.1 hrest
  simp only [Prod.mk.injEq] at hsecond hthird
  have hsame : second = third := hsingle.versions_distinct second (by simp [hschedules]) third
    (by simp [hschedules]) (hsecond.1.trans hthird.1.symm) (hsecond.2.1.trans hthird.2.1.symm)
  simp [hschedules, hsame] at hnodup

/-! ### Events and superseded versions -/

section Events

variable {P : Platform} {e : Draws} {db db' : Db} {l : Local}

/-- A party is about to supersede a version. -/
def Supersedes (id : Uuid) : Local → Prop
  | .schedulePrepared call _ => call.input.supersedesScheduleId = some id
  | _ => False

theorem ActiveVersion.congr {id : Uuid}
    (h : db'.commissionSchedules = db.commissionSchedules) :
    ActiveVersion db' id ↔ ActiveVersion db id := by
  rw [ActiveVersion, ActiveVersion, h]

/-- **What a write does to an existing version**: it stays in service unless it is superseded, and
never comes back. -/
theorem wrote_activeVersion_iff (hk : Knows db l) (h : Wrote P e l db db')
    {id : Uuid} (hid : id ∈ db.commissionSchedules.map (·.id)) :
    ActiveVersion db' id ↔ ActiveVersion db id ∧ ¬ Supersedes id l := by
  have hsame : ∀ {l : Local}, ¬ Supersedes id l → db'.commissionSchedules = db.commissionSchedules →
      (ActiveVersion db' id ↔ ActiveVersion db id ∧ ¬ Supersedes id l) := by
    intro l hnot hschedules
    rw [ActiveVersion.congr hschedules]
    exact ⟨fun ha ↦ ⟨ha, hnot⟩, fun ha ↦ ha.1⟩
  cases h with
  | schedule hw =>
    rename_i call plan new components
    have hsupersedes : Supersedes id (.schedulePrepared call plan) ↔
        plan.previous.map (·.id) = some id := by
      rw [hk.1]
      exact Iff.rfl
    rw [hsupersedes]
    constructor
    · rintro ⟨row, hrow, rfl, hactive⟩
      rcases hw.mem_schedules.1 hrow with ⟨old, hold, rfl⟩ | rfl
      · obtain ⟨hlive, hne⟩ := retire_active_iff.1 hactive
        exact ⟨⟨old, hold, retire_id.symm, hlive⟩, by rwa [retire_id]⟩
      · exact absurd hid hw.fresh
    · rintro ⟨⟨row, hrow, rfl, hactive⟩, hne⟩
      exact ⟨_, hw.retire_mem hrow, retire_id, retire_active_iff.2 ⟨hactive, hne⟩⟩
  | event hw => exact hsame not_false hw.schedules_eq
  | payment hw => exact hsame not_false hw.schedules_eq
  | adjustment hw => exact hsame not_false hw.schedules_eq
  | job hw => exact hsame not_false hw.schedules_eq

variable {Pid : Type} [DecidableEq Pid] {c c' : EconomicsConfig Pid} {p : Pid}

/-- A step does not commit anything that supersedes the version. -/
def NotSuperseded (id : Uuid) (c : EconomicsConfig Pid) (q : Pid) (_ : Env)
    (c' : EconomicsConfig Pid) : Prop :=
  c'.shared.db ≠ c.shared.db → ¬ Supersedes id (c.locals q)

/-- **One step.** A version stays in service exactly over steps that do not supersede it. -/
theorem activeVersion_iff_of_fire (h : EconomicsReachable P c) {id : Uuid} {e : Env}
    (hid : id ∈ c.shared.db.commissionSchedules.map (·.id))
    (hfire : (economicsSystem P Pid).fire c p e = some c') :
    id ∈ c'.shared.db.commissionSchedules.map (·.id) ∧
      (ActiveVersion c'.shared.db id ↔ ActiveVersion c.shared.db id ∧ NotSuperseded id c p e c') := by
  have hlocals := (outline_of_reachable h).2
  by_cases hdb : c'.shared.db = c.shared.db
  · rw [hdb]
    exact ⟨hid, fun ha ↦ ⟨ha, fun hne ↦ absurd hdb hne⟩, fun ha ↦ ha.1⟩
  · have hwrote := ((db_of_step (PartySystem.step_of_fire hfire)).1).resolve_left hdb
    refine ⟨?_, ?_⟩
    · obtain ⟨s, hs, rfl⟩ := List.mem_map.1 hid
      obtain ⟨s', hs', hsame, -⟩ := wrote_schedules hwrote hs
      exact List.mem_map.2 ⟨s', hs', hsame⟩
    · rw [wrote_activeVersion_iff (hlocals p).knows hwrote hid]
      exact and_congr_right fun _ ↦ ⟨fun hnot _ ↦ hnot, fun hnot ↦ hnot hdb⟩

/-- The run lemma: a version is in service after a run exactly when no step superseded it. -/
theorem activeVersion_iff_of_run (h : EconomicsReachable P c) {id : Uuid}
    (hid : id ∈ c.shared.db.commissionSchedules.map (·.id)) {steps : List (Pid × Env)}
    (hrun : (economicsSystem P Pid).run c steps = some c') : ActiveVersion c'.shared.db id ↔
      ActiveVersion c.shared.db id ∧ (economicsSystem P Pid).Along (NotSuperseded id) c steps := by
  induction steps generalizing c with
  | nil =>
    obtain rfl := Option.some.inj hrun
    exact ⟨fun ha ↦ ⟨ha, trivial⟩, fun ha ↦ ha.1⟩
  | cons step rest ih =>
    obtain ⟨q, e⟩ := step
    obtain ⟨c₁, hfire, hrest⟩ := Option.bind_eq_some_iff.1 hrun
    obtain ⟨hid₁, hone⟩ := activeVersion_iff_of_fire h hid hfire
    rw [ih (h.fire hfire) hid₁ hrest, hone, and_assoc]
    refine and_congr_right fun _ ↦ ⟨fun halong c₂ hfire₂ ↦ ?_, fun halong ↦ halong c₁ hfire⟩
    obtain rfl := Option.some.inj (hfire.symm.trans hfire₂)
    exact halong

/-- A `recordRevenueEvent` that answers has committed. -/
theorem eventWritten_of_fire {e : Env} {call : ServiceCall RecordRevenueEventRequest}
    {dealRoom : DealRoom} {plan : RevenuePlan} {recorded : RevenueEventRecorded}
    (hfire : (economicsSystem P Pid).fire c p e = some c')
    (hp : c.locals p = .revenuePlanned call dealRoom plan)
    (hp' : c'.locals p = .finished (.ok (.revenueEvent recorded))) :
    ∃ rows, EventWritten e.toDraws call plan c.shared.db c'.shared.db recorded.revenueEvent rows := by
  have hadvance := advance_of_fire hfire (by simp [hp'])
  rw [hp, hp'] at hadvance
  obtain ⟨⟨event, rows⟩, hbody, hret⟩ :=
    close_eq_ok (by simp [Except.map]) (Option.some.inj hadvance)
  have hrecorded := Response.revenueEvent.inj (Except.ok.inj hret)
  refine ⟨rows, ?_⟩
  rw [← hrecorded]
  exact commitRevenueEvent_eq_ok hbody

/-- **When an event is committed against an active version.** A call chooses its schedule, any number
of other steps follow, and the call commits its event: the version that the event references is then
active exactly when none of those steps superseded it. -/
theorem event_on_active_iff {c₀ c₁ c₂ c₃ : EconomicsConfig Pid} {e₀ e₂ : Env}
    {steps : List (Pid × Env)} {call : ServiceCall RecordRevenueEventRequest} {dealRoom : DealRoom}
    {plan : RevenuePlan} {recorded : RevenueEventRecorded} (h : EconomicsReachable P c₀)
    (hchoose : (economicsSystem P Pid).fire c₀ p e₀ = some c₁)
    (hp₁ : c₁.locals p = .revenuePlanned call dealRoom plan)
    (hrun : (economicsSystem P Pid).run c₁ steps = some c₂) (hothers : ∀ step ∈ steps, step.1 ≠ p)
    (hcommit : (economicsSystem P Pid).fire c₂ p e₂ = some c₃)
    (hp₃ : c₃.locals p = .finished (.ok (.revenueEvent recorded))) :
    ActiveVersion c₃.shared.db recorded.revenueEvent.scheduleId ↔
      (economicsSystem P Pid).Along (NotSuperseded plan.schedule.id) c₁ steps := by
  -- the version was active when it was chosen
  have hactive : ActiveVersion c₁.shared.db plan.schedule.id := by
    have htransition := step_cases (PartySystem.step_of_fire hchoose)
    rw [hp₁] at htransition
    generalize c₀.locals p = l₀ at htransition
    generalize c₁.shared = s₁ at htransition ⊢
    cases htransition with
    | planned hread =>
      obtain ⟨hmem, -, hlive, -⟩ := mem_of_chooseSchedule (planRevenueEvent_eq_ok hread).1
      exact ⟨_, hmem, rfl, hlive⟩
  have hid : plan.schedule.id ∈ c₁.shared.db.commissionSchedules.map (·.id) := by
    obtain ⟨row, hrow, hrowId, -⟩ := hactive
    exact List.mem_map.2 ⟨row, hrow, hrowId⟩
  have hp₂ : c₂.locals p = .revenuePlanned call dealRoom plan := by
    rw [PartySystem.locals_of_run hrun hothers, hp₁]
  obtain ⟨rows, hwritten⟩ := eventWritten_of_fire hcommit hp₂ hp₃
  rw [ActiveVersion.congr hwritten.schedules_eq, hwritten.schedule,
    activeVersion_iff_of_run (h.fire hchoose) hid hrun]
  exact ⟨fun ha ↦ ha.2, fun halong ↦ ⟨hactive, halong⟩⟩

end Events

namespace Sample

/-- Party 0 records an event, the others supersede the schedule. -/
def raceCalls : ℕ → Call
  | 0 => recordEvent
  | _ => supersede

def recordDraws : Env :=
  draws ["3f0b7c1e-58f2-4d0e-9a64-1c2d5e7f9a10", accrualId]

/-- Party 0 chooses the schedule, the given steps follow, and party 0 commits its event. -/
structure Race (steps : List (ℕ × Env)) (c₀ c₁ c₂ c₃ : EconomicsConfig ℕ)
    (recorded : RevenueEventRecorded) : Prop where
  reachable : EconomicsReachable platform c₀
  chosen : (economicsSystem platform ℕ).fire c₀ 0 recordDraws = some c₁
  planned : ∃ call dealRoom plan, c₁.locals 0 = .revenuePlanned call dealRoom plan
  waiting : ∀ q, q ≠ 0 → c₁.locals q = .start supersede
  others : (economicsSystem platform ℕ).run c₁ steps = some c₂
  committed : (economicsSystem platform ℕ).fire c₂ 0 recordDraws = some c₃
  answered : c₃.locals 0 = .finished (.ok (.revenueEvent recorded))

/-- Runs that race, and tells `f` about its end. -/
def runRace (steps : List (ℕ × Env)) (f : Db → RevenueEventRecorded → Bool) : Bool :=
  ((economicsSystem platform ℕ).run (start raceCalls) [(0, recordDraws)]).any fun c₀ ↦
    ((economicsSystem platform ℕ).fire c₀ 0 recordDraws).any fun c₁ ↦
      ((economicsSystem platform ℕ).run c₁ steps).any fun c₂ ↦
        ((economicsSystem platform ℕ).fire c₂ 0 recordDraws).any fun c₃ ↦
          match c₁.locals 0, c₃.locals 0 with
          | .revenuePlanned _ _ _, .finished (.ok (.revenueEvent recorded)) => f c₃.shared.db recorded
          | _, _ => false

theorem exists_of_runRace {steps : List (ℕ × Env)} {f : Db → RevenueEventRecorded → Bool}
    (h : runRace steps f = true) : ∃ c₀ c₁ c₂ c₃ recorded,
      Race steps c₀ c₁ c₂ c₃ recorded ∧ f c₃.shared.db recorded = true := by
  obtain ⟨c₀, hc₀, h⟩ := (Option.any_eq_true _ _).1 h
  obtain ⟨c₁, hc₁, h⟩ := (Option.any_eq_true _ _).1 h
  obtain ⟨c₂, hc₂, h⟩ := (Option.any_eq_true _ _).1 h
  obtain ⟨c₃, hc₃, h⟩ := (Option.any_eq_true _ _).1 h
  split at h
  · next call dealRoom plan recorded hplanned hanswered =>
    refine ⟨c₀, c₁, c₂, c₃, recorded, ⟨reachable_of_run hc₀, hc₁, ⟨call, dealRoom, plan, hplanned⟩,
      fun q hq ↦ ?_, hc₂, hc₃, hanswered⟩, h⟩
    rw [PartySystem.locals_of_fire hc₁ hq, PartySystem.locals_of_run hc₀ (by simpa using hq.symm)]
    obtain ⟨n, rfl⟩ := Nat.exists_eq_succ_of_ne_zero hq
    rfl
  · cases h

end Sample

/-- A request that has only read the version does not take it out of service. -/
theorem event_on_active_of_unfinished_supersede : ∃ c₀ c₁ c₂ c₃ recorded,
    Sample.Race [(1, Sample.supersedeDraws 1)] c₀ c₁ c₂ c₃ recorded ∧
      ActiveVersion c₃.shared.db recorded.revenueEvent.scheduleId := by
  have hrun : Sample.runRace [(1, Sample.supersedeDraws 1)] (fun _ _ ↦ true) = true := by
    decide +kernel
  obtain ⟨c₀, c₁, c₂, c₃, recorded, hrace, -⟩ := Sample.exists_of_runRace hrun
  obtain ⟨call, dealRoom, plan, hplanned⟩ := hrace.planned
  refine ⟨c₀, c₁, c₂, c₃, recorded, hrace, ?_⟩
  refine (event_on_active_iff hrace.reachable hrace.chosen hplanned hrace.others (by simp)
    hrace.committed hrace.answered).2 fun c' _ ↦ ⟨fun _ ↦ ?_, trivial⟩
  rw [hrace.waiting 1 one_ne_zero]
  exact not_false

/-- A supersede that commits between the choice of the schedule and the commit of the event leaves the
event on a superseded version. -/
theorem event_on_superseded : ∃ c₀ c₁ c₂ c₃ recorded,
    Sample.Race [(1, Sample.supersedeDraws 1), (1, Sample.supersedeDraws 1)] c₀ c₁ c₂ c₃ recorded ∧
      ¬ ActiveVersion c₃.shared.db recorded.revenueEvent.scheduleId := by
  have hrun : Sample.runRace [(1, Sample.supersedeDraws 1), (1, Sample.supersedeDraws 1)]
      (fun db recorded ↦ decide (∀ row ∈ db.commissionSchedules,
        row.id = recorded.revenueEvent.scheduleId → row.status = .superseded)) = true := by
    decide +kernel
  obtain ⟨c₀, c₁, c₂, c₃, recorded, hrace, h⟩ := Sample.exists_of_runRace hrun
  refine ⟨c₀, c₁, c₂, c₃, recorded, hrace, fun ⟨row, hrow, hid, hactive⟩ ↦ ?_⟩
  have hsuperseded := of_decide_eq_true h row hrow hid
  rw [hactive] at hsuperseded
  cases hsuperseded

end TolPlatform
