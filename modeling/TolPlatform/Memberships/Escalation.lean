import TolPlatform.Library.Evolution
import TolPlatform.Memberships.Service

/-!
# Who can make a Platform Owner

The matrix grants `membership.update_role` to the Platform Owner alone and says of the marketplace
operator that its membership operations are *not* role grants. Nothing keeps an operator from the same
result in two requests: `create` admits any role, and `updateStatus` activates any row.

A run starts anywhere, with actors none of whom is an active Platform Owner. The invariant is that the
active Platform Owners are among those of the start and that no call has got past the check of
`updateRole`; every kind of commit but one keeps it, and `noOwnerAppears_iff` says which one.
-/

namespace TolPlatform.Memberships

/-! ### Active Platform Owners -/

/-- A user is an active Platform Owner in an organization. -/
def ActiveOwner (rows : List OrganizationMembership) (userId organizationId : Uuid) : Prop :=
  ∃ m ∈ rows, m.tuple = (organizationId, userId, .platformOwner) ∧ m.status = .active

instance (rows : List OrganizationMembership) (userId organizationId : Uuid) :
    Decidable (ActiveOwner rows userId organizationId) :=
  inferInstanceAs (Decidable (∃ m ∈ rows, _ ∧ _))

section

variable {rows : List OrganizationMembership} {userId organizationId : Uuid}

theorem ActiveOwner.of_append {m : OrganizationMembership} (hm : m.status ≠ .active)
    (h : ActiveOwner (rows ++ [m]) userId organizationId) :
    ActiveOwner rows userId organizationId := by
  obtain ⟨r, hr, htuple, hactive⟩ := h
  rcases List.mem_append.1 hr with hr | hr
  · exact ⟨r, hr, htuple, hactive⟩
  · obtain rfl := List.mem_singleton.1 hr
    exact absurd hactive hm

/-- A rewrite that activates no Platform Owner row leaves the active owners among the old ones. -/
theorem ActiveOwner.of_rewrite {k : Uuid} {f : OrganizationMembership → OrganizationMembership}
    (htuple : ∀ m, (f m).tuple = m.tuple)
    (hf : ∀ m ∈ rows, m.id = k → m.role = .platformOwner → (f m).status = .active →
      m.status = .active)
    (h : ActiveOwner (Rows.rewrite (·.id) k f rows) userId organizationId) :
    ActiveOwner rows userId organizationId := by
  obtain ⟨r', hr', hkey, hactive⟩ := h
  obtain ⟨r, hr, rfl⟩ := Rows.mem_rewrite_iff.1 hr'
  by_cases hk : r.id = k
  · rw [if_pos hk] at hkey hactive
    have hkey' : r.tuple = _ := (htuple r).symm.trans hkey
    have hrole : r.role = .platformOwner := congrArg (fun t ↦ t.2.2) hkey'
    exact ⟨r, hr, hkey', hf r hr hk hrole hactive⟩
  · rw [if_neg hk] at hkey hactive
    exact ⟨r, hr, hkey, hactive⟩

end

/-! ### What the transactions write -/

/-- What `create` does to the rows: one `INVITED` row, inserted or taken back. -/
inductive Invited (rows : List OrganizationMembership) : List OrganizationMembership → Prop
  | inserted {m : OrganizationMembership} : m.status = .invited →
      m.tuple ∉ rows.map (·.tuple) → Invited rows (rows ++ [m])
  | reactivated {now : Instant} {k : Uuid} {source : Option String} :
      Invited rows (Rows.rewrite (·.id) k
        (MembershipRepository.reinstate now .invited source) rows)

section

variable {d : Draws} {actor : Actor} {context : RequestContext} {db db' : Db}
  {m : OrganizationMembership}

theorem endSessions_eq_ok {userId : Uuid} {status : MembershipStatus} {u : PUnit}
    (h : endSessions d userId status db = .ok (u, db')) :
    db'.organizationMemberships = db.organizationMemberships := by
  unfold endSessions at h
  split at h
  · obtain ⟨-, rfl⟩ := Prod.mk.inj (Except.ok.inj h)
    rfl
  · obtain ⟨-, rfl⟩ := Prod.mk.inj (Except.ok.inj h)
    rfl

theorem invite_eq_ok {organizationId : Uuid} {input : CreateMembershipRequest}
    {invited : OrganizationMembership × String}
    (h : invite d organizationId input db = .ok (invited, db')) :
    Invited db.organizationMemberships db'.organizationMemberships := by
  rw [invite, Tx.get_bind_eq_ok] at h
  rcases hfind : MembershipRepository.findByUserOrgRole db input.userId organizationId input.role
    with - | existing
  · simp only [hfind] at h
    obtain ⟨r, db₁, hr, h⟩ := Tx.bind_eq_ok.1 h
    obtain ⟨-, rfl⟩ := Prod.mk.inj (Tx.pure_eq_ok.1 h)
    rw [MembershipRepository.create, Tx.get_bind_eq_ok, Tx.check_bind_eq_ok] at hr
    obtain ⟨_, htuple, hr⟩ := hr
    obtain ⟨-, -, rfl⟩ := Table.insert_eq_ok_iff.1 hr
    exact .inserted rfl (throwIf_eq_ok_iff.1 htuple)
  · simp only [hfind] at h
    split at h
    · obtain ⟨r, db₁, hr, h⟩ := Tx.bind_eq_ok.1 h
      obtain ⟨-, rfl⟩ := Prod.mk.inj (Tx.pure_eq_ok.1 h)
      obtain ⟨-, -, -, rfl⟩ := Table.update_eq_ok_iff.1 hr
      exact .reactivated
    · cases h

theorem createTx_eq_ok {organizationId : Uuid} {input : CreateMembershipRequest}
    (h : createTx d actor organizationId input context db = .ok (m, db')) :
    Invited db.organizationMemberships db'.organizationMemberships := by
  obtain ⟨invited, db₁, hinvite, h⟩ :=
    Tx.bind_eq_ok.1 (runUniqueConstraintSafe_eq_ok_iff.1 h)
  obtain ⟨-, rfl⟩ := Prod.mk.inj (Except.ok.inj h)
  exact (invite_eq_ok hinvite : Invited _ db₁.organizationMemberships)

theorem updateStatusTx_eq_ok {existing : OrganizationMembership} {status : MembershipStatus}
    (h : updateStatusTx d actor existing status context db = .ok (m, db')) :
    db'.organizationMemberships = Rows.rewrite (·.id) existing.id
      (MembershipRepository.setStatus d.now status) db.organizationMemberships := by
  obtain ⟨updated, db₁, hupdate, h⟩ := Tx.bind_eq_ok.1 h
  obtain ⟨_, db₂, hsessions, h⟩ := Tx.bind_eq_ok.1 h
  obtain ⟨-, rfl⟩ := Prod.mk.inj (Except.ok.inj h)
  obtain ⟨-, -, -, rfl⟩ := Table.update_eq_ok_iff.1 hupdate
  exact endSessions_eq_ok hsessions

/-- An activation of a row that exists succeeds. -/
theorem exists_updateStatusTx_active {existing : OrganizationMembership}
    (hm : m ∈ db.organizationMemberships) (hid : m.id = existing.id) :
    ∃ r db', updateStatusTx d actor existing .active context db = .ok (r, db') := by
  have hsome : (db.organizationMemberships.find? (·.id = existing.id)).isSome :=
    List.find?_isSome.2 ⟨m, hm, decide_eq_true hid⟩
  obtain ⟨old, hold⟩ := Option.isSome_iff_exists.1 hsome
  have hupdate : MembershipRepository.updateStatus d existing.id .active db = .ok (_, _) :=
    Table.update_eq_ok_iff.2 ⟨old, hold, rfl, rfl⟩
  exact ⟨_, _, Tx.bind_eq_ok.2 ⟨_, _, hupdate, rfl⟩⟩

end

/-! ### The invariant -/

section

variable {Pid : Type} [DecidableEq Pid]

/-- A configuration of membership calls. -/
abbrev Config (Pid : Type) : Type :=
  PartySystem.Config Pid (CallSystem.Shared Db Empty Pid) Local

/-- Where a run starts: the unique constraint holds, no request has been served yet, and nobody who
makes one is an active Platform Owner anywhere. -/
structure Initial (c : Config Pid) : Prop where
  tuples : (c.shared.db.organizationMemberships.map (·.tuple)).Nodup
  called : ∀ p, ∃ call, c.locals p = .called call ∧
    ∀ organizationId, ¬ ActiveOwner c.shared.db.organizationMemberships call.userId organizationId

/-- What is known of a call where `rows` bounds the active Platform Owners: it does not act as one,
so it never gets past the check of `updateRole`. -/
def Unprivileged (rows : List OrganizationMembership) : Local → Prop
  | .called call => ∀ organizationId, ¬ ActiveOwner rows call.userId organizationId
  | .admitted actor _ _ | .createChecked actor _ _ _ | .statusChecked actor _ _ _ =>
    actor.role ≠ some .platformOwner
  | .roleChecked _ _ _ _ => False
  | .returned _ | .threw _ | .crashed => True

/-- The invariant, over the rows of the start. -/
structure Bounded (rows : List OrganizationMembership) (c : Config Pid) : Prop where
  tuples : (c.shared.db.organizationMemberships.map (·.tuple)).Nodup
  owners : ∀ {userId organizationId},
    ActiveOwner c.shared.db.organizationMemberships userId organizationId →
      ActiveOwner rows userId organizationId
  locals : ∀ p, Unprivileged rows (c.locals p)

/-- No user becomes an active Platform Owner in this step. -/
def NoOwnerAppears :
    PartySystem.StepCond Pid (Tick Draws) (CallSystem.Shared Db Empty Pid) Local := fun c _ _ c' ↦
  ∀ userId organizationId,
    ActiveOwner c'.shared.db.organizationMemberships userId organizationId →
      ActiveOwner c.shared.db.organizationMemberships userId organizationId

/-- The step is not an `updateStatus` to `ACTIVE` on a Platform Owner row of another status. -/
def OwnerNotActivated :
    PartySystem.StepCond Pid (Tick Draws) (CallSystem.Shared Db Empty Pid) Local := fun c p t _ ↦
  ∀ d actor existing context, t = .act d →
    c.locals p = .statusChecked actor existing .active context →
      ∀ m ∈ c.shared.db.organizationMemberships, m.id = existing.id → m.role = .platformOwner →
        m.status = .active

variable {rows : List OrganizationMembership} {db : Db} {l l' : Local}

/-- The auth hook makes an actor a Platform Owner only where its user is an active one. -/
theorem actorOf_role {call : Call} (h : (actorOf db call).role = some .platformOwner) :
    ∃ organizationId, ActiveOwner db.organizationMemberships call.userId organizationId := by
  unfold actorOf at h
  split at h
  · next m hm =>
    obtain ⟨hselected, hown⟩ := Option.filter_eq_some_iff.1 (hm : activeMembership db call = some m)
    obtain ⟨k, -, hfind⟩ := Option.bind_eq_some_iff.1 hselected
    obtain ⟨huser, hactive⟩ := of_decide_eq_true hown
    have hrole : m.role = .platformOwner := Option.some.inj h
    refine ⟨m.organizationId, m, List.mem_of_find?_eq_some hfind, ?_, hactive⟩
    rw [OrganizationMembership.tuple, huser, hrole]
  · cases h

/-- `update_role` is the Platform Owner's alone. -/
theorem updateRole_grant {role : PersonaRole}
    (h : Action.membershipUpdateRole ∈ (authorityMatrix role).allowedActions) :
    role = .platformOwner := by
  cases role <;> first | rfl | exact absurd h (by decide)

theorem precheck_unprivileged {actor : Actor} {context : RequestContext} {request : Request}
    (hrole : actor.role ≠ some .platformOwner) (h : precheck db actor context request = .ok l') :
    Unprivileged rows l' := by
  cases request with
  | create organizationId input =>
    obtain ⟨_, -, h⟩ := Except.bind_eq_ok'.1 h
    obtain ⟨_, -, h⟩ := Except.bind_eq_ok'.1 h
    obtain rfl := Except.ok.inj h
    exact hrole
  | updateStatus membershipId status =>
    obtain ⟨existing, -, h⟩ := Except.bind_eq_ok'.1 h
    obtain ⟨_, -, h⟩ := Except.bind_eq_ok'.1 h
    obtain rfl := Except.ok.inj h
    exact hrole
  | updateRole membershipId newRole =>
    obtain ⟨existing, -, h⟩ := Except.bind_eq_ok'.1 h
    obtain ⟨_, hallowed, h⟩ := Except.bind_eq_ok'.1 h
    -- the decision was made for a role that is not granted the action
    have hcan := throwIf_eq_ok_iff.1 hallowed
    rw [Bool.not_eq_false] at hcan
    obtain ⟨role, _, hsome, -, hgrant, -⟩ := can_allowed_grant hcan
    obtain rfl := updateRole_grant hgrant
    exact absurd hsome hrole

theorem Invited.owners {rows' : List OrganizationMembership} (h : Invited rows rows')
    {userId organizationId : Uuid} (howner : ActiveOwner rows' userId organizationId) :
    ActiveOwner rows userId organizationId := by
  cases h with
  | inserted hstatus => exact howner.of_append (by rw [hstatus]; decide)
  | @reactivated now k source =>
    refine ActiveOwner.of_rewrite (f := MembershipRepository.reinstate now .invited source)
      (fun _ ↦ rfl) (fun m _ _ _ hactive ↦ ?_) howner
    cases (hactive : MembershipStatus.invited = .active)

theorem Invited.tuples {rows' : List OrganizationMembership} (h : Invited rows rows')
    (htuples : (rows.map (·.tuple)).Nodup) : (rows'.map (·.tuple)).Nodup := by
  cases h with
  | inserted _ htuple =>
    refine Rows.nodup_append htuples (fun r hr ↦ ?_) (List.nodup_singleton _)
    exact List.mem_singleton.1 hr ▸ htuple
  | @reactivated now k source =>
    rw [Rows.map_rewrite (f := MembershipRepository.reinstate now .invited source) fun _ ↦ rfl]
    exact htuples

/-! ### Runs -/

variable {c c' : Config Pid} {p : Pid} {t : Tick Draws}

omit [DecidableEq Pid] in
theorem Initial.bounded (h : Initial c) : Bounded c.shared.db.organizationMemberships c where
  tuples := h.tuples
  owners := id
  locals p := by
    obtain ⟨call, hcall, hnone⟩ := h.called p
    rw [hcall]
    exact hnone

/-- A call stays unprivileged as long as no Platform Owner has appeared. -/
theorem unprivileged_of_transition {s s' : CallSystem.Shared Db Empty Pid}
    (howners : ∀ {userId organizationId},
      ActiveOwner s.db.organizationMemberships userId organizationId →
        ActiveOwner rows userId organizationId)
    (hl : Unprivileged rows l) (h : calls.Transition p s l t s' l') : Unprivileged rows l' := by
  cases h with
  | @queried d f _ hnext hf =>
    cases l with
    | called call =>
      obtain rfl := NextStep.query.inj hnext
      obtain rfl := Except.ok.inj hf
      intro (hrole : (actorOf s.db call).role = some .platformOwner)
      obtain ⟨organizationId, howner⟩ := actorOf_role hrole
      exact hl organizationId (howners howner)
    | admitted actor request context =>
      obtain rfl := NextStep.query.inj hnext
      exact precheck_unprivileged hl hf
    | _ => cases hnext
  | locked hnext => cases l <;> cases hnext
  | committed hnext hbody =>
    cases l with
    | createChecked | statusChecked | roleChecked =>
      obtain rfl := NextStep.commit.inj hnext
      obtain ⟨m, -, rfl⟩ := Tx.map_eq_ok.1 hbody
      trivial
    | _ => cases hnext
  | failed | crashed => trivial

omit [DecidableEq Pid] in
/-- **What a commit does to the Platform Owners.** -/
theorem Bounded.owners_of_commit (h : Bounded rows c) {d : Draws} {body : Tx Db Thrown Local}
    (hnext : calls.next d (c.locals p) = .commit body) (hbody : body c.shared.db = .ok (l', db)) :
    (db.organizationMemberships.map (·.tuple)).Nodup ∧
      (OwnerNotActivated c p (.act d) c' → ∀ {userId organizationId},
        ActiveOwner db.organizationMemberships userId organizationId →
          ActiveOwner c.shared.db.organizationMemberships userId organizationId) := by
  have hl := h.locals p
  rcases hlocal : c.locals p
  all_goals rw [hlocal] at hnext hl
  case createChecked =>
    obtain rfl := NextStep.commit.inj hnext
    obtain ⟨m, hm, rfl⟩ := Tx.map_eq_ok.1 hbody
    have hinvited := createTx_eq_ok hm
    exact ⟨hinvited.tuples h.tuples, fun _ ↦ hinvited.owners⟩
  case statusChecked actor existing status context =>
    obtain rfl := NextStep.commit.inj hnext
    obtain ⟨m, hm, rfl⟩ := Tx.map_eq_ok.1 hbody
    rw [updateStatusTx_eq_ok hm]
    refine ⟨?_, fun hcond _ _ ↦ ActiveOwner.of_rewrite (fun _ ↦ rfl) fun r hr hid hrole hactive ↦ ?_⟩
    · rw [Rows.map_rewrite (f := MembershipRepository.setStatus d.now status) fun _ ↦ rfl]
      exact h.tuples
    · -- the row becomes active only where that is what was asked for
      obtain rfl : status = .active := hactive
      exact hcond d actor existing context rfl hlocal r hr hid hrole
  case roleChecked => exact hl.elim
  all_goals cases hnext

theorem Bounded.fire (h : Bounded rows c) (hfire : (calls.system Pid).fire c p t = some c')
    (hstep : NoOwnerAppears c p t c') : Bounded rows c' where
  tuples := by
    rcases (CallSystem.transition_of_fire hfire).db_cases with hdb | ⟨d, body, -, hnext, hbody⟩
    · rw [hdb]
      exact h.tuples
    · obtain ⟨htuples, -⟩ : _ ∧ (OwnerNotActivated c p (.act d) c' → _) :=
        h.owners_of_commit hnext hbody
      exact htuples
  owners howner := h.owners (hstep _ _ howner)
  locals q := by
    by_cases hq : q = p
    · subst hq
      exact unprivileged_of_transition h.owners (h.locals q) (CallSystem.transition_of_fire hfire)
    · rw [PartySystem.locals_of_fire hfire hq]
      exact h.locals q

/-- **One step.** A Platform Owner appears exactly when one is activated. -/
theorem Bounded.noOwnerAppears_fire_iff (h : Bounded rows c)
    (hfire : (calls.system Pid).fire c p t = some c') :
    NoOwnerAppears c p t c' ↔ OwnerNotActivated c p t c' := by
  constructor
  · rintro hnone d actor existing context rfl hlocal m hm hid hrole
    obtain ⟨r, db', hbody⟩ :
        ∃ r db', updateStatusTx d actor existing .active context c.shared.db = .ok (r, db') :=
      exists_updateStatusTx_active hm hid
    obtain ⟨hdb, -⟩ := CallSystem.commit_of_fire (d := d) hfire
      (by rw [hlocal]; rfl) (Tx.map_eq_ok.2 ⟨r, hbody, rfl⟩)
    -- the activated row is an owner's, so its owner was active before, in the row of this tuple
    have howner : ActiveOwner c'.shared.db.organizationMemberships m.userId m.organizationId := by
      rw [hdb, updateStatusTx_eq_ok hbody]
      refine ⟨MembershipRepository.setStatus d.now .active m,
        Rows.mem_rewrite_iff.2 ⟨m, hm, if_pos hid⟩, ?_, rfl⟩
      show (m.organizationId, m.userId, m.role) = _
      rw [hrole]
    obtain ⟨m', hm', htuple, hactive⟩ := hnone _ _ howner
    have hsame : m.tuple = m'.tuple := by rw [htuple, OrganizationMembership.tuple, hrole]
    rw [Rows.eq_of_key_eq h.tuples hm' hm hsame]
    exact hactive
  · intro hcond userId organizationId howner
    rcases (CallSystem.transition_of_fire hfire).db_cases with hdb | ⟨d, body, rfl, hnext, hbody⟩
    · rw [← hdb]
      exact howner
    · exact (h.owners_of_commit hnext hbody).2 hcond howner

/-- **When Platform Owners appear.** In every run that starts with no acting user an active Platform
Owner, nobody becomes one if and only if no request activates a Platform Owner membership that is not
active yet; and then everyone who is one at the end was one at the start. -/
theorem noOwnerAppears_iff (hc : Initial c) (steps : List (Pid × Tick Draws)) :
    ((calls.system Pid).Along NoOwnerAppears c steps ↔
        (calls.system Pid).Along OwnerNotActivated c steps) ∧
      ((calls.system Pid).Along OwnerNotActivated c steps →
        ∀ c', (calls.system Pid).run c steps = some c' → ∀ userId organizationId,
          ActiveOwner c'.shared.db.organizationMemberships userId organizationId →
            ActiveOwner c.shared.db.organizationMemberships userId organizationId) := by
  have hiff : (calls.system Pid).Along NoOwnerAppears c steps ↔
      (calls.system Pid).Along OwnerNotActivated c steps :=
    PartySystem.Along.congr_of_inv (I := Bounded c.shared.db.organizationMemberships)
      (fun h hfire ↦ h.noOwnerAppears_fire_iff hfire) (fun h hfire hstep ↦ h.fire hfire hstep)
      hc.bounded steps
  refine ⟨hiff, fun hcond c' hrun userId organizationId howner ↦ ?_⟩
  have hbounded : Bounded c.shared.db.organizationMemberships c' :=
    PartySystem.Along.inv (fun h hfire hstep ↦ h.fire hfire hstep) hc.bounded (hiff.2 hcond) hrun
  exact hbounded.owners howner

end

/-! ### An operator makes a Platform Owner -/

namespace Sample

def context : RequestContext := ⟨"req", "corr", "office", "browser"⟩

def draws : Draws := ⟨fun n ↦ s!"m{n + 2}", 1000⟩

/-- One marketplace operator, of the platform's own organization. -/
def db : Db where
  organizations := ["platform"]
  organizationMemberships :=
    [{ id := "m1", organizationId := "platform", userId := "olga", role := .marketplaceOperator,
       status := .active, invitationSource := none, effectiveFrom := 0 }]

/-- Olga invites herself as a Platform Owner, and then activates the invitation. -/
def request : ℕ → Request
  | 0 => .create "platform" ⟨"olga", .platformOwner, none⟩
  | _ => .updateStatus "m2" .active

def start : Config ℕ where
  shared := ⟨db, .free⟩
  locals p := .called ⟨"olga", some "m1", request p, context⟩

def steps : List (ℕ × Tick Draws) :=
  [(0, .act draws), (0, .act draws), (0, .act draws), (1, .act draws), (1, .act draws),
   (1, .act draws)]

theorem initial_start : Initial start where
  tuples := by decide
  called p := by
    refine ⟨_, rfl, fun organizationId ⟨m, hm, htuple, _⟩ ↦ ?_⟩
    obtain rfl := List.mem_singleton.1 hm
    cases congrArg (fun t ↦ t.2.2) htuple

/-- The operator, who was no Platform Owner, is one. -/
theorem owner_of_operator : Initial start ∧
    ∃ c, (calls.system ℕ).run start steps = some c ∧
      ActiveOwner c.shared.db.organizationMemberships "olga" "platform" := by
  refine ⟨initial_start, ?_⟩
  have hrun : ((calls.system ℕ).run start steps).any (fun c ↦
      decide (ActiveOwner c.shared.db.organizationMemberships "olga" "platform")) = true := by
    decide +kernel
  exact PartySystem.exists_run_of_test hrun

theorem noOwnerAppears_iff_start :
    (calls.system ℕ).Along NoOwnerAppears start steps ↔
      (calls.system ℕ).Along OwnerNotActivated start steps :=
  (noOwnerAppears_iff initial_start steps).1

end Sample

end TolPlatform.Memberships
