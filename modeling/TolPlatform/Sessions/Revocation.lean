import TolPlatform.Library.Grouping
import TolPlatform.Library.UniqueKeys
import TolPlatform.Sessions.Service

/-!
# Actors and revocation

What the auth hook makes of a session, while memberships are suspended, revoked and given other roles.

* The actor has no organization, or all of it comes from one `ACTIVE` membership of the session's own
  user. The ids of memberships are unique (`membershipIds`) and a session only ever selects memberships of
  its user (`protocol`).
* A mutation that suspends or revokes a membership, or changes a role, revokes all sessions of the user.
  But its `UPDATE` finds only those that were committed when it ran. A session that a login stores between
  that and the commit is there at the commit, and stays valid. Nothing else does: once revoked, a session
  is never accepted again (`TokenRevoked.apply`), and so the two together are `backed_and_revoked_iff`.
-/

namespace TolPlatform.Sessions

open Memberships (MembershipStatus OrganizationMembership Session)
open Memberships.MembershipRepository (findById listByUser findActiveByUserAndOrg setStatus reinstate)
open Memberships.SessionRepository (findByTokenHash)

/-! ### What is written -/

/-- A change that the transactions of the memberships service make. -/
def Change.InTransaction : Change → Prop
  | .insertMembership .. | .setStatus .. | .reinstate .. | .revokeLive .. | .audit _ => True
  | .insertSession _ | .selectMembership .. | .revoke .. => False

/-- The session that `revokeAllForUser` has found. -/
def Change.found : Change → Option SessionKey
  | .revokeLive session _ => some session
  | _ => none

/-- A local state of such a transaction. -/
def Local.InTransaction : Local → Prop
  | .checked _ | .inviting .. | .invited .. | .createAudited _ | .statusSet .. | .statusEnded ..
  | .statusAudited .. | .roleRevoked .. | .roleEnded .. | .granting .. | .granted .. | .roleAudited .. =>
    True
  | _ => False

/-- The kinds of writes. -/
inductive Written (P : Primitives) (d : Draws) (db : Db) : Local → List Change → Local → Prop
  | session {user membership context} : Written P d db (.resolved user membership context)
      [.insertSession (newSession P d user membership)]
      (.committing (.sessionCreated user (newSession P d user membership) membership context))
  | loginAudited {user session membership context write} :
      Written P d db (.sessionCreated user session membership context) [.audit write]
        (.committing (.loggedIn session membership))
  | revoked {session actor context} : Written P d db (.authenticated session actor .logout context)
      [.revoke (keyOf session) d.now] (.committing (.sessionRevoked session.userId context))
  | logoutAudited {userId context write} :
      Written P d db (.sessionRevoked userId context) [.audit write] (.committing (.returned none))
  | selected {session membership context} : Written P d db (.switching session membership context)
      [.selectMembership (keyOf session) membership.id]
      (.committing (.switched session membership context))
  | switchAudited {session membership context write} :
      Written P d db (.switched session membership context) [.audit write]
        (.committing (.refetching session membership))
  | one {l change l'} : l.InTransaction → change.InTransaction → l'.InTransaction →
      Written P d db l [change] l'
  | ended {l userId now l'} : l.InTransaction → l'.InTransaction →
      Written P d db l (revokeAllForUser db userId now) l'

section

variable {P : Primitives} {d : Draws} {db : Db} {l l' : Local} {written : List Change}

theorem updateStatus_eq_ok {id : Uuid} {status : MembershipStatus} {now : Instant}
    (h : updateStatus db id status now l = .ok (written, l')) :
    written = [.setStatus id status now] ∧ l' = l := by
  obtain ⟨_, -, h⟩ := Except.bind_eq_ok'.1 h
  exact (Prod.mk.inj (Except.ok.inj h)).imp Eq.symm Eq.symm

theorem updateSession_eq_ok {session : Session} {change : SessionKey → Change}
    (h : updateSession db session change l = .ok (written, l')) :
    written = [change (keyOf session)] ∧ l' = l := by
  obtain ⟨_, -, h⟩ := Except.bind_eq_ok'.1 h
  exact (Prod.mk.inj (Except.ok.inj h)).imp Eq.symm Eq.symm

theorem auditMembership_eq_ok {actor : Actor} {context : RequestContext} {organizationId : Uuid}
    {action : String} {membershipId : Uuid}
    {afterValue : OrganizationMembership → List (String × JsonValue)}
    {next : OrganizationMembership → Local}
    (h : auditMembership db actor context organizationId action membershipId afterValue next =
      .ok (written, l')) :
    ∃ write membership, written = [.audit write] ∧ l' = next membership := by
  obtain ⟨membership, -, h⟩ := Except.bind_eq_ok'.1 h
  obtain ⟨rfl, rfl⟩ := Prod.mk.inj (Except.ok.inj h)
  exact ⟨_, membership, rfl, rfl⟩

/-- **What a statement writes.** -/
theorem written_of_next {f : Db → Except Thrown (List Change × Local)}
    (hnext : (sessions P).next d l = .write f) (hf : f db = .ok (written, l')) :
    Written P d db l written l' := by
  cases l with
  | resolved user membership context =>
    obtain rfl := NextStatement.write.inj hnext
    obtain ⟨rfl, rfl⟩ := Prod.mk.inj (Except.ok.inj hf)
    exact .session
  | sessionCreated user session membership context =>
    obtain rfl := NextStatement.write.inj hnext
    obtain ⟨rfl, rfl⟩ := Prod.mk.inj (Except.ok.inj hf)
    exact .loginAudited
  | authenticated session actor request context =>
    cases request with
    | logout =>
      obtain rfl := NextStatement.write.inj hnext
      obtain ⟨rfl, rfl⟩ := updateSession_eq_ok hf
      exact .revoked
    | _ => cases hnext
  | sessionRevoked userId context =>
    obtain rfl := NextStatement.write.inj hnext
    obtain ⟨rfl, rfl⟩ := Prod.mk.inj (Except.ok.inj hf)
    exact .logoutAudited
  | switching session membership context =>
    obtain rfl := NextStatement.write.inj hnext
    obtain ⟨rfl, rfl⟩ := updateSession_eq_ok hf
    exact .selected
  | switched session membership context =>
    obtain rfl := NextStatement.write.inj hnext
    obtain ⟨rfl, rfl⟩ := Prod.mk.inj (Except.ok.inj hf)
    exact .switchAudited
  | checked m =>
    cases m with
    | statusChecked actor existing status context =>
      obtain rfl := NextStatement.write.inj hnext
      obtain ⟨rfl, rfl⟩ := updateStatus_eq_ok hf
      exact .one trivial trivial trivial
    | roleChecked actor existing newRole context =>
      obtain rfl := NextStatement.write.inj hnext
      obtain ⟨rfl, rfl⟩ := updateStatus_eq_ok hf
      exact .one trivial trivial trivial
    | _ => cases hnext
  | inviting actor organizationId input context revoked =>
    cases revoked with
    | _ =>
      obtain rfl := NextStatement.write.inj hnext
      obtain ⟨rfl, rfl⟩ := Prod.mk.inj (Except.ok.inj hf)
      exact .one trivial trivial trivial
  | invited actor organizationId context membershipId action =>
    obtain rfl := NextStatement.write.inj hnext
    obtain ⟨_, _, rfl, rfl⟩ := auditMembership_eq_ok hf
    exact .one trivial trivial trivial
  | statusSet actor existing status context =>
    obtain rfl := NextStatement.write.inj hnext
    by_cases hstatus : status ≠ .active
    · obtain ⟨rfl, rfl⟩ := Prod.mk.inj (Except.ok.inj ((if_pos hstatus).symm.trans hf))
      exact .ended trivial trivial
    · obtain ⟨_, _, rfl, rfl⟩ := auditMembership_eq_ok ((if_neg hstatus).symm.trans hf)
      exact .one trivial trivial trivial
  | statusEnded actor existing status context =>
    obtain rfl := NextStatement.write.inj hnext
    obtain ⟨_, _, rfl, rfl⟩ := auditMembership_eq_ok hf
    exact .one trivial trivial trivial
  | roleRevoked actor existing newRole context =>
    obtain rfl := NextStatement.write.inj hnext
    obtain ⟨rfl, rfl⟩ := Prod.mk.inj (Except.ok.inj hf)
    exact .ended trivial trivial
  | granting actor existing newRole context prior =>
    cases prior with
    | _ =>
      obtain rfl := NextStatement.write.inj hnext
      obtain ⟨rfl, rfl⟩ := Prod.mk.inj (Except.ok.inj hf)
      exact .one trivial trivial trivial
  | granted actor existing context membershipId =>
    obtain rfl := NextStatement.write.inj hnext
    obtain ⟨_, _, rfl, rfl⟩ := auditMembership_eq_ok hf
    exact .one trivial trivial trivial
  | called call => cases call <;> cases hnext
  | _ => cases hnext

/-- One statement inserts one row at most. -/
theorem Written.nodup_inserted {Key : Type} {inserted : Change → Option Key}
    (h : Written P d db l written l')
    (hlive : ∀ session now, inserted (.revokeLive session now) = none) :
    (written.filterMap inserted).Nodup := by
  have hsingle (change : Change) : ([change].filterMap inserted).Nodup := by
    rcases hinserted : inserted change with - | k
    · rw [List.filterMap_cons_none hinserted]
      exact List.nodup_nil
    · rw [List.filterMap_cons_some hinserted]
      exact List.nodup_singleton k
  cases h with
  | @ended _ userId now _ =>
    have hnone : (revokeAllForUser db userId now).filterMap inserted = [] := by
      refine List.filterMap_eq_nil_iff.2 fun change hchange ↦ ?_
      obtain ⟨s, -, rfl⟩ := List.mem_map.1 hchange
      exact hlive _ _
    rw [hnone]
    exact List.nodup_nil
  | _ => exact hsingle _

end

/-! ### Keys -/

section

variable (P : Primitives)

def membershipIds : (sessions P).UniqueKey Uuid where
  keys db := db.organizationMemberships.map (·.id)
  inserted
    | .insertMembership row _ => some row.id
    | _ => none
  keys_apply db change := by
    cases change with
    | insertMembership row taken => exact List.map_append
    | setStatus id status now | reinstate id status source now =>
      refine Eq.trans ?_ (List.append_nil _).symm
      show (Rows.rewrite _ _ _ db.organizationMemberships).map _ = _
      exact Rows.map_rewrite fun _ ↦ rfl
    | _ => exact (List.append_nil _).symm
  refuses {db change k} hinserted hk hrefuses := by
    cases change with
    | insertMembership row taken =>
      obtain rfl := Option.some.inj hinserted
      obtain ⟨m, hm, hid⟩ := List.mem_map.1 hk
      have htaken : db.organizationMemberships.any
          (fun m ↦ m.id = row.id ∨ m.tuple = row.tuple) = true :=
        List.any_eq_true.2 ⟨m, hm, decide_eq_true (Or.inl hid)⟩
      cases (if_pos htaken).symm.trans hrefuses
    | _ => cases hinserted
  waits {change other k} hchange hother := by
    cases change with
    | insertMembership row taken =>
      cases other with
      | insertMembership row' taken' =>
        have hid : row.id = row'.id := Option.some.inj (hchange.trans hother.symm)
        refine List.any_eq_true.2 ⟨.membership row.id, List.mem_cons_self, decide_eq_true ?_⟩
        exact hid ▸ List.mem_cons_self
      | _ => cases hother
    | _ => cases hchange
  distinct hnext hf := (written_of_next hnext hf).nodup_inserted fun _ _ ↦ rfl

def tokenHashes : (sessions P).UniqueKey String where
  keys db := db.sessions.map (·.tokenHash)
  inserted
    | .insertSession row => some row.tokenHash
    | _ => none
  keys_apply db change := by
    cases change with
    | insertSession row => exact List.map_append
    | selectMembership session _ | revoke session _ | revokeLive session _ =>
      refine Eq.trans ?_ (List.append_nil _).symm
      show (Rows.rewrite _ _ _ db.sessions).map _ = _
      exact Rows.map_rewrite fun _ ↦ rfl
    | _ => exact (List.append_nil _).symm
  refuses {db change k} hinserted hk hrefuses := by
    cases change with
    | insertSession row =>
      obtain rfl := Option.some.inj hinserted
      obtain ⟨s, hs, hhash⟩ := List.mem_map.1 hk
      have htaken : db.sessions.any (fun s ↦ s.id = row.id ∨ s.tokenHash = row.tokenHash) = true :=
        List.any_eq_true.2 ⟨s, hs, decide_eq_true (Or.inr hhash)⟩
      cases (if_pos htaken).symm.trans hrefuses
    | _ => cases hinserted
  waits {change other k} hchange hother := by
    cases change with
    | insertSession row =>
      cases other with
      | insertSession row' =>
        have hhash : row.tokenHash = row'.tokenHash := Option.some.inj (hchange.trans hother.symm)
        refine List.any_eq_true.2 ⟨.tokenHash row.tokenHash, by simp [Change.locks], decide_eq_true ?_⟩
        simp [Change.locks, hhash]
      | _ => cases hother
    | _ => cases hchange
  distinct hnext hf := (written_of_next hnext hf).nodup_inserted fun _ _ ↦ rfl

end

/-! ### Whose memberships are selected -/

/-- There is a membership with this id, of this user. -/
def Owned (db : Db) (id userId : Uuid) : Prop :=
  ∃ m ∈ db.organizationMemberships, m.id = id ∧ m.userId = userId

/-- What a session selects is a membership of its user. -/
def SelectsOwn (db : Db) (s : Session) : Prop := ∀ id ∈ s.activeMembershipId, Owned db id s.userId

/-- All sessions do. -/
def AllSelectOwn (db : Db) : Prop := ∀ s ∈ db.sessions, SelectsOwn db s

instance (db : Db) (id userId : Uuid) : Decidable (Owned db id userId) :=
  inferInstanceAs (Decidable (∃ _ ∈ _, _))

instance (db : Db) (s : Session) : Decidable (SelectsOwn db s) :=
  inferInstanceAs (Decidable (∀ _ ∈ _, _))

instance (db : Db) : Decidable (AllSelectOwn db) := inferInstanceAs (Decidable (∀ _ ∈ _, _))

/-- A change after which they still do. -/
def Proper (db : Db) : Change → Prop
  | .insertSession row => SelectsOwn db row
  | .selectMembership session id => Owned db id session.userId
  | _ => True

section

variable {db : Db} {change : Change} {id userId : Uuid}

/-- Memberships stay, and stay their users'. -/
theorem Owned.apply (h : Owned db id userId) : Owned (changes.apply db change) id userId := by
  obtain ⟨m, hm, rfl, rfl⟩ := h
  cases change with
  | insertMembership row taken => exact ⟨m, List.mem_append_left _ hm, rfl, rfl⟩
  | setStatus k status now | reinstate k status source now =>
    refine ⟨_, Rows.mem_rewrite_iff.2 ⟨m, hm, rfl⟩, ?_, ?_⟩
    · split <;> rfl
    · split <;> rfl
  | _ => exact ⟨m, hm, rfl, rfl⟩

theorem SelectsOwn.apply {s : Session} (h : SelectsOwn db s) : SelectsOwn (changes.apply db change) s :=
  fun id hid ↦ (h id hid).apply

theorem Change.InTransaction.proper (h : change.InTransaction) : Proper db change := by
  cases change with
  | insertSession | selectMembership | revoke => cases h
  | _ => trivial

theorem Proper.apply {other : Change} (h : Proper db change) : Proper (changes.apply db other) change := by
  cases change with
  | insertSession row => exact SelectsOwn.apply h
  | selectMembership session id => exact Owned.apply h
  | _ => trivial

/-- **A proper change** leaves sessions that select their users' memberships. -/
theorem AllSelectOwn.apply (h : AllSelectOwn db) (hchange : Proper db change) :
    AllSelectOwn (changes.apply db change) := by
  intro s hs
  refine SelectsOwn.apply ?_
  cases change with
  | insertSession row =>
    rcases List.mem_append.1 hs with hs | hs
    · exact h s hs
    · exact List.mem_singleton.1 hs ▸ hchange
  | selectMembership session id =>
    obtain ⟨old, hold, rfl⟩ := Rows.mem_rewrite_iff.1 hs
    split
    · rename_i hkey
      intro id' hid'
      obtain rfl := Option.some.inj hid'
      have huser : old.userId = session.userId := congrArg SessionKey.userId hkey
      exact huser ▸ hchange
    · exact h old hold
  | revoke session now | revokeLive session now =>
    obtain ⟨old, hold, rfl⟩ := Rows.mem_rewrite_iff.1 hs
    split
    · exact h old hold
    · exact h old hold
  | _ => exact h s hs

theorem AllSelectOwn.foldl {pending : List Change} (h : AllSelectOwn db)
    (hpending : ∀ change ∈ pending, Proper db change) :
    AllSelectOwn (pending.foldl changes.apply db) := by
  induction pending generalizing db with
  | nil => exact h
  | cons change pending ih =>
    obtain ⟨hchange, hrest⟩ := List.forall_mem_cons.1 hpending
    exact ih (h.apply hchange) fun other hother ↦ (hrest other hother).apply

end

/-! ### What a call knows -/

/-- What a local state has pending, and what it has read that stays true. -/
def Rests (db : Db) : List Change → Local → Prop
  | pending, .resolved user membership _ => pending = [] ∧ ∀ m ∈ membership, Owned db m.id user.id
  | pending, .lookedUp found _ _ => pending = [] ∧ ∀ s ∈ found, SelectsOwn db s
  | pending, .switching session membership _ => pending = [] ∧ Owned db membership.id session.userId
  | pending, .committing l => (∀ change ∈ pending, Proper db change) ∧ Rests db [] l
  | pending, .checked _ | pending, .inviting .. | pending, .invited .. | pending, .createAudited _
  | pending, .statusSet .. | pending, .statusEnded .. | pending, .statusAudited ..
  | pending, .roleRevoked .. | pending, .roleEnded .. | pending, .granting .. | pending, .granted ..
  | pending, .roleAudited .. => ∀ change ∈ pending, change.InTransaction
  | pending, _ => pending = []

section

variable {db : Db} {pending : List Change} {l l' : Local}

theorem rests_inTransaction (h : l.InTransaction) :
    Rests db pending l ↔ ∀ change ∈ pending, change.InTransaction := by
  cases l with
  | checked | inviting | invited | createAudited | statusSet | statusEnded | statusAudited | roleRevoked
  | roleEnded | granting | granted | roleAudited => exact Iff.rfl
  | _ => cases h

theorem Rests.apply {change : Change} (h : Rests db pending l) :
    Rests (changes.apply db change) pending l := by
  induction l generalizing pending with
  | resolved user membership context => exact ⟨h.1, fun m hm ↦ (h.2 m hm).apply⟩
  | lookedUp found request context => exact ⟨h.1, fun s hs ↦ (h.2 s hs).apply⟩
  | switching session membership context => exact ⟨h.1, h.2.apply⟩
  | committing l ih => exact ⟨fun other hother ↦ (h.1 other hother).apply, ih h.2⟩
  | _ => exact h

theorem Rests.foldl {written : List Change} (h : Rests db pending l) :
    Rests (written.foldl changes.apply db) pending l := by
  induction written generalizing db with
  | nil => exact h
  | cons change written ih => exact ih h.apply

/-- The one change of a statement outside a transaction. -/
theorem proper_of_mem_filter {change : Change} {p : Change → Bool} (h : Proper db change) :
    ∀ other ∈ [] ++ [change].filter p, Proper db other := fun _ hother ↦
  List.mem_singleton.1 (List.mem_filter.1 hother).1 ▸ h

/-- A membership that was read under the user's id is the user's. -/
theorem owned_of_listByUser {userId : Uuid} {m : OrganizationMembership}
    (h : m ∈ listByUser db.toDb userId) : Owned db m.id userId := by
  obtain ⟨hm, hcond⟩ := List.mem_filter.1 (List.mem_sortOn.1 h)
  exact ⟨m, hm, rfl, (of_decide_eq_true hcond).1⟩

theorem owned_of_findActiveByUserAndOrg {now : Instant} {userId organizationId : Uuid}
    {m : OrganizationMembership}
    (h : findActiveByUserAndOrg now db.toDb userId organizationId = some m) : Owned db m.id userId := by
  obtain ⟨hm, hcond⟩ := List.mem_filter.1 (List.mem_sortOn.1 (List.mem_of_mem_head? h))
  exact ⟨m, hm, rfl, (of_decide_eq_true hcond).1⟩

theorem selectsOwn_of_findByTokenHash {tokenHash : String} {s : Session} (hdb : AllSelectOwn db)
    (h : findByTokenHash db.toDb tokenHash = some s) : SelectsOwn db s :=
  hdb s (List.mem_of_find?_eq_some h)

variable {P : Primitives} {d : Draws}

theorem rests_of_query {f : Db → Except Thrown Local} (hkept : AllSelectOwn db)
    (hrests : Rests db pending l) (hnext : (sessions P).next d l = .query f)
    (hf : f (pending.foldl (sessions P).changes.apply db) = .ok l') : Rests db pending l' := by
  cases l with
  | called call =>
    obtain rfl : pending = [] := hrests
    cases call with
    | login email password context =>
      obtain rfl := NextStatement.query.inj hnext
      obtain ⟨user, -, hret⟩ := Except.bind_eq_ok'.1 hf
      obtain rfl := Except.ok.inj hret
      rfl
    | request rawToken request context =>
      obtain rfl := NextStatement.query.inj hnext
      obtain rfl := Except.ok.inj hf
      exact ⟨rfl, fun s hs ↦ selectsOwn_of_findByTokenHash hkept hs⟩
  | identified user context =>
    obtain rfl : pending = [] := hrests
    obtain rfl := NextStatement.query.inj hnext
    obtain rfl := Except.ok.inj hf
    exact ⟨rfl, fun m hm ↦ owned_of_listByUser (List.mem_of_find?_eq_some hm)⟩
  | lookedUp found request context =>
    obtain ⟨rfl, -⟩ := hrests
    obtain rfl := NextStatement.query.inj hnext
    obtain ⟨session, -, hret⟩ := Except.bind_eq_ok'.1 hf
    obtain rfl := Except.ok.inj hret
    rfl
  | authenticated session actor request context =>
    obtain rfl : pending = [] := hrests
    cases request with
    | switchOrg organizationId =>
      obtain rfl := NextStatement.query.inj hnext
      obtain ⟨membership, hfound, hret⟩ := Except.bind_eq_ok'.1 hf
      obtain rfl := Except.ok.inj hret
      exact ⟨rfl, owned_of_findActiveByUserAndOrg (orThrow_eq_ok_iff.1 hfound)⟩
    | membership request =>
      obtain rfl := NextStatement.query.inj hnext
      obtain ⟨m, -, hret⟩ := Except.bind_eq_ok'.1 hf
      obtain rfl := Except.ok.inj hret
      exact fun change hchange ↦ nomatch hchange
    | other =>
      obtain rfl := NextStatement.query.inj hnext
      obtain rfl := Except.ok.inj hf
      rfl
    | logout => cases hnext
  | refetching session membership =>
    obtain rfl := NextStatement.query.inj hnext
    obtain ⟨full, -, hret⟩ := Except.bind_eq_ok'.1 hf
    obtain rfl := Except.ok.inj hret
    exact hrests
  | checked m =>
    cases m with
    | createChecked actor organizationId input context =>
      obtain rfl := NextStatement.query.inj hnext
      obtain ⟨revoked, -, hret⟩ := Except.bind_eq_ok'.1 hf
      obtain rfl := Except.ok.inj hret
      exact hrests
    | _ => cases hnext
  | roleEnded actor existing newRole context =>
    obtain rfl := NextStatement.query.inj hnext
    obtain rfl := Except.ok.inj hf
    exact hrests
  | inviting actor organizationId input context revoked => cases revoked <;> cases hnext
  | granting actor existing newRole context prior => cases prior <;> cases hnext
  | _ => cases hnext

theorem rests_of_write {f : Db → Except Thrown (List Change × Local)} {written : List Change}
    (hrests : Rests db pending l) (hnext : (sessions P).next d l = .write f)
    (hf : f (pending.foldl (sessions P).changes.apply db) = .ok (written, l')) (db' : Db) :
    Rests db (pending ++ written.filter ((sessions P).changes.stands db')) l' := by
  cases written_of_next hnext hf with
  | @session user membership context =>
    obtain ⟨rfl, howned⟩ := hrests
    refine ⟨proper_of_mem_filter ?_, rfl⟩
    intro id hid
    obtain ⟨m, hm, rfl⟩ := Option.mem_map.1 hid
    exact howned m hm
  | @selected session membership context =>
    obtain ⟨rfl, howned⟩ := hrests
    exact ⟨proper_of_mem_filter howned, rfl⟩
  | loginAudited | revoked | logoutAudited | switchAudited =>
    obtain rfl : pending = [] := hrests
    exact ⟨proper_of_mem_filter trivial, rfl⟩
  | one hl hchange hl' =>
    refine (rests_inTransaction hl').2 fun other hother ↦ ?_
    rcases List.mem_append.1 hother with hother | hother
    · exact (rests_inTransaction hl).1 hrests other hother
    · exact List.mem_singleton.1 (List.mem_filter.1 hother).1 ▸ hchange
  | ended hl hl' =>
    refine (rests_inTransaction hl').2 fun other hother ↦ ?_
    rcases List.mem_append.1 hother with hother | hother
    · exact (rests_inTransaction hl).1 hrests other hother
    · obtain ⟨s, -, rfl⟩ := List.mem_map.1 (List.mem_filter.1 hother).1
      trivial

theorem kept_of_commit (hkept : AllSelectOwn db) (hrests : Rests db pending l)
    (hnext : (sessions P).next d l = .commit l') :
    AllSelectOwn (pending.foldl (sessions P).changes.apply db) ∧
      Rests (pending.foldl (sessions P).changes.apply db) [] l' := by
  cases l with
  | committing l =>
    obtain rfl := NextStatement.commit.inj hnext
    exact ⟨hkept.foldl hrests.1, Rests.foldl hrests.2⟩
  | createAudited | statusAudited | roleAudited =>
    obtain rfl := NextStatement.commit.inj hnext
    exact ⟨hkept.foldl fun change hchange ↦ (hrests change hchange).proper, rfl⟩
  | called call => cases call <;> cases hnext
  | authenticated session actor request context => cases request <;> cases hnext
  | checked m => cases m <;> cases hnext
  | inviting actor organizationId input context revoked => cases revoked <;> cases hnext
  | granting actor existing newRole context prior => cases prior <;> cases hnext
  | _ => cases hnext

/-- **What each statement may rely on.** -/
theorem protocol (P : Primitives) : (sessions P).Protocol AllSelectOwn Rests where
  stable h := h.apply
  query := rests_of_query
  write _ := rests_of_write
  commit := kept_of_commit
  failed _ _ := rfl
  crashed _ := rfl

end

/-! ### What a transaction makes of the sessions -/

/-- What the changes of a transaction make of one session. -/
structure Ended (pending : List Change) (s s' : Session) : Prop where
  key : keyOf s' = keyOf s
  expiresAt : s'.expiresAt = s.expiresAt
  live : s'.revokedAt = none ↔ s.revokedAt = none ∧ keyOf s ∉ pending.filterMap Change.found

section

variable {change : Change} {pending : List Change}

theorem Ended.refl (h : pending.filterMap Change.found = []) (s : Session) : Ended pending s s :=
  ⟨rfl, rfl, (and_iff_left (h ▸ List.not_mem_nil)).symm⟩

theorem Ended.trans {s s' s'' : Session} (h : Ended [change] s s') (h' : Ended pending s' s'') :
    Ended (change :: pending) s s'' where
  key := h'.key.trans h.key
  expiresAt := h'.expiresAt.trans h.expiresAt
  live := by
    have hcons : (change :: pending).filterMap Change.found =
        [change].filterMap Change.found ++ pending.filterMap Change.found :=
      List.filterMap_append (l := [change])
    rw [h'.live, h.live, h.key, and_assoc, hcons, List.mem_append, not_or]

theorem exists_ended_apply (db : Db) (h : change.InTransaction) :
    ∃ g : Session → Session, (changes.apply db change).sessions = db.sessions.map g ∧
      ∀ s, Ended [change] s (g s) := by
  cases change with
  | revokeLive session now =>
    refine ⟨fun s ↦ if keyOf s = session then { s with revokedAt := some now } else s, rfl, fun s ↦ ?_⟩
    by_cases hkey : keyOf s = session
    · simp only [if_pos hkey]
      refine ⟨rfl, rfl, ⟨(nomatch ·), fun hlive ↦ ?_⟩⟩
      exact absurd (List.mem_singleton.2 hkey) hlive.2
    · simp only [if_neg hkey]
      exact ⟨rfl, rfl, (and_iff_left fun hmem ↦ hkey (List.mem_singleton.1 hmem)).symm⟩
  | insertSession | selectMembership | revoke => cases h
  | _ => exact ⟨id, (List.map_id _).symm, Ended.refl rfl⟩

/-- Sessions neither come nor go in a transaction. -/
theorem exists_ended (db : Db) (h : ∀ change ∈ pending, change.InTransaction) :
    ∃ g : Session → Session, (pending.foldl changes.apply db).sessions = db.sessions.map g ∧
      ∀ s, Ended pending s (g s) := by
  induction pending generalizing db with
  | nil => exact ⟨id, (List.map_id _).symm, Ended.refl rfl⟩
  | cons change pending ih =>
    obtain ⟨hchange, hrest⟩ := List.forall_mem_cons.1 h
    obtain ⟨g, hsessions, hg⟩ := exists_ended_apply db hchange
    obtain ⟨g', hsessions', hg'⟩ := ih (changes.apply db change) hrest
    refine ⟨g' ∘ g, ?_, fun s ↦ (hg s).trans (hg' (g s))⟩
    rw [List.foldl_cons, hsessions', hsessions, List.map_map]

end

/-! ### Tokens -/

/-- The token stands for a session that has been revoked. -/
def TokenRevoked (tokenHash : String) (db : Db) : Prop :=
  ∃ s, findByTokenHash db.toDb tokenHash = some s ∧ s.revokedAt ≠ none

section

variable {db : Db} {tokenHash : String}

theorem find_rewrite_session (f : Session → Session) (hf : ∀ s, (f s).tokenHash = s.tokenHash)
    (session : SessionKey) {s : Session} (h : findByTokenHash db.toDb tokenHash = some s) :
    (Rows.rewrite keyOf session f db.sessions).find? (·.tokenHash = tokenHash) =
      some (if keyOf s = session then f s else s) := by
  rw [Rows.find_rewrite_of (fun r ↦ by rw [hf]), show db.sessions.find? _ = some s from h]
  rfl

/-- **A revoked token stays revoked**, whatever changes. -/
theorem TokenRevoked.apply {change : Change} (h : TokenRevoked tokenHash db) :
    TokenRevoked tokenHash (changes.apply db change) := by
  obtain ⟨s, hfound, hrevoked⟩ := h
  cases change with
  | insertSession row =>
    refine ⟨s, ?_, hrevoked⟩
    show (db.sessions ++ [row]).find? _ = some s
    rw [List.find?_append, show db.sessions.find? _ = some s from hfound]
    rfl
  | selectMembership session id =>
    refine ⟨_, find_rewrite_session (fun s ↦ { s with activeMembershipId := some id }) (fun _ ↦ rfl)
      session hfound, ?_⟩
    split
    · exact hrevoked
    · exact hrevoked
  | revoke session now | revokeLive session now =>
    refine ⟨_, find_rewrite_session (fun s ↦ { s with revokedAt := some now }) (fun _ ↦ rfl) session
      hfound, ?_⟩
    split
    · exact Option.some_ne_none now
    · exact hrevoked
  | _ => exact ⟨s, hfound, hrevoked⟩

theorem TokenRevoked.accepted_eq_none (h : TokenRevoked tokenHash db) (now : Instant) :
    accepted now (findByTokenHash db.toDb tokenHash) = none := by
  obtain ⟨s, hfound, hrevoked⟩ := h
  rw [hfound]
  refine Option.filter_eq_none_iff.2 fun s' hs' hlive ↦ ?_
  obtain rfl := Option.some.inj hs'
  exact hrevoked (of_decide_eq_true hlive).1

/-- A session is found by its token. -/
theorem findByTokenHash_of_mem (hnodup : (db.sessions.map (·.tokenHash)).Nodup) {s : Session}
    (hs : s ∈ db.sessions) : findByTokenHash db.toDb s.tokenHash = some s :=
  (List.find?_eq_some_iff_of_nodup hnodup).2 ⟨hs, rfl⟩

end

/-! ### Runs -/

/-- Keys are unique, and sessions select memberships of their own users. -/
structure Intact (db : Db) : Prop where
  membershipIds : (db.organizationMemberships.map (·.id)).Nodup
  tokenHashes : (db.sessions.map (·.tokenHash)).Nodup
  selections : AllSelectOwn db

/-- The actor is the user with no organization, or in an `ACTIVE` membership of the user. -/
def Backed (db : Db) (userId : Uuid) (actor : Actor) : Prop :=
  actor.userId = userId ∧
    (actor.organizationId = none ∧ actor.role = none ∧ actor.membershipId = none ∨
      ∃ m ∈ db.organizationMemberships, m.status = .active ∧ m.userId = userId ∧
        actor.organizationId = some m.organizationId ∧ actor.role = some m.role ∧
        actor.membershipId = some m.id)

/-- The user whose sessions a mutation has revoked when it commits. -/
def Local.revokes : Local → Option Uuid
  | .statusAudited existing _ status => if status ≠ .active then some existing.userId else none
  | .roleAudited existing _ => some existing.userId
  | _ => none

section

variable {Pid : Type} [DecidableEq Pid]

/-- All calls before their first statement. -/
def start (db : Db) (calls : Pid → Call) : Config Pid := ⟨.quiet db, fun p ↦ .called (calls p)⟩

/-- Every live session of the user was found by the party's `revokeAllForUser`. -/
def FoundAll (c : Config Pid) (p : Pid) (userId : Uuid) : Prop :=
  ∀ s ∈ c.shared.db.sessions, s.userId = userId → s.revokedAt = none →
    keyOf s ∈ (c.shared.pendingOf p).filterMap Change.found

instance (c : Config Pid) (p : Pid) (userId : Uuid) : Decidable (FoundAll c p userId) :=
  inferInstanceAs (Decidable (∀ _ ∈ _, _))

variable {P : Primitives} {db : Db} {calls : Pid → Call} {c c' : Config Pid} {p : Pid} {d : Draws}

/-- What holds between any two steps. -/
structure Sound (P : Primitives) (c : Config Pid) : Prop where
  started : StatementSystem.Started (sessions P) c
  ids : (membershipIds P).Distinct c.shared
  hashes : (tokenHashes P).Distinct c.shared
  selections : AllSelectOwn c.shared.db
  resting : ∀ q, StatementSystem.Resting (sessions P) Rests c.shared q (c.locals q)

theorem sound_start (P : Primitives) (h : Intact db) (calls : Pid → Call) : Sound P (start db calls) where
  started := StatementSystem.started_quiet
  ids := StatementSystem.UniqueKey.distinct_quiet h.membershipIds
  hashes := StatementSystem.UniqueKey.distinct_quiet h.tokenHashes
  selections := h.selections
  resting _ := StatementSystem.resting_quiet rfl

theorem Sound.fire {t : Tick Draws} (h : Sound P c)
    (hfire : ((sessions P).system Pid).fire c p t = some c') : Sound P c' := by
  have htransition := StatementSystem.transition_of_fire hfire
  obtain ⟨hselections, hresting⟩ := (protocol P).fire ⟨h.selections, h.resting⟩ hfire
  exact ⟨h.started.fire hfire, h.ids.step htransition, h.hashes.step htransition, hselections, hresting⟩

/-- What a session has selected is backed by a membership of its user. -/
theorem backed_actorOf {s : Session} (hnodup : (db.organizationMemberships.map (·.id)).Nodup)
    (hs : SelectsOwn db s) : Backed db s.userId (actorOf s.userId (activeMembership db s)) := by
  refine ⟨rfl, ?_⟩
  rcases hactive : activeMembership db s with - | m
  · exact Or.inl ⟨rfl, rfl, rfl⟩
  · obtain ⟨hfound, hstatus⟩ := Option.filter_eq_some_iff.1 hactive
    obtain ⟨id, hid, hfound⟩ := Option.bind_eq_some_iff.1 hfound
    have hm := List.mem_of_find?_eq_some hfound
    have hkey : decide (m.id = id) = true :=
      List.find?_some (p := fun r : OrganizationMembership ↦ decide (r.id = id)) hfound
    -- the id names one membership, and that is the user's
    obtain ⟨own, hown, hownId, huser⟩ := hs id hid
    have heq : m = own :=
      Rows.eq_of_key_eq hnodup hown hm ((of_decide_eq_true hkey).trans hownId.symm)
    exact Or.inr ⟨m, hm, of_decide_eq_true hstatus, heq ▸ huser, rfl, rfl, rfl⟩

/-- **The hook's actor is backed** when the hook has read what the session has selected. -/
theorem Sound.backed (h : Sound P c) {found : Option Session} {request request' : Request}
    {context context' : RequestContext} {session : Session} {actor : Actor}
    (hlocal : c.locals p = .lookedUp found request context)
    (hfire : ((sessions P).system Pid).fire c p (.act d) = some c')
    (hauth : c'.locals p = .authenticated session actor request' context') :
    Backed c.shared.db session.userId actor := by
  have htransition := StatementSystem.transition_of_fire hfire
  have hrests := (h.resting p).1
  rw [hlocal] at htransition hrests
  rw [hauth] at htransition
  obtain ⟨hpending, hselects⟩ := hrests
  generalize c'.shared = s' at htransition
  cases htransition with
  | queried hidle hnext hf =>
    obtain rfl := NextStatement.query.inj hnext
    obtain ⟨row, haccepted, hret⟩ := Except.bind_eq_ok'.1 hf
    obtain ⟨rfl, rfl, -, -⟩ := Local.authenticated.inj (Except.ok.inj hret)
    have hfound := (Option.filter_eq_some_iff.1 (orThrow_eq_ok_iff.1 haccepted)).1
    rw [StatementSystem.Shared.visible, hpending]
    exact backed_actorOf h.ids.nodup (hselects row hfound)
  | finished hrun =>
    obtain ⟨_, _, _, hnext, -⟩ := h.started p _ _ hrun
    rw [hlocal] at hnext
    cases hnext
  | committed hidle hnext => cases hnext

/-- **A revoking commit** makes what its statements have found of the sessions. -/
theorem Sound.exists_ended (h : Sound P c) {userId : Uuid}
    (hrevokes : (c.locals p).revokes = some userId)
    (hfire : ((sessions P).system Pid).fire c p (.act d) = some c') :
    ∃ g : Session → Session, c'.shared.db.sessions = c.shared.db.sessions.map g ∧
      ∀ s, Ended (c.shared.pendingOf p) s (g s) := by
  have hcommits : (c.locals p).InTransaction ∧
      ∃ l', ∀ d, (sessions P).next d (c.locals p) = .commit l' := by
    generalize c.locals p = l at hrevokes
    cases l with
    | statusAudited existing updated status => exact ⟨trivial, _, fun _ ↦ rfl⟩
    | roleAudited existing next => exact ⟨trivial, _, fun _ ↦ rfl⟩
    | _ => cases hrevokes
  obtain ⟨hlocal, l', hnext⟩ := hcommits
  rw [h.started.db_of_commit hnext hfire]
  exact TolPlatform.Sessions.exists_ended _ ((rests_inTransaction hlocal).1 (h.resting p).1)

/-- **No session of the user authenticates any more**, exactly if all live ones were found. -/
theorem Sound.revoked_iff (h : Sound P c) {userId : Uuid}
    (hrevokes : (c.locals p).revokes = some userId)
    (hfire : ((sessions P).system Pid).fire c p (.act d) = some c') :
    (∀ s ∈ c'.shared.db.sessions, s.userId = userId → ∀ steps c₂ now,
      ((sessions P).system Pid).run c' steps = some c₂ →
        accepted now (findByTokenHash c₂.shared.db.toDb s.tokenHash) = none) ↔
      FoundAll c p userId := by
  obtain ⟨g, hsessions, hg⟩ := h.exists_ended hrevokes hfire
  have hnodup := (h.fire hfire).hashes.nodup
  constructor
  · intro hrejected s hs huser hlive
    by_contra hmissed
    have hmem : g s ∈ c'.shared.db.sessions := hsessions ▸ List.mem_map_of_mem hs
    have huser' : (g s).userId = userId := (congrArg SessionKey.userId (hg s).key).trans huser
    have hlive' : (g s).revokedAt = none :=
      (hg s).live.2 ⟨hlive, hmissed⟩
    -- the next look-up accepts it, as long as it has not expired
    have hnone := hrejected (g s) hmem huser' [] c' ((g s).expiresAt - 1) rfl
    rw [findByTokenHash_of_mem hnodup hmem] at hnone
    have hexpiry : (g s).expiresAt - 1 < (g s).expiresAt := Int.sub_lt_self _ Int.one_pos
    exact Option.filter_eq_none_iff.1 hnone (g s) rfl (decide_eq_true ⟨hlive', hexpiry⟩)
  · intro hfound s' hs' huser steps c₂ now hrun
    obtain ⟨s, hs, rfl⟩ := List.mem_map.1 (hsessions ▸ hs')
    have hrevoked : (g s).revokedAt ≠ none := by
      intro hlive'
      obtain ⟨hlive, hmissed⟩ := (hg s).live.1 hlive'
      have huser' : s.userId = userId := (congrArg SessionKey.userId (hg s).key).symm.trans huser
      exact hmissed (hfound s hs huser' hlive)
    have htoken : TokenRevoked (g s).tokenHash c'.shared.db :=
      ⟨g s, findByTokenHash_of_mem hnodup hs', hrevoked⟩
    exact (StatementSystem.kept_of_run (TokenRevoked (g s).tokenHash) TokenRevoked.apply htoken
      hrun).accepted_eq_none now

/-- **Actors and revocation.** In every run the hook builds an actor without an organization or one that
is backed by an `ACTIVE` membership of the session's user. After the commit of a mutation that revokes the
sessions of a user, no session that there was of the user is ever accepted again, exactly if its
`revokeAllForUser` has found all of them that were live. -/
theorem backed_and_revoked_iff {steps : List (Pid × Tick Draws)} (h : Intact db)
    (hrun : ((sessions P).system Pid).run (start db calls) steps = some c) :
    (∀ p d c' found request context session actor request' context',
      c.locals p = .lookedUp found request context →
      ((sessions P).system Pid).fire c p (.act d) = some c' →
      c'.locals p = .authenticated session actor request' context' →
        Backed c.shared.db session.userId actor) ∧
    ∀ p d c₁ userId, (c.locals p).revokes = some userId →
      ((sessions P).system Pid).fire c p (.act d) = some c₁ →
        ((∀ s ∈ c₁.shared.db.sessions, s.userId = userId → ∀ steps₂ c₂ now,
          ((sessions P).system Pid).run c₁ steps₂ = some c₂ →
            accepted now (findByTokenHash c₂.shared.db.toDb s.tokenHash) = none) ↔
          FoundAll c p userId) := by
  have hc : Sound P c := PartySystem.inv_of_run Sound.fire (sound_start P h calls) hrun
  exact ⟨fun p d c' found request context session actor request' context' ↦ hc.backed,
    fun p d c₁ userId ↦ hc.revoked_iff⟩

end

/-! ### A login during a suspension -/

namespace Sample

def context : RequestContext := ⟨"req", "corr", "office", "browser"⟩

def primitives : Primitives := ⟨fun rawToken ↦ s!"hmac of {rawToken}", fun password hash ↦
  hash = s!"hash of {password}"⟩

/-- The platform's owner, who is logged in, and a merchant's user, who is not. -/
def stocked : Db where
  organizations := ["platform", "merchant"]
  organizationMemberships :=
    [{ id := "m1", organizationId := "platform", userId := "olga", role := .platformOwner,
       status := .active, invitationSource := none, effectiveFrom := 0 },
     { id := "m2", organizationId := "merchant", userId := "uma", role := .merchantPspUser,
       status := .active, invitationSource := none, effectiveFrom := 0 }]
  sessions := [⟨"s1", "olga", "hmac of t1", some "m1", 1000, none⟩]
  users := [⟨"uma", "uma@example.com", "hash of secret", .active⟩]

/-- The membership is suspended while its user logs in; then she sends another request. -/
def requests : Fin 3 → Call
  | 0 => .request "t1" (.membership (.updateStatus "m2" .suspended)) context
  | 1 => .login "uma@example.com" "secret" context
  | 2 => .request "t2" .other context

def draws : Draws := ⟨fun n ↦ if n = 0 then "s2" else "t2", 100⟩

def steps (p : Fin 3) (n : ℕ) : List (Fin 3 × Tick Draws) := List.replicate n (p, .act draws)

/-- The session is stored after the live ones were looked for and before the commit. -/
def missed : List (Fin 3 × Tick Draws) := steps 0 7 ++ steps 1 5 ++ steps 0 2

/-- The login comes first. -/
def found : List (Fin 3 × Tick Draws) := steps 1 5 ++ steps 0 9

theorem intact_stocked : Intact stocked := ⟨by decide, by decide, by decide⟩

/-- The session was there at the commit, and is not revoked: a later request is authenticated by it. -/
theorem missed_session_authenticates : ∃ c c₁ : Config (Fin 3),
    ((sessions primitives).system (Fin 3)).run (start stocked requests) missed = some c ∧
      ((sessions primitives).system (Fin 3)).fire c 0 (.act draws) = some c₁ ∧
      (c.locals 0).revokes = some "uma" ∧ c₁.locals 2 = .called (requests 2) ∧
      ∃ s ∈ c₁.shared.db.sessions, s.userId = "uma" ∧
        (((sessions primitives).system (Fin 3)).run c₁ (steps 2 2)).map (·.locals 2) =
          some (.authenticated s ⟨"uma", none, none, none⟩ .other context) :=
  PartySystem.exists_run_fire_of_test (by decide +kernel)

theorem backed_and_revoked_iff_found : ∃ c c₁ : Config (Fin 3),
    ((sessions primitives).system (Fin 3)).run (start stocked requests) found = some c ∧
      ((sessions primitives).system (Fin 3)).fire c 0 (.act draws) = some c₁ ∧
      ∀ s ∈ c₁.shared.db.sessions, s.userId = "uma" → ∀ steps₂ c₂ now,
        ((sessions primitives).system (Fin 3)).run c₁ steps₂ = some c₂ →
          accepted now (findByTokenHash c₂.shared.db.toDb s.tokenHash) = none := by
  obtain ⟨c, c₁, hrun, hfire, hrevokes, hfound⟩ : ∃ c c₁ : Config (Fin 3),
      ((sessions primitives).system (Fin 3)).run (start stocked requests) found = some c ∧
        ((sessions primitives).system (Fin 3)).fire c 0 (.act draws) = some c₁ ∧
        (c.locals 0).revokes = some "uma" ∧ FoundAll c 0 "uma" :=
    PartySystem.exists_run_fire_of_test (by decide +kernel)
  exact ⟨c, c₁, hrun, hfire,
    ((backed_and_revoked_iff intact_stocked hrun).2 0 draws c₁ "uma" hrevokes hfire).2 hfound⟩

end Sample

end TolPlatform.Sessions
