import Mathlib.Logic.Function.Basic
import TolPlatform.Authz.Can
import TolPlatform.Library.Refinement
import TolPlatform.Lockbox.Payload

/-!
# What a vault is for

An ideal escrow, which knows nothing of keys, shares or tables. Somebody deposits a payload under a new id
for an organization. That organization may take it back, or an operator of the marketplace may hand it to
a known organization; either happens at most once, and not both. So what happens under one id is one of four
histories (`history_of_trace`), and what is handed over is what was deposited.
-/

namespace TolPlatform.Lockboxes

/-- What is under an id. -/
inductive Deposit
  | held (sealerOrgId : Uuid) (payload : PayloadTexts)
  | withdrawn
  | disclosed
  deriving DecidableEq

abbrev Escrow : Type := Uuid → Option Deposit

inductive EscrowEvent
  | sealed (actor : Actor) (id : Uuid) (payload : PayloadTexts)
  | withdrew (actor : Actor) (id : Uuid)
  | released (actor : Actor) (id recipientOrgId : Uuid) (disclosed : LockboxPayload)

def EscrowEvent.id : EscrowEvent → Uuid
  | .sealed _ id _ | .withdrew _ id | .released _ id _ _ => id

/-- Only a member of the organization takes a deposit back. -/
def MayWithdraw (actor : Actor) (sealerOrgId : Uuid) : Prop :=
  actor.organizationId = some sealerOrgId

/-- Only the marketplace hands one over. -/
def MayRelease (actor : Actor) : Prop :=
  actor.role = some .platformOwner ∨ actor.role = some .marketplaceOperator

instance (actor : Actor) (sealerOrgId : Uuid) : Decidable (MayWithdraw actor sealerOrgId) :=
  inferInstanceAs (Decidable (_ = _))

instance (actor : Actor) : Decidable (MayRelease actor) := inferInstanceAs (Decidable (_ ∨ _))

/-- The escrow among the organizations there are. -/
def escrow (organizations : List Uuid) : Automaton EscrowEvent Escrow := fun e event ↦
  match event with
  | .sealed actor id payload =>
    match e id, actor.organizationId with
    | none, some organizationId => some (Function.update e id (some (.held organizationId payload)))
    | _, _ => none
  | .withdrew actor id =>
    match e id with
    | some (.held sealerOrgId _) =>
      if MayWithdraw actor sealerOrgId then some (Function.update e id (some .withdrawn)) else none
    | _ => none
  | .released actor id recipientOrgId disclosed =>
    match e id with
    | some (.held _ payload) =>
      if MayRelease actor ∧ recipientOrgId ∈ organizations ∧ disclosed = payload.shown then
        some (Function.update e id (some .disclosed))
      else none
    | _ => none

/-- What can have happened under an id, and what is there then. -/
inductive History (organizations : List Uuid) (id : Uuid) : List EscrowEvent → Option Deposit → Prop
  | nothing : History organizations id [] none
  | sealed {sealer sealerOrgId payload} : sealer.organizationId = some sealerOrgId →
      History organizations id [.sealed sealer id payload] (some (.held sealerOrgId payload))
  | withdrawn {sealer sealerOrgId payload actor} : sealer.organizationId = some sealerOrgId →
      MayWithdraw actor sealerOrgId →
      History organizations id [.sealed sealer id payload, .withdrew actor id] (some .withdrawn)
  | released {sealer payload actor recipientOrgId} : MayRelease actor →
      recipientOrgId ∈ organizations →
      History organizations id
        [.sealed sealer id payload, .released actor id recipientOrgId payload.shown] (some .disclosed)

variable {organizations : List Uuid} {e e' : Escrow} {event : EscrowEvent} {events : List EscrowEvent}
  {actor : Actor} {id recipientOrgId : Uuid} {payload : PayloadTexts} {disclosed : LockboxPayload}

theorem escrow_sealed_eq_some_iff : escrow organizations e (.sealed actor id payload) = some e' ↔
    e id = none ∧ ∃ organizationId, actor.organizationId = some organizationId ∧
      e' = Function.update e id (some (.held organizationId payload)) := by
  rw [escrow]
  rcases e id with _ | dep <;> rcases actor.organizationId with _ | organizationId <;>
    simp [eq_comm]

theorem escrow_withdrew_eq_some_iff : escrow organizations e (.withdrew actor id) = some e' ↔
    ∃ sealerOrgId payload, e id = some (.held sealerOrgId payload) ∧ MayWithdraw actor sealerOrgId ∧
      e' = Function.update e id (some .withdrawn) := by
  rw [escrow]
  rcases e id with _ | _ | _ | _ <;> simp [eq_comm]

theorem escrow_released_eq_some_iff :
    escrow organizations e (.released actor id recipientOrgId disclosed) = some e' ↔
      ∃ sealerOrgId payload, e id = some (.held sealerOrgId payload) ∧ MayRelease actor ∧
        recipientOrgId ∈ organizations ∧ disclosed = payload.shown ∧
          e' = Function.update e id (some .disclosed) := by
  rw [escrow]
  rcases e id with _ | _ | _ | _ <;> simp [eq_comm, and_assoc]

/-- An event changes what is under its id only. -/
theorem escrow_of_ne (h : escrow organizations e event = some e') (hid : event.id ≠ id) :
    e' id = e id := by
  cases event with
  | sealed =>
    obtain ⟨-, _, -, rfl⟩ := escrow_sealed_eq_some_iff.1 h
    exact Function.update_of_ne hid.symm _ _
  | withdrew =>
    obtain ⟨_, _, -, -, rfl⟩ := escrow_withdrew_eq_some_iff.1 h
    exact Function.update_of_ne hid.symm _ _
  | released =>
    obtain ⟨_, _, -, -, -, -, rfl⟩ := escrow_released_eq_some_iff.1 h
    exact Function.update_of_ne hid.symm _ _

/-- It goes on with the history of its id. -/
theorem History.extend (hevents : History organizations id events (e id)) (hid : event.id = id)
    (h : escrow organizations e event = some e') :
    History organizations id (events ++ [event]) (e' id) := by
  cases event with
  | sealed actor id' payload =>
    obtain rfl : id' = id := hid
    obtain ⟨hnone, organizationId, horg, rfl⟩ := escrow_sealed_eq_some_iff.1 h
    rw [hnone] at hevents
    rw [Function.update_self]
    cases hevents
    exact .sealed horg
  | withdrew actor id' =>
    obtain rfl : id' = id := hid
    obtain ⟨sealerOrgId, payload, hheld, hmay, rfl⟩ := escrow_withdrew_eq_some_iff.1 h
    rw [hheld] at hevents
    rw [Function.update_self]
    cases hevents with
    | sealed horg => exact .withdrawn horg hmay
  | released actor id' recipientOrgId disclosed =>
    obtain rfl : id' = id := hid
    obtain ⟨sealerOrgId, payload, hheld, hmay, hknown, rfl, rfl⟩ := escrow_released_eq_some_iff.1 h
    rw [hheld] at hevents
    rw [Function.update_self]
    cases hevents with
    | sealed => exact .released hmay hknown

/-- **What happens under one id**, in any trace of an escrow that starts empty. -/
theorem history_of_trace (h : (escrow organizations).trace (fun _ ↦ none) events = some e) (id : Uuid) :
    History organizations id (events.filter (·.id = id)) (e id) := by
  induction events using List.reverseRecOn generalizing e with
  | nil =>
    obtain rfl := Option.some.inj h
    exact .nothing
  | append_singleton events event ih =>
    rw [Automaton.trace_append] at h
    obtain ⟨e₁, hevents, hevent⟩ := Option.bind_eq_some_iff.1 h
    replace hevent : escrow organizations e₁ event = some e := by
      obtain ⟨e₂, hevent, hret⟩ := Option.bind_eq_some_iff.1 hevent
      exact Option.some.inj hret ▸ hevent
    rw [List.filter_append]
    by_cases hid : event.id = id
    · rw [List.filter_singleton, decide_eq_true hid]
      exact (ih hevents).extend hid hevent
    · rw [List.filter_singleton, decide_eq_false hid, escrow_of_ne hevent hid]
      show History organizations id (events.filter (·.id = id) ++ []) _
      rw [List.append_nil]
      exact ih hevents

end TolPlatform.Lockboxes
