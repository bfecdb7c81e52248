import Mathlib.Init

/-!
# What the code throws

`ProblemError` (`apps/api/src/shared/errors.ts`) is what service code throws on purpose; the other
constructors of `Thrown` are the exceptions of the packages below it and of the database driver,
which the services let through. `fieldErrors` and `details` are left out: no function modelled here
sets or reads them.
-/

namespace TolPlatform

/-- RFC-style problem response. -/
structure ProblemError where
  status : Nat
  code : String
  message : String
  retryable : Bool := false
  deriving DecidableEq, Repr

namespace ProblemError

def badRequest (message : String) : ProblemError :=
  { status := 400, code := "bad_request", message }

def unauthorized (message : String := "Authentication required") : ProblemError :=
  { status := 401, code := "unauthorized", message }

def forbidden (message : String) : ProblemError :=
  { status := 403, code := "forbidden", message }

def notFound (message : String) : ProblemError :=
  { status := 404, code := "not_found", message }

def conflict (message : String) (retryable : Bool := false) : ProblemError :=
  { status := 409, code := "conflict", message, retryable }

def internal (message : String) : ProblemError :=
  { status := 500, code := "internal_error", message, retryable := true }

end ProblemError

/-- Everything a modelled function can throw. -/
inductive Thrown
  /-- A `ProblemError` raised by a service. -/
  | problem (e : ProblemError)
  /-- `MoneyInvariantError` of the domain package. -/
  | moneyInvariant (message : String)
  /-- `EconomicsInvariantError` of the domain package. -/
  | economicsInvariant (message : String)
  /-- A `DomainTransitionError`. -/
  | domainTransition (message : String)
  /-- A repository's input guard (`CommissionAccrualInputError` and its siblings). -/
  | inputError (message : String)
  /-- The driver's unique-constraint violation, code `P2002`. -/
  | uniqueViolation
  /-- The driver's "record not found", code `P2025`. -/
  | recordNotFound
  /-- A plain `Error`. -/
  | error (message : String)
  /-- The language's own `RangeError`. -/
  | rangeError (message : String)
  deriving DecidableEq, Repr

/-! ### Throwing -/

def badRequest (message : String) : Thrown := .problem (.badRequest message)

def unauthorized (message : String := "Authentication required") : Thrown :=
  .problem (.unauthorized message)

def forbidden (message : String) : Thrown := .problem (.forbidden message)

def notFound (message : String) : Thrown := .problem (.notFound message)

def conflict (message : String) (retryable : Bool := false) : Thrown :=
  .problem (.conflict message retryable)

def internal (message : String) : Thrown := .problem (.internal message)

/-- `if (cond) throw thrown;`. -/
def throwIf (cond : Prop) [Decidable cond] (thrown : Thrown) : Except Thrown Unit :=
  if cond then .error thrown else .ok ()

@[simp] theorem throwIf_eq_ok_iff {cond : Prop} [Decidable cond] {thrown : Thrown} {u : Unit} :
    throwIf cond thrown = .ok u ↔ ¬ cond := by
  unfold throwIf
  by_cases h : cond <;> simp [h]

/-- `if (!value) throw thrown;`, and on with the value. -/
def orThrow {α : Type} (value : Option α) (thrown : Thrown) : Except Thrown α :=
  match value with
  | none => .error thrown
  | some a => .ok a

@[simp] theorem orThrow_eq_ok_iff {α : Type} {value : Option α} {thrown : Thrown} {a : α} :
    orThrow value thrown = .ok a ↔ value = some a := by
  cases value with
  | none => exact ⟨(nomatch ·), (nomatch ·)⟩
  | some b =>
    show Except.ok b = .ok a ↔ some b = some a
    rw [Except.ok.injEq, Option.some.injEq]

/-- Identifiers are UUID strings; they are only ever compared. -/
abbrev Uuid := String

/-- Milliseconds since the epoch. -/
abbrev Instant := Int

end TolPlatform
