import TolPlatform.Authz.Can
import TolPlatform.Library.Redaction
import TolPlatform.Shared.Errors

/-!
# `fieldPolicy`

`packages/authz/src/field-policy.ts` and the disclosure ladder of `roles.ts`: which fields of a resource
an actor may see. The ladder is a list from the least to the most sensitive class, compared by rank.

A record is a function of its keys, so `redactFields` is `Redaction.reveal` on the fields whose class is
within the actor's ceiling (`redactFields_eq`). Every actor with a role sees the market classes
(`memberMarket_le_maxVisibleClass`).
-/

namespace TolPlatform

/-- `DISCLOSURE_CLASSES`. -/
inductive DisclosureClass
  | publicMarket | memberMarket | matchSummary | dealRoom | restricted | secret
  deriving DecidableEq, Repr

def disclosureClasses : List DisclosureClass :=
  [.publicMarket, .memberMarket, .matchSummary, .dealRoom, .restricted, .secret]

/-- The index into `DISCLOSURE_CLASSES`. No value of the type makes it throw. -/
def disclosureRank (cls : DisclosureClass) : ℕ := disclosureClasses.idxOf cls

/-- A resource, with what the field policy reads of it besides. -/
structure ClassifiedResource extends Resource where
  id : Option Uuid := none
  privacyClass : Option DisclosureClass := none

structure FieldPolicyResult where
  isOwnerView : Bool
  maxVisibleClass : DisclosureClass
  deriving DecidableEq, Repr

/-- `CROSS_ORG_CEILING`. -/
def crossOrgCeiling : PersonaRole → Option DisclosureClass
  | .platformOwner => some .secret
  | .marketplaceOperator => some .restricted
  | .complianceReviewer => some .restricted
  | .auditorReadonly => some .restricted
  | _ => none

def fieldPolicy (actor : Actor) (resource : ClassifiedResource) : FieldPolicyResult :=
  let isPlatformOwner := actor.role = some .platformOwner
  let isOwner := resource.ownerOrgId ≠ none ∧ resource.ownerOrgId = actor.organizationId
  if isPlatformOwner ∨ isOwner then ⟨true, .secret⟩
  else
    match actor.role with
    | none => ⟨false, .publicMarket⟩
    | some role => ⟨false, (crossOrgCeiling role).getD .memberMarket⟩

def isFieldVisible (actor : Actor) (resource : ClassifiedResource) (fieldClass : DisclosureClass) :
    Bool :=
  disclosureRank fieldClass ≤ disclosureRank (fieldPolicy actor resource).maxVisibleClass

/-- `DANGEROUS_KEYS`. -/
def dangerousKeys : List String := ["__proto__", "constructor", "prototype"]

section

variable {κ : Type} [ToString κ] {V : κ → Type}

/-- The class of each key, with the fallback for keys that have none of their own. -/
def classOf (resource : ClassifiedResource) (fieldClasses : κ → Option DisclosureClass)
    (defaultClass : Option DisclosureClass) (key : κ) : DisclosureClass :=
  let fallbackClass := (defaultClass <|> resource.privacyClass).getD .memberMarket
  (fieldClasses key).getD fallbackClass

/-- `T` is a record of `V key` under each `key`, and `Partial<T>` lacks some of them. -/
def redactFields (actor : Actor) (resource : ClassifiedResource) (fields : (key : κ) → V key)
    (fieldClasses : κ → Option DisclosureClass) (defaultClass : Option DisclosureClass := none)
    (key : κ) : Option (V key) :=
  if toString key ∈ dangerousKeys then none
  else if isFieldVisible actor resource (classOf resource fieldClasses defaultClass key) then
    some (fields key)
  else none

/-- The fields an actor is shown. -/
def Shown (actor : Actor) (resource : ClassifiedResource)
    (fieldClasses : κ → Option DisclosureClass) (defaultClass : Option DisclosureClass) (key : κ) :
    Prop :=
  toString key ∉ dangerousKeys ∧
    isFieldVisible actor resource (classOf resource fieldClasses defaultClass key) = true

instance (actor : Actor) (resource : ClassifiedResource)
    (fieldClasses : κ → Option DisclosureClass) (defaultClass : Option DisclosureClass) :
    DecidablePred (Shown actor resource fieldClasses defaultClass) := fun key ↦
  inferInstanceAs (Decidable (toString key ∉ dangerousKeys ∧ _ = true))

theorem redactFields_eq (actor : Actor) (resource : ClassifiedResource)
    (fields : (key : κ) → V key) (fieldClasses : κ → Option DisclosureClass)
    (defaultClass : Option DisclosureClass) :
    redactFields actor resource fields fieldClasses defaultClass =
      Redaction.reveal (Shown actor resource fieldClasses defaultClass) fields := by
  funext key
  by_cases hshown : Shown actor resource fieldClasses defaultClass key
  · rw [Redaction.reveal_of_shown hshown, redactFields, if_neg hshown.1, if_pos hshown.2]
  · rw [Redaction.reveal, if_neg hshown, redactFields]
    split_ifs with hkey hvisible
    · rfl
    · exact absurd ⟨hkey, hvisible⟩ hshown
    · rfl

end

/-! ### Ceilings -/

theorem disclosureRank_le_secret (cls : DisclosureClass) :
    disclosureRank cls ≤ disclosureRank .secret := by
  cases cls <;> decide

/-- No ceiling of a role is below the market's. -/
theorem memberMarket_le_crossOrgCeiling (role : PersonaRole) :
    disclosureRank .memberMarket ≤ disclosureRank ((crossOrgCeiling role).getD .memberMarket) := by
  cases role <;> decide

/-- **Every actor with a role sees the market classes**, of any resource. -/
theorem isFieldVisible_memberMarket {actor : Actor} (hrole : actor.role ≠ none)
    (resource : ClassifiedResource) : isFieldVisible actor resource .memberMarket = true := by
  refine decide_eq_true ?_
  dsimp only [fieldPolicy]
  split_ifs
  · exact disclosureRank_le_secret .memberMarket
  · obtain ⟨role, hrole⟩ := Option.ne_none_iff_exists'.1 hrole
    rw [hrole]
    exact memberMarket_le_crossOrgCeiling role

end TolPlatform
