import TolPlatform.Lockbox.Service
import TolPlatform.Shared.Json

/-!
# The sealed payload

`serializePayload` and `deserializePayload` of `apps/api/src/modules/lockbox/service.ts`, with
`LockboxPayloadSchema` of `packages/contracts/src/lockbox.ts`: the plaintext of a lockbox is the UTF-8 of
the payload's JSON. A string is one of code units, and may hold half of a surrogate pair; JSON escapes it,
so that the bytes are UTF-8 all the same, and exactly the payloads that the request schema admits are read
back (`deserializePayload_serializePayload_eq_some_iff`).
-/

namespace TolPlatform.Lockboxes

open Crypto (Bytes Value)

/-- A payload as the request holds it. -/
@[ext] structure PayloadTexts where
  counterpartyPrivate : Text
  evidenceSummary : Text
  priorDealHistory : Text
  deriving DecidableEq

namespace PayloadTexts

def fields (p : PayloadTexts) : Fin 3 → Text :=
  ![p.counterpartyPrivate, p.evidenceSummary, p.priorDealHistory]

def keys : List Text :=
  ["counterpartyPrivate", "evidenceSummary", "priorDealHistory"].map codeUnits

def toValue (p : PayloadTexts) : Value :=
  .object keys (by decide) fun i : Fin 3 ↦ .string (p.fields i)

end PayloadTexts

/-! ### `LockboxPayloadSchema` -/

/-- `data[key]`. -/
def property (key : String) : Value → Option Value
  | .object keys _ values =>
    if h : keys.idxOf (codeUnits key) < keys.length then some (values ⟨_, h⟩) else none
  | _ => none

/-- `z.string().min(1).max(max)`. -/
def boundedString (max : ℕ) : Value → Option Text
  | .string t => if 1 ≤ t.length ∧ t.length ≤ max then some t else none
  | _ => none

/-- `LockboxPayloadSchema.parse`, or none where it throws. Other keys are dropped. -/
def parsePayload (data : Value) : Option PayloadTexts := do
  let counterpartyPrivate ← (property "counterpartyPrivate" data).bind (boundedString 2000)
  let evidenceSummary ← (property "evidenceSummary" data).bind (boundedString 4000)
  let priorDealHistory ← (property "priorDealHistory" data).bind (boundedString 4000)
  return { counterpartyPrivate, evidenceSummary, priorDealHistory }

/-- What the schema admits. -/
structure PayloadTexts.Admissible (p : PayloadTexts) : Prop where
  counterpartyPrivate : 1 ≤ p.counterpartyPrivate.length ∧ p.counterpartyPrivate.length ≤ 2000
  evidenceSummary : 1 ≤ p.evidenceSummary.length ∧ p.evidenceSummary.length ≤ 4000
  priorDealHistory : 1 ≤ p.priorDealHistory.length ∧ p.priorDealHistory.length ≤ 4000

/-! ### The plaintext -/

def serializePayload (p : PayloadTexts) : Bytes := utf8 (JSON.jsonText p.toValue)

/-- `buffer.toString("utf8")`. What it shows for bytes that are no UTF-8 is the platform's. -/
def decodeUtf8 (replaced : Bytes → List Char) (b : Bytes) : List Char :=
  match b.toByteArray.utf8Decode? with
  | some chars => chars.toList
  | none => replaced b

/-- Or none where it throws. -/
def deserializePayload (replaced : Bytes → List Char) (plaintext : Bytes) : Option PayloadTexts := do
  let parsed ← JSON.parse (decodeUtf8 replaced plaintext)
  parsePayload parsed

/-! ### Round trip -/

theorem decodeUtf8_utf8 (replaced : Bytes → List Char) (s : List Char) :
    decodeUtf8 replaced (utf8 s) = s := by
  have hdecode : (utf8 s).toByteArray.utf8Decode? = some s.toArray := List.utf8Decode?_utf8Encode
  rw [decodeUtf8, hdecode]

theorem property_object {keys : List Text} {hnodup : keys.Nodup} {values : Fin keys.length → Value}
    {key : String} {i : Fin keys.length} (h : keys.get i = codeUnits key) :
    property key (.object keys hnodup values) = some (values i) := by
  have hidx : keys.idxOf (codeUnits key) = i := by
    rw [← h]
    exact hnodup.idxOf_getElem i.val i.isLt
  have hlt : keys.idxOf (codeUnits key) < keys.length := hidx ▸ i.isLt
  rw [property, dif_pos hlt]
  exact congrArg (some ∘ values) (Fin.ext hidx)

theorem boundedString_string_eq_some_iff {max : ℕ} {t u : Text} :
    boundedString max (.string t) = some u ↔ (1 ≤ t.length ∧ t.length ≤ max) ∧ u = t := by
  rw [boundedString]
  split_ifs with h
  · rw [Option.some.injEq, eq_comm, and_iff_right h]
  · exact iff_of_false (fun h ↦ nomatch h) fun h' ↦ h h'.1

/-- An object of a payload is admitted exactly when the payload is, and as that payload. -/
theorem parsePayload_toValue_eq_some_iff {p q : PayloadTexts} :
    parsePayload p.toValue = some q ↔ p.Admissible ∧ q = p := by
  have hget (i : Fin 3) (key : String) (hkey : PayloadTexts.keys.get i = codeUnits key) :
      property key p.toValue = some (.string (p.fields i)) :=
    @property_object PayloadTexts.keys _ (fun i : Fin 3 ↦ .string (p.fields i)) key i hkey
  rw [parsePayload, hget 0 _ rfl, hget 1 _ rfl, hget 2 _ rfl]
  show (boundedString 2000 (.string p.counterpartyPrivate)).bind (fun counterpartyPrivate ↦
    (boundedString 4000 (.string p.evidenceSummary)).bind fun evidenceSummary ↦
      (boundedString 4000 (.string p.priorDealHistory)).bind fun priorDealHistory ↦
        some { counterpartyPrivate, evidenceSummary, priorDealHistory }) = some q ↔ _
  simp only [Option.bind_eq_some_iff, boundedString_string_eq_some_iff]
  constructor
  · rintro ⟨_, ⟨hcounterparty, rfl⟩, _, ⟨hevidence, rfl⟩, _, ⟨hhistory, rfl⟩, hret⟩
    exact ⟨⟨hcounterparty, hevidence, hhistory⟩, (Option.some.inj hret).symm⟩
  · rintro ⟨h, rfl⟩
    exact ⟨_, ⟨h.counterpartyPrivate, rfl⟩, _, ⟨h.evidenceSummary, rfl⟩, _,
      ⟨h.priorDealHistory, rfl⟩, rfl⟩

/-- The plaintext is read as the object that was written. -/
theorem deserializePayload_serializePayload (replaced : Bytes → List Char) (p : PayloadTexts) :
    deserializePayload replaced (serializePayload p) = parsePayload p.toValue := by
  have hjson : p.toValue.IsJson := fun _ ↦ trivial
  rw [deserializePayload, serializePayload, decodeUtf8_utf8, JSON.parse_jsonText hjson]
  rfl

/-- **Round trip of the plaintext**: what comes back is the payload, and anything comes back exactly when
the schema admits it. -/
theorem deserializePayload_serializePayload_eq_some_iff (replaced : Bytes → List Char)
    (p q : PayloadTexts) :
    deserializePayload replaced (serializePayload p) = some q ↔ p.Admissible ∧ q = p := by
  rw [deserializePayload_serializePayload, parsePayload_toValue_eq_some_iff]

/-! ### What a result shows -/

/-- A text as characters. Half of a surrogate pair has none. -/
def ofText (t : Text) : String :=
  String.ofList ((codePoints t).map fun
    | .char c => c
    | .lone _ _ => '\uFFFD')

/-- The payload as a result shows it. -/
def PayloadTexts.shown (p : PayloadTexts) : LockboxPayload where
  counterpartyPrivate := ofText p.counterpartyPrivate
  evidenceSummary := ofText p.evidenceSummary
  priorDealHistory := ofText p.priorDealHistory

end TolPlatform.Lockboxes
