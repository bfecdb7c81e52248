import TolPlatform.Library.Transaction
import TolPlatform.Shared.Errors
import TolPlatform.Shared.Numbers

/-!
# Money guards

`packages/domain/src/money.ts`: integer minor units, basis points and currency codes. A minor-units
amount is a `bigint`, so `Int`; the guards reject negative values. `assertIntegerMinorUnits` and the
fractional half of `assertIntegerBps` have no counterpart, since no value that they see here is a float.

`bigIntOfString` and `bigIntOfNumber` are the language's own `BigInt(value)`. In a string, surrounding
white space is ignored, the empty string is zero, a decimal literal may carry a sign, and a `0x`, `0o` or
`0b` literal may not; a number has to be an integer.
-/

namespace TolPlatform

def moneyInvariantError (message : String) : Thrown :=
  .moneyInvariant s!"money invariant violated: {message}"

/-! ### `BigInt(value)` -/

/-- The white space `BigInt` skips at both ends. -/
def isStrWhiteSpace (c : Char) : Bool :=
  c.toNat ∈ [0x9, 0xA, 0xB, 0xC, 0xD, 0x20, 0xA0, 0x1680, 0x2028, 0x2029, 0x202F, 0x205F, 0x3000,
    0xFEFF] || (0x2000 ≤ c.toNat && c.toNat ≤ 0x200A)

/-- The value of one digit in the given base. -/
def digitValue (base : Nat) (c : Char) : Option Nat :=
  let v :=
    if '0' ≤ c ∧ c ≤ '9' then some (c.toNat - '0'.toNat)
    else if 'a' ≤ c ∧ c ≤ 'f' then some (c.toNat - 'a'.toNat + 10)
    else if 'A' ≤ c ∧ c ≤ 'F' then some (c.toNat - 'A'.toNat + 10)
    else none
  v.filter (· < base)

/-- A nonempty digit string in the given base. -/
def digitsValue (base : Nat) : List Char → Option Nat
  | [] => none
  | cs => cs.foldlM (fun n c ↦ (digitValue base c).map (base * n + ·)) 0

/-- `BigInt(value)`, `none` where it throws a `SyntaxError`. -/
def bigIntOfString (value : String) : Option Int :=
  let body := (((value.toList.dropWhile isStrWhiteSpace).reverse).dropWhile isStrWhiteSpace).reverse
  match body with
  | [] => some 0
  | '-' :: cs => (digitsValue 10 cs).map fun n ↦ -(n : Int)
  | '+' :: cs => (digitsValue 10 cs).map Int.ofNat
  | '0' :: 'x' :: cs | '0' :: 'X' :: cs => (digitsValue 16 cs).map Int.ofNat
  | '0' :: 'o' :: cs | '0' :: 'O' :: cs => (digitsValue 8 cs).map Int.ofNat
  | '0' :: 'b' :: cs | '0' :: 'B' :: cs => (digitsValue 2 cs).map Int.ofNat
  | cs => (digitsValue 10 cs).map Int.ofNat

/-- `BigInt(value)` of a number. -/
def bigIntOfNumber (value : Number) : Except Thrown Int :=
  orThrow value.toInt? (.rangeError s!"The number {value} cannot be converted to a BigInt because it is not an integer")

example : bigIntOfString "0012" = some 12 ∧ bigIntOfString " 0x1F " = some 31 ∧
    bigIntOfString "-4" = some (-4) ∧ bigIntOfString "4.5" = none := by decide

/-! ### The guards -/

def assertBigIntMinorUnits (value : Int) (fieldName : String) : Except Thrown Unit :=
  throwIf (value < 0) (moneyInvariantError s!"{fieldName} must not be negative — got {value}")

def parseBigIntMinorUnits (value : Option String) (fieldName : String) : Except Thrown Int :=
  match value with
  | none => .ok 0
  | some value =>
    match bigIntOfString value with
    | none => .error (moneyInvariantError
        s!"{fieldName} must be a non-negative integer string — got \"{value}\"")
    | some parsed => do
      assertBigIntMinorUnits parsed fieldName
      return parsed

def assertIntegerBps (value : Int) (fieldName : String) (max : Int := 1000000) :
    Except Thrown Unit := do
  throwIf (value < 0) (moneyInvariantError s!"{fieldName} must not be negative — got {value}")
  throwIf (max < value) (moneyInvariantError
    s!"{fieldName} exceeds the allowed maximum of {max} bps — got {value}")

def assertCurrencyCode (value : String) (fieldName : String) : Except Thrown Unit :=
  throwIf (¬ (value.toList.length = 3 ∧ value.toList.all Char.isUpper))
    (moneyInvariantError
      s!"{fieldName} must be a 3-letter uppercase ISO 4217 code — got \"{value}\"")

theorem assertBigIntMinorUnits_eq_ok_iff {value : Int} {fieldName : String} {u : Unit} :
    assertBigIntMinorUnits value fieldName = .ok u ↔ 0 ≤ value := by
  rw [assertBigIntMinorUnits, throwIf_eq_ok_iff, Int.not_lt]

/-- The parser returns what `BigInt` reads. -/
theorem bigIntOfString_of_parseBigIntMinorUnits {value fieldName : String} {n : Int}
    (h : parseBigIntMinorUnits (some value) fieldName = .ok n) : bigIntOfString value = some n := by
  simp only [parseBigIntMinorUnits] at h
  rcases hp : bigIntOfString value with - | parsed
  · rw [hp] at h
    cases h
  · rw [hp] at h
    obtain ⟨_, -, hret⟩ := Except.bind_eq_ok'.1 h
    rw [Except.ok.inj hret]

/-- Whatever the parser accepts is a non-negative amount. -/
theorem nonneg_of_parseBigIntMinorUnits {value : Option String} {fieldName : String} {n : Int}
    (h : parseBigIntMinorUnits value fieldName = .ok n) : 0 ≤ n := by
  rcases value with - | value
  · obtain rfl := Except.ok.inj h
    exact Int.le_refl _
  · simp only [parseBigIntMinorUnits] at h
    rcases hp : bigIntOfString value with - | parsed
    · rw [hp] at h
      cases h
    · rw [hp] at h
      obtain ⟨_, hassert, hret⟩ := Except.bind_eq_ok'.1 h
      obtain rfl := Except.ok.inj hret
      exact assertBigIntMinorUnits_eq_ok_iff.1 hassert

end TolPlatform
