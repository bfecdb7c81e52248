import Mathlib.Algebra.BigOperators.Group.List.Basic
import Mathlib.Data.List.Dedup
import TolPlatform.Crypto.CanonicalJson
import TolPlatform.Library.Grouping

/-!
# JSON texts

`JSON.parse`, with the grammar of the language: blanks between tokens, numbers and strings as written
there, and an object in which a key occurs twice takes its last value. A text is one of characters, as
`JSON.stringify` escapes every other code unit; where it throws a `SyntaxError` there is no value.

What `JSON.stringify` writes for a JSON value is read back as that value (`JSON.parse_jsonText`). Each
reader is shown to stop where its text does, whatever follows, provided that a number is followed by what
may come after a value (`List.Stops`); the value comes by induction, with the length of the text as fuel.
-/

namespace TolPlatform.JSON

open Crypto (Value stops Shape shapeOf arrayText entryText)

/-! ### `JSON.stringify` of a tree -/

/-- An object, from its keys and the texts of their values, in their order. -/
def membersText (members : List (Text × List Char)) : List Char :=
  '\x7b' :: [','].intercalate (members.map entryText) ++ ['\x7d']

def jsonText : Value → List Char
  | .undefined | .null => "null".toList
  | .boolean true => "true".toList
  | .boolean false => "false".toList
  | .number x => Crypto.stringifyNumber x
  | .string s => quote s
  | .array items => arrayText (List.ofFn fun i ↦ jsonText (items i))
  | .object keys _ values => membersText (List.ofFn fun i ↦ (keys.get i, jsonText (values i)))

/-! ### Values from what is read -/

def ofList (l : List Value) : Value := .array l.get

/-- Every key where it stands first. -/
def keysOf (entries : List (Text × Value)) : List Text := (entries.map Prod.fst).reverse.dedup.reverse

theorem keysOf_nodup (entries : List (Text × Value)) : (keysOf entries).Nodup :=
  List.nodup_reverse.2 (List.nodup_dedup _)

/-- Every key with the value that it has last. -/
def ofEntries (entries : List (Text × Value)) : Value :=
  .object (keysOf entries) (keysOf_nodup entries) fun i ↦
    ((entries.reverse.find? (·.1 = (keysOf entries).get i)).map Prod.snd).getD .undefined

theorem ofList_ofFn {n : ℕ} (items : Fin n → Value) : ofList (List.ofFn items) = .array items := by
  obtain ⟨l, hl⟩ : ∃ l, l = List.ofFn items := ⟨_, rfl⟩
  obtain rfl : l.length = n := by rw [hl, List.length_ofFn]
  obtain rfl : items = l.get := List.ofFn_injective (hl.symm.trans (List.ofFn_get l).symm)
  rw [List.ofFn_get]
  rfl

theorem object_congr {keys keys' : List Text} {hnodup : keys.Nodup} {hnodup' : keys'.Nodup}
    {values : Fin keys.length → Value} {values' : Fin keys'.length → Value} (hkeys : keys = keys')
    (hvalues : ∀ i j, keys.get i = keys'.get j → values i = values' j) :
    Value.object keys hnodup values = .object keys' hnodup' values' := by
  subst hkeys
  obtain rfl : values = values' := funext fun i ↦ hvalues i i rfl
  rfl

/-- Distinct keys keep their order and their values. -/
theorem ofEntries_ofFn {keys : List Text} (hnodup : keys.Nodup) (values : Fin keys.length → Value) :
    ofEntries (List.ofFn fun i ↦ (keys.get i, values i)) = .object keys hnodup values := by
  have hfst : (List.ofFn fun i ↦ (keys.get i, values i)).map Prod.fst = keys := by
    rw [List.map_ofFn]
    exact List.ofFn_get keys
  have hkeys : keysOf (List.ofFn fun i ↦ (keys.get i, values i)) = keys := by
    rw [keysOf, hfst, (List.nodup_reverse.2 hnodup).dedup, List.reverse_reverse]
  refine object_congr hkeys fun i j hij ↦ ?_
  have hfind : (List.ofFn fun i ↦ (keys.get i, values i)).reverse.find? (·.1 = keys.get j) =
      some (keys.get j, values j) := by
    rw [List.find?_eq_some_iff_of_nodup (by rwa [List.map_reverse, hfst, List.nodup_reverse])]
    exact ⟨List.mem_reverse.2 (List.mem_ofFn.2 ⟨j, rfl⟩), rfl⟩
  rw [hij, hfind]
  rfl

/-! ### `JSON.parse` -/

def isWhitespace (c : Char) : Bool := c ∈ [' ', '\t', '\n', '\r']

def skip (s : List Char) : List Char := s.dropWhile isWhitespace

/-- A code point of a string: no control character, and no escape but those of the grammar. -/
def stringChar : List Char → Option (CodePoint × List Char)
  | [] => none
  | c :: s =>
    if c < ' ' then none
    else if c = '\\' ∧ s.head? = some '/' then some (.char '/', s.drop 1)
    else if c = '\\' ∧ s.head? = some 'u' ∧
        ((s.drop 1).take 4).any (fun digit ↦ (hexValue? digit).isNone) then none
    else readEscaped (c :: s)

/-- What is left of a string up to its quotation mark. -/
def string : ℕ → List Char → Option (Text × List Char)
  | 0, _ | _, [] => none
  | n + 1, c :: s =>
    if c = '"' then some ([], s)
    else do
      let (p, s) ← stringChar (c :: s)
      let (t, s) ← string n s
      return (p.units ++ t, s)

/-- Digits that do not start with a zero, or a zero. -/
def wholeDigits (s : List Char) : Option (List Char × List Char) :=
  let digits := s.takeWhile Char.isDigit
  if digits = [] ∨ digits.head? = some '0' ∧ digits ≠ ['0'] then none
  else some (digits, s.dropWhile Char.isDigit)

def fractionDigits : List Char → Option (List Char × List Char)
  | '.' :: s =>
    if s.takeWhile Char.isDigit = [] then none
    else some (s.takeWhile Char.isDigit, s.dropWhile Char.isDigit)
  | s => some ([], s)

/-- The sign of an exponent, which may be left out. -/
def sign : List Char → ℤ × List Char
  | '-' :: s => (-1, s)
  | '+' :: s => (1, s)
  | s => (1, s)

def exponent : List Char → Option (ℤ × List Char)
  | [] => some (0, [])
  | c :: s =>
    if c = 'e' ∨ c = 'E' then
      let (sign, s) := sign s
      if s.takeWhile Char.isDigit = [] then none
      else some (sign * Nat.ofDigitChars 10 (s.takeWhile Char.isDigit) 0, s.dropWhile Char.isDigit)
    else some (0, c :: s)

def unsigned (s : List Char) : Option (Number × List Char) := do
  let (whole, s) ← wholeDigits s
  let (fraction, s) ← fractionDigits s
  let (exponent, s) ← exponent s
  return (.round (Nat.ofDigitChars 10 (whole ++ fraction) 0 * 10 ^ (exponent - fraction.length)), s)

def negate : Number → Number
  | .finite x => .finite ⟨-x.value, x.has_neg, by rw [abs_neg]; exact x.abs_lt⟩
  | .infinity negative => .infinity !negative
  | .nan => .nan

def number : List Char → Option (Number × List Char)
  | '-' :: s => (unsigned s).map fun (x, s) ↦ (negate x, s)
  | s => unsigned s

def literal (word : String) (a : Value) (s : List Char) : Option (Value × List Char) :=
  if word.toList.isPrefixOf s then some (a, s.drop word.toList.length) else none

def bare (s : List Char) : Option (Value × List Char) :=
  literal "null" .null s <|> literal "true" (.boolean true) s <|>
    literal "false" (.boolean false) s <|> (number s).map fun (x, s) ↦ (.number x, s)

/-- Items with commas between them, up to a closing symbol. -/
def separated {α : Type} (item : List Char → Option (α × List Char)) (close : Char) :
    ℕ → List Char → Option (List α × List Char)
  | 0, _ => none
  | n + 1, s => do
    let (a, s) ← item s
    match skip s with
    | [] => none
    | c :: s =>
      if c = ',' then do
        let (l, s) ← separated item close n s
        return (a :: l, s)
      else if c = close then some ([a], s)
      else none

/-- What is between an opening symbol, which has been read, and the closing one. -/
def enclosed {α : Type} (item : List Char → Option (α × List Char)) (close : Char) (s : List Char) :
    Option (List α × List Char) :=
  if (skip s).head? = some close then some ([], (skip s).drop 1)
  else separated item close (s.length + 1) s

/-- A key and its value. -/
def member (value : List Char → Option (Value × List Char)) (s : List Char) :
    Option ((Text × Value) × List Char) := do
  if (skip s).head? ≠ some '"' then none
  else do
    let (key, s) ← string (s.length + 1) ((skip s).drop 1)
    if (skip s).head? ≠ some ':' then none
    else do
      let (a, s) ← value ((skip s).drop 1)
      return ((key, a), s)

def value : ℕ → List Char → Option (Value × List Char)
  | 0, _ => none
  | n + 1, s =>
    match skip s with
    | [] => none
    | c :: s =>
      if c = '"' then (string (s.length + 1) s).map fun (t, s) ↦ (.string t, s)
      else if c = '[' then (enclosed (value n) ']' s).map fun (l, s) ↦ (ofList l, s)
      else if c = '\x7b' then (enclosed (member (value n)) '\x7d' s).map fun (l, s) ↦ (ofEntries l, s)
      else bare (c :: s)

/-- `JSON.parse`, or none where it throws. -/
def parse (s : List Char) : Option Value := do
  let (a, s) ← value (s.length + 1) s
  if skip s = [] then some a else none

example : (parse " [1, 2.50e+1,\"\\u0041\\/\", true , -0 ]".toList).map jsonText =
    some "[1,25,\"A/\",true,0]".toList := by decide +kernel

/-! ### Numbers are read back -/

/-- The first digit of a number is a zero for zero only. -/
theorem exists_toDigits_eq_cons {n : ℕ} (h : 0 < n) : ∃ c s, Nat.toDigits 10 n = c :: s ∧ c ≠ '0' := by
  induction n using Nat.strong_induction_on with
  | _ n ih =>
    rw [Nat.toDigits_eq_if (by decide)]
    split_ifs with hlt
    · refine ⟨_, _, rfl, ?_⟩
      exact (by decide : ∀ n : Fin 10, 0 < n.val → n.val.digitChar ≠ '0') ⟨n, hlt⟩ h
    · obtain ⟨c, s, hdigits, hc⟩ := ih (n / 10) (by omega) (by omega)
      exact ⟨c, s ++ [(n % 10).digitChar], by rw [hdigits, List.cons_append], hc⟩

/-- Digits that a number starts with: a zero, or no zero in front. -/
def IsWhole (whole : List Char) : Prop := whole = ['0'] ∨ ∃ c s, whole = c :: s ∧ c ≠ '0'

/-- `decimalChars_eq_numeral`, with what stands in front. -/
theorem decimalChars_eq_wholeNumeral {d : Decimal} (h : 0 < d.digits) :
    ∃ whole fraction exponent, decimalChars d = numeral whole fraction exponent ∧ IsWhole whole ∧
      (∀ c ∈ whole, c.isDigit) ∧ (∀ c ∈ fraction, c.isDigit) := by
  have hdigits := isDigit_toDigits d.digits
  obtain ⟨c, s, hcons, hc⟩ := exists_toDigits_eq_cons h
  have hzero {m : ℕ} : ∀ c ∈ List.replicate m '0', c.isDigit := by
    intro c hc
    obtain rfl := List.eq_of_mem_replicate hc
    decide
  have htake {m : ℕ} (hm : 0 < m) : IsWhole ((Nat.toDigits 10 d.digits).take m) := by
    obtain ⟨m, rfl⟩ := Nat.exists_eq_add_of_lt hm
    rw [hcons, zero_add, List.take_succ_cons]
    exact .inr ⟨c, _, rfl, hc⟩
  rw [decimalChars]
  split_ifs with hplain hpoint hsmall
  · refine ⟨_, _, _, rfl, .inr ⟨c, s ++ _, by rw [hcons, List.cons_append], hc⟩, ?_, by simp⟩
    exact fun c hc ↦ (List.mem_append.1 hc).elim (hdigits c) (hzero c)
  · exact ⟨_, _, _, rfl, htake (by omega), fun c hc ↦ hdigits c (List.mem_of_mem_take hc),
      fun c hc ↦ hdigits c (List.mem_of_mem_drop hc)⟩
  · exact ⟨_, _, _, rfl, .inl rfl, List.forall_mem_singleton.2 (by decide),
      fun c hc ↦ (List.mem_append.1 hc).elim (hzero c) (hdigits c)⟩
  · exact ⟨_, _, _, rfl, htake one_pos, fun c hc ↦ hdigits c (List.mem_of_mem_take hc),
      fun c hc ↦ hdigits c (List.mem_of_mem_drop hc)⟩

/-- What a text of digits is followed by, so that its end can be seen. -/
def EndsDigits (s : List Char) : Prop := ∀ c ∈ s.head?, c.isDigit = false

theorem takeWhile_digits {digits s : List Char} (h : ∀ c ∈ digits, c.isDigit) (hs : EndsDigits s) :
    (digits ++ s).takeWhile Char.isDigit = digits ∧ (digits ++ s).dropWhile Char.isDigit = s := by
  rw [List.takeWhile_append_of_pos h, List.dropWhile_append_of_pos h]
  rcases s with - | ⟨c, s⟩
  · exact ⟨List.append_nil _, rfl⟩
  · have hc : c.isDigit = false := hs c rfl
    simp [hc]

section

variable {whole fraction s : List Char}

theorem wholeDigits_append (hwhole : IsWhole whole) (hdigits : ∀ c ∈ whole, c.isDigit)
    (hs : EndsDigits s) : wholeDigits (whole ++ s) = some (whole, s) := by
  obtain ⟨htake, hdrop⟩ := takeWhile_digits hdigits hs
  rw [wholeDigits, htake, hdrop, if_neg]
  rintro (rfl | ⟨hzero, hne⟩)
  · rcases hwhole with h | ⟨c, s, h, -⟩ <;> cases h
  · rcases hwhole with rfl | ⟨c, s, rfl, hc⟩
    · exact hne rfl
    · exact hc (Option.some.inj hzero)

/-- What may follow a number, and is no part of one. -/
def EndsNumber (s : List Char) : Prop := ∀ c ∈ s.head?, isNumberChar c = false ∧ c ≠ 'E'

theorem EndsNumber.endsDigits (h : EndsNumber s) : EndsDigits s := fun c hc ↦ by
  by_contra hdigit
  have hchar := isNumberChar_of_isDigit (Bool.eq_true_of_not_eq_false hdigit)
  exact Bool.noConfusion (hchar.symm.trans (h c hc).1)

theorem exponent_exponentChars (e : Option ℤ) (hs : EndsNumber s) :
    exponent (exponentChars e ++ s) = some (e.getD 0, s) := by
  rcases e with - | e
  · rcases s with - | ⟨c, s⟩
    · rfl
    · obtain ⟨hchar, hne⟩ := hs c rfl
      refine if_neg ?_
      rintro (rfl | rfl)
      · exact absurd hchar (by decide)
      · exact hne rfl
  · have hdigits := isDigit_toDigits e.natAbs
    obtain ⟨htake, hdrop⟩ := takeWhile_digits hdigits hs.endsDigits
    have hread : ∀ sign : ℤ, (if (Nat.toDigits 10 e.natAbs ++ s).takeWhile Char.isDigit = [] then none
        else some (sign * Nat.ofDigitChars 10 ((Nat.toDigits 10 e.natAbs ++ s).takeWhile Char.isDigit) 0,
          (Nat.toDigits 10 e.natAbs ++ s).dropWhile Char.isDigit)) =
        some (sign * (e.natAbs : ℤ), s) := by
      intro sign
      rw [htake, hdrop, if_neg Nat.toDigits_ne_nil, Nat.ofDigitChars_ten_toDigits]
    rw [exponentChars, Option.getD_some, List.cons_append, List.cons_append, exponent,
      if_pos (.inl rfl)]
    split_ifs with hneg
    · refine (hread (-1)).trans ?_
      rw [neg_one_mul, Int.ofNat_natAbs_of_nonpos hneg.le, neg_neg]
    · refine (hread 1).trans ?_
      rw [one_mul, Int.natAbs_of_nonneg (not_lt.1 hneg)]

theorem endsDigits_exponentChars (e : Option ℤ) (hs : EndsNumber s) :
    EndsDigits (exponentChars e ++ s) := by
  rcases e with - | e
  · exact hs.endsDigits
  · rintro c ⟨⟩
    decide

theorem fractionDigits_fractionChars (e : Option ℤ) (hfraction : ∀ c ∈ fraction, c.isDigit)
    (hs : EndsNumber s) :
    fractionDigits (fractionChars fraction ++ (exponentChars e ++ s)) =
      some (fraction, exponentChars e ++ s) := by
  have hends := endsDigits_exponentChars e hs
  rw [fractionChars]
  split_ifs with hnil
  · -- nothing that follows is a point
    subst hnil
    rw [List.nil_append, fractionDigits]
    rintro rest heq
    rcases e with - | e
    · have hpoint : EndsNumber ('.' :: rest) := heq ▸ hs
      exact absurd (hpoint '.' rfl).1 (by decide)
    · cases heq
  · obtain ⟨htake, hdrop⟩ := takeWhile_digits hfraction hends
    rw [List.cons_append, fractionDigits, htake, hdrop, if_neg hnil]

/-- A numeral is read up to its end, and as its value. -/
theorem unsigned_numeral (e : Option ℤ) (hwhole : IsWhole whole) (hdigits : ∀ c ∈ whole, c.isDigit)
    (hfraction : ∀ c ∈ fraction, c.isDigit) (hs : EndsNumber s) :
    unsigned (numeral whole fraction e ++ s) =
      some (.round (numeralValue (numeral whole fraction e)), s) := by
  have hpoint : EndsDigits (fractionChars fraction ++ (exponentChars e ++ s)) := by
    rcases fractionChars_cases fraction with ⟨-, hnil⟩ | hpoint
    · rw [hnil]
      exact endsDigits_exponentChars e hs
    · rw [hpoint]
      rintro c ⟨⟩
      decide
  rw [numeralValue_numeral hdigits hfraction, numeral, List.append_assoc, List.append_assoc]
  exact Option.bind_eq_some_iff.2 ⟨_, wholeDigits_append hwhole hdigits hpoint,
    Option.bind_eq_some_iff.2 ⟨_, fractionDigits_fractionChars e hfraction hs,
      Option.bind_eq_some_iff.2 ⟨_, exponent_exponentChars e hs, rfl⟩⟩⟩

end

theorem round_eq_finite_of_eq {q : ℚ} {x : Double} (h : binary64.round q = x.value) :
    Number.round q = .finite x := by
  rw [Number.round, dif_pos (by rw [h]; exact x.abs_lt)]
  exact congrArg Number.finite (Double.ext h)

theorem unsigned_shortest {x : Double} (hx : 0 < x.value) {s : List Char} (hs : EndsNumber s) :
    unsigned (decimalChars (Decimal.shortest binary64 x.value) ++ s) = some (.finite x, s) := by
  have hround := Decimal.round_shortest binary64 (by decide) x.has_value hx
  have hdigits : 0 < (Decimal.shortest binary64 x.value).digits := by
    rw [Nat.pos_iff_ne_zero]
    intro hzero
    rw [Decimal.value, hzero, Nat.cast_zero, zero_mul] at hround
    have hnone : binary64.round (0 : ℚ) = 0 := by decide +kernel
    exact hx.ne (hnone.symm.trans hround)
  obtain ⟨whole, fraction, e, hchars, hwhole, hwholeDigits, hfraction⟩ :=
    decimalChars_eq_wholeNumeral hdigits
  rw [hchars, unsigned_numeral e hwhole hwholeDigits hfraction hs, ← hchars,
    numeralValue_decimalChars, round_eq_finite_of_eq hround]

theorem number_eq_unsigned {c : Char} {s : List Char} (hc : c ≠ '-') :
    number (c :: s) = unsigned (c :: s) := by
  rw [number]
  rintro s' ⟨⟩
  exact hc rfl

/-- **A number is read back from its text**, whatever follows that is no part of a number. -/
theorem number_chars (x : Double) {s : List Char} (hs : EndsNumber s) :
    number (x.chars ++ s) = some (.finite x, s) := by
  rcases lt_trichotomy x.value 0 with hx | hx | hx
  · let y : Double := ⟨-x.value, x.has_neg, by rw [abs_neg]; exact x.abs_lt⟩
    have hy := unsigned_shortest (x := y) (neg_pos.2 hx) hs
    have hxy : negate (.finite y) = .finite x := congrArg Number.finite (Double.ext (neg_neg _))
    rw [Double.chars_of_neg hx]
    show (unsigned (decimalChars (Decimal.shortest binary64 y.value) ++ s)).map _ = _
    rw [hy, ← hxy]
    rfl
  · have hzero : Number.round (numeralValue ['0']) = .finite x := by
      refine round_eq_finite_of_eq ?_
      rw [hx]
      decide +kernel
    rw [Double.chars_of_zero hx, List.singleton_append, number_eq_unsigned (by decide), ← hzero]
    exact unsigned_numeral none (.inl rfl) (List.forall_mem_singleton.2 (by decide))
      (show ∀ c ∈ ([] : List Char), c.isDigit by simp) hs
  · obtain ⟨c, rest, hchars, hc⟩ := isDigit_head_decimalChars (Decimal.shortest binary64 x.value)
    rw [Double.chars_of_pos hx, ← unsigned_shortest hx hs, hchars, List.cons_append]
    exact number_eq_unsigned (ne_of_isDigit hc (by decide))

/-! ### Strings are read back -/

theorem any_isNone_digitChars {l : List ℕ} (h : ∀ n ∈ l, n < 16) :
    (l.map Nat.digitChar).any (fun digit ↦ (hexValue? digit).isNone) = false := by
  rw [List.any_eq_false]
  refine List.forall_mem_map.2 fun n hn ↦ ?_
  rw [hexValue?_digitChar (h n hn)]
  exact Bool.noConfusion

theorem stringChar_unicodeEscape (u : UInt16) (s : List Char) :
    stringChar (unicodeEscape u.toNat ++ s) = some (.ofUnit u, s) := by
  have hlt : u.toNat < 0x10000 := u.toNat_lt
  have hdigits : ∀ n ∈ [u.toNat / 0x1000, u.toNat / 0x100 % 16, u.toNat / 16 % 16, u.toNat % 16],
      n < 16 := by
    intro n hn
    simp only [List.mem_cons, List.not_mem_nil, or_false] at hn
    omega
  have hread : stringChar (unicodeEscape u.toNat ++ s) =
      if '\\' = '\\' ∧ some 'u' = some 'u' ∧
        ([u.toNat / 0x1000, u.toNat / 0x100 % 16, u.toNat / 16 % 16, u.toNat % 16].map
          Nat.digitChar).any (fun digit ↦ (hexValue? digit).isNone) then none
      else readEscaped (unicodeEscape u.toNat ++ s) := rfl
  rw [hread, any_isNone_digitChars hdigits, if_neg fun h ↦ Bool.noConfusion h.2.2,
    readEscaped_unicodeEscape]

theorem stringChar_singleEscape {e : Char × Char} (he : e ∈ singleEscapes) (s : List Char) :
    stringChar ('\\' :: e.2 :: s) = some (.char e.1, s) := by
  simp only [singleEscapes, List.mem_cons, List.not_mem_nil, or_false] at he
  rcases he with rfl | rfl | rfl | rfl | rfl | rfl | rfl <;> rfl

/-- What is written for a code point is read as it. -/
theorem stringChar_escape (p : CodePoint) (s : List Char) :
    stringChar (escape p ++ s) = some (p, s) := by
  rcases p with c | ⟨u, hu⟩
  · rw [escape]
    split
    · rename_i e he
      rw [← of_decide_eq_true (List.find?_some he :)]
      exact stringChar_singleEscape (List.mem_of_find?_eq_some he) s
    · rename_i hnone
      split_ifs with hc
      · obtain ⟨htoNat, -, hunit⟩ := ofUnit_ofNat (c := c) (lt_trans hc (by decide))
        rw [← htoNat, stringChar_unicodeEscape, hunit]
      · have hne : c ≠ '\\' := by
          rintro rfl
          exact absurd hnone (by decide)
        refine (if_neg hc).trans ((if_neg fun h ↦ hne h.1).trans ((if_neg fun h ↦ hne h.1).trans ?_))
        exact if_pos hne
  · rw [escape, stringChar_unicodeEscape, CodePoint.ofUnit, dif_pos hu]

theorem string_escapes {points : List CodePoint} {n : ℕ} (h : points.length < n) (s : List Char) :
    string n (points.flatMap escape ++ '"' :: s) = some (points.flatMap CodePoint.units, s) := by
  induction points generalizing n with
  | nil =>
    obtain ⟨n, rfl⟩ := Nat.exists_eq_add_of_lt h
    rfl
  | cons p points ih =>
    obtain ⟨n, rfl⟩ : ∃ m, n = m + 1 := ⟨n - 1, by omega⟩
    obtain ⟨c, rest, hescape, hc⟩ := exists_escape_eq_cons p
    have hchar := stringChar_escape p (points.flatMap escape ++ '"' :: s)
    rw [List.flatMap_cons, List.append_assoc]
    rw [hescape, List.cons_append] at hchar ⊢
    rw [string, if_neg hc]
    exact Option.bind_eq_some_iff.2 ⟨_, hchar,
      Option.bind_eq_some_iff.2 ⟨_, ih (Nat.lt_of_succ_lt_succ h), rfl⟩⟩

/-- **A string is read back from its quotation**, whose mark has been read. -/
theorem string_quote {t : Text} {u s : List Char} {n : ℕ} (hquote : quote t = '"' :: u)
    (hn : u.length ≤ n) : string n (u ++ s) = some (t, s) := by
  have hu : u = (codePoints t).flatMap escape ++ ['"'] := (List.cons.inj hquote).2.symm
  have hlength : (codePoints t).length ≤ ((codePoints t).flatMap escape).length := by
    have hsum := List.length_le_sum_of_one_le ((codePoints t).map fun p ↦ (escape p).length)
      (List.forall_mem_map.2 fun p _ ↦ by
        obtain ⟨c, rest, hescape, -⟩ := exists_escape_eq_cons p
        rw [hescape, List.length_cons]
        exact Nat.le_add_left 1 _)
    rwa [List.length_map, ← List.length_flatMap] at hsum
  rw [hu, List.length_append, List.length_singleton] at hn
  rw [hu, List.append_assoc, List.singleton_append, string_escapes (by omega),
    flatMap_units_codePoints]

/-! ### Values are read back -/

theorem skip_eq_self {c : Char} {s : List Char} (h : isWhitespace c = false) :
    skip (c :: s) = c :: s := by
  rw [skip, List.dropWhile_cons, h]
  rfl

theorem isWhitespace_of_mem_stops {c : Char} (h : c ∈ stops) : isWhitespace c = false := by
  rcases h with rfl | rfl | rfl <;> decide

/-- A text that starts like a token. -/
def StartsToken (t : List Char) : Prop := ∃ c u, t = c :: u ∧ isWhitespace c = false ∧ c ∉ stops

section

variable {α : Type} {item : List Char → Option (α × List Char)} {text : α → List Char} {close : Char}
  {l : List α} {s : List Char}

/-- Items are read one by one, each up to the symbol behind it. -/
theorem separated_intercalate (hclose : close ∈ stops) (hcomma : close ≠ ',') (hne : l ≠ [])
    (hitem : ∀ a ∈ l, ∀ s, List.Stops stops s → item (text a ++ s) = some (a, s)) {n : ℕ}
    (hn : l.length ≤ n) :
    separated item close n ([','].intercalate (l.map text) ++ close :: s) = some (l, s) := by
  induction l generalizing n with
  | nil => exact absurd rfl hne
  | cons a l ih =>
    obtain ⟨n, rfl⟩ : ∃ m, n = m + 1 := ⟨n - 1, by rw [List.length_cons] at hn; omega⟩
    obtain ⟨ha, hl⟩ := List.forall_mem_cons.1 hitem
    rcases l with - | ⟨b, l⟩
    · have hread := ha (close :: s) (List.stops_cons.2 hclose)
      rw [List.map_singleton, List.intercalate_singleton]
      refine Option.bind_eq_some_iff.2 ⟨_, hread, ?_⟩
      simp only [skip_eq_self (isWhitespace_of_mem_stops hclose), if_neg hcomma, if_true]
    · have hrest := ih (List.cons_ne_nil b l) hl (Nat.le_of_succ_le_succ hn)
      have hread := ha (',' :: ([','].intercalate ((b :: l).map text) ++ close :: s))
        (List.stops_cons.2 (.inl rfl))
      rw [List.map_cons, List.map_cons, List.intercalate_cons_cons, ← List.map_cons,
        List.append_assoc, List.append_assoc]
      refine Option.bind_eq_some_iff.2 ⟨_, hread, ?_⟩
      exact Option.bind_eq_some_iff.2 ⟨_, hrest, rfl⟩

theorem length_le_intercalate (words : List (List Char)) :
    words.length ≤ ([','].intercalate words).length + 1 := by
  rcases words with - | ⟨t, words⟩
  · exact Nat.zero_le _
  · have hsum := List.length_le_sum_of_one_le (words.map fun t ↦ (',' :: t).length)
      (List.forall_mem_map.2 fun t _ ↦ Nat.le_add_left 1 _)
    rw [List.length_map] at hsum
    rw [List.intercalate_cons_eq, List.length_append, List.length_flatten, List.map_map,
      List.length_cons]
    show words.length + 1 ≤ t.length + (words.map fun t ↦ (',' :: t).length).sum + 1
    omega

/-- **What stands between two brackets is read back.** -/
theorem enclosed_intercalate (hclose : close ∈ stops) (hcomma : close ≠ ',')
    (htext : ∀ a ∈ l, StartsToken (text a))
    (hitem : ∀ a ∈ l, ∀ s, List.Stops stops s → item (text a ++ s) = some (a, s)) :
    enclosed item close ([','].intercalate (l.map text) ++ close :: s) = some (l, s) := by
  rcases l with - | ⟨a, l⟩
  · have hskip : skip (close :: s) = close :: s := skip_eq_self (isWhitespace_of_mem_stops hclose)
    show enclosed item close (close :: s) = _
    rw [enclosed, hskip]
    exact if_pos rfl
  · obtain ⟨c, u, ha, hspace, hc⟩ := htext a List.mem_cons_self
    have hstart : ∃ v, [','].intercalate ((a :: l).map text) ++ close :: s = c :: v := by
      rw [List.map_cons, List.intercalate_cons_eq, ha]
      exact ⟨_, rfl⟩
    obtain ⟨v, hv⟩ := hstart
    have hlength := length_le_intercalate ((a :: l).map text)
    rw [List.length_map] at hlength
    rw [enclosed, if_neg]
    · refine separated_intercalate hclose hcomma (List.cons_ne_nil a l) hitem ?_
      rw [List.length_append]
      omega
    · rw [hv, skip_eq_self hspace]
      exact fun h ↦ hc (Option.some.inj h ▸ hclose)

end

/-- A key and its value are read back, when the value is. -/
theorem member_entryText {value : List Char → Option (Value × List Char)} {key : Text}
    {t s : List Char} {a : Value} (h : value (t ++ s) = some (a, s)) :
    member value (entryText (key, t) ++ s) = some ((key, a), s) := by
  obtain ⟨u, hu⟩ : ∃ u, quote key = '"' :: u := ⟨_, rfl⟩
  have htext : entryText (key, t) ++ s = '"' :: (u ++ ':' :: (t ++ s)) := by
    rw [Crypto.entryText_append, hu, List.cons_append]
  have hskip : skip ('"' :: (u ++ ':' :: (t ++ s))) = '"' :: (u ++ ':' :: (t ++ s)) :=
    skip_eq_self (by decide)
  have hcolon : skip (':' :: (t ++ s)) = ':' :: (t ++ s) := skip_eq_self (by decide)
  have hkey : string (('"' :: (u ++ ':' :: (t ++ s))).length + 1) (u ++ ':' :: (t ++ s)) =
      some (key, ':' :: (t ++ s)) := by
    refine string_quote hu ?_
    rw [List.length_cons, List.length_append]
    omega
  rw [htext, member, hskip]
  refine (if_neg fun h ↦ h rfl).trans (Option.bind_eq_some_iff.2 ⟨_, hkey, ?_⟩)
  simp only [hcolon]
  exact (if_neg fun h ↦ h rfl).trans (Option.bind_eq_some_iff.2 ⟨_, h, rfl⟩)

theorem isWhitespace_of_isNumberChar {c : Char} (h : isNumberChar c) : isWhitespace c = false := by
  rw [isWhitespace, decide_eq_false_iff_not]
  intro hmem
  simp only [List.mem_cons, List.not_mem_nil, or_false] at hmem
  rcases hmem with rfl | rfl | rfl | rfl <;> exact absurd h (by decide)

/-- What kind of value a text is of can be seen at its first symbol. -/
theorem exists_jsonText_eq_cons {a : Value} (ha : a.IsJson) :
    ∃ c u, jsonText a = c :: u ∧ isWhitespace c = false ∧ c ∉ stops ∧ shapeOf c = a.shape := by
  cases a with
  | undefined => exact ha.elim
  | null => exact ⟨'n', "ull".toList, rfl, by decide, by decide, by decide⟩
  | boolean b =>
    cases b
    · exact ⟨'f', "alse".toList, rfl, by decide, by decide, by decide⟩
    · exact ⟨'t', "rue".toList, rfl, by decide, by decide, by decide⟩
  | number x =>
    obtain ⟨c, u, htext, hstops, hshape⟩ := Crypto.exists_canonicalJson_eq_cons ha
    obtain ⟨d, rfl⟩ := ha
    have hchars : d.chars = c :: u := htext
    have hc := d.isNumberChar_chars c (hchars ▸ List.mem_cons_self)
    exact ⟨c, u, htext, isWhitespace_of_isNumberChar hc, hstops, hshape⟩
  | string s => exact ⟨_, _, rfl, by decide, by decide, rfl⟩
  | array items => exact ⟨_, _, rfl, by decide, by decide, rfl⟩
  | object keys _ values => exact ⟨_, _, rfl, by decide, by decide, rfl⟩

theorem startsToken_jsonText {a : Value} (ha : a.IsJson) : StartsToken (jsonText a) := by
  obtain ⟨c, u, htext, hspace, hstops, -⟩ := exists_jsonText_eq_cons ha
  exact ⟨c, u, htext, hspace, hstops⟩

theorem endsNumber_of_stops {s : List Char} (h : List.Stops stops s) : EndsNumber s := by
  intro c hc
  have hstop : c ∈ stops := h c hc
  rcases hstop with rfl | rfl | rfl <;> decide

theorem literal_eq_none {word : String} {a : Value} {c c' : Char} {s u : List Char}
    (hword : word.toList = c' :: u) (hc : c' ≠ c) : literal word a (c :: s) = none := by
  rw [literal, hword, List.isPrefixOf, beq_false_of_ne hc]
  rfl

/-- A number has no letter in front. -/
theorem bare_number (d : Double) {s : List Char} (hs : EndsNumber s) :
    bare (d.chars ++ s) = some (.number (.finite d), s) := by
  obtain ⟨c, u, hchars, hc⟩ := d.head_chars
  have hnone {word : String} {a : Value} {c' : Char} {v : List Char} (hword : word.toList = c' :: v)
      (hdigit : ¬ c'.isDigit) (hne : c' ≠ '-') : literal word a (d.chars ++ s) = none := by
    rw [hchars]
    refine literal_eq_none hword ?_
    rintro rfl
    exact hc.elim hdigit hne
  have hnull : "null".toList = 'n' :: "ull".toList := rfl
  have htrue : "true".toList = 't' :: "rue".toList := rfl
  have hfalse : "false".toList = 'f' :: "alse".toList := rfl
  rw [bare, hnone hnull (by decide) (by decide), hnone htrue (by decide) (by decide),
    hnone hfalse (by decide) (by decide), number_chars d hs]
  rfl

theorem bare_jsonText {a : Value} (ha : a.IsJson) (hbare : a.shape = .bare) {s : List Char}
    (hs : List.Stops stops s) : bare (jsonText a ++ s) = some (a, s) := by
  rcases Crypto.bare_cases ha hbare with rfl | ⟨b, rfl⟩ | ⟨d, rfl⟩
  · rfl
  · cases b <;> rfl
  · exact bare_number d (endsNumber_of_stops hs)

theorem value_bare {a : Value} (ha : a.IsJson) (hbare : a.shape = .bare) (n : ℕ) (s : List Char) :
    value (n + 1) (jsonText a ++ s) = bare (jsonText a ++ s) := by
  obtain ⟨c, u, htext, hspace, -, hshape⟩ := exists_jsonText_eq_cons ha
  have hne : shapeOf c = .bare := hshape.trans hbare
  rw [htext, List.cons_append, value, skip_eq_self hspace]
  refine (if_neg ?_).trans ((if_neg ?_).trans (if_neg ?_))
  · rintro rfl
    exact absurd hne (by decide)
  · rintro rfl
    exact absurd hne (by decide)
  · rintro rfl
    exact absurd hne (by decide)

/-- Every text is shorter than the list it stands in. -/
theorem length_le_of_mem_intercalate {words : List (List Char)} {t : List Char} (h : t ∈ words) :
    t.length ≤ ([','].intercalate words).length := by
  induction words with
  | nil => exact absurd h List.not_mem_nil
  | cons w words ih =>
    rcases words with - | ⟨w', words⟩
    · rw [List.mem_singleton.1 h, List.intercalate_singleton]
    · rw [List.intercalate_cons_cons, List.length_append, List.length_append]
      rcases List.mem_cons.1 h with rfl | htail
      · omega
      · have hle := ih htail
        omega

section

variable {n : ℕ} {s : List Char}

theorem value_arrayText {l : List Value} (htext : ∀ a ∈ l, StartsToken (jsonText a))
    (hread : ∀ a ∈ l, ∀ s, List.Stops stops s → value n (jsonText a ++ s) = some (a, s)) :
    value (n + 1) (arrayText (l.map jsonText) ++ s) = some (ofList l, s) := by
  have hitems : enclosed (value n) ']' ([','].intercalate (l.map jsonText) ++ ']' :: s) = some (l, s) :=
    enclosed_intercalate (.inr (.inl rfl)) (by decide) htext hread
  rw [arrayText, List.cons_append, List.cons_append, List.append_assoc, value,
    skip_eq_self (by decide)]
  refine (if_neg (by decide)).trans ((if_pos rfl).trans ?_)
  rw [List.singleton_append, hitems]
  rfl

theorem value_membersText {l : List (Text × Value)}
    (hread : ∀ e ∈ l, ∀ s, List.Stops stops s → value n (jsonText e.2 ++ s) = some (e.2, s)) :
    value (n + 1) (membersText (l.map fun e ↦ (e.1, jsonText e.2)) ++ s) = some (ofEntries l, s) := by
  have htext : ∀ e ∈ l, StartsToken (entryText (e.1, jsonText e.2)) :=
    fun e _ ↦ ⟨'"', _, rfl, by decide, by decide⟩
  have hmembers : enclosed (member (value n)) '\x7d'
      ([','].intercalate (l.map fun e ↦ entryText (e.1, jsonText e.2)) ++ '\x7d' :: s) = some (l, s) :=
    enclosed_intercalate (.inr (.inr rfl)) (by decide) htext
      fun e he s hs ↦ member_entryText (hread e he s hs)
  rw [membersText, List.map_map, List.cons_append, List.cons_append, List.append_assoc, value,
    skip_eq_self (by decide)]
  refine (if_neg (by decide)).trans ((if_neg (by decide)).trans ((if_pos rfl).trans ?_))
  rw [List.singleton_append]
  show (enclosed (member (value n)) '\x7d' ([','].intercalate
    (l.map fun e ↦ entryText (e.1, jsonText e.2)) ++ '\x7d' :: s)).map _ = _
  rw [hmembers]
  rfl

/-- **A value is read back from its text**, by induction on the value. -/
theorem value_jsonText {a : Value} (ha : a.IsJson) (hn : (jsonText a).length ≤ n)
    (hs : List.Stops stops s) : value (n + 1) (jsonText a ++ s) = some (a, s) := by
  induction a generalizing n s with
  | undefined => exact ha.elim
  | null => exact (value_bare ha rfl n s).trans (bare_jsonText ha rfl hs)
  | boolean b => exact (value_bare ha rfl n s).trans (bare_jsonText ha rfl hs)
  | number x => exact (value_bare ha rfl n s).trans (bare_jsonText ha rfl hs)
  | string t =>
    obtain ⟨u, hu⟩ : ∃ u, quote t = '"' :: u := ⟨_, rfl⟩
    have hread : string ((u ++ s).length + 1) (u ++ s) = some (t, s) := by
      refine string_quote hu ?_
      rw [List.length_append]
      omega
    rw [jsonText, hu, List.cons_append, value, skip_eq_self (by decide)]
    refine (if_pos rfl).trans ?_
    rw [hread]
    rfl
  | array items ih =>
    have htexts : List.ofFn (fun i ↦ jsonText (items i)) = (List.ofFn items).map jsonText := by
      rw [List.map_ofFn]
      rfl
    rw [jsonText, htexts] at hn ⊢
    rw [arrayText, List.length_append, List.length_cons] at hn
    obtain ⟨n, rfl⟩ : ∃ m, n = m + 1 := ⟨n - 1, by omega⟩
    rw [value_arrayText, ofList_ofFn]
    · exact List.forall_mem_ofFn_iff.2 fun i ↦ startsToken_jsonText (ha i)
    · refine List.forall_mem_ofFn_iff.2 fun i s hs ↦ ih i (ha i) ?_ hs
      have hle := length_le_of_mem_intercalate
        (List.mem_map_of_mem (f := jsonText) (List.mem_ofFn.2 ⟨i, rfl⟩ : items i ∈ List.ofFn items))
      omega
  | object keys hnodup values ih =>
    have htexts : List.ofFn (fun i ↦ (keys.get i, jsonText (values i))) =
        (List.ofFn fun i ↦ (keys.get i, values i)).map fun e ↦ (e.1, jsonText e.2) := by
      rw [List.map_ofFn]
      rfl
    have hmem (i) : entryText (keys.get i, jsonText (values i)) ∈
        (List.ofFn fun i ↦ (keys.get i, jsonText (values i))).map entryText :=
      List.mem_map_of_mem (List.mem_ofFn.2 ⟨i, rfl⟩)
    rw [jsonText, membersText, List.length_append, List.length_cons] at hn
    obtain ⟨n, rfl⟩ : ∃ m, n = m + 1 := ⟨n - 1, by omega⟩
    rw [jsonText, htexts, value_membersText, ofEntries_ofFn]
    refine List.forall_mem_ofFn_iff.2 fun i s hs ↦ ih i (ha i) ?_ hs
    have hle := length_le_of_mem_intercalate (hmem i)
    have hentry : (entryText (keys.get i, jsonText (values i))).length =
        (quote (keys.get i)).length + ((jsonText (values i)).length + 1) := List.length_append
    show (jsonText (values i)).length ≤ n
    omega

end

/-- **What `JSON.stringify` writes is read back by `JSON.parse`.** -/
theorem parse_jsonText {a : Value} (ha : a.IsJson) : parse (jsonText a) = some a := by
  have hnil : List.Stops stops [] := fun c hc ↦ absurd hc (Option.not_mem_none c)
  have hread := value_jsonText ha le_rfl hnil
  rw [List.append_nil] at hread
  exact Option.bind_eq_some_iff.2 ⟨_, hread, if_pos rfl⟩

end TolPlatform.JSON
