import TolPlatform.Library.Delimited
import Mathlib.Tactic.NormNum

/-!
# Strings and their encodings

A string of the language is a list of 16-bit code units, in which half of a surrogate pair may stand on
its own. `codePoints` cuts it into characters and such halves; nothing is lost (`codePoints_injective`).

`quote` is `JSON.stringify` of a string. It escapes what is no character, so that what it writes is a list
of characters, and a string is read back from the front of any text that its quotation opens
(`prefixCode_quote`). `utf8` writes characters as bytes and `toHex` bytes as digits, both without loss
(`utf8_injective`, `bufferFromHex_toHex`).
-/

namespace TolPlatform

/-- A string: its code units. -/
abbrev Text : Type := List UInt16

/-! ### Code points -/

def IsLeadingSurrogate (u : UInt16) : Prop := 0xd800 ≤ u.toNat ∧ u.toNat ≤ 0xdbff

def IsTrailingSurrogate (u : UInt16) : Prop := 0xdc00 ≤ u.toNat ∧ u.toNat ≤ 0xdfff

def IsSurrogate (u : UInt16) : Prop := 0xd800 ≤ u.toNat ∧ u.toNat ≤ 0xdfff

instance : DecidablePred IsLeadingSurrogate := fun _ ↦ inferInstanceAs (Decidable (_ ∧ _))

instance : DecidablePred IsTrailingSurrogate := fun _ ↦ inferInstanceAs (Decidable (_ ∧ _))

instance : DecidablePred IsSurrogate := fun _ ↦ inferInstanceAs (Decidable (_ ∧ _))

/-- A character, or half of a surrogate pair on its own. -/
inductive CodePoint
  | char (c : Char)
  | lone (u : UInt16) (h : IsSurrogate u)

/-- A code unit that is not half of a pair. -/
def CodePoint.ofUnit (u : UInt16) : CodePoint :=
  if h : IsSurrogate u then .lone u h else .char (.ofNat u.toNat)

/-- `UTF16SurrogatePairToCodePoint`. -/
def ofSurrogatePair (lead trail : UInt16) : Char :=
  .ofNat ((lead.toNat - 0xd800) * 0x400 + (trail.toNat - 0xdc00) + 0x10000)

/-- `StringToCodePoints`. -/
def codePoints : Text → List CodePoint
  | [] => []
  | [u] => [.ofUnit u]
  | u :: v :: t =>
    if IsLeadingSurrogate u ∧ IsTrailingSurrogate v then .char (ofSurrogatePair u v) :: codePoints t
    else .ofUnit u :: codePoints (v :: t)

/-- The code units of a code point. -/
def CodePoint.units : CodePoint → Text
  | .char c =>
    if c.toNat < 0x10000 then [.ofNat c.toNat]
    else [.ofNat (0xd800 + (c.toNat - 0x10000) / 0x400), .ofNat (0xdc00 + (c.toNat - 0x10000) % 0x400)]
  | .lone u _ => [u]

theorem toNat_charOfNat {n : ℕ} (h : n.isValidChar) : (Char.ofNat n).toNat = n := by
  rw [Char.ofNat, dif_pos h]
  rfl

theorem toNat_charOfNat_unit {u : UInt16} (h : ¬ IsSurrogate u) :
    (Char.ofNat u.toNat).toNat = u.toNat := by
  have hlt := u.toNat_lt
  refine toNat_charOfNat ?_
  unfold IsSurrogate at h
  unfold Nat.isValidChar
  omega

theorem units_ofUnit (u : UInt16) : (CodePoint.ofUnit u).units = [u] := by
  have hlt : u.toNat < 0x10000 := u.toNat_lt
  rw [CodePoint.ofUnit]
  split_ifs with h
  · rfl
  · rw [CodePoint.units, toNat_charOfNat_unit h, if_pos hlt, UInt16.ofNat_toNat]

theorem units_ofSurrogatePair {u v : UInt16} (hu : IsLeadingSurrogate u)
    (hv : IsTrailingSurrogate v) : (CodePoint.char (ofSurrogatePair u v)).units = [u, v] := by
  obtain ⟨hu, hu'⟩ := hu
  obtain ⟨hv, hv'⟩ := hv
  rw [CodePoint.units, ofSurrogatePair, toNat_charOfNat (.inr ⟨by omega, by omega⟩),
    if_neg (by omega), Nat.add_sub_cancel]
  have hlead : 0xd800 + ((u.toNat - 0xd800) * 0x400 + (v.toNat - 0xdc00)) / 0x400 = u.toNat := by
    omega
  have htrail : 0xdc00 + ((u.toNat - 0xd800) * 0x400 + (v.toNat - 0xdc00)) % 0x400 = v.toNat := by
    omega
  rw [hlead, htrail, UInt16.ofNat_toNat, UInt16.ofNat_toNat]

/-- The code units come back in their order. -/
theorem flatMap_units_codePoints (t : Text) : (codePoints t).flatMap CodePoint.units = t := by
  induction t using codePoints.induct with
  | case1 => rfl
  | case2 u => rw [codePoints, List.flatMap_singleton, units_ofUnit]
  | case3 u v t h ih =>
    rw [codePoints, if_pos h, List.flatMap_cons, units_ofSurrogatePair h.1 h.2, ih]
    rfl
  | case4 u v t h ih =>
    rw [codePoints, if_neg h, List.flatMap_cons, units_ofUnit, ih]
    rfl

theorem codePoints_injective : Function.Injective codePoints :=
  Function.LeftInverse.injective flatMap_units_codePoints

/-- The code units of a string of characters. -/
def codeUnits (s : String) : Text := s.toList.flatMap fun c ↦ (CodePoint.char c).units

/-- The unit of a character that has only one is no surrogate. -/
theorem ofUnit_ofNat {c : Char} (h : c.toNat < 0x10000) :
    (UInt16.ofNat c.toNat).toNat = c.toNat ∧ ¬ IsSurrogate (.ofNat c.toNat) ∧
      CodePoint.ofUnit (.ofNat c.toNat) = .char c := by
  have htoNat : (UInt16.ofNat c.toNat).toNat = c.toNat := UInt16.toNat_ofNat_of_lt' h
  have hvalid : c.toNat.isValidChar := c.valid
  have hnot : ¬ IsSurrogate (.ofNat c.toNat) := by
    unfold IsSurrogate
    unfold Nat.isValidChar at hvalid
    omega
  refine ⟨htoNat, hnot, ?_⟩
  rw [CodePoint.ofUnit, dif_neg hnot, htoNat, Char.ofNat_toNat]

/-- A character is read back from the front of a text. -/
theorem codePoints_units_append (c : Char) (t : Text) :
    codePoints ((CodePoint.char c).units ++ t) = .char c :: codePoints t := by
  rw [CodePoint.units]
  split_ifs with hsmall
  · obtain ⟨-, hnot, hchar⟩ := ofUnit_ofNat hsmall
    have hlead : ¬ IsLeadingSurrogate (.ofNat c.toNat) := fun h ↦ hnot ⟨h.1, h.2.trans (by decide)⟩
    rcases t with - | ⟨v, t⟩
    · exact congrArg (· :: []) hchar
    · rw [List.singleton_append, codePoints, if_neg fun h ↦ hlead h.1, hchar]
  · -- the two halves are a pair, and stand for the character
    have hlarge : c.toNat < 0x110000 := by
      rcases c.valid with h | h
      · exact h.trans (by decide)
      · exact h.2
    have hsize : UInt16.size = 0x10000 := rfl
    have hlead : (UInt16.ofNat (0xd800 + (c.toNat - 0x10000) / 0x400)).toNat =
        0xd800 + (c.toNat - 0x10000) / 0x400 := UInt16.toNat_ofNat_of_lt' (by omega)
    have htrail : (UInt16.ofNat (0xdc00 + (c.toNat - 0x10000) % 0x400)).toNat =
        0xdc00 + (c.toNat - 0x10000) % 0x400 := UInt16.toNat_ofNat_of_lt' (by omega)
    rw [List.cons_append, List.singleton_append, codePoints, if_pos, ofSurrogatePair, hlead, htrail]
    · have hsum : (0xd800 + (c.toNat - 0x10000) / 0x400 - 0xd800) * 0x400 +
          (0xdc00 + (c.toNat - 0x10000) % 0x400 - 0xdc00) + 0x10000 = c.toNat := by omega
      rw [hsum, Char.ofNat_toNat]
    · constructor
      · rw [IsLeadingSurrogate, hlead]
        omega
      · rw [IsTrailingSurrogate, htrail]
        omega

theorem codePoints_codeUnits (s : String) : codePoints (codeUnits s) = s.toList.map .char := by
  unfold codeUnits
  induction s.toList with
  | nil => rfl
  | cons c l ih => rw [List.flatMap_cons, codePoints_units_append, ih, List.map_cons]

theorem codeUnits_injective : Function.Injective codeUnits := by
  intro s t h
  have hpoints := congrArg codePoints h
  rw [codePoints_codeUnits, codePoints_codeUnits] at hpoints
  have hchar : Function.Injective CodePoint.char := fun _ _ hcd ↦ CodePoint.char.inj hcd
  exact String.toList_inj.1 (List.map_injective_iff.2 hchar hpoints)

/-- What the comparisons of strings go by. -/
def stringOrder (s : String) : List ℕ := (codeUnits s).map UInt16.toNat

theorem stringOrder_injective : Function.Injective stringOrder := fun _ _ h ↦
  codeUnits_injective (List.map_injective_iff.2 (fun _ _ ↦ UInt16.toNat.inj) h)

/-! ### Hexadecimal digits -/

/-- The value of a digit, in either case. -/
def hexValue? (c : Char) : Option ℕ :=
  if '0' ≤ c ∧ c ≤ '9' then some (c.toNat - '0'.toNat)
  else if 'a' ≤ c ∧ c ≤ 'f' then some (c.toNat - 'a'.toNat + 10)
  else if 'A' ≤ c ∧ c ≤ 'F' then some (c.toNat - 'A'.toNat + 10)
  else none

/-- `digest("hex")`: two digits a byte, in lower case. -/
def toHex (b : List UInt8) : List Char :=
  b.flatMap fun x ↦ [Nat.digitChar (x.toNat / 16), Nat.digitChar (x.toNat % 16)]

/-- `Buffer.from(s, "hex")`, which stops where there are not two digits. -/
def bufferFromHex : List Char → List UInt8
  | a :: b :: s =>
    match hexValue? a, hexValue? b with
    | some x, some y => .ofNat (16 * x + y) :: bufferFromHex s
    | _, _ => []
  | _ => []

theorem hexValue?_digitChar {n : ℕ} (h : n < 16) : hexValue? (Nat.digitChar n) = some n :=
  (by decide : ∀ n : Fin 16, hexValue? (Nat.digitChar n) = some n.val) ⟨n, h⟩

theorem length_toHex (b : List UInt8) : (toHex b).length = 2 * b.length := by
  rw [toHex, List.length_flatMap]
  simp [Nat.mul_comm]

theorem isSome_hexValue?_toHex {b : List UInt8} : ∀ c ∈ toHex b, (hexValue? c).isSome := by
  intro c hc
  obtain ⟨x, -, hc⟩ := List.mem_flatMap.1 hc
  have hlt : x.toNat < 256 := x.toNat_lt
  rcases List.mem_pair.1 hc with rfl | rfl
  · rw [hexValue?_digitChar (by omega), Option.isSome_some]
  · rw [hexValue?_digitChar (by omega), Option.isSome_some]

theorem bufferFromHex_toHex (b : List UInt8) : bufferFromHex (toHex b) = b := by
  induction b with
  | nil => rfl
  | cons x b ih =>
    have hlt : x.toNat < 256 := x.toNat_lt
    have hbyte : 16 * (x.toNat / 16) + x.toNat % 16 = x.toNat := Nat.div_add_mod _ _
    show bufferFromHex (Nat.digitChar (x.toNat / 16) :: Nat.digitChar (x.toNat % 16) :: toHex b) = _
    rw [bufferFromHex, hexValue?_digitChar (by omega), hexValue?_digitChar (by omega)]
    show UInt8.ofNat (16 * (x.toNat / 16) + x.toNat % 16) :: bufferFromHex (toHex b) = _
    rw [hbyte, UInt8.ofNat_toNat, ih]

/-! ### Bytes of a text -/

/-- The bytes that a text is hashed as. -/
def utf8 (s : List Char) : List UInt8 := s.flatMap String.utf8EncodeChar

theorem utf8_injective : Function.Injective utf8 := by
  intro s t h
  have hbytes : s.utf8Encode = t.utf8Encode := congrArg List.toByteArray h
  rw [← String.toByteArray_ofList, ← String.toByteArray_ofList] at hbytes
  exact String.ofList_injective (String.toByteArray_inj.1 hbytes)

/-! ### `JSON.stringify` of a string -/

/-- The characters with an escape of their own. -/
def singleEscapes : List (Char × Char) :=
  [('\x08', 'b'), ('\t', 't'), ('\n', 'n'), ('\x0c', 'f'), ('\r', 'r'), ('"', '"'), ('\\', '\\')]

/-- `UnicodeEscape`. -/
def unicodeEscape (n : ℕ) : List Char :=
  ['\\', 'u', Nat.digitChar (n / 0x1000), Nat.digitChar (n / 0x100 % 16), Nat.digitChar (n / 16 % 16),
    Nat.digitChar (n % 16)]

def escape : CodePoint → List Char
  | .char c =>
    match singleEscapes.find? (·.1 = c) with
    | some e => ['\\', e.2]
    | none => if c < ' ' then unicodeEscape c.toNat else [c]
  | .lone u _ => unicodeEscape u.toNat

/-- `QuoteJSONString`. -/
def quote (t : Text) : List Char := '"' :: (codePoints t).flatMap escape ++ ['"']

/-- The number of four hexadecimal digits. -/
def readUnit (a b c d : Char) : UInt16 :=
  .ofNat ([a, b, c, d].foldl (fun n digit ↦ 16 * n + (hexValue? digit).getD 0) 0)

/-- The code point in front of an escaped text, and what follows it. -/
def readEscaped : List Char → Option (CodePoint × List Char)
  | [] => none
  | c :: s =>
    if c ≠ '\\' then some (.char c, s)
    else
      match s with
      | 'u' :: a :: b :: c :: d :: s => some (.ofUnit (readUnit a b c d), s)
      | tag :: s => (singleEscapes.find? (·.2 = tag)).map fun e ↦ (.char e.1, s)
      | [] => none

theorem readEscaped_unicodeEscape (u : UInt16) (s : List Char) :
    readEscaped (unicodeEscape u.toNat ++ s) = some (.ofUnit u, s) := by
  have hlt : u.toNat < 0x10000 := u.toNat_lt
  show some (CodePoint.ofUnit (readUnit _ _ _ _), s) = _
  have hunit : readUnit (Nat.digitChar (u.toNat / 0x1000)) (Nat.digitChar (u.toNat / 0x100 % 16))
      (Nat.digitChar (u.toNat / 16 % 16)) (Nat.digitChar (u.toNat % 16)) = u := by
    rw [readUnit, List.foldl_cons, List.foldl_cons, List.foldl_cons, List.foldl_cons, List.foldl_nil,
      hexValue?_digitChar (by omega), hexValue?_digitChar (by omega), hexValue?_digitChar (by omega),
      hexValue?_digitChar (by omega)]
    have hdigits : 16 * (16 * (16 * (16 * 0 + u.toNat / 0x1000) + u.toNat / 0x100 % 16) +
        u.toNat / 16 % 16) + u.toNat % 16 = u.toNat := by omega
    simp only [Option.getD_some]
    rw [hdigits, UInt16.ofNat_toNat]
  rw [hunit]

/-- The table is read in both directions. -/
theorem readEscaped_singleEscape {e : Char × Char} (he : e ∈ singleEscapes) (s : List Char) :
    readEscaped ('\\' :: e.2 :: s) = some (.char e.1, s) := by
  simp only [singleEscapes, List.mem_cons, List.not_mem_nil, or_false] at he
  rcases he with rfl | rfl | rfl | rfl | rfl | rfl | rfl <;> rfl

theorem readEscaped_escape (p : CodePoint) (s : List Char) :
    readEscaped (escape p ++ s) = some (p, s) := by
  rcases p with c | ⟨u, hu⟩
  · rw [escape]
    split
    · -- an escape of its own
      rename_i e he
      rw [← of_decide_eq_true (List.find?_some he :)]
      exact readEscaped_singleEscape (List.mem_of_find?_eq_some he) s
    · rename_i hnone
      split_ifs with hc
      · obtain ⟨htoNat, -, hunit⟩ := ofUnit_ofNat (c := c) (lt_trans hc (by decide))
        rw [← htoNat, readEscaped_unicodeEscape, hunit]
      · -- the character itself, which cannot be a backslash: that one is in the table
        have hne : c ≠ '\\' := by
          rintro rfl
          exact absurd hnone (by decide)
        exact if_pos hne
  · rw [escape, readEscaped_unicodeEscape, CodePoint.ofUnit, dif_pos hu]

theorem prefixCode_escape : List.PrefixCode escape := .of_read readEscaped readEscaped_escape

/-- No escaped code point starts with a quotation mark. -/
theorem exists_escape_eq_cons (p : CodePoint) : ∃ c u, escape p = c :: u ∧ c ≠ '"' := by
  rcases p with c | ⟨u, hu⟩
  · rw [escape]
    split
    · exact ⟨_, _, rfl, by decide⟩
    · rename_i hnone
      split_ifs
      · exact ⟨_, _, rfl, by decide⟩
      · refine ⟨c, [], rfl, ?_⟩
        rintro rfl
        exact absurd hnone (by decide)
  · exact ⟨_, _, rfl, by decide⟩

/-- **Where a quoted string ends, and which it is, can be seen.** -/
theorem prefixCode_quote : List.PrefixCode quote := by
  intro t t' r s h
  simp only [quote, List.flatMap_def, List.cons_append, List.append_assoc, List.cons.injEq, true_and,
    List.nil_append] at h
  have hrange {p : List CodePoint} : ∀ u ∈ p.map escape, u ∈ Set.range escape :=
    List.forall_mem_map.2 fun p _ ↦ ⟨p, rfl⟩
  obtain ⟨hwords, hrs⟩ := List.eq_and_eq_of_flatten Set.univ (Set.range escape) (Set.mem_univ _)
    (by
      rintro _ ⟨p, rfl⟩
      obtain ⟨c, u, hp, hc⟩ := exists_escape_eq_cons p
      exact ⟨c, u, hp, Set.mem_univ c, hc⟩)
    (List.forall_mem_map.2 fun p _ ↦ ⟨⟨p, rfl⟩, prefixCode_escape.delimited p⟩) hrange h
  have hpoints := List.map_injective_iff.2 prefixCode_escape.injective hwords
  exact ⟨codePoints_injective hpoints, hrs⟩

example : quote [0x61, 0x22, 0xa, 0x1, 0xd83d, 0xde00, 0xde00] =
    "\"a\\\"\\n\\u0001😀\\ude00\"".toList := by decide +kernel

end TolPlatform
