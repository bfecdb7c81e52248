import Mathlib.Data.List.DropRight
import TolPlatform.Crypto.Sealing
import TolPlatform.Shared.Errors
import TolPlatform.Shared.Language
import TolPlatform.Shared.Text

/-!
# Configured keys

`parseKeyHex` of `packages/crypto/src/keys.ts`: a key-encryption key, or the key that signs receipts, from
the text that the environment holds.

What is accepted is, up to blanks around it and the case of its letters, the hexadecimal text of a key of
32 bytes, and of that key (`parseKeyHex_exact`). What is refused is refused with an error that tells the
configured name and how many characters there were, and nothing else about the text.
-/

namespace TolPlatform.Crypto

/-- `KEY_HEX_LENGTH`. -/
def keyHexLength : ℕ := 64

/-- `/^[0-9a-fA-F]{64}$/`. -/
def isKeyHex (s : List Char) : Bool := s.length = keyHexLength ∧ s.all fun c ↦ (hexValue? c).isSome

/-- A `MissingKeyMaterialError` for an absent or empty text. -/
def missingKey (label : String) : Thrown :=
  .error s!"{label} is missing — required 32-byte key material ({keyHexLength} hex chars) was not found in config"

/-- One for a text that is something else, of so many characters. -/
def malformedKey (label : String) (length : ℕ) : Thrown :=
  .error s!"{label} is malformed — expected exactly {keyHexLength} hex characters (32 bytes), got {length} character(s)"

def parseKeyHex (hex : Option String) (label : String) : Except Thrown Bytes := do
  let hex ← orThrow (hex.filter (· ≠ "")) (missingKey label)
  let trimmed := trim hex
  throwIf (isKeyHex trimmed.toList = false) (malformedKey label (utf16Length trimmed))
  return bufferFromHex trimmed.toList

/-! ### Trimming -/

section

variable {before middle after : List Char}

theorem dropWhile_append_of_all {p : Char → Bool} (h : ∀ c ∈ before, p c) :
    (before ++ middle).dropWhile p = middle.dropWhile p := by
  induction before with
  | nil => rfl
  | cons c before ih =>
    rw [List.cons_append, List.dropWhile_cons_of_pos (h c List.mem_cons_self)]
    exact ih fun d hd ↦ h d (List.mem_cons_of_mem _ hd)

/-- What `trim()` takes off is blank. -/
theorem exists_eq_append_trim (s : String) : ∃ before after : List Char,
    s.toList = before ++ (trim s).toList ++ after ∧ (∀ c ∈ before, isSpace c) ∧
      ∀ c ∈ after, isSpace c := by
  have htrim : (trim s).toList = (s.toList.dropWhile isSpace).rdropWhile isSpace :=
    String.toList_ofList
  refine ⟨s.toList.takeWhile isSpace, (s.toList.dropWhile isSpace).rtakeWhile isSpace, ?_,
    fun c hc ↦ List.mem_takeWhile_imp hc, fun c hc ↦ List.mem_rtakeWhile_imp hc⟩
  rw [htrim, List.append_assoc, List.rdropWhile_append_rtakeWhile, List.takeWhile_append_dropWhile]

/-- And it takes off all blanks around a text that begins and ends with something else. -/
theorem trim_append (hbefore : ∀ c ∈ before, isSpace c) (hafter : ∀ c ∈ after, isSpace c)
    (hmiddle : ∀ c ∈ middle, isSpace c = false) (hne : middle ≠ []) :
    (trim (String.ofList (before ++ middle ++ after))).toList = middle := by
  have hdrop {l rest : List Char} (hl : ∀ c ∈ l, isSpace c = false) (hne : l ≠ []) :
      (l ++ rest).dropWhile isSpace = l ++ rest := by
    obtain ⟨c, l, rfl⟩ := List.exists_cons_of_ne_nil hne
    exact List.dropWhile_cons_of_neg (Bool.eq_false_iff.1 (hl c List.mem_cons_self))
  have hmiddle' : ∀ c ∈ middle.reverse, isSpace c = false := fun c hc ↦
    hmiddle c (List.mem_reverse.1 hc)
  rw [trim, String.toList_ofList, String.toList_ofList, List.append_assoc,
    dropWhile_append_of_all hbefore, hdrop hmiddle hne, List.reverse_append,
    dropWhile_append_of_all fun c hc ↦ hafter c (List.mem_reverse.1 hc)]
  have hrest : (middle.reverse ++ []).dropWhile isSpace = middle.reverse ++ [] :=
    hdrop hmiddle' (mt List.reverse_eq_nil_iff.1 hne)
  rw [List.append_nil] at hrest
  rw [hrest, List.reverse_reverse]

end

/-! ### Digits in either case -/

section

variable {P : Char → Prop} {c : Char}

/-- The `m` characters from `a` on, one by one. -/
theorem of_range {a : Char} {m : ℕ} (h : ∀ k : Fin m, P (.ofNat (a.toNat + k))) (ha : a ≤ c)
    (hc : c.toNat < a.toNat + m) : P c := by
  have hle : a.toNat ≤ c.toNat := UInt32.le_iff_toNat_le.1 (Char.le_def.1 ha)
  have hk := h ⟨c.toNat - a.toNat, by omega⟩
  rwa [Nat.add_sub_cancel' hle, Char.ofNat_toNat] at hk

/-- All hexadecimal digits. -/
theorem of_hexDigit (hdigit : ∀ k : Fin 10, P (.ofNat ('0'.toNat + k)))
    (hlower : ∀ k : Fin 6, P (.ofNat ('a'.toNat + k)))
    (hupper : ∀ k : Fin 6, P (.ofNat ('A'.toNat + k))) (h : (hexValue? c).isSome) : P c := by
  have hlt {b : Char} {n : ℕ} (hb : c ≤ b) (hn : b.toNat < n) : c.toNat < n :=
    (UInt32.le_iff_toNat_le.1 (Char.le_def.1 hb)).trans_lt hn
  unfold hexValue? at h
  split_ifs at h with h0 ha hA
  · exact of_range hdigit h0.1 (hlt h0.2 (by decide))
  · exact of_range hlower ha.1 (hlt ha.2 (by decide))
  · exact of_range hupper hA.1 (hlt hA.2 (by decide))
  · cases h

/-- A digit is the lower-case one of its value, or its capital. -/
theorem exists_toLower_eq_digitChar (h : (hexValue? c).isSome) :
    ∃ n : Fin 16, hexValue? c = some n.val ∧ c.toLower = Nat.digitChar n :=
  of_hexDigit (P := fun c ↦ ∃ n : Fin 16, hexValue? c = some n.val ∧ c.toLower = Nat.digitChar n)
    (by decide) (by decide) (by decide) h

theorem isSpace_of_hexDigit (h : (hexValue? c).isSome) : isSpace c = false :=
  of_hexDigit (P := fun c ↦ isSpace c = false) (by decide) (by decide) (by decide) h

theorem hexValue?_toLower (c : Char) : hexValue? c.toLower = hexValue? c := by
  by_cases h : 'A' ≤ c ∧ c ≤ 'Z'
  · refine of_range (P := fun c ↦ hexValue? c.toLower = hexValue? c) (m := 26) (by decide) h.1 ?_
    exact (UInt32.le_iff_toNat_le.1 (Char.le_def.1 h.2)).trans_lt (by decide)
  · exact congrArg hexValue? (dif_neg h)

end

theorem bufferFromHex_map_toLower (s : List Char) :
    bufferFromHex (s.map Char.toLower) = bufferFromHex s := by
  fun_induction bufferFromHex s with
  | case1 a b s x y hy hx ih =>
    rw [List.map_cons, List.map_cons, bufferFromHex, hexValue?_toLower, hexValue?_toLower, hx, hy]
    exact congrArg _ ih
  | case2 a b s hnone =>
    rw [List.map_cons, List.map_cons, bufferFromHex, hexValue?_toLower, hexValue?_toLower]
    rcases ha : hexValue? a with - | x
    · rfl
    · rcases hb : hexValue? b with - | y
      · rfl
      · exact (hnone x y ha hb).elim
  | case3 s hshort =>
    rcases s with _ | ⟨a, _ | ⟨b, s⟩⟩
    · rfl
    · rfl
    · exact (hshort a b s rfl).elim

/-- The text of the bytes of some digits is these digits, in lower case. -/
theorem toHex_bufferFromHex {s : List Char} (hdigits : ∀ c ∈ s, (hexValue? c).isSome)
    (heven : s.length % 2 = 0) : toHex (bufferFromHex s) = s.map Char.toLower := by
  fun_induction bufferFromHex s with
  | case1 a b s x y hy hx ih =>
    obtain ⟨ha, hb, hs⟩ := List.forall_mem_cons.1 hdigits |>.imp id List.forall_mem_cons.1
    obtain ⟨m, hm, hma⟩ := exists_toLower_eq_digitChar ha
    obtain ⟨n, hn, hnb⟩ := exists_toLower_eq_digitChar hb
    obtain rfl : m.val = x := Option.some.inj (hm.symm.trans hx)
    obtain rfl : n.val = y := Option.some.inj (hn.symm.trans hy)
    have htoNat : (UInt8.ofNat (16 * m + n)).toNat = 16 * m + n :=
      UInt8.toNat_ofNat_of_lt' (show 16 * m.val + n.val < 256 by omega)
    have hlength : s.length % 2 = 0 := by
      rw [List.length_cons, List.length_cons] at heven
      omega
    show Nat.digitChar _ :: Nat.digitChar _ :: toHex (bufferFromHex s) = _
    rw [htoNat, ih hs hlength, List.map_cons, List.map_cons, hma, hnb]
    have hhigh : (16 * m.val + n.val) / 16 = m := by omega
    have hlow : (16 * m.val + n.val) % 16 = n := by omega
    rw [hhigh, hlow]
  | case2 a b s hnone =>
    obtain ⟨ha, hb, -⟩ := List.forall_mem_cons.1 hdigits |>.imp id List.forall_mem_cons.1
    obtain ⟨x, hx⟩ := Option.isSome_iff_exists.1 ha
    obtain ⟨y, hy⟩ := Option.isSome_iff_exists.1 hb
    exact (hnone x y hx hy).elim
  | case3 s hshort =>
    rcases s with _ | ⟨a, _ | ⟨b, s⟩⟩
    · rfl
    · cases heven
    · exact (hshort a b s rfl).elim

/-! ### What is accepted -/

section

variable {hex : Option String} {label : String} {key : Bytes}

theorem isKeyHex_eq_true_iff {s : List Char} : isKeyHex s = true ↔
    s.length = keyHexLength ∧ ∀ c ∈ s, (hexValue? c).isSome := by
  rw [isKeyHex, decide_eq_true_iff, List.all_eq_true]

/-- The text of a key of the right length. -/
theorem isKeyHex_iff {s : List Char} : isKeyHex s = true ↔
    ∃ key : Bytes, key.length = aesKeyBytes ∧ s.map Char.toLower = toHex key := by
  rw [isKeyHex_eq_true_iff]
  constructor
  · rintro ⟨hlength, hdigits⟩
    have htext : toHex (bufferFromHex s) = s.map Char.toLower :=
      toHex_bufferFromHex hdigits (by rw [hlength]; rfl)
    refine ⟨bufferFromHex s, ?_, htext.symm⟩
    have hdouble := congrArg List.length htext
    rw [length_toHex, List.length_map, hlength] at hdouble
    exact Nat.eq_of_mul_eq_mul_left two_pos hdouble
  · rintro ⟨key, hkey, htext⟩
    have hlength := congrArg List.length htext
    rw [length_toHex, List.length_map, hkey] at hlength
    refine ⟨hlength, fun c hc ↦ ?_⟩
    rw [← hexValue?_toLower]
    exact isSome_hexValue?_toHex _ (htext ▸ List.mem_map_of_mem hc)

theorem bufferFromHex_eq_of_map_toLower {s : List Char} (h : s.map Char.toLower = toHex key) :
    bufferFromHex s = key := by
  rw [← bufferFromHex_map_toLower, h, bufferFromHex_toHex]

theorem parseKeyHex_eq_ok_trim_iff : parseKeyHex hex label = .ok key ↔
    ∃ s, hex = some s ∧ s ≠ "" ∧ isKeyHex (trim s).toList = true ∧
      bufferFromHex (trim s).toList = key := by
  rw [parseKeyHex, Except.bind_eq_ok']
  simp only [orThrow_eq_ok_iff, Except.bind_eq_ok', throwIf_eq_ok_iff, Bool.not_eq_false,
    Option.filter_eq_some_iff, decide_eq_true_iff]
  constructor
  · rintro ⟨s, ⟨hs, hne⟩, -, hhex, hret⟩
    exact ⟨s, hs, hne, hhex, Except.ok.inj hret⟩
  · rintro ⟨s, hs, hne, hhex, rfl⟩
    exact ⟨s, ⟨hs, hne⟩, ⟨⟩, hhex, rfl⟩

/-- A key from the environment has the length that the cipher asks for. -/
theorem length_of_parseKeyHex (h : parseKeyHex hex label = .ok key) : key.length = aesKeyBytes := by
  obtain ⟨s, -, -, hhex, rfl⟩ := parseKeyHex_eq_ok_trim_iff.1 h
  obtain ⟨key, hkey, htext⟩ := isKeyHex_iff.1 hhex
  rw [bufferFromHex_eq_of_map_toLower htext]
  exact hkey

/-- A text is refused by its trimmed length. -/
theorem eq_malformedKey_of_error {s : String} (hne : s ≠ "") {e : Thrown}
    (h : parseKeyHex (some s) label = .error e) :
    e = malformedKey label (utf16Length (trim s)) := by
  have hpresent : orThrow ((some s).filter (· ≠ "")) (missingKey label) = .ok s :=
    orThrow_eq_ok_iff.2 (if_pos (decide_eq_true hne))
  have hcheck : Except.ThrowsIn (· = malformedKey label (utf16Length (trim s)))
      (throwIf (isKeyHex (trim s).toList = false)
        (malformedKey label (utf16Length (trim s)))) := by
    intro e he
    unfold throwIf at he
    split_ifs at he
    exact (Except.error.inj he).symm
  have hbind (f : String → Except Thrown Bytes) : (Except.ok s >>= f) = f s := rfl
  rw [parseKeyHex, hpresent, hbind] at h
  exact hcheck.bind (fun _ ↦ Except.throwsIn_ok _) e h

/-- **What is a key.** Around the text of a key there may be blanks, and its letters may be capitals; and
what is not accepted is refused with an error that tells no more than how long it was. -/
theorem parseKeyHex_exact (label : String) :
    (∀ hex key, parseKeyHex hex label = .ok key ↔ key.length = aesKeyBytes ∧
      ∃ before digits after : List Char, hex = some (String.ofList (before ++ digits ++ after)) ∧
        (∀ c ∈ before, isSpace c) ∧ (∀ c ∈ after, isSpace c) ∧
          digits.map Char.toLower = toHex key) ∧
    ∀ s s' e e', s ≠ "" → s' ≠ "" → utf16Length (trim s) = utf16Length (trim s') →
      parseKeyHex (some s) label = .error e → parseKeyHex (some s') label = .error e' → e = e' := by
  refine ⟨fun hex key ↦ ?_, fun s s' e e' hs hs' hlength h h' ↦ ?_⟩
  · rw [parseKeyHex_eq_ok_trim_iff]
    constructor
    · rintro ⟨s, rfl, -, hhex, rfl⟩
      obtain ⟨key, hkey, htext⟩ := isKeyHex_iff.1 hhex
      obtain ⟨before, after, happend, hbefore, hafter⟩ := exists_eq_append_trim s
      rw [bufferFromHex_eq_of_map_toLower htext]
      refine ⟨hkey, before, (trim s).toList, after, ?_, hbefore, hafter, htext⟩
      rw [← happend, String.ofList_toList]
    · rintro ⟨hkey, before, digits, after, rfl, hbefore, hafter, htext⟩
      have hhex : isKeyHex digits = true := isKeyHex_iff.2 ⟨key, hkey, htext⟩
      obtain ⟨hlength, hdigits⟩ := isKeyHex_eq_true_iff.1 hhex
      have hne : digits ≠ [] := List.ne_nil_of_length_pos (hlength ▸ by decide)
      have htrim := trim_append hbefore hafter (fun c hc ↦ isSpace_of_hexDigit (hdigits c hc)) hne
      refine ⟨_, rfl, fun hempty ↦ ?_, htrim.symm ▸ hhex, ?_⟩
      · have hnil := congrArg String.toList hempty
        rw [String.toList_ofList, String.toList_empty, List.append_eq_nil_iff,
          List.append_eq_nil_iff] at hnil
        exact hne hnil.1.2
      · rw [htrim, bufferFromHex_eq_of_map_toLower htext]
  · rw [eq_malformedKey_of_error hs h, eq_malformedKey_of_error hs' h', hlength]

end

end TolPlatform.Crypto
