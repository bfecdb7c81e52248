import TolPlatform.Shared.Numbers
import TolPlatform.Shared.Text
import TolPlatform.Library.Sorting
import Mathlib.Data.List.Lex

/-!
# Canonical JSON

`canonicalJson` of `packages/crypto/src/receipt.ts`: `JSON.stringify` without blanks and with the keys of
every object sorted. A key is compared by its code units, as `Array.prototype.sort` does.

Two JSON values have one text exactly when they are equal up to the order of object keys
(`canonicalJson_eq_iff`). One direction holds because sorting forgets the order. For the other, every text
is delimited by the symbols that may come after it (`delimited_canonicalJson`), so that the elements of an
array and the entries of an object are read back. `undefined` and the numbers that are not finite are
written as `null` is, and are no JSON values; the two zeros are one number.
-/

namespace TolPlatform.Crypto

/-- A value that an unchecked payload may hold. Arrays have no holes, and the keys of an object are
distinct. -/
inductive Value
  | undefined
  | null
  | boolean (b : Bool)
  | number (x : Number)
  | string (s : Text)
  | array {n : ℕ} (items : Fin n → Value)
  | object (keys : List Text) (keys_nodup : keys.Nodup) (values : Fin keys.length → Value)

/-- What JSON can hold: nothing undefined, and finite numbers only. -/
def Value.IsJson : Value → Prop
  | .undefined => False
  | .null | .boolean _ | .string _ => True
  | .number x => ∃ d, x = .finite d
  | .array items => ∀ i, (items i).IsJson
  | .object _ _ values => ∀ i, (values i).IsJson

/-- Equality of JSON values, whatever order the keys of an object are in. -/
inductive Value.EqualUpToKeyOrder : Value → Value → Prop
  | refl (a : Value) : EqualUpToKeyOrder a a
  | array {n : ℕ} {items items' : Fin n → Value} (h : ∀ i, EqualUpToKeyOrder (items i) (items' i)) :
    EqualUpToKeyOrder (.array items) (.array items')
  | object {keys keys' : List Text} {keys_nodup : keys.Nodup} {keys_nodup' : keys'.Nodup}
    {values : Fin keys.length → Value} {values' : Fin keys'.length → Value}
    (hkeys : ∀ k, k ∈ keys ↔ k ∈ keys')
    (hvalues : ∀ i j, keys.get i = keys'.get j → EqualUpToKeyOrder (values i) (values' j)) :
    EqualUpToKeyOrder (.object keys keys_nodup values) (.object keys' keys_nodup' values')

theorem Value.equalUpToKeyOrder_string_iff {s t : Text} :
    (Value.string s).EqualUpToKeyOrder (.string t) ↔ s = t := by
  constructor
  · intro h
    cases h
    rfl
  · rintro rfl
    exact .refl _

theorem Value.equalUpToKeyOrder_object_iff {keys keys' : List Text} {hnodup : keys.Nodup}
    {hnodup' : keys'.Nodup} {values : Fin keys.length → Value} {values' : Fin keys'.length → Value} :
    (Value.object keys hnodup values).EqualUpToKeyOrder (.object keys' hnodup' values') ↔
      (∀ k, k ∈ keys ↔ k ∈ keys') ∧
        ∀ i j, keys.get i = keys'.get j → (values i).EqualUpToKeyOrder (values' j) := by
  constructor
  · intro h
    cases h with
    | refl =>
      refine ⟨fun _ ↦ Iff.rfl, fun i j hij ↦ ?_⟩
      obtain rfl := List.nodup_iff_injective_get.1 hnodup hij
      exact .refl _
    | object hkeys hvalues => exact ⟨hkeys, hvalues⟩
  · exact fun h ↦ .object h.1 h.2

/-! ### `canonicalJson` -/

/-- `JSON.stringify` of a number. -/
def stringifyNumber : Number → List Char
  | .finite x => x.chars
  | .infinity _ | .nan => "null".toList

/-- An array, from the texts of its elements. -/
def arrayText (items : List (List Char)) : List Char :=
  '[' :: [','].intercalate items ++ [']']

/-- The order of keys: by code units. -/
def keyOrder (entry : Text × List Char) : List ℕ := entry.1.map UInt16.toNat

def entryText (entry : Text × List Char) : List Char := quote entry.1 ++ ':' :: entry.2

/-- An object, from its keys and the texts of their values. -/
def objectText (entries : List (Text × List Char)) : List Char :=
  '\x7b' :: [','].intercalate ((entries.sortOn keyOrder).map entryText) ++ ['\x7d']

/-- The entries of an object, each value as its text. -/
def entriesOf (keys : List Text) (texts : Fin keys.length → List Char) :
    List (Text × List Char) :=
  List.ofFn fun i ↦ (keys.get i, texts i)

def canonicalJson : Value → List Char
  -- `undefined` is caught before `JSON.stringify`, which would return no text for it
  | .undefined | .null => "null".toList
  | .boolean true => "true".toList
  | .boolean false => "false".toList
  | .number x => stringifyNumber x
  | .string s => quote s
  | .array items => arrayText (List.ofFn fun i ↦ canonicalJson (items i))
  | .object keys _ values => objectText (entriesOf keys fun i ↦ canonicalJson (values i))

/-! ### Where a text ends -/

/-- What may come after a value. -/
def stops : Set Char := {',', ']', '\x7d'}

instance : DecidablePred (· ∈ stops) := fun c ↦
  inferInstanceAs (Decidable (c = ',' ∨ c = ']' ∨ c = '\x7d'))

/-- The texts of JSON values. -/
def jsonTexts : Set (List Char) := {t | ∃ a : Value, a.IsJson ∧ canonicalJson a = t}

/-- What kind of value a text is of can be seen at its first symbol. -/
inductive Shape
  | bare | string | array | object
  deriving DecidableEq

def shapeOf (c : Char) : Shape :=
  if c = '"' then .string else if c = '[' then .array else if c = '\x7b' then .object else .bare

def Value.shape : Value → Shape
  | .undefined | .null | .boolean _ | .number _ => .bare
  | .string _ => .string
  | .array _ => .array
  | .object _ _ _ => .object

theorem bare_cases {a : Value} (ha : a.IsJson) (hbare : a.shape = .bare) :
    a = .null ∨ (∃ b, a = .boolean b) ∨ ∃ d, a = .number (.finite d) := by
  cases a with
  | undefined => exact ha.elim
  | null => exact .inl rfl
  | boolean b => exact .inr (.inl ⟨b, rfl⟩)
  | number x =>
    obtain ⟨d, rfl⟩ := ha
    exact .inr (.inr ⟨d, rfl⟩)
  | string s => cases hbare
  | array items => cases hbare
  | object keys _ values => cases hbare

theorem notMem_stops_of_all {l : List Char} (h : l.all (· ∉ stops)) : ∀ c ∈ l, c ∉ stops :=
  fun c hc ↦ of_decide_eq_true (List.all_eq_true.1 h c hc)

/-- A bare text has no stops. -/
theorem notMem_stops {a : Value} (ha : a.IsJson) (hbare : a.shape = .bare) :
    ∀ c ∈ canonicalJson a, c ∉ stops := by
  rcases bare_cases ha hbare with rfl | ⟨b, rfl⟩ | ⟨d, rfl⟩
  · exact notMem_stops_of_all (l := "null".toList) (by decide)
  · cases b
    · exact notMem_stops_of_all (l := "false".toList) (by decide)
    · exact notMem_stops_of_all (l := "true".toList) (by decide)
  · intro c hc hstop
    have hchar := d.isNumberChar_chars c hc
    rcases hstop with rfl | rfl | rfl <;> exact absurd hchar (by decide)

theorem exists_canonicalJson_eq_cons {a : Value} (ha : a.IsJson) :
    ∃ c u, canonicalJson a = c :: u ∧ c ∉ stops ∧ shapeOf c = a.shape := by
  cases a with
  | undefined => exact ha.elim
  | null => exact ⟨'n', "ull".toList, rfl, by decide, by decide⟩
  | boolean b =>
    cases b
    · exact ⟨'f', "alse".toList, rfl, by decide, by decide⟩
    · exact ⟨'t', "rue".toList, rfl, by decide, by decide⟩
  | number x =>
    have hstops := notMem_stops ha rfl
    obtain ⟨d, rfl⟩ := ha
    obtain ⟨c, u, hchars, -⟩ := d.head_chars
    have hc := d.isNumberChar_chars c (hchars ▸ List.mem_cons_self)
    refine ⟨c, u, hchars, hstops c ?_, ?_⟩
    · show c ∈ d.chars
      rw [hchars]
      exact List.mem_cons_self
    · rw [shapeOf]
      split_ifs with h h h
      · exact absurd (h ▸ hc) (by decide)
      · exact absurd (h ▸ hc) (by decide)
      · exact absurd (h ▸ hc) (by decide)
      · rfl
  | string s => exact ⟨_, _, rfl, by decide, rfl⟩
  | array items => exact ⟨_, _, rfl, by decide, rfl⟩
  | object keys _ values => exact ⟨_, _, rfl, by decide, rfl⟩

section

variable {a b : Value} {r s : List Char}

theorem shape_eq (ha : a.IsJson) (hb : b.IsJson) (h : canonicalJson a ++ r = canonicalJson b ++ s) :
    a.shape = b.shape := by
  obtain ⟨c, u, hac, -, hashape⟩ := exists_canonicalJson_eq_cons ha
  obtain ⟨c', u', hbc, -, hbshape⟩ := exists_canonicalJson_eq_cons hb
  rw [hac, hbc] at h
  rw [← hashape, ← hbshape, (List.cons.inj h).1]

theorem exists_jsonTexts_eq_cons : ∀ t ∈ jsonTexts, ∃ c u, t = c :: u ∧ c ∉ stops := by
  rintro _ ⟨a, ha, rfl⟩
  obtain ⟨c, u, hac, hc, -⟩ := exists_canonicalJson_eq_cons ha
  exact ⟨c, u, hac, hc⟩

/-- The elements of an array are read back. -/
theorem eq_and_eq_of_arrayText {l l' : List (List Char)}
    (hl : ∀ t ∈ l, t ∈ jsonTexts ∧ List.Delimited stops jsonTexts t) (hl' : ∀ t ∈ l', t ∈ jsonTexts)
    (h : arrayText l ++ r = arrayText l' ++ s) : l = l' ∧ r = s := by
  simp only [arrayText, List.cons_append, List.append_assoc, List.nil_append, List.cons.injEq,
    true_and] at h
  exact List.eq_and_eq_of_intercalate stops jsonTexts (.inl rfl) (.inr (.inl rfl)) (by decide)
    exists_jsonTexts_eq_cons hl hl' h

theorem entryText_append (e : Text × List Char) (r : List Char) :
    entryText e ++ r = quote e.1 ++ ':' :: (e.2 ++ r) := by
  rw [entryText, List.append_assoc, List.cons_append]

theorem entryText_injective : Function.Injective entryText := by
  intro e e' h
  obtain ⟨hkey, htext⟩ := prefixCode_quote h
  exact Prod.ext hkey (List.cons.inj htext).2

/-- The entries of an object are read back, in some order. -/
theorem perm_and_eq_of_objectText {l l' : List (Text × List Char)}
    (hl : ∀ e ∈ l, e.2 ∈ jsonTexts ∧ List.Delimited stops jsonTexts e.2)
    (hl' : ∀ e ∈ l', e.2 ∈ jsonTexts) (h : objectText l ++ r = objectText l' ++ s) :
    l.Perm l' ∧ r = s := by
  simp only [objectText, List.cons_append, List.append_assoc, List.nil_append, List.cons.injEq,
    true_and] at h
  have hwords : (l.sortOn keyOrder).map entryText = (l'.sortOn keyOrder).map entryText ∧ r = s := by
    refine List.eq_and_eq_of_intercalate stops (entryText '' {e | e.2 ∈ jsonTexts}) (.inl rfl)
      (.inr (.inr rfl)) (by decide) ?_ ?_ ?_ h
    · rintro _ ⟨e, -, rfl⟩
      exact ⟨'"', _, rfl, by decide⟩
    · refine List.forall_mem_map.2 fun e he ↦ ?_
      obtain ⟨htext, hdelimited⟩ := hl e (List.mem_sortOn.1 he)
      refine ⟨⟨e, htext, rfl⟩, ?_⟩
      rintro _ ⟨e', he', rfl⟩ r s hr hs heq
      rw [entryText_append, entryText_append] at heq
      exact hdelimited he' hr hs (List.cons.inj (prefixCode_quote heq).2).2
    · exact List.forall_mem_map.2 fun e he ↦ ⟨e, hl' e (List.mem_sortOn.1 he), rfl⟩
  have hsorted : l.sortOn keyOrder = l'.sortOn keyOrder :=
    List.map_injective_iff.2 entryText_injective hwords.1
  have hperm : (l.sortOn keyOrder).Perm l' := hsorted ▸ List.sortOn_perm keyOrder l'
  exact ⟨(List.sortOn_perm keyOrder l).symm.trans hperm, hwords.2⟩

theorem delimited_of_bare (ha : a.IsJson) (hbare : a.shape = .bare) :
    List.Delimited stops jsonTexts (canonicalJson a) := by
  rintro _ ⟨b, hb, rfl⟩ r s hr hs h
  have hbare' : b.shape = .bare := (shape_eq ha hb h).symm.trans hbare
  exact (List.eq_and_eq_of_notMem (notMem_stops ha hbare) (notMem_stops hb hbare') hr hs h).2

end

section

variable {keys : List Text} {texts : Fin keys.length → List Char} {e : Text × List Char}

theorem mem_entriesOf : e ∈ entriesOf keys texts ↔ ∃ i, (keys.get i, texts i) = e := by
  rw [entriesOf, List.mem_ofFn]

theorem map_fst_entriesOf : (entriesOf keys texts).map Prod.fst = keys := by
  rw [entriesOf, List.map_ofFn]
  exact List.ofFn_get keys

theorem length_entriesOf : (entriesOf keys texts).length = keys.length := List.length_ofFn

theorem nodup_entriesOf (h : keys.Nodup) : (entriesOf keys texts).Nodup :=
  .of_map Prod.fst (map_fst_entriesOf.symm ▸ h)

theorem nodup_map_keyOrder (h : keys.Nodup) : ((entriesOf keys texts).map keyOrder).Nodup := by
  have hinj : Function.Injective (List.map UInt16.toNat) :=
    List.map_injective_iff.2 fun _ _ ↦ UInt16.toNat.inj
  have hkeys : (((entriesOf keys texts).map Prod.fst).map (List.map UInt16.toNat)).Nodup := by
    rw [map_fst_entriesOf]
    exact h.map hinj
  rwa [List.map_map] at hkeys

end

/-- **Where the text of a JSON value ends can be seen**, by induction on the value. -/
theorem delimited_canonicalJson {a : Value} (ha : a.IsJson) :
    List.Delimited stops jsonTexts (canonicalJson a) := by
  induction a with
  | undefined => exact ha.elim
  | null => exact delimited_of_bare ha rfl
  | boolean b => exact delimited_of_bare ha rfl
  | number x => exact delimited_of_bare ha rfl
  | string t =>
    rintro _ ⟨b, hb, rfl⟩ r s - - h
    have hshape := shape_eq ha hb h
    cases b with
    | string t' => exact (prefixCode_quote h).2
    | _ => cases hshape
  | array items ih =>
    -- an array closes itself, whatever follows
    rintro _ ⟨b, hb, rfl⟩ r s - - h
    have hshape := shape_eq ha hb h
    cases b with
    | array items' =>
      refine (eq_and_eq_of_arrayText ?_ ?_ h).2
      · exact List.forall_mem_ofFn_iff.2 fun i ↦ ⟨⟨items i, ha i, rfl⟩, ih i (ha i)⟩
      · exact List.forall_mem_ofFn_iff.2 fun i ↦ ⟨items' i, hb i, rfl⟩
    | _ => cases hshape
  | object keys _ values ih =>
    rintro _ ⟨b, hb, rfl⟩ r s - - h
    have hshape := shape_eq ha hb h
    cases b with
    | object keys' _ values' =>
      refine (perm_and_eq_of_objectText ?_ ?_ h).2
      · exact List.forall_mem_ofFn_iff.2 fun i ↦ ⟨⟨values i, ha i, rfl⟩, ih i (ha i)⟩
      · exact List.forall_mem_ofFn_iff.2 fun i ↦ ⟨values' i, hb i, rfl⟩
    | _ => cases hshape

/-! ### Which value a text is of -/

theorem chars_ne_cons {d : Double} {c : Char} {u : List Char} (hdigit : ¬ c.isDigit) (hne : c ≠ '-') :
    d.chars ≠ c :: u := by
  intro h
  obtain ⟨c', u', hchars, hc'⟩ := d.head_chars
  obtain ⟨rfl, -⟩ := List.cons.inj (h.symm.trans hchars)
  exact hc'.elim hdigit hne

/-- A bare text is of one value only. -/
theorem eq_of_bare {a b : Value} (ha : a.IsJson) (hb : b.IsJson) (hbare : a.shape = .bare)
    (h : canonicalJson a = canonicalJson b) : a = b := by
  have hbare' : b.shape = .bare := (shape_eq ha hb (congrArg (· ++ []) h)).symm.trans hbare
  rcases bare_cases ha hbare with rfl | ⟨x, rfl⟩ | ⟨d, rfl⟩ <;>
    rcases bare_cases hb hbare' with rfl | ⟨y, rfl⟩ | ⟨d', rfl⟩
  · rfl
  · cases y <;> exact absurd h (by decide)
  · exact absurd h.symm (chars_ne_cons (by decide) (by decide))
  · cases x <;> exact absurd h (by decide)
  · cases x <;> cases y <;> first | rfl | exact absurd h (by decide)
  · cases x <;> exact absurd h.symm (chars_ne_cons (by decide) (by decide))
  · exact absurd h (chars_ne_cons (by decide) (by decide))
  · cases y <;> exact absurd h (chars_ne_cons (by decide) (by decide))
  · exact congrArg (Value.number ∘ Number.finite) (Double.chars_injective h)

theorem equalUpToKeyOrder_of_canonicalJson_eq {a b : Value} (ha : a.IsJson) (hb : b.IsJson)
    (h : canonicalJson a = canonicalJson b) : a.EqualUpToKeyOrder b := by
  have happend {a b : Value} (h : canonicalJson a = canonicalJson b) :
      canonicalJson a ++ [] = canonicalJson b ++ [] := congrArg (· ++ []) h
  induction a generalizing b with
  | undefined => exact ha.elim
  | null => exact eq_of_bare ha hb rfl h ▸ .refl _
  | boolean x => exact eq_of_bare ha hb rfl h ▸ .refl _
  | number x => exact eq_of_bare ha hb rfl h ▸ .refl _
  | string t =>
    have hshape := shape_eq ha hb (happend h)
    cases b with
    | string t' => exact prefixCode_quote.injective h ▸ .refl _
    | _ => cases hshape
  | @array n items ih =>
    have hshape := shape_eq ha hb (happend h)
    cases b with
    | @array n' items' =>
      have hwords := (eq_and_eq_of_arrayText
        (List.forall_mem_ofFn_iff.2 fun i ↦ ⟨⟨items i, ha i, rfl⟩, delimited_canonicalJson (ha i)⟩)
        (List.forall_mem_ofFn_iff.2 fun i ↦ ⟨items' i, hb i, rfl⟩) (happend h)).1
      obtain rfl : n = n' := by simpa using congrArg List.length hwords
      have htexts := List.ofFn_injective hwords
      exact .array fun i ↦ ih i (ha i) (hb i) (congrFun htexts i)
    | _ => cases hshape
  | object keys hnodup values ih =>
    have hshape := shape_eq ha hb (happend h)
    cases b with
    | object keys' hnodup' values' =>
      have hperm := (perm_and_eq_of_objectText
        (List.forall_mem_ofFn_iff.2 fun i ↦ ⟨⟨values i, ha i, rfl⟩, delimited_canonicalJson (ha i)⟩)
        (List.forall_mem_ofFn_iff.2 fun i ↦ ⟨values' i, hb i, rfl⟩) (happend h)).1
      have hkeys : keys.Perm keys' := by
        have hfst := hperm.map Prod.fst
        rwa [← entriesOf, ← entriesOf, map_fst_entriesOf, map_fst_entriesOf] at hfst
      refine .object (fun k ↦ hkeys.mem_iff) fun i j hij ↦ ih i (ha i) (hb j) ?_
      -- the entry of this key is in both objects, and there is only one
      obtain ⟨j', hj'⟩ := mem_entriesOf.1 (hperm.mem_iff.1 (mem_entriesOf.2 ⟨i, rfl⟩))
      obtain ⟨hkey, htext⟩ := Prod.mk.inj hj'
      obtain rfl := List.nodup_iff_injective_get.1 hnodup' (hkey.trans hij)
      exact htext.symm
    | _ => cases hshape

theorem canonicalJson_eq_of_equalUpToKeyOrder {a b : Value} (h : a.EqualUpToKeyOrder b) :
    canonicalJson a = canonicalJson b := by
  induction h with
  | refl a => rfl
  | array h ih => exact congrArg arrayText (congrArg List.ofFn (funext ih))
  | @object keys keys' hnodup hnodup' values values' hkeys hvalues ih =>
    have hsubset : entriesOf keys (fun i ↦ canonicalJson (values i)) ⊆
        entriesOf keys' fun i ↦ canonicalJson (values' i) := by
      intro e he
      obtain ⟨i, rfl⟩ := mem_entriesOf.1 he
      obtain ⟨j, hj⟩ := List.get_of_mem ((hkeys _).1 (List.get_mem keys i))
      exact mem_entriesOf.2 ⟨j, Prod.ext hj (ih i j hj.symm).symm⟩
    -- so the entries are the same ones, and sorting puts them in one order
    have hlength : keys'.length ≤ keys.length :=
      ((List.perm_ext_iff_of_nodup hnodup hnodup').2 hkeys).length_eq.ge
    have hperm := (List.subperm_of_subset (nodup_entriesOf hnodup) hsubset).perm_of_length_le
      (by rwa [length_entriesOf, length_entriesOf])
    show objectText _ = objectText _
    rw [objectText, List.sortOn_eq_of_perm (nodup_map_keyOrder hnodup') hperm, objectText]

/-- **The text of a JSON value is that of no other**, up to the order of object keys. -/
theorem canonicalJson_eq_iff {a b : Value} (ha : a.IsJson) (hb : b.IsJson) :
    canonicalJson a = canonicalJson b ↔ a.EqualUpToKeyOrder b :=
  ⟨equalUpToKeyOrder_of_canonicalJson_eq ha hb, canonicalJson_eq_of_equalUpToKeyOrder⟩

end TolPlatform.Crypto
