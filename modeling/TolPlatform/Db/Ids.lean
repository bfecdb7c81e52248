import TolPlatform.Library.WordOrder
import TolPlatform.Shared.Errors
import TolPlatform.Shared.Text

/-!
# Ids

`packages/db/src/ids.ts`: a UUIDv7 from the clock and ten random bytes. The order of such ids, by which ties
are broken, is the order of the clock, and within a millisecond that of the 74 random bits; two ids are the
same when both agree (`newId_ordered`).
-/

namespace TolPlatform.Ids

/-- `Number((unixTsMs >> k) & 0xff)`. -/
def timeByte (unixTsMs : Int) (k : ℕ) : UInt8 := .ofNat ((unixTsMs >>> k) % 256).toNat

/-- The version nibble and the variant bits stand before what is random. -/
def idBytes (unixTsMs : Int) (rand : Fin 10 → UInt8) : List UInt8 :=
  [timeByte unixTsMs 40, timeByte unixTsMs 32, timeByte unixTsMs 24, timeByte unixTsMs 16,
    timeByte unixTsMs 8, timeByte unixTsMs 0,
    0x70 ||| (rand 0 &&& 0x0f), rand 1, 0x80 ||| (rand 2 &&& 0x3f),
    rand 3, rand 4, rand 5, rand 6, rand 7, rand 8, rand 9]

/-- `s.slice(a, b)`. -/
def slice (a b : ℕ) (s : List Char) : List Char := (s.take b).drop a

/-- The five groups of an id. -/
def hyphenated (hex : List Char) : List Char :=
  slice 0 8 hex ++ '-' :: (slice 8 12 hex ++ '-' :: (slice 12 16 hex ++ '-' ::
    (slice 16 20 hex ++ '-' :: hex.drop 20)))

def newId (unixTsMs : Int) (rand : Fin 10 → UInt8) : Uuid :=
  .ofList (hyphenated (toHex (idBytes unixTsMs rand)))

/-- The 74 random bits, byte by byte. -/
def randomBits (rand : Fin 10 → UInt8) : List ℕ :=
  [(rand 0).toNat % 16, (rand 1).toNat, (rand 2).toNat % 64, (rand 3).toNat, (rand 4).toNat,
    (rand 5).toNat, (rand 6).toNat, (rand 7).toNat, (rand 8).toNat, (rand 9).toNat]

/-! ### The order of texts -/

theorem stringOrder_ofList {s : List Char} (h : ∀ c ∈ s, c.toNat < 0x10000) :
    stringOrder (.ofList s) = s.map Char.toNat := by
  rw [stringOrder, codeUnits, String.toList_ofList]
  induction s with
  | nil => rfl
  | cons c s ih =>
    obtain ⟨hc, hs⟩ := List.forall_mem_cons.1 h
    rw [List.flatMap_cons, CodePoint.units, if_pos hc, List.map_append, ih hs, List.map_singleton,
      (ofUnit_ofNat hc).1]
    rfl

/-- What the characters of an id are. -/
def IsIdChar (c : Char) : Prop := c = '-' ∨ (hexValue? c).isSome

theorem IsIdChar.toNat_lt {c : Char} (h : IsIdChar c) : c.toNat < 0x10000 := by
  have hle : ∀ d : Char, c ≤ d → c.toNat ≤ d.toNat := fun d hd ↦ hd
  rcases h with rfl | h
  · decide
  · unfold hexValue? at h
    split_ifs at h with hdigit hlower hupper
    · exact (hle _ hdigit.2).trans_lt (by decide)
    · exact (hle _ hlower.2).trans_lt (by decide)
    · exact (hle _ hupper.2).trans_lt (by decide)
    · cases h

theorem isIdChar_hyphenated {hex : List Char} (h : ∀ c ∈ hex, (hexValue? c).isSome) :
    ∀ c ∈ hyphenated hex, IsIdChar c := by
  have hslice (a b : ℕ) : ∀ c ∈ slice a b hex, IsIdChar c := fun c hc ↦
    Or.inr (h c (List.mem_of_mem_take (List.mem_of_mem_drop hc)))
  have hlast : ∀ c ∈ hex.drop 20, IsIdChar c := fun c hc ↦ Or.inr (h c (List.mem_of_mem_drop hc))
  have hjoined {u v : List Char} (hu : ∀ c ∈ u, IsIdChar c) (hv : ∀ c ∈ v, IsIdChar c) :
      ∀ c ∈ u ++ '-' :: v, IsIdChar c :=
    List.forall_mem_append.2 ⟨hu, List.forall_mem_cons.2 ⟨Or.inl rfl, hv⟩⟩
  exact hjoined (hslice 0 8) (hjoined (hslice 8 12) (hjoined (hslice 12 16)
    (hjoined (hslice 16 20) hlast)))

theorem slice_append_drop {a b : ℕ} (hab : a ≤ b) (s : List Char) :
    slice a b s ++ s.drop b = s.drop a := by
  have hdrop : s.drop b = (s.drop a).drop (b - a) := by
    rw [List.drop_drop, Nat.add_sub_of_le hab]
  rw [slice, List.drop_take, hdrop, List.take_append_drop]

/-- The hyphens stand at the same places in all ids. -/
theorem hyphenated_lt_iff {hex hex' : List Char} (h : hex.length = hex'.length) :
    (hyphenated hex).map Char.toNat < (hyphenated hex').map Char.toNat ↔
      hex.map Char.toNat < hex'.map Char.toNat := by
  have hslice (a b : ℕ) : ((slice a b hex).map Char.toNat).length =
      ((slice a b hex').map Char.toNat).length := by
    rw [List.length_map, List.length_map, slice, slice, List.length_drop, List.length_drop,
      List.length_take, List.length_take, h]
  have hgroups (s : List Char) : slice 0 8 s ++ (slice 8 12 s ++ (slice 12 16 s ++
      (slice 16 20 s ++ s.drop 20))) = s := by
    rw [slice_append_drop (by omega), slice_append_drop (by omega), slice_append_drop (by omega),
      slice_append_drop (by omega), List.drop_zero]
  conv_rhs => rw [← hgroups hex, ← hgroups hex']
  simp only [hyphenated, List.map_append, List.map_cons]
  exact List.lt_append_cons_congr (hslice 0 8) _ (List.lt_append_cons_congr (hslice 8 12) _
    (List.lt_append_cons_congr (hslice 12 16) _ (List.lt_append_cons_congr (hslice 16 20) _ Iff.rfl)))

/-! ### The order of bytes -/

/-- The two digits of a byte. -/
def hexUnits (n : ℕ) : List ℕ := [(Nat.digitChar (n / 16)).toNat, (Nat.digitChar (n % 16)).toNat]

theorem digitChar_lt_iff {m n : ℕ} (hm : m < 16) (hn : n < 16) :
    (Nat.digitChar m).toNat < (Nat.digitChar n).toNat ↔ m < n :=
  (by decide : ∀ m n : Fin 16, (Nat.digitChar m).toNat < (Nat.digitChar n).toNat ↔ m.val < n.val)
    ⟨m, hm⟩ ⟨n, hn⟩

theorem digitChar_inj_iff {m n : ℕ} (hm : m < 16) (hn : n < 16) :
    (Nat.digitChar m).toNat = (Nat.digitChar n).toNat ↔ m = n :=
  (by decide : ∀ m n : Fin 16, (Nat.digitChar m).toNat = (Nat.digitChar n).toNat ↔ m.val = n.val)
    ⟨m, hm⟩ ⟨n, hn⟩

theorem hexUnits_lt_iff {m n : ℕ} (hm : m < 256) (hn : n < 256) : hexUnits m < hexUnits n ↔ m < n := by
  rw [hexUnits, hexUnits, List.cons_lt_cons_iff, digitChar_lt_iff (by omega) (by omega),
    digitChar_inj_iff (by omega) (by omega), List.cons_lt_cons_iff,
    digitChar_lt_iff (by omega) (by omega)]
  simp only [List.lt_irrefl, and_false, or_false]
  omega

theorem toHex_lt_iff {b b' : List UInt8} (h : b.length = b'.length) :
    (toHex b).map Char.toNat < (toHex b').map Char.toNat ↔ b.map UInt8.toNat < b'.map UInt8.toNat := by
  have hunits (b : List UInt8) : (toHex b).map Char.toNat = (b.map UInt8.toNat).flatMap hexUnits := by
    rw [toHex, List.map_flatMap, List.flatMap_map]
    rfl
  have hbytes (b : List UInt8) : ∀ n ∈ b.map UInt8.toNat, n < 256 := by
    intro n hn
    obtain ⟨x, -, rfl⟩ := List.mem_map.1 hn
    exact x.toNat_lt
  rw [hunits, hunits]
  exact List.flatMap_lt_flatMap_iff (fun _ _ ↦ rfl) (fun _ _ ↦ hexUnits_lt_iff) (hbytes b) (hbytes b')
    (by rw [List.length_map, List.length_map, h])

theorem newId_lt_iff_bytes {t t' : Int} {rand rand' : Fin 10 → UInt8} :
    stringOrder (newId t rand) < stringOrder (newId t' rand') ↔
      (idBytes t rand).map UInt8.toNat < (idBytes t' rand').map UInt8.toNat := by
  have hunits (b : List UInt8) : stringOrder (.ofList (hyphenated (toHex b))) =
      (hyphenated (toHex b)).map Char.toNat :=
    stringOrder_ofList fun c hc ↦ (isIdChar_hyphenated isSome_hexValue?_toHex c hc).toNat_lt
  have hlength : (idBytes t rand).length = (idBytes t' rand').length := rfl
  rw [newId, newId, hunits, hunits, hyphenated_lt_iff (by rw [length_toHex, length_toHex, hlength]),
    toHex_lt_iff hlength]

/-! ### The order of ids -/

section

variable {t t' : Int} {rand rand' : Fin 10 → UInt8}

theorem toNat_timeByte (t : ℕ) (k : ℕ) : (timeByte t k).toNat = t / 2 ^ k % 256 := by
  have hbyte : ((t : Int) >>> k % 256).toNat = t / 2 ^ k % 256 := by
    rw [Int.shiftRight_eq_div_pow]
    norm_cast
  rw [timeByte, hbyte, UInt8.toNat_ofNat_of_lt' (Nat.mod_lt _ (by decide))]

theorem toNat_versioned (x : UInt8) : (0x70 ||| (x &&& 0x0f)).toNat = 112 + x.toNat % 16 := by
  have hall : ∀ n : Fin 256, (0x70 ||| (UInt8.ofNat n &&& 0x0f)).toNat = 112 + n % 16 := by
    decide +kernel
  simpa using hall ⟨x.toNat, x.toNat_lt⟩

theorem toNat_variant (x : UInt8) : (0x80 ||| (x &&& 0x3f)).toNat = 128 + x.toNat % 64 := by
  have hall : ∀ n : Fin 256, (0x80 ||| (UInt8.ofNat n &&& 0x3f)).toNat = 128 + n % 64 := by
    decide +kernel
  simpa using hall ⟨x.toNat, x.toNat_lt⟩

/-- The ten last bytes. -/
def randomBytes (rand : Fin 10 → UInt8) : List ℕ :=
  [112 + (rand 0).toNat % 16, (rand 1).toNat, 128 + (rand 2).toNat % 64, (rand 3).toNat,
    (rand 4).toNat, (rand 5).toNat, (rand 6).toNat, (rand 7).toNat, (rand 8).toNat, (rand 9).toNat]

theorem map_idBytes (t : ℕ) (rand : Fin 10 → UInt8) :
    (idBytes t rand).map UInt8.toNat = List.bigEndian 256 6 t ++ randomBytes rand := by
  simp only [idBytes, List.map_cons, List.map_nil, toNat_timeByte, toNat_versioned, toNat_variant]
  rfl

theorem randomBytes_lt_iff : randomBytes rand < randomBytes rand' ↔ randomBits rand < randomBits rand' := by
  rw [randomBytes, randomBytes, randomBits, randomBits]
  simp only [List.cons_lt_cons_iff, Nat.add_lt_add_iff_left, Nat.add_left_cancel_iff]

theorem newId_lt_newId_iff (ht : 0 ≤ t ∧ t < 2 ^ 48) (ht' : 0 ≤ t' ∧ t' < 2 ^ 48) :
    stringOrder (newId t rand) < stringOrder (newId t' rand') ↔
      t < t' ∨ t = t' ∧ randomBits rand < randomBits rand' := by
  obtain ⟨t, rfl⟩ := Int.eq_ofNat_of_zero_le ht.1
  obtain ⟨t', rfl⟩ := Int.eq_ofNat_of_zero_le ht'.1
  have hlength : (List.bigEndian 256 6 t).length = (List.bigEndian 256 6 t').length := by
    rw [List.length_bigEndian, List.length_bigEndian]
  rw [newId_lt_iff_bytes, map_idBytes, map_idBytes, List.lt_append_iff hlength,
    List.bigEndian_lt_bigEndian_iff (by decide), List.bigEndian_inj_iff (by decide),
    randomBytes_lt_iff, Nat.mod_eq_of_lt (by omega), Nat.mod_eq_of_lt (by omega), Int.ofNat_lt,
    Int.ofNat_inj]

/-- **Ids are in the order of the clock**, as long as it has 48 bits, and within a millisecond in that of
their random bits; two are the same when both agree. -/
theorem newId_ordered (ht : 0 ≤ t ∧ t < 2 ^ 48) (ht' : 0 ≤ t' ∧ t' < 2 ^ 48) :
    (stringOrder (newId t rand) < stringOrder (newId t' rand') ↔
        t < t' ∨ t = t' ∧ randomBits rand < randomBits rand') ∧
      (newId t rand = newId t' rand' ↔ t = t' ∧ randomBits rand = randomBits rand') := by
  refine ⟨newId_lt_newId_iff ht ht', ?_⟩
  rw [← stringOrder_injective.eq_iff, le_antisymm_iff, ← not_lt, ← not_lt, newId_lt_newId_iff ht' ht,
    newId_lt_newId_iff ht ht']
  constructor
  · rintro ⟨hnot, hnot'⟩
    obtain rfl : t = t' :=
      le_antisymm (not_lt.1 fun h ↦ hnot (Or.inl h)) (not_lt.1 fun h ↦ hnot' (Or.inl h))
    exact ⟨rfl, le_antisymm (not_lt.1 fun h ↦ hnot (Or.inr ⟨rfl, h⟩))
      (not_lt.1 fun h ↦ hnot' (Or.inr ⟨rfl, h⟩))⟩
  · rintro ⟨rfl, hbits⟩
    rw [hbits]
    simp

theorem newId_ordered_millisecond :
    (stringOrder (newId 1700000000000 fun _ ↦ 255) < stringOrder (newId 1700000000001 fun _ ↦ 0) ↔
        (1700000000000 : Int) < 1700000000001 ∨ (1700000000000 : Int) = 1700000000001 ∧
          randomBits (fun _ ↦ 255) < randomBits fun _ ↦ 0) ∧
      (newId 1700000000000 (fun _ ↦ 255) = newId 1700000000001 (fun _ ↦ 0) ↔
        (1700000000000 : Int) = 1700000000001 ∧
          randomBits (fun _ ↦ 255) = randomBits fun _ ↦ 0) :=
  newId_ordered (by decide) (by decide)

example : newId 1700000000000 (fun _ ↦ 255) = "018bcfe5-6800-7fff-bfff-ffffffffffff" := by
  decide +kernel

theorem colon_notMem_newId : ':' ∉ (newId t rand).toList := by
  intro h
  rw [newId, String.toList_ofList] at h
  rcases isIdChar_hyphenated isSome_hexValue?_toHex _ h with h | h
  · cases h
  · revert h
    decide

end

end TolPlatform.Ids
