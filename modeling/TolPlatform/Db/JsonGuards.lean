import TolPlatform.Shared.ValueGraphs

/-!
# Guards of the `Json` columns

`packages/db/src/json-guards.ts`: what a repository checks before a value is written to a `Json` column.
The guard searches all that the value contains, with the objects that it is inside of in the set `seen`;
fuel stands for the depth of its calls.

The guard refuses a value just when it reaches something that JSON lacks, a reserved key or a cycle
(`refuses_assertJsonSerializable`), and a shared object is neither. What it accepts comes back from
`JSON.stringify` and `JSON.parse` unless an array in it has a hole: `forEach` passes over the hole, and
`null` is written for it (`jsonGuards_guard_iff`). The loops over `value.entries()` of the array guards
pass over none (`guards_assertStringArray`, `guards_assertJsonSafeObjectArray_iff`).
-/

namespace TolPlatform

open PathSearch (Meets Refuses)

structure JsonShapeError where
  message : Text

def jsonShapeError (message : Text) : JsonShapeError :=
  ⟨codeUnits "invalid Json field shape: " ++ message⟩

def dangerousJsonKeys : List Text := ["__proto__", "constructor", "prototype"].map codeUnits

section

variable {L : Type}

def JsValue.isNull : JsValue L → Bool
  | .null => true
  | _ => false

/-- `Array.isArray`. -/
def isArray (heap : Heap L) : JsValue L → Bool
  | .ref l =>
    match heap l with
    | .array _ => true
    | .object _ _ _ => false
  | _ => false

/-- `value.entries()` of an array, without the positions: a hole is there as `undefined`. -/
def elements (heap : Heap L) : JsValue L → List (JsValue L)
  | .ref l =>
    match heap l with
    | .array slots => List.ofFn fun i ↦ (slots i).getD .undefined
    | .object _ _ _ => []
  | _ => []

variable [DecidableEq L] (heap : Heap L)

def assertJsonSerializable :
    ℕ → JsValue L → Text → Finset L → ExceptT JsonShapeError Option (Finset L)
  | 0, _, _, _ => .mk none
  | n + 1, value, path, seen =>
    match value with
    | .null | .string _ | .boolean _ | .number (.finite _) => pure seen
    | .number x =>
      throw (jsonShapeError (path ++ codeUnits " must be a finite number, got " ++ codeUnits x.toText))
    | .bigint _ =>
      throw (jsonShapeError (path ++ codeUnits (" is a bigint — JSON cannot represent it; " ++
        "convert to a Number or String before building this object")))
    | .function | .symbol | .undefined =>
      throw (jsonShapeError (path ++ codeUnits " is a " ++ codeUnits value.typeof ++
        codeUnits ", which is not JSON-representable"))
    | .ref l =>
      if l ∈ seen then throw (jsonShapeError (path ++ codeUnits " contains a circular reference"))
      else do
        let seen ←
          match heap l with
          | .array slots =>
            (List.finRange _).foldlM (fun seen i ↦
              match slots i with
              -- `forEach` does not call its function for a hole
              | none => pure seen
              | some item => assertJsonSerializable n item (path ++ codeUnits s!"[{i}]") seen)
              (insert l seen)
          | .object keys _ values =>
            (List.finRange _).foldlM (fun seen i ↦
              if keys.get i ∈ dangerousJsonKeys then
                throw (jsonShapeError (path ++ codeUnits "." ++ keys.get i ++ codeUnits
                  (" uses a reserved key name (\"__proto__\"/\"constructor\"/\"prototype\")" ++
                    " — not permitted in a persisted Json value")))
              else assertJsonSerializable n (values i) (path ++ codeUnits "." ++ keys.get i) seen)
              (insert l seen)
        return seen.erase l

def assertJsonSerializableValue (n : ℕ) (value : JsValue L) (fieldName : Text) :
    ExceptT JsonShapeError Option Unit :=
  match value with
  | .null | .undefined =>
    throw (jsonShapeError (fieldName ++ codeUnits
      " must not be null/undefined — omit the Fact entirely instead of writing a null value"))
  | value => do
    let _ ← assertJsonSerializable heap n value fieldName ∅
    return

def assertJsonSafePlainObject (n : ℕ) (value : JsValue L) (fieldName : Text) :
    ExceptT JsonShapeError Option Unit :=
  if value.typeof ≠ "object" ∨ value.isNull ∨ isArray heap value then
    throw (jsonShapeError (fieldName ++ codeUnits " must be a plain object, got " ++ codeUnits
      (if value.isNull then "null" else if isArray heap value then "array" else value.typeof)))
  else do
    let _ ← assertJsonSerializable heap n value fieldName ∅
    return

/-- The check of an array, and of its elements one by one. -/
def assertArray (value : JsValue L) (fieldName : Text)
    (assertItem : JsValue L → Text → ExceptT JsonShapeError Option Unit) :
    ExceptT JsonShapeError Option Unit :=
  if isArray heap value then
    (elements heap value).zipIdx.foldlM
      (fun _ (item, i) ↦ assertItem item (fieldName ++ codeUnits s!"[{i}]")) ()
  else
    throw (jsonShapeError (fieldName ++ codeUnits " must be an array, got " ++ codeUnits value.typeof))

def assertStringArray (value : JsValue L) (fieldName : Text) : ExceptT JsonShapeError Option Unit :=
  assertArray heap value fieldName fun item path ↦
    if item.typeof ≠ "string" then
      throw (jsonShapeError (path ++ codeUnits " must be a string, got " ++ codeUnits item.typeof))
    else pure ()

def assertJsonSafeObjectArray (n : ℕ) (value : JsValue L) (fieldName : Text) :
    ExceptT JsonShapeError Option Unit :=
  assertArray heap value fieldName (assertJsonSafePlainObject heap n)

end

section

variable {L : Type}

/-! ### What offends -/

def JsObject.HasReservedKey : JsObject L → Prop
  | .array _ => False
  | .object keys _ _ => ∃ i, keys.get i ∈ dangerousJsonKeys

/-- A value that JSON lacks, or an object with a reserved key. -/
def Offending (heap : Heap L) (value : JsValue L) : Prop :=
  value.Unserializable ∨ ∃ l, value = .ref l ∧ (heap l).HasReservedKey

/-- A value reaches something that JSON lacks, a reserved key or a cycle. -/
def Offends (heap : Heap L) (value : JsValue L) : Prop :=
  PathSearch.Reaches (Contains heap) (Offending heap) value

variable {heap : Heap L} {l : L} {v : JsValue L} {n : ℕ} {path : Text} {seen : Finset L}

theorem meets_iff_unserializable (hv : ∀ l, v ≠ .ref l) :
    Meets (Contains heap) (Offending heap) (pathOf seen) v ↔ v.Unserializable := by
  rw [PathSearch.meets_iff, or_iff_right (notMem_pathOf hv)]
  constructor
  · rintro ((hbad | ⟨l, hl, -⟩) | ⟨w, hcontains, -⟩)
    · exact hbad
    · exact absurd hl (hv l)
    · exact absurd hcontains (not_contains hv)
  · exact fun hbad ↦ .inl (.inl hbad)

theorem offending_ref_iff : Offending heap (.ref l) ↔ (heap l).HasReservedKey := by
  constructor
  · rintro (⟨⟨⟩⟩ | ⟨_, ⟨⟩, hkey⟩)
    exact hkey
  · exact fun hkey ↦ .inr ⟨l, rfl, hkey⟩

theorem offends_ref_iff : Offends heap (.ref l) ↔
    (heap l).HasReservedKey ∨ ∃ w, (heap l).Holds w ∧ Offends heap w := by
  rw [Offends, PathSearch.reaches_iff, offending_ref_iff]
  simp only [contains_ref_iff, Offends]

theorem not_offends_string {s : Text} : ¬ Offends heap (.string s) := by
  rw [Offends, PathSearch.reaches_iff]
  rintro ((hbad | ⟨l, ⟨⟩, -⟩) | ⟨w, hcontains, -⟩)
  · exact hbad
  · exact not_contains nofun hcontains

/-- What the loop over an array finds. -/
theorem exists_slot_iff {m : ℕ} {slots : Fin m → Option (JsValue L)} {P : JsValue L → Prop} :
    (∃ i ∈ List.finRange m, ∃ w, slots i = some w ∧ P w) ↔
      (JsObject.array slots).HasReservedKey ∨ ∃ w, (JsObject.array slots).Holds w ∧ P w := by
  constructor
  · rintro ⟨i, -, w, hi, hw⟩
    exact .inr ⟨w, ⟨i, hi⟩, hw⟩
  · rintro (hkey | ⟨w, ⟨i, hi⟩, hw⟩)
    · exact hkey.elim
    · exact ⟨i, List.mem_finRange i, w, hi, hw⟩

/-- What the loop over an object finds. -/
theorem exists_member_iff {keys : List Text} {keys_nodup : keys.Nodup}
    {values : Fin keys.length → JsValue L} {P : JsValue L → Prop} :
    (∃ i ∈ List.finRange keys.length, keys.get i ∈ dangerousJsonKeys ∨ P (values i)) ↔
      (JsObject.object keys keys_nodup values).HasReservedKey ∨
        ∃ w, (JsObject.object keys keys_nodup values).Holds w ∧ P w := by
  constructor
  · rintro ⟨i, -, hkey | hw⟩
    · exact .inl ⟨i, hkey⟩
    · exact .inr ⟨values i, ⟨i, rfl⟩, hw⟩
  · rintro (⟨i, hkey⟩ | ⟨_, ⟨i, rfl⟩, hw⟩)
    · exact ⟨i, List.mem_finRange i, .inl hkey⟩
    · exact ⟨i, List.mem_finRange i, .inr hw⟩

/-! ### The kinds of values -/

def IsPresent (value : JsValue L) : Prop := value ≠ .null ∧ value ≠ .undefined

def IsPlainObject (heap : Heap L) (value : JsValue L) : Prop :=
  ∃ l keys keys_nodup values, value = .ref l ∧ heap l = .object keys keys_nodup values

theorem not_isPlainObject_iff :
    ¬ IsPlainObject heap v ↔ v.typeof ≠ "object" ∨ v.isNull ∨ isArray heap v := by
  rw [not_iff_comm]
  constructor
  · intro h
    obtain ⟨hobject, hnull, harray⟩ : v.typeof = "object" ∧ ¬ v.isNull ∧ ¬ isArray heap v := by
      simpa only [not_or, not_not] using h
    cases v with
    | ref l =>
      rcases hl : heap l with ⟨slots⟩ | ⟨keys, keys_nodup, values⟩
      · exact absurd (by rw [isArray, hl]) harray
      · exact ⟨l, keys, keys_nodup, values, rfl, hl⟩
    | null => exact absurd rfl hnull
    | _ => simp [JsValue.typeof] at hobject
  · rintro ⟨l, keys, keys_nodup, values, rfl, hl⟩
    simp [JsValue.typeof, JsValue.isNull, isArray, hl]

/-- An array whose elements satisfy `P`, a hole as `undefined`. -/
def IsArrayOf (heap : Heap L) (P : JsValue L → Prop) (value : JsValue L) : Prop :=
  isArray heap value ∧ ∀ item ∈ elements heap value, P item

theorem IsArrayOf.exists_ref {P : JsValue L → Prop} (h : IsArrayOf heap P v) (hP : ¬ P .undefined) :
    ∃ l, v = .ref l ∧ ¬ (heap l).HasHole ∧ ¬ (heap l).HasReservedKey ∧
      ∀ w, (heap l).Holds w ↔ w ∈ elements heap v := by
  obtain ⟨harray, hitems⟩ := h
  cases v with
  | ref l =>
    rcases hl : heap l with ⟨slots⟩ | ⟨keys, keys_nodup, values⟩
    · have helements : elements heap (.ref l) = List.ofFn fun i ↦ (slots i).getD .undefined := by
        rw [elements, hl]
      rw [helements] at hitems ⊢
      have hslots (i) : slots i ≠ none := by
        intro hi
        have hitem := hitems _ (List.mem_ofFn.2 ⟨i, rfl⟩)
        rw [hi] at hitem
        exact hP hitem
      refine ⟨l, rfl, ?_, ?_, fun w ↦ ?_⟩
      · rw [hl]
        exact fun ⟨i, hi⟩ ↦ hslots i hi
      · rw [hl]
        exact id
      · rw [hl, List.mem_ofFn]
        refine exists_congr fun i ↦ ?_
        obtain ⟨w', hw'⟩ := Option.ne_none_iff_exists'.1 (hslots i)
        rw [hw', Option.getD_some, Option.some.injEq]
    · rw [isArray, hl] at harray
      cases harray
  | _ => cases harray

theorem exists_string_of_typeof (h : v.typeof = "string") : ∃ s, v = .string s := by
  cases v with
  | string s => exact ⟨s, rfl⟩
  | _ => simp [JsValue.typeof] at h

/-! ### What the search refuses -/

variable [DecidableEq L]

theorem meets_ref_iff (hl : l ∉ seen) : Meets (Contains heap) (Offending heap) (pathOf seen) (.ref l) ↔
    (heap l).HasReservedKey ∨
      ∃ w, (heap l).Holds w ∧ Meets (Contains heap) (Offending heap) (pathOf (insert l seen)) w := by
  rw [PathSearch.meets_iff, or_iff_right (ref_mem_pathOf.not.2 hl), offending_ref_iff, pathOf_insert]
  simp only [contains_ref_iff]

/-- Leaving an object gives the path back. -/
theorem refuses_erase {r : ExceptT JsonShapeError Option (Finset L)} {P : Prop} (hl : l ∉ seen)
    (h : Refuses r (insert l seen) P) : Refuses (r >>= fun seen ↦ pure (seen.erase l)) seen P := by
  have herase := h.bind_pure (Finset.erase · l)
  rwa [Finset.erase_insert hl] at herase

variable [Fintype L]

/-- **The search refuses what it meets, and leaves its path as it was.** The induction is on the fuel,
which an object that is not on the path yet leaves enough of. -/
theorem refuses_assertJsonSerializable (hn : seenᶜ.card < n) :
    Refuses (assertJsonSerializable heap n v path seen) seen
      (Meets (Contains heap) (Offending heap) (pathOf seen) v) := by
  induction n generalizing v path seen with
  | zero => exact absurd hn (Nat.not_lt_zero _)
  | succ n ih =>
    cases v with
    | null => exact .of_pure ((meets_iff_unserializable nofun).not.2 id)
    | string s => exact .of_pure ((meets_iff_unserializable nofun).not.2 id)
    | boolean b => exact .of_pure ((meets_iff_unserializable nofun).not.2 id)
    | number x =>
      cases x with
      | finite x => exact .of_pure ((meets_iff_unserializable nofun).not.2 fun hx ↦ hx x rfl)
      | infinity negative =>
        exact .of_throw _ ((meets_iff_unserializable nofun).2 fun _ hx ↦ Number.noConfusion hx)
      | nan => exact .of_throw _ ((meets_iff_unserializable nofun).2 fun _ hx ↦ Number.noConfusion hx)
    | bigint i => exact .of_throw _ ((meets_iff_unserializable nofun).2 trivial)
    | function => exact .of_throw _ ((meets_iff_unserializable nofun).2 trivial)
    | symbol => exact .of_throw _ ((meets_iff_unserializable nofun).2 trivial)
    | undefined => exact .of_throw _ ((meets_iff_unserializable nofun).2 trivial)
    | ref l =>
      rw [assertJsonSerializable]
      split_ifs with hl
      · exact .of_throw _ (.closed (ref_mem_pathOf.2 hl))
      · have hfuel := lt_of_lt_of_le (card_compl_insert_lt hl) (Nat.le_of_lt_succ hn)
        rw [meets_ref_iff hl]
        rcases hobject : heap l with ⟨slots⟩ | ⟨keys, keys_nodup, values⟩
        · refine (refuses_erase hl (Refuses.foldlM (P := fun i ↦ ∃ w, slots i = some w ∧
            Meets (Contains heap) (Offending heap) (pathOf (insert l seen)) w) fun i _ ↦ ?_)).congr ?_
          · rcases hi : slots i with - | w
            · exact .of_pure fun ⟨w, hw, _⟩ ↦ Option.some_ne_none w hw.symm
            · refine (ih hfuel).congr ?_
              simp only [Option.some.injEq, exists_eq_left']
          · exact exists_slot_iff
        · refine (refuses_erase hl (Refuses.foldlM (P := fun i ↦ keys.get i ∈ dangerousJsonKeys ∨
            Meets (Contains heap) (Offending heap) (pathOf (insert l seen)) (values i))
            fun i _ ↦ ?_)).congr ?_
          · split_ifs with hkey
            · exact .of_throw _ (.inl hkey)
            · exact (ih hfuel).congr (or_iff_right hkey).symm
          · exact exists_member_iff

theorem refuses_assertJsonSerializable_empty (hn : Fintype.card L < n) :
    Refuses (assertJsonSerializable heap n v path ∅) ∅ (Offends heap v) := by
  have hfuel : (∅ : Finset L)ᶜ.card < n := by rwa [Finset.compl_empty]
  have hsearch : Refuses (assertJsonSerializable heap n v path ∅) ∅ _ :=
    refuses_assertJsonSerializable hfuel
  rwa [pathOf_empty, PathSearch.meets_empty_iff] at hsearch

/-- What a guard refuses that has found nothing wrong with the kind of a value. -/
theorem refuses_search {fieldName : Text} {P : Prop} (hn : Fintype.card L < n) (hP : ¬ P) :
    Refuses (do let _ ← assertJsonSerializable heap n v fieldName ∅; return) () (P ∨ Offends heap v) :=
  ((refuses_assertJsonSerializable_empty hn).bind_pure fun _ ↦ ()).congr (or_iff_right hP).symm

theorem refuses_assertJsonSerializableValue {fieldName : Text} (hn : Fintype.card L < n) :
    Refuses (assertJsonSerializableValue heap n v fieldName) ()
      (¬ IsPresent v ∨ Offends heap v) := by
  unfold assertJsonSerializableValue
  split
  · exact .of_throw _ (.inl fun h ↦ h.1 rfl)
  · exact .of_throw _ (.inl fun h ↦ h.2 rfl)
  · rename_i hnull hundefined
    exact refuses_search hn (not_not.2 ⟨hnull, hundefined⟩)

theorem refuses_assertJsonSafePlainObject {fieldName : Text} (hn : Fintype.card L < n) :
    Refuses (assertJsonSafePlainObject heap n v fieldName) ()
      (¬ IsPlainObject heap v ∨ Offends heap v) := by
  rw [assertJsonSafePlainObject, not_isPlainObject_iff]
  by_cases hkind : v.typeof ≠ "object" ∨ v.isNull ∨ isArray heap v
  · rw [if_pos hkind]
    exact .of_throw _ (.inl hkind)
  · rw [if_neg hkind]
    exact refuses_search hn hkind

/-! ### What the guards promise -/

theorem pure_ne_throw {ε σ : Type} {s : σ} {e : ε} :
    (pure s : ExceptT ε Option σ) ≠ throw e := by
  rintro ⟨⟩

/-- A guard of a kind of values ends; it refuses what offends; it refuses nothing else of its kind,
shared or not; and what it accepts comes back from storage. -/
structure Guards (heap : Heap L) (value : JsValue L) (ofKind : Prop)
    (guard : ℕ → ExceptT JsonShapeError Option Unit) : Prop where
  ends {n : ℕ} (hn : Fintype.card L < n) : guard n = pure () ∨ ∃ e, guard n = throw e
  refuses {n : ℕ} (hn : Fintype.card L < n) (h : Offends heap value) : ∃ e, guard n = throw e
  admits {n : ℕ} (hn : Fintype.card L < n) (hkind : ofKind) (h : ¬ Offends heap value) :
    guard n = pure ()
  preserves {n : ℕ} (hn : Fintype.card L < n) (h : guard n = pure ()) : RoundTrips heap n value

/-- **A guard keeps its promise when no hole gets past it.** -/
theorem guards_iff {ofKind : Prop} {guard : ℕ → ExceptT JsonShapeError Option Unit}
    (h : ∀ n, Fintype.card L < n → Refuses (guard n) () (¬ ofKind ∨ Offends heap v)) :
    Guards heap v ofKind guard ↔ (ofKind → Offends heap v ∨ ¬ ReachesHole heap v) := by
  have hfit (hoffends : ¬ Offends heap v) :
      ¬ PathSearch.Reaches (Contains heap) JsValue.Unserializable v :=
    fun hreach ↦ hoffends (hreach.imp fun _ ↦ .inl)
  constructor
  · intro hguards hkind
    by_contra! hhole
    obtain ⟨hoffends, hhole⟩ := hhole
    have hn : Fintype.card L < Fintype.card L + 1 := Nat.lt_succ_self _
    have haccepted := hguards.admits hn hkind hoffends
    exact (roundTrips_iff hn (hfit hoffends)).1 (hguards.preserves hn haccepted) hhole
  · intro hholes
    refine ⟨fun hn ↦ ?_, fun hn hoffends ↦ (h _ hn).refused (.inr hoffends),
      fun hn hkind hoffends ↦ (h _ hn).accepted ?_, fun hn haccepted ↦ ?_⟩
    · exact (h _ hn).cases.imp And.right And.right
    · exact not_or.2 ⟨not_not.2 hkind, hoffends⟩
    · rcases (h _ hn).cases with ⟨hnot, -⟩ | ⟨-, e, hthrow⟩
      · obtain ⟨hkind, hoffends⟩ := not_or.1 hnot
        exact (roundTrips_iff hn (hfit hoffends)).2 ((hholes (not_not.1 hkind)).resolve_left hoffends)
      · exact absurd (haccepted.symm.trans hthrow) pure_ne_throw

/-- Neither `null` nor `undefined` has a hole to get past the guard. -/
theorem guards_assertJsonSerializableValue_iff {fieldName : Text} :
    Guards heap v (IsPresent v) (fun n ↦ assertJsonSerializableValue heap n v fieldName) ↔
      Offends heap v ∨ ¬ ReachesHole heap v := by
  rw [guards_iff fun n hn ↦ refuses_assertJsonSerializableValue hn]
  constructor
  · intro h
    by_cases hkind : IsPresent v
    · exact h hkind
    · rcases not_and_or.1 hkind with hnull | hundefined
      · obtain rfl := not_not.1 hnull
        exact .inr (not_reachesHole nofun)
      · obtain rfl := not_not.1 hundefined
        exact .inr (not_reachesHole nofun)
  · exact fun h _ ↦ h

theorem guards_assertJsonSafePlainObject_iff {fieldName : Text} :
    Guards heap v (IsPlainObject heap v) (fun n ↦ assertJsonSafePlainObject heap n v fieldName) ↔
      (IsPlainObject heap v → Offends heap v ∨ ¬ ReachesHole heap v) :=
  guards_iff fun _ hn ↦ refuses_assertJsonSafePlainObject hn

/-- **Both guards keep their promise just when no hole gets past them.** -/
theorem jsonGuards_guard_iff (heap : Heap L) (value : JsValue L) (fieldName : Text) :
    (Guards heap value (IsPresent value)
        (fun n ↦ assertJsonSerializableValue heap n value fieldName) ↔
      Offends heap value ∨ ¬ ReachesHole heap value) ∧
    (Guards heap value (IsPlainObject heap value)
        (fun n ↦ assertJsonSafePlainObject heap n value fieldName) ↔
      (IsPlainObject heap value → Offends heap value ∨ ¬ ReachesHole heap value)) :=
  ⟨guards_assertJsonSerializableValue_iff, guards_assertJsonSafePlainObject_iff⟩

end

namespace Db.Sample

/-- `{ fees: [ , ] }`: under the only key, an array of one hole. -/
def sparse : Heap (Fin 2)
  | 0 => .object [codeUnits "fees"] (List.nodup_singleton _) fun _ ↦ .ref 1
  | 1 => .array fun _ : Fin 1 ↦ none

def terms : JsValue (Fin 2) := .ref 0

theorem not_offends_terms : ¬ Offends sparse terms := by
  intro h
  have hsearch : Refuses (assertJsonSerializable sparse 3 terms [] ∅) ∅ (Offends sparse terms) :=
    refuses_assertJsonSerializable_empty (by decide)
  obtain ⟨e, he⟩ := hsearch.refused h
  have haccepted : assertJsonSerializable sparse 3 terms [] ∅ = pure ∅ := rfl
  exact pure_ne_throw (haccepted.symm.trans he)

theorem reachesHole_terms : ReachesHole sparse terms :=
  ⟨1, .single ⟨0, rfl, 0, rfl⟩, 0, rfl⟩

example : stringify sparse 3 terms ∅ = pure (some "\x7b\"fees\":[null]\x7d".toList) := rfl

/-- Neither guard stops the hole. -/
theorem not_guards_terms :
    ¬ Guards sparse terms (IsPresent terms)
      (fun n ↦ assertJsonSerializableValue sparse n terms (codeUnits "terms")) ∧
    ¬ Guards sparse terms (IsPlainObject sparse terms)
      (fun n ↦ assertJsonSafePlainObject sparse n terms (codeUnits "terms")) := by
  have hpast : ¬ (Offends sparse terms ∨ ¬ ReachesHole sparse terms) :=
    not_or.2 ⟨not_offends_terms, not_not.2 reachesHole_terms⟩
  rw [guards_assertJsonSerializableValue_iff, guards_assertJsonSafePlainObject_iff]
  exact ⟨hpast, fun h ↦ hpast (h ⟨0, _, _, _, rfl, rfl⟩)⟩

end Db.Sample

section

variable {L : Type} {heap : Heap L} {l : L} {v : JsValue L}

/-! ### The guards of arrays -/

/-- **An array is refused when an element is**, where a hole is no element of the kind. -/
theorem refuses_assertArray {P : JsValue L → Prop} (hP : ¬ P .undefined)
    {assertItem : JsValue L → Text → ExceptT JsonShapeError Option Unit} {fieldName : Text}
    (h : ∀ item path, Refuses (assertItem item path) () (¬ P item ∨ Offends heap item)) :
    Refuses (assertArray heap v fieldName assertItem) () (¬ IsArrayOf heap P v ∨ Offends heap v) := by
  rw [assertArray]
  split_ifs with harray
  · refine (Refuses.foldlM (P := fun p ↦ ¬ P p.1 ∨ Offends heap p.1) fun p _ ↦ h p.1 _).congr ?_
    have hzip : (∃ p ∈ (elements heap v).zipIdx, ¬ P p.1 ∨ Offends heap p.1) ↔
        ∃ item ∈ elements heap v, ¬ P item ∨ Offends heap item := by
      constructor
      · rintro ⟨p, hp, hrefused⟩
        exact ⟨p.1, List.fst_mem_of_mem_zipIdx hp, hrefused⟩
      · rintro ⟨item, hitem, hrefused⟩
        obtain ⟨i, hi⟩ := List.mem_iff_getElem?.1 hitem
        exact ⟨(item, i), List.mem_zipIdx_iff_getElem?.2 hi, hrefused⟩
    rw [hzip]
    by_cases hkind : IsArrayOf heap P v
    · obtain ⟨l, rfl, -, hkey, hholds⟩ := hkind.exists_ref hP
      rw [or_iff_right (not_not.2 hkind), offends_ref_iff, or_iff_right hkey]
      refine exists_congr fun w ↦ ?_
      rw [hholds]
      exact and_congr_right fun hw ↦ or_iff_right (not_not.2 (hkind.2 w hw))
    · refine iff_of_true ?_ (.inl hkind)
      obtain ⟨item, hitem, hnot⟩ : ∃ item ∈ elements heap v, ¬ P item := by
        by_contra! hall
        exact hkind ⟨harray, hall⟩
      exact ⟨item, hitem, .inl hnot⟩
  · exact .of_throw _ (.inl fun hkind ↦ harray hkind.1)

variable [DecidableEq L] [Fintype L] {n : ℕ}

/-- **An array of strings is checked whole**: no hole gets past the guard. -/
theorem guards_assertStringArray {fieldName : Text} :
    Guards heap v (IsArrayOf heap (·.typeof = "string") v)
      fun _ ↦ assertStringArray heap v fieldName := by
  have hundefined : ¬ (JsValue.undefined : JsValue L).typeof = "string" := by simp [JsValue.typeof]
  have hitem (item : JsValue L) (path : Text) :
      Refuses (if item.typeof ≠ "string" then
          throw (jsonShapeError (path ++ codeUnits " must be a string, got " ++ codeUnits item.typeof))
        else pure () : ExceptT JsonShapeError Option Unit) ()
        (¬ item.typeof = "string" ∨ Offends heap item) := by
    split_ifs with hstring
    · exact .of_throw _ (.inl hstring)
    · obtain ⟨s, rfl⟩ := exists_string_of_typeof (not_not.1 hstring)
      exact .of_pure (not_or.2 ⟨hstring, not_offends_string⟩)
  refine (guards_iff fun n _ ↦ refuses_assertArray hundefined hitem).2 fun hkind ↦ .inr ?_
  obtain ⟨l, rfl, hhole, -, hholds⟩ := hkind.exists_ref hundefined
  rw [reachesHole_ref_iff, or_iff_right hhole]
  rintro ⟨w, hw, hreach⟩
  obtain ⟨s, rfl⟩ := exists_string_of_typeof (hkind.2 w ((hholds w).1 hw))
  exact not_reachesHole nofun hreach

/-- No hole of an array of objects gets past the guard, but one below an object does. -/
theorem guards_assertJsonSafeObjectArray_iff {fieldName : Text} :
    Guards heap v (IsArrayOf heap (IsPlainObject heap) v)
        (fun n ↦ assertJsonSafeObjectArray heap n v fieldName) ↔
      (IsArrayOf heap (IsPlainObject heap) v → Offends heap v ∨ ¬ ReachesHole heap v) := by
  have hundefined : ¬ IsPlainObject heap .undefined := by
    rintro ⟨l, keys, keys_nodup, values, ⟨⟩, -⟩
  exact guards_iff fun _ hn ↦
    refuses_assertArray hundefined fun _ _ ↦ refuses_assertJsonSafePlainObject hn

end

end TolPlatform
