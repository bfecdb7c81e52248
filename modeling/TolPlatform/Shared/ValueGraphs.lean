import Mathlib.Data.Fintype.Card
import TolPlatform.Library.PathSearch
import TolPlatform.Shared.Json

/-!
# Values in memory

A value together with the objects that it refers to, one of which may be shared or contain itself. Arrays
may have holes: `JSON.stringify` reads a hole as `undefined`, so that it writes `null` for it.

Where no value that JSON lacks can be reached, and no cycle, `JSON.stringify` has a text, which is read
back as the value with its holes filled with `null` (`stringify_eq_of_not_meets`, `Written`). So what
comes back is the value just when it has no hole anywhere (`roundTrips_iff`). The fuel of
`JSON.stringify` lasts because no object is on its stack twice.
-/

namespace TolPlatform

open Crypto (Value)
open PathSearch (Meets)
open Relation (ReflTransGen)

/-- A value. An object is known by its identity. -/
inductive JsValue (L : Type)
  | undefined | null
  | boolean (b : Bool)
  | number (x : Number)
  | bigint (n : ℤ)
  | string (s : Text)
  | symbol | function
  | ref (l : L)

/-- An array, whose slots may be holes, or a plain object with its own string keys. -/
inductive JsObject (L : Type)
  | array {n : ℕ} (slots : Fin n → Option (JsValue L))
  | object (keys : List Text) (keys_nodup : keys.Nodup) (values : Fin keys.length → JsValue L)

abbrev Heap (L : Type) : Type := L → JsObject L

section

variable {L : Type}

def JsValue.typeof : JsValue L → String
  | .undefined => "undefined"
  | .null | .ref _ => "object"
  | .boolean _ => "boolean"
  | .number _ => "number"
  | .bigint _ => "bigint"
  | .string _ => "string"
  | .symbol => "symbol"
  | .function => "function"

/-! ### What can be reached -/

def JsObject.Holds : JsObject L → JsValue L → Prop
  | .array slots, w => ∃ i, slots i = some w
  | .object _ _ values, w => ∃ i, values i = w

/-- An object has a value in a slot or under a key. -/
def Contains (heap : Heap L) (v w : JsValue L) : Prop := ∃ l, v = .ref l ∧ (heap l).Holds w

def JsObject.HasHole : JsObject L → Prop
  | .array slots => ∃ i, slots i = none
  | .object _ _ _ => False

def ReachesHole (heap : Heap L) (v : JsValue L) : Prop :=
  ∃ l, ReflTransGen (Contains heap) v (.ref l) ∧ (heap l).HasHole

/-- What JSON has no value for. -/
def JsValue.Unserializable : JsValue L → Prop
  | .undefined | .bigint _ | .symbol | .function => True
  | .number x => ∀ d, x ≠ .finite d
  | .null | .boolean _ | .string _ | .ref _ => False

variable {heap : Heap L} {l : L} {v w : JsValue L}

theorem contains_ref_iff : Contains heap (.ref l) w ↔ (heap l).Holds w := by
  constructor
  · rintro ⟨_, ⟨⟩, h⟩
    exact h
  · exact fun h ↦ ⟨l, rfl, h⟩

theorem not_contains (hv : ∀ l, v ≠ .ref l) : ¬ Contains heap v w := fun ⟨l, hl, _⟩ ↦ hv l hl

theorem not_reachesHole (hv : ∀ l, v ≠ .ref l) : ¬ ReachesHole heap v := by
  rintro ⟨l, hreach, -⟩
  rcases hreach.cases_head with rfl | ⟨w, hcontains, -⟩
  · exact hv l rfl
  · exact not_contains hv hcontains

/-- A hole is in the object itself or below a value that it holds. -/
theorem reachesHole_ref_iff :
    ReachesHole heap (.ref l) ↔ (heap l).HasHole ∨ ∃ w, (heap l).Holds w ∧ ReachesHole heap w := by
  constructor
  · rintro ⟨l', hreach, hhole⟩
    rcases hreach.cases_head with heq | ⟨w, hcontains, hreach'⟩
    · cases heq
      exact .inl hhole
    · exact .inr ⟨w, contains_ref_iff.1 hcontains, l', hreach', hhole⟩
  · rintro (hhole | ⟨w, hholds, l', hreach, hhole⟩)
    · exact ⟨l, .refl, hhole⟩
    · exact ⟨l', .head (contains_ref_iff.2 hholds) hreach, hhole⟩

/-! ### The objects on a path -/

/-- A path, from the objects that are on it. -/
def pathOf (seen : Finset L) : Set (JsValue L) := JsValue.ref '' seen

theorem notMem_pathOf {seen : Finset L} (hv : ∀ l, v ≠ .ref l) : v ∉ pathOf seen :=
  fun ⟨l, _, hl⟩ ↦ hv l hl.symm

theorem ref_mem_pathOf {seen : Finset L} : .ref l ∈ pathOf seen ↔ l ∈ seen :=
  Function.Injective.mem_set_image fun _ _ ↦ JsValue.ref.inj

theorem pathOf_empty : pathOf (∅ : Finset L) = ∅ := by
  rw [pathOf, Finset.coe_empty, Set.image_empty]

theorem pathOf_insert [DecidableEq L] (seen : Finset L) :
    pathOf (insert l seen) = insert (.ref l) (pathOf seen) := by
  rw [pathOf, Finset.coe_insert, Set.image_insert_eq]
  rfl

theorem card_compl_insert_lt [Fintype L] [DecidableEq L] {seen : Finset L} (h : l ∉ seen) :
    (insert l seen)ᶜ.card < seenᶜ.card :=
  Finset.card_lt_card (Finset.compl_ssubset_compl.2 (Finset.ssubset_insert h))

/-! ### `JSON.stringify` -/

/-- The `TypeError`s of `JSON.stringify`. -/
inductive StringifyError
  | bigint | circular

/-- `SerializeJSONProperty` of the language, and no text for what it leaves out. It would first call a
method `toJSON`, but none is here among values without functions. -/
def stringify [DecidableEq L] (heap : Heap L) :
    ℕ → JsValue L → Finset L → ExceptT StringifyError Option (Option (List Char))
  | 0, _, _ => .mk none
  | n + 1, value, stack =>
    match value with
    | .undefined | .symbol | .function => pure none
    | .null => pure (some "null".toList)
    | .boolean b => pure (some (JSON.jsonText (.boolean b)))
    | .number x => pure (some (Crypto.stringifyNumber x))
    | .bigint _ => throw .bigint
    | .string s => pure (some (quote s))
    | .ref l =>
      if l ∈ stack then throw .circular
      else
        match heap l with
        | .array slots => do
          let texts ← (List.finRange _).mapM fun i ↦
            stringify heap n ((slots i).getD .undefined) (insert l stack)
          return some (Crypto.arrayText (texts.map (·.getD "null".toList)))
        | .object keys _ values => do
          let members ← (List.finRange _).mapM fun i ↦ do
            let text ← stringify heap n (values i) (insert l stack)
            return text.map (keys.get i, ·)
          return some (JSON.membersText (members.filterMap id))

/-- A value is equal to a JSON value, in all that it contains. -/
inductive Equals (heap : Heap L) : JsValue L → Value → Prop
  | null : Equals heap .null .null
  | boolean (b : Bool) : Equals heap (.boolean b) (.boolean b)
  | number (x : Double) : Equals heap (.number (.finite x)) (.number (.finite x))
  | string (s : Text) : Equals heap (.string s) (.string s)
  | array {l : L} {n : ℕ} {slots : Fin n → Option (JsValue L)} {items : Fin n → Value}
    {values : Fin n → JsValue L} (hl : heap l = .array slots) (hslots : ∀ i, slots i = some (values i))
    (h : ∀ i, Equals heap (values i) (items i)) : Equals heap (.ref l) (.array items)
  | object {l : L} {keys keys' : List Text} {keys_nodup : keys.Nodup} {keys_nodup' : keys'.Nodup}
    {values : Fin keys.length → JsValue L} {values' : Fin keys'.length → Value}
    (hl : heap l = .object keys keys_nodup values) (hkeys : ∀ k, k ∈ keys ↔ k ∈ keys')
    (hvalues : ∀ i j, keys.get i = keys'.get j → Equals heap (values i) (values' j)) :
    Equals heap (.ref l) (.object keys' keys_nodup' values')

/-- `JSON.parse(JSON.stringify(value))` is a value equal to `value`. -/
def RoundTrips [DecidableEq L] (heap : Heap L) (fuel : ℕ) (value : JsValue L) : Prop :=
  ∃ t a, stringify heap fuel value ∅ = pure (some t) ∧ JSON.parse t = some a ∧ Equals heap value a

/-! ### What comes back -/

/-- A JSON value is the value with its holes filled with `null`. -/
inductive Written (heap : Heap L) : JsValue L → Value → Prop
  | null : Written heap .null .null
  | boolean (b : Bool) : Written heap (.boolean b) (.boolean b)
  | number (x : Double) : Written heap (.number (.finite x)) (.number (.finite x))
  | string (s : Text) : Written heap (.string s) (.string s)
  | array {l : L} {n : ℕ} {slots : Fin n → Option (JsValue L)} {items : Fin n → Value}
    (hl : heap l = .array slots) (h : ∀ i, Written heap ((slots i).getD .null) (items i)) :
    Written heap (.ref l) (.array items)
  | object {l : L} {keys : List Text} {keys_nodup : keys.Nodup} {values : Fin keys.length → JsValue L}
    {values' : Fin keys.length → Value} (hl : heap l = .object keys keys_nodup values)
    (h : ∀ i, Written heap (values i) (values' i)) :
    Written heap (.ref l) (.object keys keys_nodup values')

variable {a : Value}

theorem Equals.not_reachesHole (h : Equals heap v a) : ¬ ReachesHole heap v := by
  induction h with
  | null => exact TolPlatform.not_reachesHole nofun
  | boolean b => exact TolPlatform.not_reachesHole nofun
  | number x => exact TolPlatform.not_reachesHole nofun
  | string s => exact TolPlatform.not_reachesHole nofun
  | array hl hslots h ih =>
    rw [reachesHole_ref_iff, hl]
    rintro (⟨i, hi⟩ | ⟨w, ⟨i, hi⟩, hw⟩)
    · exact absurd ((hslots i).symm.trans hi) (Option.some_ne_none _)
    · obtain rfl := Option.some.inj ((hslots i).symm.trans hi)
      exact ih i hw
  | object hl hkeys hvalues ih =>
    rw [reachesHole_ref_iff, hl]
    rintro (hhole | ⟨w, ⟨i, rfl⟩, hw⟩)
    · exact hhole
    · obtain ⟨j, hj⟩ := List.mem_iff_get.1 ((hkeys _).1 (List.get_mem _ i))
      exact ih i j hj.symm hw

/-- Without holes, nothing else comes back. -/
theorem Written.equals (h : Written heap v a) (hholes : ¬ ReachesHole heap v) : Equals heap v a := by
  induction h with
  | null => exact .null
  | boolean b => exact .boolean b
  | number x => exact .number x
  | string s => exact .string s
  | @array l n slots items hl h ih =>
    rw [reachesHole_ref_iff, hl, not_or, not_exists] at hholes
    obtain ⟨hhole, hbelow⟩ := hholes
    have hslots (i) : slots i = some ((slots i).getD .null) := by
      rcases hi : slots i with - | w
      · exact absurd ⟨i, hi⟩ hhole
      · rfl
    exact .array hl hslots fun i ↦ ih i fun hw ↦ hbelow _ ⟨⟨i, hslots i⟩, hw⟩
  | object hl h ih =>
    rename_i keys keys_nodup values values'
    rw [reachesHole_ref_iff, hl, not_or, not_exists] at hholes
    refine .object hl (fun _ ↦ Iff.rfl) fun i j hij ↦ ?_
    obtain rfl := List.nodup_iff_injective_get.1 keys_nodup hij
    exact ih i fun hw ↦ hholes.2 _ ⟨⟨i, rfl⟩, hw⟩

section

variable [DecidableEq L] {n : ℕ} {stack : Finset L} (hl : l ∉ stack)

include hl

theorem stringify_array {m : ℕ} {slots : Fin m → Option (JsValue L)}
    {texts : Fin m → Option (List Char)} (hobject : heap l = .array slots)
    (h : ∀ i, stringify heap n ((slots i).getD .undefined) (insert l stack) = pure (texts i)) :
    stringify heap (n + 1) (.ref l) stack =
      pure (some (Crypto.arrayText (List.ofFn fun i ↦ (texts i).getD "null".toList))) := by
  rw [stringify]
  simp only [if_neg hl, hobject, h, List.mapM_pure, pure_bind, List.map_map, List.ofFn_eq_map]
  rfl

theorem stringify_object {keys : List Text} {keys_nodup : keys.Nodup}
    {values : Fin keys.length → JsValue L} {texts : Fin keys.length → List Char}
    (hobject : heap l = .object keys keys_nodup values)
    (h : ∀ i, stringify heap n (values i) (insert l stack) = pure (some (texts i))) :
    stringify heap (n + 1) (.ref l) stack =
      pure (some (JSON.membersText (List.ofFn fun i ↦ (keys.get i, texts i)))) := by
  have hmembers : (List.finRange keys.length).filterMap (id ∘ fun i ↦ some (keys.get i, texts i)) =
      (List.finRange keys.length).map fun i ↦ (keys.get i, texts i) := congrFun List.filterMap_eq_map _
  rw [stringify]
  simp only [if_neg hl, hobject, h, pure_bind, Option.map_some, List.mapM_pure, List.filterMap_map,
    List.ofFn_eq_map]
  rw [hmembers]

end

variable [Fintype L] [DecidableEq L]

/-- **A search that meets no cycle and nothing that JSON lacks leaves a text**, which is that of the
value with its holes filled. -/
theorem stringify_eq_of_not_meets {n : ℕ} {stack : Finset L} (hn : stackᶜ.card < n)
    (h : ¬ Meets (Contains heap) JsValue.Unserializable (pathOf stack) v) :
    ∃ a, a.IsJson ∧ stringify heap n v stack = pure (some (JSON.jsonText a)) ∧ Written heap v a := by
  induction n generalizing v stack with
  | zero => exact absurd hn (Nat.not_lt_zero _)
  | succ n ih =>
    have hfit : ¬ v.Unserializable := fun hbad ↦ h (.bad hbad)
    cases v with
    | undefined => exact (hfit trivial).elim
    | symbol => exact (hfit trivial).elim
    | function => exact (hfit trivial).elim
    | bigint => exact (hfit trivial).elim
    | null => exact ⟨.null, trivial, rfl, .null⟩
    | boolean b => exact ⟨.boolean b, trivial, rfl, .boolean b⟩
    | string s => exact ⟨.string s, trivial, rfl, .string s⟩
    | number x =>
      cases x with
      | finite x => exact ⟨.number (.finite x), ⟨x, rfl⟩, rfl, .number x⟩
      | infinity negative => exact (hfit fun _ hx ↦ Number.noConfusion hx).elim
      | nan => exact (hfit fun _ hx ↦ Number.noConfusion hx).elim
    | ref l =>
      have hl : l ∉ stack := fun hmem ↦ h (.closed (ref_mem_pathOf.2 hmem))
      have hfuel := lt_of_lt_of_le (card_compl_insert_lt hl) (Nat.le_of_lt_succ hn)
      have hread {w : JsValue L} (hw : (heap l).Holds w) : ∃ a, a.IsJson ∧
          stringify heap n w (insert l stack) = pure (some (JSON.jsonText a)) ∧ Written heap w a := by
        refine ih hfuel fun hmeets ↦ ?_
        rw [pathOf_insert] at hmeets
        exact h (.inside (contains_ref_iff.2 hw) hmeets)
      rcases hobject : heap l with ⟨slots⟩ | ⟨keys, keys_nodup, values⟩
      · have hslot (i) : ∃ a t, a.IsJson ∧
            stringify heap n ((slots i).getD .undefined) (insert l stack) = pure t ∧
            t.getD "null".toList = JSON.jsonText a ∧ Written heap ((slots i).getD .null) a := by
          rcases hi : slots i with - | w
          · obtain ⟨n, rfl⟩ : ∃ m, n = m + 1 := ⟨n - 1, by omega⟩
            exact ⟨.null, none, trivial, rfl, rfl, .null⟩
          · obtain ⟨a, hjson, hstringify, hwritten⟩ := hread (w := w) (hobject ▸ ⟨i, hi⟩)
            exact ⟨a, _, hjson, hstringify, rfl, hwritten⟩
        choose items texts hjson hstringify htext hwritten using hslot
        refine ⟨.array items, hjson, ?_, .array hobject hwritten⟩
        rw [stringify_array hl hobject hstringify, JSON.jsonText]
        simp only [htext]
      · have hmember (i) := hread (w := values i) (hobject ▸ ⟨i, rfl⟩)
        choose values' hjson hstringify hwritten using hmember
        refine ⟨.object keys keys_nodup values', hjson, ?_, .object hobject hwritten⟩
        rw [stringify_object hl hobject hstringify, JSON.jsonText]

/-- **A value comes back as it was just when it has no hole.** -/
theorem roundTrips_iff {n : ℕ} (hn : Fintype.card L < n)
    (h : ¬ PathSearch.Reaches (Contains heap) JsValue.Unserializable v) :
    RoundTrips heap n v ↔ ¬ ReachesHole heap v := by
  have hsearch : ¬ Meets (Contains heap) JsValue.Unserializable (pathOf ∅) v := by
    rwa [pathOf_empty, PathSearch.meets_empty_iff]
  have hfuel : (∅ : Finset L)ᶜ.card < n := by rwa [Finset.compl_empty]
  obtain ⟨a, hjson, htext, hwritten⟩ := stringify_eq_of_not_meets hfuel hsearch
  constructor
  · rintro ⟨t, b, hstringify, hparse, hequals⟩
    exact hequals.not_reachesHole
  · exact fun hholes ↦ ⟨_, a, htext, JSON.parse_jsonText hjson, hwritten.equals hholes⟩

end

end TolPlatform
