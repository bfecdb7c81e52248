import Mathlib.Data.List.Nodup
import TolPlatform.Library.ReadCommitted

/-!
# Unique constraints at READ COMMITTED

An insertion is refused if its key is in use, as far as its own transaction sees. That does not include
what others have pending; but it waits for an insertion of the same key that is. So the keys in use and
those pending stay pairwise distinct (`Distinct.step`), whatever is committed in between.
-/

namespace StatementSystem

variable {σ ε δ Draws Local Pid Key : Type} [DecidableEq Pid]

/-- A unique constraint: the keys in use, and the key that a change inserts. -/
structure UniqueKey (C : StatementSystem σ ε δ Draws Local) (Key : Type) where
  keys : σ → List Key
  inserted : δ → Option Key
  keys_apply : ∀ db change, keys (C.changes.apply db change) = keys db ++ (inserted change).toList
  refuses : ∀ {db change k}, inserted change = some k → k ∈ keys db →
    C.changes.refuses db change ≠ none
  waits : ∀ {change other k}, inserted change = some k → inserted other = some k →
    C.changes.waitsFor change other = true
  /-- One statement inserts distinct keys. -/
  distinct : ∀ {d l f db changes l'}, C.next d l = .write f → f db = .ok (changes, l') →
    (changes.filterMap inserted).Nodup

namespace UniqueKey

variable {C : StatementSystem σ ε δ Draws Local} (U : C.UniqueKey Key) {p : Pid}
  {s s' : Shared σ δ Local Pid} {l l' : Local} {t : Tick Draws}

/-- The keys that are pending. -/
def pendingKeys (s : Shared σ δ Local Pid) : List Key := s.pending.filterMap (U.inserted ·.2)

/-- No key is in use or pending twice. -/
structure Distinct (s : Shared σ δ Local Pid) : Prop where
  keys : (U.keys s.db ++ U.pendingKeys s).Nodup
  running : ∀ {q changes l}, s.running q = some (changes, l) → (changes.filterMap U.inserted).Nodup

theorem keys_foldl (db : σ) (pending : List δ) :
    U.keys (pending.foldl C.changes.apply db) = U.keys db ++ pending.filterMap U.inserted := by
  induction pending generalizing db with
  | nil => exact (List.append_nil _).symm
  | cons change pending ih =>
    rw [List.foldl_cons, ih, U.keys_apply, List.append_assoc]
    cases hinserted : U.inserted change with
    | none => rw [List.filterMap_cons_none hinserted, Option.toList_none, List.nil_append]
    | some k =>
      rw [List.filterMap_cons_some hinserted]
      rfl

/-- The keys that a party sees. -/
theorem keys_visible (s : Shared σ δ Local Pid) (p : Pid) :
    U.keys (s.visible C.changes p) =
      U.keys s.db ++ (s.pending.filter (·.1 = p)).filterMap (U.inserted ·.2) := by
  rw [Shared.visible, keys_foldl, Shared.pendingOf, List.filterMap_map]
  rfl

variable {U}

omit [DecidableEq Pid] in
theorem distinct_quiet {db : σ} (h : (U.keys db).Nodup) :
    U.Distinct (.quiet db : Shared σ δ Local Pid) :=
  ⟨by rwa [pendingKeys, Shared.quiet, List.filterMap_nil, List.append_nil], fun hrun ↦ nomatch hrun⟩

/-- A key that is being inserted is neither in use nor pending. -/
theorem fresh_of_finished {changes : List δ} {k : Key}
    (hblocked : s.blocked C.changes p changes = false)
    (hrefused : ∀ change ∈ changes.filter (C.changes.stands (s.visible C.changes p)),
      C.changes.refuses (s.visible C.changes p) change = none)
    (hk : k ∈ (changes.filter (C.changes.stands (s.visible C.changes p))).filterMap U.inserted) :
    k ∉ U.keys s.db ++ U.pendingKeys s := by
  obtain ⟨change, hchange, hinserted⟩ := List.mem_filterMap.1 hk
  have hunseen : k ∉ U.keys (s.visible C.changes p) := fun hseen ↦
    U.refuses hinserted hseen (hrefused change hchange)
  rw [U.keys_visible, List.mem_append, not_or] at hunseen
  intro hused
  rcases List.mem_append.1 hused with hused | hpending
  · exact hunseen.1 hused
  · obtain ⟨⟨q, other⟩, hother, hkey⟩ := List.mem_filterMap.1 hpending
    by_cases hq : q = p
    · exact hunseen.2 (List.mem_filterMap.2
        ⟨(q, other), List.mem_filter.2 ⟨hother, decide_eq_true hq⟩, hkey⟩)
    · -- somebody else's insertion of the key would be in the way
      have hwaits : changes.any (C.changes.waitsFor · other) = true :=
        List.any_eq_true.2 ⟨change, (List.mem_filter.1 hchange).1, U.waits hinserted hkey⟩
      have hblocking := List.any_eq_false.1 hblocked (q, other) hother
      exact hblocking (Bool.and_eq_true_iff.2 ⟨decide_eq_true hq, hwaits⟩)

/-- A commit moves the keys of one party from what is pending to what is in use. -/
theorem keys_visible_perm (s : Shared σ δ Local Pid) (p : Pid) :
    (U.keys (s.visible C.changes p) ++
      (s.pending.filter (·.1 ≠ p)).filterMap (U.inserted ·.2)).Perm
        (U.keys s.db ++ U.pendingKeys s) := by
  rw [U.keys_visible, List.append_assoc, ← List.filterMap_append]
  refine List.Perm.append_left _ (List.Perm.filterMap _ ?_)
  have hsplit := List.filter_append_perm (fun other : Pid × δ ↦ decide (other.1 = p)) s.pending
  simpa only [decide_not] using hsplit

/-- A statement that ended is no longer one that runs. -/
theorem Distinct.running_update (h : U.Distinct s) {q : Pid} {changes : List δ} {l : Local}
    (hrun : Function.update s.running p none q = some (changes, l)) :
    (changes.filterMap U.inserted).Nodup := by
  by_cases hq : q = p
  · rw [hq, Function.update_self] at hrun
    cases hrun
  · rw [Function.update_of_ne hq] at hrun
    exact h.running hrun

/-- **Keys stay distinct**, step by step. -/
theorem Distinct.step (h : U.Distinct s) (htransition : C.Transition p s l t s' l') :
    U.Distinct s' := by
  cases htransition with
  | queried => exact h
  | started hidle hnext hf =>
    refine ⟨h.keys, fun {q changes l₁} hrun ↦ ?_⟩
    by_cases hq : q = p
    · subst hq
      have hrun' := (Function.update_self q _ s.running).symm.trans hrun
      obtain ⟨rfl, rfl⟩ := Prod.mk.inj (Option.some.inj hrun')
      exact U.distinct hnext hf
    · exact h.running ((Function.update_of_ne hq _ s.running).symm.trans hrun)
  | finished hrunning hblocked hrefused =>
    refine ⟨?_, h.running_update⟩
    rw [pendingKeys, Shared.finish, List.filterMap_append, List.filterMap_map, ← List.append_assoc]
    refine List.Nodup.append h.keys ?_ fun k hold hk ↦ fresh_of_finished hblocked hrefused hk hold
    exact (h.running hrunning).sublist (List.filter_sublist.filterMap _)
  | committed =>
    exact ⟨(keys_visible_perm s p).nodup_iff.2 h.keys, h.running_update⟩
  | failed | crashed =>
    refine ⟨h.keys.sublist (List.Sublist.append_left ?_ _), h.running_update⟩
    exact List.filter_sublist.filterMap _

omit [DecidableEq Pid] in
/-- **A unique constraint holds** of what is committed. -/
theorem Distinct.nodup (h : U.Distinct s) : (U.keys s.db).Nodup := h.keys.of_append_left

end UniqueKey

end StatementSystem
