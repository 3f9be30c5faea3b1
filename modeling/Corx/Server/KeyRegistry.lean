import Corx.Base.Run
import Corx.Server.RateLimit

/-!
# The key registry under concurrent requests

Any number of calls of `admit_key` on one registry, taken apart into their operations on the
map: each is one atomic step, and the steps of different calls interleave freely. A call alone
computes `admitKey` (`run_alone`).

The cap holds once all calls have returned: a key in excess belongs to a call that has not
counted again yet, or is about to undo (`OnlyPendingExceed`). What an interleaving can break is
that an admitted key stays registered. It does so exactly by an undo that takes away a key that
another call was admitted with, or by an admission whose key such an undo has taken away before
(`Undisturbed`, `admitKey_runs`).
-/

namespace Corx

namespace RateLimiter

/-- Where a call of `admit_key` stands: before its next operation on the map, or returned. -/
inductive CallState
  /-- Before `contains_key`. -/
  | contains
  /-- Before the first `len`. -/
  | count
  /-- Before `insert`. -/
  | insertion
  /-- Before the second `len`. -/
  | recount
  /-- Before `remove`. -/
  | undo
  | admitted
  | rejected
  deriving DecidableEq, Repr

/-- The call has returned. -/
def CallState.finished : CallState → Bool
  | admitted | rejected => true
  | _ => false

/-- The registry, and where each call stands. -/
structure Registry (ι K : Type) where
  keys : Finset K
  call : ι → CallState

variable {ι K : Type} [DecidableEq ι] [DecidableEq K]

/-- The next operation of a call for `key`: where it takes the call, and the keys it leaves. -/
def CallState.next (maxKeys : ℕ) (key : K) (keys : Finset K) : CallState → CallState × Finset K
  | contains => (if key ∈ keys then admitted else count, keys)
  | count => (if maxKeys ≤ keys.card then rejected else insertion, keys)
  | insertion => (recount, insert key keys)
  | recount => (if maxKeys < keys.card then undo else admitted, keys)
  | undo => (rejected, keys.erase key)
  | admitted => (admitted, keys)
  | rejected => (rejected, keys)

/-- A call that is admitted by its next operation finds its key, or counts again within the
cap. -/
theorem CallState.of_next_eq_admitted {maxKeys : ℕ} {key : K} {keys : Finset K} {c : CallState}
    (hc : c.finished = false) (h : (c.next maxKeys key keys).1 = .admitted) :
    (c = .contains ∧ key ∈ keys) ∨ (c = .recount ∧ keys.card ≤ maxKeys) := by
  cases c with
  | contains =>
    refine .inl ⟨rfl, by_contra fun hmem => ?_⟩
    simp [next, hmem] at h
  | recount =>
    refine .inr ⟨rfl, Nat.le_of_not_lt fun hover => ?_⟩
    simp [next, hover] at h
  | count => by_cases hfull : maxKeys ≤ keys.card <;> simp [next, hfull] at h
  | insertion => cases h
  | undo => cases h
  | admitted => cases hc
  | rejected => cases hc

namespace Registry

/-- The next operation of the call `i`. -/
def advance (maxKeys : ℕ) (keyOf : ι → K) (s : Registry ι K) (i : ι) : Registry ι K where
  keys := ((s.call i).next maxKeys (keyOf i) s.keys).2
  call := Function.update s.call i ((s.call i).next maxKeys (keyOf i) s.keys).1

/-- A call that has not returned does its next operation. -/
def Step (maxKeys : ℕ) (keyOf : ι → K) (s : Registry ι K) (i : ι) (t : Registry ι K) : Prop :=
  (s.call i).finished = false ∧ t = s.advance maxKeys keyOf i

variable {maxKeys : ℕ} {keyOf : ι → K} {s t : Registry ι K} {i j : ι} {es : List ι}

/-- An operation moves its own call. -/
@[simp]
theorem call_advance_self :
    (s.advance maxKeys keyOf i).call i = ((s.call i).next maxKeys (keyOf i) s.keys).1 :=
  Function.update_self ..

/-- An operation of one call leaves the others where they are. -/
@[simp]
theorem call_advance_of_ne (h : j ≠ i) : (s.advance maxKeys keyOf i).call j = s.call j :=
  Function.update_of_ne h ..

/-- The keys that an operation leaves. -/
@[simp]
theorem keys_advance :
    (s.advance maxKeys keyOf i).keys = ((s.call i).next maxKeys (keyOf i) s.keys).2 :=
  rfl

/-! ## A call alone -/

omit [DecidableEq ι] in
/-- The call `i` has returned what a call of `admitKey` returns, and the registry is the one it
leaves. -/
def ReturnsLike (s : Registry ι K) (i : ι) (result : Except Rejection Unit × Finset K) : Prop :=
  s.keys = result.2 ∧
    ((s.call i = .admitted ∧ result.1 = .ok ()) ∨ (s.call i = .rejected ∧ result.1 ≠ .ok ()))

/-- Without interruption the call `i` comes to return the given result. -/
def ComesTo (maxKeys : ℕ) (keyOf : ι → K) (s : Registry ι K) (i : ι)
    (result : Except Rejection Unit × Finset K) : Prop :=
  ∃ n t, Run (Step maxKeys keyOf) s (List.replicate n i) t ∧ t.ReturnsLike i result

/-- It comes to what it comes to after its next operation. -/
theorem ComesTo.of_advance {result : Except Rejection Unit × Finset K}
    (hi : (s.call i).finished = false)
    (h : ComesTo maxKeys keyOf (s.advance maxKeys keyOf i) i result) :
    ComesTo maxKeys keyOf s i result := by
  obtain ⟨n, t, hrun, ht⟩ := h
  exact ⟨n + 1, t, .cons ⟨hi, rfl⟩ hrun, ht⟩

/-- A call that runs without interruption computes `admitKey`. -/
theorem comesTo_admitKey (dimension : Dimension) (hi : s.call i = .contains) :
    ComesTo maxKeys keyOf s i (admitKey s.keys (keyOf i) maxKeys dimension) := by
  unfold admitKey
  apply ComesTo.of_advance (by simp [hi, CallState.finished])
  by_cases hmem : keyOf i ∈ s.keys
  · exact ⟨0, _, .nil _, by simp [ReturnsLike, hi, CallState.next, hmem]⟩
  apply ComesTo.of_advance (by simp [hi, CallState.next, hmem, CallState.finished])
  rw [if_neg hmem]
  by_cases hfull : maxKeys ≤ s.keys.card
  · exact ⟨0, _, .nil _, by simp [ReturnsLike, hi, CallState.next, hmem, hfull, reject]⟩
  rw [if_neg hfull]
  -- insert and count again
  apply ComesTo.of_advance (by simp [hi, CallState.next, hmem, hfull, CallState.finished])
  apply ComesTo.of_advance (by simp [hi, CallState.next, hmem, hfull, CallState.finished])
  -- nobody else has inserted in between, so there is no overshoot
  have hfits : ¬ maxKeys < s.keys.card + 1 := by omega
  exact ⟨0, _, .nil _, by simp [ReturnsLike, hi, CallState.next, hmem, hfull, hfits]⟩

/-! ## The cap -/

/-- A call for `k` has inserted it and neither counted again nor undone the insertion yet. -/
def Pending (keyOf : ι → K) (s : Registry ι K) (k : K) : Prop :=
  ∃ i, (s.call i = .recount ∨ s.call i = .undo) ∧ keyOf i = k

open Classical in
/-- Without the pending keys the registry is within its cap. -/
def OnlyPendingExceed (maxKeys : ℕ) (keyOf : ι → K) (s : Registry ι K) : Prop :=
  (s.keys.filter fun k => ¬ s.Pending keyOf k).card ≤ maxKeys

/-- A pending key stays so, unless it is pending for the call that does its operation. -/
theorem Pending.advance {k : K} (h : s.Pending keyOf k) (i : ι) :
    (s.advance maxKeys keyOf i).Pending keyOf k ∨
      (keyOf i = k ∧ (s.call i = .recount ∨ s.call i = .undo)) := by
  obtain ⟨j, hj, hkey⟩ := h
  by_cases hji : j = i
  · exact .inr ⟨hji ▸ hkey, hji ▸ hj⟩
  · exact .inl ⟨j, by rwa [call_advance_of_ne hji], hkey⟩

/-- A pending key stays so when a call does its operation that has inserted nothing. -/
theorem Pending.advance_of_ne {k : K} (hrecount : s.call i ≠ .recount) (hundo : s.call i ≠ .undo)
    (h : s.Pending keyOf k) : (s.advance maxKeys keyOf i).Pending keyOf k :=
  (h.advance i).resolve_right fun ⟨_, hstate⟩ => hstate.elim hrecount hundo

/-- The key of a call that comes to count again, or to undo, is pending. -/
theorem pending_advance_self (h : ((s.call i).next maxKeys (keyOf i) s.keys).1 = .recount ∨
    ((s.call i).next maxKeys (keyOf i) s.keys).1 = .undo) :
    (s.advance maxKeys keyOf i).Pending keyOf (keyOf i) :=
  ⟨i, by rwa [call_advance_self], rfl⟩

/-- Every operation keeps the excess to pending keys. -/
theorem onlyPendingExceed_step (hs : s.OnlyPendingExceed maxKeys keyOf)
    (h : Step maxKeys keyOf s i t) : t.OnlyPendingExceed maxKeys keyOf := by
  classical
  obtain ⟨hi, rfl⟩ := h
  unfold OnlyPendingExceed at hs ⊢
  -- unless the registry is within the cap as a whole, no key comes to exceed it
  suffices hsub : (s.advance maxKeys keyOf i).keys.card ≤ maxKeys ∨
      ∀ k ∈ (s.advance maxKeys keyOf i).keys, ¬ (s.advance maxKeys keyOf i).Pending keyOf k →
        k ∈ s.keys ∧ ¬ s.Pending keyOf k by
    rcases hsub with hcap | hsub
    · exact (Finset.card_filter_le _ _).trans hcap
    · refine (Finset.card_le_card fun k hk => ?_).trans hs
      rw [Finset.mem_filter] at hk ⊢
      exact hsub k hk.1 hk.2
  cases hcall : s.call i with
  | contains =>
    refine .inr fun k hk hpending => ⟨by simpa [hcall, CallState.next] using hk, fun hold => ?_⟩
    exact hpending (hold.advance_of_ne (by simp [hcall]) (by simp [hcall]))
  | count =>
    refine .inr fun k hk hpending => ⟨by simpa [hcall, CallState.next] using hk, fun hold => ?_⟩
    exact hpending (hold.advance_of_ne (by simp [hcall]) (by simp [hcall]))
  | insertion =>
    -- the key inserted is pending itself
    have hself : (s.advance maxKeys keyOf i).Pending keyOf (keyOf i) :=
      pending_advance_self (by simp [hcall, CallState.next])
    refine .inr fun k hk hpending => ⟨?_, fun hold => ?_⟩
    · rw [keys_advance, hcall] at hk
      exact (Finset.mem_insert.mp hk).resolve_left fun heq => hpending (heq ▸ hself)
    · exact hpending (hold.advance_of_ne (by simp [hcall]) (by simp [hcall]))
  | recount =>
    by_cases hover : maxKeys < s.keys.card
    · have hself : (s.advance maxKeys keyOf i).Pending keyOf (keyOf i) :=
        pending_advance_self (by simp [hcall, CallState.next, hover])
      refine .inr fun k hk hpending => ⟨by simpa [hcall, CallState.next] using hk, fun hold => ?_⟩
      rcases hold.advance i with hnew | ⟨hkey, -⟩
      · exact hpending hnew
      · exact hpending (hkey ▸ hself)
    · exact .inl (by simpa [hcall, CallState.next] using hover)
  | undo =>
    refine .inr fun k hk hpending => ?_
    rw [keys_advance, hcall] at hk
    obtain ⟨hne, hmem⟩ := Finset.mem_erase.mp hk
    refine ⟨hmem, fun hold => ?_⟩
    rcases hold.advance i with hnew | ⟨hkey, -⟩
    · exact hpending hnew
    · exact hne hkey.symm
  | admitted => rw [hcall] at hi; cases hi
  | rejected => rw [hcall] at hi; cases hi

/-- Once all calls have returned, the registry is within its cap. -/
theorem card_keys_le (hcap : s.keys.card ≤ maxKeys) (h : Run (Step maxKeys keyOf) s es t)
    (hdone : ∀ i, (t.call i).finished = true) : t.keys.card ≤ maxKeys := by
  classical
  have hs : s.OnlyPendingExceed maxKeys keyOf := (Finset.card_filter_le _ _).trans hcap
  have ht : t.OnlyPendingExceed maxKeys keyOf :=
    h.invariant (fun _ _ _ hs hstep => onlyPendingExceed_step hs hstep) hs
  -- no key is pending any more
  have hnone : ∀ k, ¬ t.Pending keyOf k := by
    rintro k ⟨i, hi | hi, -⟩
    · simpa [hi, CallState.finished] using hdone i
    · simpa [hi, CallState.finished] using hdone i
  unfold OnlyPendingExceed at ht
  rwa [Finset.filter_true_of_mem fun k _ => hnone k] at ht

/-! ## Admitted keys -/

/-- The key of every admitted call is registered. -/
def AdmittedRegistered (keyOf : ι → K) (s : Registry ι K) : Prop :=
  ∀ i, s.call i = .admitted → keyOf i ∈ s.keys

/-- The operation does not disturb an admission: an undo does not take away a key that another
call was admitted with, and a call that counts again and finds the registry within its cap
still finds its own key there. -/
def Undisturbed (maxKeys : ℕ) (keyOf : ι → K) (s : Registry ι K) (i : ι) : Prop :=
  (s.call i = .undo → ∀ j, s.call j = .admitted → keyOf j ≠ keyOf i) ∧
  (s.call i = .recount → s.keys.card ≤ maxKeys → keyOf i ∈ s.keys)

/-- An operation keeps the admitted keys registered exactly if it does not disturb an
admission. -/
theorem admittedRegistered_step_iff (hs : s.AdmittedRegistered keyOf)
    (h : Step maxKeys keyOf s i t) :
    t.AdmittedRegistered keyOf ↔ s.Undisturbed maxKeys keyOf i := by
  obtain ⟨hi, rfl⟩ := h
  constructor
  · refine fun ht => ⟨fun hundo j hj hkey => ?_, fun hrecount hfits => ?_⟩
    · have hji : j ≠ i := by
        rintro rfl
        rw [hundo] at hj
        cases hj
      have hmem := ht j (by rwa [call_advance_of_ne hji])
      rw [keys_advance, hundo, hkey] at hmem
      exact Finset.notMem_erase _ _ hmem
    · have hmem := ht i (by simp [hrecount, CallState.next, hfits])
      rwa [keys_advance, hrecount] at hmem
  · rintro ⟨hundo, hrecount⟩ j hj
    rw [keys_advance]
    by_cases hji : j = i
    -- the call itself is admitted by this operation: it has seen its key, or has it still
    · subst hji
      rw [call_advance_self] at hj
      rcases CallState.of_next_eq_admitted hi hj with ⟨hcall, hmem⟩ | ⟨hcall, hfits⟩
      · rw [hcall]
        exact hmem
      · rw [hcall]
        exact hrecount hcall hfits
    -- another call was admitted before: its key stays, unless it is undone
    · rw [call_advance_of_ne hji] at hj
      have hmem := hs j hj
      cases hcall : s.call i with
      | insertion => exact Finset.mem_insert_of_mem hmem
      | undo => exact Finset.mem_erase_of_ne_of_mem (hundo hcall j hj) hmem
      | contains | count | recount | admitted | rejected => exact hmem

/-! ## Runs of calls -/

/-- A registry without keys, and calls that are about to start. -/
def empty : Registry ι K where
  keys := ∅
  call _ := .contains

/-- The operations in the given order. -/
def follow (maxKeys : ℕ) (keyOf : ι → K) (s : Registry ι K) (es : List ι) : Registry ι K :=
  es.foldl (fun s i => s.advance maxKeys keyOf i) s

/-- No operation in the given order is of a call that has returned. -/
def runnable (maxKeys : ℕ) (keyOf : ι → K) : Registry ι K → List ι → Bool
  | _, [] => true
  | s, i :: es => !(s.call i).finished && runnable maxKeys keyOf (s.advance maxKeys keyOf i) es

/-- Operations of calls that have not returned are a run. -/
theorem run_follow {es : List ι} (h : runnable maxKeys keyOf s es = true) :
    Run (Step maxKeys keyOf) s es (s.follow maxKeys keyOf es) := by
  induction es generalizing s with
  | nil => exact .nil s
  | cons i es ih =>
    simp only [runnable, Bool.and_eq_true, Bool.not_eq_true'] at h
    exact .cons ⟨h.1, rfl⟩ (ih h.2)

/-- However the operations of the calls interleave: once all calls have returned, the registry
is within its cap; and the admitted keys are registered throughout exactly if no operation
disturbs an admission. -/
theorem admitKey_runs {ι K : Type} [DecidableEq ι] [DecidableEq K] {maxKeys : ℕ} {keyOf : ι → K}
    {s t : Registry ι K} {es : List ι} (hstart : ∀ i, s.call i = .contains)
    (hcap : s.keys.card ≤ maxKeys) (h : Run (Step maxKeys keyOf) s es t) :
    ((∀ i, (t.call i).finished = true) → t.keys.card ≤ maxKeys) ∧
    (Run.Always (Step maxKeys keyOf) s es t (AdmittedRegistered keyOf) ↔
      Run.EachStep (Step maxKeys keyOf) s es t (Undisturbed maxKeys keyOf)) := by
  refine ⟨card_keys_le hcap h, Run.always_iff_eachStep ?_ ?_⟩
  · exact fun _ _ _ hs hstep => admittedRegistered_step_iff hs hstep
  · intro i hi
    rw [hstart i] at hi
    cases hi

/-- Two calls for one origin and one for another, with room for a single key. -/
def racingKeys : Fin 3 → Str
  | 0 | 1 => "https://first.test"
  | 2 => "https://second.test"

/-- The first call and the third insert their keys before either counts again; the second sees
the first one's key and is admitted; then the first call undoes its insertion. -/
def race : List (Fin 3) :=
  [0, 2, 0, 2, 0, 2, 1, 0, 0, 2]

/-- In the race the registry is within its cap once all calls have returned, and some operation
disturbs an admission. -/
theorem admitKey_runs_race :
    (empty.follow 1 racingKeys race).keys.card ≤ 1 ∧
      ¬ Run.EachStep (Step 1 racingKeys) empty race (empty.follow 1 racingKeys race)
        (Undisturbed 1 racingKeys) := by
  have hrun : Run (Step 1 racingKeys) empty race (empty.follow 1 racingKeys race) :=
    run_follow (by decide +kernel)
  obtain ⟨hcap, hregistered⟩ := admitKey_runs (fun _ => rfl) (by decide) hrun
  refine ⟨hcap (by decide +kernel), fun hundisturbed => ?_⟩
  -- the second call is admitted, and its key is gone
  have hlast := (hregistered.mpr hundisturbed).last hrun
  exact absurd (hlast 1 (by decide +kernel)) (by decide +kernel)

/-- In the race a call is admitted, and once all calls have returned its key is not
registered. -/
theorem admitted_key_lost :
    ∃ t, Run (Step 1 racingKeys) empty race t ∧ (∀ i, (t.call i).finished = true) ∧
      ∃ i, t.call i = .admitted ∧ racingKeys i ∉ t.keys :=
  ⟨empty.follow 1 racingKeys race, run_follow (by decide +kernel), by decide +kernel, 1,
    by decide +kernel, by decide +kernel⟩

end Registry

end RateLimiter

end Corx
