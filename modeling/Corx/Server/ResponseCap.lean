import Mathlib.Algebra.GroupWithZero.Nat
import Corx.Server.Metering

/-!
# The response cap is exact

`LimitingBody` counts in a saturating word, checks before and after each poll of the body it
wraps, and keeps its state when it has failed. `pollEach_limitingBody` says what this comes to
over any number of polls of any body, also of one that is polled on after a failure or the end:
the polls of the inner body up to the first frame of data that takes the total over the limit,
and from there on the failure alone, without a poll of the inner body.
-/

namespace Corx

open Body (Frame Polled pollFrame pollEach afterPolls dataOf totalData)

variable {B E : Type}

namespace LimitingBody

/-! ## One poll -/

/-- What a poll of the inner body is turned into, when the budget was not exceeded before. -/
def passOn (b : LimitingBody B) (polled : Polled HeaderMap E) (inner : B) :
    Polled HeaderMap (ProxyError ⊕ E) × LimitingBody B :=
  match polled with
  | .frame frame =>
    if overBudget b.maxBytes (seenAfter b.seen frame) then
      (.failed (.inl .payloadTooLarge), { b with inner, seen := seenAfter b.seen frame })
    else (.frame frame, { b with inner, seen := seenAfter b.seen frame })
  | other => (other.mapErr .inr, { b with inner })

/-- A poll fails at once over the budget, and otherwise polls the inner body. -/
theorem pollFrame_eq [Body B HeaderMap E] (b : LimitingBody B) :
    pollFrame b = if overBudget b.maxBytes b.seen then (.failed (.inl .payloadTooLarge), b)
      else b.passOn (pollFrame b.inner).1 (pollFrame b.inner).2 := by
  rcases hpoll : pollFrame b.inner with ⟨polled, inner⟩
  unfold pollFrame instBodyLimitingBodyHeaderMapSumProxyError
  dsimp only
  rw [hpoll]
  cases polled <;> rfl

/-- Without a limit a poll is one of the inner body. -/
theorem pollFrame_unlimited [Body B HeaderMap E] {b : LimitingBody B} (h : b.maxBytes = 0) :
    (pollFrame b).1 = (pollFrame b.inner).1.mapErr .inr ∧
      (pollFrame b).2.inner = (pollFrame b.inner).2 ∧ (pollFrame b).2.maxBytes = 0 := by
  have hnever : ∀ seen, ¬ overBudget b.maxBytes seen = true := by
    intro seen
    rw [h]
    exact Bool.false_ne_true
  rw [pollFrame_eq, if_neg (hnever b.seen)]
  unfold passOn
  cases (pollFrame b.inner).1 with
  | frame frame =>
    dsimp only
    rw [if_neg (hnever _)]
    exact ⟨rfl, rfl, h⟩
  | pending | failed | finished => exact ⟨rfl, rfl, h⟩

/-- Over the budget a poll fails, and leaves the body as it is. -/
theorem pollFrame_over [Body B HeaderMap E] {b : LimitingBody B}
    (h : overBudget b.maxBytes b.seen = true) :
    pollFrame b = (.failed (.inl .payloadTooLarge), b) := by
  rw [pollFrame_eq, if_pos h]

/-- The sum of what has been seen and the data of a frame exceeds a limit exactly if the word
that stands for it does: it saturates beyond every such limit. -/
theorem overBudget_seenAfter_iff {maxBytes : UInt64} {seen : ℕ} {frame : Frame HeaderMap}
    (hpos : 0 < maxBytes.toNat) (hmax : maxBytes.toNat < UInt64.size - 1) :
    overBudget maxBytes (seenAfter seen frame) = true ↔
      maxBytes.toNat < seen + (Polled.frame (E := E) frame).bytes.length := by
  cases frame with
  | trailers fields =>
    have hsame : seenAfter seen (.trailers fields) = seen := rfl
    rw [hsame]
    simp [overBudget, hpos, Polled.bytes]
  | data bytes =>
    have hsum : seenAfter seen (.data bytes) = min (seen + bytes.length) (UInt64.size - 1) := rfl
    have hbytes : (Polled.frame (E := E) (.data bytes : Frame HeaderMap)).bytes = bytes := rfl
    rw [hsum, hbytes]
    simp only [overBudget, hpos, decide_true, Bool.true_and, decide_eq_true_eq]
    omega

/-- A poll that leaves the total within the limit is one of the inner body, and is counted. -/
theorem pollFrame_within [Body B HeaderMap E] {b : LimitingBody B}
    (hpos : 0 < b.maxBytes.toNat) (hmax : b.maxBytes.toNat < UInt64.size - 1)
    (h : b.seen + (pollFrame b.inner).1.bytes.length ≤ b.maxBytes.toNat) :
    pollFrame b = ((pollFrame b.inner).1.mapErr .inr,
      { b with
        inner := (pollFrame b.inner).2
        seen := b.seen + (pollFrame b.inner).1.bytes.length }) := by
  have hseen : b.seen ≤ b.maxBytes.toNat := by omega
  rw [pollFrame_eq, if_neg (by simp [overBudget, hseen])]
  generalize (pollFrame b.inner).1 = polled at h ⊢
  unfold passOn
  cases polled with
  | frame frame =>
    have hnot : ¬ overBudget b.maxBytes (seenAfter b.seen frame) = true := by
      rw [overBudget_seenAfter_iff (E := E) hpos hmax]
      exact not_lt.mpr h
    dsimp only
    rw [if_neg hnot, (seenAfter_eq (E := E) hpos hmax hnot).1]
    rfl
  | pending | failed | finished => rfl

/-- The poll that takes the total over the limit fails, and leaves the body over its budget. -/
theorem pollFrame_exceeding [Body B HeaderMap E] {b : LimitingBody B}
    (hpos : 0 < b.maxBytes.toNat) (hmax : b.maxBytes.toNat < UInt64.size - 1)
    (hseen : b.seen ≤ b.maxBytes.toNat)
    (h : b.maxBytes.toNat < b.seen + (pollFrame b.inner).1.bytes.length) :
    (pollFrame b).1 = .failed (.inl .payloadTooLarge) ∧
      (pollFrame b).2.inner = (pollFrame b.inner).2 ∧
      overBudget (pollFrame b).2.maxBytes (pollFrame b).2.seen = true := by
  rw [pollFrame_eq, if_neg (by simp [overBudget, hseen])]
  generalize (pollFrame b.inner).1 = polled at h ⊢
  unfold passOn
  cases polled with
  | frame frame =>
    have hover : overBudget b.maxBytes (seenAfter b.seen frame) = true :=
      (overBudget_seenAfter_iff (E := E) hpos hmax).mpr h
    dsimp only
    rw [if_pos hover]
    exact ⟨rfl, rfl, hover⟩
  -- without data the total stays where it is
  | pending | failed | finished => exact absurd h (not_lt.mpr hseen)

/-! ## Every poll -/

/-- Without a limit the polls are those of the inner body. -/
theorem pollEach_unlimited [Body B HeaderMap E] {b : LimitingBody B} (h : b.maxBytes = 0)
    (n : ℕ) : pollEach n b = (pollEach n b.inner).map (Polled.mapErr .inr) := by
  induction n generalizing b with
  | zero => rfl
  | succ n ih =>
    obtain ⟨hpolled, hinner, hmaxBytes⟩ := pollFrame_unlimited h
    rw [Body.pollEach_succ, Body.pollEach_succ, List.map_cons, hpolled, ih hmaxBytes, hinner]

/-- Over the budget every poll fails, and the body stays as it is. -/
theorem pollEach_over [Body B HeaderMap E] {b : LimitingBody B}
    (h : overBudget b.maxBytes b.seen = true) (n : ℕ) :
    pollEach n b = List.replicate n (.failed (.inl .payloadTooLarge)) ∧ afterPolls n b = b := by
  induction n with
  | zero => exact ⟨rfl, rfl⟩
  | succ n ih =>
    rw [Body.pollEach_succ, Body.afterPolls_succ, pollFrame_over h, List.replicate_succ, ih.1]
    exact ⟨rfl, ih.2⟩

/-- As long as the total stays within the limit, the polls are those of the inner body, and the
counter is the total. -/
theorem pollEach_within [Body B HeaderMap E] {b : LimitingBody B}
    (hpos : 0 < b.maxBytes.toNat) (hmax : b.maxBytes.toNat < UInt64.size - 1) {n : ℕ}
    (h : b.seen + totalData n b.inner ≤ b.maxBytes.toNat) :
    pollEach n b = (pollEach n b.inner).map (Polled.mapErr .inr) ∧
      afterPolls n b =
        { b with inner := afterPolls n b.inner, seen := b.seen + totalData n b.inner } := by
  induction n generalizing b with
  | zero => exact ⟨rfl, rfl⟩
  | succ n ih =>
    rw [Body.totalData_succ] at h
    have hpoll := pollFrame_within hpos hmax (by omega)
    obtain ⟨hpolls, hafter⟩ := @ih (pollFrame b).2 (by rw [hpoll]; exact hpos)
      (by rw [hpoll]; exact hmax) (by rw [hpoll]; dsimp only; omega)
    rw [Body.pollEach_succ, Body.afterPolls_succ, hpolls, hafter, hpoll]
    refine ⟨rfl, ?_⟩
    rw [Body.totalData_succ, Body.afterPolls_succ, Nat.add_assoc]

/-- The poll that takes the total over the limit, and all later ones, fail; the inner body has
been polled for it and is not polled again. -/
theorem pollEach_exceeding [Body B HeaderMap E] {b : LimitingBody B}
    (hpos : 0 < b.maxBytes.toNat) (hmax : b.maxBytes.toNat < UInt64.size - 1) {k : ℕ}
    (hwithin : b.seen + totalData k b.inner ≤ b.maxBytes.toNat)
    (hover : b.maxBytes.toNat < b.seen + totalData (k + 1) b.inner) (m : ℕ) :
    pollEach (k + m) b = (pollEach k b.inner).map (Polled.mapErr .inr) ++
        List.replicate m (.failed (.inl .payloadTooLarge)) ∧
      (afterPolls (k + 1 + m) b).inner = afterPolls (k + 1) b.inner := by
  obtain ⟨hpolls, hafter⟩ := pollEach_within hpos hmax hwithin
  have hnext : totalData (k + 1) b.inner =
      totalData k b.inner + (pollFrame (afterPolls k b.inner)).1.bytes.length := by
    rw [Body.totalData_add, Body.totalData_succ, Body.totalData_zero, Nat.add_zero]
  obtain ⟨hfailed, hinner, hbudget⟩ := @pollFrame_exceeding _ _ _ (afterPolls k b)
    (by rw [hafter]; exact hpos) (by rw [hafter]; exact hmax) (by rw [hafter]; exact hwithin)
    (by rw [hafter]; dsimp only; omega)
  constructor
  · rw [Body.pollEach_add, hpolls]
    congr 1
    cases m with
    | zero => rfl
    | succ m => rw [Body.pollEach_succ, hfailed, (pollEach_over hbudget m).1, List.replicate_succ]
  · rw [Body.afterPolls_add, Body.afterPolls_add k 1, Body.afterPolls_succ, Body.afterPolls_zero,
      (pollEach_over hbudget m).2, hinner, hafter, Body.afterPolls_add k 1, Body.afterPolls_succ,
      Body.afterPolls_zero]

/-- A total that exceeds a limit after some polls has exceeded it with one of them. -/
theorem exists_exceeding [Body B HeaderMap E] {inner : B} {limit n : ℕ}
    (h : limit < totalData n inner) :
    ∃ k < n, totalData k inner ≤ limit ∧ limit < totalData (k + 1) inner := by
  induction n with
  | zero => exact absurd h (by simp)
  | succ n ih =>
    by_cases hn : limit < totalData n inner
    · obtain ⟨k, hk, hexceeds⟩ := ih hn
      exact ⟨k, by omega, hexceeds⟩
    · exact ⟨n, by omega, by omega, h⟩

/-- The data delivered never exceeds the limit. -/
theorem totalData_le [Body B HeaderMap E] {b : LimitingBody B}
    (hpos : 0 < b.maxBytes.toNat) (hmax : b.maxBytes.toNat < UInt64.size - 1) (hseen : b.seen = 0)
    (n : ℕ) : totalData n b ≤ b.maxBytes.toNat := by
  by_cases hn : totalData n b.inner ≤ b.maxBytes.toNat
  · rw [totalData, (pollEach_within hpos hmax (by omega)).1, Body.dataOf_map_mapErr]
    exact hn
  · obtain ⟨k, hk, hwithin, hover⟩ := exists_exceeding (not_le.mp hn)
    obtain ⟨m, rfl⟩ := Nat.exists_eq_add_of_le hk.le
    rw [totalData, (pollEach_exceeding hpos hmax (by omega) (by omega) m).1, dataOf,
      List.flatMap_append, List.length_append, ← dataOf, Body.dataOf_map_mapErr]
    -- a failure carries no data
    have hfailures : (List.replicate m (Polled.failed (T := HeaderMap)
        (.inl .payloadTooLarge : ProxyError ⊕ E))).flatMap Polled.bytes = [] := by
      simp [Polled.bytes]
    rw [hfailures, List.length_nil, Nat.add_zero]
    exact hwithin

/-- The cap is exact. Without a limit the polls are those of the inner body. With one below the
largest word they are those of the inner body as long as its data stays within the limit; the
poll that takes it over the limit fails, and so do all later ones, without a further poll of the
inner body; and the data delivered never exceeds the limit. -/
theorem pollEach_new [Body B HeaderMap E] (inner : B) (maxBytes : UInt64) :
    (maxBytes = 0 →
      ∀ n, pollEach n (new inner maxBytes) = (pollEach n inner).map (Polled.mapErr .inr)) ∧
    (0 < maxBytes.toNat → maxBytes.toNat < 2 ^ 64 - 1 →
      (∀ n, totalData n inner ≤ maxBytes.toNat →
        pollEach n (new inner maxBytes) = (pollEach n inner).map (Polled.mapErr .inr)) ∧
      (∀ k, totalData k inner ≤ maxBytes.toNat → maxBytes.toNat < totalData (k + 1) inner →
        ∀ m, pollEach (k + m) (new inner maxBytes) =
            (pollEach k inner).map (Polled.mapErr .inr) ++
              List.replicate m (.failed (.inl .payloadTooLarge)) ∧
          (afterPolls (k + 1 + m) (new inner maxBytes)).inner = afterPolls (k + 1) inner) ∧
      ∀ n, totalData n (new inner maxBytes) ≤ maxBytes.toNat) := by
  refine ⟨fun hzero n => pollEach_unlimited hzero n, fun hpos hmax => ⟨?_, ?_, ?_⟩⟩
  · intro n hn
    exact (pollEach_within hpos hmax (by simpa [new] using hn)).1
  · intro k hwithin hover m
    exact pollEach_exceeding hpos hmax (by simpa [new] using hwithin) (by simpa [new] using hover) m
  · exact totalData_le hpos hmax rfl

/-- A body of two frames of three bytes, with trailers between them and a failure after them,
that goes on with data when it is polled on. -/
def sixBytes : Body.Source HeaderMap Str where
  script
    | 0 => .frame (.data [1, 2, 3])
    | 1 => .frame (.trailers .empty)
    | 2 => .pending
    | 3 => .frame (.data [4, 5, 6])
    | 4 => .failed "reset"
    | _ => .frame (.data [7])

/-- A limit of five bytes, which the second frame of data exceeds. -/
theorem pollEach_new_sixBytes :
    pollEach (3 + 3) (new sixBytes 5) =
      (pollEach 3 sixBytes).map (Polled.mapErr .inr) ++
        List.replicate 3 (.failed (.inl .payloadTooLarge)) :=
  (((pollEach_new sixBytes 5).2 (by decide) (by decide)).2.1 3 (by decide) (by decide) 3).1

end LimitingBody

end Corx
