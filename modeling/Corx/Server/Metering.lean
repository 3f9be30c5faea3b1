import Corx.Base.BodyStream
import Corx.Error
import Corx.Http

/-!
# Streaming body wrappers

`CountingBody` counts the bytes that flow through it, `LimitingBody` ends a stream that exceeds
its budget. The counter of the process is a field of the counting body here: the bytes that
this body has added to it.

`polls_countingBody` says that counting changes nothing for the consumer, and `seenAfter_eq` that a
frame within the budget is counted without overflow.
-/

namespace Corx

open Body (Frame Polled pollFrame polls dataOf)

variable {B E : Type}

/-! ## Counting -/

/-- A body that counts the bytes flowing through it, for one direction. -/
structure CountingBody (B : Type) where
  inner : B
  direction : Str
  counted : ℕ

/-- Count what flows through `inner`. -/
def CountingBody.new (inner : B) (direction : Str) : CountingBody B where
  inner
  direction
  counted := 0

instance [Body B HeaderMap E] : Body (CountingBody B) HeaderMap E where
  pollFrame b :=
    match pollFrame b.inner with
    | (.frame frame, inner) =>
      match frame.data? with
      | some data => (.frame frame, { b with inner, counted := b.counted + data.length })
      | none => (.frame frame, { b with inner })
    | (polled, inner) => (polled, { b with inner })

/-- A poll of a counting body yields what the inner body yields. -/
theorem pollFrame_countingBody [Body B HeaderMap E] (b : CountingBody B) :
    (pollFrame b).1 = (pollFrame b.inner).1 ∧ (pollFrame b).2.inner = (pollFrame b.inner).2 := by
  rcases hpoll : pollFrame b.inner with ⟨polled, inner⟩
  unfold pollFrame instBodyCountingBodyHeaderMap
  dsimp only
  rw [hpoll]
  cases polled with
  | frame frame => cases frame <;> exact ⟨rfl, rfl⟩
  | pending | failed | finished => exact ⟨rfl, rfl⟩

/-- Counting changes nothing for the consumer. -/
theorem polls_countingBody [Body B HeaderMap E] (b : CountingBody B) (n : ℕ) :
    polls n b = polls n b.inner :=
  Body.polls_eq_of_simulation (R := fun (a : CountingBody B) b => a.inner = b)
    (fun a _ h => h ▸ (pollFrame_countingBody a).1)
    (fun a _ h => h ▸ (pollFrame_countingBody a).2) rfl n

/-! ## Limiting -/

/-- A body that is ended once more than `maxBytes` have been seen; zero is no limit. -/
structure LimitingBody (B : Type) where
  inner : B
  maxBytes : UInt64
  seen : ℕ

/-- Abort `inner` after `maxBytes` of data frames. -/
def LimitingBody.new (inner : B) (maxBytes : UInt64) : LimitingBody B where
  inner
  maxBytes
  seen := 0

/-- More has been seen than the limit allows. -/
def overBudget (maxBytes : UInt64) (seen : ℕ) : Bool :=
  0 < maxBytes.toNat && maxBytes.toNat < seen

/-- `u64::saturating_add`, on the values of words. -/
def saturatingAdd64 (a b : ℕ) : ℕ :=
  min (a + b) (UInt64.size - 1)

/-- The bytes seen once a frame has been polled. -/
def seenAfter (seen : ℕ) (frame : Frame HeaderMap) : ℕ :=
  match frame.data? with
  | some data => saturatingAdd64 seen data.length
  | none => seen

/-- A failure is the limit's own, or one of the inner body. -/
instance [Body B HeaderMap E] : Body (LimitingBody B) HeaderMap (ProxyError ⊕ E) where
  pollFrame b :=
    if overBudget b.maxBytes b.seen then (.failed (.inl .payloadTooLarge), b)
    else match pollFrame b.inner with
      | (.pending, inner) => (.pending, { b with inner })
      | (.finished, inner) => (.finished, { b with inner })
      | (.failed err, inner) => (.failed (.inr err), { b with inner })
      | (.frame frame, inner) =>
        let seen := seenAfter b.seen frame
        if overBudget b.maxBytes seen then
          (.failed (.inl .payloadTooLarge), { b with inner, seen })
        else (.frame frame, { b with inner, seen })

/-- Within the budget, what has been seen grows by the data of the frame. -/
theorem seenAfter_eq {maxBytes : UInt64} {seen : ℕ} {frame : Frame HeaderMap}
    (hpos : 0 < maxBytes.toNat) (hmax : maxBytes.toNat < UInt64.size - 1)
    (h : ¬ overBudget maxBytes (seenAfter seen frame) = true) :
    seenAfter seen frame = seen + (Polled.frame (E := E) frame).bytes.length ∧
      seenAfter seen frame ≤ maxBytes.toNat := by
  have hle : seenAfter seen frame ≤ maxBytes.toNat := by
    simpa [overBudget, hpos] using h
  cases frame with
  | trailers fields => exact ⟨rfl, hle⟩
  | data bytes =>
    -- the sum saturates at the largest word, which is beyond the budget
    have hsum : seenAfter seen (.data bytes) = min (seen + bytes.length) (UInt64.size - 1) := rfl
    refine ⟨?_, hle⟩
    rw [hsum] at hle ⊢
    exact min_eq_left (by omega)

end Corx
