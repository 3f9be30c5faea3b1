import Mathlib.Algebra.Order.Monoid.Defs

/-!
# Counting events in a sliding window

Events are time stamps in an ordered type. At time `now` an event at `t` is recent when its
age is at most `window`, that is, `now ≤ t + window`; `recent window now l` are the recent
events of the log `l`.

A specification counts over the whole log. An implementation prunes: it replaces its log by
the recent part whenever it looks at it. `SameFrom window now l l'` says that the two logs
cannot be told apart by any count made at `now` or later. Pruning yields an
indistinguishable log (`sameFrom_recent`), and the relation survives the passing of time
(`SameFrom.mono`) and the recording of further events (`SameFrom.append`), which is what a
simulation between the two needs.
-/

namespace SlidingWindow

variable {τ : Type*} [Preorder τ] [Add τ] [DecidableLE τ]
variable {window now now' : τ} {l l' l'' : List τ}

/-- The events of `l` that are at most `window` old at time `now`. -/
def recent (window now : τ) (l : List τ) : List τ :=
  l.filter fun t => now ≤ t + window

/-- An event is recent when it was logged and is not too old. -/
@[simp]
theorem mem_recent {t : τ} : t ∈ recent window now l ↔ t ∈ l ∧ now ≤ t + window := by
  simp [recent]

/-- The recent events of a concatenation. -/
@[simp]
theorem recent_append :
    recent window now (l ++ l') = recent window now l ++ recent window now l' := by
  simp [recent]

/-- What is recent later was recent before: pruning at `now` is invisible at `now'`. -/
theorem recent_recent (h : now ≤ now') :
    recent window now' (recent window now l) = recent window now' l := by
  unfold recent
  rw [List.filter_filter]
  refine List.filter_congr fun t _ => ?_
  -- an event that is recent at the later time was recent at the earlier one
  by_cases ht : now' ≤ t + window
  · simp [ht, h.trans ht]
  · simp [ht]

/-- Two logs with the same recent events at every time from `now` on. -/
def SameFrom (window now : τ) (l l' : List τ) : Prop :=
  ∀ now', now ≤ now' → recent window now' l = recent window now' l'

/-- A log is indistinguishable from itself. -/
theorem SameFrom.refl (l : List τ) : SameFrom window now l l :=
  fun _ _ => rfl

/-- Logs indistinguishable from a log are indistinguishable from each other. -/
theorem SameFrom.trans (h : SameFrom window now l l') (h' : SameFrom window now l' l'') :
    SameFrom window now l l'' :=
  fun t ht => (h t ht).trans (h' t ht)

/-- Logs that agree from `now` on agree from any later time on. -/
theorem SameFrom.mono (h : SameFrom window now l l') (hle : now ≤ now') :
    SameFrom window now' l l' :=
  fun t ht => h t (hle.trans ht)

/-- Recording the same events keeps logs indistinguishable. -/
theorem SameFrom.append (h : SameFrom window now l l') (k : List τ) :
    SameFrom window now (l ++ k) (l' ++ k) := by
  intro t ht
  rw [recent_append, recent_append, h t ht]

/-- Pruning at `now` yields a log that is indistinguishable from `now` on. -/
theorem sameFrom_recent : SameFrom window now (recent window now l) l :=
  fun _ ht => recent_recent ht

end SlidingWindow
