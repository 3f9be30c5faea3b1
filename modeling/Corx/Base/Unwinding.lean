import Mathlib.Data.List.Basic

/-!
# What a party sees of a shared system

Several parties share a deterministic system `next : σ → ε → σ`. A party owns some of the events,
`own : ε → Bool`, and an event of its own shows it an output, `out : σ → ε → ω`. What it sees of a
sequence of events are the outputs of its own ones, in order (`seenBy`).

An `Unwinding` relates the states that the party cannot tell apart: equal outputs now, and still
related after an event of its own in both or after a foreign one in either. Then the party sees
what it would see alone (`Unwinding.seenBy_filter`), and the events of the others are unnoticeable
(`Unwinding.seenBy_congr`).
-/

variable {σ ε ω : Type*} (next : σ → ε → σ) (own : ε → Bool) (out : σ → ε → ω)

/-- The outputs of the party's own events along a sequence of events. -/
def seenBy : σ → List ε → List ω
  | _, [] => []
  | s, e :: es => if own e then out s e :: seenBy (next s e) es else seenBy (next s e) es

/-- States related by `R` are the same to the party, and stay so. -/
structure Unwinding (R : σ → σ → Prop) : Prop where
  /-- Related states show the party the same. -/
  output : ∀ {s t : σ} {e : ε}, R s t → own e = true → out s e = out t e
  /-- An event of the party keeps them related. -/
  own_step : ∀ {s t : σ} {e : ε}, R s t → own e = true → R (next s e) (next t e)
  /-- A foreign event in one of them does, too. -/
  other_step : ∀ {s t : σ} {e : ε}, R s t → own e = false → R (next s e) t

namespace Unwinding

variable {next own out} {R : σ → σ → Prop} {s t : σ} {es fs : List ε}

/-- The party sees what it would see if it were alone. -/
theorem seenBy_filter (h : Unwinding next own out R) (hst : R s t) (es : List ε) :
    seenBy next own out s es = seenBy next own out t (es.filter own) := by
  induction es generalizing s t with
  | nil => rfl
  | cons e es ih =>
    rw [seenBy]
    cases hown : own e with
    | true =>
      rw [List.filter_cons_of_pos hown, seenBy, if_pos rfl, if_pos hown, h.output hst hown,
        ih (h.own_step hst hown)]
    | false =>
      -- the other system does not move
      rw [List.filter_cons_of_neg (Bool.eq_false_iff.mp hown), if_neg Bool.false_ne_true,
        ih (h.other_step hst hown)]

/-- Two sequences with the same events of the party show it the same. -/
theorem seenBy_congr (h : Unwinding next own out R) (hst : R s t) (htt : R t t)
    (hsame : es.filter own = fs.filter own) :
    seenBy next own out s es = seenBy next own out t fs := by
  rw [h.seenBy_filter hst es, h.seenBy_filter htt fs, hsame]

end Unwinding
