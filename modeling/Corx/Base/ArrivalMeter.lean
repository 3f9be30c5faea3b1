import Corx.Base.Run

/-!
# Meters of theoretical arrival times

A meter admits or refuses events by one number, the theoretical arrival time of the next event:
an admission moves it an `interval` beyond itself or beyond the present, whichever is later, and
it may run ahead of the present by a `tolerance`. The meter is part of a larger deterministic
system `next : σ → ε → σ`; `admits s e` is the instant at which the event `e` is admitted in the
state `s`, where it is.

`Meters.inWindow_admissions_mul_le` bounds the admissions in every window of time; the instants
need not come in order. `Meters.exists_busy` is the converse, for instants in order: a meter that
runs ahead of the present by more than its tolerance has admitted a whole budget since some
instant.
-/

namespace ArrivalMeter

/-! ## Windows -/

/-- The number of instants in the window that starts at `start` and is `width` long. -/
def inWindow (start width : ℕ) (instants : List ℕ) : ℕ :=
  instants.countP fun now => start ≤ now ∧ now ≤ start + width

variable {start width now : ℕ} {instants : List ℕ}

/-- An instant in the window counts. -/
theorem inWindow_cons_of_mem (hstart : start ≤ now) (hend : now ≤ start + width) :
    inWindow start width (now :: instants) = inWindow start width instants + 1 :=
  List.countP_cons_of_pos (decide_eq_true ⟨hstart, hend⟩)

/-- An instant outside the window does not count. -/
theorem inWindow_cons_of_not_mem (h : ¬ (start ≤ now ∧ now ≤ start + width)) :
    inWindow start width (now :: instants) = inWindow start width instants :=
  List.countP_cons_of_neg (by simpa using h)

/-! ## Meters -/

variable {σ ε : Type*} (next : σ → ε → σ) (admits : σ → ε → Option ℕ)

/-- The instants of the admissions along a run, first one first. -/
def admissions : σ → List ε → List ℕ
  | _, [] => []
  | s, e :: es => (admits s e).toList ++ admissions (next s e) es

/-- The admissions of a run that is continued. -/
theorem admissions_append (s : σ) (es fs : List ε) :
    admissions next admits s (es ++ fs) =
      admissions next admits s es ++ admissions next admits (es.foldl next s) fs := by
  induction es generalizing s with
  | nil => rfl
  | cons e es ih =>
    rw [List.cons_append, admissions, admissions, ih, List.append_assoc, List.foldl_cons]

/-- The instants of the admissions come in the order of the events. -/
theorem admissions_sublist {stamp : ε → Option ℕ}
    (h : ∀ s e now, admits s e = some now → stamp e = some now) (s : σ) (es : List ε) :
    (admissions next admits s es).Sublist (es.filterMap stamp) := by
  induction es generalizing s with
  | nil => exact List.nil_sublist _
  | cons e es ih =>
    rw [admissions]
    cases hadmits : admits s e with
    | none =>
      rw [Option.toList_none, List.nil_append]
      cases hstamp : stamp e with
      | none =>
        rw [List.filterMap_cons_none hstamp]
        exact ih _
      | some now =>
        rw [List.filterMap_cons_some hstamp]
        exact (ih _).cons _
    | some now =>
      rw [Option.toList_some, List.singleton_append, List.filterMap_cons_some (h s e now hadmits)]
      exact (ih _).cons_cons _

/-- What the states with `Good` guarantee of their arrival times: an admission finds them within
the tolerance and moves them by an interval (by two, at most, where the meter was idle), and
nothing else moves them. -/
structure Meters (Good : σ → Prop) (arrival : σ → ℕ) (interval tolerance : ℕ) : Prop where
  within : ∀ {s : σ} {e : ε} {now : ℕ}, Good s → admits s e = some now →
    arrival s ≤ now + tolerance
  advances : ∀ {s : σ} {e : ε} {now : ℕ}, Good s → admits s e = some now →
    max (arrival s) now + interval ≤ arrival (next s e)
  idle : ∀ {s : σ} {e : ε} {now : ℕ}, Good s → admits s e = some now → arrival s ≤ now →
    arrival (next s e) ≤ now + 2 * interval
  busy : ∀ {s : σ} {e : ε} {now : ℕ}, Good s → admits s e = some now → now < arrival s →
    arrival (next s e) ≤ arrival s + interval
  keeps : ∀ {s : σ} {e : ε}, Good s → admits s e = none → arrival (next s e) = arrival s

variable {next admits} {Good : σ → Prop} {arrival : σ → ℕ} {interval tolerance : ℕ} {s : σ}
  {e : ε} {es : List ε}

/-- The admissions in a window fit between the arrival time before them and the tolerance at the
end of the window. -/
theorem Meters.arrival_add_le (h : Meters next admits Good arrival interval tolerance)
    (hs : Run.Throughout next Good s es)
    (hsome : 0 < inWindow start width (admissions next admits s es)) :
    max (arrival s) start + inWindow start width (admissions next admits s es) * interval ≤
      start + width + tolerance + interval := by
  induction es generalizing s with
  | nil => simp [admissions, inWindow] at hsome
  | cons e es ih =>
    have hnext := ih hs.tail
    rw [admissions] at hsome ⊢
    cases hadmits : admits s e with
    | none =>
      have hkeeps := h.keeps hs.head hadmits
      rw [hadmits, Option.toList_none, List.nil_append] at hsome
      rw [Option.toList_none, List.nil_append, ← hkeeps]
      exact hnext hsome
    | some now =>
      have hwithin := h.within hs.head hadmits
      have hadvances := h.advances hs.head hadmits
      rw [hadmits, Option.toList_some, List.singleton_append] at hsome
      rw [Option.toList_some, List.singleton_append]
      by_cases hin : start ≤ now ∧ now ≤ start + width
      · obtain ⟨hstart, hend⟩ := hin
        rw [inWindow_cons_of_mem hstart hend, Nat.add_mul, Nat.one_mul]
        -- this admission may be the last one in the window
        rcases Nat.eq_zero_or_pos (inWindow start width (admissions next admits (next s e) es))
          with hzero | hpos
        · rw [hzero]
          omega
        · have hle := hnext hpos
          omega
      · rw [inWindow_cons_of_not_mem hin] at hsome ⊢
        have hle := hnext hsome
        omega

/-- In every window of time, whenever it starts, the admissions of a run stay within the rate and
the tolerance. -/
theorem Meters.inWindow_admissions_mul_le
    (h : Meters next admits Good arrival interval tolerance) (hs : Run.Throughout next Good s es)
    (start width : ℕ) :
    inWindow start width (admissions next admits s es) * interval ≤
      width + tolerance + interval := by
  rcases Nat.eq_zero_or_pos (inWindow start width (admissions next admits s es)) with
    hzero | hpos
  · simp [hzero]
  · have hle := h.arrival_add_le hs hpos
    omega

/-- A meter that starts idle and has come ahead has been busy since one of its admissions: its
arrival time is one interval for each admission since then, and one more. -/
theorem Meters.arrival_le (h : Meters next admits Good arrival interval tolerance)
    (hs : Run.Throughout next Good s es) (hidle : arrival s = 0)
    (hordered : (admissions next admits s es).Pairwise (· ≤ ·)) :
    arrival (es.foldl next s) = 0 ∨ ∃ since ∈ admissions next admits s es,
      arrival (es.foldl next s) ≤ since +
        ((admissions next admits s es).countP (since ≤ ·) + 1) * interval := by
  induction es using List.reverseRecOn with
  | nil => exact .inl hidle
  | append_singleton es e ih =>
    obtain ⟨hinit, hlast⟩ := hs.init
    rw [admissions_append] at hordered ⊢
    have hbefore := ih hinit (List.pairwise_append.mp hordered).1
    simp only [admissions, List.append_nil, List.foldl_append, List.foldl_cons,
      List.foldl_nil] at hordered ⊢
    cases hadmits : admits (es.foldl next s) e with
    | none =>
      rw [h.keeps hlast hadmits, Option.toList_none, List.append_nil]
      exact hbefore
    | some now =>
      rw [hadmits, Option.toList_some] at hordered
      rw [Option.toList_some]
      right
      by_cases hle : arrival (es.foldl next s) ≤ now
      -- the meter was idle: it is busy since this very admission
      · have hidle := h.idle hlast hadmits hle
        refine ⟨now, by simp, Nat.le_trans hidle ?_⟩
        refine Nat.add_le_add_left (Nat.mul_le_mul_right _ (Nat.succ_le_succ ?_)) _
        rw [List.countP_append, List.countP_singleton, if_pos (by simp)]
        exact Nat.le_add_left _ _
      -- it was busy: this admission is one more since then
      · have hlt : now < arrival (es.foldl next s) := Nat.lt_of_not_le hle
        have hbusy := h.busy hlast hadmits hlt
        rcases hbefore with hzero | ⟨since, hmem, hsince⟩
        · omega
        · have hnow : since ≤ now :=
            (List.pairwise_append.mp hordered).2.2 since hmem now (List.mem_singleton_self _)
          refine ⟨since, List.mem_append_left _ hmem, Nat.le_trans hbusy ?_⟩
          rw [List.countP_append, List.countP_singleton, if_pos (decide_eq_true hnow)]
          calc arrival (es.foldl next s) + interval
              ≤ since + ((admissions next admits s es).countP (since ≤ ·) + 1) * interval +
                  interval := Nat.add_le_add_right hsince _
            _ = since + ((admissions next admits s es).countP (since ≤ ·) + 1 + 1) * interval := by
                rw [Nat.succ_mul (_ + 1), Nat.add_assoc]

/-- A meter that starts idle and has come ahead of the present by more than its tolerance has
admitted a whole budget since some instant: the admissions since then, and one more, are more than
the rate and the tolerance allow for. -/
theorem Meters.exists_busy (h : Meters next admits Good arrival interval tolerance)
    (hs : Run.Throughout next Good s es) (hidle : arrival s = 0)
    (hordered : (admissions next admits s es).Pairwise (· ≤ ·))
    (hpast : ∀ t ∈ admissions next admits s es, t ≤ now)
    (hahead : now + tolerance < arrival (es.foldl next s)) :
    ∃ since ≤ now, now - since + tolerance <
      (inWindow since (now - since) (admissions next admits s es) + 1) * interval := by
  obtain hzero | ⟨since, hmem, hle⟩ := h.arrival_le hs hidle hordered
  · omega
  · have hsince : since ≤ now := hpast since hmem
    -- up to the present, what is not before the window lies in it
    have hcount : (admissions next admits s es).countP (since ≤ ·) =
        inWindow since (now - since) (admissions next admits s es) := by
      refine List.countP_congr fun t ht => ?_
      have htnow := hpast t ht
      simp only [decide_eq_true_eq]
      omega
    rw [hcount] at hle
    exact ⟨since, hsince, by omega⟩

end ArrivalMeter
