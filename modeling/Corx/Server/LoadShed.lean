import Mathlib.Data.Finset.Card
import Corx.Base.Run
import Corx.Config

/-!
# Load shedding

Any number of requests in `load_shed_layer`, whose operations on the shared counter are atomic
and interleave freely. A request first counts itself and then looks at the count it found: it
goes on with an `InflightPermit`, or takes its increment back in an operation of its own before
it is answered. A permit is dropped, and counted down, once the request has been answered or its
future is dropped.

The counter may exceed the cap, by requests that are about to take their increment back; the
permits do not (`accounted_of_run`). The atomic counter of the code is a 64-bit word; as long as
fewer than `2 ^ 64` requests are inside the layer it counts as a natural number does
(`run_natural_of_run_word`).
-/

namespace Corx

namespace LoadShed

/-- A counter with the atomic operations `fetch_add(1)` and `fetch_sub(1)`. -/
structure AtomicCounter (C : Type) where
  zero : C
  value : C → ℕ
  fetchAdd : C → C
  fetchSub : C → C

/-- The counter as a natural number. -/
def AtomicCounter.natural : AtomicCounter ℕ where
  zero := 0
  value := id
  fetchAdd := (· + 1)
  fetchSub := (· - 1)

/-- `AtomicU64`, which wraps around. -/
def AtomicCounter.word : AtomicCounter UInt64 where
  zero := 0
  value := UInt64.toNat
  fetchAdd := (· + 1)
  fetchSub := (· - 1)

/-- The counter, and the requests that have incremented it and not decremented it yet. -/
@[ext]
structure Inflight (C ι : Type) where
  counter : C
  /-- Requests that have found the cap reached. -/
  rejected : Finset ι
  /-- Requests that hold an `InflightPermit`. -/
  permits : Finset ι

/-- What a request does next. A request that has found the cap reached is not cancelled before
it has taken its increment back: there is no suspension point in between. -/
inductive Move (ι : Type)
  /-- Count itself, and look at the count found. -/
  | arrive (i : ι)
  /-- Take back the increment, and answer with `shed_response`. -/
  | shed (i : ι)
  /-- The inner layers have answered, or panicked. -/
  | complete (i : ι)
  /-- The future is dropped while the inner layers work. -/
  | cancel (i : ι)
  deriving DecidableEq, Repr

variable {C ι : Type} [DecidableEq ι]

namespace Inflight

/-- Before the first request. -/
def start (atomic : AtomicCounter C) : Inflight C ι where
  counter := atomic.zero
  rejected := ∅
  permits := ∅

/-- No request is between an increment and its decrement. -/
def Idle (s : Inflight C ι) : Prop :=
  s.permits = ∅ ∧ s.rejected = ∅

/-- The first part of `load_shed_layer`: a cap of zero lets every request pass uncounted. -/
def arrive (atomic : AtomicCounter C) (limits : LimitsConfig) (s : Inflight C ι) (i : ι) :
    Inflight C ι :=
  let max := limits.inflightMax.toNat
  if max = 0 then s
  else
    -- `fetch_add` returns the count before, and a rejected arrival is counted until it undoes that
    let prev := atomic.value s.counter
    let s := { s with counter := atomic.fetchAdd s.counter }
    if max ≤ prev then { s with rejected := insert i s.rejected }
    else { s with permits := insert i s.permits }

/-- The second part for a request that has found the cap reached. -/
def shed (atomic : AtomicCounter C) (s : Inflight C ι) (i : ι) : Inflight C ι :=
  { s with counter := atomic.fetchSub s.counter, rejected := s.rejected.erase i }

/-- `InflightPermit::drop`. -/
def dropPermit (atomic : AtomicCounter C) (s : Inflight C ι) (i : ι) : Inflight C ι :=
  { s with counter := atomic.fetchSub s.counter, permits := s.permits.erase i }

end Inflight

/-- One operation of one request. -/
inductive Step (atomic : AtomicCounter C) (limits : LimitsConfig) :
    Inflight C ι → Move ι → Inflight C ι → Prop
  | arrive {s : Inflight C ι} {i : ι} : i ∉ s.permits → i ∉ s.rejected →
      Step atomic limits s (.arrive i) (s.arrive atomic limits i)
  | shed {s : Inflight C ι} {i : ι} : i ∈ s.rejected →
      Step atomic limits s (.shed i) (s.shed atomic i)
  | complete {s : Inflight C ι} {i : ι} : i ∈ s.permits →
      Step atomic limits s (.complete i) (s.dropPermit atomic i)
  | cancel {s : Inflight C ι} {i : ι} : i ∈ s.permits →
      Step atomic limits s (.cancel i) (s.dropPermit atomic i)

namespace Inflight

variable {limits : LimitsConfig} {s t : Inflight ℕ ι} {i : ι} {e : Move ι} {es : List (Move ι)}

/-! ## The account of the counter -/

/-- How many requests are inside the layer. -/
def inside (s : Inflight C ι) : ℕ :=
  s.permits.card + s.rejected.card

/-- The permits are within the cap, and the counter counts the requests inside the layer. -/
structure Accounted (limits : LimitsConfig) (s : Inflight ℕ ι) : Prop where
  permits_le : s.permits.card ≤ limits.inflightMax.toNat
  counter_eq : s.counter = s.inside

omit [DecidableEq ι] in
/-- Before the first request nothing is counted. -/
theorem accounted_start : (start .natural : Inflight ℕ ι).Accounted limits where
  permits_le := Nat.zero_le _
  counter_eq := rfl

/-- An arrival is counted; it takes a permit only if it leaves the permits within the cap. -/
theorem Accounted.arrive (hs : s.Accounted limits) (hpermits : i ∉ s.permits)
    (hrejected : i ∉ s.rejected) : (s.arrive .natural limits i).Accounted limits := by
  have hcounter : s.counter = s.permits.card + s.rejected.card := hs.counter_eq
  have hle := hs.permits_le
  unfold Inflight.arrive
  dsimp only
  split
  next => exact hs
  next =>
    split
    next hfull =>
      refine ⟨hle, ?_⟩
      simp only [AtomicCounter.natural, inside, Finset.card_insert_of_notMem hrejected]
      omega
    next hfree =>
      -- the count found is at least the number of permits
      simp only [AtomicCounter.natural, id] at hfree
      refine ⟨?_, ?_⟩
      · rw [Finset.card_insert_of_notMem hpermits]
        omega
      · simp only [AtomicCounter.natural, inside, Finset.card_insert_of_notMem hpermits]
        omega

/-- A rejected request takes back what it has counted. -/
theorem Accounted.shed (hs : s.Accounted limits) (hi : i ∈ s.rejected) :
    (s.shed .natural i).Accounted limits := by
  have hcounter : s.counter = s.permits.card + s.rejected.card := hs.counter_eq
  have hpos : 0 < s.rejected.card := Finset.card_pos.mpr ⟨i, hi⟩
  refine ⟨hs.permits_le, ?_⟩
  simp only [Inflight.shed, AtomicCounter.natural, inside, Finset.card_erase_of_mem hi]
  omega

/-- Dropping a permit takes back what it has counted. -/
theorem Accounted.dropPermit (hs : s.Accounted limits) (hi : i ∈ s.permits) :
    (s.dropPermit .natural i).Accounted limits := by
  have hcounter : s.counter = s.permits.card + s.rejected.card := hs.counter_eq
  have hle := hs.permits_le
  have hpos : 0 < s.permits.card := Finset.card_pos.mpr ⟨i, hi⟩
  refine ⟨?_, ?_⟩
  · simp only [Inflight.dropPermit, Finset.card_erase_of_mem hi]
    omega
  · simp only [Inflight.dropPermit, AtomicCounter.natural, inside, Finset.card_erase_of_mem hi]
    omega

/-- Every operation keeps the account. -/
theorem Accounted.step (hs : s.Accounted limits) (h : Step .natural limits s e t) :
    t.Accounted limits := by
  cases h with
  | arrive hpermits hrejected => exact hs.arrive hpermits hrejected
  | shed hi => exact hs.shed hi
  | complete hi => exact hs.dropPermit hi
  | cancel hi => exact hs.dropPermit hi

/-- Every run keeps the account. -/
theorem Accounted.run (hs : s.Accounted limits) (h : Run (Step .natural limits) s es t) :
    t.Accounted limits :=
  h.invariant (fun _ _ _ hs hstep => hs.step hstep) hs

omit [DecidableEq ι] in
/-- A request inside the layer is counted. -/
theorem Accounted.counter_pos (hs : s.Accounted limits) (hi : i ∈ s.permits ∨ i ∈ s.rejected) :
    0 < s.counter := by
  rw [hs.counter_eq, inside]
  rcases hi with hi | hi
  · exact Nat.add_pos_left (Finset.card_pos.mpr ⟨i, hi⟩) _
  · exact Nat.add_pos_right _ (Finset.card_pos.mpr ⟨i, hi⟩)

/-- However the arrivals, rejections, completions and cancellations interleave: the permits are
within the cap, the counter is the number of permits and of rejected requests that have not
taken their increment back, it is positive at every decrement, and zero when no request is
inside the layer. -/
theorem accounted_of_run {ι : Type} [DecidableEq ι] {limits : LimitsConfig}
    {es : List (Move ι)} {s : Inflight ℕ ι}
    (h : Run (Step .natural limits) (start .natural) es s) :
    s.permits.card ≤ limits.inflightMax.toNat ∧
    s.counter = s.permits.card + s.rejected.card ∧
    (∀ i, i ∈ s.permits ∨ i ∈ s.rejected → 0 < s.counter) ∧
    (s.Idle → s.counter = 0) := by
  have hs : s.Accounted limits := accounted_start.run h
  refine ⟨hs.permits_le, hs.counter_eq, fun i hi => hs.counter_pos hi, ?_⟩
  rintro ⟨hpermits, hrejected⟩
  rw [hs.counter_eq, inside, hpermits, hrejected]
  rfl

/-- A cap of one request. -/
def oneInflight : LimitsConfig :=
  { LimitsConfig.default with inflightMax := 1 }

/-- The second of two requests finds the cap reached, and the first is cancelled before the
second has taken its increment back: the counter is still one, without a permit. -/
theorem accounted_of_run_overlapping :
    (∅ : Finset ℕ).card ≤ oneInflight.inflightMax.toNat ∧
    1 = (∅ : Finset ℕ).card + ({1} : Finset ℕ).card ∧
    (∀ i, i ∈ (∅ : Finset ℕ) ∨ i ∈ ({1} : Finset ℕ) → 0 < 1) ∧
    (Idle { counter := 1, rejected := {1}, permits := (∅ : Finset ℕ) } → 1 = 0) := by
  have hrun : Run (Step .natural oneInflight) (start .natural)
      [Move.arrive 0, .arrive 1, .cancel 0] { counter := 1, rejected := {1}, permits := ∅ } :=
    .cons (.arrive (by decide) (by decide)) (.cons (.arrive (by decide) (by decide))
      (.cons (.cancel (by decide)) (.nil _)))
  exact accounted_of_run hrun

/-! ## The counter as a word -/

/-- The counter of the code, read as a natural number. -/
def toNatural (s : Inflight UInt64 ι) : Inflight ℕ ι where
  counter := s.counter.toNat
  rejected := s.rejected
  permits := s.permits

/-- A word below the largest is counted up. -/
theorem toNat_add_one {n : UInt64} (h : n.toNat + 1 < UInt64.size) :
    (n + 1).toNat = n.toNat + 1 := by
  rw [UInt64.toNat_add]
  exact Nat.mod_eq_of_lt h

/-- A positive word is counted down. -/
theorem toNat_sub_one {n : UInt64} (h : 0 < n.toNat) : (n - 1).toNat = n.toNat - 1 := by
  have hone : (1 : UInt64) ≤ n := UInt64.le_iff_toNat_le.mpr h
  rw [UInt64.toNat_sub_of_le _ _ hone]
  rfl

/-- One operation on the word, after which fewer than `2 ^ 64` requests are inside the layer, is
one operation on the natural number. -/
theorem step_toNatural {s t : Inflight UInt64 ι} (hs : s.toNatural.Accounted limits)
    (h : Step .word limits s e t) (ht : t.inside < UInt64.size) :
    Step .natural limits s.toNatural e t.toNatural := by
  have hcounter : s.counter.toNat = s.permits.card + s.rejected.card := hs.counter_eq
  cases h with
  | @arrive i hpermits hrejected =>
    suffices heq : (s.arrive .word limits i).toNatural = s.toNatural.arrive .natural limits i by
      rw [heq]
      exact .arrive hpermits hrejected
    unfold inside arrive at ht
    unfold toNatural arrive
    dsimp only at ht ⊢
    split
    next => rfl
    next hcap =>
      rw [if_neg hcap] at ht
      -- an increment does not exceed the requests inside afterwards
      by_cases hfull : limits.inflightMax.toNat ≤ s.counter.toNat
      · rw [if_pos (show _ ≤ AtomicCounter.word.value s.counter from hfull)] at ht ⊢
        rw [if_pos (show _ ≤ AtomicCounter.natural.value s.counter.toNat from hfull)]
        dsimp only at ht
        rw [Finset.card_insert_of_notMem hrejected] at ht
        exact Inflight.ext (toNat_add_one (by omega)) rfl rfl
      · rw [if_neg (show ¬ _ ≤ AtomicCounter.word.value s.counter from hfull)] at ht ⊢
        rw [if_neg (show ¬ _ ≤ AtomicCounter.natural.value s.counter.toNat from hfull)]
        dsimp only at ht
        rw [Finset.card_insert_of_notMem hpermits] at ht
        exact Inflight.ext (toNat_add_one (by omega)) rfl rfl
  | @shed i hi =>
    -- a decrement finds a positive count
    have heq : (s.shed .word i).toNatural = s.toNatural.shed .natural i :=
      Inflight.ext (toNat_sub_one (hs.counter_pos (.inr hi))) rfl rfl
    rw [heq]
    exact .shed hi
  | @complete i hi =>
    have heq : (s.dropPermit .word i).toNatural = s.toNatural.dropPermit .natural i :=
      Inflight.ext (toNat_sub_one (hs.counter_pos (.inl hi))) rfl rfl
    rw [heq]
    exact .complete hi
  | @cancel i hi =>
    have heq : (s.dropPermit .word i).toNatural = s.toNatural.dropPermit .natural i :=
      Inflight.ext (toNat_sub_one (hs.counter_pos (.inl hi))) rfl rfl
    rw [heq]
    exact .cancel hi

/-- A run on the word, with always fewer than `2 ^ 64` requests inside the layer, is a run on
the natural number. -/
theorem run_natural_of_run_word {s t : Inflight UInt64 ι} (hs : s.toNatural.Accounted limits)
    (h : Run (fun s e t => Step .word limits s e t ∧ t.inside < UInt64.size) s es t) :
    Run (Step .natural limits) s.toNatural es t.toNatural := by
  induction h with
  | nil s => exact .nil _
  | cons hstep _ ih =>
    have hnatural := step_toNatural hs hstep.1 hstep.2
    exact .cons hnatural (ih (hs.step hnatural))

end Inflight

end LoadShed

end Corx
