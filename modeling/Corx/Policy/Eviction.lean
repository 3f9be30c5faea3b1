import Corx.Policy.Circuit

/-!
# What eviction drops

Eviction brings the map back to its capacity in three passes, each of which recomputes the
excess and stops when that is gone. As a list of entries, in whatever order the map yields them,
the result is three times `List.shedTo` (`entries_evictIfNeeded`); how much is dropped, and in
which order of preference, follows from the facts about that one operation.
-/

namespace Corx

/-- The circuit guards its host: it is half-open, or open until a time to come. -/
def HostCircuit.Protecting (now : Instant) (c : HostCircuit) : Prop :=
  c.isHalfOpen = true ∨ ∃ openUntil, c.state = .opened openUntil ∧ now < openUntil

/-- The circuit may be dropped: it is closed, or open with the cool-down over. -/
def HostCircuit.isDispensable (now : Instant) (c : HostCircuit) : Bool :=
  c.isClosed || c.isExpiredOpen now

/-- A circuit guards its host exactly if it may not be dropped. -/
theorem HostCircuit.protecting_iff {now : Instant} {c : HostCircuit} :
    c.Protecting now ↔ c.isDispensable now = false := by
  unfold Protecting isDispensable isHalfOpen isClosed isExpiredOpen
  cases c.state with
  | closed => simp
  | opened openUntil => simp
  | halfOpen probes since => simp

namespace CircuitBreaker

variable {cb : CircuitBreaker} {hosts : Hosts} {now : Instant}

/-- A pass sheds matching entries down to the capacity. -/
theorem entries_evictMatching (maxHosts : ℕ) (pred : HostCircuit → Bool) (hosts : Hosts) :
    (evictMatching maxHosts pred hosts).entries =
      List.shedTo (fun e => pred e.2) maxHosts hosts.entries := by
  unfold evictMatching
  dsimp only
  split
  next h => rw [List.shedTo_of_length_le (by omega)]
  next => rfl

/-- The entries after eviction: idle closed ones are shed first, then expired open ones, then
closed ones. -/
theorem entries_evictIfNeeded (cb : CircuitBreaker) (hosts : Hosts) (now : Instant) :
    (cb.evictIfNeeded hosts now).entries =
      List.shedTo (fun e => e.2.isClosed) cb.maxHosts
        (List.shedTo (fun e => e.2.isExpiredOpen now) cb.maxHosts
          (List.shedTo (fun e => e.2.isIdleClosed) cb.maxHosts hosts.entries)) := by
  -- a pass that is left out would have shed nothing
  have hskip : ∀ (pred : HostCircuit → Bool) (m : Hosts),
      (if cb.maxHosts < m.entries.length then evictMatching cb.maxHosts pred m else m).entries =
        List.shedTo (fun e => pred e.2) cb.maxHosts m.entries := by
    intro pred m
    split
    · exact entries_evictMatching cb.maxHosts pred m
    · rw [List.shedTo_of_length_le (by omega)]
  unfold evictIfNeeded
  split
  next hfits =>
    rw [List.shedTo_of_length_le (l := hosts.entries) hfits, List.shedTo_of_length_le hfits,
      List.shedTo_of_length_le hfits]
  next =>
    dsimp only
    rw [hskip, hskip, entries_evictMatching]

/-- Entries of circuits that guard their hosts stay, in order. -/
theorem filter_entries_evictIfNeeded (cb : CircuitBreaker) (hosts : Hosts) (now : Instant) :
    ((cb.evictIfNeeded hosts now).entries.filter fun e => !e.2.isDispensable now) =
      hosts.entries.filter fun e => !e.2.isDispensable now := by
  rw [entries_evictIfNeeded]
  unfold List.shedTo
  rw [List.filter_dropMatching, List.filter_dropMatching, List.filter_dropMatching]
  · intro e he
    simp only [HostCircuit.isDispensable, Bool.not_or, Bool.and_eq_true, Bool.not_eq_true'] at he
    simp [HostCircuit.isIdleClosed, HostCircuit.isClosed] at he ⊢
    simp [he]
  · intro e he
    simpa using (Bool.or_eq_false_iff.mp (Bool.not_eq_true' _ ▸ he)).2
  · intro e he
    simpa using (Bool.or_eq_false_iff.mp (Bool.not_eq_true' _ ▸ he)).1

/-- Entries are dropped and none is changed. -/
theorem sublist_evictIfNeeded (cb : CircuitBreaker) (hosts : Hosts) (now : Instant) :
    (cb.evictIfNeeded hosts now).entries.Sublist hosts.entries := by
  rw [entries_evictIfNeeded]
  exact (List.shedTo_sublist _).trans ((List.shedTo_sublist _).trans (List.shedTo_sublist _))

/-- The entry of a circuit that guards its host stays. -/
theorem mem_evictIfNeeded_of_protecting {e : Σ _ : Str, HostCircuit} (he : e ∈ hosts.entries)
    (hprotecting : e.2.Protecting now) : e ∈ (cb.evictIfNeeded hosts now).entries := by
  have hmem : e ∈ hosts.entries.filter fun e => !e.2.isDispensable now :=
    List.mem_filter.mpr ⟨he, by simp [HostCircuit.protecting_iff.mp hprotecting]⟩
  rw [← filter_entries_evictIfNeeded cb] at hmem
  exact (List.mem_filter.mp hmem).1

/-- A map above its capacity does not go below it. -/
theorem le_length_evictIfNeeded (h : cb.maxHosts ≤ hosts.entries.length) :
    cb.maxHosts ≤ (cb.evictIfNeeded hosts now).entries.length := by
  rw [entries_evictIfNeeded]
  exact List.le_length_shedTo (List.le_length_shedTo (List.le_length_shedTo h))

/-- A map that stays above its capacity has only circuits that guard their hosts. -/
theorem protecting_of_mem_evictIfNeeded
    (h : cb.maxHosts < (cb.evictIfNeeded hosts now).entries.length) :
    ∀ e ∈ (cb.evictIfNeeded hosts now).entries, e.2.Protecting now := by
  rw [entries_evictIfNeeded] at h ⊢
  intro e he
  -- the last pass ran out of closed circuits, and the one before it of expired ones
  have hclosed := List.not_pred_of_mem_shedTo h e he
  have hexpired := List.not_pred_of_mem_shedTo
    (lt_of_lt_of_le h (List.shedTo_sublist _).length_le) e ((List.shedTo_sublist _).subset he)
  rw [HostCircuit.protecting_iff, HostCircuit.isDispensable, hclosed, hexpired]
  rfl

/-- Exactly the smaller of the excess and the number of circuits that may be dropped is
dropped. -/
theorem length_evictIfNeeded (cb : CircuitBreaker) (hosts : Hosts) (now : Instant) :
    (cb.evictIfNeeded hosts now).entries.length +
        min (hosts.entries.length - cb.maxHosts)
          (hosts.entries.countP fun e => e.2.isDispensable now) =
      hosts.entries.length := by
  have hguards : ∀ l : List (Σ _ : Str, HostCircuit),
      (l.countP fun e => e.2.isDispensable now) +
        (l.filter fun e => !e.2.isDispensable now).length = l.length := by
    intro l
    rw [← List.countP_eq_length_filter]
    rw [List.length_eq_countP_add_countP (fun e => e.2.isDispensable now)]
    simp
  have hbefore := hguards hosts.entries
  have hafter := hguards (cb.evictIfNeeded hosts now).entries
  rw [filter_entries_evictIfNeeded] at hafter
  by_cases hover : cb.maxHosts < (cb.evictIfNeeded hosts now).entries.length
  -- above the capacity every circuit that may be dropped is gone
  · have hnone : ((cb.evictIfNeeded hosts now).entries.countP
        fun e => e.2.isDispensable now) = 0 := by
      rw [List.countP_eq_zero]
      intro e he
      rw [HostCircuit.protecting_iff.mp (protecting_of_mem_evictIfNeeded hover e he)]
      exact Bool.false_ne_true
    have hle := (sublist_evictIfNeeded cb hosts now).length_le
    omega
  · by_cases hfits : hosts.entries.length ≤ cb.maxHosts
    · have hsame : cb.evictIfNeeded hosts now = hosts := if_pos hfits
      rw [hsame]
      omega
    -- at the capacity the excess is gone, and the circuits that stay fit
    · have hle := @le_length_evictIfNeeded cb hosts now (not_le.mp hfits).le
      omega

/-- A closed circuit with failures on record is dropped only if no idle closed and no expired
open circuit is left. -/
theorem exhausted_of_not_mem {e : Σ _ : Str, HostCircuit} (he : e ∈ hosts.entries)
    (hclosed : e.2.isClosed = true) (hfailures : e.2.failures ≠ [])
    (hgone : e ∉ (cb.evictIfNeeded hosts now).entries) :
    ∀ e' ∈ (cb.evictIfNeeded hosts now).entries,
      e'.2.isIdleClosed = false ∧ e'.2.isExpiredOpen now = false := by
  rw [entries_evictIfNeeded] at hgone ⊢
  have hstate : e.2.state = .closed := of_decide_eq_true hclosed
  have hidle : e.2.isIdleClosed = false := by simp [HostCircuit.isIdleClosed, hfailures]
  have hexpired : e.2.isExpiredOpen now = false := by simp [HostCircuit.isExpiredOpen, hstate]
  -- the circuit outlives the first two passes, so it is the third that drops it
  have hfirst : e ∈ List.shedTo (fun e => e.2.isIdleClosed) cb.maxHosts hosts.entries :=
    List.mem_dropMatching_of_not _ _ he hidle
  have hsecond : e ∈ List.shedTo (fun e => e.2.isExpiredOpen now) cb.maxHosts
      (List.shedTo (fun e => e.2.isIdleClosed) cb.maxHosts hosts.entries) :=
    List.mem_dropMatching_of_not _ _ hfirst hexpired
  intro e' he'
  have hthird : cb.maxHosts < (List.shedTo (fun e => e.2.isExpiredOpen now) cb.maxHosts
      (List.shedTo (fun e => e.2.isIdleClosed) cb.maxHosts hosts.entries)).length := by
    by_contra hfits
    rw [List.shedTo_of_length_le (not_lt.mp hfits)] at hgone
    exact hgone hsecond
  -- the passes before it ran out of matches
  have hmem := (List.shedTo_sublist _).subset he'
  exact ⟨List.not_pred_of_mem_shedTo
      (lt_of_lt_of_le hthird (List.shedTo_sublist _).length_le) e'
      ((List.shedTo_sublist _).subset hmem),
    List.not_pred_of_mem_shedTo hthird e' hmem⟩

/-- Eviction drops no more than it has to. A map within its capacity stays as it is. No entry is
changed, and none of a half-open circuit or of one that is open until a time to come is dropped.
Exactly the smaller of the excess and the number of closed and expired open circuits is dropped:
the map does not go below its capacity, and stays above it only with circuits that guard their
hosts. And a closed circuit with failures on record is dropped only once no idle closed and no
expired open one is left. -/
theorem evictIfNeeded_spec (cb : CircuitBreaker) (hosts : Hosts) (now : Instant) :
    (hosts.entries.length ≤ cb.maxHosts → cb.evictIfNeeded hosts now = hosts) ∧
    ((cb.evictIfNeeded hosts now).entries.Sublist hosts.entries ∧
      ∀ e ∈ hosts.entries, e.2.Protecting now → e ∈ (cb.evictIfNeeded hosts now).entries) ∧
    ((cb.evictIfNeeded hosts now).entries.length +
          min (hosts.entries.length - cb.maxHosts)
            (hosts.entries.countP fun e => e.2.isDispensable now) =
        hosts.entries.length ∧
      (cb.maxHosts ≤ hosts.entries.length →
        cb.maxHosts ≤ (cb.evictIfNeeded hosts now).entries.length) ∧
      (cb.maxHosts < (cb.evictIfNeeded hosts now).entries.length →
        ∀ e ∈ (cb.evictIfNeeded hosts now).entries, e.2.Protecting now)) ∧
    ∀ e ∈ hosts.entries, e.2.isClosed = true → e.2.failures ≠ [] →
      e ∉ (cb.evictIfNeeded hosts now).entries →
      ∀ e' ∈ (cb.evictIfNeeded hosts now).entries,
        e'.2.isIdleClosed = false ∧ e'.2.isExpiredOpen now = false :=
  ⟨fun hfits => if_pos hfits,
    ⟨sublist_evictIfNeeded cb hosts now, fun _ he => mem_evictIfNeeded_of_protecting he⟩,
    ⟨length_evictIfNeeded cb hosts now, le_length_evictIfNeeded, protecting_of_mem_evictIfNeeded⟩,
    fun _ he hclosed hfailures => exhausted_of_not_mem he hclosed hfailures⟩

/-- A half-open circuit and one with a failure on record, in a map for one host. -/
def probedAndFailing : Hosts :=
  let probed : HostCircuit := { state := .halfOpen 1 0, failures := [] }
  let failing : HostCircuit := { state := .closed, failures := [3] }
  AList.insert ("failing" : Str) failing (AList.insert ("probed" : Str) probed ∅)

/-- The failing circuit is dropped, and what is left is neither idle nor expired. -/
theorem evictIfNeeded_spec_failing :
    ∀ e' ∈ ((fromConfig { CircuitBreakerConfig.default with maxHosts := 1 }).evictIfNeeded
        probedAndFailing 5).entries,
      e'.2.isIdleClosed = false ∧ e'.2.isExpiredOpen 5 = false :=
  (evictIfNeeded_spec (fromConfig { CircuitBreakerConfig.default with maxHosts := 1 })
    probedAndFailing 5).2.2.2 ⟨"failing", { state := .closed, failures := [3] }⟩
    (by decide +kernel) rfl (by decide) (by decide +kernel)

end CircuitBreaker

end Corx
