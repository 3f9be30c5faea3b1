import Corx.Policy.CircuitRuns

/-!
# The cool-down of an open circuit

A failure that opens the circuit of a host at `t` sets its `openUntil` to
`t + openDuration`. Until then every step keeps the circuit open (`CoolingDown`), eviction
and further failures included, with one exception: a success of a hop that was admitted
before the opening resets the circuit to closed. So the host is refused throughout the
cool-down exactly in the runs in which no such success is settled
(`check_refused_iff_no_success`); `late_success_admits` is a run with one.
-/

namespace Corx

open CircuitBreaker

/-- While the clock is before `t + openDuration`, the circuit of `h` is open at least until
then. -/
structure CoolingDown (cb : CircuitBreaker) (h : Str) (t : Instant) (w : World) : Prop where
  le_clock : t ≤ w.clock
  opened : w.clock < t + cb.openDuration →
    ∃ openUntil, (entryOf w.hosts h).state = .opened openUntil ∧
      t + cb.openDuration ≤ openUntil

/-- An open circuit refuses its host until its cool-down is over. -/
theorem check_of_opened {cb : CircuitBreaker} (hon : cb.enabled = true) {hosts : Hosts}
    {h : Str} {now openUntil : Instant} (hstate : (entryOf hosts h).state = .opened openUntil)
    (hlt : now < openUntil) :
    (cb.check hosts h now).1 = .error (.circuitOpen h) := by
  have hnot : ¬ openUntil ≤ now := Nat.not_le.mpr hlt
  rw [check_fst hon]
  simp [transitionOnCheck, hstate, hnot]

/-- A closed circuit admits its host. -/
theorem check_of_closed {cb : CircuitBreaker} (hon : cb.enabled = true) {hosts : Hosts}
    {h : Str} (hstate : (entryOf hosts h).state = .closed) (now : Instant) :
    (cb.check hosts h now).1 = .ok () := by
  rw [check_fst hon]
  simp [transitionOnCheck, hstate]

/-- A failure leaves an open circuit open, until the same instant or a cool-down later. -/
theorem recordFailureOn_opened {c : HostCircuit} {openUntil : Instant}
    (hstate : c.state = .opened openUntil) (now : Instant) (window : Duration)
    (threshold : UInt32) (openDuration : Duration) :
    (recordFailureOn c now window threshold openDuration).2.state = .opened openUntil ∨
      (recordFailureOn c now window threshold openDuration).2.state =
        .opened (now + openDuration) := by
  -- below the threshold the state stays, at it the cool-down starts anew
  simp only [recordFailureOn]
  split
  · exact Or.inl hstate
  · exact Or.inr rfl

/-- A failure that opens a circuit opens it for the cool-down that starts now. -/
theorem recordFailureOn_of_opens {c : HostCircuit} {now : Instant} {window : Duration}
    {threshold : UInt32} {openDuration : Duration}
    (hopens : (recordFailureOn c now window threshold openDuration).1 = true) :
    (recordFailureOn c now window threshold openDuration).2 =
      { state := .opened (now + openDuration), failures := [] } := by
  simp only [recordFailureOn] at hopens ⊢
  split
  next hstay =>
    rw [if_pos hstay] at hopens
    cases hopens
  next => rfl

/-- The transition of an operation that is no success of `h` keeps its circuit open, when it
comes before the cool-down is over. -/
theorem Event.effect_opened {cb : CircuitBreaker} {h : Str} {c : HostCircuit} {e : Event}
    {t openUntil : Instant} (hstate : c.state = .opened openUntil)
    (huntil : t + cb.openDuration ≤ openUntil) (hle : t ≤ e.time)
    (hlt : e.time < t + cb.openDuration) (hno : ¬ e.IsSuccessOf h) :
    ∃ openUntil', (e.effect cb h c).state = .opened openUntil' ∧
      t + cb.openDuration ≤ openUntil' := by
  cases e with
  | admission host now =>
    refine ⟨openUntil, ?_, huntil⟩
    -- a check before the cool-down is over only looks at an open circuit
    have hnot : ¬ openUntil ≤ now := Nat.not_le.mpr (hlt.trans_le huntil)
    simp only [effect]
    split
    · simp [transitionOnCheck, hstate, hnot]
    · exact hstate
  | settle f how now =>
    by_cases heq : h = f.host
    · simp only [effect, heq, ↓reduceIte]
      -- a further failure can only move the end of the cool-down later
      have hreopen : t + cb.openDuration ≤ now + cb.openDuration := Nat.add_le_add_right hle _
      cases how with
      | success => exact absurd heq.symm hno
      | failure | drop =>
        rcases recordFailureOn_opened hstate now cb.window cb.failureThreshold
          cb.openDuration with hsame | hnew
        · exact ⟨openUntil, hsame, huntil⟩
        · exact ⟨now + cb.openDuration, hnew, hreopen⟩
    · exact ⟨openUntil, by simpa [effect, heq] using hstate, huntil⟩

/-- An open circuit is not evicted before its cool-down is over. -/
theorem CircuitBreaker.KeptOrEvicted.opened {now openUntil : Instant} {before after : HostCircuit}
    (hkept : KeptOrEvicted now before after) (hstate : before.state = .opened openUntil)
    (hlt : now < openUntil) : after.state = .opened openUntil := by
  -- eviction spares circuits that are open and not yet expired
  rw [hkept.eq_of_protected]
  · exact hstate
  · simp [HostCircuit.isClosed, hstate]
  · simpa [HostCircuit.isExpiredOpen, hstate] using hlt

/-- A step that is no success of `h` keeps `h` cooling down. -/
theorem CoolingDown.step {cb : CircuitBreaker} (hon : cb.enabled = true) {h : Str}
    {t : Instant} {w w' : World} {e : Event} (hcool : CoolingDown cb h t w)
    (hno : ¬ e.IsSuccessOf h) (hstep : Step cb w e w') : CoolingDown cb h t w' := by
  have hle : t ≤ e.time := hcool.le_clock.trans hstep.clock_le
  refine ⟨hstep.clock_eq ▸ hle, fun hlt => ?_⟩
  rw [hstep.clock_eq] at hlt
  -- the circuit was open before the step, so the step's own transition keeps it open
  obtain ⟨openUntil, hstate, huntil⟩ := hcool.opened (hstep.clock_le.trans_lt hlt)
  obtain ⟨openUntil', hstate', huntil'⟩ := Event.effect_opened hstate huntil hle hlt hno
  exact ⟨openUntil', (hstep.entryOf hon h).opened hstate' (hlt.trans_le huntil'), huntil'⟩

/-- The step that opens the circuit of a host starts its cool-down. -/
theorem coolingDown_of_opens {cb : CircuitBreaker} (hon : cb.enabled = true) {f : InFlight}
    {how : Settlement} {t : Instant} {w w' : World} (hhow : how ≠ .success)
    (hopens : (cb.recordFailure w.hosts f.host t).1 = true)
    (hstep : Step cb w (.settle f how t) w') : CoolingDown cb f.host t w' := by
  refine ⟨hstep.clock_eq.ge, fun hlt => ⟨t + cb.openDuration, ?_, le_refl _⟩⟩
  rw [hstep.clock_eq] at hlt
  rw [recordFailure_fst hon] at hopens
  -- the failure that opens the circuit is what the settlement records
  have heffect : ((Event.settle f how t).effect cb f.host (entryOf w.hosts f.host)).state =
      .opened (t + cb.openDuration) := by
    simp only [Event.effect, ↓reduceIte]
    cases how with
    | success => exact absurd rfl hhow
    | failure | drop =>
      simp only [Settlement.effect]
      rw [recordFailureOn_of_opens hopens]
  exact (hstep.entryOf hon f.host).opened heffect hlt

/-- A step that is a success of `h` leaves its circuit closed. -/
theorem Step.closed_of_success {cb : CircuitBreaker} (hon : cb.enabled = true) {h : Str}
    {w w' : World} {e : Event} (hsuccess : e.IsSuccessOf h) (hstep : Step cb w e w') :
    (CircuitBreaker.entryOf w'.hosts h).state = .closed := by
  have hentry := hstep.entryOf hon h
  cases e with
  | admission _ _ => exact hsuccess.elim
  | settle f how now =>
    cases how with
    | failure | drop => exact hsuccess.elim
    | success =>
      have heq : h = f.host := Eq.symm hsuccess
      simp only [Event.effect, heq, ↓reduceIte, Settlement.effect] at hentry
      -- kept or evicted, the circuit is a new one
      rcases hentry with hkept | ⟨hnew, -⟩
      · rw [heq, hkept]
        rfl
      · rw [heq, hnew]
        rfl

/-- After the failure at `t` that opens the circuit of a host, along any run before
`t + openDuration`: the host is refused in every state exactly when no hop of it settles
with success. -/
theorem check_refused_iff_no_success (cfg : CircuitBreakerConfig) (hon : cfg.enabled = true)
    {f : InFlight} {how : Settlement} {t : Instant} {w₀ w₁ w₂ : World} {es : List Event}
    (hhow : how ≠ .success)
    (hopens : ((fromConfig cfg).recordFailure w₀.hosts f.host t).1 = true)
    (hstep : Step (fromConfig cfg) w₀ (.settle f how t) w₁)
    (hrun : Run (Step (fromConfig cfg)) w₁ es w₂)
    (hwithin : ∀ e ∈ es, e.time < t + cfg.openDuration) :
    (∀ es₁ es₂ w, es = es₁ ++ es₂ → Run (Step (fromConfig cfg)) w₁ es₁ w →
        Run (Step (fromConfig cfg)) w es₂ w₂ →
        ∀ now, w.clock ≤ now → now < t + cfg.openDuration →
          ((fromConfig cfg).check w.hosts f.host now).1 = .error (.circuitOpen f.host)) ↔
      ∀ e ∈ es, ¬ e.IsSuccessOf f.host := by
  constructor
  · intro hrefused e he hsuccess
    obtain ⟨es₁, es₂, rfl⟩ := List.append_of_mem he
    -- stop right after the success: the circuit is closed, and a check is admitted
    rw [List.append_cons] at hrun
    obtain ⟨w, hrun₁, hrun₂⟩ := hrun.split
    obtain ⟨w', -, hlast⟩ := hrun₁.of_snoc
    have hadmitted : ((fromConfig cfg).check w.hosts f.host w.clock).1 = .ok () :=
      check_of_closed hon (hlast.closed_of_success hon hsuccess) _
    have hclock : w.clock < t + cfg.openDuration := hlast.clock_eq ▸ hwithin e he
    have herror := hrefused (es₁ ++ [e]) es₂ w (List.append_cons _ _ _) hrun₁ hrun₂ w.clock
      (le_refl _) hclock
    rw [hadmitted] at herror
    cases herror
  · intro hno es₁ es₂ w hes hrun₁ _ now hle hlt
    -- without a success every step keeps the host cooling down, up to the state asked about
    have hcool : CoolingDown (fromConfig cfg) f.host t w :=
      hrun₁.invariant_of_labels (fun _ _ _ hP hQ hs => hP.step hon hQ hs)
        (fun e he => hno e (hes ▸ List.mem_append_left _ he))
        (coolingDown_of_opens hon hhow hopens hstep)
    obtain ⟨openUntil, hstate, huntil⟩ := hcool.opened (hle.trans_lt hlt)
    exact check_of_opened hon hstate (hlt.trans_le huntil)

/-! ## A success that comes late -/

/-- The default breaker, tripped by a single failure. -/
def hairTrigger : CircuitBreakerConfig :=
  { CircuitBreakerConfig.default with failureThreshold := 1 }

/-- A hop to one host, admitted at the start. -/
def firstHop : InFlight where
  host := "a.test"
  admittedAt := 0
  probe := false

/-- Two hops of the host are admitted. -/
def openingWorld : World :=
  World.exec (fromConfig hairTrigger) World.init [.admission "a.test" 0, .admission "a.test" 0]

/-- One of the two hops fails, which opens the circuit. -/
def trippedWorld : World :=
  openingWorld.next (fromConfig hairTrigger) (.settle firstHop .failure 1)

/-- `check_refused_iff_no_success` where the second hop is dropped after the failure of the
first. -/
theorem check_refused_after_drop :
    (∀ es₁ es₂ w, [Event.settle firstHop .drop 2] = es₁ ++ es₂ →
        Run (Step (fromConfig hairTrigger)) trippedWorld es₁ w →
        Run (Step (fromConfig hairTrigger)) w es₂
          (World.exec (fromConfig hairTrigger) trippedWorld [.settle firstHop .drop 2]) →
        ∀ now, w.clock ≤ now → now < 1 + hairTrigger.openDuration →
          ((fromConfig hairTrigger).check w.hosts firstHop.host now).1 =
            .error (.circuitOpen firstHop.host)) ↔
      ∀ e ∈ [Event.settle firstHop .drop 2], ¬ e.IsSuccessOf firstHop.host :=
  check_refused_iff_no_success hairTrigger rfl (by decide : Settlement.failure ≠ .success)
    (by decide : ((fromConfig hairTrigger).recordFailure openingWorld.hosts firstHop.host 1).1 =
      true)
    (World.step_next (by decide)) (World.run_exec (by decide)) (by decide)

/-- Two hops of one host are in flight; the failure of one opens the circuit at 1, and the
success of the other at 2 makes the breaker admit the host at 3, long before the cool-down
is over. -/
theorem late_success_admits :
    ∃ w₀ w₁ w₂ : World, ∃ es : List Event,
      Run (Step (fromConfig hairTrigger)) World.init es w₀ ∧
      ((fromConfig hairTrigger).recordFailure w₀.hosts firstHop.host 1).1 = true ∧
      Step (fromConfig hairTrigger) w₀ (.settle firstHop .failure 1) w₁ ∧
      Step (fromConfig hairTrigger) w₁ (.settle firstHop .success 2) w₂ ∧
      w₂.clock ≤ 3 ∧ 3 < 1 + hairTrigger.openDuration ∧
      ((fromConfig hairTrigger).check w₂.hosts firstHop.host 3).1 = .ok () :=
  ⟨openingWorld, trippedWorld,
    trippedWorld.next (fromConfig hairTrigger) (.settle firstHop .success 2), _,
    World.run_exec (by decide), by decide, World.step_next (by decide),
    World.step_next (by decide), by decide, by decide, by decide⟩

end Corx
