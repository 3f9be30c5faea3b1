import Corx.Policy.Cooldown
import Corx.Server.ReloadRuns

/-!
# Cool-downs across reloads

A reload takes the circuit breaker over where its section of the configuration is unchanged, so an
open circuit stays open. Along a run of the process whose reloads keep the section, one breaker is
live, and a host whose circuit has been opened is refused in every state until its cool-down is
over, unless a hop that was admitted before settles with success (`coolingDown_of_run`). Requests
that still hold an older snapshot use the same breaker.
-/

namespace Corx

open CircuitBreaker

/-- The operation that a use of a breaker is. When its hop was admitted makes no difference. -/
def CircuitUse.event : CircuitUse → Event
  | admission host now => .admission host now
  | settle host how now => .settle { host, admittedAt := now, probe := false } how now

/-- A use moves the circuit of its own host, and then may evict. -/
theorem CircuitUse.entryOf_apply {breaker : Breaker} (hon : breaker.params.enabled = true)
    (use : CircuitUse) (h : Str) :
    KeptOrEvicted use.event.time
      (use.event.effect breaker.params h (entryOf breaker.hosts h))
      (entryOf (use.apply breaker).hosts h) := by
  cases use with
  | admission host now =>
    have hcheck := entryOf_check hon breaker.hosts host now h
    rw [← CircuitHop.admitHop_snd] at hcheck
    exact hcheck
  | settle host how now =>
    exact how.entryOf_apply hon { host, admittedAt := now, probe := false } breaker.hosts now h

/-- The circuit of `h` is open, at least until `until'`. -/
def Breaker.OpenFor (breaker : Breaker) (h : Str) (until' : Instant) : Prop :=
  ∃ openUntil, (entryOf breaker.hosts h).state = .opened openUntil ∧ until' ≤ openUntil

/-- A use that is no success of `h` keeps its circuit open during the cool-down. -/
theorem Breaker.OpenFor.apply {breaker : Breaker} {h : Str} {t : Instant} {use : CircuitUse}
    (hon : breaker.params.enabled = true)
    (hopen : breaker.OpenFor h (t + breaker.params.openDuration))
    (hle : t ≤ use.event.time) (hlt : use.event.time < t + breaker.params.openDuration)
    (hno : ¬ use.event.IsSuccessOf h) :
    (use.apply breaker).OpenFor h (t + breaker.params.openDuration) := by
  obtain ⟨openUntil, hstate, huntil⟩ := hopen
  obtain ⟨openUntil', hstate', huntil'⟩ := Event.effect_opened hstate huntil hle hlt hno
  exact ⟨openUntil', (use.entryOf_apply hon h).opened hstate' (hlt.trans_le huntil'), huntil'⟩

/-- A use keeps the parameters of the breaker. -/
theorem CircuitUse.params_apply (use : CircuitUse) (breaker : Breaker) :
    (use.apply breaker).params = breaker.params := by
  cases use <;> rfl

namespace Process

variable {Cell : Type} {gov : Governor Cell}
  {regexSet : List Str → Except Str RateLimiter.RegexSet} {startup : Config}
  {p p₀ : Process Cell} {e : ProcessEvent} {past es : List ProcessEvent} {tls : Except Str Unit}

/-- An event that keeps the section of the circuit breaker keeps the breaker, and the breaker is as
it was unless the event uses it. -/
theorem circuit_next (h : p.Inv gov regexSet startup)
    (hsame : (p.next gov regexSet e).live.config.circuitBreaker = p.live.config.circuitBreaker) :
    (p.next gov regexSet e).live.circuit = p.live.circuit ∧
      ((p.next gov regexSet e).heap.breakers[p.live.circuit]? =
          p.heap.breakers[p.live.circuit]? ∨
        ∃ use, e = .hop p.live.circuit use ∧
          (p.next gov regexSet e).heap.breakers[p.live.circuit]? =
            p.heap.breakers[p.live.circuit]?.map use.apply) := by
  cases e with
  | attempt a =>
    cases hok : (p.reload gov regexSet a).1 with
    | ok u =>
      obtain ⟨hcircuit, hbreaker⟩ := (carriedOver_reload h hok).breaker hsame.symm
      rw [hcircuit] at hbreaker
      exact ⟨hcircuit, .inl hbreaker⟩
    | error err =>
      -- a reload that fails changes nothing
      obtain ⟨_, heq⟩ | ⟨_, _, _, -, -, -, heq⟩ := reload_spec gov regexSet p a
      · rw [next, heq]
        exact ⟨rfl, .inl rfl⟩
      · rw [heq] at hok
        cases hok
  | rate => exact ⟨rfl, .inl rfl⟩
  | hop circuit use =>
    refine ⟨rfl, ?_⟩
    by_cases hcircuit : circuit = p.live.circuit
    · refine .inr ⟨use, by rw [hcircuit], ?_⟩
      rw [next, Heap.hop, hcircuit]
      exact List.getElem?_modify_eq _ _ _
    · left
      exact List.getElem?_modify_ne _ _ hcircuit

/-- The live breaker keeps the circuit of `h` open for the cool-down that starts at `t`. -/
def HoldsOpen (circuit : ℕ) (cb : CircuitBreaker) (h : Str) (t : Instant) (p : Process Cell) :
    Prop :=
  p.live.circuit = circuit ∧ ∃ breaker, p.heap.breakers[circuit]? = some breaker ∧
    breaker.params = cb ∧ breaker.OpenFor h (t + cb.openDuration)

/-- Let a run start in any state that a process reaches, with the circuit of `h` opened at `t`,
and let its reloads keep the section of the circuit breaker. As long as the breaker is used before
the cool-down is over and no use is a success of `h`, the breaker that is live refuses `h`. -/
theorem coolingDown_of_run {cb : CircuitBreaker} {h : Str} {t : Instant} {breaker : Breaker}
    (hstart : start gov regexSet tls startup = .ok p₀)
    (hpast : Run (Step gov regexSet) p₀ past p)
    (hsame : Run.Throughout (next gov regexSet)
      (fun s => s.live.config.circuitBreaker = p.live.config.circuitBreaker) p es)
    (hcb : cb = .fromConfig p.live.config.circuitBreaker) (hon : cb.enabled = true)
    (hbreaker : p.heap.breakers[p.live.circuit]? = some breaker)
    (hopen : (entryOf breaker.hosts h).state = .opened (t + cb.openDuration))
    (huses : ∀ use, .hop p.live.circuit use ∈ es →
      t ≤ use.event.time ∧ use.event.time < t + cb.openDuration ∧ ¬ use.event.IsSuccessOf h) :
    Run.Throughout (next gov regexSet) (fun s => ∃ breaker,
      s.heap.breakers[s.live.circuit]? = some breaker ∧ ∀ now, now < t + cb.openDuration →
        (breaker.params.check breaker.hosts h now).1 = .error (.circuitOpen h)) p es := by
  have hinv : p.Inv gov regexSet startup := inv_of_run hstart hpast
  obtain ⟨breaker', hbreaker', hparams⟩ := hinv.coherent.circuit
  obtain rfl := Option.some.inj (hbreaker.symm.trans hbreaker')
  -- the breaker stays in its place, and its circuit stays open in there
  have hholds : Run.Throughout (next gov regexSet)
      (fun s => s.Inv gov regexSet startup ∧ HoldsOpen p.live.circuit cb h t s) p es := by
    refine hsame.induct
      ⟨hinv, rfl, breaker, hbreaker, hparams.trans hcb.symm, _, hopen, le_refl _⟩ ?_
    rintro s e he ⟨hs, hcircuit, b, hb, rfl, hb'⟩ hbefore hafter
    obtain ⟨hkept, hnext⟩ := circuit_next hs (hafter.trans hbefore.symm)
    refine ⟨inv_step hs rfl, hkept.trans hcircuit, ?_⟩
    rw [hcircuit] at hnext
    rcases hnext with hunused | ⟨use, rfl, hused⟩
    · exact ⟨b, hunused.trans hb, rfl, hb'⟩
    · obtain ⟨hle, hlt, hno⟩ := huses use he
      refine ⟨use.apply b, by rw [hused, hb, Option.map_some], use.params_apply b, ?_⟩
      exact hb'.apply hon hle hlt hno
  intro past hpast
  obtain ⟨-, hcircuit, b, hb, hparams, openUntil, hstate, huntil⟩ := hholds past hpast
  refine ⟨b, by rw [hcircuit, hb], fun now hnow => ?_⟩
  exact check_of_opened (hparams ▸ hon) hstate (hnow.trans_le huntil)

/-! ## A reload during a cool-down -/

/-- The default configuration, with a breaker that one failure trips. -/
def hairConfig : Config :=
  { Config.default "0.2.0" with circuitBreaker := hairTrigger }

/-- The process that starts from it. -/
def hairProcess : Process (Option Instant) :=
  (start gcra noPattern (.ok ()) hairConfig).toOption.get (by decide +kernel)

/-- A hop of a host is admitted, and fails. -/
def firstFailure : List ProcessEvent :=
  [.hop 0 (.admission "a.test" 0), .hop 0 (.settle "a.test" .failure 1)]

/-- The process after that. -/
def trippedProcess : Process (Option Instant) :=
  firstFailure.foldl (next gcra noPattern) hairProcess

/-- That configuration is reloaded with reflection opened to every origin. -/
def openHair : Attempt where
  source := .ok { hairConfig with cors := { CorsConfig.default with allowAnyOrigin := true } }
  isFile := fun _ => false
  tls := .ok ()

/-- The reload comes first, and then the host is asked for. -/
def askAgain : List ProcessEvent :=
  [.attempt openHair, .hop 0 (.admission "a.test" 2)]

/-- After the reload the host is still refused. -/
theorem coolingDown_of_run_tripped :
    Run.Throughout (next gcra noPattern) (fun s => ∃ breaker,
      s.heap.breakers[s.live.circuit]? = some breaker ∧
        ∀ now, now < 1 + (fromConfig hairTrigger).openDuration →
          (breaker.params.check breaker.hosts "a.test" now).1 = .error (.circuitOpen "a.test"))
      trippedProcess askAgain := by
  have hsame : ∀ past ∈ askAgain.inits,
      (past.foldl (next gcra noPattern) trippedProcess).live.config.circuitBreaker =
        trippedProcess.live.config.circuitBreaker := by
    decide +kernel
  refine coolingDown_of_run (eq_ok_get_toOption (by decide +kernel)) (Run.iff_foldl.mpr rfl)
    (fun past hpast => hsame past ((List.mem_inits _ _).mpr hpast)) rfl rfl
    (List.head?_eq_getElem?.symm.trans (List.head?_eq_some_head (by decide +kernel)))
    (by decide +kernel) ?_
  intro use huse
  rcases List.mem_cons.mp huse with hreload | hask
  · cases hreload
  · obtain ⟨-, rfl⟩ := ProcessEvent.hop.inj (List.mem_singleton.mp hask)
    exact ⟨by decide, by decide, id⟩

end Process

end Corx
