import Corx.Policy.Cooldown

/-!
# The half-open probe budget

The breaker keeps a counter of the probes of a half-open phase and the start of the phase,
not the set of probes in flight, and a probe may outlive its phase through closed and back
to open. Let every hop of a host settle in less than `openDuration` (`TimelyStep`). Then the
counter is an upper bound after all, by two observations that `ProbeInv` states:

* a half-open phase lasts only while the hop that started it is in flight, because any
  settlement of the host ends the phase; so the branch that restarts an elapsed phase is
  never taken;
* when a circuit opens, every probe in flight was admitted before, so it is settled before
  the cool-down is over; the next phase starts with no probe in flight.

The budget is the clamped one: `probes_le_budget` bounds the probes in flight by
`max halfOpenMax 1`, and `zero_budget_admits_a_probe` shows that the clamp matters.
-/

namespace Corx

open CircuitBreaker

/-- The hops of `h` in flight that were admitted as probes. -/
def probesInFlight (h : Str) (inFlight : List InFlight) : List InFlight :=
  inFlight.filter fun f => f.host = h && f.probe

/-- Membership among the probes in flight. -/
@[simp]
theorem mem_probesInFlight {h : Str} {inFlight : List InFlight} {f : InFlight} :
    f ∈ probesInFlight h inFlight ↔ f ∈ inFlight ∧ f.host = h ∧ f.probe = true := by
  simp [probesInFlight]

/-- Settling a hop leaves a sublist of the probes. -/
theorem probesInFlight_erase_sublist (h : Str) (inFlight : List InFlight) (f : InFlight) :
    (probesInFlight h (inFlight.erase f)).Sublist (probesInFlight h inFlight) :=
  List.erase_sublist.filter _

/-- A step at which every hop of `h` in flight is still younger than `openDuration`. -/
def TimelyStep (cb : CircuitBreaker) (h : Str) (w : World) (e : Event) (w' : World) : Prop :=
  Step cb w e w' ∧ ∀ f ∈ w.inFlight, f.host = h → e.time < f.admittedAt + cb.openDuration

/-- Each operation is enabled and timely where it is executed. -/
def World.AllTimely (cb : CircuitBreaker) (h : Str) (w : World) : List Event → Prop
  | [] => True
  | e :: es =>
    (e.Enabled w ∧ ∀ f ∈ w.inFlight, f.host = h → e.time < f.admittedAt + cb.openDuration) ∧
      World.AllTimely cb h (w.next cb e) es

instance World.decidableAllTimely (cb : CircuitBreaker) (h : Str) (w : World)
    (es : List Event) : Decidable (World.AllTimely cb h w es) :=
  match es with
  | [] => inferInstanceAs (Decidable True)
  | e :: es =>
    have := World.decidableAllTimely cb h (w.next cb e) es
    inferInstanceAs (Decidable ((_ ∧ _) ∧ _))

/-- Executing enabled and timely operations is a timely run. -/
theorem timelyRun_exec {cb : CircuitBreaker} {h : Str} {w : World} {es : List Event}
    (htimely : World.AllTimely cb h w es) :
    Run (TimelyStep cb h) w es (World.exec cb w es) := by
  induction es generalizing w with
  | nil => exact Run.nil w
  | cons e es ih =>
    obtain ⟨⟨henabled, hyoung⟩, hrest⟩ := htimely
    exact Run.cons ⟨World.step_next henabled, hyoung⟩ (ih hrest)

/-- What the state of the circuit of `h` says about its probes in flight. -/
def PhaseInv (cb : CircuitBreaker) (h : Str) (inFlight : List InFlight) :
    CircuitState → Prop
  | .closed => True
  | .opened openUntil =>
    ∀ f ∈ probesInFlight h inFlight, f.admittedAt + cb.openDuration ≤ openUntil
  | .halfOpen probes since =>
    (probesInFlight h inFlight).length ≤ probes.toNat ∧ probes.toNat ≤ cb.halfOpenMax.toNat ∧
      ∃ f ∈ inFlight, f.host = h ∧ f.admittedAt = since

/-- The invariant: nothing in flight is from the future, the probes are within budget, and
the state of the circuit accounts for them. -/
structure ProbeInv (cb : CircuitBreaker) (h : Str) (w : World) : Prop where
  admitted_le : ∀ f ∈ w.inFlight, f.admittedAt ≤ w.clock
  budget : (probesInFlight h w.inFlight).length ≤ cb.halfOpenMax.toNat
  phase : PhaseInv cb h w.inFlight (entryOf w.hosts h).state

variable {cb : CircuitBreaker} {h : Str}

/-- Eviction yields a closed circuit, which says nothing about probes. -/
theorem PhaseInv.kept {inFlight : List InFlight} {now : Instant} {before after : HostCircuit}
    (hkept : KeptOrEvicted now before after) (hphase : PhaseInv cb h inFlight before.state) :
    PhaseInv cb h inFlight after.state := by
  rcases hkept with rfl | ⟨rfl, -⟩
  · exact hphase
  · trivial

/-- A hop of another host in flight changes nothing for `h`. -/
theorem PhaseInv.cons_of_ne {inFlight : List InFlight} {s : CircuitState} {f : InFlight}
    (hne : h ≠ f.host) (hphase : PhaseInv cb h inFlight s) :
    PhaseInv cb h (f :: inFlight) s := by
  have hprobes : probesInFlight h (f :: inFlight) = probesInFlight h inFlight := by
    simp [probesInFlight, Ne.symm hne]
  cases s with
  | closed => trivial
  | opened openUntil => simpa only [PhaseInv, hprobes] using hphase
  | halfOpen probes since =>
    -- the hop that started the phase is still in flight behind the new one
    obtain ⟨hlen, hmax, g, hg, hhost, hsince⟩ := hphase
    exact ⟨hprobes ▸ hlen, hmax, g, List.mem_cons_of_mem _ hg, hhost, hsince⟩

/-- Settling a hop of another host changes nothing for `h`. -/
theorem PhaseInv.erase_of_ne {inFlight : List InFlight} {s : CircuitState} {f : InFlight}
    (hne : h ≠ f.host) (hphase : PhaseInv cb h inFlight s) :
    PhaseInv cb h (inFlight.erase f) s := by
  have hsub := probesInFlight_erase_sublist h inFlight f
  cases s with
  | closed => trivial
  | opened openUntil => exact fun g hg => hphase g (hsub.subset hg)
  | halfOpen probes since =>
    -- the hop that started the phase is of `h`, so it is not the one that settles
    obtain ⟨hlen, hmax, g, hg, hhost, hsince⟩ := hphase
    have hgf : g ≠ f := fun heq => hne (heq ▸ hhost.symm)
    exact ⟨hsub.length_le.trans hlen, hmax, g, (List.mem_erase_of_ne hgf).mpr hg, hhost, hsince⟩

/-- A failure at `now` either leaves the circuit of `h` as closed or open as it was, or opens
it with a cool-down that outlasts every probe admitted so far. -/
theorem PhaseInv.recordFailure {inFlight : List InFlight} {c : HostCircuit} {now : Instant}
    {f : InFlight} (hnow : ∀ g ∈ inFlight, g.admittedAt ≤ now)
    (hphase : PhaseInv cb h inFlight c.state) :
    PhaseInv cb h (inFlight.erase f)
      (recordFailureOn c now cb.window cb.failureThreshold cb.openDuration).2.state := by
  have hsub := probesInFlight_erase_sublist h inFlight f
  simp only [recordFailureOn]
  split
  next hstay =>
    -- the circuit did not open, so it is not half-open
    have hnot : c.isHalfOpen = false := by
      by_contra hhalf
      simp [Bool.not_eq_false _ ▸ hhalf] at hstay
    dsimp only
    cases hstate : c.state with
    | closed => trivial
    | opened openUntil =>
      rw [hstate] at hphase
      exact fun g hg => hphase g (hsub.subset hg)
    | halfOpen probes since => simp [HostCircuit.isHalfOpen, hstate] at hnot
  next =>
    -- the circuit opens at `now`, and every probe left was admitted by then
    intro g hg
    have hmem := (mem_probesInFlight.mp (hsub.subset hg)).1
    exact Nat.add_le_add_right (hnow g hmem) _

/-- A refused check leaves the circuit as it was. -/
theorem transitionOnCheck_of_refused {c : HostCircuit} {now : Instant} {halfOpenMax : UInt32}
    {openDuration : Duration}
    (hrefused : (transitionOnCheck c now halfOpenMax openDuration).1 = false) :
    (transitionOnCheck c now halfOpenMax openDuration).2 = c := by
  unfold transitionOnCheck at hrefused ⊢
  split at hrefused
  · cases hrefused
  · split at hrefused
    · cases hrefused
    next hexpired => rw [if_neg hexpired]
  · split at hrefused
    · cases hrefused
    next hbudget =>
      split at hrefused
      · cases hrefused
      next helapsed => rw [if_neg hbudget, if_neg helapsed]

/-- A probe of `h` joins the probes in flight. -/
theorem probesInFlight_cons_of_probe {inFlight : List InFlight} {f : InFlight} (hhost : f.host = h)
    (hprobe : f.probe = true) :
    probesInFlight h (f :: inFlight) = f :: probesInFlight h inFlight := by
  rw [probesInFlight, List.filter_cons_of_pos (by simp [hhost, hprobe])]
  rfl

/-- An admitted hop of `h` keeps the probes within budget and accounted for. -/
theorem PhaseInv.admission {inFlight : List InFlight} {c : HostCircuit} {f : InFlight}
    (hhost : f.host = h)
    (hprobe : f.probe = (c.isHalfOpen || c.isExpiredOpen f.admittedAt))
    (hallowed :
      (transitionOnCheck c f.admittedAt cb.halfOpenMax cb.openDuration).1 = true)
    (hnow : ∀ g ∈ inFlight, g.admittedAt ≤ f.admittedAt)
    (htimely : ∀ g ∈ inFlight, g.host = h → f.admittedAt < g.admittedAt + cb.openDuration)
    (hbudget : (probesInFlight h inFlight).length ≤ cb.halfOpenMax.toNat)
    (hphase : PhaseInv cb h inFlight c.state) :
    (probesInFlight h (f :: inFlight)).length ≤ cb.halfOpenMax.toNat ∧
      PhaseInv cb h (f :: inFlight)
        (transitionOnCheck c f.admittedAt cb.halfOpenMax cb.openDuration).2.state := by
  have hone : 1 ≤ cb.halfOpenMax.toNat := cb.one_le_toNat_halfOpenMax
  cases hstate : c.state with
  | closed =>
    -- a hop admitted by a closed circuit is no probe
    have hfalse : f.probe = false := by
      simp [hprobe, HostCircuit.isHalfOpen, HostCircuit.isExpiredOpen, hstate]
    simp only [transitionOnCheck, hstate]
    refine ⟨?_, trivial⟩
    simpa [probesInFlight, hfalse] using hbudget
  | opened openUntil =>
    rw [hstate] at hphase
    have hexpired : openUntil ≤ f.admittedAt := by
      by_contra hlt
      simp [transitionOnCheck, hstate, hlt] at hallowed
    have htrue : f.probe = true := by
      simp [hprobe, HostCircuit.isExpiredOpen, hstate, hexpired]
    -- a probe in flight would have settled before the cool-down was over
    have hnone : probesInFlight h inFlight = [] := by
      rw [List.eq_nil_iff_forall_not_mem]
      intro g hg
      obtain ⟨hmem, hghost, -⟩ := mem_probesInFlight.mp hg
      have hlate := (hphase g hg).trans hexpired
      exact absurd (htimely g hmem hghost) (Nat.not_lt.mpr hlate)
    have hlen : (probesInFlight h (f :: inFlight)).length = 1 := by
      rw [probesInFlight_cons_of_probe hhost htrue, hnone, List.length_singleton]
    simp only [transitionOnCheck, hstate, hexpired, ↓reduceIte]
    exact ⟨hlen ▸ hone, hlen.le, hone, f, List.mem_cons_self, hhost, rfl⟩
  | halfOpen probes since =>
    rw [hstate] at hphase
    obtain ⟨hlen, hmax, g, hg, hghost, hsince⟩ := hphase
    have htrue : f.probe = true := by
      simp [hprobe, HostCircuit.isHalfOpen, hstate]
    -- the hop that started the phase is in flight, so the phase has not elapsed
    have hyoung : ¬ cb.openDuration ≤ f.admittedAt - since := by
      rw [Nat.not_le, ← hsince]
      exact Nat.sub_lt_left_of_lt_add (hnow g hg) (htimely g hg hghost)
    -- the check was allowed, and not by restarting the phase, so the counter had room
    have hlt : probes < cb.halfOpenMax := by
      by_contra hspent
      simp [transitionOnCheck, hstate, hspent, hyoung] at hallowed
    have hlt' : probes.toNat < cb.halfOpenMax.toNat := UInt32.lt_iff_toNat_lt.mp hlt
    have hcons : (probesInFlight h (f :: inFlight)).length =
        (probesInFlight h inFlight).length + 1 := by
      rw [probesInFlight_cons_of_probe hhost htrue, List.length_cons]
    simp only [transitionOnCheck, hstate, hlt, ↓reduceIte]
    -- the counter bounds the probes before, and both grow by one
    refine ⟨?_, ?_, ?_, g, List.mem_cons_of_mem _ hg, hghost, hsince⟩
    · calc (probesInFlight h (f :: inFlight)).length
          = (probesInFlight h inFlight).length + 1 := hcons
        _ ≤ probes.toNat + 1 := Nat.succ_le_succ hlen
        _ ≤ cb.halfOpenMax.toNat := hlt'
    · rw [hcons, toNat_saturatingAdd_one hlt]
      exact Nat.succ_le_succ hlen
    · rw [toNat_saturatingAdd_one hlt]
      exact hlt'

/-- The world starts within budget. -/
theorem ProbeInv.init : ProbeInv cb h World.init where
  admitted_le := by simp [World.init]
  budget := by simp [World.init, probesInFlight]
  phase := trivial

/-- A timely step keeps the invariant. -/
theorem ProbeInv.step (hon : cb.enabled = true) {w w' : World} {e : Event}
    (hinv : ProbeInv cb h w) (hstep : TimelyStep cb h w e w') : ProbeInv cb h w' := by
  obtain ⟨hstep, htimely⟩ := hstep
  have hnow : ∀ g ∈ w.inFlight, g.admittedAt ≤ e.time :=
    fun g hg => (hinv.admitted_le g hg).trans hstep.clock_le
  have hentry := hstep.entryOf hon h
  cases hstep with
  | @admitted hosts hosts' f hclock hperm hprobe hadmission =>
    have hadmitted : ∀ g ∈ f :: w.inFlight, g.admittedAt ≤ f.admittedAt :=
      List.forall_mem_cons.mpr ⟨le_refl _, hnow⟩
    -- an admission of `h` moves its circuit; of another host, only the list of hops
    by_cases heq : h = f.host
    · subst heq
      have hallowed := CircuitHop.admitHop_ok hadmission
      rw [check_fst hon, ← entryOf_perm hperm] at hallowed
      rw [isProbe, ← entryOf_perm hperm] at hprobe
      obtain ⟨hbudget, hphase⟩ := PhaseInv.admission rfl hprobe (by simpa using hallowed) hnow
        htimely hinv.budget hinv.phase
      simp only [Event.effect, ↓reduceIte] at hentry
      exact ⟨hadmitted, hbudget, hphase.kept hentry⟩
    · simp only [Event.effect, heq, ↓reduceIte] at hentry
      refine ⟨hadmitted, ?_, (hinv.phase.cons_of_ne heq).kept hentry⟩
      simpa [probesInFlight, Ne.symm heq] using hinv.budget
  | @refused hosts hosts' host now err hclock hperm hadmission =>
    refine ⟨hnow, hinv.budget, PhaseInv.kept hentry ?_⟩
    by_cases heq : h = host
    · subst heq
      have hrefused := CircuitHop.admitHop_error hadmission
      -- a refused check leaves the circuit, and no hop joins
      rw [check_fst hon, ← entryOf_perm hperm] at hrefused
      simp only [Event.effect, ↓reduceIte]
      split at hrefused
      · cases hrefused
      next hdenied =>
        rw [transitionOnCheck_of_refused (Bool.eq_false_iff.mpr hdenied)]
        exact hinv.phase
    · simpa only [Event.effect, heq, ↓reduceIte] using hinv.phase
  | @settled hosts f how now hclock hperm hmem =>
    refine ⟨fun g hg => hnow g (List.mem_of_mem_erase hg), ?_, PhaseInv.kept hentry ?_⟩
    · exact (probesInFlight_erase_sublist h w.inFlight f).length_le.trans hinv.budget
    -- a success closes the circuit; a failure or a drop reopens it or finds it closed or open
    · by_cases heq : h = f.host
      · subst heq
        simp only [Event.effect, ↓reduceIte]
        cases how with
        | success => trivial
        | failure | drop => exact hinv.phase.recordFailure hnow
      · simpa only [Event.effect, heq, ↓reduceIte] using hinv.phase.erase_of_ne heq

/-- A disabled breaker never has a circuit, so it never admits a probe. -/
theorem no_probe_of_disabled (hoff : cb.enabled = false) {w : World} {es : List Event}
    (hrun : Run (Step cb) World.init es w) :
    w.hosts.entries = [] ∧ probesInFlight h w.inFlight = [] := by
  refine hrun.invariant (P := fun w => w.hosts.entries = [] ∧ probesInFlight h w.inFlight = [])
    ?_ ⟨rfl, rfl⟩
  rintro w e w' ⟨hempty, hnone⟩ hstep
  have hnil : ∀ {hosts : Hosts}, w.hosts.entries.Perm hosts.entries → hosts.entries = [] :=
    fun hperm => (hempty ▸ hperm).nil_eq.symm
  cases hstep with
  | @admitted hosts hosts' f hclock hperm hprobe hadmission =>
    have hsnd := CircuitHop.admitHop_snd cb hosts f.host f.admittedAt
    rw [hadmission, check_of_disabled hoff] at hsnd
    -- in an empty map every host has a new circuit, which is closed
    have hfalse : f.probe = false := by
      have hnew : entryOf hosts f.host = HostCircuit.new := by
        simp [entryOf, AList.lookup, hnil hperm]
      simp [hprobe, isProbe, hnew, HostCircuit.new, HostCircuit.isHalfOpen,
        HostCircuit.isExpiredOpen]
    refine ⟨?_, by simpa [probesInFlight, hfalse] using hnone⟩
    rw [show hosts' = hosts from hsnd]
    exact hnil hperm
  | @refused hosts hosts' host now err hclock hperm hadmission =>
    have hsnd := CircuitHop.admitHop_snd cb hosts host now
    rw [hadmission, check_of_disabled hoff] at hsnd
    refine ⟨?_, hnone⟩
    rw [show hosts' = hosts from hsnd]
    exact hnil hperm
  | @settled hosts f how now hclock hperm hmem =>
    have hsub := probesInFlight_erase_sublist h w.inFlight f
    rw [hnone] at hsub
    refine ⟨?_, List.sublist_nil.mp hsub⟩
    rw [how.apply_of_disabled hoff]
    exact hnil hperm

/-- When every hop of `h` settles in less than `openDuration`, the number of its probes in
flight never exceeds the clamped half-open budget. -/
theorem probes_le_budget (cfg : CircuitBreakerConfig) (h : Str) {w : World} {es : List Event}
    (hrun : Run (TimelyStep (fromConfig cfg) h) World.init es w) :
    (probesInFlight h w.inFlight).length ≤ max cfg.halfOpenMax.toNat 1 := by
  have hmax : (fromConfig cfg).halfOpenMax.toNat = max cfg.halfOpenMax.toNat 1 := toNat_max _ _
  by_cases hon : cfg.enabled = true
  · have hinv : ProbeInv (fromConfig cfg) h w :=
      hrun.invariant (fun _ _ _ hP hs => hP.step hon hs) ProbeInv.init
    exact hmax ▸ hinv.budget
  · have hoff : (fromConfig cfg).enabled = false := eq_false_of_ne_true hon
    have hnone := (no_probe_of_disabled (h := h) hoff (hrun.mono fun _ _ _ hs => hs.1)).2
    simp [hnone]

/-! ## The budget at its extremes -/

/-- A breaker that a single failure trips, with a cool-down of ten and a budget of two. -/
def twoProbes : CircuitBreakerConfig :=
  { CircuitBreakerConfig.default with failureThreshold := 1, openDuration := 10, halfOpenMax := 2 }

/-- The same breaker, configured with a budget of zero. -/
def noProbes : CircuitBreakerConfig :=
  { twoProbes with halfOpenMax := 0 }

/-- A host is admitted at 0, fails at 1, and is admitted again when the cool-down is over. -/
def tripAndProbe : List Event :=
  [.admission "a.test" 0, .settle { host := "a.test", admittedAt := 0, probe := false } .failure 1,
    .admission "a.test" 11]

/-- `probes_le_budget` where the cool-down of a tripped breaker ends with a probe. -/
theorem probes_le_budget_two :
    (probesInFlight "a.test"
        (World.exec (fromConfig twoProbes) World.init tripAndProbe).inFlight).length ≤
      max twoProbes.halfOpenMax.toNat 1 :=
  probes_le_budget twoProbes "a.test" (timelyRun_exec (by decide))

/-- With a budget of zero a timely run still ends with a probe in flight. -/
theorem zero_budget_admits_a_probe :
    ∃ es : List Event, ∃ w : World,
      Run (TimelyStep (fromConfig noProbes) "a.test") World.init es w ∧
        ¬ (probesInFlight "a.test" w.inFlight).length ≤ noProbes.halfOpenMax.toNat :=
  ⟨tripAndProbe, World.exec (fromConfig noProbes) World.init tripAndProbe,
    timelyRun_exec (by decide), by decide⟩

end Corx
