import Corx.Policy.FailureWindow
import Corx.Policy.ProbeBudget

/-!
# Probes in a short time

How many checks a circuit that is not closed admits in less than `openDuration`, while nothing
is recorded for its host. The counter of a half-open window says how many probes the window has
admitted, and `since` when the first of them was. A window that has elapsed is not left until its
budget is spent: late probes use up what is left of it, and the next check starts a new window
with a budget of its own. So there is no bound by one budget (`burst_of_three`); `probesIn_le`
gives the bound by two of them less one, and by one where no check starts a window over.
-/

namespace Corx

open CircuitBreaker

/-- A call and its reply, and the circuit of its host that the call found. -/
abbrev Observed := Exchanged × HostCircuit

/-- A call on the shared map, with the circuit that it finds. -/
structure ObservedStep (cb : CircuitBreaker) (s : Shared) (o : Observed) (s' : Shared) : Prop where
  step : CallStep cb s o.1 s'
  found_eq : o.2 = entryOf s.hosts o.1.1.host

namespace Observed

/-- The time stamp of the call is in the interval. -/
def Within (t₁ t₂ : Instant) (o : Observed) : Prop :=
  t₁ ≤ o.1.1.time ∧ o.1.1.time ≤ t₂

instance (t₁ t₂ : Instant) (o : Observed) : Decidable (o.Within t₁ t₂) :=
  inferInstanceAs (Decidable (_ ∧ _))

/-- The call is a check of `h` that was admitted although the circuit was not closed. -/
def isProbeOf (h : Str) (o : Observed) : Bool :=
  match o.1 with
  | (.check host _, .verdict (.ok ())) => host = h && !o.2.isClosed
  | _ => false

/-- The calls that are probes of `h`. -/
theorem isProbeOf_iff {h : Str} {o : Observed} :
    o.isProbeOf h = true ↔
      ∃ now, o.1 = (.check h now, .verdict (.ok ())) ∧ o.2.isClosed = false := by
  constructor
  · intro hprobe
    unfold isProbeOf at hprobe
    split at hprobe
    next host now heq =>
      simp only [Bool.and_eq_true, decide_eq_true_eq, Bool.not_eq_true'] at hprobe
      exact ⟨now, hprobe.1 ▸ heq, hprobe.2⟩
    next => exact absurd hprobe Bool.false_ne_true
  · rintro ⟨now, heq, hopen⟩
    unfold isProbeOf
    rw [heq]
    simp [hopen]

/-- A probe of `h` is a call on `h`. -/
theorem host_of_isProbeOf {h : Str} {o : Observed} (hprobe : o.isProbeOf h = true) :
    o.1.1.host = h := by
  obtain ⟨now, heq, -⟩ := isProbeOf_iff.mp hprobe
  rw [heq]
  rfl

/-- The call records a success or a failure of `h`. -/
def RecordsOn (h : Str) (o : Observed) : Prop :=
  match o.1.1 with
  | .check _ _ => False
  | .recordSuccess host _ => host = h
  | .recordFailure host _ => host = h

instance (h : Str) (o : Observed) : Decidable (o.RecordsOn h) := by
  unfold RecordsOn
  split <;> infer_instance

/-- The call is a check of `h` that finds the budget of a half-open window spent and the window
elapsed. -/
def StartsOver (cb : CircuitBreaker) (h : Str) (o : Observed) : Prop :=
  match o.1.1, o.2.state with
  | .check host now, .halfOpen probes since =>
    host = h ∧ cb.halfOpenMax ≤ probes ∧ cb.openDuration ≤ now - since
  | _, _ => False

end Observed

/-- The number of checks of `h` in the interval that were admitted while its circuit was not
closed. -/
def probesIn (h : Str) (t₁ t₂ : Instant) (os : List Observed) : ℕ :=
  os.countP fun o => o.Within t₁ t₂ && o.isProbeOf h

/-- One more call may be one more probe. -/
theorem probesIn_snoc (h : Str) (t₁ t₂ : Instant) (os : List Observed) (o : Observed) :
    probesIn h t₁ t₂ (os ++ [o]) =
      probesIn h t₁ t₂ os + if o.Within t₁ t₂ ∧ o.isProbeOf h = true then 1 else 0 := by
  simp [probesIn, List.countP_append, List.countP_singleton]

/-! ## What a call does to a circuit -/

/-- A call is stamped no earlier than the one before it, and is the last one afterwards. -/
theorem CallStep.clock {cb : CircuitBreaker} {s s' : Shared} {e : Exchanged}
    (hstep : CallStep cb s e s') : s.clock ≤ e.1.time ∧ s'.clock = e.1.time := by
  cases hstep with
  | mk hclock hperm => exact ⟨hclock, rfl⟩

/-- The reply to a call is that of the circuit of its host. -/
theorem CallStep.reply_eq {cb : CircuitBreaker} {s s' : Shared} {e : Exchanged}
    (hstep : CallStep cb s e s') : e.2 = (e.1.move cb (entryOf s.hosts e.1.host)).1 := by
  cases hstep with
  | @mk hosts call hclock hperm => rw [perform_fst, entryOf_perm hperm]

/-- A check that is answered positively has passed the transition. -/
theorem allowed_of_move {cb : CircuitBreaker} (hon : cb.enabled = true) {c : HostCircuit}
    {host : Str} {now : Instant}
    (h : ((BreakerCall.check host now).move cb c).1 = .verdict (.ok ())) :
    (transitionOnCheck c now cb.halfOpenMax cb.openDuration).1 = true := by
  by_contra hrefused
  simp [BreakerCall.move, hon, hrefused] at h

/-- What a call does to the circuit of `h`: its own transition, if it is on `h`, and possibly
the eviction of a circuit that is closed or past its cool-down. -/
theorem CallStep.entryOf_keptOrEvicted {cb : CircuitBreaker} (hon : cb.enabled = true)
    {s s' : Shared} {e : Exchanged} (hstep : CallStep cb s e s') (h : Str) :
    KeptOrEvicted e.1.time
      (if h = e.1.host then (e.1.move cb (entryOf s.hosts h)).2 else entryOf s.hosts h)
      (entryOf s'.hosts h) := by
  cases hstep with | @mk hosts call hclock hperm => ?_
  rw [entryOf_perm hperm]
  cases call with
  | check host now =>
    have hcheck := entryOf_check hon hosts host now h
    simpa only [BreakerCall.move, BreakerCall.host, BreakerCall.time, BreakerCall.perform, hon,
      ↓reduceIte] using hcheck
  | recordSuccess host now =>
    left
    have hsuccess := entryOf_recordSuccess hon hosts host h
    simpa only [BreakerCall.move, BreakerCall.host, BreakerCall.time, BreakerCall.perform, hon,
      ↓reduceIte] using hsuccess
  | recordFailure host now =>
    have hfailure := entryOf_recordFailure hon hosts host now h
    simpa only [BreakerCall.move, BreakerCall.host, BreakerCall.time, BreakerCall.perform, hon,
      ↓reduceIte] using hfailure

/-! ## Counting along a run -/

/-- What the state of a circuit says about the number `n` of probes in the interval so far. A
window that was started before the interval has room for one probe less than its budget; to one
that was started in it, up to `carry` probes of an earlier window come on top. -/
def BurstInv (budget carry t₁ t₂ n clock : ℕ) : CircuitState → Prop
  | .closed => True
  | .opened _ => clock ≤ t₂ → n = 0
  | .halfOpen probes since =>
    1 ≤ probes.toNat ∧ probes.toNat ≤ budget ∧ since ≤ clock ∧
      (clock ≤ t₂ → if since < t₁ then n + 1 ≤ probes.toNat else n ≤ probes.toNat + carry)

/-- The invariant of a run: no probe before the interval, no more than the budget and what is
carried over, and the state of the circuit accounts for them. -/
structure ProbeCount (cb : CircuitBreaker) (h : Str) (carry t₁ t₂ : ℕ) (os : List Observed)
    (s : Shared) : Prop where
  early : s.clock < t₁ → probesIn h t₁ t₂ os = 0
  bound : probesIn h t₁ t₂ os ≤ cb.halfOpenMax.toNat + carry
  phase : BurstInv cb.halfOpenMax.toNat carry t₁ t₂ (probesIn h t₁ t₂ os) s.clock
    (entryOf s.hosts h).state

section

variable {cb : CircuitBreaker} {h : Str} {budget carry t₁ t₂ n clock now : ℕ}

/-- Eviction yields a closed circuit, which says nothing about probes. -/
theorem BurstInv.kept {before after : HostCircuit} (hkept : KeptOrEvicted now before after)
    (hinv : BurstInv budget carry t₁ t₂ n clock before.state) :
    BurstInv budget carry t₁ t₂ n clock after.state := by
  rcases hkept with rfl | ⟨rfl, -⟩
  · exact hinv
  · trivial

/-- Time passes. -/
theorem BurstInv.later {c : CircuitState} (hclock : clock ≤ now)
    (hinv : BurstInv budget carry t₁ t₂ n clock c) : BurstInv budget carry t₁ t₂ n now c := by
  cases c with
  | closed => trivial
  | opened openUntil => exact fun hnow => hinv (hclock.trans hnow)
  | halfOpen probes since =>
    obtain ⟨hone, hmax, hsince, hcount⟩ := hinv
    exact ⟨hone, hmax, hsince.trans hclock, fun hnow => hcount (hclock.trans hnow)⟩

/-- A record of `h` outside the interval: before it there is no probe to account for, and after
it nothing has to be accounted for. -/
theorem BurstInv.recorded {c : HostCircuit} (hout : now < t₁ ∧ n = 0 ∨ t₂ < now)
    (hclock : clock ≤ now) (hinv : BurstInv budget carry t₁ t₂ n clock c.state) :
    BurstInv budget carry t₁ t₂ n now
      (recordFailureOn c now cb.window cb.failureThreshold cb.openDuration).2.state := by
  have hnone : now ≤ t₂ → n = 0 := fun hnow => by omega
  rw [recordFailureOn_snd]
  split
  · exact hnone
  · exact hinv.later hclock

/-- A window that has elapsed in the interval began before it, since the interval is too short. -/
theorem lt_of_elapsed {since openDuration : ℕ} (hshort : t₂ - t₁ < openDuration) (hnow : now ≤ t₂)
    (helapsed : openDuration ≤ now - since) : since < t₁ := by
  by_contra hnew
  have hage : now - since ≤ t₂ - t₁ :=
    (Nat.sub_le_sub_right hnow since).trans (Nat.sub_le_sub_left (not_lt.mp hnew) t₂)
  exact absurd helapsed (Nat.not_le.mpr (lt_of_le_of_lt hage hshort))

/-- A check of `h` keeps the account, with at most one probe more, and none if it is refused or
finds the circuit closed. A window is started over in the interval only if its probes can be
carried over. -/
theorem BurstInv.check {c : HostCircuit} {n' : ℕ} (hclock : clock ≤ now)
    (hshort : t₂ - t₁ < cb.openDuration) (hnext : n' ≤ n + 1) (hearly : now < t₁ → n' = 0)
    (hsame : (transitionOnCheck c now cb.halfOpenMax cb.openDuration).1 = false → n' = n)
    (hcarry : t₁ ≤ now → now ≤ t₂ → ∀ probes since, c.state = .halfOpen probes since →
      cb.halfOpenMax ≤ probes → cb.openDuration ≤ now - since → cb.halfOpenMax.toNat ≤ carry + 1)
    (hinv : BurstInv cb.halfOpenMax.toNat carry t₁ t₂ n clock c.state) :
    BurstInv cb.halfOpenMax.toNat carry t₁ t₂ n' now
      (transitionOnCheck c now cb.halfOpenMax cb.openDuration).2.state := by
  have hbudget := cb.one_le_toNat_halfOpenMax
  have hone : (1 : UInt32).toNat = 1 := rfl
  cases hstate : c.state with
  | closed =>
    simp only [transitionOnCheck, hstate]
    trivial
  | opened openUntil =>
    rw [hstate] at hinv
    by_cases hexpired : openUntil ≤ now
    -- the first probe of a new window
    · simp only [transitionOnCheck, hstate, hexpired, ↓reduceIte]
      refine ⟨le_refl 1, hbudget, le_refl now, fun hnow => ?_⟩
      have hnone : n = 0 := hinv (hclock.trans hnow)
      rw [hone]
      by_cases hbefore : now < t₁
      · rw [if_pos hbefore, hearly hbefore]
      · rw [if_neg hbefore]
        omega
    · simp only [transitionOnCheck, hstate, hexpired, ↓reduceIte] at hsame ⊢
      rw [hsame trivial]
      exact hinv.later hclock
  | halfOpen probes since =>
    rw [hstate] at hinv
    obtain ⟨hpos, hmax, hsince, hcount⟩ := hinv
    by_cases hroom : probes < cb.halfOpenMax
    -- one more probe of the window
    · have hmore := toNat_saturatingAdd_one hroom
      have hlt : probes.toNat < cb.halfOpenMax.toNat := UInt32.lt_iff_toNat_lt.mp hroom
      simp only [transitionOnCheck, hstate, hroom, ↓reduceIte]
      refine ⟨by omega, by omega, hsince.trans hclock, fun hnow => ?_⟩
      have hbefore := hcount (hclock.trans hnow)
      rw [hmore]
      split at hbefore
      · rw [if_pos ‹_›]
        omega
      · rw [if_neg ‹_›]
        omega
    · have hspent : cb.halfOpenMax ≤ probes := UInt32.not_lt.mp hroom
      by_cases helapsed : cb.openDuration ≤ now - since
      -- the window is started over: it began before the interval
      · simp only [transitionOnCheck, hstate, hroom, helapsed, ↓reduceIte]
        refine ⟨le_refl 1, hbudget, le_refl now, fun hnow => ?_⟩
        have hbefore := hcount (hclock.trans hnow)
        rw [hone]
        by_cases hwithin : t₁ ≤ now
        · have hcarried := hcarry hwithin hnow probes since hstate hspent helapsed
          rw [if_pos (lt_of_elapsed hshort hnow helapsed)] at hbefore
          rw [if_neg (not_lt.mpr hwithin)]
          omega
        · rw [if_pos (not_le.mp hwithin), hearly (not_le.mp hwithin)]
      · simp only [transitionOnCheck, hstate, hroom, helapsed, ↓reduceIte] at hsame ⊢
        rw [hsame trivial]
        exact BurstInv.later hclock ⟨hpos, hmax, hsince, hcount⟩

/-- Without more probes than the state of a circuit accounts for, there are no more than the
budget and what is carried over. -/
theorem BurstInv.le_budget {c : CircuitState} (hclock : clock ≤ t₂) (hne : c ≠ .closed)
    (hinv : BurstInv budget carry t₁ t₂ n clock c) : n ≤ budget + carry := by
  cases c with
  | closed => exact absurd rfl hne
  | opened openUntil => exact (hinv hclock).le.trans (Nat.zero_le _)
  | halfOpen probes since =>
    obtain ⟨-, hmax, -, hcount⟩ := hinv
    have hbound := hcount hclock
    split at hbound <;> omega

/-- A check neither closes a circuit nor opens a closed one. -/
theorem transitionOnCheck_isClosed (c : HostCircuit) (now : Instant) (halfOpenMax : UInt32)
    (openDuration : Duration) :
    (transitionOnCheck c now halfOpenMax openDuration).2.isClosed = c.isClosed := by
  unfold transitionOnCheck HostCircuit.isClosed
  split
  next hstate => rw [hstate]
  next hstate => split <;> simp [hstate]
  next hstate =>
    split
    · simp [hstate]
    · split <;> simp [hstate]

variable {os : List Observed} {s s' : Shared} {o : Observed}

/-- A call that is not a probe of `h` in the interval does not count. -/
theorem probesIn_snoc_of_not (hnot : ¬ (o.Within t₁ t₂ ∧ o.isProbeOf h = true)) :
    probesIn h t₁ t₂ (os ++ [o]) = probesIn h t₁ t₂ os := by
  rw [probesIn_snoc, if_neg hnot, Nat.add_zero]

/-- A call before the interval leaves no probe in it. -/
theorem ProbeCount.early_snoc (hinv : ProbeCount cb h carry t₁ t₂ os s)
    (hclock : s.clock ≤ o.1.1.time) (hearly : o.1.1.time < t₁) :
    probesIn h t₁ t₂ (os ++ [o]) = 0 := by
  rw [probesIn_snoc_of_not fun hprobe => absurd hprobe.1.1 (not_le.mpr hearly)]
  exact hinv.early (lt_of_le_of_lt hclock hearly)

/-- A call keeps the account on the circuit of `h`, before eviction. -/
theorem ProbeCount.phase_move (hon : cb.enabled = true) (hshort : t₂ - t₁ < cb.openDuration)
    (hinv : ProbeCount cb h carry t₁ t₂ os s) (hstep : ObservedStep cb s o s')
    (hquiet : o.Within t₁ t₂ → ¬ o.RecordsOn h)
    (hcarry : o.Within t₁ t₂ → o.StartsOver cb h → cb.halfOpenMax.toNat ≤ carry + 1) :
    BurstInv cb.halfOpenMax.toNat carry t₁ t₂ (probesIn h t₁ t₂ (os ++ [o])) o.1.1.time
      (if h = o.1.1.host then (o.1.1.move cb (entryOf s.hosts h)).2
        else entryOf s.hosts h).state := by
  obtain ⟨⟨call, reply⟩, found⟩ := o
  obtain ⟨hclock, -⟩ := hstep.step.clock
  have hearly := hinv.early_snoc hclock
  have hreply := hstep.step.reply_eq
  have hfound : found = entryOf s.hosts call.host := hstep.found_eq
  dsimp only at hclock hreply hquiet hcarry ⊢
  by_cases hhost : h = call.host
  · rw [if_pos hhost]
    cases call with
    | check host now =>
      obtain rfl : h = host := hhost
      simp only [BreakerCall.move, BreakerCall.host, BreakerCall.time, hon, ↓reduceIte]
        at hclock hfound ⊢
      refine BurstInv.check hclock hshort ?_ ?_ ?_ ?_ hinv.phase
      · rw [probesIn_snoc]
        split <;> omega
      · exact hearly
      · intro hrefused
        refine probesIn_snoc_of_not fun hprobe => ?_
        obtain ⟨now', heq, -⟩ := Observed.isProbeOf_iff.mp hprobe.2
        have hallowed := allowed_of_move hon (hreply.symm.trans (Prod.mk.inj heq).2)
        exact Bool.false_ne_true (hrefused.symm.trans hallowed)
      · intro hfrom hto probes since hstate hspent helapsed
        refine hcarry ⟨hfrom, hto⟩ ?_
        rw [hfound]
        simp only [Observed.StartsOver, hstate]
        exact ⟨trivial, hspent, helapsed⟩
    | recordSuccess host now =>
      simp only [BreakerCall.move, hon, ↓reduceIte]
      trivial
    | recordFailure host now =>
      obtain rfl : h = host := hhost
      have hsame : probesIn h t₁ t₂ (os ++ [((.recordFailure h now, reply), found)]) =
          probesIn h t₁ t₂ os :=
        probesIn_snoc_of_not fun hprobe => Bool.false_ne_true hprobe.2
      rw [hsame]
      simp only [BreakerCall.move, BreakerCall.time, hon, ↓reduceIte] at hclock ⊢
      refine BurstInv.recorded ?_ hclock hinv.phase
      by_cases hearly : now < t₁
      · exact .inl ⟨hearly, hinv.early (lt_of_le_of_lt hclock hearly)⟩
      · exact .inr (not_le.mp fun hto => hquiet ⟨not_lt.mp hearly, hto⟩ rfl)
  -- a call on another host is no probe of `h`
  · rw [if_neg hhost, probesIn_snoc_of_not]
    · exact hinv.phase.later hclock
    · rintro ⟨-, hprobe⟩
      exact hhost (Observed.host_of_isProbeOf hprobe).symm

/-- A call keeps the invariant. -/
theorem ProbeCount.step (hon : cb.enabled = true) (hshort : t₂ - t₁ < cb.openDuration)
    (hinv : ProbeCount cb h carry t₁ t₂ os s) (hstep : ObservedStep cb s o s')
    (hquiet : o.Within t₁ t₂ → ¬ o.RecordsOn h)
    (hcarry : o.Within t₁ t₂ → o.StartsOver cb h → cb.halfOpenMax.toNat ≤ carry + 1) :
    ProbeCount cb h carry t₁ t₂ (os ++ [o]) s' := by
  have hmove := hinv.phase_move hon hshort hstep hquiet hcarry
  obtain ⟨hclock, hnow⟩ := hstep.step.clock
  refine ⟨fun hearly => ?_, ?_, ?_⟩
  · rw [hnow] at hearly
    exact hinv.early_snoc hclock hearly
  · by_cases hprobe : o.Within t₁ t₂ ∧ o.isProbeOf h = true
    -- the circuit that admits a probe is not closed, and a check does not close it
    · obtain ⟨now, heq, hopen⟩ := Observed.isProbeOf_iff.mp hprobe.2
      have hhost : o.1.1.host = h := Observed.host_of_isProbeOf hprobe.2
      rw [if_pos hhost.symm] at hmove
      refine hmove.le_budget hprobe.1.2 fun hclosed => ?_
      have hcall : o.1.1 = .check h now := congrArg Prod.fst heq
      have hfound : (entryOf s.hosts h).isClosed = false := by
        rw [← hhost, ← hstep.found_eq]
        exact hopen
      rw [hcall] at hclosed
      simp only [BreakerCall.move, hon, ↓reduceIte] at hclosed
      rw [← transitionOnCheck_isClosed _ now cb.halfOpenMax cb.openDuration] at hfound
      exact absurd (decide_eq_true hclosed) (Bool.eq_false_iff.mp hfound)
    · rw [probesIn_snoc_of_not hprobe]
      exact hinv.bound
  · rw [hnow]
    exact hmove.kept (hstep.step.entryOf_keptOrEvicted hon h)

/-- A breaker that is switched off changes no circuit. -/
theorem CallStep.entryOf_of_disabled (hoff : cb.enabled = false) {e : Exchanged}
    (hstep : CallStep cb s e s') (k : Str) : entryOf s'.hosts k = entryOf s.hosts k := by
  cases hstep with | @mk hosts call hclock hperm => ?_
  rw [entryOf_perm hperm]
  cases call with
  | check host now => simp [BreakerCall.perform, check_of_disabled hoff]
  | recordSuccess host now => simp [BreakerCall.perform, recordSuccess_of_disabled hoff]
  | recordFailure host now => simp [BreakerCall.perform, recordFailure_of_disabled hoff]

/-- Every circuit of a breaker that is switched off is closed, so no check is a probe. -/
theorem probesIn_of_disabled (hoff : cb.enabled = false)
    (hrun : Run (ObservedStep cb) Shared.init os s) : probesIn h t₁ t₂ os = 0 := by
  have hinv := hrun.history_invariant (P := fun os s =>
    probesIn h t₁ t₂ os = 0 ∧ ∀ k, entryOf s.hosts k = HostCircuit.new) ?_ ⟨rfl, fun k => rfl⟩
  · exact hinv.1
  · rintro os s o s' ⟨hnone, hnew⟩ hstep
    constructor
    · rw [probesIn_snoc_of_not, hnone]
      rintro ⟨-, hprobe⟩
      obtain ⟨now, -, hopen⟩ := Observed.isProbeOf_iff.mp hprobe
      rw [hstep.found_eq, hnew] at hopen
      cases hopen
    · intro k
      rw [hstep.step.entryOf_of_disabled hoff, hnew]

/-- No more probes than the budget and what may be carried over, over a whole run. -/
theorem probesIn_le_of_carry (hshort : t₂ - t₁ < cb.openDuration)
    (hrun : Run (ObservedStep cb) Shared.init os s)
    (hquiet : ∀ o ∈ os, o.Within t₁ t₂ → ¬ o.RecordsOn h)
    (hcarry : ∀ o ∈ os, o.Within t₁ t₂ → o.StartsOver cb h →
      cb.halfOpenMax.toNat ≤ carry + 1) :
    probesIn h t₁ t₂ os ≤ cb.halfOpenMax.toNat + carry := by
  by_cases hon : cb.enabled = true
  · have hinv := hrun.history_invariant (P := fun os s =>
      (∀ o ∈ os, o.Within t₁ t₂ → ¬ o.RecordsOn h) →
      (∀ o ∈ os, o.Within t₁ t₂ → o.StartsOver cb h → cb.halfOpenMax.toNat ≤ carry + 1) →
      ProbeCount cb h carry t₁ t₂ os s) ?_ ?_
    · exact (hinv hquiet hcarry).bound
    · intro os s o s' ih hstep hquiet hcarry
      have hlast : o ∈ os ++ [o] := List.mem_append_right _ (List.mem_singleton_self o)
      refine (ih ?_ ?_).step hon hshort hstep (hquiet o hlast) (hcarry o hlast)
      · exact fun o' ho' => hquiet o' (List.mem_append_left _ ho')
      · exact fun o' ho' => hcarry o' (List.mem_append_left _ ho')
    · exact fun _ _ => ⟨fun _ => rfl, Nat.zero_le _, trivial⟩
  · rw [probesIn_of_disabled (eq_false_of_ne_true hon) hrun]
    exact Nat.zero_le _

end

/-- In less than `openDuration` without a record of `h`, the checks of `h` that are admitted
while its circuit is not closed are fewer than twice the clamped budget; and no more than the
budget, unless one of them finds a spent half-open window elapsed and starts it over. -/
theorem probesIn_le (cfg : CircuitBreakerConfig) (h : Str) {t₁ t₂ : Instant} {os : List Observed}
    {s : Shared} (hrun : Run (ObservedStep (fromConfig cfg)) Shared.init os s)
    (hshort : t₂ - t₁ < cfg.openDuration)
    (hquiet : ∀ o ∈ os, o.Within t₁ t₂ → ¬ o.RecordsOn h) :
    probesIn h t₁ t₂ os ≤ 2 * max cfg.halfOpenMax.toNat 1 - 1 ∧
      ((∀ o ∈ os, o.Within t₁ t₂ → ¬ o.StartsOver (fromConfig cfg) h) →
        probesIn h t₁ t₂ os ≤ max cfg.halfOpenMax.toNat 1) := by
  have hmax : (fromConfig cfg).halfOpenMax.toNat = max cfg.halfOpenMax.toNat 1 := toNat_max _ _
  have hone := (fromConfig cfg).one_le_toNat_halfOpenMax
  rw [← hmax]
  constructor
  -- a window that is started over carries over all probes of the earlier one but the first
  · have hcarry := @probesIn_le_of_carry (fromConfig cfg) h
      ((fromConfig cfg).halfOpenMax.toNat - 1) t₁ t₂ os s hshort hrun hquiet
      fun _ _ _ _ => by omega
    omega
  · intro hnever
    exact @probesIn_le_of_carry (fromConfig cfg) h 0 t₁ t₂ os s hshort hrun hquiet
      fun o ho hwithin hstarts => absurd hstarts (hnever o ho hwithin)

/-! ## Making calls -/

/-- Every run of calls is one of observed calls. -/
theorem exists_observed_run {cb : CircuitBreaker} {s s' : Shared} {es : List Exchanged}
    (hrun : Run (CallStep cb) s es s') :
    ∃ os : List Observed, os.map Prod.fst = es ∧ Run (ObservedStep cb) s os s' := by
  induction hrun with
  | nil s => exact ⟨[], rfl, Run.nil s⟩
  | @cons s s' t e es hstep _ ih =>
    obtain ⟨os, hos, hobserved⟩ := ih
    exact ⟨(e, entryOf s.hosts e.1.host) :: os, by rw [List.map_cons, hos],
      Run.cons ⟨hstep, rfl⟩ hobserved⟩

/-- Make calls in order on the map in the order it has, and note the circuits they find. -/
def Shared.observe (cb : CircuitBreaker) (s : Shared) :
    List BreakerCall → List Observed × Shared
  | [] => ([], s)
  | call :: calls =>
    let (reply, hosts) := call.perform cb s.hosts
    let (os, s') := Shared.observe cb { hosts, clock := call.time } calls
    (((call, reply), entryOf s.hosts call.host) :: os, s')

/-- Calls whose time stamps do not decrease are an observed run. -/
theorem Shared.run_observe {cb : CircuitBreaker} {s : Shared} {calls : List BreakerCall}
    (hsorted : List.IsChain (· ≤ ·) (s.clock :: calls.map BreakerCall.time)) :
    Run (ObservedStep cb) s (s.observe cb calls).1 (s.observe cb calls).2 := by
  induction calls generalizing s with
  | nil => exact Run.nil s
  | cons call calls ih =>
    obtain ⟨hclock, hrest⟩ := List.isChain_cons_cons.mp hsorted
    exact Run.cons ⟨CallStep.mk hclock (List.Perm.refl _), rfl⟩ (ih hrest)

/-- A host fails at 1 and is probed when the cool-down is over; once the window has elapsed,
three checks come at once. -/
def lateProbes : List BreakerCall :=
  [.recordFailure "a.test" 1, .check "a.test" 11, .check "a.test" 21, .check "a.test" 21,
    .check "a.test" 21]

/-- `probesIn_le` with a budget of two, in the first half-open window. -/
theorem probesIn_le_two :
    probesIn "a.test" 11 20 (Shared.init.observe (fromConfig twoProbes) lateProbes).1 ≤
        2 * max twoProbes.halfOpenMax.toNat 1 - 1 ∧
      ((∀ o ∈ (Shared.init.observe (fromConfig twoProbes) lateProbes).1, o.Within 11 20 →
          ¬ o.StartsOver (fromConfig twoProbes) "a.test") →
        probesIn "a.test" 11 20 (Shared.init.observe (fromConfig twoProbes) lateProbes).1 ≤
          max twoProbes.halfOpenMax.toNat 1) :=
  probesIn_le twoProbes "a.test" (Shared.run_observe (by decide)) (by decide) (by decide)

/-- With a budget of two three probes are admitted at once, the last two in a window of their
own; and with a budget of zero one is. -/
theorem burst_of_three :
    (∃ os s, Run (ObservedStep (fromConfig twoProbes)) Shared.init os s ∧
      21 - 21 < twoProbes.openDuration ∧
      (∀ o ∈ os, o.Within 21 21 → ¬ o.RecordsOn "a.test") ∧
      ¬ probesIn "a.test" 21 21 os ≤ twoProbes.halfOpenMax.toNat) ∧
    ∃ os s, Run (ObservedStep (fromConfig noProbes)) Shared.init os s ∧
      11 - 11 < noProbes.openDuration ∧
      (∀ o ∈ os, o.Within 11 11 → ¬ o.RecordsOn "a.test") ∧
      ¬ probesIn "a.test" 11 11 os ≤ noProbes.halfOpenMax.toNat := by
  exact ⟨⟨_, _, @Shared.run_observe (fromConfig twoProbes) _ lateProbes (by decide), by decide,
      by decide, by decide⟩,
    ⟨_, _, @Shared.run_observe (fromConfig noProbes) _ (lateProbes.take 2) (by decide),
      by decide, by decide, by decide⟩⟩

end Corx
