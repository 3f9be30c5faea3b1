import Corx.Base.Run
import Corx.Policy.Circuit

/-!
# Runs of concurrent hops over one circuit breaker

Any number of requests share one breaker. `World` is the breaker's map together with the
hops that are admitted and not yet settled, and the time of the last operation. A step
admits a hop, is refused one, or settles a hop in flight; its time stamp is not before the
clock, so time stamps never decrease along a run. Before each operation the entries of the
map may be permuted: the order in which eviction meets them is not promised.

`InFlight` also records what the breaker does not: when the hop was admitted, and whether
its host's circuit was half-open, or open with the cool-down over, at that moment.

`Step.entryOf` is the one description of what a step does to the circuit of a host.
-/

namespace Corx

open CircuitBreaker

/-- How an admitted hop ends: with an explicit success or failure, or abandoned. -/
inductive Settlement
  | success
  | failure
  | drop
  deriving DecidableEq, Repr

/-- A hop that is admitted and not yet settled. -/
structure InFlight where
  host : Str
  admittedAt : Instant
  probe : Bool
  deriving DecidableEq, Repr

/-- The guard of a hop in flight. -/
def InFlight.hop (f : InFlight) : CircuitHop where
  host := f.host
  settled := false

/-- Settle the guard of a hop. -/
def Settlement.apply (how : Settlement) (hop : CircuitHop) (cb : CircuitBreaker)
    (hosts : Hosts) (now : Instant) : Hosts :=
  match how with
  | success => hop.success cb hosts now
  | failure => hop.failure cb hosts now
  | drop => hop.drop cb hosts now

/-- The breaker's map, the hops in flight and the time of the last operation. -/
structure World where
  hosts : Hosts
  inFlight : List InFlight
  clock : Instant

/-- The transition that a settlement makes on the circuit of its host, eviction aside. -/
def Settlement.effect (cb : CircuitBreaker) (c : HostCircuit) (now : Instant) :
    Settlement → HostCircuit
  | success => HostCircuit.new
  | failure | drop => (recordFailureOn c now cb.window cb.failureThreshold cb.openDuration).2

/-- Nothing recorded and nothing in flight. -/
def World.init : World where
  hosts := ∅
  inFlight := []
  clock := 0

/-- An operation of some request, with its time stamp. -/
inductive Event
  | admission (host : Str) (now : Instant)
  | settle (flight : InFlight) (how : Settlement) (now : Instant)
  deriving DecidableEq, Repr

namespace Event

/-- The time stamp of an operation. -/
def time : Event → Instant
  | admission _ now => now
  | settle _ _ now => now

/-- The operation settles a hop of `host` with success. -/
def IsSuccessOf (host : Str) : Event → Prop
  | settle f .success _ => f.host = host
  | _ => False

/-- The transition that an operation makes on the circuit of `h`, eviction aside. -/
def effect (cb : CircuitBreaker) (h : Str) (c : HostCircuit) : Event → HostCircuit
  | admission host now =>
    if h = host then (transitionOnCheck c now cb.halfOpenMax cb.openDuration).2 else c
  | settle f how now => if h = f.host then how.effect cb c now else c

end Event

/-- A check of `host` at `now` finds its circuit half-open, or open with the cool-down over. -/
def CircuitBreaker.isProbe (hosts : Hosts) (host : Str) (now : Instant) : Bool :=
  (entryOf hosts host).isHalfOpen || (entryOf hosts host).isExpiredOpen now

/-- One operation. `hosts` is the map in the order in which the operation meets it. -/
inductive Step (cb : CircuitBreaker) : World → Event → World → Prop
  | admitted {w : World} {hosts hosts' : Hosts} {f : InFlight}
      (hclock : w.clock ≤ f.admittedAt) (hperm : w.hosts.entries.Perm hosts.entries)
      (hprobe : f.probe = isProbe hosts f.host f.admittedAt)
      (hadmission : CircuitHop.admitHop cb hosts f.host f.admittedAt = (.ok f.hop, hosts')) :
      Step cb w (.admission f.host f.admittedAt)
        { hosts := hosts', inFlight := f :: w.inFlight, clock := f.admittedAt }
  | refused {w : World} {hosts hosts' : Hosts} {host : Str} {now : Instant} {err : ProxyError}
      (hclock : w.clock ≤ now) (hperm : w.hosts.entries.Perm hosts.entries)
      (hadmission : CircuitHop.admitHop cb hosts host now = (.error err, hosts')) :
      Step cb w (.admission host now) { hosts := hosts', inFlight := w.inFlight, clock := now }
  | settled {w : World} {hosts : Hosts} {f : InFlight} {how : Settlement} {now : Instant}
      (hclock : w.clock ≤ now) (hperm : w.hosts.entries.Perm hosts.entries)
      (hmem : f ∈ w.inFlight) :
      Step cb w (.settle f how now)
        { hosts := how.apply f.hop cb hosts now
          inFlight := w.inFlight.erase f
          clock := now }

/-- What admission does to the map is what the check does. -/
theorem CircuitHop.admitHop_snd (cb : CircuitBreaker) (hosts : Hosts) (host : Str)
    (now : Instant) : (CircuitHop.admitHop cb hosts host now).2 = (cb.check hosts host now).2 := by
  unfold CircuitHop.admitHop
  split <;> simp_all

/-- Admission succeeds when the check does. -/
theorem CircuitHop.admitHop_ok {cb : CircuitBreaker} {hosts hosts' : Hosts} {host : Str}
    {now : Instant} {hop : CircuitHop}
    (h : CircuitHop.admitHop cb hosts host now = (.ok hop, hosts')) :
    (cb.check hosts host now).1 = .ok () := by
  unfold CircuitHop.admitHop at h
  split at h
  next hcheck => rw [hcheck]
  next => simp at h

/-- Admission fails when the check does. -/
theorem CircuitHop.admitHop_error {cb : CircuitBreaker} {hosts hosts' : Hosts} {host : Str}
    {now : Instant} {err : ProxyError}
    (h : CircuitHop.admitHop cb hosts host now = (.error err, hosts')) :
    (cb.check hosts host now).1 = .error err := by
  unfold CircuitHop.admitHop at h
  split at h
  next => simp at h
  next hcheck =>
    rw [hcheck]
    simpa using (Prod.ext_iff.mp h).1

/-- A disabled breaker records no settlement. -/
theorem Settlement.apply_of_disabled {cb : CircuitBreaker} (hoff : cb.enabled = false)
    (how : Settlement) (f : InFlight) (hosts : Hosts) (now : Instant) :
    how.apply f.hop cb hosts now = hosts := by
  cases how with
  | success => rw [Settlement.apply, CircuitHop.success_eq, recordSuccess_of_disabled hoff]
  | failure => rw [Settlement.apply, CircuitHop.failure_eq, recordFailure_of_disabled hoff]
  | drop =>
    rw [Settlement.apply, CircuitHop.drop_of_unsettled rfl, recordFailure_of_disabled hoff]

/-- A settlement moves the circuit of its own host and then may evict. -/
theorem Settlement.entryOf_apply {cb : CircuitBreaker} (hon : cb.enabled = true)
    (how : Settlement) (f : InFlight) (hosts : Hosts) (now : Instant) (h : Str) :
    KeptOrEvicted now
      (if h = f.host then how.effect cb (entryOf hosts h) now else entryOf hosts h)
      (entryOf (how.apply f.hop cb hosts now) h) := by
  -- a success records exactly; a failure and a drop may evict as well
  cases how with
  | success =>
    left
    rw [Settlement.apply, CircuitHop.success_eq]
    exact entryOf_recordSuccess hon hosts f.host h
  | failure =>
    rw [Settlement.apply, CircuitHop.failure_eq]
    exact entryOf_recordFailure hon hosts f.host now h
  | drop =>
    rw [Settlement.apply, CircuitHop.drop_of_unsettled rfl]
    exact entryOf_recordFailure hon hosts f.host now h

namespace Step

variable {cb : CircuitBreaker} {w w' : World} {e : Event}

/-- A step is stamped no earlier than the one before it. -/
theorem clock_le (hstep : Step cb w e w') : w.clock ≤ e.time := by
  cases hstep with
  | admitted hclock => exact hclock
  | refused hclock => exact hclock
  | settled hclock => exact hclock

/-- The clock is the time stamp of the last step. -/
theorem clock_eq (hstep : Step cb w e w') : w'.clock = e.time := by
  cases hstep <;> rfl

/-- What a step does to the circuit of `h`: the transition of its operation, if that is on
`h`, and possibly the eviction of a circuit that is closed or past its cool-down. -/
theorem entryOf (hon : cb.enabled = true) (hstep : Step cb w e w') (h : Str) :
    KeptOrEvicted e.time (e.effect cb h (entryOf w.hosts h)) (entryOf w'.hosts h) := by
  cases hstep with
  -- admitted or refused, the circuit moves as in the check that decided
  | @admitted hosts _ f _ hperm _ hadmission =>
    have hcheck := entryOf_check hon hosts f.host f.admittedAt h
    rw [← CircuitHop.admitHop_snd, hadmission] at hcheck
    rw [entryOf_perm hperm]
    exact hcheck
  | @refused hosts _ host now _ _ hperm hadmission =>
    have hcheck := entryOf_check hon hosts host now h
    rw [← CircuitHop.admitHop_snd, hadmission] at hcheck
    rw [entryOf_perm hperm]
    exact hcheck
  -- a settlement is on the circuit of the host that the hop was admitted for
  | @settled hosts f how now _ hperm _ =>
    rw [entryOf_perm hperm]
    exact how.entryOf_apply hon f hosts now h

end Step

/-! ## Running the operations -/

/-- The operation may come next: it is not stamped before the clock, and it settles a hop
in flight. -/
def Event.Enabled (w : World) (e : Event) : Prop :=
  w.clock ≤ e.time ∧
    match e with
    | .admission _ _ => True
    | .settle f _ _ => f ∈ w.inFlight

instance (w : World) (e : Event) : Decidable (e.Enabled w) := by
  unfold Event.Enabled
  cases e <;> infer_instance

/-- Execute one operation on the map in the order it has. -/
def World.next (cb : CircuitBreaker) (w : World) (e : Event) : World :=
  match e with
  | .admission host now =>
    match CircuitHop.admitHop cb w.hosts host now with
    | (.ok _, hosts) =>
      { hosts
        inFlight :=
          -- whether it is a probe is decided by the state before
          { host, admittedAt := now, probe := isProbe w.hosts host now } :: w.inFlight
        clock := now }
    | (.error _, hosts) => { hosts, inFlight := w.inFlight, clock := now }
  | .settle f how now =>
    { hosts := how.apply f.hop cb w.hosts now, inFlight := w.inFlight.erase f, clock := now }

/-- Executing an enabled operation is a step. -/
theorem World.step_next {cb : CircuitBreaker} {w : World} {e : Event} (h : e.Enabled w) :
    Step cb w e (w.next cb e) := by
  obtain ⟨hclock, hmem⟩ := h
  cases e with
  | admission host now =>
    rw [World.next]
    split
    next hop hosts hadmission =>
      -- the guard that admission hands out is the fresh one of this host
      have hhop : hop = { host, settled := false } := by
        unfold CircuitHop.admitHop at hadmission
        split at hadmission
        · simp_all
        · simp at hadmission
      subst hhop
      exact Step.admitted
        (f := { host, admittedAt := now, probe := isProbe w.hosts host now })
        hclock (List.Perm.refl _) rfl hadmission
    next err hosts hadmission => exact Step.refused hclock (List.Perm.refl _) hadmission
  | settle f how now => exact Step.settled hclock (List.Perm.refl _) hmem

/-- Execute operations in order. -/
def World.exec (cb : CircuitBreaker) (w : World) : List Event → World
  | [] => w
  | e :: es => World.exec cb (w.next cb e) es

/-- Each operation is enabled where it is executed. -/
def World.AllEnabled (cb : CircuitBreaker) (w : World) : List Event → Prop
  | [] => True
  | e :: es => e.Enabled w ∧ World.AllEnabled cb (w.next cb e) es

instance World.decidableAllEnabled (cb : CircuitBreaker) (w : World) (es : List Event) :
    Decidable (World.AllEnabled cb w es) :=
  match es with
  | [] => inferInstanceAs (Decidable True)
  | e :: es =>
    have := World.decidableAllEnabled cb (w.next cb e) es
    inferInstanceAs (Decidable (_ ∧ _))

/-- Executing enabled operations is a run. -/
theorem World.run_exec {cb : CircuitBreaker} {w : World} {es : List Event}
    (h : World.AllEnabled cb w es) : Run (Step cb) w es (World.exec cb w es) := by
  induction es generalizing w with
  | nil => exact Run.nil w
  | cons e es ih => exact Run.cons (World.step_next h.1) (ih h.2)

end Corx
