import Mathlib.Data.UInt
import Corx.Base.CappedMap
import Corx.Config
import Corx.Error

/-!
# Per-host circuit breaker

The breaker keeps one `HostCircuit` per upstream host: closed, open until an instant, or
half-open with a number of probes admitted since an instant, and the time stamps of the
failures in its rolling window. The map of circuits is shared and mutable in the source; here
it is an explicit state `Hosts` that every operation takes and returns, next to the immutable
compiled parameters `CircuitBreaker`. `CircuitHop` is the guard that pairs each admission
with one settlement.

`entryOf` is the circuit an operation on a host starts from. The lemmas `entryOf_check`,
`entryOf_recordSuccess` and `entryOf_recordFailure` say what an operation can do to the
circuit of any host, its own transition and the eviction of other entries included; nothing
downstream unfolds the operations.
-/

namespace Corx

/-- The state of one host's circuit. -/
inductive CircuitState
  | closed
  | opened (openUntil : Instant)
  | halfOpen (probes : UInt32) (since : Instant)
  deriving DecidableEq, Repr

/-- One host's circuit; `failures` are the time stamps inside the rolling window, oldest
first. -/
structure HostCircuit where
  state : CircuitState
  failures : List Instant
  deriving DecidableEq, Repr

namespace HostCircuit

/-- A closed circuit without failures. -/
def new : HostCircuit where
  state := .closed
  failures := []

/-- Closed, and no failure on record. -/
def isIdleClosed (c : HostCircuit) : Bool :=
  c.state = .closed && c.failures.isEmpty

/-- Closed. -/
def isClosed (c : HostCircuit) : Bool :=
  c.state = .closed

/-- Open, with the cool-down over at `now`. -/
def isExpiredOpen (now : Instant) (c : HostCircuit) : Bool :=
  match c.state with
  | .opened openUntil => openUntil ≤ now
  | _ => false

/-- Half-open. -/
def isHalfOpen (c : HostCircuit) : Bool :=
  match c.state with
  | .halfOpen _ _ => true
  | _ => false

end HostCircuit

/-- The circuits by host. -/
abbrev Hosts := AList fun _ : Str => HostCircuit

/-- The compiled parameters of a breaker. The three clamped ones are positive. -/
structure CircuitBreaker where
  enabled : Bool
  failureThreshold : UInt32
  window : Duration
  openDuration : Duration
  halfOpenMax : UInt32
  count5xx : Bool
  maxHosts : ℕ
  one_le_failureThreshold : 1 ≤ failureThreshold
  one_le_halfOpenMax : 1 ≤ halfOpenMax
  one_le_maxHosts : 1 ≤ maxHosts

/-- The larger of two words is the larger of their values. -/
theorem toNat_max (a b : UInt32) : (max a b).toNat = max a.toNat b.toNat := by
  by_cases h : a ≤ b
  · rw [show max a b = b from if_pos h, Nat.max_eq_right (UInt32.le_iff_toNat_le.mp h)]
  · have hle : b.toNat ≤ a.toNat := Nat.le_of_not_le fun hab => h (UInt32.le_iff_toNat_le.mpr hab)
    rw [show max a b = a from if_neg h, Nat.max_eq_left hle]

/-- Clamping from below by one yields at least one. -/
theorem one_le_max_one (a : UInt32) : 1 ≤ max a 1 := by
  rw [UInt32.le_iff_toNat_le, toNat_max]
  exact Nat.le_max_right _ _

/-- `u32::saturating_add`. -/
def saturatingAdd (a b : UInt32) : UInt32 :=
  if a.toNat + b.toNat < UInt32.size then a + b else UInt32.ofNat (UInt32.size - 1)

/-- Below the largest value, adding one does not saturate. -/
theorem toNat_saturatingAdd_one {a b : UInt32} (h : a < b) :
    (saturatingAdd a 1).toNat = a.toNat + 1 := by
  have hlt : a.toNat < b.toNat := h
  have hb : b.toNat < UInt32.size := b.toNat_lt
  have hone : (1 : UInt32).toNat = 1 := rfl
  -- `a < b` leaves room for one more, since `b` is a word itself
  have hsum : a.toNat + (1 : UInt32).toNat < UInt32.size := by omega
  rw [saturatingAdd, if_pos hsum, UInt32.toNat_add, hone]
  exact Nat.mod_eq_of_lt (by simpa [hone] using hsum)

/-- What a check does to the circuit it finds: whether it is allowed, and the circuit it
leaves. -/
def transitionOnCheck (entry : HostCircuit) (now : Instant) (halfOpenMax : UInt32)
    (openDuration : Duration) : Bool × HostCircuit :=
  match entry.state with
  | .closed => (true, entry)
  | .opened openUntil =>
    -- the first check after the cool-down is itself the first probe
    if openUntil ≤ now then (true, { entry with state := .halfOpen 1 now })
    else (false, entry)
  | .halfOpen probes since =>
    if probes < halfOpenMax then
      (true, { entry with state := .halfOpen (saturatingAdd probes 1) since })
    -- the probe budget is spent: once the half-open window has elapsed a new one starts
    else if openDuration ≤ now - since then (true, { entry with state := .halfOpen 1 now })
    else (false, entry)

/-- What a failure does to the circuit it finds: whether it opens it, and the circuit it
leaves. -/
def recordFailureOn (entry : HostCircuit) (now : Instant) (window : Duration)
    (threshold : UInt32) (openDuration : Duration) : Bool × HostCircuit :=
  let failures := (entry.failures.filter fun t => now - t ≤ window) ++ [now]
  -- `u32::try_from(len).unwrap_or(u32::MAX)`
  let failureCount := min failures.length (UInt32.size - 1)
  let shouldOpen := entry.isHalfOpen || threshold.toNat ≤ failureCount
  if !shouldOpen then (false, { entry with failures := failures })
  else (true, { state := .opened (now + openDuration), failures := [] })

namespace CircuitBreaker

/-- Compile from configuration. -/
def fromConfig (cfg : CircuitBreakerConfig) : CircuitBreaker where
  enabled := cfg.enabled
  failureThreshold := max cfg.failureThreshold 1
  window := cfg.window
  openDuration := cfg.openDuration
  halfOpenMax := max cfg.halfOpenMax 1
  count5xx := cfg.count5xx
  maxHosts := max cfg.maxHosts 1
  one_le_failureThreshold := one_le_max_one _
  one_le_halfOpenMax := one_le_max_one _
  one_le_maxHosts := Nat.le_max_right _ _

/-- Drop entries that match `pred`, in map order, until the excess over `maxHosts` is gone. -/
def evictMatching (maxHosts : ℕ) (pred : HostCircuit → Bool) (hosts : Hosts) : Hosts :=
  let excess := hosts.entries.length - maxHosts
  if excess = 0 then hosts else hosts.dropMatching excess fun e => pred e.2

/-- Bring the map back to its capacity: idle closed circuits go first, then open circuits
whose cool-down is over, then closed circuits with failures on record. -/
def evictIfNeeded (cb : CircuitBreaker) (hosts : Hosts) (now : Instant) : Hosts :=
  if hosts.entries.length ≤ cb.maxHosts then hosts
  else
    -- each pass frees at most the excess over the capacity that is left
    let hosts := evictMatching cb.maxHosts HostCircuit.isIdleClosed hosts
    let hosts :=
      if cb.maxHosts < hosts.entries.length then
        evictMatching cb.maxHosts (HostCircuit.isExpiredOpen now) hosts
      else hosts
    if cb.maxHosts < hosts.entries.length then
      evictMatching cb.maxHosts HostCircuit.isClosed hosts
    else hosts

/-- The circuit of `host`, a new one where the map has none:
`entry(host).or_insert_with(HostCircuit::new)`. -/
def entryOf (hosts : Hosts) (host : Str) : HostCircuit :=
  (hosts.lookup host).getD HostCircuit.new

/-- Check whether a request to `host` may proceed. -/
def check (cb : CircuitBreaker) (hosts : Hosts) (host : Str) (now : Instant) :
    Except ProxyError Unit × Hosts :=
  if !cb.enabled then (.ok (), hosts)
  else
    let (allowed, entry) :=
      transitionOnCheck (entryOf hosts host) now cb.halfOpenMax cb.openDuration
    let hosts := hosts.insert host entry
    -- only an admission may have added a host, so only it evicts
    if allowed then (.ok (), cb.evictIfNeeded hosts now)
    else (.error (.circuitOpen host), hosts)

/-- Record a successful upstream response: a known host is reset to closed. -/
def recordSuccess (cb : CircuitBreaker) (hosts : Hosts) (host : Str) : Hosts :=
  if !cb.enabled then hosts
  else
    match hosts.lookup host with
    | some entry => hosts.insert host { entry with failures := [], state := .closed }
    -- a success of a host that was evicted leaves no trace
    | none => hosts

/-- Record a failure; the first component says whether it opened the circuit. -/
def recordFailure (cb : CircuitBreaker) (hosts : Hosts) (host : Str) (now : Instant) :
    Bool × Hosts :=
  if !cb.enabled then (false, hosts)
  else
    let (opened, entry) :=
      recordFailureOn (entryOf hosts host) now cb.window cb.failureThreshold cb.openDuration
    (opened, cb.evictIfNeeded (hosts.insert host entry) now)

end CircuitBreaker

/-- The guard of one admitted hop. -/
structure CircuitHop where
  host : Str
  settled : Bool
  deriving DecidableEq, Repr

namespace CircuitHop

/-- Admit `host` and return a guard that must be settled. -/
def admitHop (cb : CircuitBreaker) (hosts : Hosts) (host : Str) (now : Instant) :
    Except ProxyError CircuitHop × Hosts :=
  match cb.check hosts host now with
  | (.ok (), hosts) => (.ok { host, settled := false }, hosts)
  | (.error err, hosts) => (.error err, hosts)

/-- The destructor: an unsettled hop counts as a failure. -/
def drop (hop : CircuitHop) (cb : CircuitBreaker) (hosts : Hosts) (now : Instant) : Hosts :=
  if !hop.settled then (cb.recordFailure hosts hop.host now).2 else hosts

/-- Mark the hop successful; the destructor then runs on a settled hop. -/
def success (hop : CircuitHop) (cb : CircuitBreaker) (hosts : Hosts) (now : Instant) : Hosts :=
  drop { hop with settled := true } cb (cb.recordSuccess hosts hop.host) now

/-- Mark the hop failed; the destructor then runs on a settled hop. -/
def failure (hop : CircuitHop) (cb : CircuitBreaker) (hosts : Hosts) (now : Instant) : Hosts :=
  drop { hop with settled := true } cb (cb.recordFailure hosts hop.host now).2 now

end CircuitHop

/-! ## The clamped parameters -/

/-- The threshold is at least one, as a number. -/
theorem CircuitBreaker.one_le_toNat_failureThreshold (cb : CircuitBreaker) :
    1 ≤ cb.failureThreshold.toNat :=
  cb.one_le_failureThreshold

/-- The probe budget is at least one, as a number. -/
theorem CircuitBreaker.one_le_toNat_halfOpenMax (cb : CircuitBreaker) :
    1 ≤ cb.halfOpenMax.toNat :=
  cb.one_le_halfOpenMax

/-! ## What an operation does to the circuit of a host -/

namespace CircuitBreaker

/-- An entry that eviction leaves alone keeps its circuit, and one it removes was closed or
open with its cool-down over; a host without an entry starts from a new circuit. -/
def KeptOrEvicted (now : Instant) (before after : HostCircuit) : Prop :=
  after = before ∨
    after = HostCircuit.new ∧ (before.isClosed = true ∨ before.isExpiredOpen now = true)

/-- A circuit that is neither closed nor past its cool-down is kept. -/
theorem KeptOrEvicted.eq_of_protected {now : Instant} {before after : HostCircuit}
    (h : KeptOrEvicted now before after) (hclosed : before.isClosed = false)
    (hexpired : before.isExpiredOpen now = false) : after = before := by
  rcases h with h | ⟨-, hc | he⟩
  · exact h
  · exact absurd hc (by simp [hclosed])
  · exact absurd he (by simp [hexpired])

/-- One evicting pass keeps a circuit or removes one that matches. -/
theorem entryOf_evictMatching (maxHosts : ℕ) (pred : HostCircuit → Bool) (hosts : Hosts)
    (h : Str) :
    entryOf (evictMatching maxHosts pred hosts) h = entryOf hosts h ∨
      entryOf (evictMatching maxHosts pred hosts) h = HostCircuit.new ∧
        pred (entryOf hosts h) = true := by
  simp only [evictMatching]
  split
  · exact Or.inl rfl
  · rcases hosts.lookup_dropMatching (hosts.entries.length - maxHosts) (fun e => pred e.2) h with
      hkept | ⟨hgone, c, hc, hpred⟩
    · left
      rw [entryOf, hkept, entryOf]
    · right
      rw [entryOf, hgone, entryOf, hc]
      exact ⟨rfl, hpred⟩

/-- Eviction removes closed circuits and expired open ones only. -/
theorem entryOf_evictIfNeeded (cb : CircuitBreaker) (hosts : Hosts) (now : Instant) (h : Str) :
    KeptOrEvicted now (entryOf hosts h) (entryOf (cb.evictIfNeeded hosts now) h) := by
  -- a pass over closed or expired circuits, after any earlier such pass
  have pass : ∀ {before : HostCircuit} (pred : HostCircuit → Bool) (m : Hosts),
      (∀ c, pred c = true → c.isClosed = true ∨ c.isExpiredOpen now = true) →
      KeptOrEvicted now before (entryOf m h) →
      KeptOrEvicted now before (entryOf (evictMatching cb.maxHosts pred m) h) := by
    intro before pred m hpred hm
    rcases entryOf_evictMatching cb.maxHosts pred m h with hkept | ⟨hgone, hmatch⟩
    · rwa [hkept]
    · rcases hm with hsame | ⟨-, hevicted⟩
      · exact Or.inr ⟨hgone, hsame ▸ hpred _ hmatch⟩
      · exact Or.inr ⟨hgone, hevicted⟩
  have hidle : ∀ c : HostCircuit, c.isIdleClosed = true →
      c.isClosed = true ∨ c.isExpiredOpen now = true := by
    intro c hc
    left
    simp only [HostCircuit.isIdleClosed, Bool.and_eq_true] at hc
    exact hc.1
  -- the three passes, one after the other; each may be skipped
  have hstart : KeptOrEvicted now (entryOf hosts h) (entryOf hosts h) := Or.inl rfl
  have hfirst := pass HostCircuit.isIdleClosed hosts hidle hstart
  have hsecond := pass (HostCircuit.isExpiredOpen now) _ (fun _ hc => Or.inr hc) hfirst
  unfold evictIfNeeded
  split
  · exact hstart
  · dsimp only
    split
    · split
      · exact pass HostCircuit.isClosed _ (fun _ hc => Or.inl hc) hsecond
      · exact hsecond
    · exact hfirst

/-- Moving the circuit of a host moves that host only. -/
theorem entryOf_insert (hosts : Hosts) (host h : Str) (move : HostCircuit → HostCircuit) :
    entryOf (hosts.insert host (move (entryOf hosts host))) h =
      if h = host then move (entryOf hosts h) else entryOf hosts h := by
  -- the map answers for the inserted host, and for any other as before
  by_cases heq : h = host
  · subst heq
    simp [entryOf]
  · rw [if_neg heq, entryOf, AList.lookup_insert_ne heq, entryOf]

/-- The order of the map is invisible to its users. -/
theorem entryOf_perm {hosts hosts' : Hosts} (hperm : hosts.entries.Perm hosts'.entries)
    (h : Str) : entryOf hosts h = entryOf hosts' h := by
  unfold entryOf
  rw [AList.perm_lookup hperm]

/-- A disabled breaker admits everything and records nothing. -/
theorem check_of_disabled {cb : CircuitBreaker} (hoff : cb.enabled = false) (hosts : Hosts)
    (host : Str) (now : Instant) : cb.check hosts host now = (.ok (), hosts) := by
  simp [check, hoff]

/-- The verdict of a check is that of the transition of the host's circuit. -/
theorem check_fst {cb : CircuitBreaker} (hon : cb.enabled = true) (hosts : Hosts) (host : Str)
    (now : Instant) :
    (cb.check hosts host now).1 =
      if (transitionOnCheck (entryOf hosts host) now cb.halfOpenMax cb.openDuration).1 then
        .ok ()
      else .error (.circuitOpen host) := by
  simp only [check, hon, Bool.not_true, Bool.false_eq_true, ↓reduceIte]
  split <;> rfl

/-- A check moves the circuit of its own host by `transitionOnCheck` and then may evict. -/
theorem entryOf_check {cb : CircuitBreaker} (hon : cb.enabled = true) (hosts : Hosts)
    (host : Str) (now : Instant) (h : Str) :
    KeptOrEvicted now
      (if h = host then
        (transitionOnCheck (entryOf hosts h) now cb.halfOpenMax cb.openDuration).2
      else entryOf hosts h)
      (entryOf (cb.check hosts host now).2 h) := by
  -- read the moved circuit off the map before eviction
  rw [← entryOf_insert hosts host h fun c =>
    (transitionOnCheck c now cb.halfOpenMax cb.openDuration).2]
  simp only [check, hon, Bool.not_true, Bool.false_eq_true, ↓reduceIte]
  split
  · exact entryOf_evictIfNeeded cb _ now h
  · exact Or.inl rfl

/-- A success resets the circuit of its own host and touches no other. -/
theorem entryOf_recordSuccess {cb : CircuitBreaker} (hon : cb.enabled = true) (hosts : Hosts)
    (host h : Str) :
    entryOf (cb.recordSuccess hosts host) h =
      if h = host then HostCircuit.new else entryOf hosts h := by
  simp only [recordSuccess, hon, Bool.not_true, Bool.false_eq_true, ↓reduceIte]
  split
  next => exact entryOf_insert hosts host h fun _ => HostCircuit.new
  -- an unknown host counts as a new circuit, which is what a success would make of it
  next hnone =>
    by_cases heq : h = host
    · subst heq
      rw [if_pos rfl, entryOf, hnone]
      rfl
    · rw [if_neg heq]

/-- Whether a failure opens a circuit is decided by the circuit of its host. -/
theorem recordFailure_fst {cb : CircuitBreaker} (hon : cb.enabled = true) (hosts : Hosts)
    (host : Str) (now : Instant) :
    (cb.recordFailure hosts host now).1 =
      (recordFailureOn (entryOf hosts host) now cb.window cb.failureThreshold
        cb.openDuration).1 := by
  simp [recordFailure, hon]

/-- A failure moves the circuit of its own host by `recordFailureOn` and then may evict. -/
theorem entryOf_recordFailure {cb : CircuitBreaker} (hon : cb.enabled = true) (hosts : Hosts)
    (host : Str) (now : Instant) (h : Str) :
    KeptOrEvicted now
      (if h = host then
        (recordFailureOn (entryOf hosts h) now cb.window cb.failureThreshold
          cb.openDuration).2
      else entryOf hosts h)
      (entryOf (cb.recordFailure hosts host now).2 h) := by
  -- read the moved circuit off the map before eviction
  rw [← entryOf_insert hosts host h fun c =>
    (recordFailureOn c now cb.window cb.failureThreshold cb.openDuration).2]
  simp only [recordFailure, hon, Bool.not_true, Bool.false_eq_true, ↓reduceIte]
  exact entryOf_evictIfNeeded cb _ now h

/-- A disabled breaker records no failure. -/
theorem recordFailure_of_disabled {cb : CircuitBreaker} (hoff : cb.enabled = false)
    (hosts : Hosts) (host : Str) (now : Instant) :
    cb.recordFailure hosts host now = (false, hosts) := by
  simp [recordFailure, hoff]

/-- A disabled breaker records no success. -/
theorem recordSuccess_of_disabled {cb : CircuitBreaker} (hoff : cb.enabled = false)
    (hosts : Hosts) (host : Str) : cb.recordSuccess hosts host = hosts := by
  simp [recordSuccess, hoff]

end CircuitBreaker

namespace CircuitHop

/-- A successful settlement records one success and nothing else. -/
@[simp]
theorem success_eq (hop : CircuitHop) (cb : CircuitBreaker) (hosts : Hosts) (now : Instant) :
    hop.success cb hosts now = cb.recordSuccess hosts hop.host := by
  simp [success, drop]

/-- A failed settlement records one failure and nothing else. -/
@[simp]
theorem failure_eq (hop : CircuitHop) (cb : CircuitBreaker) (hosts : Hosts) (now : Instant) :
    hop.failure cb hosts now = (cb.recordFailure hosts hop.host now).2 := by
  simp [failure, drop]

/-- Dropping an unsettled hop records one failure. -/
theorem drop_of_unsettled {hop : CircuitHop} (h : hop.settled = false) (cb : CircuitBreaker)
    (hosts : Hosts) (now : Instant) :
    hop.drop cb hosts now = (cb.recordFailure hosts hop.host now).2 := by
  simp [drop, h]

end CircuitHop

end Corx
