import Mathlib.Data.Finset.Card
import Corx.Base.Run
import Corx.Base.SlidingWindow
import Corx.Policy.Circuit

/-!
# The breaker as a table of sliding windows

Calls of the breaker (`check`, `recordSuccess`, `recordFailure`) come from any requests, in
any order, on any hosts. `CallStep` is one call on the shared map. While the hosts that ever
appear fit into `maxHosts`, eviction never fires, and the map has the same runs as a
`Table`: a total function from hosts to circuits in which a call moves the circuit of its
own host and nothing else (`table_of_run`, `run_of_table`). The table is deterministic and
each of its circuits sees the calls of its own host only.

A circuit prunes its failures to the rolling window whenever it records one, and clears them
when it opens or a success resets it. The specification keeps `failuresSince`, every failure
of the host since its last success or opening, and counts those in the window. The two lists
cannot be told apart from the present on (`WindowInv`).
-/

namespace Corx

open CircuitBreaker SlidingWindow

/-- A call of the breaker by some request. -/
inductive BreakerCall
  | check (host : Str) (now : Instant)
  | recordSuccess (host : Str) (now : Instant)
  | recordFailure (host : Str) (now : Instant)
  deriving DecidableEq, Repr

/-- What a call tells its caller, and for a failure whether it opened the circuit. -/
inductive BreakerReply
  | verdict (result : Except ProxyError Unit)
  | recorded
  | opened (yes : Bool)

namespace BreakerCall

/-- The host a call is about. -/
def host : BreakerCall → Str
  | check host _ => host
  | recordSuccess host _ => host
  | recordFailure host _ => host

/-- The time stamp of a call. -/
def time : BreakerCall → Instant
  | check _ now => now
  | recordSuccess _ now => now
  | recordFailure _ now => now

/-- Execute a call on the map. -/
def perform (cb : CircuitBreaker) (hosts : Hosts) : BreakerCall → BreakerReply × Hosts
  | check host now =>
    let (result, hosts) := cb.check hosts host now
    (.verdict result, hosts)
  | recordSuccess host _ => (.recorded, cb.recordSuccess hosts host)
  | recordFailure host now =>
    let (yes, hosts) := cb.recordFailure hosts host now
    (.opened yes, hosts)

/-- Execute a call on the circuit of its host. -/
def move (cb : CircuitBreaker) (c : HostCircuit) : BreakerCall → BreakerReply × HostCircuit
  | check host now =>
    if cb.enabled then
      let (allowed, c) := transitionOnCheck c now cb.halfOpenMax cb.openDuration
      (.verdict (if allowed then .ok () else .error (.circuitOpen host)), c)
    else (.verdict (.ok ()), c)
  -- a success forgets everything, the failures and the state
  | recordSuccess _ _ => (.recorded, if cb.enabled then HostCircuit.new else c)
  | recordFailure _ now =>
    if cb.enabled then
      let (yes, c) := recordFailureOn c now cb.window cb.failureThreshold cb.openDuration
      (.opened yes, c)
    else (.opened false, c)

end BreakerCall

/-- A call together with its reply. -/
abbrev Exchanged := BreakerCall × BreakerReply

/-! ## The map and the table -/

/-- The shared map and the time of the last call. -/
structure Shared where
  hosts : Hosts
  clock : Instant

/-- No circuit yet. -/
def Shared.init : Shared where
  hosts := ∅
  clock := 0

/-- One call on the shared map, in whatever order the call meets its entries. -/
inductive CallStep (cb : CircuitBreaker) : Shared → Exchanged → Shared → Prop
  | mk {s : Shared} {hosts : Hosts} {call : BreakerCall} (hclock : s.clock ≤ call.time)
      (hperm : s.hosts.entries.Perm hosts.entries) :
      CallStep cb s (call, (call.perform cb hosts).1)
        { hosts := (call.perform cb hosts).2, clock := call.time }

/-- A circuit for every host, and the time of the last call. -/
structure Table where
  circuits : Str → HostCircuit
  clock : Instant

/-- Every circuit is new. -/
def Table.init : Table where
  circuits := fun _ => HostCircuit.new
  clock := 0

/-- What a call makes of a table. -/
def Table.next (cb : CircuitBreaker) (t : Table) (call : BreakerCall) : Table where
  circuits :=
    Function.update t.circuits call.host (call.move cb (t.circuits call.host)).2
  clock := call.time

/-- One call on a table. -/
structure TableStep (cb : CircuitBreaker) (t : Table) (e : Exchanged) (t' : Table) : Prop where
  clock_le : t.clock ≤ e.1.time
  reply_eq : e.2 = (e.1.move cb (t.circuits e.1.host)).1
  next_eq : t' = t.next cb e.1

/-- The table that a map stands for. -/
def Shared.table (s : Shared) : Table where
  circuits := entryOf s.hosts
  clock := s.clock

variable {cb : CircuitBreaker} {h : Str} {es es' : List Exchanged}

/-- Nothing is evicted from a map within capacity. -/
theorem evictIfNeeded_of_le {hosts : Hosts} (hle : hosts.entries.length ≤ cb.maxHosts)
    (now : Instant) : cb.evictIfNeeded hosts now = hosts := by
  rw [evictIfNeeded, if_pos hle]

/-- A map whose keys lie in a small set is within capacity. -/
theorem entries_length_le {hosts : Hosts} {known : Finset Str}
    (hknown : ∀ k ∈ hosts.keys, k ∈ known) (hcap : known.card ≤ cb.maxHosts) :
    hosts.entries.length ≤ cb.maxHosts := by
  have hsub : hosts.keys.toFinset ⊆ known := fun k hk => hknown k (List.mem_toFinset.mp hk)
  have hlen : hosts.entries.length = hosts.keys.toFinset.card := by
    rw [List.toFinset_card_of_nodup hosts.keys_nodup, AList.keys, List.keys, List.length_map]
  exact hlen ▸ (Finset.card_le_card hsub).trans hcap

/-- Inserting a known host keeps the keys known. -/
theorem keys_insert_known {hosts : Hosts} {known : Finset Str} {host : Str}
    (hknown : ∀ k ∈ hosts.keys, k ∈ known) (hhost : host ∈ known) (c : HostCircuit) :
    ∀ k ∈ (hosts.insert host c).keys, k ∈ known := by
  intro k hk
  rcases (AList.mem_insert _).mp (AList.mem_keys.mpr hk) with rfl | hk
  · exact hhost
  · exact hknown k (AList.mem_keys.mp hk)

/-- Inserting a host replaces its circuit. -/
theorem entryOf_insert_eq_update (hosts : Hosts) (host : Str) (c : HostCircuit) :
    entryOf (hosts.insert host c) = Function.update (entryOf hosts) host c := by
  funext k
  rw [entryOf_insert hosts host k fun _ => c, Function.update_apply]

/-- A call on the map replies as the circuit of its host does. -/
theorem perform_fst (hosts : Hosts) (call : BreakerCall) :
    (call.perform cb hosts).1 = (call.move cb (entryOf hosts call.host)).1 := by
  by_cases hon : cb.enabled = true
  · cases call with
    | check host now =>
      simp only [BreakerCall.perform, BreakerCall.move, BreakerCall.host, hon, ↓reduceIte]
      exact congrArg BreakerReply.verdict (check_fst hon hosts host now)
    | recordSuccess host now => rfl
    | recordFailure host now =>
      simp only [BreakerCall.perform, BreakerCall.move, BreakerCall.host, hon, ↓reduceIte]
      exact congrArg BreakerReply.opened (recordFailure_fst hon hosts host now)
  · have hoff : cb.enabled = false := eq_false_of_ne_true hon
    cases call with
    | check host now => simp [BreakerCall.perform, BreakerCall.move, check_of_disabled hoff, hoff]
    | recordSuccess host now => rfl
    | recordFailure host now =>
      simp [BreakerCall.perform, BreakerCall.move, recordFailure_of_disabled hoff, hoff]

/-- Within capacity a call leaves the map as it was, or with the moved circuit of its host. -/
theorem perform_snd {hosts : Hosts} {known : Finset Str} (call : BreakerCall)
    (hknown : ∀ k ∈ hosts.keys, k ∈ known) (hhost : call.host ∈ known)
    (hcap : known.card ≤ cb.maxHosts) :
    (call.perform cb hosts).2 =
        hosts.insert call.host (call.move cb (entryOf hosts call.host)).2 ∨
      (call.perform cb hosts).2 = hosts ∧
        (call.move cb (entryOf hosts call.host)).2 = entryOf hosts call.host := by
  -- inserting a known host stays within capacity, so eviction has nothing to do
  have hkeep : ∀ c now, cb.evictIfNeeded (hosts.insert call.host c) now =
      hosts.insert call.host c := fun c now =>
    evictIfNeeded_of_le (entries_length_le (keys_insert_known hknown hhost c) hcap) now
  by_cases hon : cb.enabled = true
  · cases call with
    | check host now =>
      left
      simp only [BreakerCall.perform, BreakerCall.move, BreakerCall.host, check, hon,
        Bool.not_true, Bool.false_eq_true, ↓reduceIte]
      split
      · exact hkeep _ now
      · rfl
    | recordSuccess host now =>
      simp only [BreakerCall.perform, BreakerCall.move, BreakerCall.host, recordSuccess, hon,
        Bool.not_true, Bool.false_eq_true, ↓reduceIte]
      split
      next => exact Or.inl rfl
      -- an unknown host is not inserted, and its new circuit would not change either
      next hnone => exact Or.inr ⟨rfl, by rw [entryOf, hnone]; rfl⟩
    | recordFailure host now =>
      left
      simp only [BreakerCall.perform, BreakerCall.move, BreakerCall.host, recordFailure, hon,
        Bool.not_true, Bool.false_eq_true, ↓reduceIte]
      exact hkeep _ now
  · right
    have hoff : cb.enabled = false := eq_false_of_ne_true hon
    cases call with
    | check host now => simp [BreakerCall.perform, BreakerCall.move, check_of_disabled hoff, hoff]
    | recordSuccess host now =>
      simp [BreakerCall.perform, BreakerCall.move, recordSuccess_of_disabled hoff, hoff]
    | recordFailure host now =>
      simp [BreakerCall.perform, BreakerCall.move, recordFailure_of_disabled hoff, hoff]

/-- Within capacity a call moves the circuit of its own host and adds at most that host. -/
theorem perform_spec {hosts : Hosts} {known : Finset Str} (call : BreakerCall)
    (hknown : ∀ k ∈ hosts.keys, k ∈ known) (hhost : call.host ∈ known)
    (hcap : known.card ≤ cb.maxHosts) :
    entryOf (call.perform cb hosts).2 =
        Function.update (entryOf hosts) call.host (call.move cb (entryOf hosts call.host)).2 ∧
      ∀ k ∈ (call.perform cb hosts).2.keys, k ∈ known := by
  rcases perform_snd call hknown hhost hcap with hmoved | ⟨hsame, hstay⟩
  · rw [hmoved]
    exact ⟨entryOf_insert_eq_update _ _ _, keys_insert_known hknown hhost _⟩
  · rw [hsame, hstay, Function.update_eq_self]
    exact ⟨rfl, hknown⟩

/-- The hosts that the calls of a run are about. -/
def hostsOf (es : List Exchanged) : Finset Str :=
  (es.map fun e => e.1.host).toFinset

/-- The host of a call of the run is one of its hosts. -/
theorem mem_hostsOf {e : Exchanged} (he : e ∈ es) : e.1.host ∈ hostsOf es :=
  List.mem_toFinset.mpr (List.mem_map_of_mem he)

/-- Fewer calls are about fewer hosts. -/
theorem hostsOf_subset (hsub : es ⊆ es') : hostsOf es ⊆ hostsOf es' := by
  intro k hk
  obtain ⟨e, he, rfl⟩ := List.mem_map.mp (List.mem_toFinset.mp hk)
  exact mem_hostsOf (hsub he)

/-- Within capacity a call on the map is a call on the table. -/
theorem CallStep.table {s s' : Shared} {e : Exchanged} {known : Finset Str}
    (hstep : CallStep cb s e s') (hknown : ∀ k ∈ s.hosts.keys, k ∈ known)
    (hhost : e.1.host ∈ known) (hcap : known.card ≤ cb.maxHosts) :
    TableStep cb s.table e s'.table ∧ ∀ k ∈ s'.hosts.keys, k ∈ known := by
  -- the call meets the map in some other order, which the lookups cannot see
  cases hstep with | @mk hosts call hclock hperm => ?_
  have hentry : entryOf s.hosts = entryOf hosts := funext fun k => entryOf_perm hperm k
  have hknown' : ∀ k ∈ hosts.keys, k ∈ known := fun k hk =>
    hknown k ((hperm.map Sigma.fst).mem_iff.mpr hk)
  obtain ⟨hmoved, hkeys⟩ := perform_spec call hknown' hhost hcap
  refine ⟨?_, hkeys⟩
  constructor
  · exact hclock
  · rw [perform_fst, ← hentry]
    rfl
  · simp only [Shared.table, Table.next, hentry, hmoved]

/-- Within capacity a run of the map is a run of the table. -/
theorem table_of_run {s : Shared} (hrun : Run (CallStep cb) Shared.init es s)
    (hcap : (hostsOf es).card ≤ cb.maxHosts) : Run (TableStep cb) Table.init es s.table := by
  -- the induction needs all hosts of the run to be known from the start, seen or not
  suffices hgen : ∀ s₀ es s, Run (CallStep cb) s₀ es s →
      ∀ known : Finset Str, known.card ≤ cb.maxHosts → (∀ k ∈ s₀.hosts.keys, k ∈ known) →
        (∀ e ∈ es, e.1.host ∈ known) → Run (TableStep cb) s₀.table es s.table from
    hgen _ _ _ hrun (hostsOf es) hcap (by simp [Shared.init]) fun _ he => mem_hostsOf he
  intro s₀ es s hrun known hcap
  induction hrun with
  | nil s => exact fun _ _ => Run.nil _
  | @cons s s' t e es hstep _ ih =>
    intro hknown hhosts
    obtain ⟨htable, hknown'⟩ := hstep.table hknown (hhosts e List.mem_cons_self) hcap
    exact Run.cons htable (ih hknown' fun e' he' => hhosts e' (List.mem_cons_of_mem _ he'))

/-- Within capacity a run of the table is a run of the map. -/
theorem run_of_table {t : Table} (hrun : Run (TableStep cb) Table.init es t)
    (hcap : (hostsOf es).card ≤ cb.maxHosts) :
    ∃ s, Run (CallStep cb) Shared.init es s ∧ s.table = t := by
  suffices hgen : ∀ t₀ es t, Run (TableStep cb) t₀ es t →
      ∀ known : Finset Str, known.card ≤ cb.maxHosts → (∀ e ∈ es, e.1.host ∈ known) →
        ∀ s₀ : Shared, s₀.table = t₀ → (∀ k ∈ s₀.hosts.keys, k ∈ known) →
          ∃ s, Run (CallStep cb) s₀ es s ∧ s.table = t from
    hgen _ _ _ hrun (hostsOf es) hcap (fun _ he => mem_hostsOf he) Shared.init rfl
      (by simp [Shared.init])
  intro t₀ es t hrun known hcap
  induction hrun with
  | nil t => exact fun _ s₀ hs₀ _ => ⟨s₀, Run.nil _, hs₀⟩
  | @cons t₁ t₂ t₃ e es hstep _ ih =>
    intro hhosts s₀ hs₀ hknown
    obtain ⟨call, reply⟩ := e
    obtain ⟨hclock, hreply, rfl⟩ := hstep
    dsimp only at hclock hreply
    subst hs₀ hreply
    -- make the same call on the map; by `perform_fst` it gets the same reply
    have hcall : CallStep cb s₀ (call, (call.perform cb s₀.hosts).1)
        { hosts := (call.perform cb s₀.hosts).2, clock := call.time } :=
      CallStep.mk hclock (List.Perm.refl _)
    obtain ⟨hmoved, hkeys⟩ := perform_spec call hknown
      (hhosts _ List.mem_cons_self) hcap
    obtain ⟨s, hs, ht⟩ := ih (fun e' he' => hhosts e' (List.mem_cons_of_mem _ he'))
      { hosts := (call.perform cb s₀.hosts).2, clock := call.time }
      (by simp only [Shared.table, Table.next, hmoved]) hkeys
    refine ⟨s, Run.cons ?_ hs, ht⟩
    rw [perform_fst] at hcall
    exact hcall

/-! ## One host's view of the table -/

/-- The table is deterministic: the same calls get the same replies and end the same. -/
theorem table_deterministic {t₀ t t' : Table} (hrun : Run (TableStep cb) t₀ es t)
    (hrun' : Run (TableStep cb) t₀ es' t') (hcalls : es'.map Prod.fst = es.map Prod.fst) :
    es' = es ∧ t' = t := by
  induction hrun generalizing es' with
  | nil t =>
    have hnil : es' = [] := by simpa using hcalls
    subst hnil
    exact ⟨rfl, hrun'.eq_of_nil.symm⟩
  | @cons t₁ t₂ t₃ e es hstep _ ih =>
    cases hrun' with
    | nil => simp at hcalls
    | @cons _ t₂' _ e' es' hstep' hrest' =>
      obtain ⟨hhead, htail⟩ := List.cons_eq_cons.mp hcalls
      -- the first calls are equal, so are their replies and the tables they leave
      have hnext : t₂' = t₂ := by rw [hstep.next_eq, hstep'.next_eq, hhead]
      have hreply : e'.2 = e.2 := by rw [hstep.reply_eq, hstep'.reply_eq, hhead]
      subst hnext
      obtain ⟨rfl, rfl⟩ := ih hrest' htail
      exact ⟨congrArg (· :: es') (Prod.ext hhead hreply), rfl⟩

/-- The calls on `h`. -/
def callsOn (h : Str) (es : List Exchanged) : List Exchanged :=
  es.filter fun e => e.1.host = h

/-- The calls on `h` alone, with the replies they got among all the others, are a run of the
table that leaves the circuit of `h` the same. -/
theorem run_callsOn {t : Table} (hrun : Run (TableStep cb) Table.init es t) :
    ∃ t', Run (TableStep cb) Table.init (callsOn h es) t' ∧ t'.clock ≤ t.clock ∧
      t'.circuits h = t.circuits h := by
  refine hrun.history_invariant (P := fun es t => ∃ t',
    Run (TableStep cb) Table.init (callsOn h es) t' ∧ t'.clock ≤ t.clock ∧
      t'.circuits h = t.circuits h) ?_ ⟨Table.init, Run.nil _, le_refl _, rfl⟩
  -- a call on `h` is made on both tables, a call on another host on the full one only
  rintro es t e t₂ ⟨t', hrun', hle, hsame⟩ ⟨hclock, hreply, rfl⟩
  by_cases hhost : e.1.host = h
  · subst hhost
    refine ⟨t'.next cb e.1, ?_, le_refl _, by simp [Table.next, hsame]⟩
    rw [callsOn, List.filter_append, List.filter_cons_of_pos (by simp)]
    exact hrun'.snoc ⟨hle.trans hclock, hsame ▸ hreply, rfl⟩
  · refine ⟨t', ?_, hle.trans hclock, ?_⟩
    · rw [callsOn, List.filter_append, List.filter_cons_of_neg (by simpa using hhost),
        List.filter_nil, List.append_nil]
      exact hrun'
    · rw [hsame]
      exact (Function.update_of_ne (Ne.symm hhost) _ _).symm

/-! ## The window -/

/-- What a call with its reply does to the log of failures of its host. -/
def logFailure (log : List Instant) : Exchanged → List Instant
  | (.recordSuccess _ _, _) => []
  | (.recordFailure _ now, .opened yes) => if yes then [] else log ++ [now]
  | _ => log

/-- The failures of `h` since its last success or opening, oldest first. -/
def failuresSince (h : Str) (es : List Exchanged) : List Instant :=
  (callsOn h es).foldl logFailure []

/-- The circuit of `h` stores fewer failures than open it, and while the breaker is enabled
they are, as far as any count from now on can tell, the failures since the last success or
opening. -/
structure WindowInv (cb : CircuitBreaker) (h : Str) (es : List Exchanged) (t : Table) :
    Prop where
  few : (t.circuits h).failures.length < cb.failureThreshold.toNat
  same : cb.enabled = true →
    SameFrom cb.window t.clock (t.circuits h).failures (failuresSince h es)

/-- The failures a circuit keeps are the recent ones. -/
theorem pruned_eq_recent (window now : ℕ) (l : List Instant) :
    (l.filter fun t => now - t ≤ window) = recent window now l := by
  refine List.filter_congr fun t _ => ?_
  simp only [decide_eq_decide]
  exact Nat.sub_le_iff_le_add'

/-- A failure opens a circuit exactly when it is half-open, or the failures in the window,
this one included, reach the threshold. -/
theorem recordFailureOn_fst (c : HostCircuit) (now : Instant) (window : Duration)
    (threshold : UInt32) (openDuration : Duration) :
    (recordFailureOn c now window threshold openDuration).1 = true ↔
      c.isHalfOpen = true ∨
        threshold.toNat ≤ (recent window now c.failures ++ [now]).length := by
  have hlt : threshold.toNat < UInt32.size := threshold.toNat_lt
  -- the count is clamped to the largest word, which no threshold exceeds
  have hclamp : ∀ n : ℕ, threshold.toNat ≤ min n (UInt32.size - 1) ↔ threshold.toNat ≤ n := by
    intro n
    rw [Nat.le_min]
    exact and_iff_left (Nat.le_sub_one_of_lt hlt)
  have hopens : (recordFailureOn c now window threshold openDuration).1 =
      (c.isHalfOpen || decide (threshold.toNat ≤
        min (recent window now c.failures ++ [now]).length (UInt32.size - 1))) := by
    simp only [recordFailureOn, pruned_eq_recent]
    split
    next hstay => exact (Bool.not_eq_true' _ ▸ hstay).symm
    next hopen => exact (by simpa only [Bool.not_eq_true', Bool.not_eq_false] using hopen :
        (_ : Bool) = true).symm
  rw [hopens, Bool.or_eq_true, decide_eq_true_iff, hclamp]

/-- A failure that opens a circuit clears its failures, another is recorded after pruning. -/
theorem recordFailureOn_snd (c : HostCircuit) (now : Instant) (window : Duration)
    (threshold : UInt32) (openDuration : Duration) :
    (recordFailureOn c now window threshold openDuration).2 =
      if (recordFailureOn c now window threshold openDuration).1 then
        { state := .opened (now + openDuration), failures := [] }
      else { c with failures := recent window now c.failures ++ [now] } := by
  simp only [recordFailureOn, pruned_eq_recent]
  split <;> rfl

/-- A check leaves the failures alone. -/
theorem transitionOnCheck_failures (c : HostCircuit) (now : Instant) (halfOpenMax : UInt32)
    (openDuration : Duration) :
    (transitionOnCheck c now halfOpenMax openDuration).2.failures = c.failures := by
  unfold transitionOnCheck
  split
  · rfl
  · split <;> rfl
  · split
    · rfl
    · split <;> rfl

/-- The log of a host grows by the calls on it. -/
theorem failuresSince_snoc (h : Str) (es : List Exchanged) (e : Exchanged) :
    failuresSince h (es ++ [e]) =
      if e.1.host = h then logFailure (failuresSince h es) e else failuresSince h es := by
  unfold failuresSince callsOn
  by_cases hhost : e.1.host = h <;> simp [hhost]

/-- A call keeps the invariant. -/
theorem WindowInv.step {t t' : Table} {e : Exchanged} (hinv : WindowInv cb h es t)
    (hstep : TableStep cb t e t') : WindowInv cb h (es ++ [e]) t' := by
  obtain ⟨call, reply⟩ := e
  obtain ⟨hclock, hreply, rfl⟩ := hstep
  dsimp only at hclock hreply
  subst hreply
  by_cases hhost : call.host = h
  · subst hhost
    have hmoved : (t.next cb call).circuits call.host =
        (call.move cb (t.circuits call.host)).2 := by simp [Table.next]
    -- what cannot be told apart from the last call on cannot from this one on
    by_cases hon : cb.enabled = true
    · have hsame := (hinv.same hon).mono hclock
      constructor
      · rw [hmoved]
        cases call with
        | check host now =>
          simp only [BreakerCall.move, hon, ↓reduceIte, transitionOnCheck_failures]
          exact hinv.few
        | recordSuccess host now =>
          simp only [BreakerCall.move, hon, ↓reduceIte]
          exact cb.one_le_toNat_failureThreshold
        | recordFailure host now =>
          simp only [BreakerCall.move, hon, ↓reduceIte, recordFailureOn_snd]
          split
          next => exact cb.one_le_toNat_failureThreshold
          next hstay =>
            -- the failure did not open the circuit, so the window is still below the threshold
            rw [recordFailureOn_fst, not_or] at hstay
            exact Nat.lt_of_not_le hstay.2
      · intro _
        rw [hmoved, failuresSince_snoc, if_pos rfl]
        cases call with
        | check host now =>
          simp only [BreakerCall.move, hon, ↓reduceIte, transitionOnCheck_failures]
          exact hsame
        | recordSuccess host now =>
          simp only [BreakerCall.move, hon, ↓reduceIte]
          exact SameFrom.refl []
        | recordFailure host now =>
          simp only [BreakerCall.move, hon, ↓reduceIte, recordFailureOn_snd, logFailure]
          split
          next => exact SameFrom.refl []
          -- pruning drops failures that no later count can see
          next => exact (sameFrom_recent.trans hsame).append [now]
    · have hstay : (call.move cb (t.circuits call.host)).2 = t.circuits call.host := by
        cases call <;> simp [BreakerCall.move, hon]
      exact ⟨by rw [hmoved, hstay]; exact hinv.few, fun h => absurd h hon⟩
  · have hother : (t.next cb call).circuits h = t.circuits h :=
      Function.update_of_ne (Ne.symm hhost) _ _
    constructor
    · rw [hother]
      exact hinv.few
    · intro hon
      rw [hother, failuresSince_snoc, if_neg hhost]
      exact (hinv.same hon).mono hclock

/-- Every run of the table keeps the invariant. -/
theorem WindowInv.of_run {t : Table} (hrun : Run (TableStep cb) Table.init es t) :
    WindowInv cb h es t :=
  hrun.history_invariant (P := fun es t => WindowInv cb h es t)
    (fun _ _ _ _ hinv hstep => hinv.step hstep)
    ⟨cb.one_le_toNat_failureThreshold, fun _ => SameFrom.refl []⟩

/-- When a failure opens the circuit of its host, and what it leaves. -/
theorem TableStep.opens_iff {t t' : Table} {now : Instant} {yes : Bool}
    (hstep : TableStep cb t (.recordFailure h now, .opened yes) t')
    (hinv : WindowInv cb h es t) :
    (yes = true ↔ cb.enabled = true ∧ ((t.circuits h).isHalfOpen = true ∨
        cb.failureThreshold.toNat ≤
          (recent cb.window now (failuresSince h es ++ [now])).length)) ∧
      (t'.circuits h).state =
        if yes then .opened (now + cb.openDuration) else (t.circuits h).state := by
  obtain ⟨hclock, hreply, rfl⟩ := hstep
  have hmoved : ((t.next cb (.recordFailure h now)).circuits h) =
      ((BreakerCall.recordFailure h now).move cb (t.circuits h)).2 := by
    simp [Table.next, BreakerCall.host]
  rw [hmoved]
  by_cases hon : cb.enabled = true
  · simp only [BreakerCall.move, BreakerCall.host, hon, ↓reduceIte,
      BreakerReply.opened.injEq] at hreply ⊢
    have hnow : recent cb.window now [now] = [now] := by simp [recent]
    -- the stored failures and the logged ones have the same recent part
    have hsame := hinv.same hon now hclock
    subst hreply
    constructor
    · rw [recordFailureOn_fst, recent_append, hnow, hsame]
      exact (and_iff_right trivial).symm
    · rw [recordFailureOn_snd]
      split <;> rfl
  · simp only [BreakerCall.move, BreakerCall.host, hon, Bool.false_eq_true, ↓reduceIte,
      BreakerReply.opened.injEq] at hreply ⊢
    subst hreply
    simp

/-! ## The specification -/

/-- The calls `es` treat host `h` as a sliding window of failures does. -/
structure RefinesWindow (cfg : CircuitBreakerConfig) (h : Str) (es : List Exchanged) :
    Prop where
  /-- The calls on `h` can be made alone, and then they get the replies they got in `es`. -/
  projects :
    (∃ s, Run (CallStep (fromConfig cfg)) Shared.init (callsOn h es) s) ∧
      ∀ es' s, Run (CallStep (fromConfig cfg)) Shared.init es' s →
        es'.map Prod.fst = (callsOn h es).map Prod.fst → es' = callsOn h es
  /-- A failure opens the circuit exactly when the breaker is enabled and the circuit is
  half-open or the failures in the window reach the threshold. -/
  opens_iff : ∀ past now yes rest s s',
    es = past ++ (.recordFailure h now, .opened yes) :: rest →
    Run (CallStep (fromConfig cfg)) Shared.init past s →
    CallStep (fromConfig cfg) s (.recordFailure h now, .opened yes) s' →
      (yes = true ↔ cfg.enabled = true ∧ ((entryOf s.hosts h).isHalfOpen = true ∨
        max cfg.failureThreshold.toNat 1 ≤
          (recent cfg.window now (failuresSince h past ++ [now])).length)) ∧
      (entryOf s'.hosts h).state =
        if yes then .opened (now + cfg.openDuration) else (entryOf s.hosts h).state
  /-- After every call fewer failures are stored than the threshold. -/
  few : ∀ past rest s, es = past ++ rest →
    Run (CallStep (fromConfig cfg)) Shared.init past s →
      (entryOf s.hosts h).failures.length < max cfg.failureThreshold.toNat 1

/-- As long as at most `maxHosts` hosts appear, every run of calls treats each host as a
sliding window of failures does. -/
theorem breaker_refines_window (cfg : CircuitBreakerConfig) (h : Str) {es : List Exchanged}
    {s : Shared} (hrun : Run (CallStep (fromConfig cfg)) Shared.init es s)
    (hcap : (hostsOf es).card ≤ cfg.maxHosts) : RefinesWindow cfg h es := by
  have hcap' : ∀ {past}, past ⊆ es → (hostsOf past).card ≤ (fromConfig cfg).maxHosts :=
    fun hsub => ((Finset.card_le_card (hostsOf_subset hsub)).trans hcap).trans (Nat.le_max_left _ _)
  have hthreshold : (fromConfig cfg).failureThreshold.toNat =
      max cfg.failureThreshold.toNat 1 := toNat_max _ _
  refine ⟨?_, ?_, ?_⟩
  -- the calls on `h` alone: project to the table, then back to a map
  · have hsub : callsOn h es ⊆ es := List.filter_subset_self _
    obtain ⟨t, ht, -⟩ := run_callsOn (h := h) (table_of_run hrun (hcap' (List.Subset.refl es)))
    obtain ⟨s', hs', -⟩ := run_of_table ht (hcap' hsub)
    refine ⟨⟨s', hs'⟩, fun es' s'' hrun' hcalls => ?_⟩
    -- the same calls are about the same hosts, so they fit as well
    have hhosts : hostsOf es' = hostsOf (callsOn h es) := by
      have := congrArg (List.map BreakerCall.host) hcalls
      simp only [List.map_map] at this
      exact congrArg List.toFinset this
    have htable := table_of_run hrun' (hhosts ▸ hcap' hsub)
    exact (table_deterministic ht htable hcalls).1
  · rintro past now yes rest s s' rfl hpast hstep
    have hsub : past ⊆ past ++ (.recordFailure h now, .opened yes) :: rest :=
      List.subset_append_left _ _
    have hsub' : past ++ [(.recordFailure h now, .opened yes)] ⊆
        past ++ (.recordFailure h now, .opened yes) :: rest := by
      rw [List.append_cons past _ rest]
      exact List.subset_append_left _ _
    -- the run so far and the run with this call, on one deterministic table
    have htable := table_of_run hpast (hcap' hsub)
    obtain ⟨t, ht, htstep⟩ := (table_of_run (hpast.snoc hstep) (hcap' hsub')).of_snoc
    obtain ⟨-, rfl⟩ := table_deterministic htable ht rfl
    exact hthreshold ▸ htstep.opens_iff (WindowInv.of_run htable)
  · rintro past rest s rfl hpast
    have htable := table_of_run hpast (hcap' (List.subset_append_left _ _))
    exact hthreshold ▸ (WindowInv.of_run (h := h) htable).few

/-! ## Making calls -/

/-- Make calls in order on the map in the order it has: the calls with their replies, and
the map they leave. -/
def Shared.exec (cb : CircuitBreaker) (s : Shared) : List BreakerCall → List Exchanged × Shared
  | [] => ([], s)
  | call :: calls =>
    let (reply, hosts) := call.perform cb s.hosts
    let (es, s') := Shared.exec cb { hosts, clock := call.time } calls
    ((call, reply) :: es, s')

/-- Calls whose time stamps do not decrease are a run. -/
theorem Shared.run_exec {s : Shared} {calls : List BreakerCall}
    (hsorted : List.IsChain (· ≤ ·) (s.clock :: calls.map BreakerCall.time)) :
    Run (CallStep cb) s (s.exec cb calls).1 (s.exec cb calls).2 := by
  induction calls generalizing s with
  | nil => exact Run.nil s
  | cons call calls ih =>
    obtain ⟨hclock, hrest⟩ := List.isChain_cons_cons.mp hsorted
    exact Run.cons (CallStep.mk hclock (List.Perm.refl _)) (ih hrest)

/-- A breaker that opens at the second failure within ten. -/
def twoInTen : CircuitBreakerConfig :=
  { CircuitBreakerConfig.default with failureThreshold := 2, window := 10 }

/-- Failures of one host at 0, 11 and 12, with a check of another in between. -/
def threeFailures : List BreakerCall :=
  [.recordFailure "a.test" 0, .check "b.test" 5, .recordFailure "a.test" 11,
    .recordFailure "a.test" 12]

/-- `breaker_refines_window` where the first failure is too old to count at the second and
the third opens the circuit. -/
theorem breaker_refines_window_twoInTen :
    RefinesWindow twoInTen "a.test"
      (Shared.init.exec (fromConfig twoInTen) threeFailures).1 :=
  breaker_refines_window twoInTen "a.test" (Shared.run_exec (by decide)) (by decide)

/-- The breaker that is switched off, with a threshold of one. -/
def switchedOff : CircuitBreakerConfig :=
  { CircuitBreakerConfig.default with enabled := false, failureThreshold := 1 }

/-- A breaker that is switched off does not open at a failure that reaches the threshold. -/
theorem switchedOff_never_opens :
    ∃ s, Run (CallStep (fromConfig switchedOff)) Shared.init
        [(.recordFailure "a.test" 0, .opened false)] s ∧
      (hostsOf [(.recordFailure "a.test" 0, .opened false)]).card ≤ switchedOff.maxHosts ∧
      max switchedOff.failureThreshold.toNat 1 ≤
        (recent switchedOff.window 0 (failuresSince "a.test" [] ++ [0])).length :=
  ⟨_, (Shared.run_exec (by decide) : Run (CallStep (fromConfig switchedOff)) Shared.init
      (Shared.init.exec (fromConfig switchedOff) [.recordFailure "a.test" 0]).1 _), by decide,
    by decide⟩

end Corx
