import Corx.Proxy.LoopRuns

/-!
# Settlements of hops

The guard of an admitted hop records a success or a failure when it is settled, and a failure
when it is dropped before that. The redirect loop has many exits, and each either settles the
guard or leaves it to its destructor.

`Upstream.executeEvents` is the loop once more, with the guard as a variable of the loop body:
settling moves the guard out, and a guard that is still there when the body is left is dropped
(`Leave.allEvents`). It logs what is done to the circuit breaker. `executeEvents_eq` connects the
log to the dispatches of `Upstream.execute`, and `hops_settled_once` reads off that every
admission is followed by exactly one record.
-/

namespace Corx

/-- What a hop does to the circuit breaker, and the host it does it to. -/
inductive HopEvent
  | admitted (host : Str)
  | refused (host : Str)
  | success (host : Str)
  | failure (host : Str)
  deriving DecidableEq, Repr

/-- The effect of an event on the breaker's map. -/
def HopEvent.apply (cb : CircuitBreaker) (now : Instant) (hosts : Hosts) : HopEvent → Hosts
  | admitted host | refused host => (cb.check hosts host now).2
  | success host => cb.recordSuccess hosts host
  | failure host => (cb.recordFailure hosts host now).2

/-! ## The guard -/

namespace CircuitHop

/-- What the destructor records. -/
def dropEvents (hop : CircuitHop) : List HopEvent :=
  if !hop.settled then [.failure hop.host] else []

/-- What is recorded when the hop is marked successful; the destructor then runs on a settled
hop. -/
def successEvents (hop : CircuitHop) : List HopEvent :=
  .success hop.host :: dropEvents { hop with settled := true }

/-- What is recorded when the hop is marked failed; the destructor then runs on a settled hop. -/
def failureEvents (hop : CircuitHop) : List HopEvent :=
  .failure hop.host :: dropEvents { hop with settled := true }

end CircuitHop

namespace Settlement

/-- What a settlement of a hop records. -/
def events (hop : CircuitHop) : Settlement → List HopEvent
  | success => hop.successEvents
  | failure => hop.failureEvents
  | drop => hop.dropEvents

/-- The one record of a settlement. -/
def record (host : Str) : Settlement → HopEvent
  | success => .success host
  | failure | drop => .failure host

/-- A settlement does to the map what it records. -/
theorem apply_eq_foldl (how : Settlement) (hop : CircuitHop) (cb : CircuitBreaker)
    (hosts : Hosts) (now : Instant) :
    how.apply hop cb hosts now = (how.events hop).foldl (HopEvent.apply cb now) hosts := by
  cases how with
  | success => rfl
  | failure => rfl
  | drop =>
    rw [Settlement.apply, events, CircuitHop.drop, CircuitHop.dropEvents]
    split <;> rfl

/-- A hop that is not settled yet is settled by one record on its host. -/
theorem events_of_unsettled (how : Settlement) (host : Str) :
    how.events { host, settled := false } = [how.record host] := by
  cases how <;> rfl

/-- Settling a hop that is not settled yet does to the map what its one record does. -/
theorem apply_of_unsettled (how : Settlement) (host : Str) (cb : CircuitBreaker) (hosts : Hosts)
    (now : Instant) :
    how.apply { host, settled := false } cb hosts now = (how.record host).apply cb now hosts := by
  rw [apply_eq_foldl, events_of_unsettled]
  rfl

end Settlement

/-! ## The loop with its guard -/

/-- How the body of the loop is left: what has been recorded, the guard unless it has been moved
out, and how the loop goes on. -/
structure Leave where
  events : List HopEvent
  hop : Option CircuitHop
  next : Exit ⊕ LoopState

/-- What is recorded once the body is left: a guard that is still there is dropped. -/
def Leave.allEvents (leave : Leave) : List HopEvent :=
  leave.events ++ leave.hop.elim [] CircuitHop.dropEvents

/-- `settle_terminal`, as what it records. -/
def settleTerminalEvents (hop : CircuitHop) (cb : CircuitBreaker) (status : StatusCode) :
    List HopEvent :=
  if cb.count5xx && status.isServerError then hop.failureEvents else hop.successEvents

namespace Upstream

/-- The body of the loop from the admission of `hop` on. -/
def afterAdmission (parsers : Parsers) (upstream : Upstream) (cb : CircuitBreaker)
    (exchange : Exchange) (l : LoopState) (hop : CircuitHop) : Leave :=
  match exchange with
  -- the future is dropped at its only suspension point, with the guard in place
  | .cancelled => { events := [], hop := some hop, next := .inl .cancelled }
  | .failed err =>
    { events := hop.failureEvents
      hop := none
      next := .inl (.returned (.error (.upstream err))) }
  | .response response =>
    if !isRedirect response.status then
      { events := settleTerminalEvents hop cb response.status
        hop := none
        next := .inl (.returned (.ok response)) }
    else match upstream.config.redirectPolicy with
      | .block =>
        { events := hop.successEvents
          hop := none
          next := .inl (.returned (.error (.redirectBlocked "redirect policy is block"))) }
      | .rewrite =>
        { events := hop.successEvents, hop := none, next := .inl (.returned (.ok response)) }
      | .follow =>
        if upstream.config.maxRedirects ≤ l.hops then
          { events := hop.failureEvents
            hop := none
            next := .inl (.returned (.error (.tooManyRedirects upstream.config.maxRedirects))) }
        else
          { events := hop.successEvents
            hop := none
            next :=
              match prepareNext parsers l.state response
                  upstream.config.allowHttpsToHttpDowngrade with
              | .error err => .inl (.returned (.error err))
              | .ok (.stop _, _) => .inl (.returned (.ok response))
              | .ok (.continueWith request, state) =>
                .inr { state, nextRequest := request, hops := saturatingSucc l.hops } }

/-- One turn of the loop: what it does to the circuit breaker, and how the loop goes on. -/
def iterateEvents (parsers : Parsers) (upstream : Upstream) (cb : CircuitBreaker) (env : HopEnv)
    (l : LoopState) : List HopEvent × (Exit ⊕ LoopState) :=
  match upstream.targetPolicy.checkUri l.nextRequest.uri with
  | .error err => ([], .inl (.returned (.error err)))
  | .ok () =>
    match (CircuitHop.admitHop cb env.hosts (hostOf l.nextRequest.uri) env.now).1 with
    | .error err => ([.refused (hostOf l.nextRequest.uri)], .inl (.returned (.error err)))
    | .ok hop =>
      let leave := upstream.afterAdmission parsers cb env.exchange l hop
      (.admitted hop.host :: leave.allEvents, leave.next)

/-- At most `fuel` turns of the loop. -/
def loopEvents (parsers : Parsers) (upstream : Upstream) (cb : CircuitBreaker) :
    ℕ → (ℕ → HopEnv) → LoopState → List HopEvent × Option Exit
  | 0, _, _ => ([], none)
  | fuel + 1, envs, l =>
    match upstream.iterateEvents parsers cb (envs 0) l with
    | (events, .inl exit) => (events, some exit)
    | (events, .inr l') =>
      let (rest, exit) := upstream.loopEvents parsers cb fuel (fun n => envs (n + 1)) l'
      (events ++ rest, exit)

/-- Execute a request: what is done to the circuit breaker until the call returns or is
dropped. -/
def executeEvents (parsers : Parsers) (upstream : Upstream) (cb : CircuitBreaker)
    (envs : ℕ → HopEnv) (request : Request) : List HopEvent × Option Exit :=
  upstream.loopEvents parsers cb (upstream.config.maxRedirects.toNat + 1) envs (.start request)

/-- A hop counts as a failure: turn `n` ends without a response, with a redirect beyond the
budget, or with a server error that is final, where these count. -/
def countsAsFailure (upstream : Upstream) (cb : CircuitBreaker) (n : ℕ) : Exchange → Bool
  | .cancelled | .failed _ => true
  | .response response =>
    if isRedirect response.status then
      upstream.config.redirectPolicy = .follow ∧ upstream.config.maxRedirects.toNat ≤ n
    else cb.count5xx && response.status.isServerError

/-- The record of a hop of `host` that is dispatched on turn `n`. -/
def recordOf (upstream : Upstream) (cb : CircuitBreaker) (n : ℕ) (exchange : Exchange)
    (host : Str) : HopEvent :=
  if upstream.countsAsFailure cb n exchange then .failure host else .success host

/-! ## One turn -/

variable {parsers : Parsers} {upstream : Upstream} {cb : CircuitBreaker} {env : HopEnv}
  {envs : ℕ → HopEnv} {l l' : LoopState} {request : Request}

/-- However the body of the loop is left, the guard has recorded once: by being settled, or else
by being dropped. -/
theorem allEvents_afterAdmission (exchange : Exchange) (host : Str) :
    (upstream.afterAdmission parsers cb exchange l { host, settled := false }).allEvents =
      [upstream.recordOf cb l.hops.toNat exchange host] := by
  cases exchange with
  | cancelled => rfl
  | failed err => rfl
  | response response =>
    cases hredirect : isRedirect response.status with
    | false =>
      simp only [afterAdmission, hredirect, Bool.not_false, if_true, recordOf, countsAsFailure,
        Bool.false_eq_true, if_false, Leave.allEvents, settleTerminalEvents]
      split <;> rfl
    | true =>
      simp only [afterAdmission, hredirect, Bool.not_true, Bool.false_eq_true, if_false, recordOf,
        countsAsFailure, if_true]
      cases hpolicy : upstream.config.redirectPolicy with
      | block => rfl
      | rewrite => rfl
      | follow =>
        have hbudget : upstream.config.maxRedirects ≤ l.hops ↔
            upstream.config.maxRedirects.toNat ≤ l.hops.toNat := UInt8.le_iff_toNat_le
        simp only [true_and, decide_eq_true_eq, ← hbudget]
        split <;> rfl

/-- An admission yields a guard on the host that it was asked for, not settled yet. -/
theorem hop_of_admitHop {hosts : Hosts} {host : Str} {now : Instant} {hop : CircuitHop}
    (h : (CircuitHop.admitHop cb hosts host now).1 = .ok hop) :
    hop = { host, settled := false } := by
  unfold CircuitHop.admitHop at h
  split at h
  next => exact (Except.ok.inj h).symm
  next => cases h

/-- With the checks passed, the loop goes on as the body with the guard is left, and the dispatch
has the settlement that the guard records. -/
theorem iterate_eq_afterAdmission {hop : CircuitHop}
    (hcheck : upstream.targetPolicy.checkUri l.nextRequest.uri = .ok ())
    (hadmission : (CircuitHop.admitHop cb env.hosts (hostOf l.nextRequest.uri) env.now).1 =
      .ok hop) :
    ∃ how : Settlement,
      upstream.iterate parsers cb env l =
        (some { request := l.nextRequest, env, settlement := how },
          (upstream.afterAdmission parsers cb env.exchange l hop).next) ∧
      (upstream.afterAdmission parsers cb env.exchange l hop).allEvents =
        [how.record (hostOf l.nextRequest.uri)] := by
  obtain rfl := hop_of_admitHop hadmission
  simp only [iterate, hcheck, hadmission]
  unfold afterAdmission
  cases env.exchange with
  | cancelled => exact ⟨.drop, rfl, rfl⟩
  | failed err => exact ⟨.failure, rfl, rfl⟩
  | response response =>
    dsimp only
    cases isRedirect response.status with
    | false =>
      refine ⟨settleTerminal cb response.status, rfl, ?_⟩
      simp only [Bool.not_false, if_true, Leave.allEvents, settleTerminalEvents, settleTerminal]
      split <;> rfl
    | true =>
      simp only [Bool.not_true, Bool.false_eq_true, if_false]
      cases upstream.config.redirectPolicy with
      | block => exact ⟨.success, rfl, rfl⟩
      | rewrite => exact ⟨.success, rfl, rfl⟩
      | follow =>
        dsimp only
        by_cases hbudget : upstream.config.maxRedirects ≤ l.hops
        · simp only [if_pos hbudget]
          exact ⟨.failure, rfl, rfl⟩
        · simp only [if_neg hbudget]
          -- the hop is settled before the next one is prepared, whatever comes of that
          refine ⟨.success, ?_, rfl⟩
          cases prepareNext parsers l.state response
              upstream.config.allowHttpsToHttpDowngrade with
          | error err => rfl
          | ok step =>
            obtain ⟨next, state⟩ := step
            cases next <;> rfl

/-- The settlement of a dispatch is the record that its hop makes. -/
theorem record_of_iterate {d : Dispatch} (h : (upstream.iterate parsers cb env l).1 = some d) :
    d.settlement.record (hostOf d.request.uri) =
      upstream.recordOf cb l.hops.toNat env.exchange (hostOf d.request.uri) := by
  obtain ⟨hcheck, hop, hadmission⟩ := exists_dispatch_iff.mp ⟨d, h⟩
  obtain ⟨how, hiterate, hevents⟩ := iterate_eq_afterAdmission hcheck hadmission
  rw [hiterate] at h
  obtain rfl := Option.some.inj h
  rw [hop_of_admitHop hadmission, allEvents_afterAdmission] at hevents
  exact (List.cons.inj hevents).1.symm

/-- What the hop of a dispatch does to the circuit breaker: one admission and one record. -/
def hopEvents (d : Dispatch) : List HopEvent :=
  [.admitted (hostOf d.request.uri), d.settlement.record (hostOf d.request.uri)]

/-- A turn does to the circuit breaker what the hop of its dispatch does, or it makes at most a
refused admission; and it goes on as without the guard. -/
theorem iterateEvents_spec (parsers : Parsers) (upstream : Upstream) (cb : CircuitBreaker)
    (env : HopEnv) (l : LoopState) :
    ∃ refused : Option Str,
      upstream.iterateEvents parsers cb env l =
        ((upstream.iterate parsers cb env l).1.toList.flatMap hopEvents ++
          refused.toList.map .refused, (upstream.iterate parsers cb env l).2) ∧
      ((upstream.iterate parsers cb env l).1.isSome = true → refused = none) := by
  unfold iterateEvents
  cases hcheck : upstream.targetPolicy.checkUri l.nextRequest.uri with
  | error err =>
    rw [iterate, hcheck]
    exact ⟨none, rfl, fun _ => rfl⟩
  | ok _ =>
    cases hadmission :
        (CircuitHop.admitHop cb env.hosts (hostOf l.nextRequest.uri) env.now).1 with
    | error err =>
      rw [iterate, hcheck]
      dsimp only
      rw [hadmission]
      exact ⟨some (hostOf l.nextRequest.uri), rfl, fun h => absurd h (by simp)⟩
    | ok hop =>
      obtain ⟨how, hiterate, hevents⟩ := iterate_eq_afterAdmission hcheck hadmission
      rw [hiterate]
      dsimp only
      rw [hevents, hop_of_admitHop hadmission]
      exact ⟨none, rfl, fun _ => rfl⟩

/-! ## The run -/

/-- The log of the loop consists of an admission and a record for each dispatch, and of at most
one refusal after them. -/
theorem loopEvents_spec (parsers : Parsers) (upstream : Upstream) (cb : CircuitBreaker)
    (fuel : ℕ) (envs : ℕ → HopEnv) (l : LoopState) :
    ∃ refused : Option Str,
      upstream.loopEvents parsers cb fuel envs l =
        ((upstream.loop parsers cb fuel envs l).1.flatMap hopEvents ++
          refused.toList.map .refused, (upstream.loop parsers cb fuel envs l).2) := by
  induction fuel generalizing envs l with
  | zero => exact ⟨none, rfl⟩
  | succ fuel ih =>
    obtain ⟨refused, hevents, hrefused⟩ := upstream.iterateEvents_spec parsers cb (envs 0) l
    have hgoesOn := (upstream.iterate_spec parsers cb (envs 0) l).goesOn
    rw [loopEvents, loop, hevents]
    generalize upstream.iterate parsers cb (envs 0) l = turn at hrefused hgoesOn
    obtain ⟨dispatch, next⟩ := turn
    dsimp only at hrefused hgoesOn
    cases next with
    | inl exit => exact ⟨refused, rfl⟩
    | inr l' =>
      -- a turn that goes on has dispatched, so the refusal is left to the other turns
      obtain ⟨hdispatch, -⟩ := hgoesOn l' rfl
      obtain rfl := hrefused (by rw [hdispatch]; rfl)
      obtain ⟨refused, hrest⟩ := ih (fun n => envs (n + 1)) l'
      refine ⟨refused, ?_⟩
      dsimp only
      rw [hrest]
      simp

/-- The dispatch of turn `n` is settled by the record that turn calls for. -/
theorem record_of_loop {fuel : ℕ} :
    ∀ (n : ℕ) (d : Dispatch), (upstream.loop parsers cb fuel envs l).1[n]? = some d →
      d.settlement.record (hostOf d.request.uri) =
        upstream.recordOf cb (l.hops.toNat + n) (envs n).exchange (hostOf d.request.uri) := by
  -- on the turns that the loop may still take; a later turn is one of the shorter loop
  induction fuel generalizing envs l with
  | zero => simp [loop]
  | succ fuel ih =>
    intro n d hd
    have hrecord : ∀ d, (upstream.iterate parsers cb (envs 0) l).1 = some d →
        d.settlement.record (hostOf d.request.uri) =
          upstream.recordOf cb l.hops.toNat (envs 0).exchange (hostOf d.request.uri) :=
      fun d hd => record_of_iterate hd
    have hgoesOn := (upstream.iterate_spec parsers cb (envs 0) l).goesOn
    rw [loop] at hd
    split at hd
    next dispatch exit hturn =>
      rw [hturn] at hrecord
      cases dispatch with
      | none => cases hd
      | some first =>
        cases n with
        | zero =>
          obtain rfl := Option.some.inj hd
          exact hrecord first rfl
        | succ n => cases hd
    next dispatch l' hturn =>
      obtain ⟨hdispatch, -, hbudget, hhops, -⟩ := hgoesOn l' (by rw [hturn])
      rw [hturn] at hrecord hdispatch
      dsimp only at hrecord hdispatch
      subst hdispatch
      cases n with
      | zero =>
        obtain rfl := Option.some.inj hd
        exact hrecord _ rfl
      | succ n =>
        have hrest := ih n d (by simpa using hd)
        rw [hrest, hhops, toNat_saturatingSucc hbudget, Nat.add_right_comm, Nat.add_assoc]

/-- Every hop that is admitted is settled exactly once before the call returns or is dropped: what
the call does to the circuit breaker is a sequence of admissions, each followed by one record on
the same host, and at the end perhaps a refusal. The record of turn `n` is a failure exactly if the
turn ends without a response, with a redirect beyond the budget, or with a final server error that
counts; and the record does to the map of the breaker what the settlement of the dispatch does. -/
theorem hops_settled_once (parsers : Parsers) (upstream : Upstream) (cb : CircuitBreaker)
    (envs : ℕ → HopEnv) (request : Request) :
    ∃ (dispatches : List Dispatch) (refused : Option Str) (exit : Exit),
      upstream.execute parsers cb envs request = (dispatches, some exit) ∧
      upstream.executeEvents parsers cb envs request =
        (dispatches.flatMap hopEvents ++ refused.toList.map .refused, some exit) ∧
      (∀ (n : ℕ) (d : Dispatch), dispatches[n]? = some d →
        d.settlement.record (hostOf d.request.uri) =
          if upstream.countsAsFailure cb n (envs n).exchange then
            .failure (hostOf d.request.uri)
          else .success (hostOf d.request.uri)) ∧
      ∀ (d : Dispatch) (hosts : Hosts) (now : Instant),
        (d.settlement.record (hostOf d.request.uri)).apply cb now hosts =
          d.settlement.apply { host := hostOf d.request.uri, settled := false } cb hosts now := by
  obtain ⟨dispatches, exit, hexecute⟩ := exists_execute_eq parsers upstream cb envs request
  obtain ⟨refused, hevents⟩ := upstream.loopEvents_spec parsers cb
    (upstream.config.maxRedirects.toNat + 1) envs (.start request)
  rw [execute] at hexecute
  refine ⟨dispatches, refused, exit, hexecute, ?_, ?_, fun d hosts now =>
    (d.settlement.apply_of_unsettled _ cb hosts now).symm⟩
  · rw [executeEvents, hevents, hexecute]
  · intro n d hd
    have hdispatch : (upstream.loop parsers cb (upstream.config.maxRedirects.toNat + 1) envs
        (.start request)).1[n]? = some d := by
      rw [hexecute]
      exact hd
    have hstart : (LoopState.start request).hops.toNat + n = n := Nat.zero_add n
    rw [record_of_loop n d hdispatch, hstart]
    rfl

end Upstream

end Corx
