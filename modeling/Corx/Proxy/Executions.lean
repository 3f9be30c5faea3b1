import Corx.Policy.Refusals
import Corx.Proxy.BreakerNames
import Corx.Proxy.Settlements

/-!
# Concurrent executions

Any number of calls of `Upstream::execute` share one circuit breaker. A call does two things that
others can see: it asks for the admission of a hop, and when its request comes back, or the call is
dropped while it waits, it settles the hop. Calls interleave between these, each with the upstream
client of the snapshot that it was started with.

The calls together are a run of the circuit breaker (`executions_of_run`): the hops that the breaker
has in flight are those of the waiting calls, and what was settled is what the calls have
dispatched. And each call by itself does what `Upstream.execute` says, in the surroundings that it
has met (`Call.Follows`). So what is proved about runs of the breaker holds under any load; an
example is `failed_of_refused`.
-/

namespace Corx

open CircuitBreaker

/-! ## Calls -/

/-- Where a call stands: before a turn of its loop, waiting for the answer to a request whose hop
was admitted at `now` by the map `hosts`, or at its end. -/
inductive CallPoint
  | atTurn (l : LoopState)
  | waiting (l : LoopState) (hosts : Hosts) (now : Instant)
  | ended (exit : Exit)

/-- A call of `execute`: on which client, with which request, what it has dispatched and settled
so far, and where it stands. -/
structure Call where
  upstream : Upstream
  request : Request
  sent : List Dispatch
  point : CallPoint

/-- A call that is about to start. -/
def Call.start (upstream : Upstream) (request : Request) : Call where
  upstream
  request
  sent := []
  point := .atTurn (.start request)

/-- The hop of the next request, as the breaker has it in flight. -/
def LoopState.flight (l : LoopState) (hosts : Hosts) (now : Instant) : InFlight where
  host := hostOf l.nextRequest.uri
  admittedAt := now
  probe := isProbe hosts (hostOf l.nextRequest.uri) now

/-- The hop that a call waits for. -/
def Call.flight (call : Call) : Option InFlight :=
  match call.point with
  | .waiting l hosts now => some (l.flight hosts now)
  | .atTurn _ | .ended _ => none

/-- The breaker's map, the time of the last operation on it, and the calls. -/
structure Executions where
  hosts : Hosts
  clock : Instant
  calls : List Call

/-- Nothing is recorded and nothing is called. -/
def Executions.init : Executions where
  hosts := ∅
  clock := 0
  calls := []

/-- The hops that calls wait for. -/
def Executions.flights (s : Executions) : List InFlight :=
  s.calls.filterMap Call.flight

/-- What a call does: it starts, it asks for the next hop, or its request comes back. -/
inductive ExecutionEvent
  | started
  | asked
  | cameBack

/-- One step of one call. -/
inductive Executions.Step (parsers : Parsers) (cb : CircuitBreaker) :
    Executions → ExecutionEvent → Executions → Prop
  | started {s : Executions} (upstream : Upstream) (request : Request) :
      Step parsers cb s .started { s with calls := s.calls ++ [.start upstream request] }
  -- the target policy is asked first, and leaves the breaker alone
  | blocked {hosts : Hosts} {clock : Instant} {pre post : List Call} {call : Call}
      {l : LoopState} {err : ProxyError} (hpoint : call.point = .atTurn l)
      (hcheck : call.upstream.targetPolicy.checkUri l.nextRequest.uri = .error err) :
      Step parsers cb { hosts, clock, calls := pre ++ call :: post } .asked
        { hosts
          clock
          calls := pre ++ { call with point := .ended (.returned (.error err)) } :: post }
  | refused {hosts₀ hosts hosts' : Hosts} {clock now : Instant} {pre post : List Call}
      {call : Call} {l : LoopState} {err : ProxyError} (hpoint : call.point = .atTurn l)
      (hcheck : call.upstream.targetPolicy.checkUri l.nextRequest.uri = .ok ())
      (hclock : clock ≤ now) (hperm : hosts₀.entries.Perm hosts.entries)
      (hadmission : CircuitHop.admitHop cb hosts (hostOf l.nextRequest.uri) now =
        (.error err, hosts')) :
      Step parsers cb { hosts := hosts₀, clock, calls := pre ++ call :: post } .asked
        { hosts := hosts'
          clock := now
          calls := pre ++ { call with point := .ended (.returned (.error err)) } :: post }
  | admitted {hosts₀ hosts hosts' : Hosts} {clock now : Instant} {pre post : List Call}
      {call : Call} {l : LoopState} {hop : CircuitHop} (hpoint : call.point = .atTurn l)
      (hcheck : call.upstream.targetPolicy.checkUri l.nextRequest.uri = .ok ())
      (hclock : clock ≤ now) (hperm : hosts₀.entries.Perm hosts.entries)
      (hadmission : CircuitHop.admitHop cb hosts (hostOf l.nextRequest.uri) now =
        (.ok hop, hosts')) :
      Step parsers cb { hosts := hosts₀, clock, calls := pre ++ call :: post } .asked
        { hosts := hosts'
          clock := now
          calls := pre ++ { call with point := .waiting l hosts now } :: post }
  -- the turn goes on as `iterate` does with what came back, and settles the hop
  | cameBack {hosts₀ hosts hostsThen : Hosts} {clock now nowThen : Instant}
      {pre post : List Call} {call : Call} {l : LoopState} {d : Dispatch}
      {next : Exit ⊕ LoopState} (hpoint : call.point = .waiting l hostsThen nowThen)
      (hclock : clock ≤ now) (hperm : hosts₀.entries.Perm hosts.entries)
      (exchange : Exchange) (connections : List (Str → Except Str (List IpAddr)))
      (hturn : call.upstream.iterate parsers cb
        { hosts := hostsThen, now := nowThen, exchange, connections } l = (some d, next)) :
      Step parsers cb { hosts := hosts₀, clock, calls := pre ++ call :: post } .cameBack
        { hosts := d.settlement.apply { host := hostOf l.nextRequest.uri, settled := false } cb
            hosts now
          clock := now
          calls := pre ++
            { call with
              sent := call.sent ++ [d]
              point := next.elim .ended .atTurn } :: post }

/-! ## One call -/

variable {parsers : Parsers} {upstream : Upstream} {cb : CircuitBreaker} {l l' : LoopState}
  {request : Request} {sent : List Dispatch} {d : Dispatch} {exit : Exit}

/-- A turn that dispatches `d` and goes on. -/
def Sends (parsers : Parsers) (upstream : Upstream) (cb : CircuitBreaker) (l : LoopState)
    (d : Dispatch) (l' : LoopState) : Prop :=
  upstream.iterate parsers cb d.env l = (some d, .inr l')

/-- The call has taken turns of the loop, in the surroundings that its dispatches name; a call at
its end has taken one more. -/
def Call.Follows (parsers : Parsers) (cb : CircuitBreaker) (call : Call) : Prop :=
  match call.point with
  | .atTurn l => Run (Sends parsers call.upstream cb) (.start call.request) call.sent l
  | .waiting l hosts now =>
    Run (Sends parsers call.upstream cb) (.start call.request) call.sent l ∧
      call.upstream.targetPolicy.checkUri l.nextRequest.uri = .ok () ∧
      ∃ hop, (CircuitHop.admitHop cb hosts (hostOf l.nextRequest.uri) now).1 = .ok hop
  | .ended exit => ∃ turns l env dispatch,
      Run (Sends parsers call.upstream cb) (.start call.request) turns l ∧
        call.upstream.iterate parsers cb env l = (dispatch, .inl exit) ∧
        call.sent = turns ++ dispatch.toList

/-- The surroundings of a loop: those of its first turn, and of the others. -/
def HopEnv.andThen (env : HopEnv) (envs : ℕ → HopEnv) : ℕ → HopEnv
  | 0 => env
  | n + 1 => envs n

/-- What the loop does after turns that went on: their dispatches, and what it does from there. -/
theorem loop_of_run (hrun : Run (Sends parsers upstream cb) l sent l') (fuel : ℕ)
    (env : HopEnv) :
    ∃ envs : ℕ → HopEnv,
      (upstream.loop parsers cb (sent.length + fuel) envs l) =
        (sent ++ (upstream.loop parsers cb fuel (fun _ => env) l').1,
          (upstream.loop parsers cb fuel (fun _ => env) l').2) := by
  induction hrun with
  | nil l => exact ⟨fun _ => env, by simp⟩
  | @cons l l₁ l' d sent hturn _ ih =>
    obtain ⟨envs, hrest⟩ := ih
    -- the first turn meets what its dispatch names, the others what they met
    refine ⟨d.env.andThen envs, ?_⟩
    have hfirst : upstream.iterate parsers cb (d.env.andThen envs 0) l = (some d, .inr l₁) := hturn
    rw [List.length_cons, Nat.add_right_comm, Upstream.loop, hfirst]
    have hothers : (fun n => d.env.andThen envs (n + 1)) = envs := rfl
    dsimp only
    rw [hothers, hrest]
    rfl

/-- Turns that went on are within the budget. -/
theorem length_le_of_run (hrun : Run (Sends parsers upstream cb) (.start request) sent l) :
    sent.length ≤ upstream.config.maxRedirects.toNat := by
  have hturns : Run (Turn parsers upstream cb) (.start request)
      (sent.map fun d => d.env) l := by
    refine Run.map_labels (hrun.mono fun l d l' hsends => ?_)
    rw [Turn, show upstream.iterate parsers cb d.env l = (some d, .inr l') from hsends]
  have hle := (hops_of_run hturns).2
  rwa [List.length_map] at hle

/-- A call does what `execute` says in the surroundings that it has met: so far, and at its end
altogether. -/
theorem Call.Follows.execute {call : Call} (h : call.Follows parsers cb) (env : HopEnv) :
    ∃ envs : ℕ → HopEnv,
      call.sent <+: (call.upstream.execute parsers cb envs call.request).1 ∧
      ∀ exit, call.point = .ended exit →
        call.upstream.execute parsers cb envs call.request = (call.sent, some exit) := by
  -- the turns so far are those of the loop, whatever surroundings come after them
  have hgoing : ∀ l, Run (Sends parsers call.upstream cb) (.start call.request) call.sent l →
      ∃ envs : ℕ → HopEnv,
        call.sent <+: (call.upstream.execute parsers cb envs call.request).1 := by
    intro l hrun
    have hle := length_le_of_run hrun
    obtain ⟨envs, hloop⟩ :=
      loop_of_run hrun (call.upstream.config.maxRedirects.toNat + 1 - call.sent.length) env
    rw [Nat.add_sub_cancel' (Nat.le_succ_of_le hle)] at hloop
    refine ⟨envs, ?_⟩
    rw [Upstream.execute, hloop]
    exact List.prefix_append _ _
  unfold Follows at h
  cases hpoint : call.point with
  | atTurn l =>
    rw [hpoint] at h
    obtain ⟨envs, hsent⟩ := hgoing l h
    exact ⟨envs, hsent, fun _ hexit => by cases hexit⟩
  | waiting l hosts now =>
    rw [hpoint] at h
    obtain ⟨envs, hsent⟩ := hgoing l h.1
    exact ⟨envs, hsent, fun _ hexit => by cases hexit⟩
  | ended exit =>
    rw [hpoint] at h
    obtain ⟨turns, l, last, dispatch, hrun, hlast, hsent⟩ := h
    have hle := length_le_of_run hrun
    obtain ⟨envs, hloop⟩ :=
      loop_of_run hrun (call.upstream.config.maxRedirects.toNat - turns.length + 1) last
    -- the last turn takes up the fuel that is left
    have hfuel : turns.length + (call.upstream.config.maxRedirects.toNat - turns.length + 1) =
        call.upstream.config.maxRedirects.toNat + 1 := by omega
    have hexecute : call.upstream.execute parsers cb envs call.request =
        (call.sent, some exit) := by
      rw [Upstream.execute, ← hfuel, hloop, Upstream.loop, hlast, hsent]
    refine ⟨envs, by rw [hexecute], fun exit' hexit => ?_⟩
    rw [hexecute, CallPoint.ended.inj hexit]

/-- A call whose next turn dispatches nothing ends there. -/
theorem Call.Follows.ends {call : Call} (h : call.Follows parsers cb) (env : HopEnv)
    (hpoint : call.point = .atTurn l)
    (hturn : call.upstream.iterate parsers cb env l = (none, .inl exit)) :
    ({ call with point := .ended exit } : Call).Follows parsers cb := by
  rw [Follows, hpoint] at h
  exact ⟨call.sent, l, env, none, h, hturn, (List.append_nil _).symm⟩

/-- A call whose request comes back goes on as its turn does. -/
theorem Call.Follows.cameBack {call : Call} {hosts : Hosts} {now : Instant} {env : HopEnv}
    {next : Exit ⊕ LoopState} (h : call.Follows parsers cb)
    (hpoint : call.point = .waiting l hosts now)
    (hturn : call.upstream.iterate parsers cb env l = (some d, next)) :
    ({ call with
        sent := call.sent ++ [d]
        point := next.elim .ended .atTurn } : Call).Follows parsers cb := by
  rw [Follows, hpoint] at h
  cases next with
  | inl exit => exact ⟨call.sent, l, env, some d, h.1, hturn, rfl⟩
  | inr l' =>
    have henv := ((call.upstream.iterate_spec parsers cb env l).dispatched d (by rw [hturn])).2.1
    exact h.1.snoc (show call.upstream.iterate parsers cb d.env l = _ by rw [henv, hturn])

/-! ## All calls together -/

/-- The settlement of a hop, by its host. -/
def Event.settlement : Event → Option (Str × Settlement)
  | admission .. => none
  | settle f how _ => some (f.host, how)

/-- The settlement of a dispatched request, by its host. -/
def Dispatch.settled (d : Dispatch) : Str × Settlement :=
  (hostOf d.request.uri, d.settlement)

namespace Executions

/-- What the calls have settled. -/
def settlements (s : Executions) : List (Str × Settlement) :=
  s.calls.flatMap fun call => call.sent.map Dispatch.settled

/-- The breaker after `ops` is the one that the calls have: it has their hops in flight and what
they have settled behind it. -/
structure Matches (parsers : Parsers) (cb : CircuitBreaker) (ops : List Event) (s : Executions)
    (w : World) : Prop where
  hosts : w.hosts = s.hosts
  clock : w.clock = s.clock
  inFlight : w.inFlight.Perm s.flights
  settled : (ops.filterMap Event.settlement).Perm s.settlements
  follows : ∀ call ∈ s.calls, call.Follows parsers cb

variable {s t : Executions} {w : World} {ops : List Event} {e : ExecutionEvent}

/-- A call among others has its flight among the others'. -/
theorem flights_middle (pre post : List Call) (call : Call) (hosts : Hosts) (clock : Instant) :
    ({ hosts, clock, calls := pre ++ call :: post } : Executions).flights =
      pre.filterMap Call.flight ++ (call.flight.toList ++ post.filterMap Call.flight) := by
  unfold flights
  rw [List.filterMap_append]
  cases hflight : call.flight with
  | none => rw [List.filterMap_cons_none hflight]; rfl
  | some f => rw [List.filterMap_cons_some hflight]; rfl

/-- A call among others has its settlements among the others'. -/
theorem settlements_middle (pre post : List Call) (call : Call) (hosts : Hosts)
    (clock : Instant) :
    ({ hosts, clock, calls := pre ++ call :: post } : Executions).settlements =
      pre.flatMap (fun call => call.sent.map Dispatch.settled) ++
        (call.sent.map Dispatch.settled ++
          post.flatMap fun call => call.sent.map Dispatch.settled) := by
  rw [settlements, List.flatMap_append, List.flatMap_cons]

/-- Where one of the calls has moved, all of them follow if that one does. -/
theorem follows_middle {pre post : List Call} {call call' : Call}
    (h : ∀ c ∈ pre ++ call :: post, c.Follows parsers cb) (hcall : call'.Follows parsers cb) :
    ∀ c ∈ pre ++ call' :: post, c.Follows parsers cb := by
  intro c hc
  rcases List.mem_append.mp hc with hpre | hrest
  · exact h c (List.mem_append_left _ hpre)
  · rcases List.mem_cons.mp hrest with rfl | hpost
    · exact hcall
    · exact h c (List.mem_append_right _ (List.mem_cons_of_mem _ hpost))

/-- A step of a call is an operation on the breaker, or none. -/
theorem Matches.step (h : Matches parsers cb ops s w) (hstep : Step parsers cb s e t) :
    ∃ moves v, Run (Corx.Step cb) w moves v ∧ Matches parsers cb (ops ++ moves) t v := by
  obtain ⟨hhosts, hclock, hinFlight, hsettlements, hfollows⟩ := h
  cases hstep with
  | started upstream request =>
    refine ⟨[], w, .nil w, hhosts, hclock, ?_, ?_, ?_⟩
    · rw [flights_middle, List.filterMap_nil, List.append_nil]
      exact (List.append_nil _).symm ▸ hinFlight
    · rw [settlements] at hsettlements
      rw [settlements_middle]
      simpa [Call.start] using hsettlements
    · intro call hcall
      rcases List.mem_append.mp hcall with hold | hnew
      · exact hfollows call hold
      · rw [List.mem_singleton.mp hnew]
        exact .nil _
  | @blocked hosts clock pre post call l err hpoint hcheck =>
    have hcall := hfollows call (by simp)
    refine ⟨[], w, .nil w, hhosts, hclock, ?_, ?_, follows_middle hfollows ?_⟩
    · rw [flights_middle, Call.flight, hpoint] at hinFlight
      rwa [flights_middle]
    · rw [settlements_middle] at hsettlements
      rwa [settlements_middle, List.append_nil]
    · refine hcall.ends { hosts, now := 0, exchange := .cancelled, connections := [] } hpoint ?_
      rw [Upstream.iterate, hcheck]
  | @refused hosts₀ hosts hosts' clock now pre post call l err hpoint hcheck hle hperm hadmission =>
    have hcall := hfollows call (by simp)
    refine ⟨_, _, .single (.refused (hclock ▸ hle) (hhosts ▸ hperm) hadmission), rfl, rfl, ?_, ?_,
      follows_middle hfollows ?_⟩
    · rw [flights_middle, Call.flight, hpoint] at hinFlight
      rwa [flights_middle]
    · rw [settlements_middle] at hsettlements
      rwa [settlements_middle, List.filterMap_append, List.filterMap_cons_none rfl,
        List.filterMap_nil, List.append_nil]
    · refine hcall.ends { hosts, now, exchange := .cancelled, connections := [] } hpoint ?_
      rw [Upstream.iterate, hcheck]
      dsimp only
      rw [hadmission]
  | @admitted hosts₀ hosts hosts' clock now pre post call l hop hpoint hcheck hle hperm
      hadmission =>
    have hcall := hfollows call (by simp)
    have hhop := Upstream.hop_of_admitHop (congrArg Prod.fst hadmission)
    rw [hhop] at hadmission
    refine ⟨_, _, .single (.admitted (f := l.flight hosts now) (hclock ▸ hle) (hhosts ▸ hperm) rfl
      hadmission), rfl, rfl, ?_, ?_, follows_middle hfollows ?_⟩
    · rw [flights_middle, Call.flight, hpoint] at hinFlight
      rw [flights_middle]
      exact (hinFlight.cons _).trans List.perm_middle.symm
    · rw [settlements_middle] at hsettlements
      rwa [settlements_middle, List.filterMap_append, List.filterMap_cons_none rfl,
        List.filterMap_nil, List.append_nil]
    · rw [Call.Follows, hpoint] at hcall
      exact ⟨hcall, hcheck, _, congrArg Prod.fst hadmission⟩
  | @cameBack hosts₀ hosts hostsThen clock now nowThen pre post call l d next hpoint hle hperm
      exchange connections hturn =>
    have hcall := hfollows call (by simp)
    have hrequest := ((call.upstream.iterate_spec parsers cb _ l).dispatched d (by rw [hturn])).1
    rw [flights_middle, Call.flight, hpoint] at hinFlight
    have hmem := hinFlight.symm.subset (List.mem_append_right _ List.mem_cons_self)
    have hsettled := @Corx.Step.settled cb w hosts _ d.settlement now (hclock ▸ hle)
      (hhosts ▸ hperm) hmem
    refine ⟨_, _, .single hsettled, rfl, rfl, ?_, ?_,
      follows_middle hfollows (hcall.cameBack hpoint hturn)⟩
    · rw [flights_middle]
      have hflight : Call.flight { call with
          sent := call.sent ++ [d], point := next.elim .ended .atTurn } = none := by
        cases next <;> rfl
      rw [hflight]
      have herase := (hinFlight.trans List.perm_middle).erase (l.flight hostsThen nowThen)
      rwa [List.erase_cons_head] at herase
    · rw [settlements_middle] at hsettlements
      have hlast : [Event.settle (l.flight hostsThen nowThen) d.settlement now].filterMap
          Event.settlement = [d.settled] := by
        rw [Dispatch.settled, hrequest]
        rfl
      rw [settlements_middle, List.filterMap_append, hlast, List.map_append, List.map_singleton]
      -- the new settlement is put last on one side, and among the others on the other side
      refine (List.perm_append_singleton _ _).trans ((hsettlements.cons _).trans ?_)
      rw [List.append_assoc, List.singleton_append, ← List.append_assoc, ← List.append_assoc]
      exact List.perm_middle.symm

/-- In every state that is reached the breaker has a run behind it that matches the calls. -/
theorem matches_of_run {es : List ExecutionEvent} (hrun : Run (Step parsers cb) .init es s) :
    ∃ ops w, Run (Corx.Step cb) .init ops w ∧ Matches parsers cb ops s w := by
  have hinit : Matches parsers cb [] .init .init :=
    ⟨rfl, rfl, List.Perm.refl _, List.Perm.refl _, List.forall_mem_nil _⟩
  exact hrun.simulated (fun _ _ _ _ _ h hstep => h.step hstep) hinit

/-- In every state that concurrent calls of `execute` reach, however they interleave and wherever
they are dropped: the circuit breaker has taken a run of admissions and settlements; the hops that
it has in flight are those of the waiting calls, and what it has settled is what the calls have
dispatched, each dispatch once. And each call does what `execute` does alone in the surroundings
that it has met: it has dispatched a part of that, and at its end all of it. -/
theorem executions_of_run {es : List ExecutionEvent} (hrun : Run (Step parsers cb) .init es s)
    (env : HopEnv) :
    (∃ ops w, Run (Corx.Step cb) .init ops w ∧ w.hosts = s.hosts ∧ w.clock = s.clock ∧
      w.inFlight.Perm s.flights ∧ (ops.filterMap Event.settlement).Perm s.settlements) ∧
    ∀ call ∈ s.calls, ∃ envs : ℕ → HopEnv,
      call.sent <+: (call.upstream.execute parsers cb envs call.request).1 ∧
      ∀ exit, call.point = .ended exit →
        call.upstream.execute parsers cb envs call.request = (call.sent, some exit) := by
  obtain ⟨ops, w, hops, hmatches⟩ := matches_of_run hrun
  exact ⟨⟨ops, w, hops, hmatches.hosts, hmatches.clock, hmatches.inFlight, hmatches.settled⟩,
    fun call hcall => (hmatches.follows call hcall).execute env⟩

/-- A host is refused only if some call has dispatched a request to it that failed or was given
up. -/
theorem failed_of_refused {es : List ExecutionEvent} (hrun : Run (Step parsers cb) .init es s)
    {host : Str} {now : Instant} {err : ProxyError}
    (hrefused : (cb.check s.hosts host now).1 = .error err) :
    ∃ call ∈ s.calls, ∃ d ∈ call.sent, hostOf d.request.uri = host ∧ d.settlement ≠ .success := by
  obtain ⟨ops, w, hops, hmatches⟩ := matches_of_run hrun
  rw [← hmatches.hosts] at hrefused
  have hcause : ∃ op ∈ ops, op.failedHost = some host := by
    obtain ⟨op, hop, hfailed, -⟩ | ⟨_, -, -, hfailed⟩ := excused_of_refused hops hrefused
    · exact ⟨op, hop, hfailed⟩
    · exact hfailed
  obtain ⟨op, hop, hfailed⟩ := hcause
  -- what failed is the settlement of a dispatch
  have hsettlement : ∃ how, op.settlement = some (host, how) ∧ how ≠ .success := by
    cases op with
    | admission => cases hfailed
    | settle f how now =>
      obtain rfl | ⟨rfl, hne⟩ : how = .success ∨ f.host = host ∧ how ≠ .success := by
        cases how with
        | success => exact .inl rfl
        | failure => exact .inr ⟨Option.some.inj hfailed, by decide⟩
        | drop => exact .inr ⟨Option.some.inj hfailed, by decide⟩
      · cases hfailed
      · exact ⟨how, rfl, hne⟩
  obtain ⟨how, hhow, hne⟩ := hsettlement
  have hmem := hmatches.settled.subset (List.mem_filterMap.mpr ⟨op, hop, hhow⟩)
  obtain ⟨call, hcall, hsent⟩ := List.mem_flatMap.mp hmem
  obtain ⟨d, hd, heq⟩ := List.mem_map.mp hsent
  obtain ⟨hhost, hsettlement⟩ := Prod.mk.inj heq
  exact ⟨call, hcall, d, hd, hhost, hsettlement ▸ hne⟩

/-! ### A call that fails -/

/-- The call waits for its first answer. -/
def waitingCall : Call :=
  { Call.start followingUpstream getOther with point := .waiting (.start getOther) ∅ 0 }

/-- What the call has met: nothing was recorded, and the connection is refused. -/
def refusedConnection : HopEnv where
  hosts := ∅
  now := 0
  exchange := .failed "connection refused"
  connections := []

/-- What it has dispatched. -/
def failedDispatch : Dispatch where
  request := getOther
  env := refusedConnection
  settlement := .failure

/-- How it ends. -/
def failedExit : Exit :=
  .returned (.error (.upstream "connection refused"))

/-- The breaker has admitted its hop. -/
def admittedHosts : Hosts :=
  (CircuitHop.admitHop (fromConfig hairTrigger) ∅ (hostOf getOther.uri) 0).2

/-- The call has come back with the failure. -/
def afterFailure : Executions where
  hosts := Settlement.failure.apply { host := hostOf getOther.uri, settled := false }
    (fromConfig hairTrigger) admittedHosts 1
  clock := 1
  calls := [{ waitingCall with sent := [failedDispatch], point := .ended failedExit }]

/-- It starts, asks for its hop and comes back. -/
theorem run_afterFailure :
    Run (Step .plain (fromConfig hairTrigger)) .init [.started, .asked, .cameBack]
      afterFailure := by
  have hasked : Step .plain (fromConfig hairTrigger)
      { hosts := ∅, clock := 0, calls := [.start followingUpstream getOther] } .asked
      { hosts := admittedHosts, clock := 0, calls := [waitingCall] } :=
    @Step.admitted .plain (fromConfig hairTrigger) ∅ ∅ admittedHosts 0 0 [] [] _ _ _ rfl
      (by decide +kernel) (le_refl 0) (List.Perm.refl _) rfl
  have hcameBack : Step .plain (fromConfig hairTrigger)
      { hosts := admittedHosts, clock := 0, calls := [waitingCall] } .cameBack afterFailure :=
    @Step.cameBack .plain (fromConfig hairTrigger) admittedHosts admittedHosts ∅ 0 1 0 [] []
      waitingCall (.start getOther) failedDispatch (.inl failedExit) rfl (Nat.zero_le 1)
      (List.Perm.refl _) refusedConnection.exchange [] rfl
  exact .cons (.started followingUpstream getOther) (.cons hasked (.single hcameBack))

/-- The breaker has recorded the failure of that call, and the call has done what `execute` does. -/
theorem executions_of_run_failure :
    (∃ ops w, Run (Corx.Step (fromConfig hairTrigger)) .init ops w ∧
      w.hosts = afterFailure.hosts ∧ w.clock = afterFailure.clock ∧
      w.inFlight.Perm afterFailure.flights ∧
      (ops.filterMap Event.settlement).Perm afterFailure.settlements) ∧
    ∀ call ∈ afterFailure.calls, ∃ envs : ℕ → HopEnv,
      call.sent <+: (call.upstream.execute .plain (fromConfig hairTrigger) envs
        call.request).1 ∧
      ∀ exit, call.point = .ended exit →
        call.upstream.execute .plain (fromConfig hairTrigger) envs call.request =
          (call.sent, some exit) :=
  executions_of_run run_afterFailure refusedConnection

end Executions

end Corx
