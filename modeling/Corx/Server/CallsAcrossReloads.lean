import Corx.Proxy.Executions
import Corx.Server.ReloadRuns

/-!
# Calls across reloads

A call of `Upstream::execute` holds the snapshot that was live when it started: it goes on with
that snapshot's upstream client and circuit breaker while reloads replace both. A process with all
its calls is therefore one family of executions for each breaker it has had. What happens on one
breaker does not touch the others, a reload adds at most an idle one, and each family by itself is
a run of its breaker (`calls_of_run`): a hop is settled by the breaker that admitted it, and every
call does what `execute` does alone under the one configuration that it started with.
-/

namespace Corx

open Executions (Matches)

variable {Cell : Type}

/-- A process, the snapshots that were live so far, and for each circuit breaker the time of the
last operation on it and the calls that use it. -/
structure Fleet (Cell : Type) where
  process : Process Cell
  seen : List Snapshot
  clock : ℕ → Instant
  calls : ℕ → List Call

/-- What happens to a process and its calls. -/
inductive FleetEvent
  | attempt (a : Attempt)
  | rate (limiter : ℕ) (dimension : RateLimiter.Dimension) (ctx : RateContext) (now : Instant)
  | call (circuit : ℕ) (e : ExecutionEvent)

namespace Fleet

/-- A process without calls. -/
def ofProcess (p : Process Cell) : Fleet Cell where
  process := p
  seen := [p.live]
  clock _ := 0
  calls _ := []

/-- The executions on one breaker. -/
def executions (s : Fleet Cell) (circuit : ℕ) (breaker : Breaker) : Executions where
  hosts := breaker.hosts
  clock := s.clock circuit
  calls := s.calls circuit

/-- The process with another map in a breaker. -/
def setHosts (p : Process Cell) (circuit : ℕ) (hosts : Hosts) : Process Cell :=
  { p with
    heap :=
      { p.heap with breakers := p.heap.breakers.modify circuit fun b => { b with hosts } } }

/-- The executions on one breaker have gone on. -/
def put (s : Fleet Cell) (circuit : ℕ) (x : Executions) : Fleet Cell :=
  { s with
    process := setHosts s.process circuit x.hosts
    clock := Function.update s.clock circuit x.clock
    calls := Function.update s.calls circuit x.calls }

/-- A call that loads the live snapshot and starts. -/
def launch (s : Fleet Cell) (request : Request) : Fleet Cell :=
  { s with
    calls := Function.update s.calls s.process.live.circuit
      (s.calls s.process.live.circuit ++ [.start s.process.live.upstream request]) }

/-- One step: of the process itself, of a call that loads the live snapshot and starts, or of one
that goes on with the breaker it has. -/
inductive Step (parsers : Parsers) (gov : Governor Cell)
    (regexSet : List Str → Except Str RateLimiter.RegexSet) :
    Fleet Cell → FleetEvent → Fleet Cell → Prop
  | attempt {s : Fleet Cell} (a : Attempt) :
      Step parsers gov regexSet s (.attempt a)
        { s with
          process := s.process.next gov regexSet (.attempt a)
          seen := (s.process.next gov regexSet (.attempt a)).live :: s.seen }
  | rate {s : Fleet Cell} (limiter : ℕ) (dimension : RateLimiter.Dimension) (ctx : RateContext)
      (now : Instant) :
      Step parsers gov regexSet s (.rate limiter dimension ctx now)
        { s with process := s.process.next gov regexSet (.rate limiter dimension ctx now) }
  | started {s : Fleet Cell} (request : Request) :
      Step parsers gov regexSet s (.call s.process.live.circuit .started) (s.launch request)
  | moved {s : Fleet Cell} {circuit : ℕ} {breaker : Breaker} {e : ExecutionEvent} {x : Executions}
      (hkind : e ≠ .started) (hbreaker : s.process.heap.breakers[circuit]? = some breaker)
      (hstep : Executions.Step parsers breaker.params (s.executions circuit breaker) e x) :
      Step parsers gov regexSet s (.call circuit e) (s.put circuit x)

/-! ## What a step of a call changes -/

section Frames

variable {s : Fleet Cell} {circuit place : ℕ} {x : Executions} {breaker : Breaker}
  {request : Request}

@[simp]
theorem calls_put_self : (s.put circuit x).calls circuit = x.calls :=
  Function.update_self ..

/-- The calls on the other breakers stay. -/
theorem calls_put_of_ne (h : place ≠ circuit) : (s.put circuit x).calls place = s.calls place :=
  Function.update_of_ne h ..

/-- The clocks of the other breakers stay. -/
theorem clock_put_of_ne (h : place ≠ circuit) : (s.put circuit x).clock place = s.clock place :=
  Function.update_of_ne h ..

/-- What was put there is there. -/
theorem executions_put_self :
    (s.put circuit x).executions circuit { breaker with hosts := x.hosts } = x := by
  rw [executions, calls_put_self, show (s.put circuit x).clock circuit = x.clock from
    Function.update_self ..]

/-- The executions on the other breakers stay. -/
theorem executions_put_of_ne (h : place ≠ circuit) :
    (s.put circuit x).executions place breaker = s.executions place breaker := by
  rw [executions, calls_put_of_ne h, clock_put_of_ne h, executions]

/-- The new call is on the live breaker. -/
theorem calls_launch_self : (s.launch request).calls s.process.live.circuit =
    s.calls s.process.live.circuit ++ [.start s.process.live.upstream request] :=
  Function.update_self ..

/-- The calls on the other breakers stay. -/
theorem calls_launch_of_ne (h : place ≠ s.process.live.circuit) :
    (s.launch request).calls place = s.calls place :=
  Function.update_of_ne h ..

end Frames

/-! ## The breakers of a process -/

/-- A heap has the breakers of another one, and at most one more that is idle. -/
def AddsBreaker (before after : Heap Cell) : Prop :=
  after.breakers = before.breakers ∨
    ∃ params, after.breakers = before.breakers ++ [{ params, hosts := ∅ }]

variable {parsers : Parsers} {gov : Governor Cell}
  {regexSet : List Str → Except Str RateLimiter.RegexSet} {s t : Fleet Cell} {e : FleetEvent}
  {es : List FleetEvent} {p : Process Cell} {circuit : ℕ} {breaker : Breaker}

/-- Compiling a snapshot makes at most one more breaker, and it is idle. -/
theorem addsBreaker_buildFrom {tls : Except Str Unit} {config : Config}
    {previous : Option Snapshot} {heap heap' : Heap Cell} {live : Snapshot}
    (h : Snapshot.buildFrom gov regexSet tls config previous heap = .ok (live, heap')) :
    AddsBreaker heap heap' := by
  obtain ⟨_, _, _, heap₁, _, -, -, hlimiter, -, -, rfl⟩ := Snapshot.exists_of_buildFrom h
  -- the limiter's part of the heap is another one
  have hbreakers : heap₁.breakers = heap.breakers := by
    obtain ⟨_, -, -, -, rfl⟩ | ⟨_, -, -, -, rfl⟩ := Snapshot.rateLimiterFrom_cases hlimiter
    · rfl
    · rfl
  unfold Snapshot.circuitFrom
  split
  next => exact .inl hbreakers
  next =>
    right
    exact ⟨_, congrArg (fun breakers => breakers ++ _) hbreakers⟩

/-- Snapshots of a process are coherent in its heap. -/
def AllCoherent (gov : Governor Cell) (regexSet : List Str → Except Str RateLimiter.RegexSet)
    (heap : Heap Cell) (seen : List Snapshot) : Prop :=
  ∀ q ∈ seen, q.Coherent gov regexSet heap

/-- A reload leaves the snapshots coherent, the new one too, and the breakers as they are; it adds
at most an idle one. -/
theorem reload_breakers {seen : List Snapshot} (hlive : p.live ∈ seen)
    (hseen : AllCoherent gov regexSet p.heap seen) (a : Attempt) :
    AllCoherent gov regexSet (p.reload gov regexSet a).2.heap
        ((p.reload gov regexSet a).2.live :: seen) ∧
      AddsBreaker p.heap (p.reload gov regexSet a).2.heap := by
  obtain ⟨err, heq⟩ | ⟨config, live, heap, -, -, hbuild, heq⟩ :=
    Process.reload_spec gov regexSet p a
  · rw [heq]
    exact ⟨List.forall_mem_cons.mpr ⟨hseen _ hlive, hseen⟩, .inl rfl⟩
  · rw [heq]
    obtain ⟨-, hcoherent, hextends, -⟩ := Snapshot.buildFrom_spec hbuild
      fun prev hprev => Option.some.inj hprev ▸ hseen _ hlive
    refine ⟨List.forall_mem_cons.mpr ⟨hcoherent, fun q hq => ?_⟩, addsBreaker_buildFrom hbuild⟩
    have hq' := hseen q hq
    exact
      { hq' with
        rateLimiter := hq'.rateLimiter.mono hextends
        circuit := hq'.circuit.mono hextends }

/-- The breaker at a place after another map was put into one. -/
theorem breakers_setHosts (p : Process Cell) (place : ℕ) (hosts : Hosts) (circuit : ℕ) :
    (setHosts p place hosts).heap.breakers[circuit]? =
      if place = circuit then p.heap.breakers[circuit]?.map fun b => { b with hosts }
      else p.heap.breakers[circuit]? := by
  rw [setHosts, List.getElem?_modify]
  split <;> simp

/-- Another map in a breaker leaves the snapshots coherent. -/
theorem allCoherent_setHosts {seen : List Snapshot} (h : AllCoherent gov regexSet p.heap seen)
    (place : ℕ) (hosts : Hosts) :
    AllCoherent gov regexSet (setHosts p place hosts).heap seen := by
  intro q hq
  have hcoherent := h q hq
  obtain ⟨breaker, hbreaker, hparams⟩ := hcoherent.circuit
  refine { hcoherent with rateLimiter := hcoherent.rateLimiter, circuit := ?_ }
  rw [Snapshot.BreakerAt, breakers_setHosts]
  split
  · exact ⟨_, congrArg (Option.map _) hbreaker, hparams⟩
  · exact ⟨breaker, hbreaker, hparams⟩

/-! ## One step -/

/-- Calls that go on keep their upstream client. -/
theorem upstream_of_step {cb : CircuitBreaker} {e : ExecutionEvent} {before after : Executions}
    (h : Executions.Step parsers cb before e after) (hkind : e ≠ .started) :
    ∀ call ∈ after.calls, ∃ call₀ ∈ before.calls, call₀.upstream = call.upstream := by
  have hmiddle : ∀ {pre post : List Call} {call call' : Call}, call.upstream = call'.upstream →
      ∀ c ∈ pre ++ call' :: post, ∃ c₀ ∈ pre ++ call :: post, c₀.upstream = c.upstream := by
    intro pre post call call' hsame c hc
    rcases List.mem_append.mp hc with hpre | hrest
    · exact ⟨c, List.mem_append_left _ hpre, rfl⟩
    · rcases List.mem_cons.mp hrest with rfl | hpost
      · exact ⟨call, List.mem_append_right _ List.mem_cons_self, hsame⟩
      · exact ⟨c, List.mem_append_right _ (List.mem_cons_of_mem _ hpost), rfl⟩
  cases h with
  | started => exact absurd rfl hkind
  | blocked => exact hmiddle rfl
  | refused => exact hmiddle rfl
  | admitted => exact hmiddle rfl
  | cameBack => exact hmiddle rfl

/-- The executions on a breaker are a run of it. -/
def Matched (parsers : Parsers) (s : Fleet Cell) (circuit : ℕ) (breaker : Breaker) : Prop :=
  ∃ ops w, Run (Corx.Step breaker.params) .init ops w ∧
    Matches parsers breaker.params ops (s.executions circuit breaker) w

/-- Where a call goes on, its breaker goes on with it. -/
theorem Matched.step {e : ExecutionEvent} {x : Executions} (h : Matched parsers s circuit breaker)
    (hstep : Executions.Step parsers breaker.params (s.executions circuit breaker) e x) :
    ∃ ops w, Run (Corx.Step breaker.params) .init ops w ∧
      Matches parsers breaker.params ops x w := by
  obtain ⟨ops, w, hrun, hmatches⟩ := h
  obtain ⟨moves, v, hmoves, hmatches'⟩ := hmatches.step hstep
  exact ⟨ops ++ moves, v, hrun.append hmoves, hmatches'⟩

/-- The snapshots are coherent, a breaker that is not there yet has no calls, every call is on the
client and the breaker of one snapshot, and each breaker has a run behind it. -/
structure Inv (parsers : Parsers) (gov : Governor Cell)
    (regexSet : List Str → Except Str RateLimiter.RegexSet) (s : Fleet Cell) : Prop where
  live_mem : s.process.live ∈ s.seen
  coherent : AllCoherent gov regexSet s.process.heap s.seen
  idle : ∀ circuit, s.process.heap.breakers[circuit]? = none →
    s.calls circuit = [] ∧ s.clock circuit = 0
  placed : ∀ circuit, ∀ call ∈ s.calls circuit,
    ∃ q ∈ s.seen, q.circuit = circuit ∧ q.upstream = call.upstream
  matched : ∀ circuit breaker, s.process.heap.breakers[circuit]? = some breaker →
    Matched parsers s circuit breaker

/-- A breaker that is idle, at a place without calls, has an empty run behind it. -/
theorem matched_of_idle {params : CircuitBreaker} (hcalls : s.calls circuit = [])
    (hclock : s.clock circuit = 0) : Matched parsers s circuit { params, hosts := ∅ } := by
  refine ⟨[], .init, .nil _, ⟨rfl, hclock.symm, ?_, ?_, ?_⟩⟩
  · rw [Executions.flights, executions, hcalls]
    exact List.Perm.refl _
  · rw [Executions.settlements, executions, hcalls]
    exact List.Perm.refl _
  · rw [executions, hcalls]
    exact List.forall_mem_nil _

/-- A reload keeps the invariant. -/
theorem Inv.attempt (h : s.Inv parsers gov regexSet) (a : Attempt) :
    Inv parsers gov regexSet
      { s with
        process := (s.process.reload gov regexSet a).2
        seen := (s.process.reload gov regexSet a).2.live :: s.seen } := by
  obtain ⟨hcoherent, hbreakers⟩ := reload_breakers h.live_mem h.coherent a
  refine ⟨List.mem_cons_self, hcoherent, fun circuit hnone => ?_, fun circuit call hcall => ?_,
    fun circuit breaker hbreaker => ?_⟩
  · -- what is not in the longer list is not in the shorter one
    refine h.idle circuit ?_
    rcases hbreakers with hsame | ⟨params, hgrown⟩
    · rwa [← hsame]
    · rw [hgrown, List.getElem?_eq_none_iff, List.length_append] at hnone
      exact List.getElem?_eq_none (Nat.le_of_add_right_le hnone)
  · obtain ⟨q, hq, hplace⟩ := h.placed circuit call hcall
    exact ⟨q, List.mem_cons_of_mem _ hq, hplace⟩
  · -- a breaker is an old one, or new and without calls
    cases hbefore : s.process.heap.breakers[circuit]? with
    | some old =>
      have hold : (s.process.reload gov regexSet a).2.heap.breakers[circuit]? = some old := by
        rcases hbreakers with hsame | ⟨params, hgrown⟩
        · rwa [hsame]
        · rw [hgrown]
          exact Heap.getElem?_eq_some_of_prefix (List.prefix_append _ _) hbefore
      obtain rfl := Option.some.inj (hold.symm.trans hbreaker)
      exact h.matched circuit old hbefore
    | none =>
      obtain ⟨hcalls, hclock⟩ := h.idle circuit hbefore
      rcases hbreakers with hsame | ⟨params, hgrown⟩
      · rw [hsame, hbefore] at hbreaker
        cases hbreaker
      · rw [hgrown, List.getElem?_append_right (List.getElem?_eq_none_iff.mp hbefore)] at hbreaker
        obtain rfl := List.mem_singleton.mp (List.mem_of_getElem? hbreaker)
        exact matched_of_idle hcalls hclock

/-- A call that starts keeps the invariant. -/
theorem Inv.launch (h : s.Inv parsers gov regexSet) (request : Request) :
    (s.launch request).Inv parsers gov regexSet := by
  obtain ⟨live, hlive, -⟩ := (h.coherent _ h.live_mem).circuit
  refine ⟨h.live_mem, h.coherent, fun circuit hnone => ?_, fun circuit call hcall => ?_,
    fun circuit breaker hbreaker => ?_⟩
  · have hne : circuit ≠ s.process.live.circuit := by
      rintro rfl
      rw [Fleet.launch, hlive] at hnone
      cases hnone
    rw [calls_launch_of_ne hne]
    exact h.idle circuit hnone
  · by_cases hcircuit : circuit = s.process.live.circuit
    · subst hcircuit
      rw [calls_launch_self] at hcall
      rcases List.mem_append.mp hcall with hold | hnew
      · exact h.placed _ call hold
      · obtain rfl := List.mem_singleton.mp hnew
        exact ⟨_, h.live_mem, rfl, rfl⟩
    · rw [calls_launch_of_ne hcircuit] at hcall
      exact h.placed circuit call hcall
  · have hbefore := h.matched circuit breaker hbreaker
    by_cases hcircuit : circuit = s.process.live.circuit
    · subst hcircuit
      rw [Matched, executions, calls_launch_self]
      exact hbefore.step (.started s.process.live.upstream request)
    · rw [Matched, executions, calls_launch_of_ne hcircuit]
      exact hbefore

/-- A call that goes on keeps the invariant. -/
theorem Inv.put {e : ExecutionEvent} {x : Executions} (h : s.Inv parsers gov regexSet)
    (hkind : e ≠ .started) (hbreaker : s.process.heap.breakers[circuit]? = some breaker)
    (hstep : Executions.Step parsers breaker.params (s.executions circuit breaker) e x) :
    (s.put circuit x).Inv parsers gov regexSet := by
  refine ⟨h.live_mem, allCoherent_setHosts h.coherent circuit x.hosts, fun place hnone => ?_,
    fun place call hcall => ?_, fun place b hb => ?_⟩
  · rw [Fleet.put, breakers_setHosts] at hnone
    split at hnone
    next hplace =>
      rw [← hplace, hbreaker] at hnone
      cases hnone
    next hplace =>
      rw [calls_put_of_ne (Ne.symm hplace), clock_put_of_ne (Ne.symm hplace)]
      exact h.idle place hnone
  · -- only the calls of this breaker change
    by_cases hplace : place = circuit
    · subst hplace
      rw [calls_put_self] at hcall
      obtain ⟨call₀, hcall₀, hsame⟩ := upstream_of_step hstep hkind call hcall
      obtain ⟨q, hq, hcircuit, hupstream⟩ := h.placed place call₀ hcall₀
      exact ⟨q, hq, hcircuit, hupstream.trans hsame⟩
    · rw [calls_put_of_ne hplace] at hcall
      exact h.placed place call hcall
  · rw [Fleet.put, breakers_setHosts] at hb
    split at hb
    next hplace =>
      subst hplace
      rw [hbreaker] at hb
      obtain rfl := Option.some.inj hb
      rw [Matched, executions_put_self]
      exact (h.matched circuit breaker hbreaker).step hstep
    next hplace =>
      rw [Matched, executions_put_of_ne (Ne.symm hplace)]
      exact h.matched place b hb

/-- Every step keeps the invariant. -/
theorem Inv.step (h : s.Inv parsers gov regexSet) (hstep : Step parsers gov regexSet s e t) :
    t.Inv parsers gov regexSet := by
  cases hstep with
  | attempt a => exact h.attempt a
  | rate limiter dimension ctx now =>
    have hcoherent := fun q hq =>
      Process.coherent_rate (h.coherent q hq) limiter dimension ctx now
    exact ⟨h.live_mem, hcoherent, h.idle, h.placed, h.matched⟩
  | started request => exact h.launch request
  | moved hkind hbreaker hmoved => exact h.put hkind hbreaker hmoved

/-! ## Runs -/

/-- A process that has just started has idle breakers and no calls. -/
theorem Inv.ofProcess {tls : Except Str Unit} {startup : Config}
    (hstart : Process.start gov regexSet tls startup = .ok p) :
    (ofProcess p).Inv parsers gov regexSet := by
  have hcoherent := (Process.inv_start hstart).coherent
  refine ⟨List.mem_singleton_self _, fun q hq => List.mem_singleton.mp hq ▸ hcoherent,
    fun _ _ => ⟨rfl, rfl⟩, fun _ => List.forall_mem_nil _, fun circuit breaker hbreaker => ?_⟩
  unfold Process.start at hstart
  split at hstart
  next => cases hstart
  next live heap hbuild =>
    obtain rfl := Except.ok.inj hstart
    obtain hsame | ⟨params, hgrown⟩ := addsBreaker_buildFrom hbuild
    · rw [Fleet.ofProcess, hsame] at hbreaker
      cases hbreaker
    · rw [Fleet.ofProcess, hgrown] at hbreaker
      obtain rfl := List.mem_singleton.mp (List.mem_of_getElem? hbreaker)
      exact matched_of_idle rfl rfl

/-- The breaker has taken a run of admissions and settlements: it has the hops of those of its
calls that wait in flight, and has settled what its calls have dispatched. -/
def OwnRun (s : Fleet Cell) (circuit : ℕ) (breaker : Breaker) : Prop :=
  ∃ ops w, Run (Corx.Step breaker.params) .init ops w ∧ w.hosts = breaker.hosts ∧
    w.inFlight.Perm (s.executions circuit breaker).flights ∧
    (ops.filterMap Event.settlement).Perm (s.executions circuit breaker).settlements

/-- The call does what `execute` does alone, with the upstream client and the breaker of one
configuration that was live. -/
def Alone (parsers : Parsers) (s : Fleet Cell) (breaker : Breaker) (call : Call) : Prop :=
  ∃ q ∈ s.seen, call.upstream = Snapshot.upstreamOf q.config ∧
    breaker.params = .fromConfig q.config.circuitBreaker ∧
    ∃ envs : ℕ → HopEnv,
      call.sent <+: (call.upstream.execute parsers breaker.params envs call.request).1 ∧
      ∀ exit, call.point = .ended exit →
        call.upstream.execute parsers breaker.params envs call.request = (call.sent, some exit)

/-- However calls, their requests' answers and reloads interleave, in every state: each circuit
breaker that the process has had, live or replaced, has a run of its own calls behind it, and each
of these does what `execute` does alone, under one configuration. -/
theorem calls_of_run {tls : Except Str Unit} {startup : Config}
    (hstart : Process.start gov regexSet tls startup = .ok p)
    (hrun : Run (Step parsers gov regexSet) (ofProcess p) es s) (circuit : ℕ) (breaker : Breaker)
    (hbreaker : s.process.heap.breakers[circuit]? = some breaker) :
    s.OwnRun circuit breaker ∧ ∀ call ∈ s.calls circuit, s.Alone parsers breaker call := by
  have hinv : s.Inv parsers gov regexSet :=
    hrun.invariant (fun _ _ _ h hstep => h.step hstep) (.ofProcess hstart)
  obtain ⟨ops, w, hops, hmatches⟩ := hinv.matched circuit breaker hbreaker
  refine ⟨⟨ops, w, hops, hmatches.hosts, hmatches.inFlight, hmatches.settled⟩, fun call hcall => ?_⟩
  obtain ⟨q, hq, rfl, hupstream⟩ := hinv.placed circuit call hcall
  have hcoherent := hinv.coherent q hq
  obtain ⟨b, hb, hparams⟩ := hcoherent.circuit
  obtain rfl := Option.some.inj (hb.symm.trans hbreaker)
  -- the surroundings of turns that were not taken are arbitrary
  have hexecute := (hmatches.follows call hcall).execute
    { hosts := ∅, now := 0, exchange := .cancelled, connections := [] }
  exact ⟨q, hq, hupstream.symm.trans hcoherent.upstream, hparams, hexecute⟩

/-! ## A breaker that is replaced under a call -/

/-- The default configuration with another section for the circuit breaker is loaded. -/
def tighten : Attempt where
  source := .ok { Config.default "0.2.0" with circuitBreaker := hairTrigger }
  isFile := fun _ => false
  tls := .ok ()

/-- A call has started when the reload comes. -/
def tightened : Fleet (Option Instant) :=
  let launched := (ofProcess Process.defaultProcess).launch getOther
  { launched with
    process := launched.process.next Process.gcra Process.noPattern (.attempt tighten)
    seen := (launched.process.next Process.gcra Process.noPattern (.attempt tighten)).live ::
      launched.seen }

/-- Another breaker is live, and the call goes on with the one that it has. -/
theorem calls_of_run_tightened :
    tightened.process.live.circuit = 1 ∧ (tightened.calls 0).length = 1 ∧
      ∃ breaker, tightened.process.heap.breakers[0]? = some breaker ∧
        tightened.OwnRun 0 breaker ∧
        ∀ call ∈ tightened.calls 0, tightened.Alone .plain breaker call := by
  have hrun : Run (Step .plain Process.gcra Process.noPattern) (ofProcess Process.defaultProcess)
      [.call Process.defaultProcess.live.circuit .started, .attempt tighten] tightened :=
    .cons (.started getOther) (.single (.attempt tighten))
  obtain ⟨breaker, hbreaker⟩ : ∃ breaker, tightened.process.heap.breakers[0]? = some breaker :=
    Option.isSome_iff_exists.mp (by decide +kernel)
  refine ⟨by decide +kernel, by decide +kernel, breaker, hbreaker, ?_⟩
  exact calls_of_run (eq_ok_get_toOption (by decide +kernel)) hrun 0 breaker hbreaker

end Fleet

end Corx
