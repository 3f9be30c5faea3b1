import Corx.Base.Run
import Corx.Server.RateBudgets
import Corx.Server.Reload

/-!
# Runs of reloads

A process runs through reload attempts and through the work of its requests, which check rate
limiters and use circuit breakers: those of the live snapshot and, as long as they are in
flight, those of earlier ones. The checks of concurrent requests interleave dimension by
dimension.

In every state that is reached, the live configuration keeps what startup has frozen, and the
live snapshot is coherent with it (`Process.Inv`). An unchanged component is never rebuilt from
anything but the fields that it depends on, so nothing stale survives any sequence of reloads.
-/

namespace Corx

/-! ## Steps -/

/-- What a request does with a circuit breaker: it asks for the admission of a hop, or settles
one. -/
inductive CircuitUse
  | admission (host : Str) (now : Instant)
  | settle (host : Str) (how : Settlement) (now : Instant)

/-- The breaker that a use leaves. -/
def CircuitUse.apply (breaker : Breaker) : CircuitUse → Breaker
  | admission host now =>
    { breaker with hosts := (CircuitHop.admitHop breaker.params breaker.hosts host now).2 }
  | settle host how now =>
    { breaker with
      hosts := how.apply { host, settled := false } breaker.params breaker.hosts now }

/-- What happens to a process: a reload attempt, the check of one dimension of a rate limiter,
or the use of a circuit breaker. -/
inductive ProcessEvent
  | attempt (a : Attempt)
  /-- The whole check of a dimension, registration and charge, as one atomic step: the operations of
  another check of the same dimension do not come in between. -/
  | rate (limiter : ℕ) (dimension : RateLimiter.Dimension) (ctx : RateContext) (now : Instant)
  | hop (circuit : ℕ) (use : CircuitUse)

/-- The limiter at a place after the check of one dimension, which nothing interrupts. -/
def Heap.rate {Cell : Type} (gov : Governor Cell) (heap : Heap Cell) (limiter : ℕ)
    (dimension : RateLimiter.Dimension) (ctx : RateContext) (now : Instant) : Heap Cell :=
  { heap with
    limiters := heap.limiters.modify limiter fun inner =>
      (inner.checkDimension gov ctx now dimension).2 }

/-- The breaker at a place after its use. -/
def Heap.hop {Cell : Type} (heap : Heap Cell) (circuit : ℕ) (use : CircuitUse) : Heap Cell :=
  { heap with breakers := heap.breakers.modify circuit fun breaker => use.apply breaker }

namespace Process

variable {Cell : Type} (gov : Governor Cell)
  (regexSet : List Str → Except Str RateLimiter.RegexSet)

/-- The process after an event. -/
def next (p : Process Cell) : ProcessEvent → Process Cell
  | .attempt a => (p.reload gov regexSet a).2
  | .rate limiter dimension ctx now =>
    { p with heap := p.heap.rate gov limiter dimension ctx now }
  | .hop circuit use => { p with heap := p.heap.hop circuit use }

/-- One step of a process. -/
def Step (p : Process Cell) (e : ProcessEvent) (q : Process Cell) : Prop :=
  q = p.next gov regexSet e

end Process

/-! ## What a reload does -/

/-- Two configurations agree on every field that is frozen at startup. -/
structure Config.SameFrozen (a b : Config) : Prop where
  bindAddr : b.server.bindAddr = a.server.bindAddr
  bindPort : b.server.bindPort = a.server.bindPort
  http2 : b.server.http2 = a.server.http2
  tls : b.server.tls = a.server.tls
  maxRequestBodyBytes : b.limits.maxRequestBodyBytes = a.limits.maxRequestBodyBytes
  maxRequestHeaderBytes : b.limits.maxRequestHeaderBytes = a.limits.maxRequestHeaderBytes
  requestTimeout : b.limits.requestTimeout = a.limits.requestTimeout
  inflightMax : b.limits.inflightMax = a.limits.inflightMax
  maxResponseBodyBytes : b.limits.maxResponseBodyBytes = a.limits.maxResponseBodyBytes
  metricsEndpoint : b.observability.metricsEndpoint = a.observability.metricsEndpoint

/-- The field-wise comparison is equality. -/
theorem tlsEq_iff {a b : Option TlsConfig} : tlsEq a b = true ↔ a = b := by
  cases a with
  | none => cases b <;> simp [tlsEq]
  | some x =>
    cases b with
    | none => simp [tlsEq]
    | some y =>
      cases x
      cases y
      simp [tlsEq, and_assoc]

/-- A check that rejects under a condition passes when the condition fails and the checks after
it pass. -/
theorem ite_error_eq_ok {ε : Type*} {bad : Prop} [Decidable bad] {err : ε}
    {rest : Except ε Unit} :
    (if bad then .error err else rest) = .ok () ↔ ¬ bad ∧ rest = .ok () := by
  by_cases h : bad <;> simp [h]

/-- The check passes exactly when the configuration keeps what startup froze. -/
theorem ReloadHandle.assertImmutable_ofConfig {startup new : Config} :
    (ReloadHandle.ofConfig startup).assertImmutable new = .ok () ↔ startup.SameFrozen new := by
  unfold assertImmutable ofConfig
  dsimp only
  -- one equation for each check
  repeat rw [ite_error_eq_ok]
  simp only [ne_eq, not_not, Prod.mk.injEq, Bool.not_eq_true', Bool.not_eq_false, tlsEq_iff,
    and_true]
  constructor
  · rintro ⟨⟨haddr, hport⟩, hhttp2, htls, hbody, hheader, htimeout, hinflight, hresponse,
      hmetrics⟩
    exact
      { bindAddr := haddr
        bindPort := hport
        http2 := hhttp2
        tls := htls
        maxRequestBodyBytes := hbody
        maxRequestHeaderBytes := hheader
        requestTimeout := htimeout
        inflightMax := hinflight
        maxResponseBodyBytes := hresponse
        metricsEndpoint := hmetrics }
  · intro h
    exact ⟨⟨h.bindAddr, h.bindPort⟩, h.http2, h.tls, h.maxRequestBodyBytes,
      h.maxRequestHeaderBytes, h.requestTimeout, h.inflightMax, h.maxResponseBodyBytes,
      h.metricsEndpoint⟩

/-- The handle of a server is what startup freezes of its configuration. -/
theorem ServerBuild.hotReload_fromConfig {config : Config} {rateLimiter : RateLimiter}
    {build : ServerBuild} (h : ServerBuild.fromConfig config rateLimiter = .ok build) :
    build.hotReload = .ofConfig config := by
  unfold ServerBuild.fromConfig at h
  split at h
  next => cases h
  next => rw [← Except.ok.inj h, hotReload, ReloadHandle.ofConfig]

namespace Process

variable {Cell : Type} {gov : Governor Cell}
  {regexSet : List Str → Except Str RateLimiter.RegexSet} {startup : Config}
  {p q : Process Cell}

/-- A reload fails and changes nothing, or swaps in the snapshot of a configuration that was
loaded and keeps what is frozen. -/
theorem reload_spec (gov : Governor Cell)
    (regexSet : List Str → Except Str RateLimiter.RegexSet) (p : Process Cell) (a : Attempt) :
    (∃ err, p.reload gov regexSet a = (.error err, p)) ∨
      ∃ config live heap, a.load = .ok config ∧ p.handle.assertImmutable config = .ok () ∧
        Snapshot.buildFrom gov regexSet a.tls config (some p.live) p.heap = .ok (live, heap) ∧
        p.reload gov regexSet a = (.ok (), { p with live, heap }) := by
  unfold reload
  split
  next err _ => exact .inl ⟨err, rfl⟩
  next config hload =>
    split
    next err _ => exact .inl ⟨err, rfl⟩
    next hfrozen =>
      split
      next err _ => exact .inl ⟨.build err, rfl⟩
      next live heap hbuild => exact .inr ⟨config, live, heap, hload, hfrozen, hbuild, rfl⟩

/-! ## The invariant -/

/-- The handle is what startup froze, the live configuration keeps it, and the live snapshot is
coherent. -/
structure Inv (gov : Governor Cell) (regexSet : List Str → Except Str RateLimiter.RegexSet)
    (startup : Config) (p : Process Cell) : Prop where
  handle : p.handle = .ofConfig startup
  frozen : startup.SameFrozen p.live.config
  coherent : p.live.Coherent gov regexSet p.heap

/-- A process starts in the invariant. -/
theorem inv_start {tls : Except Str Unit} (h : start gov regexSet tls startup = .ok p) :
    p.Inv gov regexSet startup := by
  unfold start at h
  split at h
  next => cases h
  next live heap hbuild =>
    obtain rfl := Except.ok.inj h
    obtain ⟨hconfig, hcoherent, -, -⟩ := Snapshot.buildFrom_spec hbuild (by simp)
    refine ⟨rfl, ?_, hcoherent⟩
    rw [← ReloadHandle.assertImmutable_ofConfig, hconfig,
      ReloadHandle.assertImmutable_ofConfig]
    constructor <;> rfl

/-- A reload keeps the invariant. -/
theorem inv_reload (h : p.Inv gov regexSet startup) (a : Attempt) :
    (p.reload gov regexSet a).2.Inv gov regexSet startup := by
  obtain ⟨err, heq⟩ | ⟨config, live, heap, -, hfrozen, hbuild, heq⟩ :=
    reload_spec gov regexSet p a
  · rw [heq]
    exact h
  · rw [heq]
    obtain ⟨rfl, hcoherent, -, -⟩ := Snapshot.buildFrom_spec hbuild
      fun prev hprev => Option.some.inj hprev ▸ h.coherent
    rw [h.handle, ReloadHandle.assertImmutable_ofConfig] at hfrozen
    exact ⟨h.handle, hfrozen, hcoherent⟩

/-- The check of a dimension keeps a snapshot coherent: it changes no settings. -/
theorem coherent_rate {heap : Heap Cell} {s : Snapshot} (h : s.Coherent gov regexSet heap)
    (limiter : ℕ) (dimension : RateLimiter.Dimension) (ctx : RateContext) (now : Instant) :
    s.Coherent gov regexSet (heap.rate gov limiter dimension ctx now) := by
  refine { h with rateLimiter := ?_, circuit := h.circuit }
  obtain ⟨inner, fresh, hi, hfresh, hsettings⟩ := h.rateLimiter
  by_cases hsame : limiter = s.rateLimiter
  · refine ⟨(inner.checkDimension gov ctx now dimension).2, fresh, ?_, hfresh, ?_⟩
    · rw [Heap.rate, hsame, List.getElem?_modify_eq, hi]
      rfl
    · rw [RateLimiter.Inner.settings_checkDimension, hsettings]
  · refine ⟨inner, fresh, ?_, hfresh, hsettings⟩
    rw [← hi]
    exact List.getElem?_modify_ne _ _ hsame

/-- The use of a breaker keeps a snapshot coherent: it changes no parameters. -/
theorem coherent_hop {heap : Heap Cell} {s : Snapshot} (h : s.Coherent gov regexSet heap)
    (circuit : ℕ) (use : CircuitUse) : s.Coherent gov regexSet (heap.hop circuit use) := by
  refine { h with rateLimiter := h.rateLimiter, circuit := ?_ }
  obtain ⟨breaker, hi, hparams⟩ := h.circuit
  by_cases hsame : circuit = s.circuit
  · refine ⟨use.apply breaker, ?_, ?_⟩
    · rw [Heap.hop, hsame, List.getElem?_modify_eq, hi]
      rfl
    · cases use <;> exact hparams
  · refine ⟨breaker, ?_, hparams⟩
    rw [← hi]
    exact List.getElem?_modify_ne _ _ hsame

/-- Every step keeps the invariant. -/
theorem inv_step {e : ProcessEvent} (h : p.Inv gov regexSet startup)
    (hstep : Step gov regexSet p e q) : q.Inv gov regexSet startup := by
  rw [hstep]
  cases e with
  | attempt a => exact inv_reload h a
  | rate limiter dimension ctx now =>
    exact ⟨h.handle, h.frozen, coherent_rate h.coherent limiter dimension ctx now⟩
  | hop circuit use => exact ⟨h.handle, h.frozen, coherent_hop h.coherent circuit use⟩

/-- The invariant holds in every state that a process reaches from its start. -/
theorem inv_of_run {tls : Except Str Unit} {es : List ProcessEvent}
    (hstart : start gov regexSet tls startup = .ok p)
    (hrun : Run (Step gov regexSet) p es q) : q.Inv gov regexSet startup :=
  hrun.invariant (fun _ _ _ h hstep => inv_step h hstep) (inv_start hstart)

end Process

/-! ## Coherence -/

namespace Snapshot

variable {Cell : Type} {gov : Governor Cell}
  {regexSet : List Str → Except Str RateLimiter.RegexSet} {heap heap' : Heap Cell}
  {s s' : Snapshot}

/-- The settings of the snapshot's limiter. -/
def limiterSettings (heap : Heap Cell) (s : Snapshot) : Option RateLimiter.Inner.Settings :=
  heap.limiters[s.rateLimiter]?.map fun inner => inner.settings

/-- The parameters of the snapshot's breaker. -/
def circuitParams (heap : Heap Cell) (s : Snapshot) : Option CircuitBreaker :=
  heap.breakers[s.circuit]?.map fun breaker => breaker.params

/-- Two snapshots, each in its heap, have the same compiled components: the state of limiters and
breakers aside, nothing tells them apart. -/
structure SameComponents (s : Snapshot) (heap : Heap Cell) (s' : Snapshot) (heap' : Heap Cell) :
    Prop where
  cors : s.cors = s'.cors
  requestFilter : s.requestFilter = s'.requestFilter
  responseFilter : s.responseFilter = s'.responseFilter
  originPolicy : s.originPolicy = s'.originPolicy
  targetPolicy : s.targetPolicy = s'.targetPolicy
  rateLimiter : ∃ settings, s.limiterSettings heap = some settings ∧
    s'.limiterSettings heap' = some settings
  circuit : ∃ params, s.circuitParams heap = some params ∧ s'.circuitParams heap' = some params
  upstream : s.upstream = s'.upstream

/-- Coherent snapshots of one configuration have the same components. -/
theorem Coherent.sameComponents (h : s.Coherent gov regexSet heap)
    (h' : s'.Coherent gov regexSet heap') (hconfig : s'.config = s.config) :
    s.SameComponents heap s' heap' := by
  have hrequest := h'.requestFilter
  have hresponse := h'.responseFilter
  rw [hconfig, h.requestFilter] at hrequest
  rw [hconfig, h.responseFilter] at hresponse
  obtain ⟨inner, fresh, hi, hfresh, hsettings⟩ := h.rateLimiter
  obtain ⟨inner', fresh', hi', hfresh', hsettings'⟩ := h'.rateLimiter
  rw [hconfig, hfresh] at hfresh'
  obtain rfl := Except.ok.inj hfresh'
  obtain ⟨breaker, hb, hparams⟩ := h.circuit
  obtain ⟨breaker', hb', hparams'⟩ := h'.circuit
  exact
    { cors := by rw [h.cors, h'.cors, hconfig]
      requestFilter := Except.ok.inj hrequest
      responseFilter := Except.ok.inj hresponse
      originPolicy := by rw [h.originPolicy, h'.originPolicy, hconfig]
      targetPolicy := by rw [h.targetPolicy, h'.targetPolicy, hconfig]
      rateLimiter := ⟨fresh.settings, by rw [limiterSettings, hi, Option.map_some, hsettings],
        by rw [limiterSettings, hi', Option.map_some, hsettings']⟩
      circuit := ⟨breaker.params, by rw [circuitParams, hb, Option.map_some],
        by rw [circuitParams, hb', Option.map_some, hparams', hconfig, hparams]⟩
      upstream := by rw [h.upstream, h'.upstream, hconfig] }

/-- What a coherent snapshot describes compiles on its own, once the TLS verifier loads. -/
theorem Coherent.exists_buildFrom (h : s.Coherent gov regexSet heap) :
    ∃ fresh heap', buildFrom gov regexSet (.ok ()) s.config none .empty = .ok (fresh, heap') := by
  obtain ⟨-, limiter, -, hlimiter, -⟩ := h.rateLimiter
  unfold buildFrom
  rw [h.requestFilter, h.responseFilter]
  dsimp only
  rw [rateLimiterFrom, Option.filter_none, hlimiter]
  exact ⟨_, _, rfl⟩

/-- A coherent snapshot is, for the handlers, what compiling its configuration yields with the
verdicts of its limiter. -/
theorem Coherent.view (h : s.Coherent gov regexSet heap) (now : Instant) :
    ∃ inner policies, heap.limiters[s.rateLimiter]? = some inner ∧
      s.view gov heap now = some policies ∧
      LivePolicies.build s.config (inner.verdicts gov now) = .ok policies := by
  obtain ⟨inner, -, hi, -, -⟩ := h.rateLimiter
  obtain ⟨breaker, hb, hparams⟩ := h.circuit
  refine ⟨inner, _, hi, by rw [Snapshot.view, hi, hb], ?_⟩
  rw [LivePolicies.build, h.requestFilter, h.responseFilter, hparams, h.cors, h.originPolicy,
    h.targetPolicy, h.upstream]
  rfl

end Snapshot

namespace Process

variable {Cell : Type} {gov : Governor Cell}
  {regexSet : List Str → Except Str RateLimiter.RegexSet} {startup : Config} {p q : Process Cell}

/-- The limiter, and the breaker, of the old process are taken over with their state where their
section of the configuration is unchanged, and everything that older snapshots use is left as it
is. -/
structure CarriedOver (p q : Process Cell) : Prop where
  limiter : p.live.config.rateLimit = q.live.config.rateLimit →
    q.live.rateLimiter = p.live.rateLimiter ∧
      q.heap.limiters[q.live.rateLimiter]? = p.heap.limiters[p.live.rateLimiter]?
  breaker : p.live.config.circuitBreaker = q.live.config.circuitBreaker →
    q.live.circuit = p.live.circuit ∧
      q.heap.breakers[q.live.circuit]? = p.heap.breakers[p.live.circuit]?
  heap : p.heap.Extends q.heap

/-- A successful reload carries the state over. -/
theorem carriedOver_reload (h : p.Inv gov regexSet startup) {a : Attempt}
    (hok : (p.reload gov regexSet a).1 = .ok ()) :
    p.CarriedOver (p.reload gov regexSet a).2 := by
  obtain ⟨err, heq⟩ | ⟨config, live, heap, -, -, hbuild, heq⟩ := reload_spec gov regexSet p a
  · rw [heq] at hok
    cases hok
  · rw [heq]
    obtain ⟨-, -, hextends, hcarried⟩ := Snapshot.buildFrom_spec hbuild
      fun prev hprev => Option.some.inj hprev ▸ h.coherent
    obtain ⟨hlimiter, hbreaker⟩ := hcarried p.live rfl
    obtain ⟨inner, -, hi, -, -⟩ := h.coherent.rateLimiter
    obtain ⟨breaker, hb, -⟩ := h.coherent.circuit
    refine ⟨fun hsame => ⟨hlimiter hsame, ?_⟩, fun hsame => ⟨hbreaker hsame, ?_⟩, hextends⟩
    · rw [hlimiter hsame, hi, hextends.limiter hi]
    · rw [hbreaker hsame, hb, hextends.breaker hb]

/-- In every state that a process reaches, the live configuration keeps what startup froze; the
live components are those that building from the live configuration alone would give, so that the
first hop and every later one meet the same target policy; a reload attempt that succeeds takes
unchanged state over, and one that fails changes nothing. -/
theorem reload_coherent {tls : Except Str Unit} {es : List ProcessEvent}
    (hstart : start gov regexSet tls startup = .ok p)
    (hrun : Run (Step gov regexSet) p es q) :
    startup.SameFrozen q.live.config ∧
    (∃ fresh heap,
      Snapshot.buildFrom gov regexSet (.ok ()) q.live.config none .empty = .ok (fresh, heap) ∧
        q.live.SameComponents q.heap fresh heap) ∧
    q.live.targetPolicy = q.live.upstream.targetPolicy ∧
    ∀ a : Attempt,
      ((q.reload gov regexSet a).1 = .ok () → q.CarriedOver (q.reload gov regexSet a).2) ∧
      ∀ err, (q.reload gov regexSet a).1 = .error err → (q.reload gov regexSet a).2 = q := by
  have hinv : q.Inv gov regexSet startup := inv_of_run hstart hrun
  refine ⟨hinv.frozen, ?_, ?_, fun a => ⟨carriedOver_reload hinv, ?_⟩⟩
  · obtain ⟨fresh, heap, hfresh⟩ := hinv.coherent.exists_buildFrom
    obtain ⟨hconfig, hcoherent, -, -⟩ := Snapshot.buildFrom_spec hfresh (by simp)
    exact ⟨fresh, heap, hfresh, hinv.coherent.sameComponents hcoherent hconfig⟩
  · rw [hinv.coherent.targetPolicy, hinv.coherent.upstream]
    rfl
  · intro err herr
    obtain ⟨_, heq⟩ | ⟨_, _, _, -, -, -, heq⟩ := reload_spec gov regexSet q a
    · rw [heq]
    · rw [heq] at herr
      cases herr

/-- In every state that a process reaches, the handlers work with what compiling the live
configuration yields. -/
theorem view_of_run {tls : Except Str Unit} {es : List ProcessEvent}
    (hstart : start gov regexSet tls startup = .ok p)
    (hrun : Run (Step gov regexSet) p es q) (now : Instant) :
    ∃ inner policies, q.heap.limiters[q.live.rateLimiter]? = some inner ∧
      q.live.view gov q.heap now = some policies ∧
      LivePolicies.build q.live.config (inner.verdicts gov now) = .ok policies :=
  (inv_of_run hstart hrun).coherent.view now

/-! ## A reload that opens CORS -/

/-- No pattern matches. -/
def noPattern : List Str → Except Str RateLimiter.RegexSet :=
  fun _ => .ok fun _ => false

/-- Buckets with one instant for a cell. -/
abbrev gcra : Governor (Option Instant) :=
  RateLimiter.Governor.gcra

/-- The process that starts from the default configuration. -/
def defaultProcess : Process (Option Instant) :=
  (start gcra noPattern (.ok ()) (Config.default "0.2.0")).toOption.get
    (by decide +kernel)

/-- The default configuration with reflection opened to every origin is loaded. -/
def openCors : Attempt where
  source :=
    .ok
      { Config.default "0.2.0" with cors := { CorsConfig.default with allowAnyOrigin := true } }
  isFile := fun _ => false
  tls := .ok ()

/-- The process after a failure of some host and that reload. -/
def reopenedProcess : Process (Option Instant) :=
  (defaultProcess.next gcra noPattern (.hop 0 (.settle "h.test" .failure 7))).next
    gcra noPattern (.attempt openCors)

/-- The reload succeeds, and its outcome is such a state. -/
theorem reload_coherent_openCors :
    (defaultProcess.reload gcra noPattern openCors).1 = .ok () ∧
    (Config.default "0.2.0").SameFrozen reopenedProcess.live.config ∧
    (∃ fresh heap,
      Snapshot.buildFrom gcra noPattern (.ok ()) reopenedProcess.live.config none .empty =
          .ok (fresh, heap) ∧
        reopenedProcess.live.SameComponents reopenedProcess.heap fresh heap) ∧
    reopenedProcess.live.targetPolicy = reopenedProcess.live.upstream.targetPolicy ∧
    ∀ a : Attempt,
      ((reopenedProcess.reload gcra noPattern a).1 = .ok () →
        reopenedProcess.CarriedOver (reopenedProcess.reload gcra noPattern a).2) ∧
      ∀ err, (reopenedProcess.reload gcra noPattern a).1 = .error err →
        (reopenedProcess.reload gcra noPattern a).2 = reopenedProcess :=
  ⟨by decide +kernel,
    reload_coherent (eq_ok_get_toOption (by decide +kernel)) (.cons rfl (.cons rfl (.nil _)))⟩

end Process

end Corx
