import Corx.Config.Validate
import Corx.Server.RateLimit
import Corx.Server.State

/-!
# Hot reload

A reload compiles a new snapshot of the policies and swaps it in. The rate limiter and the
circuit breaker of a snapshot are shared: a new snapshot takes over those of the previous one
where their section of the configuration is unchanged, and requests that still hold an old
snapshot go on using them. They live in a `Heap`, and a snapshot names them by their places.

`Snapshot.buildFrom_spec` says what compiling yields, `Process.reload_spec` what a reload does.
-/

namespace Corx

/-! ## Shared state -/

/-- A circuit breaker: its parameters and its map. -/
structure Breaker where
  params : CircuitBreaker
  hosts : Hosts

/-- Every rate limiter and circuit breaker of the process, in the order of their creation. -/
structure Heap (Cell : Type) where
  limiters : List (RateLimiter.Inner Cell)
  breakers : List Breaker

namespace Heap

variable {Cell : Type}

/-- Nothing is created yet. -/
def empty : Heap Cell where
  limiters := []
  breakers := []

/-- Nothing of the first heap is lost or changed in the second. -/
def Extends (a b : Heap Cell) : Prop :=
  a.limiters <+: b.limiters ∧ a.breakers <+: b.breakers

/-- A heap extends itself. -/
theorem Extends.refl (a : Heap Cell) : a.Extends a :=
  ⟨List.prefix_rfl, List.prefix_rfl⟩

/-- What a list holds at a place, every longer list holds there. -/
theorem getElem?_eq_some_of_prefix {α : Type*} {xs ys : List α} (h : xs <+: ys) {i : ℕ} {a : α}
    (hi : xs[i]? = some a) : ys[i]? = some a := by
  obtain ⟨rest, rfl⟩ := h
  obtain ⟨hlt, -⟩ := List.getElem?_eq_some_iff.mp hi
  rw [List.getElem?_append_left hlt, hi]

/-- A limiter stays in its place. -/
theorem Extends.limiter {a b : Heap Cell} (h : a.Extends b) {i : ℕ}
    {inner : RateLimiter.Inner Cell} (hi : a.limiters[i]? = some inner) :
    b.limiters[i]? = some inner :=
  getElem?_eq_some_of_prefix h.1 hi

/-- A breaker stays in its place. -/
theorem Extends.breaker {a b : Heap Cell} (h : a.Extends b) {i : ℕ} {breaker : Breaker}
    (hi : a.breakers[i]? = some breaker) : b.breakers[i]? = some breaker :=
  getElem?_eq_some_of_prefix h.2 hi

end Heap

/-! ## Snapshots -/

/-- A snapshot of the compiled policies. `rateLimiter` and `circuit` are places in the heap. -/
structure Snapshot where
  config : Config
  cors : CorsPolicy
  requestFilter : HeaderFilter
  responseFilter : HeaderFilter
  originPolicy : OriginPolicy
  rateLimiter : ℕ
  targetPolicy : TargetPolicy
  circuit : ℕ
  upstream : Upstream

/-- Fields that force a full rebuild of the upstream client. -/
def upstreamConfigEq (a b : Config) : Bool :=
  a.ssrf = b.ssrf ∧ a.target = b.target ∧ a.upstream = b.upstream ∧
    a.limits.connectTimeout = b.limits.connectTimeout ∧
    a.limits.maxRedirects = b.limits.maxRedirects ∧
    a.limits.allowHttpsToHttpDowngrade = b.limits.allowHttpsToHttpDowngrade ∧
    a.limits.redirectPolicy = b.limits.redirectPolicy

/-- The upstream client's parameters. -/
def clientConfig (config : Config) : ClientConfig where
  poolMaxIdlePerHost := config.upstream.poolMaxIdlePerHost
  poolIdleTimeout := config.upstream.poolIdleTimeout
  connectTimeout := config.limits.connectTimeout
  maxRedirects := config.limits.maxRedirects
  allowHttpsToHttpDowngrade := config.limits.allowHttpsToHttpDowngrade
  redirectPolicy := config.limits.redirectPolicy
  userAgent := config.upstream.userAgent

/-- Build an upstream client; `tls` is whether the platform's TLS verifier loads. -/
def Upstream.new (tls : Except Str Unit) (config : ClientConfig) (guard : SsrfGuard)
    (targetPolicy : TargetPolicy) : Except Str Upstream :=
  match tls with
  | .error err => .error ("tls handshake failed: ".toList ++ err)
  | .ok () => .ok { config, guard, targetPolicy }

namespace Snapshot

variable {Cell : Type} (gov : Governor Cell)
  (regexSet : List Str → Except Str RateLimiter.RegexSet)

/-- The rate limiter of a new snapshot: the previous one where its section is unchanged. -/
def rateLimiterFrom (config : Config) (previous : Option Snapshot) (heap : Heap Cell) :
    Except Str (ℕ × Heap Cell) :=
  match previous.filter fun prev => prev.config.rateLimit = config.rateLimit with
  | some prev => .ok (prev.rateLimiter, heap)
  | none =>
    match RateLimiter.fromConfig gov regexSet config.rateLimit with
    | .error err => .error err
    | .ok inner => .ok (heap.limiters.length, { heap with limiters := heap.limiters ++ [inner] })

/-- The circuit breaker of a new snapshot: the previous one where its section is unchanged. -/
def circuitFrom (config : Config) (previous : Option Snapshot) (heap : Heap Cell) :
    ℕ × Heap Cell :=
  match previous.filter fun prev => prev.config.circuitBreaker = config.circuitBreaker with
  | some prev => (prev.circuit, heap)
  | none =>
    let breaker : Breaker := { params := .fromConfig config.circuitBreaker, hosts := ∅ }
    (heap.breakers.length, { heap with breakers := heap.breakers ++ [breaker] })

/-- The upstream client of a new snapshot: the previous one where the fields it is built from
are unchanged. -/
def upstreamFrom (tls : Except Str Unit) (config : Config) (targetPolicy : TargetPolicy)
    (previous : Option Snapshot) : Except Str Upstream :=
  match previous.filter fun prev => upstreamConfigEq prev.config config with
  | some prev => .ok prev.upstream
  | none =>
    match Upstream.new tls (clientConfig config) (.new config.ssrf) targetPolicy with
    | .error err => .error ("upstream client: ".toList ++ err)
    | .ok upstream => .ok upstream

/-- Build a new snapshot, reusing process state from `previous` where the corresponding
sections are unchanged. -/
def buildFrom (tls : Except Str Unit) (config : Config) (previous : Option Snapshot)
    (heap : Heap Cell) : Except Str (Snapshot × Heap Cell) :=
  match HeaderFilter.tryNew config.security.removeRequestHeaders with
  | .error err => .error ("security.remove_request_headers: ".toList ++ err)
  | .ok requestFilter =>
    match HeaderFilter.tryNew config.security.removeResponseHeaders with
    | .error err => .error ("security.remove_response_headers: ".toList ++ err)
    | .ok responseFilter =>
      let targetPolicy := TargetPolicy.fromConfig config.target
      -- the limiter, the breaker and the upstream may be those of the previous snapshot
      match rateLimiterFrom gov regexSet config previous heap with
      | .error err => .error err
      | .ok (rateLimiter, heap) =>
        let (circuit, heap) := circuitFrom config previous heap
        match upstreamFrom tls config targetPolicy previous with
        | .error err => .error err
        | .ok upstream =>
          .ok
            ({ config
               cors := .fromConfig config.cors
               requestFilter
               responseFilter
               originPolicy := .fromConfig config.security
               rateLimiter
               targetPolicy
               circuit
               upstream }, heap)

/-- The snapshot as the handlers use it, with the verdicts of its limiter at an instant. -/
def view (heap : Heap Cell) (now : Instant) (s : Snapshot) : Option LivePolicies :=
  match heap.limiters[s.rateLimiter]?, heap.breakers[s.circuit]? with
  | some inner, some breaker =>
    some
      { config := s.config
        cors := s.cors
        requestFilter := s.requestFilter
        responseFilter := s.responseFilter
        guard := { origin := s.originPolicy, rateLimit := inner.verdicts gov now }
        targetPolicy := s.targetPolicy
        circuit := breaker.params
        upstream := s.upstream }
  | _, _ => none

end Snapshot

/-! ## What compiling yields -/

namespace Snapshot

variable {Cell : Type} {gov : Governor Cell}
  {regexSet : List Str → Except Str RateLimiter.RegexSet} {tls : Except Str Unit}
  {config : Config} {previous : Option Snapshot} {heap heap' : Heap Cell}

/-- The upstream client that a configuration describes. -/
def upstreamOf (config : Config) : Upstream where
  config := clientConfig config
  guard := .new config.ssrf
  targetPolicy := .fromConfig config.target

/-- The limiter at a place has the settings that a section describes. -/
def LimiterAt (gov : Governor Cell) (regexSet : List Str → Except Str RateLimiter.RegexSet)
    (heap : Heap Cell) (i : ℕ) (cfg : RateLimitConfig) : Prop :=
  ∃ inner fresh, heap.limiters[i]? = some inner ∧
    RateLimiter.fromConfig gov regexSet cfg = .ok fresh ∧ inner.settings = fresh.settings

/-- The breaker at a place has the parameters that a section describes. -/
def BreakerAt (heap : Heap Cell) (i : ℕ) (cfg : CircuitBreakerConfig) : Prop :=
  ∃ breaker, heap.breakers[i]? = some breaker ∧ breaker.params = .fromConfig cfg

/-- Every component of a snapshot is the one that its configuration describes. -/
structure Coherent (gov : Governor Cell) (regexSet : List Str → Except Str RateLimiter.RegexSet)
    (heap : Heap Cell) (s : Snapshot) : Prop where
  cors : s.cors = .fromConfig s.config.cors
  requestFilter : HeaderFilter.tryNew s.config.security.removeRequestHeaders = .ok s.requestFilter
  responseFilter :
    HeaderFilter.tryNew s.config.security.removeResponseHeaders = .ok s.responseFilter
  originPolicy : s.originPolicy = .fromConfig s.config.security
  rateLimiter : LimiterAt gov regexSet heap s.rateLimiter s.config.rateLimit
  targetPolicy : s.targetPolicy = .fromConfig s.config.target
  circuit : BreakerAt heap s.circuit s.config.circuitBreaker
  upstream : s.upstream = upstreamOf s.config

/-- The new snapshot has the limiter, and the breaker, of the old one where its section of the
configuration is unchanged. -/
def CarriedOver (old new : Snapshot) : Prop :=
  (old.config.rateLimit = new.config.rateLimit → new.rateLimiter = old.rateLimiter) ∧
    (old.config.circuitBreaker = new.config.circuitBreaker → new.circuit = old.circuit)

/-- A limiter keeps its settings in every extension of the heap. -/
theorem LimiterAt.mono {i : ℕ} {cfg : RateLimitConfig} (h : LimiterAt gov regexSet heap i cfg)
    (hheap : heap.Extends heap') : LimiterAt gov regexSet heap' i cfg := by
  obtain ⟨inner, fresh, hi, hfresh, hsettings⟩ := h
  exact ⟨inner, fresh, hheap.limiter hi, hfresh, hsettings⟩

/-- A breaker keeps its parameters in every extension of the heap. -/
theorem BreakerAt.mono {i : ℕ} {cfg : CircuitBreakerConfig} (h : BreakerAt heap i cfg)
    (hheap : heap.Extends heap') : BreakerAt heap' i cfg := by
  obtain ⟨breaker, hi, hparams⟩ := h
  exact ⟨breaker, hheap.breaker hi, hparams⟩

/-- Configurations that agree on the compared fields describe the same upstream client. -/
theorem upstreamOf_eq_of_upstreamConfigEq {a b : Config} (h : upstreamConfigEq a b = true) :
    upstreamOf a = upstreamOf b := by
  simp only [upstreamConfigEq, decide_eq_true_eq] at h
  obtain ⟨hssrf, htarget, hupstream, hconnect, hmax, hdowngrade, hredirect⟩ := h
  simp only [upstreamOf, clientConfig, hssrf, htarget, hupstream, hconnect, hmax, hdowngrade,
    hredirect]

/-- The limiter of a new snapshot is the previous one, where its section is unchanged, or a new one
at the end of the heap. -/
theorem rateLimiterFrom_cases {place : ℕ}
    (h : rateLimiterFrom gov regexSet config previous heap = .ok (place, heap')) :
    (∃ prev, previous = some prev ∧ prev.config.rateLimit = config.rateLimit ∧
      place = prev.rateLimiter ∧ heap' = heap) ∨
    ∃ inner, (∀ prev ∈ previous, prev.config.rateLimit ≠ config.rateLimit) ∧
      RateLimiter.fromConfig gov regexSet config.rateLimit = .ok inner ∧
      place = heap.limiters.length ∧
      heap' = { heap with limiters := heap.limiters ++ [inner] } := by
  unfold rateLimiterFrom at h
  split at h
  next prev hreused =>
    obtain ⟨rfl, rfl⟩ := Prod.mk.inj (Except.ok.inj h)
    obtain ⟨hprev, hsame⟩ := Option.filter_eq_some_iff.mp hreused
    exact .inl ⟨prev, hprev, of_decide_eq_true hsame, rfl, rfl⟩
  next hfresh =>
    split at h
    next => cases h
    next inner hinner =>
      obtain ⟨rfl, rfl⟩ := Prod.mk.inj (Except.ok.inj h)
      refine .inr ⟨inner, fun prev hprev hsame => ?_, hinner, rfl, rfl⟩
      exact Option.filter_eq_none_iff.mp hfresh prev hprev (decide_eq_true hsame)

/-- The limiter of a new snapshot has the settings of its section. -/
theorem rateLimiterFrom_spec {i : ℕ}
    (h : rateLimiterFrom gov regexSet config previous heap = .ok (i, heap'))
    (hprevious : ∀ prev ∈ previous, prev.Coherent gov regexSet heap) :
    heap.Extends heap' ∧ LimiterAt gov regexSet heap' i config.rateLimit ∧
      ∀ prev ∈ previous, prev.config.rateLimit = config.rateLimit → i = prev.rateLimiter := by
  obtain ⟨prev, rfl, hsame, rfl, rfl⟩ | ⟨inner, hfresh, hinner, rfl, rfl⟩ :=
    rateLimiterFrom_cases h
  · refine ⟨.refl heap', ?_, ?_⟩
    · rw [← hsame]
      exact (hprevious prev rfl).rateLimiter
    · intro prev' hprev' _
      rw [Option.some.inj hprev']
  · refine ⟨⟨List.prefix_append _ _, List.prefix_rfl⟩, ?_, ?_⟩
    · exact ⟨inner, inner, List.getElem?_concat_length, hinner, rfl⟩
    · exact fun prev hprev hsame => absurd hsame (hfresh prev hprev)

/-- The breaker of a new snapshot has the parameters of its section. -/
theorem circuitFrom_spec (config : Config)
    (hprevious : ∀ prev ∈ previous, prev.Coherent gov regexSet heap) :
    heap.Extends (circuitFrom config previous heap).2 ∧
      BreakerAt (circuitFrom config previous heap).2 (circuitFrom config previous heap).1
        config.circuitBreaker ∧
      ∀ prev ∈ previous, prev.config.circuitBreaker = config.circuitBreaker →
        (circuitFrom config previous heap).1 = prev.circuit := by
  unfold circuitFrom
  split
  next prev hreused =>
    obtain ⟨rfl, hsame⟩ := Option.filter_eq_some_iff.mp hreused
    refine ⟨.refl heap, ?_, ?_⟩
    · rw [← of_decide_eq_true hsame]
      exact (hprevious prev rfl).circuit
    · intro prev' hprev' _
      rw [Option.some.inj hprev']
  next hfresh =>
    refine ⟨⟨List.prefix_rfl, List.prefix_append _ _⟩, ?_, ?_⟩
    · exact ⟨_, List.getElem?_concat_length, rfl⟩
    · intro prev hprev hsame
      exact absurd (decide_eq_true hsame) (Option.filter_eq_none_iff.mp hfresh prev hprev)

/-- The upstream client of a new snapshot is the one that its configuration describes. -/
theorem upstreamFrom_spec {upstream : Upstream}
    (h : upstreamFrom tls config (.fromConfig config.target) previous = .ok upstream)
    (hprevious : ∀ prev ∈ previous, prev.Coherent gov regexSet heap) :
    upstream = upstreamOf config := by
  unfold upstreamFrom at h
  split at h
  next prev hreused =>
    obtain ⟨rfl, hsame⟩ := Option.filter_eq_some_iff.mp hreused
    rw [← Except.ok.inj h, (hprevious prev rfl).upstream]
    exact upstreamOf_eq_of_upstreamConfigEq hsame
  next =>
    unfold Upstream.new at h
    cases tls with
    | error err => cases h
    | ok _ => exact (Except.ok.inj h).symm

/-- A snapshot consists of the parts that compiling finds, and the heap is touched for its limiter
and then for its breaker. -/
theorem exists_of_buildFrom {s : Snapshot}
    (h : buildFrom gov regexSet tls config previous heap = .ok (s, heap')) :
    ∃ requestFilter responseFilter place heap₁ upstream,
      HeaderFilter.tryNew config.security.removeRequestHeaders = .ok requestFilter ∧
      HeaderFilter.tryNew config.security.removeResponseHeaders = .ok responseFilter ∧
      rateLimiterFrom gov regexSet config previous heap = .ok (place, heap₁) ∧
      upstreamFrom tls config (.fromConfig config.target) previous = .ok upstream ∧
      s =
        { config
          cors := .fromConfig config.cors
          requestFilter
          responseFilter
          originPolicy := .fromConfig config.security
          rateLimiter := place
          targetPolicy := .fromConfig config.target
          circuit := (circuitFrom config previous heap₁).1
          upstream } ∧
      heap' = (circuitFrom config previous heap₁).2 := by
  -- each of the fallible parts has succeeded
  unfold buildFrom at h
  split at h
  next => cases h
  next requestFilter hrequest =>
    split at h
    next => cases h
    next responseFilter hresponse =>
      dsimp only at h
      split at h
      next => cases h
      next place heap₁ hlimiter =>
        split at h
        next => cases h
        next upstream hupstream =>
          obtain ⟨rfl, rfl⟩ := Prod.mk.inj (Except.ok.inj h)
          exact ⟨requestFilter, responseFilter, place, heap₁, upstream, hrequest, hresponse,
            hlimiter, hupstream, rfl, rfl⟩

/-- A snapshot built from a coherent one is coherent, carries its state over, and disturbs
nothing in the heap. -/
theorem buildFrom_spec {s : Snapshot}
    (h : buildFrom gov regexSet tls config previous heap = .ok (s, heap'))
    (hprevious : ∀ prev ∈ previous, prev.Coherent gov regexSet heap) :
    s.config = config ∧ s.Coherent gov regexSet heap' ∧ heap.Extends heap' ∧
      ∀ prev ∈ previous, prev.CarriedOver s := by
  obtain ⟨_, _, _, heap₁, _, hrequest, hresponse, hlimiter, hupstream, rfl, rfl⟩ :=
    exists_of_buildFrom h
  obtain ⟨hextends₁, hat, hcarried⟩ := rateLimiterFrom_spec hlimiter hprevious
  -- the limiter is in place before the breaker is looked at
  have hprevious₁ : ∀ prev ∈ previous, prev.Coherent gov regexSet heap₁ := by
    intro prev hprev
    have hcoherent := hprevious prev hprev
    exact
      { hcoherent with
        rateLimiter := hcoherent.rateLimiter.mono hextends₁
        circuit := hcoherent.circuit.mono hextends₁ }
  obtain ⟨hextends₂, hbreaker, hkept⟩ := circuitFrom_spec config hprevious₁
  refine ⟨rfl, ?_, ⟨hextends₁.1.trans hextends₂.1, hextends₁.2.trans hextends₂.2⟩, ?_⟩
  · exact
      { cors := rfl
        requestFilter := hrequest
        responseFilter := hresponse
        originPolicy := rfl
        rateLimiter := hat.mono hextends₂
        targetPolicy := rfl
        circuit := hbreaker
        upstream := upstreamFrom_spec hupstream hprevious }
  · exact fun prev hprev => ⟨hcarried prev hprev, hkept prev hprev⟩

end Snapshot

/-! ## Reloading -/

/-- What may not change while the process runs, captured at startup. -/
structure ReloadHandle where
  immutableServer : ServerConfig
  immutableMetricsEndpoint : Str
  immutableMaxBodyBytes : UInt64
  immutableMaxRequestHeaderBytes : UInt32
  immutableRequestTimeout : Duration
  immutableInflightMax : UInt32
  immutableMaxResponseBodyBytes : UInt64
  deriving DecidableEq, Repr

/-- The handle of a running server. -/
def ServerBuild.hotReload (build : ServerBuild) : ReloadHandle where
  immutableServer := build.immutableServer
  immutableMetricsEndpoint := build.immutableMetricsEndpoint
  immutableMaxBodyBytes := build.immutableLimits.maxRequestBodyBytes
  immutableMaxRequestHeaderBytes := build.immutableLimits.maxRequestHeaderBytes
  immutableRequestTimeout := build.immutableLimits.requestTimeout
  immutableInflightMax := build.immutableLimits.inflightMax
  immutableMaxResponseBodyBytes := build.immutableLimits.maxResponseBodyBytes

/-- Field-wise TLS comparison. -/
def tlsEq : Option TlsConfig → Option TlsConfig → Bool
  | none, none => true
  | some x, some y =>
    x.certPath = y.certPath && x.keyPath = y.keyPath && x.clientCaPath = y.clientCaPath &&
      x.alpnProtocols = y.alpnProtocols
  | _, _ => false

/-- Why a reload fails: the configuration cannot be loaded or is invalid, it changes the
listener's address or another frozen field, or a component does not compile. -/
inductive ReloadError
  | load (source : Str)
  | invalid (err : ConfigError)
  | bind (wasAddr : IpAddr) (wasPort : UInt16) (newAddr : IpAddr) (newPort : UInt16)
  | frozen (path : Str)
  | build (source : Str)
  deriving DecidableEq, Repr

/-- `Display` for a socket address. -/
def displaySocketAddr (addr : IpAddr) (port : UInt16) : Str :=
  match addr with
  | .v4 _ => addr.display ++ ':' :: Nat.toDigits 10 port.toNat
  | .v6 _ => '[' :: addr.display ++ "]:".toList ++ Nat.toDigits 10 port.toNat

/-- The text of a failed reload. -/
def ReloadError.display : ReloadError → Str
  | load source => source
  | invalid err => "invalid configuration at `".toList ++ err.path ++ "`: ".toList ++ err.reason
  | bind wasAddr wasPort newAddr newPort =>
    "server.bind cannot be changed by reload (was ".toList ++
      displaySocketAddr wasAddr wasPort ++ ", requested ".toList ++
      displaySocketAddr newAddr newPort ++ ")".toList
  | frozen path => path ++ " cannot be changed by reload".toList
  | build source => source

/-- Reject a configuration that changes a frozen field. -/
def ReloadHandle.assertImmutable (handle : ReloadHandle) (new : Config) :
    Except ReloadError Unit :=
  let frozen := handle.immutableServer
  -- the listener and the layers are built once
  if (new.server.bindAddr, new.server.bindPort) ≠ (frozen.bindAddr, frozen.bindPort) then
    .error (.bind frozen.bindAddr frozen.bindPort new.server.bindAddr new.server.bindPort)
  else if new.server.http2 ≠ frozen.http2 then .error (.frozen "server.http2")
  else if !tlsEq new.server.tls frozen.tls then .error (.frozen "server.tls")
  else if new.limits.maxRequestBodyBytes ≠ handle.immutableMaxBodyBytes then
    .error (.frozen "limits.max_request_body_bytes")
  else if new.limits.maxRequestHeaderBytes ≠ handle.immutableMaxRequestHeaderBytes then
    .error (.frozen "limits.max_request_header_bytes")
  else if new.limits.requestTimeout ≠ handle.immutableRequestTimeout then
    .error (.frozen "limits.request_timeout")
  else if new.limits.inflightMax ≠ handle.immutableInflightMax then
    .error (.frozen "limits.inflight_max")
  else if new.limits.maxResponseBodyBytes ≠ handle.immutableMaxResponseBodyBytes then
    .error (.frozen "limits.max_response_body_bytes")
  else if new.observability.metricsEndpoint ≠ handle.immutableMetricsEndpoint then
    .error (.frozen "observability.metrics_endpoint")
  else .ok ()

/-- What a reload attempt meets: what reading the configuration yields, which paths are files,
and whether the platform's TLS verifier loads. -/
structure Attempt where
  source : Except Str Config
  isFile : Str → Bool
  tls : Except Str Unit

/-- Load the layered configuration and validate it. -/
def Attempt.load (a : Attempt) : Except ReloadError Config :=
  match a.source with
  | .error err => .error (.load err)
  | .ok config =>
    match config.validate a.isFile with
    | .error err => .error (.invalid err)
    | .ok () => .ok config

/-- A running process: what is frozen, the live snapshot, and the shared state. -/
structure Process (Cell : Type) where
  handle : ReloadHandle
  live : Snapshot
  heap : Heap Cell

/-- What startup freezes of a configuration. -/
def ReloadHandle.ofConfig (config : Config) : ReloadHandle where
  immutableServer := config.server
  immutableMetricsEndpoint := config.observability.metricsEndpoint
  immutableMaxBodyBytes := config.limits.maxRequestBodyBytes
  immutableMaxRequestHeaderBytes := config.limits.maxRequestHeaderBytes
  immutableRequestTimeout := config.limits.requestTimeout
  immutableInflightMax := config.limits.inflightMax
  immutableMaxResponseBodyBytes := config.limits.maxResponseBodyBytes

namespace Process

variable {Cell : Type} (gov : Governor Cell)
  (regexSet : List Str → Except Str RateLimiter.RegexSet)

/-- Start a process from a configuration. -/
def start (tls : Except Str Unit) (config : Config) : Except Str (Process Cell) :=
  match Snapshot.buildFrom gov regexSet tls config none .empty with
  | .error err => .error err
  | .ok (live, heap) => .ok { handle := .ofConfig config, live, heap }

/-- Load a fresh configuration, check that it keeps every frozen field, and swap in the snapshot
built from it. -/
def reload (p : Process Cell) (a : Attempt) : Except ReloadError Unit × Process Cell :=
  match a.load with
  | .error err => (.error err, p)
  | .ok config =>
    match p.handle.assertImmutable config with
    | .error err => (.error err, p)
    | .ok () =>
      match Snapshot.buildFrom gov regexSet a.tls config (some p.live) p.heap with
      | .error err => (.error (.build err), p)
      -- the swap comes last: a failure leaves everything in place
      | .ok (live, heap) => (.ok (), { p with live, heap })

end Process

end Corx
