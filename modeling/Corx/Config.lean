import Corx.Base.IpAddr

/-!
# Configuration

The operator's configuration, one structure per section, with the built-in defaults. Times
are natural numbers of nanoseconds; the fixed-width integers of the source keep their width.
A section carries the fields that the modelled functions read: log formats, worker counts,
OpenTelemetry settings and the like are left out.
-/

namespace Corx

/-- A span of time, in nanoseconds, of any length. -/
abbrev Duration := ℕ

/-- A reading of the monotonic clock, in nanoseconds. Adding a duration to it is taken not to
overflow; where it does, the code panics. -/
abbrev Instant := ℕ

/-- `Duration::from_secs`. -/
def Duration.fromSecs (n : ℕ) : Duration := n * 1000000000

/-- `Duration::from_mins`. -/
def Duration.fromMins (n : ℕ) : Duration := Duration.fromSecs (n * 60)

/-! ## Listener -/

/-- TLS configuration for the inbound listener. -/
structure TlsConfig where
  certPath : Str
  keyPath : Str
  clientCaPath : Option Str
  alpnProtocols : List Str
  deriving DecidableEq, Repr

/-- HTTP listener configuration. -/
structure ServerConfig where
  bindAddr : IpAddr
  bindPort : UInt16
  http2 : Bool
  tls : Option TlsConfig
  deriving DecidableEq, Repr

/-- The default listener: `0.0.0.0:8080` without TLS. -/
def ServerConfig.default : ServerConfig where
  bindAddr := .v4 0
  bindPort := 8080
  http2 := true
  tls := none

/-! ## Limits -/

/-- How upstream 3xx responses are handled. -/
inductive RedirectPolicy
  | follow
  | block
  | rewrite
  deriving DecidableEq, Repr

/-- Size- and time-based limits applied to every request. -/
structure LimitsConfig where
  maxRequestBodyBytes : UInt64
  maxRequestHeaderBytes : UInt32
  maxResponseBodyBytes : UInt64
  inflightMax : UInt32
  requestTimeout : Duration
  connectTimeout : Duration
  maxRedirects : UInt8
  allowHttpsToHttpDowngrade : Bool
  redirectPolicy : RedirectPolicy
  deriving DecidableEq, Repr

/-- One mebibyte. -/
def MIB : UInt64 := 1024 * 1024

/-- The default limits. -/
def LimitsConfig.default : LimitsConfig where
  maxRequestBodyBytes := 10 * MIB
  maxRequestHeaderBytes := 32 * 1024
  maxResponseBodyBytes := 50 * MIB
  inflightMax := 1000
  requestTimeout := Duration.fromMins 1
  connectTimeout := Duration.fromSecs 10
  maxRedirects := 5
  allowHttpsToHttpDowngrade := false
  redirectPolicy := .follow

/-! ## CORS -/

/-- CORS policy discriminant. -/
inductive CorsPolicyKind
  | wildcard
  | reflect
  | explicit
  deriving DecidableEq, Repr

/-- CORS response-shaping policy. -/
structure CorsConfig where
  policy : CorsPolicyKind
  origins : List Str
  allowAnyOrigin : Bool
  allowedMethods : List Str
  allowedHeaders : List Str
  exposedHeaders : List Str
  maxAge : Duration
  allowCredentials : Bool
  allowPrivateNetwork : Bool
  deriving DecidableEq, Repr

/-- The default CORS section: reflection, fail-closed. -/
def CorsConfig.default : CorsConfig where
  policy := .reflect
  origins := []
  allowAnyOrigin := false
  allowedMethods := ["GET", "HEAD", "POST", "PUT", "DELETE", "PATCH", "OPTIONS"]
  allowedHeaders := ["accept", "accept-language", "authorization", "content-language",
    "content-type", "x-requested-with", "x-request-id"]
  exposedHeaders := ["x-corx-status", "x-corx-target-url", "x-request-id"]
  maxAge := Duration.fromMins 10
  allowCredentials := false
  allowPrivateNetwork := false

/-! ## Inbound guards -/

/-- How CORS preflight requests are gated. -/
inductive PreflightMode
  | enforce
  | openMode
  deriving DecidableEq, Repr

/-- Preflight-specific security knobs. -/
structure PreflightConfig where
  mode : PreflightMode
  rateLimit : Bool
  deriving DecidableEq, Repr

/-- Preflights are guarded and charged by default. -/
def PreflightConfig.default : PreflightConfig where
  mode := .enforce
  rateLimit := true

/-- Client authentication mode for proxy traffic. -/
inductive AuthMode
  | none
  | bearer
  deriving DecidableEq, Repr

/-- Optional shared-secret authentication. -/
structure AuthConfig where
  mode : AuthMode
  bearerTokens : List Str
  deriving DecidableEq, Repr

/-- No authentication by default. -/
def AuthConfig.default : AuthConfig where
  mode := .none
  bearerTokens := []

/-- Inbound guards. -/
structure SecurityConfig where
  requireHeader : List Str
  blockMethods : List Str
  removeRequestHeaders : List Str
  removeResponseHeaders : List Str
  originBlacklist : List Str
  originWhitelist : List Str
  preflight : PreflightConfig
  auth : AuthConfig
  requireClientBinding : Bool
  deriving DecidableEq, Repr

/-- The default guards. -/
def SecurityConfig.default : SecurityConfig where
  requireHeader := ["origin"]
  blockMethods := ["CONNECT", "TRACE"]
  removeRequestHeaders := ["cookie", "cookie2"]
  removeResponseHeaders := ["set-cookie", "set-cookie2"]
  originBlacklist := []
  originWhitelist := []
  preflight := PreflightConfig.default
  auth := AuthConfig.default
  requireClientBinding := false

/-! ## SSRF protection -/

/-- SSRF protection mode. -/
inductive SsrfMode
  | strict
  | permissive (allowPrivate : Bool)
  deriving DecidableEq, Repr

/-- SSRF protection. -/
structure SsrfConfig where
  mode : SsrfMode
  allowIpv6 : Bool
  extraBlockedCidrs : List IpNet
  extraAllowedCidrs : List IpNet
  deriving DecidableEq, Repr

/-- Strict mode without extra networks. -/
def SsrfConfig.default : SsrfConfig where
  mode := .strict
  allowIpv6 := true
  extraBlockedCidrs := []
  extraAllowedCidrs := []

/-! ## Target admission -/

/-- How host names are filtered. -/
inductive TargetMode
  | anyPublic
  | allowlist
  | denylist
  deriving DecidableEq, Repr

/-- Target URL admission by host and scheme. -/
structure TargetConfig where
  mode : TargetMode
  hosts : List Str
  schemes : List Str
  httpsOnly : Bool
  deriving DecidableEq, Repr

/-- Every host, over `https` or `http`. -/
def TargetConfig.default : TargetConfig where
  mode := .anyPublic
  hosts := []
  schemes := ["https", "http"]
  httpsOnly := false

/-! ## Forwarding headers -/

/-- `Forwarded` / `X-Forwarded-*` / `X-Request-Id` injection. -/
structure ForwardedConfig where
  inject : Bool
  trustInboundXff : Bool
  injectRequestId : Bool
  deriving DecidableEq, Repr

/-- Inject, and trust nothing inbound. -/
def ForwardedConfig.default : ForwardedConfig where
  inject := true
  trustInboundXff := false
  injectRequestId := true

/-! ## Rate limiting -/

/-- The two numbers of one token bucket. -/
structure BucketConfig where
  rps : UInt32
  burst : UInt32
  deriving DecidableEq, Repr

/-- Per-`Origin` rate limiting. -/
structure OriginLimitConfig extends BucketConfig where
  unlimitedPatterns : List Str
  deriving DecidableEq, Repr

/-- Per-client-IP rate limiting. -/
structure IpLimitConfig extends BucketConfig where
  trustedCidrs : List IpNet
  deriving DecidableEq, Repr

/-- Rate limiting over four orthogonal dimensions. -/
structure RateLimitConfig where
  enabled : Bool
  maxKeys : ℕ
  origin : OriginLimitConfig
  ip : IpLimitConfig
  targetHost : BucketConfig
  global : BucketConfig
  deriving DecidableEq, Repr

/-- The default budgets. -/
def RateLimitConfig.default : RateLimitConfig where
  enabled := true
  maxKeys := 16384
  origin := { rps := 50, burst := 100, unlimitedPatterns := [] }
  ip := { rps := 30, burst := 60, trustedCidrs := [] }
  targetHost := { rps := 100, burst := 200 }
  global := { rps := 5000, burst := 10000 }

/-! ## Circuit breaker -/

/-- Per-host circuit breaker configuration. -/
structure CircuitBreakerConfig where
  enabled : Bool
  failureThreshold : UInt32
  window : Duration
  openDuration : Duration
  halfOpenMax : UInt32
  count5xx : Bool
  maxHosts : ℕ
  deriving DecidableEq, Repr

/-- The default thresholds. -/
def CircuitBreakerConfig.default : CircuitBreakerConfig where
  enabled := true
  failureThreshold := 5
  window := Duration.fromSecs 30
  openDuration := Duration.fromSecs 30
  halfOpenMax := 1
  count5xx := true
  maxHosts := 8192

/-! ## Upstream client -/

/-- Upstream HTTP client tuning. -/
structure UpstreamConfig where
  poolMaxIdlePerHost : ℕ
  poolIdleTimeout : Duration
  userAgent : Str
  deriving DecidableEq, Repr

/-- The default client; `version` is the package version compiled in. -/
def UpstreamConfig.default (version : Str) : UpstreamConfig where
  poolMaxIdlePerHost := 32
  poolIdleTimeout := Duration.fromSecs 90
  userAgent := "corx/".toList ++ version

/-! ## The whole configuration -/

/-- Telemetry configuration: the path of the metrics endpoint. -/
structure ObservabilityConfig where
  metricsEndpoint : Str
  deriving DecidableEq, Repr

/-- Top-level configuration. -/
structure Config where
  server : ServerConfig
  limits : LimitsConfig
  cors : CorsConfig
  security : SecurityConfig
  ssrf : SsrfConfig
  target : TargetConfig
  forwarded : ForwardedConfig
  rateLimit : RateLimitConfig
  circuitBreaker : CircuitBreakerConfig
  upstream : UpstreamConfig
  observability : ObservabilityConfig
  deriving DecidableEq, Repr

/-- The built-in configuration of the package version `version`. -/
def Config.default (version : Str) : Config where
  server := ServerConfig.default
  limits := LimitsConfig.default
  cors := CorsConfig.default
  security := SecurityConfig.default
  ssrf := SsrfConfig.default
  target := TargetConfig.default
  forwarded := ForwardedConfig.default
  rateLimit := RateLimitConfig.default
  circuitBreaker := CircuitBreakerConfig.default
  upstream := UpstreamConfig.default version
  observability := { metricsEndpoint := "/metrics" }

end Corx
