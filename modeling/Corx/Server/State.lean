import Corx.Policy.Circuit
import Corx.Proxy.Cors
import Corx.Proxy.Headers
import Corx.Proxy.Upstream
import Corx.Server.Guards

/-!
# Server state

The policies compiled from a configuration, and the settings frozen at startup. The compiled
rate limiter is an argument of `LivePolicies.build`; the platform's TLS verifier is taken to
load.
-/

namespace Corx

/-- A snapshot of the compiled policies, with the configuration it was built from. -/
structure LivePolicies where
  config : Config
  cors : CorsPolicy
  requestFilter : HeaderFilter
  responseFilter : HeaderFilter
  guard : RequestGuard
  targetPolicy : TargetPolicy
  circuit : CircuitBreaker
  upstream : Upstream

/-- Compile every component from the configuration. -/
def LivePolicies.build (config : Config) (rateLimiter : RateLimiter) :
    Except Str LivePolicies :=
  match HeaderFilter.tryNew config.security.removeRequestHeaders with
  | .error err => .error ("security.remove_request_headers: ".toList ++ err)
  | .ok requestFilter =>
    match HeaderFilter.tryNew config.security.removeResponseHeaders with
    | .error err => .error ("security.remove_response_headers: ".toList ++ err)
    | .ok responseFilter =>
      let targetPolicy := TargetPolicy.fromConfig config.target
      .ok
        { config
          cors := .fromConfig config.cors
          requestFilter
          responseFilter
          guard := { origin := .fromConfig config.security, rateLimit := rateLimiter }
          targetPolicy
          circuit := .fromConfig config.circuitBreaker
          upstream :=
            { config :=
                { poolMaxIdlePerHost := config.upstream.poolMaxIdlePerHost
                  poolIdleTimeout := config.upstream.poolIdleTimeout
                  connectTimeout := config.limits.connectTimeout
                  maxRedirects := config.limits.maxRedirects
                  allowHttpsToHttpDowngrade := config.limits.allowHttpsToHttpDowngrade
                  redirectPolicy := config.limits.redirectPolicy
                  userAgent := config.upstream.userAgent }
              guard := .new config.ssrf
              targetPolicy } }

/-- What the server is built from: the present snapshot, and what is locked at startup. -/
structure ServerBuild where
  policies : LivePolicies
  immutableServer : ServerConfig
  immutableLimits : LimitsConfig
  immutableMetricsEndpoint : Str

/-- Assemble the server from a configuration. -/
def ServerBuild.fromConfig (config : Config) (rateLimiter : RateLimiter) :
    Except Str ServerBuild :=
  match LivePolicies.build config rateLimiter with
  | .error err => .error err
  | .ok policies =>
    .ok
      { policies
        immutableServer := config.server
        immutableLimits := config.limits
        immutableMetricsEndpoint := config.observability.metricsEndpoint }

/-- A result that is not an error is the value it holds. -/
theorem eq_ok_get_toOption {ε α : Type*} {result : Except ε α}
    (h : result.toOption.isSome = true) : result = .ok (result.toOption.get h) := by
  cases result with
  | error err => cases h
  | ok value => rfl

/-- A snapshot keeps the configuration it was built from. -/
theorem LivePolicies.config_of_build {config : Config} {rateLimiter : RateLimiter}
    {policies : LivePolicies} (h : LivePolicies.build config rateLimiter = .ok policies) :
    policies.config = config ∧
      HeaderFilter.tryNew config.security.removeRequestHeaders = .ok policies.requestFilter := by
  unfold LivePolicies.build at h
  split at h
  next => cases h
  next requestFilter hrequest =>
    split at h
    next => cases h
    next =>
      obtain rfl := Except.ok.inj h
      exact ⟨rfl, hrequest⟩

end Corx
