import Corx.Config
import Corx.Error
import Corx.Http

/-!
# Inbound guards

The origin policy, and the guard that bundles it with the rate limiter. The rate limiter is its
verdicts in its present state.
-/

namespace Corx

/-- Compiled origin policy. -/
structure OriginPolicy where
  blacklist : List Str
  whitelist : List Str
  blockedMethods : List Method
  requiredHeaderAnyOf : List Str
  deriving DecidableEq, Repr

namespace OriginPolicy

/-- Compile from configuration; a method that does not parse is skipped. -/
def fromConfig (cfg : SecurityConfig) : OriginPolicy where
  blacklist := cfg.originBlacklist
  whitelist := cfg.originWhitelist
  blockedMethods := cfg.blockMethods.filterMap fun raw => Method.parse (raw.map Char.toUpper)
  requiredHeaderAnyOf := cfg.requireHeader.map Str.toAsciiLowercase

/-- Judge the origin by the black list and, where there is one, the white list. -/
def checkLists (policy : OriginPolicy) (origin : Option Str) : Except ProxyError Unit :=
  match origin with
  | some origin =>
    -- the blacklist wins over the whitelist
    if policy.blacklist.contains origin then .error (.originNotAllowed origin)
    else if !policy.whitelist.isEmpty && !policy.whitelist.contains origin then
      .error (.originNotAllowed origin)
    else .ok ()
  | none =>
    -- with a whitelist a request has to name its origin
    if !policy.whitelist.isEmpty then .error (.originNotAllowed "<missing origin>") else .ok ()

/-- Validate an inbound request. -/
def evaluate (policy : OriginPolicy) (method : Method) (headers : HeaderMap) :
    Except ProxyError Unit :=
  if policy.blockedMethods.contains method then
    .error (.originNotAllowed ("method `".toList ++ method.asStr ++ "` is blocked".toList))
  else
    match policy.checkLists (headers.getStr .origin) with
    | .error err => .error err
    | .ok () =>
      -- any of the headers will do, whatever its value
      if !policy.requiredHeaderAnyOf.isEmpty &&
          !policy.requiredHeaderAnyOf.any fun name =>
            (HeaderName.parse name).any fun name => headers.containsKey name then
        .error (.missingHeader "required inbound header")
      else .ok ()

end OriginPolicy

/-- What the rate limiter is told about a request. -/
structure RateContext where
  origin : Option Str
  clientIp : IpAddr
  targetHost : Option Str
  deriving DecidableEq, Repr

/-- The verdicts of the rate limiter in its present state. -/
abbrev RateLimiter := RateContext → Except ProxyError Unit

/-- The inbound checks. -/
structure RequestGuard where
  origin : OriginPolicy
  rateLimit : RateLimiter

namespace RequestGuard

/-- Check the origin, the required headers and the blocked methods. -/
def checkOrigin (guard : RequestGuard) (request : Request) : Except ProxyError Unit :=
  guard.origin.evaluate request.method request.headers

/-- Check the rate limits. -/
def checkRate (guard : RequestGuard) (request : Request) (clientIp : IpAddr)
    (targetHost : Option Str) : Except ProxyError Unit :=
  guard.rateLimit { origin := request.headers.getStr .origin, clientIp, targetHost }

end RequestGuard

end Corx
