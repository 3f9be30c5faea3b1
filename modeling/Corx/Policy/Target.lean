import Corx.Config
import Corx.Proxy.UrlParser

/-!
# Target host and scheme admission

The compiled target policy, applied to the initial target (`check`) and to the URI of every
hop (`checkUri`). Both come down to `checkAuthority`.
-/

namespace Corx

/-- Compiled target admission policy. Host patterns are in lower case; one that starts with a
dot matches a suffix. -/
structure TargetPolicy where
  mode : TargetMode
  hosts : List Str
  schemes : List Str
  httpsOnly : Bool
  deriving DecidableEq, Repr

/-- An exact host, or a suffix of whole labels for a pattern that starts with a dot. -/
def hostMatches (pattern host : Str) : Bool :=
  match Str.stripPrefix pattern ['.'] with
  | none => host = pattern
  | some suffix => host = suffix || Str.endsWith host pattern

namespace TargetPolicy

/-- Compile from configuration. -/
def fromConfig (cfg : TargetConfig) : TargetPolicy where
  mode := cfg.mode
  hosts := (cfg.hosts.map fun h => (Str.trim h).toAsciiLowercase).filter fun h => !h.isEmpty
  schemes :=
    if cfg.schemes.isEmpty then ["https", "http"]
    else cfg.schemes.map fun s => (Str.trim s).toAsciiLowercase
  httpsOnly := cfg.httpsOnly

/-- Admit or reject a hop identified by scheme and host. -/
def checkAuthority (policy : TargetPolicy) (scheme host : Str) : Except ProxyError Unit :=
  let scheme := scheme.toAsciiLowercase
  if policy.httpsOnly ∧ scheme ≠ "https" then
    .error (.targetNotAllowed ("scheme `".toList ++ scheme ++ "` rejected (https_only)".toList))
  else if !policy.schemes.any fun s => s = scheme then
    .error (.targetNotAllowed ("scheme `".toList ++ scheme ++ "` is not allowed".toList))
  else
    -- a host is matched in lower case, and otherwise as it is spelled
    let host := host.toAsciiLowercase
    let matched := policy.hosts.any fun pattern => hostMatches pattern host
    match policy.mode with
    | .anyPublic => .ok ()
    | .allowlist =>
      -- an empty allowlist admits nothing
      if policy.hosts.isEmpty then .error (.targetNotAllowed "allowlist is empty")
      else if matched then .ok ()
      else
        .error (.targetNotAllowed
          ("host `".toList ++ host ++ "` is not on the allowlist".toList))
    | .denylist =>
      if matched then
        .error (.targetNotAllowed ("host `".toList ++ host ++ "` is denylisted".toList))
      else .ok ()

/-- Admit or reject a parsed target URL. -/
def check (policy : TargetPolicy) (target : TargetUrl) : Except ProxyError Unit :=
  policy.checkAuthority target.url.scheme target.host

/-- Admit or reject the URI of a hop. -/
def checkUri (policy : TargetPolicy) (uri : Uri) : Except ProxyError Unit :=
  match uri.scheme with
  | none => .error (.invalidUrl "hop URI lacks a scheme")
  | some scheme =>
    match uri.host with
    | none => .error (.invalidUrl "hop URI lacks a host")
    | some host => policy.checkAuthority scheme host

end TargetPolicy

end Corx
