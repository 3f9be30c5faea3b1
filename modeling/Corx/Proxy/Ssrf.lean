import Corx.Config
import Corx.Error

/-!
# SSRF guard

`SsrfGuard.checkIp` decides about one address, `SsrfGuard.resolve` about the answer of a DNS
lookup, which is an argument here. Both canonicalise first, so that an IPv4-mapped IPv6
address is judged as the IPv4 address it maps. An address that `resolve` returns is canonical
and passes `checkIp` (`checkIp_of_mem_resolve`).
-/

namespace Corx

/-- The ranges that are never reachable in strict mode. -/
def DEFAULT_BLOCKED_CIDRS : List Str :=
  ["0.0.0.0/8", "10.0.0.0/8", "100.64.0.0/10", "127.0.0.0/8", "169.254.0.0/16",
    "172.16.0.0/12", "192.0.0.0/24", "192.0.2.0/24", "192.168.0.0/16", "198.18.0.0/15",
    "198.51.100.0/24", "203.0.113.0/24", "224.0.0.0/4", "240.0.0.0/4", "255.255.255.255/32",
    "::/128", "::1/128", "::ffff:0:0/96", "64:ff9b::/96", "64:ff9b:1::/48", "100::/64",
    "2001:db8::/32", "2002::/16", "fc00::/7", "fe80::/10", "ff00::/8"]

/-- The private ranges, blocked in permissive mode unless private addresses are allowed. -/
def PRIVATE_RANGES : List Str :=
  ["10.0.0.0/8", "172.16.0.0/12", "192.168.0.0/16", "127.0.0.0/8", "169.254.0.0/16", "::1/128",
    "fc00::/7", "fe80::/10"]

/-- Parse the built-in networks, skipping those that do not parse, and add the extra ones. -/
def compileCidrList (builtin : List Str) (extras : List IpNet) : List IpNet :=
  builtin.filterMap IpNet.parse ++ extras

/-- Every built-in network parses. -/
example : (DEFAULT_BLOCKED_CIDRS ++ PRIVATE_RANGES).all fun raw => (IpNet.parse raw).isSome := by
  decide +kernel

/-- Compiled SSRF guard. -/
structure SsrfGuard where
  mode : SsrfMode
  allowIpv6 : Bool
  blocked : List IpNet
  allowed : List IpNet
  privateRanges : List IpNet
  deriving DecidableEq, Repr

namespace SsrfGuard

/-- Compile from configuration. -/
def new (cfg : SsrfConfig) : SsrfGuard where
  mode := cfg.mode
  allowIpv6 := cfg.allowIpv6
  blocked := compileCidrList DEFAULT_BLOCKED_CIDRS cfg.extraBlockedCidrs
  allowed := compileCidrList [] cfg.extraAllowedCidrs
  privateRanges := compileCidrList PRIVATE_RANGES []

/-- Fold an IPv4-mapped IPv6 address back to the IPv4 address. -/
def canonicalise (addr : IpAddr) : IpAddr :=
  addr.toCanonical

/-- Judge a canonical address; the allowed networks win. -/
def evaluate (guard : SsrfGuard) (ip : IpAddr) : Except ProxyError Unit :=
  if guard.allowed.any fun net => net.contains ip then .ok ()
  else match guard.mode with
    | .strict =>
      if guard.blocked.any fun net => net.contains ip then .error (.ssrfBlocked ip) else .ok ()
    -- permissive mode looks at the private ranges only, never at `blocked`
    | .permissive allowPrivate =>
      if allowPrivate then .ok ()
      else if guard.privateRanges.any fun net => net.contains ip then .error (.ssrfBlocked ip)
      else .ok ()

/-- Validate a literal IP address and return its canonical form. -/
def checkIp (guard : SsrfGuard) (raw : IpAddr) : Except ProxyError IpAddr :=
  let canonical := canonicalise raw
  if !guard.allowIpv6 && canonical.isIpv6 then .error (.ssrfBlocked canonical)
  else match guard.evaluate canonical with
    | .ok () => .ok canonical
    | .error err => .error err

/-- Judge one answer of a lookup: collect it, or remember the violation. -/
def siftStep (guard : SsrfGuard) (acc : List IpAddr × Option ProxyError) (raw : IpAddr) :
    List IpAddr × Option ProxyError :=
  let canonical := canonicalise raw
  -- an address of an unwanted family is passed over, not counted as a violation
  if !guard.allowIpv6 && canonical.isIpv6 then acc
  else match guard.evaluate canonical with
    | .ok () => (acc.1 ++ [canonical], acc.2)
    | .error err => (acc.1, some err)

/-- The admissible addresses among the answers of a lookup, in answer order, and the error of
the last one that violates the policy. -/
def sift (guard : SsrfGuard) (answers : List IpAddr) : List IpAddr × Option ProxyError :=
  answers.foldl guard.siftStep ([], none)

/-- Resolve `host` to every address admissible by policy; `lookupIp` is the DNS resolver. -/
def resolve (guard : SsrfGuard) (lookupIp : Str → Except Str (List IpAddr)) (host : Str) :
    Except ProxyError (List IpAddr) :=
  match IpAddr.parse host with
  | some ip =>
    match guard.checkIp ip with
    | .ok canonical => .ok [canonical]
    | .error err => .error err
  | none =>
    match lookupIp host with
    | .error err => .error (.dns host err)
    | .ok answers =>
      let (admissible, lastViolation) := guard.sift answers
      if !admissible.isEmpty then .ok admissible
      -- one admissible address is enough; otherwise the last violation is the error
      else .error (lastViolation.getD (.dns host "no usable address returned by resolver"))

/-! ## Only checked addresses are returned -/

variable {guard : SsrfGuard}

/-- The canonical form of an address that passes the check passes it too. -/
theorem checkIp_canonicalise (guard : SsrfGuard) (raw : IpAddr) :
    guard.checkIp (canonicalise raw) = guard.checkIp raw := by
  simp [checkIp, canonicalise]

/-- What the check returns is the canonical form. -/
theorem eq_canonicalise_of_checkIp {raw ip : IpAddr} (h : guard.checkIp raw = .ok ip) :
    ip = canonicalise raw := by
  simp only [checkIp] at h
  split at h
  · cases h
  · split at h
    · exact (Except.ok.inj h).symm
    · cases h

/-- An answer is collected only if it passes the check. -/
theorem checkIp_of_mem_siftStep {acc : List IpAddr × Option ProxyError} {raw ip : IpAddr}
    (hacc : ∀ ip ∈ acc.1, guard.checkIp ip = .ok ip) (h : ip ∈ (guard.siftStep acc raw).1) :
    guard.checkIp ip = .ok ip := by
  simp only [siftStep] at h
  split at h
  next => exact hacc ip h
  next hfamily =>
    split at h
    next hok =>
      rcases List.mem_append.mp h with hold | hnew
      · exact hacc ip hold
      · obtain rfl := List.mem_singleton.mp hnew
        rw [checkIp_canonicalise]
        simp only [checkIp, if_neg hfamily, hok]
    next => exact hacc ip h

/-- Every admissible address of a lookup passes the check. -/
theorem checkIp_of_mem_sift {answers : List IpAddr} {ip : IpAddr}
    (h : ip ∈ (guard.sift answers).1) : guard.checkIp ip = .ok ip := by
  -- the fold starts from nothing collected; the induction needs any collection of checked ones
  suffices hgen : ∀ acc : List IpAddr × Option ProxyError,
      (∀ ip ∈ acc.1, guard.checkIp ip = .ok ip) →
      ∀ ip ∈ (answers.foldl guard.siftStep acc).1, guard.checkIp ip = .ok ip from
    hgen ([], none) (by simp) ip h
  clear h ip
  induction answers with
  | nil => exact fun acc hacc => hacc
  | cons raw answers ih =>
    intro acc hacc
    exact ih (guard.siftStep acc raw) fun ip => checkIp_of_mem_siftStep hacc

/-- Every address that `resolve` returns passes the check. -/
theorem checkIp_of_mem_resolve {lookupIp : Str → Except Str (List IpAddr)} {host : Str}
    {addrs : List IpAddr} {ip : IpAddr} (h : guard.resolve lookupIp host = .ok addrs)
    (hip : ip ∈ addrs) : guard.checkIp ip = .ok ip := by
  unfold resolve at h
  split at h
  -- a literal is checked itself, and its canonical form is returned
  next raw _ =>
    split at h
    next canonical hcheck =>
      obtain rfl := Except.ok.inj h
      obtain rfl := List.mem_singleton.mp hip
      rw [eq_canonicalise_of_checkIp hcheck, checkIp_canonicalise, hcheck,
        eq_canonicalise_of_checkIp hcheck]
    next => cases h
  -- a name is looked up, and what passes the sift is returned
  next =>
    split at h
    next => cases h
    next answers _ =>
      dsimp only at h
      split at h
      · obtain rfl := Except.ok.inj h
        exact checkIp_of_mem_sift hip
      · cases h

end SsrfGuard

end Corx
