import Corx.Config
import Corx.Proxy.UrlParser

/-!
# Forwarding headers

`inject` stamps `Forwarded`, `X-Forwarded-*` and `X-Request-Id` onto the headers of an outbound
request. The request id that the source generates at random is an argument. Of the header map
`inject` writes the forwarding names only (`getAll_inject`).
-/

namespace Corx

/-- `x-request-id`. -/
def REQUEST_ID_HEADER : HeaderName := ⟨"x-request-id", by decide⟩

/-- `x-forwarded-for`. -/
def X_FORWARDED_FOR : HeaderName := ⟨"x-forwarded-for", by decide⟩

/-- `x-forwarded-proto`. -/
def X_FORWARDED_PROTO : HeaderName := ⟨"x-forwarded-proto", by decide⟩

/-- `x-forwarded-host`. -/
def X_FORWARDED_HOST : HeaderName := ⟨"x-forwarded-host", by decide⟩

/-- `x-forwarded-port`. -/
def X_FORWARDED_PORT : HeaderName := ⟨"x-forwarded-port", by decide⟩

/-- `forwarded`. -/
def FORWARDED : HeaderName := ⟨"forwarded", by decide⟩

/-- What is known of the inbound connection. -/
structure InboundContext where
  clientIp : Option IpAddr
  scheme : Str
  host : Option Str
  localPort : UInt16
  deriving DecidableEq, Repr

/-- Generate a request id where the client supplied none. -/
def ensureRequestId (headers : HeaderMap) (id : Str) : HeaderMap :=
  if headers.containsKey REQUEST_ID_HEADER then headers
  else headers.insertStr REQUEST_ID_HEADER id

/-- Append the client to the inbound `X-Forwarded-For`. -/
def appendXff (headers : HeaderMap) (client : IpAddr) : HeaderMap :=
  headers.insertStr X_FORWARDED_FOR
    (match headers.getStr X_FORWARDED_FOR with
    | some prev => prev ++ ", ".toList ++ client.display
    | none => client.display)

/-- Replace the inbound `X-Forwarded-For` by the client. -/
def replaceXff (headers : HeaderMap) (client : IpAddr) : HeaderMap :=
  headers.insertStr X_FORWARDED_FOR client.display

/-- The `Forwarded` element of this hop. -/
def buildForwardedValue (inbound : InboundContext) (target : TargetUrl) : Option HeaderValue :=
  let forPart := match inbound.clientIp with
    | some (.v4 a) => ["for=".toList ++ IpAddr.displayV4 a]
    -- an IPv6 address stands in brackets and in quotes, RFC 7239, section 6
    | some (.v6 a) => ["for=\"[".toList ++ IpAddr.displayV6 a ++ "]\"".toList]
    | none => []
  let protoPart := ["proto=".toList ++ inbound.scheme]
  let hostPart := match inbound.host with
    | some host => ["host=".toList ++ host]
    | none => []
  let byPart := ["by=".toList ++ target.host]
  HeaderValue.fromStr (Str.join [';'] (forPart ++ protoPart ++ hostPart ++ byPart))

/-- The part of `inject` that `cfg.inject` switches on. -/
def injectForwarded (headers : HeaderMap) (inbound : InboundContext) (target : TargetUrl)
    (trustInboundXff : Bool) : HeaderMap :=
  let headers := match inbound.clientIp with
    | some client =>
      if trustInboundXff then appendXff headers client else replaceXff headers client
    | none => headers
  let headers := headers.insertStr X_FORWARDED_PROTO inbound.scheme
  let headers := match inbound.host with
    | some host => headers.insertStr X_FORWARDED_HOST host
    -- without a `Host` the `X-Forwarded-Host` of the client stays
    | none => headers
  let headers := headers.insertStr X_FORWARDED_PORT (Str.ofNat inbound.localPort.toNat)
  match buildForwardedValue inbound target with
  | some value => headers.insert FORWARDED value
  | none => headers

/-- Stamp the forwarding headers and the request id onto outbound headers. -/
def inject (headers : HeaderMap) (inbound : InboundContext) (target : TargetUrl)
    (cfg : ForwardedConfig) (requestId : Str) : HeaderMap :=
  let headers := if cfg.injectRequestId then ensureRequestId headers requestId else headers
  if !cfg.inject then headers
  else injectForwarded headers inbound target cfg.trustInboundXff

/-- The names that `inject` writes. -/
def FORWARDING_HEADERS : List HeaderName :=
  [REQUEST_ID_HEADER, X_FORWARDED_FOR, X_FORWARDED_PROTO, X_FORWARDED_HOST, X_FORWARDED_PORT,
    FORWARDED]

/-- The request id is written next to the other headers. -/
theorem getAll_ensureRequestId (headers : HeaderMap) (cfg : ForwardedConfig) (requestId : Str)
    {name : HeaderName} (hname : name ≠ REQUEST_ID_HEADER) :
    (if cfg.injectRequestId then ensureRequestId headers requestId else headers).getAll name =
      headers.getAll name := by
  unfold ensureRequestId
  split
  · split
    · rfl
    · exact HeaderMap.getAll_insertStr_of_ne hname
  · rfl

/-- Injection leaves every other header as it is. -/
theorem getAll_inject (headers : HeaderMap) (inbound : InboundContext) (target : TargetUrl)
    (cfg : ForwardedConfig) (requestId : Str) {name : HeaderName}
    (hname : name ∉ FORWARDING_HEADERS) :
    (inject headers inbound target cfg requestId).getAll name = headers.getAll name := by
  simp only [FORWARDING_HEADERS, List.mem_cons, List.not_mem_nil, or_false, not_or] at hname
  obtain ⟨hid, hxff, hproto, hhost, hport, hfwd⟩ := hname
  -- the request id first, then the forwarding headers one after the other
  have hrequestId := getAll_ensureRequestId headers cfg requestId hid
  have hforwarded : ∀ headers : HeaderMap,
      (injectForwarded headers inbound target cfg.trustInboundXff).getAll name =
        headers.getAll name := by
    intro headers
    have hstart : ∀ client : IpAddr, (if cfg.trustInboundXff then appendXff headers client
        else replaceXff headers client).getAll name = headers.getAll name := by
      intro client
      unfold appendXff replaceXff
      split <;> exact HeaderMap.getAll_insertStr_of_ne hxff
    unfold injectForwarded
    dsimp only
    -- whichever of the optional headers are written, each writes a name other than this one
    split <;> cases inbound.clientIp <;> cases inbound.host <;>
      simp only [MultiMap.getAll_insert, if_neg hfwd, HeaderMap.getAll_insertStr_of_ne hport,
        HeaderMap.getAll_insertStr_of_ne hhost, HeaderMap.getAll_insertStr_of_ne hproto, hstart]
  unfold inject
  dsimp only
  split
  · exact hrequestId
  · rw [hforwarded, hrequestId]

end Corx
