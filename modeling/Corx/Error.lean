import Corx.Base.IpAddr

/-!
# Error taxonomy

`ProxyError` has one constructor for each failure that the modelled functions produce, with
the data the source attaches to it. Its `ErrorKind` is the stable classification that decides
the HTTP status and the slug on the wire.
-/

namespace Corx

/-- Stable identifier of a failure mode. -/
inductive ErrorKind
  | invalidUrl
  | missingRequiredHeader
  | originNotAllowed
  | ssrfBlocked
  | dnsFailure
  | upstreamUnreachable
  | tooManyRedirects
  | rateLimited
  | targetNotAllowed
  | unauthorized
  | circuitOpen
  | redirectBlocked
  | payloadTooLarge
  | internal
  deriving DecidableEq, Repr

/-- The proxy's error type. `dns` carries the host that was looked up. -/
inductive ProxyError
  | invalidUrl (reason : Str)
  | missingHeader (name : Str)
  | originNotAllowed (origin : Str)
  | ssrfBlocked (addr : IpAddr)
  | dns (host source : Str)
  | upstream (source : Str)
  | tooManyRedirects (limit : UInt8)
  | rateLimited
  | targetNotAllowed (reason : Str)
  | unauthorized (reason : Str)
  | circuitOpen (host : Str)
  | redirectBlocked (reason : Str)
  | payloadTooLarge
  | internal (source : Str)
  deriving DecidableEq, Repr

namespace ProxyError

/-- `ProxyError::kind`. -/
def kind : ProxyError → ErrorKind
  | invalidUrl _ => .invalidUrl
  | missingHeader _ => .missingRequiredHeader
  | originNotAllowed _ => .originNotAllowed
  | ssrfBlocked _ => .ssrfBlocked
  | dns _ _ => .dnsFailure
  | upstream _ => .upstreamUnreachable
  | tooManyRedirects _ => .tooManyRedirects
  | rateLimited => .rateLimited
  | targetNotAllowed _ => .targetNotAllowed
  | unauthorized _ => .unauthorized
  | circuitOpen _ => .circuitOpen
  | redirectBlocked _ => .redirectBlocked
  | payloadTooLarge => .payloadTooLarge
  | internal _ => .internal

end ProxyError

end Corx
