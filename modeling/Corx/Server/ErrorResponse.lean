import Corx.Error
import Corx.Http

/-!
# Error responses

The status and the slug of every kind of error, and the response that a failed request is
answered with. Bodies are left out, as in every response of the model.
-/

namespace Corx

namespace ErrorKind

/-- The HTTP status code returned to the client. -/
def status : ErrorKind → StatusCode
  | invalidUrl | missingRequiredHeader => .badRequest
  | originNotAllowed | ssrfBlocked | targetNotAllowed | redirectBlocked => .forbidden
  | dnsFailure | upstreamUnreachable => .badGateway
  | tooManyRedirects => .loopDetected
  | payloadTooLarge => .payloadTooLarge
  | rateLimited => .tooManyRequests
  | unauthorized => .unauthorized
  | circuitOpen => .serviceUnavailable
  | internal => .internalServerError

/-- The machine-readable identifier on the wire. -/
def asStr : ErrorKind → Str
  | invalidUrl => "invalid_url"
  | missingRequiredHeader => "missing_required_header"
  | originNotAllowed => "origin_not_allowed"
  | ssrfBlocked => "ssrf_blocked"
  | dnsFailure => "dns_failure"
  | upstreamUnreachable => "upstream_unreachable"
  | tooManyRedirects => "too_many_redirects"
  | rateLimited => "rate_limited"
  | targetNotAllowed => "target_not_allowed"
  | unauthorized => "unauthorized"
  | circuitOpen => "circuit_open"
  | redirectBlocked => "redirect_blocked"
  | payloadTooLarge => "payload_too_large"
  | internal => "internal"

end ErrorKind

/-- The header that exposes the kind of an error. -/
def STATUS_HEADER : HeaderName := ⟨"x-corx-status", by decide⟩

/-- The response to a failed request: `ServerError::into_response`. -/
def ProxyError.intoResponse (err : ProxyError) : Response where
  status := err.kind.status
  headers :=
    (HeaderMap.insertStr .empty .contentType "application/json").insertStr STATUS_HEADER
      err.kind.asStr

/-- Every error response is a client or a server error. -/
theorem ErrorKind.four_hundred_le_status (kind : ErrorKind) : 400 ≤ kind.status.code := by
  cases kind <;> decide

/-- Every error response names the kind of its error. -/
theorem ProxyError.getStr_intoResponse (err : ProxyError) :
    err.intoResponse.headers.getStr STATUS_HEADER = some err.kind.asStr := by
  unfold intoResponse
  cases err.kind <;> decide +kernel

end Corx
