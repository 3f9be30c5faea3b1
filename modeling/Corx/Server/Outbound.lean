import Corx.Proxy.UrlParser

/-!
# Outbound shaping helpers

The `User-Agent`, `Host` and `Via` headers that the proxy handler stamps.
-/

namespace Corx

/-- The header that advertises the resolved upstream URL. -/
def EXPOSE_URL_HEADER : HeaderName := ⟨"x-corx-target-url", by decide⟩

/-- The token of this hop in the `Via` header. -/
def VIA_HEADER_VALUE : Str := "1.1 corx"

/-- Insert the configured `User-Agent` where the client supplied none. -/
def injectDefaultUserAgent (headers : HeaderMap) (defaultUa : Str) : HeaderMap :=
  if headers.containsKey .userAgent then headers else headers.insertStr .userAgent defaultUa

/-- Replace the `Host` header by the authority of the target. -/
def setHostFromTarget (headers : HeaderMap) (target : TargetUrl) : HeaderMap :=
  headers.insertStr .host target.authority

/-- Append the token of this hop to the first `Via` header; a value that is not text is
replaced. -/
def appendViaHeader (headers : HeaderMap) : HeaderMap :=
  headers.insertStr .via
    (match headers.getStr .via with
    | some s => s ++ ", ".toList ++ VIA_HEADER_VALUE
    | none => VIA_HEADER_VALUE)

end Corx
