import Corx.Proxy.UrlParser

/-!
# Redirect handling

`prepareNext` computes the request of the next hop from a redirect response and the state kept
from the requests before it. A follow-up never has a body; its headers are the inherited ones,
without credentials and `Host` once the authority has changed. `prepareNext_eq_continueWith`
says when a hop is continued, and with what.
-/

namespace Corx

/-- Headers that must never survive a cross-host redirect. -/
def SENSITIVE_HEADERS : List HeaderName :=
  [.authorization, ⟨"cookie", by decide⟩, .proxyAuthorization,
    ⟨"authentication-info", by decide⟩, ⟨"www-authenticate", by decide⟩]

/-- What is kept between hops: the method, the headers to inherit and the current URI. -/
structure RedirectState where
  method : Method
  headers : HeaderMap
  uri : Uri

/-- The state that the initial request leaves. -/
def RedirectState.fromInitial (method : Method) (uri : Uri) (headers : HeaderMap) :
    RedirectState where
  method := method
  headers := headers
  uri := uri

/-- The status codes that are followed. -/
def isRedirect (status : StatusCode) : Bool :=
  status = .movedPermanently || status = .found || status = .seeOther ||
    status = .temporaryRedirect || status = .permanentRedirect

/-- What to do about a redirect. -/
inductive NextHop
  | continueWith (request : Request)
  | stop (reason : Str)

/-- Only `http` and `https` are followed. -/
def requireSafeScheme (uri : Uri) : Except ProxyError Unit :=
  match uri.scheme with
  | some scheme =>
    if scheme = "http" ∨ scheme = "https" then .ok ()
    else .error (.invalidUrl ("redirect to unsupported scheme `".toList ++ scheme ++ "`".toList))
  | none => .error (.invalidUrl "redirect Location lacks a scheme")

/-- The redirect gives up TLS. -/
def isHttpsToHttpDowngrade (source next : Uri) : Bool :=
  source.scheme = some ("https" : Str) && next.scheme = some ("http" : Str)

/-- The URI that a `Location` value names, relative to `base`. -/
def resolveLocation (parsers : Parsers) (base : Uri) (location : Str) : Except ProxyError Uri :=
  if Str.contains location "://" then
    match parsers.uriParse location with
    | .ok uri => .ok uri
    | .error err => .error (.invalidUrl ("invalid redirect target: ".toList ++ err))
  else
    -- the rest is resolved by the `url` crate, back and forth between the types of the crates
    match parsers.urlParse (parsers.uriToString base) with
    | .error err => .error (.invalidUrl ("uri-to-url failed: ".toList ++ err))
    | .ok baseUrl =>
      match parsers.urlJoin baseUrl location with
      | .error err => .error (.invalidUrl ("cannot resolve redirect: ".toList ++ err))
      | .ok resolved =>
        match parsers.uriParse (parsers.urlAsStr resolved) with
        | .ok uri => .ok uri
        | .error err => .error (.invalidUrl ("invalid resolved redirect: ".toList ++ err))

/-- The methods whose requests carry a body. -/
def bodyBearing (method : Method) : Bool :=
  method = .post || method = .put || method = .patch

/-- The method of the next hop, and whether the body is dropped. -/
def classifyTransition (method : Method) (status : StatusCode) : Method × Bool :=
  if status = .movedPermanently ∨ status = .found ∨ status = .seeOther then
    -- only the methods with a body are rewritten, and they lose it
    if bodyBearing method then (.get, true) else (method, false)
  else (method, false)

/-- The authorities differ, up to ASCII case. A URI without one differs from every URI. -/
def authorityDiffers (a b : Uri) : Bool :=
  match a.authority, b.authority with
  | some x, some y => !Str.eqIgnoreAsciiCase x y
  | _, _ => true

/-- `empty_upstream_body`. -/
def emptyUpstreamBody : List UInt8 := []

/-- The headers without the sensitive ones and `Host`. -/
def stripCredentials (headers : HeaderMap) : HeaderMap :=
  (headers.removeAll SENSITIVE_HEADERS).remove .host

/-- Compute the request of the next hop. The state is returned with it: the code updates it in
place, and only when the hop is continued. -/
def prepareNext (parsers : Parsers) (state : RedirectState) (response : Response)
    (allowHttpsToHttpDowngrade : Bool) : Except ProxyError (NextHop × RedirectState) :=
  match response.headers.get .location with
  | none => .ok (.stop "no Location header", state)
  | some location =>
    match location.toStr with
    | none => .ok (.stop "non-utf8 Location header", state)
    | some locationStr =>
      match resolveLocation parsers state.uri locationStr with
      | .error err => .error err
      | .ok nextUri =>
        match requireSafeScheme nextUri with
        | .error err => .error err
        | .ok () =>
          if !allowHttpsToHttpDowngrade && isHttpsToHttpDowngrade state.uri nextUri then
            .error (.invalidUrl "https → http redirect downgrade rejected")
          else
            let crossHost := authorityDiffers state.uri nextUri
            let (nextMethod, dropBody) := classifyTransition state.method response.status
            if !dropBody && bodyBearing nextMethod then
              .ok (.stop "307/308 with body-bearing method cannot be safely replayed", state)
            else
              let state : RedirectState :=
                { method := nextMethod
                  headers := if crossHost then stripCredentials state.headers else state.headers
                  uri := nextUri }
              -- the builder copies the headers into an empty map
              .ok (.continueWith
                { method := nextMethod
                  uri := nextUri
                  headers := MultiMap.empty.extend state.headers
                  body := emptyUpstreamBody }, state)

/-- The state after a hop to `nextUri`. -/
def RedirectState.follow (state : RedirectState) (status : StatusCode) (nextUri : Uri) :
    RedirectState where
  method := (classifyTransition state.method status).1
  headers :=
    if authorityDiffers state.uri nextUri then stripCredentials state.headers else state.headers
  uri := nextUri

/-- The follow-up request of a state: no body, and the headers it keeps. -/
def RedirectState.request (state : RedirectState) : Request where
  method := state.method
  uri := state.uri
  headers := state.headers
  body := emptyUpstreamBody

/-- A continued hop goes to the HTTP URI that the `Location` of the response resolves to, gives up
TLS only where that is allowed, and its request is that of the state it leaves. -/
theorem prepareNext_eq_continueWith {parsers : Parsers} {state state' : RedirectState}
    {response : Response} {allow : Bool} {request : Request}
    (h : prepareNext parsers state response allow = .ok (.continueWith request, state')) :
    ∃ nextUri, (∃ location, response.headers.getStr .location = some location ∧
        resolveLocation parsers state.uri location = .ok nextUri) ∧
      requireSafeScheme nextUri = .ok () ∧
      (allow = false → isHttpsToHttpDowngrade state.uri nextUri = false) ∧
      state' = state.follow response.status nextUri ∧ request = state'.request := by
  unfold prepareNext at h
  split at h
  next => cases h
  next location hlocation =>
    split at h
    next => cases h
    next locationStr htext =>
      split at h
      next => cases h
      next nextUri hresolve =>
        split at h
        -- every other exit stops the chain or is an error
        next => cases h
        next hsafe =>
          split at h
          next => cases h
          next hkept =>
            dsimp only at h
            split at h
            next => cases h
            next =>
              obtain ⟨hrequest, rfl⟩ := Prod.ext_iff.mp (Except.ok.inj h)
              -- the guards passed on the way are what is stated of the next URI
              refine ⟨nextUri, ⟨locationStr, ?_, hresolve⟩, hsafe, fun hallow => ?_, rfl, ?_⟩
              · rw [HeaderMap.getStr, hlocation, Option.bind_some, htext]
              · simpa [hallow] using hkept
              · rw [← NextHop.continueWith.inj hrequest, MultiMap.empty_extend]
                rfl

/-- Only `http` and `https` are safe schemes. -/
theorem requireSafeScheme_eq_ok {uri : Uri} (h : requireSafeScheme uri = .ok ()) :
    uri.scheme = some ("http" : Str) ∨ uri.scheme = some ("https" : Str) := by
  unfold requireSafeScheme at h
  split at h
  next scheme hscheme =>
    split at h
    next hsafe => rw [hscheme]; exact hsafe.imp (congrArg some) (congrArg some)
    next => cases h
  next => cases h

end Corx
