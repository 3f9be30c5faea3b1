import Corx.Proxy.Forwarded
import Corx.Server.Outbound
import Corx.Server.State

/-!
# Proxy handler

`serve` takes a request through the guards to one of three ends: an error, the response to a
preflight, or a target to forward to. `executeProxy` forwards: it shapes the outbound request
(`outboundRequest`), executes it against the upstream, and shapes the response
(`shapeResponse`). The request id generated for a request is an argument.
-/

namespace Corx

/-- How the guards leave a request. -/
inductive Served
  | rejected (err : ProxyError)
  | preflight (response : Response)
  | target (target : TargetUrl)

/-- Guard a request: preflights are answered, everything else needs an admitted target. -/
def serve (parsers : Parsers) (policies : LivePolicies) (request : Request) (clientIp : IpAddr) :
    Served :=
  if isPreflight request.method request.headers then
    let preflight := policies.config.security.preflight
    let guarded : Except ProxyError Unit :=
      if preflight.mode = .enforce then
        match policies.guard.checkOrigin request with
        | .error err => .error err
        | .ok () =>
          if preflight.rateLimit then
            let targetHost := (extractTarget parsers request.uri).toOption.map (·.host)
            policies.guard.checkRate request clientIp targetHost
          else .ok ()
      else .ok ()
    match guarded with
    | .error err => .rejected err
    | .ok () => .preflight (buildPreflightResponse request.headers policies.cors)
  else
    match policies.guard.checkOrigin request with
    | .error err => .rejected err
    | .ok () =>
      match extractTarget parsers request.uri with
      | .error err => .rejected err
      | .ok target =>
        -- redirect hops are checked again by the upstream client
        match policies.targetPolicy.check target with
        | .error err => .rejected err
        | .ok () =>
          match policies.guard.checkRate request clientIp (some target.host) with
          | .error err => .rejected err
          | .ok () => .target target

/-- How the guards can leave a request: rejected, answered as a preflight, or with a target that has
passed every check. -/
theorem serve_cases (parsers : Parsers) (policies : LivePolicies) (request : Request)
    (clientIp : IpAddr) :
    (∃ err, serve parsers policies request clientIp = .rejected err) ∨
    (isPreflight request.method request.headers = true ∧
      serve parsers policies request clientIp =
        .preflight (buildPreflightResponse request.headers policies.cors)) ∨
    ∃ target, isPreflight request.method request.headers = false ∧
      policies.guard.checkOrigin request = .ok () ∧
      extractTarget parsers request.uri = .ok target ∧
      policies.targetPolicy.check target = .ok () ∧
      policies.guard.checkRate request clientIp (some target.host) = .ok () ∧
      serve parsers policies request clientIp = .target target := by
  unfold serve
  split
  next hpreflight =>
    dsimp only
    split
    next err _ => exact .inl ⟨err, rfl⟩
    next => exact .inr (.inl ⟨hpreflight, rfl⟩)
  next hpreflight =>
    split
    next err _ => exact .inl ⟨err, rfl⟩
    next horigin =>
      split
      next err _ => exact .inl ⟨err, rfl⟩
      next target hextract =>
        split
        next err _ => exact .inl ⟨err, rfl⟩
        next hcheck =>
          split
          next err _ => exact .inl ⟨err, rfl⟩
          next hrate =>
            exact .inr (.inr
              ⟨target, eq_false_of_ne_true hpreflight, horigin, hextract, hcheck, hrate, rfl⟩)

/-- What the handler knows of the inbound connection. -/
def inboundContext (build : ServerBuild) (request : Request) (clientIp : IpAddr) :
    InboundContext where
  clientIp := some clientIp
  scheme :=
    match request.uri.scheme.filter fun s => !s.isEmpty with
    | some scheme => scheme
    | none => if build.immutableServer.tls.isSome then "https" else "http"
  host := request.headers.getStr .host
  localPort := build.immutableServer.bindPort

/-- The headers after filtering and injection. -/
def injectedHeaders (build : ServerBuild) (request : Request) (target : TargetUrl)
    (clientIp : IpAddr) (requestId : Str) : HeaderMap :=
  inject (build.policies.requestFilter.apply request.headers)
    (inboundContext build request clientIp) target build.policies.config.forwarded requestId

/-- The headers of the outbound request. -/
def outboundHeaders (build : ServerBuild) (request : Request) (target : TargetUrl)
    (clientIp : IpAddr) (requestId : Str) : HeaderMap :=
  let headers := injectedHeaders build request target clientIp requestId
  let headers := injectDefaultUserAgent headers build.policies.upstream.config.userAgent
  setHostFromTarget headers target

/-- The outbound request. -/
def outboundRequest (parsers : Parsers) (build : ServerBuild) (request : Request)
    (target : TargetUrl) (clientIp : IpAddr) (requestId : Str) : Except ProxyError Request :=
  match target.toUri parsers with
  | .error err => .error err
  | .ok uri =>
    .ok
      { method := request.method
        uri
        headers := outboundHeaders build request target clientIp requestId
        body := request.body }

/-- Prefix absolute `Location` values by a slash, so that the next hop comes back to the
proxy. -/
def rewriteLocationHeader (headers : HeaderMap) : HeaderMap :=
  match headers.getStr .location with
  | none => headers
  | some raw =>
    if Str.startsWith raw "http://" || Str.startsWith raw "https://" then
      headers.insertStr .location ('/' :: raw)
    else headers

/-- Shape the headers of the upstream's response. -/
def shapeResponse (parsers : Parsers) (policies : LivePolicies) (target : TargetUrl)
    (response : Response) : Response :=
  -- the CORS headers are left to `corsLayer`
  let headers := policies.responseFilter.apply response.headers
  let headers := headers.insertStr EXPOSE_URL_HEADER (parsers.urlAsStr target.url)
  let headers := appendViaHeader headers
  let headers :=
    if policies.config.limits.redirectPolicy = .rewrite then rewriteLocationHeader headers
    else headers
  { response with headers }

/-- Forward a request: the requests dispatched for it, and the way it ends. -/
def executeProxy (parsers : Parsers) (build : ServerBuild) (request : Request)
    (target : TargetUrl) (clientIp : IpAddr) (requestId : Str) (envs : ℕ → HopEnv) :
    List Dispatch × Option Exit :=
  match outboundRequest parsers build request target clientIp requestId with
  | .error err => ([], some (.returned (.error err)))
  | .ok outbound =>
    match build.policies.upstream.execute parsers build.policies.circuit envs outbound with
    | (dispatches, some (.returned (.ok response))) =>
      -- only a response of the upstream is shaped, no error
      (dispatches, some (.returned (.ok (shapeResponse parsers build.policies target response))))
    | (dispatches, exit) => (dispatches, exit)

/-- The dispatches of a forwarded request are those of the upstream client. -/
theorem executeProxy_fst {parsers : Parsers} {build : ServerBuild} {request outbound : Request}
    {target : TargetUrl} {clientIp : IpAddr} {requestId : Str} (envs : ℕ → HopEnv)
    (h : outboundRequest parsers build request target clientIp requestId = .ok outbound) :
    (executeProxy parsers build request target clientIp requestId envs).1 =
      (build.policies.upstream.execute parsers build.policies.circuit envs outbound).1 := by
  rw [executeProxy, h]
  dsimp only
  split
  next heq => rw [heq]
  next heq => rw [heq]

/-- Filtering is the only step of the outbound shaping that removes a header or touches one it
does not write itself. -/
theorem getAll_outboundHeaders {build : ServerBuild} {request : Request} {target : TargetUrl}
    {clientIp : IpAddr} {requestId : Str} {name : HeaderName}
    (hname : name ∉ HeaderName.userAgent :: HeaderName.host :: FORWARDING_HEADERS) :
    (outboundHeaders build request target clientIp requestId).getAll name =
      (build.policies.requestFilter.apply request.headers).getAll name := by
  simp only [List.mem_cons, not_or] at hname
  obtain ⟨hua, hhost, hforwarding⟩ := hname
  -- the user agent, the forwarding headers and `Host` are the names that shaping writes
  have huser : ∀ headers : HeaderMap, (injectDefaultUserAgent headers
      build.policies.upstream.config.userAgent).getAll name = headers.getAll name := by
    intro headers
    unfold injectDefaultUserAgent
    split
    · rfl
    · exact HeaderMap.getAll_insertStr_of_ne hua
  unfold outboundHeaders injectedHeaders setHostFromTarget
  rw [HeaderMap.getAll_insertStr_of_ne hhost, huser, getAll_inject _ _ _ _ _ hforwarding]

/-- The response keeps what the filter leaves of a header that the shaping does not write. -/
theorem getAll_shapeResponse {parsers : Parsers} {policies : LivePolicies} {target : TargetUrl}
    {response : Response} {name : HeaderName}
    (hname : name ∉ [EXPOSE_URL_HEADER, .via, .location]) :
    (shapeResponse parsers policies target response).headers.getAll name =
      (policies.responseFilter.apply response.headers).getAll name := by
  simp only [List.mem_cons, List.not_mem_nil, or_false, not_or] at hname
  obtain ⟨hexpose, hvia, hlocation⟩ := hname
  have hrewrite : ∀ headers : HeaderMap,
      (rewriteLocationHeader headers).getAll name = headers.getAll name := by
    intro headers
    unfold rewriteLocationHeader
    split
    · rfl
    · split
      · exact HeaderMap.getAll_insertStr_of_ne hlocation
      · rfl
  have hshaped : ∀ headers : HeaderMap,
      (appendViaHeader (headers.insertStr EXPOSE_URL_HEADER
        (parsers.urlAsStr target.url))).getAll name = headers.getAll name := by
    intro headers
    rw [appendViaHeader, HeaderMap.getAll_insertStr_of_ne hvia,
      HeaderMap.getAll_insertStr_of_ne hexpose]
  unfold shapeResponse
  dsimp only
  split
  · rw [hrewrite, hshaped]
  · exact hshaped _

end Corx
