import Corx.Server.Auth
import Corx.Server.Handler

/-!
# Router

A request passes the authentication layer and is then routed: to an operational handler where
its path matches one of their routes, and else to the proxy handler. Whether a route pattern
matches a path is up to `axum`; it is the parameter `routeMatches`.
-/

namespace Corx

/-- The routes of the operational handlers. -/
def opsRoutes (build : ServerBuild) : List Str :=
  (["/", "/livez", "/readyz", "/healthz", "/iscorsneeded"] : List Str) ++
    if !build.immutableMetricsEndpoint.isEmpty then [build.immutableMetricsEndpoint] else []

/-- The path belongs to an operational handler. -/
def opsRouted (routeMatches : Str → Str → Bool) (build : ServerBuild) (path : Str) : Bool :=
  (opsRoutes build).any fun route => routeMatches route path

/-- What becomes of a request. -/
inductive Handled
  | unauthorized (err : ProxyError)
  | ops
  | rejected (err : ProxyError)
  | preflight (response : Response)
  | forwarded (outbound : Request)

/-- Take a request through the authentication layer and the router. It is forwarded once the
upstream client is given its outbound request. -/
def handle (parsers : Parsers) (routeMatches : Str → Str → Bool) (build : ServerBuild)
    (request : Request) (clientIp : IpAddr) (requestId : Str) : Handled :=
  match authLayer build request with
  | .error err => .unauthorized err
  | .ok () =>
    -- a route takes the request whatever its method; the handlers answer `GET`
    if opsRouted routeMatches build request.uri.path then .ops
    else match serve parsers build.policies request clientIp with
      | .rejected err => .rejected err
      | .preflight response => .preflight response
      | .target target =>
        match outboundRequest parsers build request target clientIp requestId with
        | .error err => .rejected err
        | .ok outbound => .forwarded outbound

/-- Stamp CORS headers onto whatever response comes back: `cors_layer`. -/
def corsLayer (policies : LivePolicies) (requestHeaders : HeaderMap) (response : Response) :
    Response :=
  { response with headers := applyToResponse response.headers requestHeaders policies.cors }

/-- The request reached the upstream client. -/
def Handled.isForwarded : Handled → Bool
  | .forwarded _ => true
  | _ => false

/-- A request that reached the upstream client was forwarded as some outbound request. -/
theorem Handled.exists_of_isForwarded {handled : Handled} (h : handled.isForwarded = true) :
    ∃ outbound, handled = .forwarded outbound := by
  cases handled <;> simp_all [isForwarded]

variable {parsers : Parsers} {routeMatches : Str → Str → Bool} {build : ServerBuild}
  {request outbound : Request} {clientIp : IpAddr} {requestId : Str}

/-- A preflight is answered or rejected. -/
theorem serve_of_isPreflight (policies : LivePolicies)
    (h : isPreflight request.method request.headers = true) (target : TargetUrl) :
    serve parsers policies request clientIp ≠ .target target := by
  obtain ⟨err, hserve⟩ | ⟨-, hserve⟩ | ⟨_, hnot, -⟩ := serve_cases parsers policies request clientIp
  · rw [hserve]
    exact Served.noConfusion
  · rw [hserve]
    exact Served.noConfusion
  · rw [h] at hnot
    cases hnot

/-- A forwarded request has passed the authentication layer, is not for an operational handler
and is not a preflight. -/
theorem handle_eq_forwarded
    (h : handle parsers routeMatches build request clientIp requestId = .forwarded outbound) :
    authLayer build request = .ok () ∧ opsRouted routeMatches build request.uri.path = false ∧
      isPreflight request.method request.headers = false := by
  unfold handle at h
  split at h
  next => cases h
  next hauth =>
    split at h
    next => cases h
    next hops =>
      split at h
      next => cases h
      next => cases h
      next target hserve =>
        refine ⟨hauth, eq_false_of_ne_true hops, eq_false_of_ne_true fun hpreflight => ?_⟩
        exact serve_of_isPreflight _ hpreflight target hserve

end Corx
