import Corx.Proxy.AddressForms
import Corx.Server.Snapshots

/-!
# The query form and the router

A request in the query form has the path `/`, which is an operational route. Routes match on the
path alone and win over the fallback, so such a request never reaches the proxy handler: it gets
the usage text, whatever target its query holds (`queryForm_not_served`).
-/

namespace Corx

/-- A `GET` request with the given URI and headers. -/
def getRequest (uri : Uri) (headers : HeaderMap) : Request where
  method := .get
  uri
  headers
  body := []

/-- The query form of a target is served by the proxy handler: no operational handler takes it,
and it fares as the path form does. -/
structure QueryFormServed (parsers : Parsers) (routeMatches : Str → Str → Bool)
    (build : ServerBuild) (keep : Char → Bool) (T : Str) (headers : HeaderMap)
    (clientIp : IpAddr) (requestId : Str) : Prop where
  not_ops : handle parsers routeMatches build (getRequest (queryForm keep T) headers) clientIp
    requestId ≠ .ops
  like_pathForm : handle parsers routeMatches build (getRequest (queryForm keep T) headers)
      clientIp requestId =
    handle parsers routeMatches build (getRequest (pathForm T) headers) clientIp requestId

variable {parsers : Parsers} {routeMatches : Str → Str → Bool} {build : ServerBuild}
  {request : Request} {clientIp : IpAddr} {requestId : Str}

/-- The path of a request in the query form. -/
theorem path_queryForm (keep : Char → Bool) (T : Str) : (queryForm keep T).path = ['/'] := by
  unfold queryForm Uri.originForm
  rw [show "/?url=".toList = '/' :: '?' :: "url=".toList by decide, List.cons_append,
    List.cons_append, List.takeWhile_cons_of_pos (by decide),
    List.takeWhile_cons_of_pos (by decide)]
  rfl

/-- A request for the root passes the authentication layer and is taken by its route. -/
theorem handle_of_root (hroot : routeMatches "/" "/" = true)
    (hpath : request.uri.path = ['/']) :
    handle parsers routeMatches build request clientIp requestId = .ops := by
  have hexempt : isOpsPath request.uri.path build = true := by
    rw [isOpsPath, hpath]
    rfl
  have hauth : authLayer build request = .ok () := by
    rw [authLayer, if_pos (by rw [hexempt, Bool.or_true])]
  have hrouted : opsRouted routeMatches build request.uri.path = true := by
    rw [opsRouted, hpath, List.any_eq_true]
    exact ⟨"/", List.mem_append_left _ List.mem_cons_self, hroot⟩
  unfold handle
  rw [hauth]
  dsimp only
  rw [if_pos hrouted]

/-- With a route that matches its own path, no request in the query form is served by the proxy
handler. -/
theorem queryForm_not_served {parsers : Parsers} {routeMatches : Str → Str → Bool}
    {build : ServerBuild} (hroot : routeMatches "/" "/" = true) (keep : Char → Bool) (T : Str)
    (headers : HeaderMap) (clientIp : IpAddr) (requestId : Str) :
    ¬ QueryFormServed parsers routeMatches build keep T headers clientIp requestId :=
  fun h => h.not_ops (handle_of_root hroot (path_queryForm keep T))

/-- A request for a target in the query. -/
def documentedQuery : Request :=
  getRequest (queryForm encodesComponent plainTarget) plainOptions.headers

/-- A target in the query is not served. -/
theorem queryForm_not_served_plain :
    ¬ QueryFormServed .plain literalRoutes denyBuild encodesComponent plainTarget
      plainOptions.headers (.v4 0) [] :=
  queryForm_not_served (by decide) encodesComponent plainTarget plainOptions.headers (.v4 0) []

/-- The query form of a target holds the target, and the path form of it is forwarded; the query
form is answered by an operational handler. -/
theorem usage_for_documented_query :
    (extractTarget .plain documentedQuery.uri).toOption.map (·.url) = some plainUrl ∧
    (handle .plain literalRoutes denyBuild
      (getRequest (pathForm plainTarget) plainOptions.headers) (.v4 0) []).isForwarded = true ∧
    handle .plain literalRoutes denyBuild documentedQuery (.v4 0) [] = .ops ∧
    ¬ QueryFormServed .plain literalRoutes denyBuild encodesComponent plainTarget
      plainOptions.headers (.v4 0) [] := by
  have hops : handle .plain literalRoutes denyBuild documentedQuery (.v4 0) [] = .ops :=
    handle_of_root (by decide) (path_queryForm _ _)
  exact ⟨by decide +kernel, by decide +kernel, hops, fun h => h.not_ops hops⟩

end Corx
