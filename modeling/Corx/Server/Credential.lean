import Corx.Config.Validate
import Corx.Proxy.LoopRuns
import Corx.Server.Authentication

/-!
# The client's credential

A bearer token authenticates the client to the proxy in the `Authorization` header, and the proxy
forwards that header like any other: it is up to the configured removals, or to the client, to
strip it. Where it is stripped no hop of any chain carries it, and two requests that differ in it
are forwarded alike; where it is not, it goes out with the first hop (`authorization_confined`).
-/

namespace Corx

/-- The request filter strips `Authorization` from a request: the configuration removes it, in
some letter case, or the request's own `Connection` header lists it. -/
def StripsAuthorization (config : Config) (headers : HeaderMap) : Prop :=
  (∃ raw ∈ config.security.removeRequestHeaders,
    HeaderName.parse raw = some .authorization) ∨
  .authorization ∈ connectionListed headers

/-- The requests differ in their `Authorization` only. -/
structure SameButAuthorization (request request' : Request) : Prop where
  method : request.method = request'.method
  uri : request.uri = request'.uri
  headers : MultiMap.AgreeOff {.authorization} request.headers request'.headers
  body : request.body = request'.body

variable {config : Config} {rateLimiter : RateLimiter} {parsers : Parsers} {build : ServerBuild}
  {request request' : Request} {target : TargetUrl} {clientIp : IpAddr} {requestId : Str}
  {envs : ℕ → HopEnv}

/-- A server's request filter is compiled from the configuration it was built from. -/
theorem ServerBuild.requestFilter_of_fromConfig
    (h : ServerBuild.fromConfig config rateLimiter = .ok build) :
    HeaderFilter.tryNew config.security.removeRequestHeaders =
      .ok build.policies.requestFilter := by
  unfold ServerBuild.fromConfig at h
  split at h
  next => cases h
  next policies hpolicies =>
    obtain rfl := Except.ok.inj h
    exact (LivePolicies.config_of_build hpolicies).2

/-- The compiled filter strips `Authorization` exactly where the configuration and the request
say so. -/
theorem authorization_mem_stripped (h : ServerBuild.fromConfig config rateLimiter = .ok build)
    (headers : HeaderMap) :
    .authorization ∈ build.policies.requestFilter.stripped headers ↔
      StripsAuthorization config headers := by
  have hdeny : HeaderName.authorization ∈ build.policies.requestFilter.extraDeny ↔ _ :=
    HeaderFilter.mem_extraDeny_iff (ServerBuild.requestFilter_of_fromConfig h)
  have hhop : HeaderName.authorization ∉ HOP_BY_HOP := by decide
  rw [HeaderFilter.stripped, List.mem_append, List.mem_append, hdeny, StripsAuthorization,
    or_iff_left hhop, or_comm]

/-- The outbound request carries the client's `Authorization` unless the filter strips it. -/
theorem getAll_authorization_outboundRequest {outbound : Request}
    (h : outboundRequest parsers build request target clientIp requestId = .ok outbound) :
    outbound.headers.getAll .authorization =
      if .authorization ∈ build.policies.requestFilter.stripped request.headers then []
      else request.headers.getAll .authorization := by
  rw [outboundRequest] at h
  split at h
  next => cases h
  next =>
    obtain rfl := Except.ok.inj h
    dsimp only
    rw [getAll_outboundHeaders (by decide), HeaderFilter.apply_eq, MultiMap.getAll_removeAll]

/-- The outbound requests of two requests that differ in a stripped `Authorization` are equal. -/
theorem outboundRequest_congr (hsame : SameButAuthorization request request')
    (hstrips : .authorization ∈ build.policies.requestFilter.stripped request.headers) :
    outboundRequest parsers build request target clientIp requestId =
      outboundRequest parsers build request' target clientIp requestId := by
  have hconnection : request.headers.get .connection = request'.headers.get .connection :=
    hsame.headers.get_eq (by decide)
  have hhost : request.headers.get .host = request'.headers.get .host :=
    hsame.headers.get_eq (by decide)
  -- filtering removes the only header in which the two requests differ
  have hfilter : build.policies.requestFilter.apply request.headers =
      build.policies.requestFilter.apply request'.headers := by
    rw [HeaderFilter.apply_eq, HeaderFilter.apply_eq,
      ← HeaderFilter.stripped_congr _ hconnection]
    refine hsame.headers.eq_of_removed fun name hname => ?_
    obtain rfl := Set.mem_singleton_iff.mp hname
    exact hstrips
  have hheaders : outboundHeaders build request target clientIp requestId =
      outboundHeaders build request' target clientIp requestId := by
    simp only [outboundHeaders, injectedHeaders, inboundContext, HeaderMap.getStr, hfilter, hhost,
      hsame.uri]
  rw [outboundRequest, outboundRequest, hheaders, hsame.method, hsame.body]

/-- Where the client's `Authorization` is stripped, no request dispatched for it carries any, and
a request that differs in it only is forwarded alike. Where it is not stripped, it is forwarded:
the first dispatched request carries it unchanged. -/
theorem authorization_confined (parsers : Parsers)
    (hbuild : ServerBuild.fromConfig config rateLimiter = .ok build) (request : Request)
    (target : TargetUrl) (clientIp : IpAddr) (requestId : Str) (envs : ℕ → HopEnv) :
    (StripsAuthorization config request.headers →
      (∀ d ∈ (executeProxy parsers build request target clientIp requestId envs).1,
        d.request.headers.getAll .authorization = []) ∧
      ∀ request', SameButAuthorization request request' →
        executeProxy parsers build request target clientIp requestId envs =
          executeProxy parsers build request' target clientIp requestId envs) ∧
    (¬ StripsAuthorization config request.headers →
      ∀ d ∈ (executeProxy parsers build request target clientIp requestId envs).1.head?,
        d.request.headers.getAll .authorization = request.headers.getAll .authorization) := by
  rw [← authorization_mem_stripped hbuild]
  cases houtbound : outboundRequest parsers build request target clientIp requestId with
  -- no outbound request, so nothing is dispatched for either request
  | error err =>
    refine ⟨fun hstrips => ⟨by simp [executeProxy, houtbound], fun request' hsame => ?_⟩,
      by simp [executeProxy, houtbound]⟩
    rw [executeProxy, executeProxy, outboundRequest_congr hsame hstrips]
  | ok outbound =>
    have hvalues := getAll_authorization_outboundRequest houtbound
    refine ⟨fun hstrips => ⟨fun d hd => ?_, fun request' hsame => ?_⟩, fun hkeeps d hd => ?_⟩
    · rw [executeProxy_fst envs houtbound] at hd
      rw [if_pos hstrips] at hvalues
      refine List.eq_nil_iff_forall_not_mem.mpr fun value hvalue => ?_
      -- a follow-up sends nothing that the outbound request did not
      have hinitial := headers_le_of_mem_execute hd _ value hvalue
      rw [hvalues] at hinitial
      cases hinitial
    · rw [executeProxy, executeProxy, outboundRequest_congr hsame hstrips]
    · rw [executeProxy_fst envs houtbound] at hd
      rw [execute_head _ _ _ _ _ d hd, hvalues, if_neg hkeeps]

/-! ## A token that is forwarded -/

/-- The target of the request that carries the token. -/
def tokenTarget : TargetUrl :=
  (extractTarget .plain tokenGet.uri).toOption.get (by decide +kernel)

/-- Surroundings in which the upstream answers with an empty `200 OK`. -/
def answeringEnv : HopEnv where
  hosts := ∅
  now := 0
  exchange := .response { status := .ok, headers := .empty }
  connections := []

/-- The configuration of the server with one token, with `Authorization` among the removals. -/
def strippingConfig : Config :=
  { bearerConfig with
    security := { bearerConfig.security with
                  removeRequestHeaders := ["cookie", "cookie2", "Authorization"] } }

/-- A server that removes `Authorization`, without rate limits. -/
def strippingBuild : ServerBuild :=
  (ServerBuild.fromConfig strippingConfig fun _ => .ok ()).toOption.get (by decide +kernel)

/-- `authorization_confined` where the configuration removes the header. -/
theorem authorization_confined_stripping :
    (StripsAuthorization strippingConfig tokenGet.headers →
      (∀ d ∈ (executeProxy .plain strippingBuild tokenGet tokenTarget (.v4 0) []
          fun _ => answeringEnv).1,
        d.request.headers.getAll .authorization = []) ∧
      ∀ request', SameButAuthorization tokenGet request' →
        executeProxy .plain strippingBuild tokenGet tokenTarget (.v4 0) []
            (fun _ => answeringEnv) =
          executeProxy .plain strippingBuild request' tokenTarget (.v4 0) []
            fun _ => answeringEnv) ∧
    (¬ StripsAuthorization strippingConfig tokenGet.headers →
      ∀ d ∈ (executeProxy .plain strippingBuild tokenGet tokenTarget (.v4 0) []
          fun _ => answeringEnv).1.head?,
        d.request.headers.getAll .authorization = tokenGet.headers.getAll .authorization) :=
  authorization_confined .plain (eq_ok_get_toOption _) tokenGet tokenTarget (.v4 0) []
    fun _ => answeringEnv

/-- The default removals leave the token in the request that is dispatched. -/
theorem token_forwarded :
    (bearerConfig.validateFull fun _ => false).errors = [] ∧
    bearerConfig.security.auth.mode = .bearer ∧
    checkBearer tokenGet.headers bearerConfig.security.auth.bearerTokens = .ok () ∧
    ∃ d ∈ (executeProxy .plain bearerBuild tokenGet tokenTarget (.v4 0) []
        fun _ => answeringEnv).1,
      d.request.headers.getAll .authorization = tokenGet.headers.getAll .authorization ∧
        d.request.headers.getAll .authorization = [⟨Str.asBytes "Bearer s3cret", by decide⟩] :=
  ⟨by decide +kernel, by decide +kernel, by decide +kernel, by decide +kernel⟩

end Corx
