import Mathlib.Algebra.GroupWithZero.Nat
import Corx.Server.Metering
import Corx.Server.Router

/-!
# Operational handlers and rejections

The responses that do not come from the proxy handler: those of the operational endpoints, and
those of the layers that turn a request away before the router, for the size of its headers and
for the number of requests inside. As everywhere, bodies are left out.

The header limit counts with saturation; `headerMapBytes_le_iff` says that it decides as the true
sum of the lengths would.
-/

namespace Corx

/-- `404 Not Found`. -/
def StatusCode.notFound : StatusCode := ⟨404, by decide⟩

/-- `431 Request Header Fields Too Large`. -/
def StatusCode.requestHeaderFieldsTooLarge : StatusCode := ⟨431, by decide⟩

/-- `504 Gateway Timeout`. -/
def StatusCode.gatewayTimeout : StatusCode := ⟨504, by decide⟩

/-- `retry-after`. -/
def HeaderName.retryAfter : HeaderName := ⟨"retry-after", by decide⟩

/-- A response with a content type. -/
def typedResponse (status : StatusCode) (contentType : Str) : Response where
  status := status
  headers := HeaderMap.insertStr .empty .contentType contentType

/-- The content type of a text, as `axum` writes it. -/
def TEXT_PLAIN : Str :=
  "text/plain; charset=utf-8"

/-! ## Operational endpoints -/

/-- Landing page describing how to use the proxy. -/
def usage : Response :=
  typedResponse .ok TEXT_PLAIN

/-- `GET /livez`: process liveness. -/
def livez : Response :=
  typedResponse .ok TEXT_PLAIN

/-- `GET /readyz`: readiness for traffic. -/
def readyz (ready : Bool) : Response :=
  if ready then typedResponse .ok "application/json"
  else typedResponse .serviceUnavailable "application/json"

/-- `GET /healthz`: mirrors `/readyz`. -/
def healthz (ready : Bool) : Response :=
  readyz ready

/-- `GET /iscorsneeded`: cors-anywhere compatibility endpoint. -/
def isCorsNeeded : Response :=
  typedResponse .ok TEXT_PLAIN

/-- `GET /metrics`: Prometheus text exposition. -/
def prometheusMetrics : Response :=
  typedResponse .ok "text/plain; version=0.0.4; charset=utf-8"

/-- The answer to a method that a route does not have. -/
def notFound : Response :=
  typedResponse .notFound "application/json"

/-- The routes of `build_router` with their handlers. -/
def opsHandlers (build : ServerBuild) : List (Str × (Bool → Response)) :=
  ([("/", fun _ => usage), ("/livez", fun _ => livez), ("/readyz", readyz), ("/healthz", healthz),
    ("/iscorsneeded", fun _ => isCorsNeeded)] : List (Str × (Bool → Response))) ++
    if !build.immutableMetricsEndpoint.isEmpty then
      [(build.immutableMetricsEndpoint, fun _ => prometheusMetrics)]
    else []

/-- The answer of an operational handler. A `get` route has `GET` and `HEAD`. -/
def opsAnswer (routeMatches : Str → Str → Bool) (build : ServerBuild) (ready : Bool)
    (request : Request) : Response :=
  if request.method = .get || request.method = .head then
    match (opsHandlers build).find? fun route => routeMatches route.1 request.uri.path with
    | some route => route.2 ready
    | none => notFound
  else notFound

/-- The handlers are those of the operational routes. -/
theorem opsHandlers_map_fst (build : ServerBuild) :
    (opsHandlers build).map Prod.fst = opsRoutes build := by
  unfold opsHandlers opsRoutes
  split <;> rfl

/-- A path belongs to an operational handler exactly if a handler's route matches it. -/
theorem opsRouted_iff {routeMatches : Str → Str → Bool} {build : ServerBuild} {path : Str} :
    opsRouted routeMatches build path = true ↔
      ((opsHandlers build).find? fun route => routeMatches route.1 path).isSome = true := by
  rw [opsRouted, ← opsHandlers_map_fst, List.find?_isSome, List.any_eq_true]
  simp

/-! ## Rejections -/

/-- The bytes of the names and values of the headers, one line for each value. -/
def headerMapBytes (lines : List (HeaderName × HeaderValue)) : ℕ :=
  lines.foldl (fun total line =>
    saturatingAdd64 (saturatingAdd64 total line.1.text.length) line.2.bytes.length) 0

/-- The answer to a request whose headers exceed the limit. -/
def headerLimitResponse : Response :=
  typedResponse .requestHeaderFieldsTooLarge TEXT_PLAIN

/-- The answer to a request that finds the cap of requests reached. -/
def shedResponse : Response :=
  { typedResponse .serviceUnavailable TEXT_PLAIN with
    headers := (typedResponse .serviceUnavailable TEXT_PLAIN).headers.insert .retryAfter
      ((HeaderValue.fromStr "1").get (by decide)) }

/-- The answer to a request that takes longer than `request_timeout`: a status and nothing
else. -/
def timeoutResponse : Response where
  status := .gatewayTimeout
  headers := .empty

/-- What the lines of a header map come to, without saturation. -/
def trueHeaderBytes (lines : List (HeaderName × HeaderValue)) : ℕ :=
  (lines.map fun line => line.1.text.length + line.2.bytes.length).sum

/-- A saturated count is the true one, cut off at the largest word. -/
theorem headerMapBytes_eq (lines : List (HeaderName × HeaderValue)) :
    headerMapBytes lines = min (trueHeaderBytes lines) (UInt64.size - 1) := by
  -- the fold starts from any count that is a word
  suffices hfrom : ∀ total ≤ UInt64.size - 1, lines.foldl (fun total line =>
      saturatingAdd64 (saturatingAdd64 total line.1.text.length) line.2.bytes.length) total =
        min (total + trueHeaderBytes lines) (UInt64.size - 1) by
    rw [headerMapBytes, hfrom 0 (Nat.zero_le _), Nat.zero_add]
  induction lines with
  | nil =>
    intro total htotal
    exact (Nat.min_eq_left htotal).symm
  | cons line lines ih =>
    intro total _
    have hword : ∀ a b, saturatingAdd64 a b ≤ UInt64.size - 1 := fun _ _ => Nat.min_le_right _ _
    rw [List.foldl_cons, ih _ (hword _ _), trueHeaderBytes, trueHeaderBytes, List.map_cons,
      List.sum_cons]
    unfold saturatingAdd64
    omega

/-- The saturated count is within a limit below the largest word exactly if the true one is. -/
theorem headerMapBytes_le_iff {lines : List (HeaderName × HeaderValue)} {limit : UInt32} :
    headerMapBytes lines ≤ limit.toNat ↔ trueHeaderBytes lines ≤ limit.toNat := by
  have hlimit : limit.toNat < 2 ^ 32 := limit.toNat_lt
  have hsize : UInt64.size = 2 ^ 64 := rfl
  rw [headerMapBytes_eq]
  omega

end Corx
