import Corx.Server.RateBudgets
import Corx.Server.Reload
import Corx.Server.Router

/-!
# Startup

What can fail between a configuration and a serving process: compiling the policies, and
registering the routes. The walk that validates a configuration and the walks that compile it are
separate: `starts_iff` lists the fields that only the latter look at, so a configuration starts
exactly if these are in order, whether or not it passes validation.
-/

namespace Corx

/-- `axum::Router::route`, as far as it looks at the path: which paths are patterns of its
own. A pattern begins with a slash, and a path of letters, digits and slashes that begins with
one is a pattern. -/
structure RoutePatterns where
  wellFormed : Str → Bool
  leading_slash : ∀ path, wellFormed path = true → path.head? = some '/'
  plain : ∀ path, path.head? = some '/' → path.all (fun c => c.isAlphanum || c = '/') = true →
    wellFormed path = true

namespace RoutePatterns

variable (patterns : RoutePatterns)

/-- Register a path; none where `axum` panics, on a path that is no pattern or is there
already. -/
def route (table : List Str) (path : Str) : Option (List Str) :=
  if patterns.wellFormed path && !table.contains path then some (table ++ [path]) else none

/-- Every path that begins with a slash is a pattern. -/
def slashed : RoutePatterns where
  wellFormed path := path.head? = some '/'
  leading_slash _ h := of_decide_eq_true h
  plain _ h _ := decide_eq_true h

end RoutePatterns

/-- The paths of the operational handlers that are always there. -/
def OPS_PATHS : List Str :=
  ["/", "/livez", "/readyz", "/healthz", "/iscorsneeded"]

/-- `build_router`: the table of its routes, or none where it panics. -/
def buildRouter (patterns : RoutePatterns) (metricsPath : Str) : Option (List Str) :=
  match OPS_PATHS.foldlM patterns.route [] with
  | none => none
  | some table => if !metricsPath.isEmpty then patterns.route table metricsPath else some table

/-- Start a process from a configuration, and build its router: neither fails nor panics. The
platform's TLS verifier loads. -/
def Starts {Cell : Type} (gov : Governor Cell)
    (regexSet : List Str → Except Str RateLimiter.RegexSet) (patterns : RoutePatterns)
    (config : Config) : Prop :=
  ∃ p, Process.start gov regexSet (.ok ()) config = .ok p ∧
    (buildRouter patterns p.handle.immutableMetricsEndpoint).isSome = true

/-- The fields that are looked at for the first time when the configuration is compiled. -/
structure Compilable (regexSet : List Str → Except Str RateLimiter.RegexSet)
    (patterns : RoutePatterns) (config : Config) : Prop where
  request_names : ∀ raw ∈ config.security.removeRequestHeaders, (HeaderName.parse raw).isSome
  response_names : ∀ raw ∈ config.security.removeResponseHeaders, (HeaderName.parse raw).isSome
  unlimited_patterns : config.rateLimit.enabled = true → config.rateLimit.origin.rps ≠ 0 →
    ∃ set, regexSet config.rateLimit.origin.unlimitedPatterns = .ok set
  metrics_path : config.observability.metricsEndpoint ≠ [] →
    patterns.wellFormed config.observability.metricsEndpoint = true ∧
      config.observability.metricsEndpoint ∉ OPS_PATHS

/-! ## Routes -/

namespace RoutePatterns

variable {patterns : RoutePatterns} {paths table : List Str} {path : Str}

/-- A path that is registered is a new pattern. -/
theorem isSome_route_iff :
    (patterns.route table path).isSome ↔ patterns.wellFormed path = true ∧ path ∉ table := by
  unfold route
  split <;> simp_all

/-- New patterns are registered one after the other. -/
theorem foldlM_route (hplain : ∀ path ∈ paths, patterns.wellFormed path = true)
    (hnew : (table ++ paths).Nodup) :
    paths.foldlM patterns.route table = some (table ++ paths) := by
  induction paths generalizing table with
  | nil => simp
  | cons path paths ih =>
    obtain ⟨hpath, hpaths⟩ := List.forall_mem_cons.mp hplain
    have hnotMem : path ∉ table := by
      intro hmem
      exact (List.nodup_append.mp hnew).2.2 path hmem path List.mem_cons_self rfl
    have hroute : patterns.route table path = some (table ++ [path]) := by
      simp [route, hpath, hnotMem]
    rw [List.append_cons] at hnew ⊢
    rw [List.foldlM_cons, hroute]
    exact ih hpaths hnew

/-- The operational paths are registered. -/
theorem foldlM_route_opsPaths : OPS_PATHS.foldlM patterns.route [] = some OPS_PATHS := by
  refine foldlM_route (fun path hpath => patterns.plain path ?_ ?_) (by decide)
  · exact of_decide_eq_true (List.all_eq_true.mp
      (show OPS_PATHS.all (fun path => path.head? = some '/') = true by decide) path hpath)
  · exact List.all_eq_true.mp (show OPS_PATHS.all (fun path => path.all fun c =>
      c.isAlphanum || c = '/') = true by decide) path hpath

end RoutePatterns

variable {patterns : RoutePatterns} {config : Config}

/-- The router is built unless the metrics path is no pattern or an operational path. -/
theorem isSome_buildRouter_iff {metricsPath : Str} :
    (buildRouter patterns metricsPath).isSome ↔
      (metricsPath ≠ [] → patterns.wellFormed metricsPath = true ∧ metricsPath ∉ OPS_PATHS) := by
  rw [buildRouter, RoutePatterns.foldlM_route_opsPaths]
  cases metricsPath with
  | nil => simp
  | cons c rest => simp [RoutePatterns.isSome_route_iff]

/-- The table of a router that is built is the one that requests are routed by. -/
theorem buildRouter_eq_opsRoutes {build : ServerBuild} {table : List Str}
    (h : buildRouter patterns build.immutableMetricsEndpoint = some table) :
    table = opsRoutes build := by
  rw [buildRouter, RoutePatterns.foldlM_route_opsPaths] at h
  unfold opsRoutes
  dsimp only at h
  split at h
  next hmetrics =>
    rw [if_pos hmetrics]
    unfold RoutePatterns.route at h
    split at h
    next => exact (Option.some.inj h).symm
    next => cases h
  next hmetrics =>
    rw [if_neg hmetrics, List.append_nil]
    exact (Option.some.inj h).symm

/-! ## Components -/

section Components

variable {Cell : Type} {gov : Governor Cell}
  {regexSet : List Str → Except Str RateLimiter.RegexSet}

/-- The limiter of a new snapshot is the previous one, or compiles. -/
theorem exists_rateLimiterFrom_iff {previous : Option Snapshot} {heap : Heap Cell} :
    (∃ found, Snapshot.rateLimiterFrom gov regexSet config previous heap = .ok found) ↔
      (∃ prev ∈ previous, prev.config.rateLimit = config.rateLimit) ∨
      ∃ inner, RateLimiter.fromConfig gov regexSet config.rateLimit = .ok inner := by
  unfold Snapshot.rateLimiterFrom
  split
  next prev hreused =>
    obtain ⟨hprev, hsame⟩ := Option.filter_eq_some_iff.mp hreused
    simp only [Except.ok.injEq, exists_eq', true_iff]
    exact .inl ⟨prev, hprev, of_decide_eq_true hsame⟩
  next hfresh =>
    have hchanged : ¬ ∃ prev ∈ previous, prev.config.rateLimit = config.rateLimit := by
      rintro ⟨prev, hprev, hsame⟩
      exact Option.filter_eq_none_iff.mp hfresh prev hprev (decide_eq_true hsame)
    rw [or_iff_right hchanged]
    cases RateLimiter.fromConfig gov regexSet config.rateLimit <;> simp

/-- The upstream client of a new snapshot is the previous one, or is built, which takes the TLS
verifier. -/
theorem exists_upstreamFrom_iff {previous : Option Snapshot} {tls : Except Str Unit}
    {targetPolicy : TargetPolicy} :
    (∃ upstream, Snapshot.upstreamFrom tls config targetPolicy previous = .ok upstream) ↔
      (∃ prev ∈ previous, upstreamConfigEq prev.config config = true) ∨ tls = .ok () := by
  unfold Snapshot.upstreamFrom
  split
  next prev hreused =>
    obtain ⟨hprev, hsame⟩ := Option.filter_eq_some_iff.mp hreused
    simp only [Except.ok.injEq, exists_eq', true_iff]
    exact .inl ⟨prev, hprev, hsame⟩
  next hfresh =>
    have hchanged : ¬ ∃ prev ∈ previous, upstreamConfigEq prev.config config = true := by
      rintro ⟨prev, hprev, hsame⟩
      exact Option.filter_eq_none_iff.mp hfresh prev hprev hsame
    rw [or_iff_right hchanged]
    cases tls <;> simp [Upstream.new]

/-- What a configuration needs to compile over a previous snapshot: the texts that are to be
header names are header names, and what cannot be taken from that snapshot compiles. -/
structure CompilesOver (regexSet : List Str → Except Str RateLimiter.RegexSet)
    (tls : Except Str Unit) (previous : Option Snapshot) (config : Config) : Prop where
  request_names : ∀ raw ∈ config.security.removeRequestHeaders, (HeaderName.parse raw).isSome
  response_names : ∀ raw ∈ config.security.removeResponseHeaders, (HeaderName.parse raw).isSome
  limiter : (∃ prev ∈ previous, prev.config.rateLimit = config.rateLimit) ∨
    (config.rateLimit.enabled = true → config.rateLimit.origin.rps ≠ 0 →
      ∃ set, regexSet config.rateLimit.origin.unlimitedPatterns = .ok set)
  client : (∃ prev ∈ previous, upstreamConfigEq prev.config config = true) ∨ tls = .ok ()

/-- A snapshot is built exactly if its configuration compiles over the previous one. -/
theorem exists_buildFrom_iff {tls : Except Str Unit} {previous : Option Snapshot}
    {heap : Heap Cell} :
    (∃ built, Snapshot.buildFrom gov regexSet tls config previous heap = .ok built) ↔
      CompilesOver regexSet tls previous config := by
  have hcompiles : CompilesOver regexSet tls previous config ↔
      (∃ filter, HeaderFilter.tryNew config.security.removeRequestHeaders = .ok filter) ∧
      (∃ filter, HeaderFilter.tryNew config.security.removeResponseHeaders = .ok filter) ∧
      (∃ found, Snapshot.rateLimiterFrom gov regexSet config previous heap = .ok found) ∧
      ∃ upstream, Snapshot.upstreamFrom tls config (.fromConfig config.target) previous =
        .ok upstream := by
    rw [HeaderFilter.exists_tryNew_iff, HeaderFilter.exists_tryNew_iff,
      exists_rateLimiterFrom_iff, exists_upstreamFrom_iff, RateLimiter.exists_fromConfig_iff]
    exact ⟨fun h => ⟨h.request_names, h.response_names, h.limiter, h.client⟩,
      fun ⟨hrequest, hresponse, hlimiter, hclient⟩ => ⟨hrequest, hresponse, hlimiter, hclient⟩⟩
  rw [hcompiles]
  unfold Snapshot.buildFrom
  -- the four fallible steps, in turn
  cases HeaderFilter.tryNew config.security.removeRequestHeaders with
  | error err => simp
  | ok requestFilter =>
    cases HeaderFilter.tryNew config.security.removeResponseHeaders with
    | error err => simp
    | ok responseFilter =>
      cases Snapshot.rateLimiterFrom gov regexSet config previous heap with
      | error err => simp
      | ok found =>
        dsimp only
        cases Snapshot.upstreamFrom tls config (.fromConfig config.target) previous <;> simp

/-- A process starts exactly if its configuration compiles over nothing. -/
theorem exists_start_iff :
    (∃ p, Process.start gov regexSet (.ok ()) config = .ok p) ↔
      CompilesOver regexSet (.ok ()) none config := by
  have hbuilds : (∃ built, Snapshot.buildFrom gov regexSet (.ok ()) config none .empty =
      .ok built) ↔ CompilesOver regexSet (.ok ()) none config := exists_buildFrom_iff
  rw [← hbuilds, Process.start]
  cases Snapshot.buildFrom gov regexSet (.ok ()) config none .empty <;> simp

/-- A process freezes the metrics path of its configuration. -/
theorem metricsEndpoint_of_start {p : Process Cell}
    (h : Process.start gov regexSet (.ok ()) config = .ok p) :
    p.handle.immutableMetricsEndpoint = config.observability.metricsEndpoint := by
  unfold Process.start at h
  split at h
  next => cases h
  next =>
    obtain rfl := Except.ok.inj h
    rfl

/-- A configuration starts exactly if the texts that are to be header names are header names,
the patterns of a limited origin compile, and the metrics path is empty or a pattern other than
the operational paths. Validation looks at none of these. -/
theorem starts_iff {Cell : Type} (gov : Governor Cell)
    (regexSet : List Str → Except Str RateLimiter.RegexSet) (patterns : RoutePatterns)
    (config : Config) :
    Starts gov regexSet patterns config ↔ Compilable regexSet patterns config := by
  constructor
  · rintro ⟨p, hp, hrouter⟩
    have hcompiles := exists_start_iff.mp ⟨p, hp⟩
    rw [metricsEndpoint_of_start hp] at hrouter
    exact
      { request_names := hcompiles.request_names
        response_names := hcompiles.response_names
        -- there is no previous limiter
        unlimited_patterns := hcompiles.limiter.resolve_left (by simp)
        metrics_path := isSome_buildRouter_iff.mp hrouter }
  · intro h
    obtain ⟨p, hp⟩ := exists_start_iff.mpr
      { request_names := h.request_names
        response_names := h.response_names
        limiter := .inr h.unlimited_patterns
        client := .inr rfl }
    refine ⟨p, hp, ?_⟩
    rw [metricsEndpoint_of_start hp]
    exact isSome_buildRouter_iff.mpr h.metrics_path

end Components

/-- The default configuration with metrics at `/livez`. -/
def metricsAtLivez : Config :=
  { Config.default "0.2.0" with
    observability := { (Config.default "0.2.0").observability with metricsEndpoint := "/livez" } }

/-- The default configuration, which is to strip a header whose name holds a blank. -/
def stripsBlankName : Config :=
  { Config.default "0.2.0" with
    security := { (Config.default "0.2.0").security with removeRequestHeaders := ["x debug"] } }

/-- Validation finds no errors in either configuration: the router of the first panics, and the
second does not compile. -/
theorem valid_without_start :
    (metricsAtLivez.validateFull fun _ => false).errors = [] ∧
    (stripsBlankName.validateFull fun _ => false).errors = [] ∧
    ¬ Starts RateLimiter.Governor.gcra (fun _ => .ok fun _ => false) .slashed metricsAtLivez ∧
    ¬ Starts RateLimiter.Governor.gcra (fun _ => .ok fun _ => false) .slashed stripsBlankName := by
  refine ⟨by decide +kernel, by decide +kernel, ?_, ?_⟩
  · rintro ⟨p, hp, hrouter⟩
    rw [metricsEndpoint_of_start hp] at hrouter
    revert hrouter
    decide +kernel
  · rintro ⟨p, hp, -⟩
    have hname := (exists_start_iff.mp ⟨p, hp⟩).request_names "x debug" List.mem_cons_self
    revert hname
    decide +kernel

end Corx
