import Corx.Config

/-!
# Configuration validation

`Config.validateFull` collects every issue of a loaded configuration: errors that keep the server
from starting, and warnings that do not. A configuration without errors is `Sound`, which says
section by section what later code may rely on (`validateFull_errors_eq_nil_iff`). Whether a
path names a file is the parameter `isFile`.
-/

namespace Corx

/-- Configuration error: a dotted path inside the configuration, and why its value is
rejected. -/
structure ConfigError where
  path : Str
  reason : Str
  deriving DecidableEq, Repr

/-- Aggregated validation outcome. -/
structure ValidationReport where
  errors : List ConfigError
  warnings : List ConfigError
  deriving DecidableEq, Repr

namespace ValidationReport

/-- No issues. -/
def empty : ValidationReport where
  errors := []
  warnings := []

/-- Push a hard failure if the condition holds. -/
def errorIf (report : ValidationReport) (bad : Prop) [Decidable bad] (path reason : Str) :
    ValidationReport :=
  if bad then { report with errors := report.errors ++ [{ path, reason }] } else report

/-- Push a soft warning if the condition holds. -/
def warnIf (report : ValidationReport) (bad : Prop) [Decidable bad] (path reason : Str) :
    ValidationReport :=
  if bad then { report with warnings := report.warnings ++ [{ path, reason }] } else report

variable {report : ValidationReport} {bad : Prop} [Decidable bad] {path reason : Str}

/-- The report stays without errors when the condition does not hold. -/
@[simp]
theorem errors_errorIf :
    (report.errorIf bad path reason).errors = [] ↔ report.errors = [] ∧ ¬ bad := by
  by_cases h : bad <;> simp [errorIf, h]

/-- Warnings do not touch the errors. -/
@[simp]
theorem errors_warnIf : (report.warnIf bad path reason).errors = report.errors := by
  by_cases h : bad <;> simp [warnIf, h]

end ValidationReport

/-! ## The sections -/

/-- The CORS section. -/
def validateCors (cfg : Config) (report : ValidationReport) : ValidationReport :=
  report
    |>.errorIf (cfg.cors.policy = .wildcard ∧ cfg.cors.allowCredentials = true)
      "cors.allow_credentials"
      ("wildcard policy + allow_credentials=true is rejected by browsers; ".toList ++
        "switch the policy to `reflect` or `explicit`".toList)
    |>.errorIf (cfg.cors.policy = .explicit ∧ cfg.cors.origins.isEmpty = true)
      "cors.origins"
      ("policy is `explicit` but no origins are listed; the proxy would reject ".toList ++
        "every cross-origin request".toList)
    |>.errorIf (cfg.cors.policy = .reflect ∧ cfg.cors.allowAnyOrigin = true ∧
        cfg.cors.allowCredentials = true)
      "cors.allow_any_origin"
      ("reflect + allow_any_origin + allow_credentials is unsafe; ".toList ++
        "list explicit origins instead".toList)
    |>.warnIf (cfg.cors.allowPrivateNetwork = true ∧ cfg.cors.policy ≠ .explicit)
      "cors.allow_private_network"
      ("Private Network Access should usually be paired with `policy = \"explicit\"` ".toList ++
        "so that only known origins can reach the private network".toList)

/-- The target section. -/
def validateTarget (cfg : Config) (report : ValidationReport) : ValidationReport :=
  report
    |>.errorIf (cfg.target.mode = .allowlist ∧ cfg.target.hosts.isEmpty = true)
      "target.hosts" "mode is `allowlist` but hosts is empty; every target would be rejected"

/-- One of the bindings of clients that `require_client_binding` asks for is configured. -/
def hasClientBinding (cfg : Config) : Bool :=
  let hasOriginBind := !cfg.security.originWhitelist.isEmpty
  let hasBearer := cfg.security.auth.mode = .bearer && !cfg.security.auth.bearerTokens.isEmpty
  let hasMtls := cfg.server.tls.any fun t => t.clientCaPath.isSome
  hasOriginBind || hasBearer || hasMtls

/-- The authentication section. -/
def validateAuth (cfg : Config) (report : ValidationReport) : ValidationReport :=
  report
    |>.errorIf (cfg.security.auth.mode = .bearer ∧
        cfg.security.auth.bearerTokens.isEmpty = true)
      "security.auth.bearer_tokens" "auth.mode is `bearer` but no tokens are configured"
    |>.errorIf (cfg.security.requireClientBinding = true ∧ hasClientBinding cfg = false)
      "security.require_client_binding"
      ("require_client_binding is true but none of origin_whitelist, ".toList ++
        "bearer auth, or mTLS client CA is configured".toList)

/-- The circuit breaker section. -/
def validateCircuit (cfg : Config) (report : ValidationReport) : ValidationReport :=
  if !cfg.circuitBreaker.enabled then report
  else
    report
      |>.errorIf (cfg.circuitBreaker.failureThreshold = 0)
        "circuit_breaker.failure_threshold" "must be > 0 when the breaker is enabled"

/-- The limits. No limit on response bodies is an intended opt-out. -/
def validateLimits (cfg : Config) (report : ValidationReport) : ValidationReport :=
  report
    |>.warnIf (cfg.limits.requestTimeout ≤ cfg.limits.connectTimeout)
      "limits.connect_timeout"
      ("connect_timeout >= request_timeout: the request budget will be exhausted ".toList ++
        "before the upstream can respond".toList)
    |>.warnIf (32 < cfg.limits.maxRedirects)
      "limits.max_redirects" "values above 32 are rarely useful and amplify resource consumption"
    |>.errorIf (cfg.limits.maxRequestBodyBytes = 0)
      "limits.max_request_body_bytes" "must be > 0"

/-- One dimension of the rate limits. -/
def checkDimension (report : ValidationReport) (pre : Str) (bucket : BucketConfig) :
    ValidationReport :=
  -- a dimension at zero is off, and its burst is not looked at
  if bucket.rps = 0 then report
  else
    report
      |>.errorIf (bucket.burst = 0)
        (pre ++ ".burst".toList) "must be > 0 when the dimension's rps is > 0"
      |>.warnIf (bucket.burst ≠ 0 ∧ bucket.burst < bucket.rps)
        (pre ++ ".burst".toList) "burst smaller than rps gives no headroom for bursty clients"

/-- The rate limits. -/
def validateRateLimit (cfg : RateLimitConfig) (report : ValidationReport) : ValidationReport :=
  if !cfg.enabled then report
  else
    let report := report.errorIf (cfg.maxKeys = 0)
      "rate_limit.max_keys" "must be > 0 when rate limiting is enabled"
    -- switched on without any dimension is taken for a mistake
    let anyEnabled := 0 < cfg.origin.rps ∨ 0 < cfg.ip.rps ∨ 0 < cfg.targetHost.rps ∨
      0 < cfg.global.rps
    let report := report.errorIf (¬ anyEnabled) "rate_limit"
      ("rate_limit.enabled = true but every GCRA dimension is at 0; either ".toList ++
        "disable rate-limiting or set at least one of origin.rps / ip.rps / ".toList ++
        "target_host.rps / global.rps (inflight is limits.inflight_max)".toList)
    let report := checkDimension report "rate_limit.origin" cfg.origin.toBucketConfig
    let report := checkDimension report "rate_limit.ip" cfg.ip.toBucketConfig
    let report := checkDimension report "rate_limit.target_host" cfg.targetHost
    checkDimension report "rate_limit.global" cfg.global

/-- The upstream section. -/
def validateUpstream (cfg : Config) (report : ValidationReport) : ValidationReport :=
  report
    |>.errorIf (cfg.upstream.poolMaxIdlePerHost = 0)
      "upstream.pool_max_idle_per_host"
      ("must be > 0; setting to 0 disables connection reuse and ".toList ++
        "collapses throughput".toList)
    |>.errorIf ((Str.trim cfg.upstream.userAgent).isEmpty = true)
      "upstream.user_agent" "must be a non-empty token"

/-- The TLS files. -/
def validateTls (isFile : Str → Bool) (cfg : Config) (report : ValidationReport) :
    ValidationReport :=
  match cfg.server.tls with
  | none => report
  | some tls =>
    report
      |>.errorIf (isFile tls.certPath = false)
        "server.tls.cert_path" ("certificate file not found: ".toList ++ tls.certPath)
      |>.errorIf (isFile tls.keyPath = false)
        "server.tls.key_path" ("private key file not found: ".toList ++ tls.keyPath)

/-- The SSRF section. -/
def validateSsrf (cfg : Config) (report : ValidationReport) : ValidationReport :=
  report
    |>.warnIf (cfg.ssrf.mode = .permissive true ∧ cfg.ssrf.extraBlockedCidrs.isEmpty = true)
      "ssrf.mode"
      ("permissive mode with `allow_private=true` and no extra block list ".toList ++
        "admits every IP, including AWS / GCP metadata. Add explicit ".toList ++
        "`extra_blocked_cidrs` or switch to `strict` for production.".toList)

namespace Config

/-- Every issue, errors and warnings, found in the configuration. -/
def validateFull (isFile : Str → Bool) (cfg : Config) : ValidationReport :=
  let report := ValidationReport.empty
  let report := validateCors cfg report
  let report := validateLimits cfg report
  let report := validateRateLimit cfg.rateLimit report
  let report := validateUpstream cfg report
  let report := validateTls isFile cfg report
  let report := validateSsrf cfg report
  let report := validateTarget cfg report
  let report := validateAuth cfg report
  validateCircuit cfg report

/-- Validate the loaded configuration: its first error, if there is one. -/
def validate (isFile : Str → Bool) (cfg : Config) : Except ConfigError Unit :=
  match (cfg.validateFull isFile).errors with
  | err :: _ => .error err
  | [] => .ok ()

/-! ## What a configuration without errors satisfies -/

/-- The buckets of the rate limits. -/
def buckets (cfg : RateLimitConfig) : List BucketConfig :=
  [cfg.origin.toBucketConfig, cfg.ip.toBucketConfig, cfg.targetHost, cfg.global]

/-- No section of the configuration is rejected. -/
structure Sound (isFile : Str → Bool) (cfg : Config) : Prop where
  wildcard_credentials : cfg.cors.policy = .wildcard → cfg.cors.allowCredentials = false
  explicit_origins : cfg.cors.policy = .explicit → cfg.cors.origins ≠ []
  reflect_credentials : cfg.cors.policy = .reflect → cfg.cors.allowAnyOrigin = true →
    cfg.cors.allowCredentials = false
  request_body : cfg.limits.maxRequestBodyBytes ≠ 0
  rate_keys : cfg.rateLimit.enabled = true → cfg.rateLimit.maxKeys ≠ 0
  rate_dimension : cfg.rateLimit.enabled = true → ∃ bucket ∈ buckets cfg.rateLimit, bucket.rps ≠ 0
  rate_burst : cfg.rateLimit.enabled = true → ∀ bucket ∈ buckets cfg.rateLimit,
    bucket.rps ≠ 0 → bucket.burst ≠ 0
  pool : cfg.upstream.poolMaxIdlePerHost ≠ 0
  user_agent : Str.trim cfg.upstream.userAgent ≠ []
  tls_files : ∀ tls, cfg.server.tls = some tls →
    isFile tls.certPath = true ∧ isFile tls.keyPath = true
  target_hosts : cfg.target.mode = .allowlist → cfg.target.hosts ≠ []
  bearer_tokens : cfg.security.auth.mode = .bearer → cfg.security.auth.bearerTokens ≠ []
  client_binding : cfg.security.requireClientBinding = true → hasClientBinding cfg = true
  failure_threshold : cfg.circuitBreaker.enabled = true → cfg.circuitBreaker.failureThreshold ≠ 0

end Config

variable {cfg : Config} {report : ValidationReport}

/-- The CORS section adds no error when none of its three checks fails. -/
theorem errors_validateCors :
    (validateCors cfg report).errors = [] ↔ report.errors = [] ∧
      (cfg.cors.policy = .wildcard → cfg.cors.allowCredentials = false) ∧
      (cfg.cors.policy = .explicit → cfg.cors.origins ≠ []) ∧
      (cfg.cors.policy = .reflect → cfg.cors.allowAnyOrigin = true →
        cfg.cors.allowCredentials = false) := by
  rw [validateCors, ValidationReport.errors_warnIf, ValidationReport.errors_errorIf,
    ValidationReport.errors_errorIf, ValidationReport.errors_errorIf]
  simp [and_assoc]

/-- The limits add no error when request bodies are bounded by a positive number. -/
theorem errors_validateLimits :
    (validateLimits cfg report).errors = [] ↔
      report.errors = [] ∧ cfg.limits.maxRequestBodyBytes ≠ 0 := by
  rw [validateLimits, ValidationReport.errors_errorIf, ValidationReport.errors_warnIf,
    ValidationReport.errors_warnIf]

/-- A dimension adds no error when it is off or has a burst. -/
theorem errors_checkDimension {pre : Str} {bucket : BucketConfig} :
    (checkDimension report pre bucket).errors = [] ↔
      report.errors = [] ∧ (bucket.rps ≠ 0 → bucket.burst ≠ 0) := by
  unfold checkDimension
  by_cases hrps : bucket.rps = 0
  · simp [hrps]
  · rw [if_neg hrps, ValidationReport.errors_warnIf, ValidationReport.errors_errorIf]
    simp [hrps]

/-- The rate limits add no error when they are off, or have keys and a dimension that is on, and
every dimension that is on has a burst. -/
theorem errors_validateRateLimit {cfg : RateLimitConfig} :
    (validateRateLimit cfg report).errors = [] ↔
      report.errors = [] ∧ (cfg.enabled = true → cfg.maxKeys ≠ 0 ∧
        (∃ bucket ∈ Config.buckets cfg, bucket.rps ≠ 0) ∧
        ∀ bucket ∈ Config.buckets cfg, bucket.rps ≠ 0 → bucket.burst ≠ 0) := by
  -- the source names the four dimensions one by one
  have hany : (0 < cfg.origin.rps ∨ 0 < cfg.ip.rps ∨ 0 < cfg.targetHost.rps ∨
      0 < cfg.global.rps) ↔ ∃ bucket ∈ Config.buckets cfg, bucket.rps ≠ 0 := by
    simp [Config.buckets, UInt32.pos_iff_ne_zero]
  unfold validateRateLimit
  by_cases henabled : cfg.enabled = true
  · rw [if_neg (by simp [henabled])]
    dsimp only
    rw [errors_checkDimension, errors_checkDimension, errors_checkDimension,
      errors_checkDimension, ValidationReport.errors_errorIf, ValidationReport.errors_errorIf,
      not_not, hany]
    simp only [Config.buckets, List.forall_mem_cons, List.not_mem_nil, false_imp_iff,
      implies_true, and_true, henabled, true_imp_iff, and_assoc]
  · simp [henabled]

/-- The upstream section adds no error when connections are pooled and the user agent is not
blank. -/
theorem errors_validateUpstream :
    (validateUpstream cfg report).errors = [] ↔ report.errors = [] ∧
      cfg.upstream.poolMaxIdlePerHost ≠ 0 ∧ Str.trim cfg.upstream.userAgent ≠ [] := by
  rw [validateUpstream, ValidationReport.errors_errorIf, ValidationReport.errors_errorIf]
  simp [and_assoc]

/-- The TLS section adds no error when it is absent or its files exist. -/
theorem errors_validateTls {isFile : Str → Bool} :
    (validateTls isFile cfg report).errors = [] ↔ report.errors = [] ∧
      ∀ tls, cfg.server.tls = some tls →
        isFile tls.certPath = true ∧ isFile tls.keyPath = true := by
  unfold validateTls
  cases cfg.server.tls with
  | none => simp
  | some tls =>
    dsimp only
    rw [ValidationReport.errors_errorIf, ValidationReport.errors_errorIf]
    simp [and_assoc]

/-- The SSRF section adds warnings only. -/
theorem errors_validateSsrf : (validateSsrf cfg report).errors = report.errors := by
  rw [validateSsrf, ValidationReport.errors_warnIf]

/-- The target section adds no error when an allow list is not empty. -/
theorem errors_validateTarget :
    (validateTarget cfg report).errors = [] ↔
      report.errors = [] ∧ (cfg.target.mode = .allowlist → cfg.target.hosts ≠ []) := by
  rw [validateTarget, ValidationReport.errors_errorIf]
  simp

/-- The authentication section adds no error when bearer mode has tokens and a required client
binding is there. -/
theorem errors_validateAuth :
    (validateAuth cfg report).errors = [] ↔ report.errors = [] ∧
      (cfg.security.auth.mode = .bearer → cfg.security.auth.bearerTokens ≠ []) ∧
      (cfg.security.requireClientBinding = true → hasClientBinding cfg = true) := by
  rw [validateAuth, ValidationReport.errors_errorIf, ValidationReport.errors_errorIf]
  simp [and_assoc]

/-- The circuit breaker adds no error when it is off or has a threshold. -/
theorem errors_validateCircuit :
    (validateCircuit cfg report).errors = [] ↔ report.errors = [] ∧
      (cfg.circuitBreaker.enabled = true → cfg.circuitBreaker.failureThreshold ≠ 0) := by
  unfold validateCircuit
  by_cases henabled : cfg.circuitBreaker.enabled = true
  · rw [if_neg (by simp [henabled]), ValidationReport.errors_errorIf]
    simp [henabled]
  · simp [henabled]

/-- Validation finds no error exactly in the sound configurations. -/
theorem validateFull_errors_eq_nil_iff {isFile : Str → Bool} :
    (cfg.validateFull isFile).errors = [] ↔ cfg.Sound isFile := by
  simp only [Config.validateFull, errors_validateCors, errors_validateLimits,
    errors_validateRateLimit, errors_validateUpstream, errors_validateTls, errors_validateSsrf,
    errors_validateTarget, errors_validateAuth, errors_validateCircuit]
  constructor
  · rintro ⟨⟨⟨⟨⟨⟨⟨⟨-, hwildcard, hexplicit, hreflect⟩, hbody⟩, hrate⟩, hpool, hagent⟩, htls⟩,
      htarget⟩, htokens, hbinding⟩, hthreshold⟩
    exact
      { wildcard_credentials := hwildcard
        explicit_origins := hexplicit
        reflect_credentials := hreflect
        request_body := hbody
        rate_keys := fun h => (hrate h).1
        rate_dimension := fun h => (hrate h).2.1
        rate_burst := fun h => (hrate h).2.2
        pool := hpool
        user_agent := hagent
        tls_files := htls
        target_hosts := htarget
        bearer_tokens := htokens
        client_binding := hbinding
        failure_threshold := hthreshold }
  · intro h
    exact ⟨⟨⟨⟨⟨⟨⟨⟨rfl, h.wildcard_credentials, h.explicit_origins, h.reflect_credentials⟩,
      h.request_body⟩, fun hon => ⟨h.rate_keys hon, h.rate_dimension hon, h.rate_burst hon⟩⟩,
      h.pool, h.user_agent⟩, h.tls_files⟩, h.target_hosts⟩, h.bearer_tokens, h.client_binding⟩,
      h.failure_threshold⟩

/-- The default configuration has no errors. -/
example : ((Config.default "0.2.0").validateFull fun _ => false).errors = [] := by
  decide +kernel

end Corx
