import Corx.Server.Handler

/-!
# Preflights and the guards of the requests they announce

With `security.preflight.mode = "enforce"` a preflight runs the same origin, method and
required-header guards as the request it announces, on another method and without that
request's custom headers. `IsPreflightFor` says what a browser sends ahead of a request. Such a
preflight of an admitted request fails the guards only where the operator blocks `OPTIONS`, or
requires headers of which the preflight carries none (`evaluate_preflight_iff`).
-/

namespace Corx

namespace Method

/-- Only `OPTIONS` is parsed to that method. -/
theorem parse_eq_some_options_iff {s : Str} : parse s = some .options ↔ s = "OPTIONS" := by
  constructor
  · intro h
    rw [parse] at h
    split at h
    case h_1 m hm =>
      obtain rfl : m = .options := Option.some_inj.mp h
      have hfound := List.find?_some (p := fun m : Method => decide (m.asStr = s)) hm
      exact (of_decide_eq_true hfound).symm
    case h_2 =>
      -- an extension method is none of the standard ones
      split at h
      · exact absurd (Option.some_inj.mp h) (by simp)
      · exact absurd h (by simp)
  · rintro rfl
    decide

end Method

/-- `preflight` is what a browser sends ahead of `request`, where the headers of `request` that
are not safelisted are the custom ones. Other headers of the preflight are the browser's own. -/
structure IsPreflightFor (custom : List HeaderName) (request preflight : Request) : Prop where
  crossOrigin : request.headers.containsKey .origin = true
  carried : ∀ name ∈ custom, request.headers.containsKey name = true
  method_eq : preflight.method = .options
  origin_eq : preflight.headers.getAll .origin = request.headers.getAll .origin
  requestMethod :
    preflight.headers.getStr ACCESS_CONTROL_REQUEST_METHOD = some request.method.asStr
  requestHeaders : custom ≠ [] →
    preflight.headers.getStr ACCESS_CONTROL_REQUEST_HEADERS =
      some (Str.join "," (custom.map HeaderName.text))
  notCustom : ∀ name ∈ custom, preflight.headers.containsKey name = false

/-- A header satisfies one of the operator's requirements, in whatever case that is written. -/
def SecurityConfig.RequiredIn (cfg : SecurityConfig) (headers : HeaderMap) : Prop :=
  ∃ raw ∈ cfg.requireHeader, ∃ name, HeaderName.parse raw.toAsciiLowercase = some name ∧
    headers.containsKey name = true

/-- An entry of the blocked methods is `OPTIONS`, in whatever case. -/
def SecurityConfig.BlocksOptions (cfg : SecurityConfig) : Prop :=
  ∃ raw ∈ cfg.blockMethods, raw.map Char.toUpper = "OPTIONS"

namespace OriginPolicy

variable {cfg : SecurityConfig}

/-- The compiled policy blocks `OPTIONS` if an entry says so. -/
theorem options_mem_blockedMethods_iff :
    .options ∈ (fromConfig cfg).blockedMethods ↔ cfg.BlocksOptions := by
  simp [fromConfig, SecurityConfig.BlocksOptions, Method.parse_eq_some_options_iff]

/-- The compiled policy finds a required header where the configuration does. -/
theorem any_requiredHeaderAnyOf_iff {headers : HeaderMap} :
    ((fromConfig cfg).requiredHeaderAnyOf.any fun name =>
        (HeaderName.parse name).any fun name => headers.containsKey name) = true ↔
      cfg.RequiredIn headers := by
  simp only [fromConfig, List.any_map, List.any_eq_true, Function.comp_apply,
    Option.any_eq_true, SecurityConfig.RequiredIn]

/-- What a policy admits: a method that is not blocked, a permitted origin, and one of the
required headers where there are any. -/
theorem evaluate_eq_ok_iff {policy : OriginPolicy} {method : Method} {headers : HeaderMap} :
    policy.evaluate method headers = .ok () ↔
      method ∉ policy.blockedMethods ∧ policy.checkLists (headers.getStr .origin) = .ok () ∧
        (policy.requiredHeaderAnyOf = [] ∨ (policy.requiredHeaderAnyOf.any fun name =>
          (HeaderName.parse name).any fun name => headers.containsKey name) = true) := by
  rw [evaluate, ← List.isEmpty_iff]
  by_cases hblocked : method ∈ policy.blockedMethods
  · simp [hblocked]
  · cases policy.checkLists (headers.getStr .origin) with
    | error err => simp [hblocked]
    | ok u =>
      rw [if_neg (by simpa using hblocked)]
      generalize policy.requiredHeaderAnyOf.isEmpty = empty
      generalize List.any _ _ = found
      cases empty <;> cases found <;> simp [hblocked]

/-- What a configuration admits. -/
theorem evaluate_fromConfig_eq_ok_iff {method : Method} {headers : HeaderMap} :
    (fromConfig cfg).evaluate method headers = .ok () ↔
      method ∉ (fromConfig cfg).blockedMethods ∧
        (fromConfig cfg).checkLists (headers.getStr .origin) = .ok () ∧
        (cfg.requireHeader = [] ∨ cfg.RequiredIn headers) := by
  have hempty : (fromConfig cfg).requiredHeaderAnyOf = [] ↔ cfg.requireHeader = [] :=
    List.map_eq_nil_iff
  rw [evaluate_eq_ok_iff, any_requiredHeaderAnyOf_iff, hempty]

end OriginPolicy

section Announced

variable {cfg : SecurityConfig} {custom : List HeaderName} {request preflight : Request}

/-- A preflight and its request are of one origin. -/
theorem IsPreflightFor.getStr_origin (h : IsPreflightFor custom request preflight) :
    preflight.headers.getStr .origin = request.headers.getStr .origin := by
  rw [HeaderMap.getStr, HeaderMap.getStr, MultiMap.get, MultiMap.get, h.origin_eq]

/-- What a browser sends ahead of a request is recognised as a preflight. -/
theorem IsPreflightFor.isPreflight (h : IsPreflightFor custom request preflight) :
    isPreflight preflight.method preflight.headers = true := by
  have horigin : preflight.headers.containsKey .origin = true := by
    rw [MultiMap.containsKey, h.origin_eq]
    exact h.crossOrigin
  have hmethod : preflight.headers.containsKey ACCESS_CONTROL_REQUEST_METHOD = true := by
    have hget := h.requestMethod
    rw [HeaderMap.getStr, MultiMap.get] at hget
    cases hall : preflight.headers.getAll ACCESS_CONTROL_REQUEST_METHOD with
    | nil => simp [hall] at hget
    | cons v vs => simp [MultiMap.containsKey, hall]
  simp [Corx.isPreflight, h.method_eq, horigin, hmethod]

/-- The preflight of an admitted request is admitted if and only if `OPTIONS` is not blocked,
and no header is required or the preflight carries a required one. -/
theorem evaluate_preflight_iff
    (hadmitted : (OriginPolicy.fromConfig cfg).evaluate request.method request.headers = .ok ())
    (h : IsPreflightFor custom request preflight) :
    (OriginPolicy.fromConfig cfg).evaluate preflight.method preflight.headers = .ok () ↔
      ¬ cfg.BlocksOptions ∧
        (cfg.requireHeader = [] ∨ cfg.RequiredIn preflight.headers) := by
  obtain ⟨-, hlists, -⟩ := OriginPolicy.evaluate_fromConfig_eq_ok_iff.mp hadmitted
  rw [OriginPolicy.evaluate_fromConfig_eq_ok_iff, h.method_eq, h.getStr_origin,
    OriginPolicy.options_mem_blockedMethods_iff]
  -- the origin was judged with the request
  exact and_congr_right' (and_iff_right hlists)

/-- `x-requested-with`. -/
def X_REQUESTED_WITH : HeaderName := ⟨"x-requested-with", by decide⟩

/-- A `GET` from a page, with a custom header. -/
def scriptedGet : Request where
  method := .get
  uri := { scheme := none, authority := none, path := "/https://api.test/", query := none }
  headers := .ofList
    [(.origin, ⟨Str.asBytes "https://shop.test", by decide⟩),
      (X_REQUESTED_WITH, ⟨Str.asBytes "XMLHttpRequest", by decide⟩)]
  body := []

/-- What the browser sends ahead of it. -/
def scriptedGetPreflight : Request where
  method := .options
  uri := scriptedGet.uri
  headers := .ofList
    [(.origin, ⟨Str.asBytes "https://shop.test", by decide⟩),
      (ACCESS_CONTROL_REQUEST_METHOD, ⟨Str.asBytes "GET", by decide⟩),
      (ACCESS_CONTROL_REQUEST_HEADERS, ⟨Str.asBytes "x-requested-with", by decide⟩)]
  body := []

/-- The browser announces the method and the custom header, and sends the origin alone. -/
theorem isPreflightFor_scriptedGet :
    IsPreflightFor [X_REQUESTED_WITH] scriptedGet scriptedGetPreflight where
  crossOrigin := by decide
  carried := by decide
  method_eq := rfl
  origin_eq := by decide
  requestMethod := by decide +kernel
  requestHeaders _ := by decide +kernel
  notCustom := by decide

/-- The default guards, with a custom header required of every request. -/
def customHeaderRequired : SecurityConfig :=
  { SecurityConfig.default with requireHeader := ["X-Requested-With"] }

/-- The default guards, with `OPTIONS` among the blocked methods. -/
def optionsBlocked : SecurityConfig :=
  { SecurityConfig.default with blockMethods := ["CONNECT", "TRACE", "OPTIONS"] }

/-- `evaluate_preflight_iff` for a custom header that is required. -/
theorem evaluate_preflight_iff_scriptedGet :
    (OriginPolicy.fromConfig customHeaderRequired).evaluate scriptedGetPreflight.method
        scriptedGetPreflight.headers = .ok () ↔
      ¬ customHeaderRequired.BlocksOptions ∧ (customHeaderRequired.requireHeader = [] ∨
        customHeaderRequired.RequiredIn scriptedGetPreflight.headers) :=
  @evaluate_preflight_iff _ _ scriptedGet _ (by decide +kernel) isPreflightFor_scriptedGet

/-- The preflight of an admitted request is refused where the custom header is required, and
where `OPTIONS` is blocked. -/
theorem preflight_of_admitted_refused :
    IsPreflightFor [X_REQUESTED_WITH] scriptedGet scriptedGetPreflight ∧
    (customHeaderRequired.preflight.mode = .enforce ∧
      (OriginPolicy.fromConfig customHeaderRequired).evaluate scriptedGet.method
        scriptedGet.headers = .ok () ∧
      (OriginPolicy.fromConfig customHeaderRequired).evaluate scriptedGetPreflight.method
        scriptedGetPreflight.headers ≠ .ok ()) ∧
    optionsBlocked.preflight.mode = .enforce ∧
      (OriginPolicy.fromConfig optionsBlocked).evaluate scriptedGet.method
        scriptedGet.headers = .ok () ∧
      (OriginPolicy.fromConfig optionsBlocked).evaluate scriptedGetPreflight.method
        scriptedGetPreflight.headers ≠ .ok () :=
  ⟨isPreflightFor_scriptedGet, by decide +kernel, by decide +kernel⟩

/-- Requiring `Origin`, as by default, lets every preflight carry a required header. -/
theorem IsPreflightFor.requiredIn_of_origin (h : IsPreflightFor custom request preflight)
    (horigin : ("origin" : Str) ∈ cfg.requireHeader) : cfg.RequiredIn preflight.headers := by
  have hparse : HeaderName.parse (Str.toAsciiLowercase "origin") = some .origin := by decide
  refine ⟨_, horigin, .origin, hparse, ?_⟩
  rw [MultiMap.containsKey, h.origin_eq]
  exact h.crossOrigin

/-- A required header that is one of the request's custom ones is not on the preflight. -/
theorem IsPreflightFor.not_requiredIn (h : IsPreflightFor custom request preflight)
    (hcustom : ∀ raw ∈ cfg.requireHeader, ∀ name,
      HeaderName.parse raw.toAsciiLowercase = some name → name ∈ custom) :
    ¬ cfg.RequiredIn preflight.headers := by
  rintro ⟨raw, hraw, name, hname, hcarried⟩
  rw [h.notCustom name (hcustom raw hraw name hname)] at hcarried
  exact Bool.noConfusion hcarried

/-- Where preflights are gated, one that fails the guards is rejected with their error. -/
theorem serve_preflight_of_evaluate_error {parsers : Parsers} {policies : LivePolicies}
    {clientIp : IpAddr} {err : ProxyError}
    (hmode : policies.config.security.preflight.mode = .enforce)
    (h : IsPreflightFor custom request preflight)
    (herr : policies.guard.origin.evaluate preflight.method preflight.headers = .error err) :
    serve parsers policies preflight clientIp = .rejected err := by
  simp [serve, h.isPreflight, hmode, RequestGuard.checkOrigin, herr]

end Announced

end Corx
