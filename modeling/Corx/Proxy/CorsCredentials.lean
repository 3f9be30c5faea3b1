import Corx.Config.Validate
import Corx.Proxy.Cors

/-!
# Credentials and listed origins

A configuration without errors grants credentials only together with a list of origins: the
validator rejects the wildcard policy and the unbounded reflection, and for the rest the compiled
policy admits exactly the listed origins (`resolveAllowOrigin_fromConfig`). What the validator
does not reject is the origin `*` in that list; it is echoed like any other, together with the
credentials. `onlyListed_iff` gives the exact condition.
-/

namespace Corx

namespace CorsConfig

/-- The value is the text of a listed origin. -/
def lists (cfg : CorsConfig) (value : HeaderValue) : Bool :=
  value.toStr.any cfg.origins.contains

/-- The policy admits no origins but those of its list. -/
def Gated (cfg : CorsConfig) : Prop :=
  ((cfg.policy = .reflect ∨ cfg.policy = .explicit) ∧ cfg.origins ≠ []) ∨
    (cfg.policy = .reflect ∧ cfg.allowAnyOrigin = false)

/-- The request comes from the origin `*`, which is listed by a policy with credentials. -/
def EchoesStar (cfg : CorsConfig) (requestHeaders : HeaderMap) : Prop :=
  cfg.allowCredentials = true ∧ ("*" : Str) ∈ cfg.origins ∧
    requestHeaders.getStr .origin = some ("*" : Str)
  deriving Decidable

end CorsConfig

/-- The response grants credentials to the listed origin of its request only, never together
with `*`, and a gated policy grants nothing to an origin outside its list. -/
structure OnlyListed (cfg : CorsConfig) (requestHeaders responseHeaders : HeaderMap) : Prop where
  credentials : responseHeaders.getAll ACCESS_CONTROL_ALLOW_CREDENTIALS ≠ [] →
    ∃ origin, requestHeaders.get .origin = some origin ∧ cfg.lists origin = true ∧
      responseHeaders.getAll ACCESS_CONTROL_ALLOW_ORIGIN = [origin]
  no_star : responseHeaders.getAll ACCESS_CONTROL_ALLOW_CREDENTIALS ≠ [] →
    CorsPolicy.star ∉ responseHeaders.getAll ACCESS_CONTROL_ALLOW_ORIGIN
  gated : cfg.Gated → (∀ origin ∈ requestHeaders.get .origin, cfg.lists origin = false) →
    responseHeaders.getAll ACCESS_CONTROL_ALLOW_ORIGIN = []

/-- The response carries the decision on its request, and nothing else that decides. -/
structure Decided (cfg : CorsConfig) (requestHeaders responseHeaders : HeaderMap) : Prop where
  allowOrigin : responseHeaders.getAll ACCESS_CONTROL_ALLOW_ORIGIN =
    ((CorsPolicy.fromConfig cfg).resolveAllowOrigin (requestHeaders.get .origin)).toList
  allowCredentials : responseHeaders.getAll ACCESS_CONTROL_ALLOW_CREDENTIALS =
    if ((CorsPolicy.fromConfig cfg).resolveAllowOrigin (requestHeaders.get .origin)).isSome &&
      cfg.allowCredentials then [headerTrue] else []

variable {isFile : Str → Bool} {cfg : Config} {cors : CorsConfig}
  {requestHeaders responseHeaders : HeaderMap}

/-! ## The compiled policy -/

/-- Reading an origin as text and writing it again where the text is listed keeps the listed
origins. -/
theorem echo_eq_filter (origin : Option HeaderValue) :
    ((origin.bind HeaderValue.toStr).bind fun text =>
      if cors.origins.contains text then HeaderValue.fromStr text else none) =
      origin.filter cors.lists := by
  cases origin with
  | none => rfl
  | some value =>
    rw [Option.bind_some, Option.filter_some, CorsConfig.lists]
    cases htext : value.toStr with
    | none => rfl
    | some text =>
      rw [Option.bind_some, Option.any_some, HeaderValue.fromStr_of_toStr htext]

/-- A gated policy admits exactly the listed origins, and echoes them. -/
theorem resolveAllowOrigin_fromConfig (h : cors.Gated) (origin : Option HeaderValue) :
    (CorsPolicy.fromConfig cors).resolveAllowOrigin origin = origin.filter cors.lists := by
  rw [← echo_eq_filter]
  unfold CorsPolicy.resolveAllowOrigin CorsPolicy.fromConfig
  rcases h with ⟨hpolicy | hpolicy, hlisted⟩ | ⟨hpolicy, hany⟩
  · simp [hpolicy, hlisted]
  · simp [hpolicy]
  · cases horigins : cors.origins with
    -- without a list the policy is closed
    | nil => simp [hpolicy, hany]
    | cons => simp [hpolicy]

/-- A configuration without errors has credentials with a gated policy only. -/
theorem Config.Sound.gated (h : cfg.Sound isFile)
    (hcredentials : cfg.cors.allowCredentials = true) :
    cfg.cors.Gated := by
  cases hpolicy : cfg.cors.policy with
  | wildcard =>
    rw [h.wildcard_credentials hpolicy] at hcredentials
    cases hcredentials
  | reflect =>
    refine .inr ⟨hpolicy, eq_false_of_ne_true fun hany => ?_⟩
    rw [h.reflect_credentials hpolicy hany] at hcredentials
    cases hcredentials
  | explicit => exact .inl ⟨.inr hpolicy, h.explicit_origins hpolicy⟩

/-! ## The responses -/

/-- A response without a decision of its own gets the policy's. -/
theorem decided_applyToResponse
    (horigin : responseHeaders.getAll ACCESS_CONTROL_ALLOW_ORIGIN = [])
    (hcredentials : responseHeaders.getAll ACCESS_CONTROL_ALLOW_CREDENTIALS = []) :
    Decided cors requestHeaders
      (applyToResponse responseHeaders requestHeaders (.fromConfig cors)) where
  allowOrigin := by
    rw [getAll_allowOrigin_applyToResponse, horigin]
    cases (CorsPolicy.fromConfig cors).resolveAllowOrigin (requestHeaders.get .origin) <;> rfl
  allowCredentials := by
    rw [getAll_allowCredentials_applyToResponse, hcredentials]
    rfl

/-- The answer to a preflight carries the policy's decision. -/
theorem decided_buildPreflightResponse :
    Decided cors requestHeaders
      (buildPreflightResponse requestHeaders (.fromConfig cors)).headers where
  allowOrigin := by
    rw [getAll_buildPreflightResponse (by decide), getAll_allowOrigin_applyCorsBase]
    cases (CorsPolicy.fromConfig cors).resolveAllowOrigin (requestHeaders.get .origin) <;> rfl
  allowCredentials := by
    rw [getAll_buildPreflightResponse (by decide), getAll_allowCredentials_applyCorsBase]
    rfl

/-- The text of the value `*`. -/
theorem toStr_eq_star_iff {value : HeaderValue} :
    value.toStr = some ("*" : Str) ↔ value = CorsPolicy.star := by
  constructor
  · intro h
    exact Option.some.inj ((HeaderValue.fromStr_of_toStr h).symm.trans (by decide))
  · rintro rfl
    decide

/-- A decision grants credentials to a listed origin that is echoed, or not at all. -/
theorem Decided.credentials (h : Decided cfg.cors requestHeaders responseHeaders)
    (hsound : cfg.Sound isFile)
    (hgranted : responseHeaders.getAll ACCESS_CONTROL_ALLOW_CREDENTIALS ≠ []) :
    cfg.cors.allowCredentials = true ∧
      ∃ origin, requestHeaders.get .origin = some origin ∧ cfg.cors.lists origin = true ∧
        responseHeaders.getAll ACCESS_CONTROL_ALLOW_ORIGIN = [origin] := by
  rw [h.allowCredentials, ne_eq, ite_eq_right_iff, Classical.not_imp, Bool.and_eq_true] at hgranted
  obtain ⟨⟨hadmitted, hcredentials⟩, -⟩ := hgranted
  refine ⟨hcredentials, ?_⟩
  rw [h.allowOrigin]
  rw [resolveAllowOrigin_fromConfig (hsound.gated hcredentials)] at hadmitted ⊢
  obtain ⟨origin, hfilter⟩ := Option.isSome_iff_exists.mp hadmitted
  obtain ⟨hget, hlisted⟩ := Option.filter_eq_some_iff.mp hfilter
  exact ⟨origin, hget, hlisted, by rw [hfilter, Option.toList_some]⟩

/-- A decision keeps to the list, except that it echoes a listed `*`. -/
theorem Decided.keepsToList_iff (h : Decided cfg.cors requestHeaders responseHeaders)
    (hsound : cfg.Sound isFile) :
    OnlyListed cfg.cors requestHeaders responseHeaders ↔ ¬ cfg.cors.EchoesStar requestHeaders := by
  constructor
  · rintro hlisted ⟨hcredentials, hmem, htext⟩
    -- the origin `*` is listed, so it is echoed together with the credentials
    obtain ⟨origin, hget, htext⟩ := Option.bind_eq_some_iff.mp htext
    obtain rfl := toStr_eq_star_iff.mp htext
    have hlists : cfg.cors.lists CorsPolicy.star = true := by
      rw [CorsConfig.lists, htext, Option.any_some]
      exact List.contains_iff_mem.mpr hmem
    have hresolve := resolveAllowOrigin_fromConfig (hsound.gated hcredentials)
      (requestHeaders.get .origin)
    rw [hget, Option.filter_some, if_pos hlists] at hresolve
    refine hlisted.no_star ?_ ?_
    · rw [h.allowCredentials, hget, hresolve, hcredentials]
      exact List.cons_ne_nil _ _
    · rw [h.allowOrigin, hget, hresolve]
      exact List.mem_singleton_self _
  · intro hstar
    refine ⟨fun hgranted => (h.credentials hsound hgranted).2, fun hgranted hmem => ?_, ?_⟩
    -- an echoed `*` is a listed origin
    · obtain ⟨hcredentials, origin, hget, hlists, horigin⟩ := h.credentials hsound hgranted
      rw [horigin, List.mem_singleton] at hmem
      subst hmem
      have htext := toStr_eq_star_iff.mpr (rfl : CorsPolicy.star = CorsPolicy.star)
      rw [CorsConfig.lists, htext, Option.any_some] at hlists
      refine hstar ⟨hcredentials, List.contains_iff_mem.mp hlists, ?_⟩
      rw [HeaderMap.getStr, hget, Option.bind_some, htext]
    · intro hgated hunlisted
      rw [h.allowOrigin, resolveAllowOrigin_fromConfig hgated]
      have hnone : (requestHeaders.get .origin).filter cfg.cors.lists = none :=
        Option.filter_eq_none_iff.mpr fun origin hget => by simp [hunlisted origin hget]
      rw [hnone, Option.toList_none]

/-- For a configuration without errors, a response that carries no decision beforehand and the
answer to a preflight keep to the listed origins, exactly unless the request comes from the
origin `*` and a policy with credentials lists it. -/
theorem onlyListed_iff {isFile : Str → Bool} {cfg : Config}
    {requestHeaders responseHeaders : HeaderMap} (hvalid : (cfg.validateFull isFile).errors = [])
    (horigin : responseHeaders.getAll ACCESS_CONTROL_ALLOW_ORIGIN = [])
    (hcredentials : responseHeaders.getAll ACCESS_CONTROL_ALLOW_CREDENTIALS = []) :
    (OnlyListed cfg.cors requestHeaders
        (applyToResponse responseHeaders requestHeaders (.fromConfig cfg.cors)) ↔
      ¬ cfg.cors.EchoesStar requestHeaders) ∧
    (OnlyListed cfg.cors requestHeaders
        (buildPreflightResponse requestHeaders (.fromConfig cfg.cors)).headers ↔
      ¬ cfg.cors.EchoesStar requestHeaders) := by
  have hsound : cfg.Sound isFile := validateFull_errors_eq_nil_iff.mp hvalid
  exact ⟨(decided_applyToResponse horigin hcredentials).keepsToList_iff hsound,
    decided_buildPreflightResponse.keepsToList_iff hsound⟩

/-- Credentials for the origin `*`, and for it only. -/
def starListed : Config :=
  { Config.default "0.2.0" with
    cors :=
      { (Config.default "0.2.0").cors with
        policy := .explicit
        origins := ["*"]
        allowCredentials := true } }

/-- A request with the given origin. -/
def fromOrigin (origin : HeaderValue) : HeaderMap :=
  MultiMap.empty.insert .origin origin

/-- The origin of some pages. -/
def pagesOrigin : HeaderValue :=
  (HeaderValue.fromStr "https://listed.test").get (by decide)

/-- Credentials for these pages and for the origin `*`. -/
def pagesListed : Config :=
  { starListed with
    cors := { starListed.cors with origins := ["https://listed.test", "*"] } }

/-- The pages are granted credentials by both responses, and both keep to the list. -/
theorem onlyListed_iff_pagesListed :
    (applyToResponse .empty (fromOrigin pagesOrigin)
        (.fromConfig pagesListed.cors)).getAll ACCESS_CONTROL_ALLOW_CREDENTIALS = [headerTrue] ∧
      OnlyListed pagesListed.cors (fromOrigin pagesOrigin)
        (applyToResponse .empty (fromOrigin pagesOrigin) (.fromConfig pagesListed.cors)) ∧
      OnlyListed pagesListed.cors (fromOrigin pagesOrigin)
        (buildPreflightResponse (fromOrigin pagesOrigin)
          (.fromConfig pagesListed.cors)).headers := by
  have hvalid : (pagesListed.validateFull fun _ => false).errors = [] := by decide +kernel
  have hother : ¬ pagesListed.cors.EchoesStar (fromOrigin pagesOrigin) := by decide +kernel
  obtain ⟨hresponse, hpreflight⟩ :=
    @onlyListed_iff _ _ (fromOrigin pagesOrigin) .empty hvalid rfl rfl
  exact ⟨by decide +kernel, hresponse.mpr hother, hpreflight.mpr hother⟩

/-- The origin `*` gets an allowed origin of `*` together with credentials, though the
configuration has no errors. -/
theorem star_with_credentials :
    (starListed.validateFull fun _ => false).errors = [] ∧
    (applyToResponse .empty (fromOrigin CorsPolicy.star)
      (.fromConfig starListed.cors)).getAll ACCESS_CONTROL_ALLOW_ORIGIN = [CorsPolicy.star] ∧
    (applyToResponse .empty (fromOrigin CorsPolicy.star)
      (.fromConfig starListed.cors)).getAll ACCESS_CONTROL_ALLOW_CREDENTIALS = [headerTrue] ∧
    ¬ OnlyListed starListed.cors (fromOrigin CorsPolicy.star)
      (applyToResponse .empty (fromOrigin CorsPolicy.star) (.fromConfig starListed.cors)) := by
  have horigin : (applyToResponse .empty (fromOrigin CorsPolicy.star)
      (.fromConfig starListed.cors)).getAll ACCESS_CONTROL_ALLOW_ORIGIN = [CorsPolicy.star] := by
    decide +kernel
  have hcredentials : (applyToResponse .empty (fromOrigin CorsPolicy.star)
      (.fromConfig starListed.cors)).getAll ACCESS_CONTROL_ALLOW_CREDENTIALS = [headerTrue] := by
    decide +kernel
  refine ⟨by decide +kernel, horigin, hcredentials, fun h => h.no_star ?_ ?_⟩
  · rw [hcredentials]
    exact List.cons_ne_nil _ _
  · rw [horigin]
    exact List.mem_singleton_self _

end Corx
