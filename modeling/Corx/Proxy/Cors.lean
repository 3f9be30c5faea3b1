import Corx.Config
import Corx.Http

/-!
# CORS policy

The compiled policy, the response to a preflight, and the headers stamped onto every other
response. `resolveAllowOrigin` decides whether the policy admits the request's origin; a
response to a request that is not admitted only records that it varies with the origin.
-/

namespace Corx

/-- `access-control-allow-origin`. -/
def ACCESS_CONTROL_ALLOW_ORIGIN : HeaderName := ⟨"access-control-allow-origin", by decide⟩

/-- `access-control-allow-credentials`. -/
def ACCESS_CONTROL_ALLOW_CREDENTIALS : HeaderName :=
  ⟨"access-control-allow-credentials", by decide⟩

/-- `access-control-allow-methods`. -/
def ACCESS_CONTROL_ALLOW_METHODS : HeaderName := ⟨"access-control-allow-methods", by decide⟩

/-- `access-control-allow-headers`. -/
def ACCESS_CONTROL_ALLOW_HEADERS : HeaderName := ⟨"access-control-allow-headers", by decide⟩

/-- `access-control-expose-headers`. -/
def ACCESS_CONTROL_EXPOSE_HEADERS : HeaderName := ⟨"access-control-expose-headers", by decide⟩

/-- `access-control-max-age`. -/
def ACCESS_CONTROL_MAX_AGE : HeaderName := ⟨"access-control-max-age", by decide⟩

/-- `access-control-request-method`. -/
def ACCESS_CONTROL_REQUEST_METHOD : HeaderName := ⟨"access-control-request-method", by decide⟩

/-- `access-control-request-headers`. -/
def ACCESS_CONTROL_REQUEST_HEADERS : HeaderName := ⟨"access-control-request-headers", by decide⟩

/-- `access-control-request-private-network`. -/
def ACR_PRIVATE_NETWORK : HeaderName := ⟨"access-control-request-private-network", by decide⟩

/-- `access-control-allow-private-network`. -/
def ACA_PRIVATE_NETWORK : HeaderName := ⟨"access-control-allow-private-network", by decide⟩

/-- A set of origins, compared case-sensitively. -/
abbrev OriginSet := List Str

/-- How the allowed origin of a response is found. -/
inductive PolicyMode
  | wildcard
  | reflect (allow : Option OriginSet)
  | explicit (allow : OriginSet)
  deriving DecidableEq, Repr

/-- Compiled CORS policy. -/
structure CorsPolicy where
  mode : PolicyMode
  allowedMethods : Option HeaderValue
  allowedHeaders : Option HeaderValue
  exposedHeaders : Option HeaderValue
  maxAgeValue : Option HeaderValue
  allowCredentials : Bool
  allowPrivateNetwork : Bool
  deriving DecidableEq

/-- A list of tokens as one header value. -/
def encodeTokenList (values : List Str) : Option HeaderValue :=
  if values.isEmpty then none else HeaderValue.fromStr (Str.join ", ".toList values)

/-- A duration in whole seconds as a header value. -/
def encodeMaxAge (duration : Duration) : Option HeaderValue :=
  HeaderValue.fromStr (Str.ofNat (duration / 1000000000))

namespace CorsPolicy

/-- Compile from configuration. An empty list for reflection rejects every origin unless any
origin is allowed. -/
def fromConfig (cfg : CorsConfig) : CorsPolicy where
  mode := match cfg.policy with
    | .wildcard => .wildcard
    | .reflect =>
      -- a list of origins takes precedence over `allow_any_origin`
      if !cfg.origins.isEmpty then .reflect (some cfg.origins)
      else if cfg.allowAnyOrigin then .reflect none
      else .reflect (some [])
    | .explicit => .explicit cfg.origins
  allowedMethods := encodeTokenList cfg.allowedMethods
  allowedHeaders := encodeTokenList cfg.allowedHeaders
  exposedHeaders := encodeTokenList cfg.exposedHeaders
  maxAgeValue := encodeMaxAge cfg.maxAge
  allowCredentials := cfg.allowCredentials
  allowPrivateNetwork := cfg.allowPrivateNetwork

/-- The value `*`. -/
def star : HeaderValue := ⟨Str.asBytes "*", by decide⟩

/-- The `Access-Control-Allow-Origin` value for a request, or nothing where its origin is not
permitted. -/
def resolveAllowOrigin (policy : CorsPolicy) (requestOrigin : Option HeaderValue) :
    Option HeaderValue :=
  match policy.mode with
  | .wildcard =>
    -- with credentials `*` is not allowed, so the origin is echoed
    if policy.allowCredentials then
      (requestOrigin.bind HeaderValue.toStr).bind HeaderValue.fromStr
    else some star
  | .reflect allow =>
    (requestOrigin.bind HeaderValue.toStr).bind fun origin =>
      match allow with
      | some set => if set.contains origin then HeaderValue.fromStr origin else none
      | none => HeaderValue.fromStr origin
  | .explicit set =>
    (requestOrigin.bind HeaderValue.toStr).bind fun origin =>
      if set.contains origin then HeaderValue.fromStr origin else none

end CorsPolicy

/-- Add a token to the first `Vary` header, unless it is there; a value that is not text is
left alone. -/
def appendVary (headers : HeaderMap) (value : Str) : HeaderMap :=
  match headers.get .vary with
  | some existing =>
    match existing.toStr with
    -- a value that is no text is left alone
    | none => headers
    | some existing =>
      if (Str.split existing ',').any fun s => Str.eqIgnoreAsciiCase (Str.trim s) value then
        headers
      -- `insert` replaces every line of the header, of which only the first was read
      else headers.insertStr .vary (existing ++ ", ".toList ++ value)
  | none => headers.insertStr .vary value

/-- The value `true`. -/
def headerTrue : HeaderValue := ⟨Str.asBytes "true", by decide⟩

/-- The CORS headers of every response. -/
def applyCorsBase (responseHeaders requestHeaders : HeaderMap) (policy : CorsPolicy) :
    HeaderMap :=
  match policy.resolveAllowOrigin (requestHeaders.get .origin) with
  -- not admitted: only record that the response varies with the origin
  | none => appendVary responseHeaders "origin"
  | some allowOrigin =>
    let responseHeaders := responseHeaders.insert ACCESS_CONTROL_ALLOW_ORIGIN allowOrigin
    let responseHeaders :=
      if policy.allowCredentials then
        responseHeaders.insert ACCESS_CONTROL_ALLOW_CREDENTIALS headerTrue
      else responseHeaders
    appendVary responseHeaders "origin"

/-- Apply CORS headers to a response that is not to a preflight. -/
def applyToResponse (responseHeaders requestHeaders : HeaderMap) (policy : CorsPolicy) :
    HeaderMap :=
  let responseHeaders := applyCorsBase responseHeaders requestHeaders policy
  match policy.exposedHeaders with
  | some value => responseHeaders.insert ACCESS_CONTROL_EXPOSE_HEADERS value
  | none => responseHeaders

/-- The request is a CORS preflight. -/
def isPreflight (method : Method) (headers : HeaderMap) : Bool :=
  method = .options && headers.containsKey .origin &&
    headers.containsKey ACCESS_CONTROL_REQUEST_METHOD

/-- `204 No Content`. -/
def StatusCode.noContent : StatusCode := ⟨204, by decide⟩

/-- The response to a CORS preflight. The configured lists of methods and headers take
precedence over echoing what the request asks for. -/
def buildPreflightResponse (requestHeaders : HeaderMap) (policy : CorsPolicy) : Response :=
  let headers := applyCorsBase .empty requestHeaders policy
  let headers :=
    match policy.allowedMethods with
    | some value => headers.insert ACCESS_CONTROL_ALLOW_METHODS value
    | none =>
      -- without a list what is asked for is granted
      match requestHeaders.get ACCESS_CONTROL_REQUEST_METHOD with
      | some acrm => headers.insert ACCESS_CONTROL_ALLOW_METHODS acrm
      | none => headers
  let headers :=
    match policy.allowedHeaders with
    | some value => headers.insert ACCESS_CONTROL_ALLOW_HEADERS value
    | none =>
      match requestHeaders.get ACCESS_CONTROL_REQUEST_HEADERS with
      | some acrh => headers.insert ACCESS_CONTROL_ALLOW_HEADERS acrh
      | none => headers
  let headers :=
    match policy.maxAgeValue with
    | some value => headers.insert ACCESS_CONTROL_MAX_AGE value
    | none => headers
  let headers :=
    if policy.allowPrivateNetwork && requestHeaders.containsKey ACR_PRIVATE_NETWORK then
      headers.insert ACA_PRIVATE_NETWORK headerTrue
    else headers
  let headers := appendVary headers "access-control-request-method"
  let headers := appendVary headers "access-control-request-headers"
  { status := .noContent, headers }

/-! ## The decisive headers of a response -/

/-- Recording what a response varies with touches `Vary` only. -/
theorem getAll_appendVary {headers : HeaderMap} {value : Str} {name : HeaderName}
    (hname : name ≠ .vary) : (appendVary headers value).getAll name = headers.getAll name := by
  unfold appendVary
  split
  · split
    · rfl
    · split
      · rfl
      · exact HeaderMap.getAll_insertStr_of_ne hname
  · exact HeaderMap.getAll_insertStr_of_ne hname

/-- What the decision writes: for an admitted request its allowed origin, and the credentials of
a policy that has them. -/
theorem getAll_applyCorsBase (responseHeaders requestHeaders : HeaderMap) (policy : CorsPolicy)
    {name : HeaderName} (hname : name ≠ .vary) :
    (applyCorsBase responseHeaders requestHeaders policy).getAll name =
      (policy.resolveAllowOrigin (requestHeaders.get .origin)).elim (responseHeaders.getAll name)
        fun allowOrigin =>
          if name = ACCESS_CONTROL_ALLOW_CREDENTIALS ∧ policy.allowCredentials = true then
            [headerTrue]
          else if name = ACCESS_CONTROL_ALLOW_ORIGIN then [allowOrigin]
          else responseHeaders.getAll name := by
  rw [applyCorsBase]
  -- the branch that is not admitted never writes a decisive header
  cases policy.resolveAllowOrigin (requestHeaders.get .origin) with
  | none => exact getAll_appendVary hname
  | some allowOrigin =>
    dsimp only [Option.elim_some]
    rw [getAll_appendVary hname]
    cases policy.allowCredentials <;> simp

/-- The decision leaves every other header as it is. -/
theorem getAll_applyCorsBase_of_not_mem {responseHeaders requestHeaders : HeaderMap}
    {policy : CorsPolicy} {name : HeaderName}
    (hname : name ∉ [ACCESS_CONTROL_ALLOW_ORIGIN, ACCESS_CONTROL_ALLOW_CREDENTIALS, .vary]) :
    (applyCorsBase responseHeaders requestHeaders policy).getAll name =
      responseHeaders.getAll name := by
  simp only [List.mem_cons, List.not_mem_nil, or_false, not_or] at hname
  obtain ⟨horigin, hcredentials, hvary⟩ := hname
  rw [getAll_applyCorsBase _ _ _ hvary]
  cases policy.resolveAllowOrigin (requestHeaders.get .origin) <;> simp [horigin, hcredentials]

/-- The decision writes the policy's allowed origin for an admitted request, and else leaves
what was there. -/
theorem getAll_allowOrigin_applyCorsBase (responseHeaders requestHeaders : HeaderMap)
    (policy : CorsPolicy) :
    (applyCorsBase responseHeaders requestHeaders policy).getAll ACCESS_CONTROL_ALLOW_ORIGIN =
      match policy.resolveAllowOrigin (requestHeaders.get .origin) with
      | some allowOrigin => [allowOrigin]
      | none => responseHeaders.getAll ACCESS_CONTROL_ALLOW_ORIGIN := by
  have hcredentials : ACCESS_CONTROL_ALLOW_ORIGIN ≠ ACCESS_CONTROL_ALLOW_CREDENTIALS := by decide
  rw [getAll_applyCorsBase _ _ _ (by decide)]
  cases policy.resolveAllowOrigin (requestHeaders.get .origin) <;> simp [hcredentials]

/-- The decision writes the allowed credentials for an admitted request to a policy with
credentials, and else leaves what was there. -/
theorem getAll_allowCredentials_applyCorsBase (responseHeaders requestHeaders : HeaderMap)
    (policy : CorsPolicy) :
    (applyCorsBase responseHeaders requestHeaders policy).getAll
        ACCESS_CONTROL_ALLOW_CREDENTIALS =
      if (policy.resolveAllowOrigin (requestHeaders.get .origin)).isSome &&
          policy.allowCredentials then [headerTrue]
      else responseHeaders.getAll ACCESS_CONTROL_ALLOW_CREDENTIALS := by
  have horigin : ACCESS_CONTROL_ALLOW_CREDENTIALS ≠ ACCESS_CONTROL_ALLOW_ORIGIN := by decide
  rw [getAll_applyCorsBase _ _ _ (by decide)]
  cases policy.resolveAllowOrigin (requestHeaders.get .origin) <;> simp [horigin]

/-- A response gets the decision, and the exposed headers. -/
theorem getAll_applyToResponse {responseHeaders requestHeaders : HeaderMap} {policy : CorsPolicy}
    {name : HeaderName} (hname : name ≠ ACCESS_CONTROL_EXPOSE_HEADERS) :
    (applyToResponse responseHeaders requestHeaders policy).getAll name =
      (applyCorsBase responseHeaders requestHeaders policy).getAll name := by
  unfold applyToResponse
  cases policy.exposedHeaders <;> simp [hname]

/-- The answer to a preflight gets the decision, and what only preflights ask for. -/
theorem getAll_buildPreflightResponse {requestHeaders : HeaderMap} {policy : CorsPolicy}
    {name : HeaderName}
    (hname : name ∉ [ACCESS_CONTROL_ALLOW_METHODS, ACCESS_CONTROL_ALLOW_HEADERS,
      ACCESS_CONTROL_MAX_AGE, ACA_PRIVATE_NETWORK, .vary]) :
    (buildPreflightResponse requestHeaders policy).headers.getAll name =
      (applyCorsBase .empty requestHeaders policy).getAll name := by
  simp only [List.mem_cons, List.not_mem_nil, or_false, not_or] at hname
  obtain ⟨hmethods, hheaders, hage, hnetwork, hvary⟩ := hname
  unfold buildPreflightResponse
  dsimp only
  rw [getAll_appendVary hvary, getAll_appendVary hvary]
  -- every insertion is of another name
  rw [apply_ite (MultiMap.getAll · name), MultiMap.getAll_insert, if_neg hnetwork, ite_self]
  cases policy.maxAgeValue <;> cases policy.allowedHeaders <;> cases policy.allowedMethods <;>
    cases requestHeaders.get ACCESS_CONTROL_REQUEST_METHOD <;>
    cases requestHeaders.get ACCESS_CONTROL_REQUEST_HEADERS <;>
    simp only [MultiMap.getAll_insert, if_neg hage, if_neg hheaders, if_neg hmethods]

/-- The allowed origin of a response is the policy's for an admitted request, and else whatever
the response had. -/
theorem getAll_allowOrigin_applyToResponse (responseHeaders requestHeaders : HeaderMap)
    (policy : CorsPolicy) :
    (applyToResponse responseHeaders requestHeaders policy).getAll ACCESS_CONTROL_ALLOW_ORIGIN =
      match policy.resolveAllowOrigin (requestHeaders.get .origin) with
      | some allowOrigin => [allowOrigin]
      | none => responseHeaders.getAll ACCESS_CONTROL_ALLOW_ORIGIN := by
  rw [getAll_applyToResponse (by decide), getAll_allowOrigin_applyCorsBase]

/-- The allowed credentials of a response are the policy's for an admitted request to a policy
with credentials, and else whatever the response had. -/
theorem getAll_allowCredentials_applyToResponse (responseHeaders requestHeaders : HeaderMap)
    (policy : CorsPolicy) :
    (applyToResponse responseHeaders requestHeaders policy).getAll
        ACCESS_CONTROL_ALLOW_CREDENTIALS =
      if (policy.resolveAllowOrigin (requestHeaders.get .origin)).isSome &&
          policy.allowCredentials then [headerTrue]
      else responseHeaders.getAll ACCESS_CONTROL_ALLOW_CREDENTIALS := by
  rw [getAll_applyToResponse (by decide), getAll_allowCredentials_applyCorsBase]

end Corx
