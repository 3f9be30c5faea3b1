import Corx.Server.Router

/-!
# What bearer authentication covers

The authentication layer exempts every `OPTIONS` request, for the sake of CORS preflights; the
proxy handler answers preflights itself, and by a stricter test. An `OPTIONS` request between
the two tests is forwarded without a token (`options_forwarded_without_token`), and
`bearerCovers_iff` shows that there is no other gap.
-/

namespace Corx

/-- What bearer authentication promises for a request: it is forwarded only with a token,
exempt from one only as an operational route or a preflight, and those are not forwarded. -/
structure BearerCovers (parsers : Parsers) (routeMatches : Str → Str → Bool)
    (build : ServerBuild) (request : Request) (clientIp : IpAddr) (requestId : Str) : Prop where
  token_of_forwarded : ∀ outbound,
    handle parsers routeMatches build request clientIp requestId = .forwarded outbound →
      CarriesToken build.policies.config.security.auth.bearerTokens request.headers
  exempt_of_authLayer : authLayer build request = .ok () →
    ¬ CarriesToken build.policies.config.security.auth.bearerTokens request.headers →
      opsRouted routeMatches build request.uri.path = true ∨
        isPreflight request.method request.headers = true
  not_forwarded_of_exempt : opsRouted routeMatches build request.uri.path = true ∨
      isPreflight request.method request.headers = true → ∀ outbound,
    handle parsers routeMatches build request clientIp requestId ≠ .forwarded outbound

/-- In bearer mode the authentication layer lets exactly the exempt requests pass, and those
that carry a token. -/
theorem authLayer_eq_ok {build : ServerBuild} {request : Request}
    (hmode : build.policies.config.security.auth.mode = .bearer) :
    authLayer build request = .ok () ↔
      request.method = .options ∨ isOpsPath request.uri.path build = true ∨
        CarriesToken build.policies.config.security.auth.bearerTokens request.headers := by
  unfold authLayer
  by_cases hexempt : request.method = .options ∨ isOpsPath request.uri.path build = true
  · rw [if_pos (by simpa using hexempt)]
    exact iff_of_true rfl (hexempt.imp_right Or.inl)
  · rw [if_neg (by simpa using hexempt)]
    simp only [hmode, ne_eq, not_true_eq_false, ↓reduceIte, checkBearer_eq_ok]
    rw [← or_assoc]
    exact (or_iff_right hexempt).symm

/-- In bearer mode the promise is kept for exactly the requests that carry a token, are
operational routes or preflights, or are neither `OPTIONS` nor on an operational path. -/
theorem bearerCovers_iff (parsers : Parsers) (routeMatches : Str → Str → Bool)
    {build : ServerBuild} (hmode : build.policies.config.security.auth.mode = .bearer)
    (request : Request) (clientIp : IpAddr) (requestId : Str) :
    BearerCovers parsers routeMatches build request clientIp requestId ↔
      CarriesToken build.policies.config.security.auth.bearerTokens request.headers ∨
      opsRouted routeMatches build request.uri.path = true ∨
      isPreflight request.method request.headers = true ∨
      request.method ≠ .options ∧ isOpsPath request.uri.path build = false := by
  have hauth : authLayer build request = .ok () ↔ _ := authLayer_eq_ok hmode
  constructor
  · intro hcovers
    by_cases htoken :
        CarriesToken build.policies.config.security.auth.bearerTokens request.headers
    · exact Or.inl htoken
    -- without a token, a request that passes is exempt, and one that does not is not exempted
    · by_cases hpass : authLayer build request = .ok ()
      · rcases hcovers.exempt_of_authLayer hpass htoken with hops | hpreflight
        · exact Or.inr (Or.inl hops)
        · exact Or.inr (Or.inr (Or.inl hpreflight))
      · rw [hauth, not_or, not_or] at hpass
        exact Or.inr (Or.inr (Or.inr ⟨hpass.1, eq_false_of_ne_true hpass.2.1⟩))
  · intro hcond
    have hexempt : authLayer build request = .ok () →
        ¬ CarriesToken build.policies.config.security.auth.bearerTokens request.headers →
          opsRouted routeMatches build request.uri.path = true ∨
            isPreflight request.method request.headers = true := by
      intro hpass htoken
      -- what passes without a token is `OPTIONS` or on an operational path, and of these the
      -- condition leaves the exempt ones only
      rcases hcond with htoken' | hops | hpreflight | ⟨hmethod, hpath⟩
      · exact absurd htoken' htoken
      · exact Or.inl hops
      · exact Or.inr hpreflight
      · rcases hauth.mp hpass with hoptions | hops | htoken'
        · exact absurd hoptions hmethod
        · exact absurd hops (by simp [hpath])
        · exact absurd htoken' htoken
    refine ⟨?_, hexempt, ?_⟩
    -- a forwarded request has passed and is not exempt, so it has a token
    · intro outbound hforwarded
      obtain ⟨hpass, hops, hpreflight⟩ := handle_eq_forwarded hforwarded
      by_contra htoken
      rcases hexempt hpass htoken with h | h
      · exact absurd h (by simp [hops])
      · exact absurd h (by simp [hpreflight])
    · intro hor outbound hforwarded
      obtain ⟨-, hops, hpreflight⟩ := handle_eq_forwarded hforwarded
      rcases hor with h | h
      · exact absurd h (by simp [hops])
      · exact absurd h (by simp [hpreflight])

/-! ## An `OPTIONS` request that is not a preflight -/

/-- The default configuration with one bearer token. -/
def bearerConfig : Config :=
  { Config.default "0.2.0" with
    security :=
      { SecurityConfig.default with auth := { mode := .bearer, bearerTokens := ["s3cret"] } } }

/-- A server with one bearer token and without rate limits. -/
def bearerBuild : ServerBuild :=
  (ServerBuild.fromConfig bearerConfig fun _ => .ok ()).toOption.get (by decide +kernel)

/-- An `OPTIONS` request to a target, with an origin and nothing else. -/
def plainOptions : Request where
  method := .options
  uri := { scheme := none, authority := none, path := "/https://api.test/", query := none }
  headers := .ofList [(.origin, ⟨Str.asBytes "https://app.test", by decide⟩)]
  body := []

/-- A `GET` request to the same target with the token. -/
def tokenGet : Request where
  method := .get
  uri := { scheme := none, authority := none, path := "/https://api.test/", query := none }
  headers := .ofList
    [(.origin, ⟨Str.asBytes "https://app.test", by decide⟩),
      (.authorization, ⟨Str.asBytes "Bearer s3cret", by decide⟩)]
  body := []

/-- `bearerCovers_iff` for a request that carries the token; routes without braces match their
own text. -/
theorem bearerCovers_iff_tokenGet :
    BearerCovers .plain (fun route path => route = path) bearerBuild tokenGet (.v4 0) [] ↔
      CarriesToken bearerBuild.policies.config.security.auth.bearerTokens tokenGet.headers ∨
      opsRouted (fun route path => route = path) bearerBuild tokenGet.uri.path = true ∨
      isPreflight tokenGet.method tokenGet.headers = true ∨
      tokenGet.method ≠ .options ∧ isOpsPath tokenGet.uri.path bearerBuild = false :=
  bearerCovers_iff .plain (fun route path => route = path) (by decide +kernel) tokenGet (.v4 0) []

/-- An `OPTIONS` request that is not a preflight is forwarded without any token. -/
theorem options_forwarded_without_token :
    bearerBuild.policies.config.security.auth.mode = .bearer ∧
    (∃ outbound, handle .plain (fun route path => route = path) bearerBuild plainOptions
      (.v4 0) [] = .forwarded outbound) ∧
    ¬ CarriesToken bearerBuild.policies.config.security.auth.bearerTokens
      plainOptions.headers := by
  refine ⟨by decide +kernel, Handled.exists_of_isForwarded (by decide +kernel), fun htoken => ?_⟩
  exact absurd (checkBearer_eq_ok.mpr htoken) (by decide +kernel)

end Corx
