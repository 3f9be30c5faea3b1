import Corx.Server.Router

/-!
# CORS decisions and the upstream

Two runs of the response path on upstream responses that differ in their CORS decisions only.
The policy overwrites the allowed origin of an admitted request, and the allowed credentials of
an admitted request if it has credentials; in the other branches it leaves what the upstream
sent. `corsIndependent_iff` gives the exact condition under which the upstream cannot tell.
-/

namespace Corx

/-- The headers that carry the CORS decision. -/
def CORS_DECISION : Set HeaderName :=
  {ACCESS_CONTROL_ALLOW_ORIGIN, ACCESS_CONTROL_ALLOW_CREDENTIALS}

/-- The headers that leave the proxy for an upstream response. -/
def answerHeaders (parsers : Parsers) (policies : LivePolicies) (target : TargetUrl)
    (requestHeaders : HeaderMap) (response : Response) : HeaderMap :=
  (corsLayer policies requestHeaders (shapeResponse parsers policies target response)).headers

/-- The policy admits the origin of the request. -/
def Admits (policies : LivePolicies) (requestHeaders : HeaderMap) : Prop :=
  (policies.cors.resolveAllowOrigin (requestHeaders.get .origin)).isSome = true
  deriving Decidable

/-- The CORS decisions that leave the proxy do not depend on which of the two responses the
upstream sent, and they grant nothing that the policy does not grant. -/
structure CorsIndependent (parsers : Parsers) (policies : LivePolicies) (target : TargetUrl)
    (requestHeaders : HeaderMap) (response₁ response₂ : Response) : Prop where
  same : ∀ name ∈ CORS_DECISION,
    (answerHeaders parsers policies target requestHeaders response₁).getAll name =
      (answerHeaders parsers policies target requestHeaders response₂).getAll name
  no_origin : ¬ Admits policies requestHeaders → ∀ response ∈ [response₁, response₂],
    (answerHeaders parsers policies target requestHeaders response).getAll
      ACCESS_CONTROL_ALLOW_ORIGIN = []
  no_credentials : policies.cors.allowCredentials = false →
    ∀ response ∈ [response₁, response₂],
      (answerHeaders parsers policies target requestHeaders response).getAll
        ACCESS_CONTROL_ALLOW_CREDENTIALS = []

/-- The response filter strips a header from a response. -/
def Strips (policies : LivePolicies) (response : Response) (name : HeaderName) : Prop :=
  name ∈ policies.responseFilter.stripped response.headers

variable {parsers : Parsers} {policies : LivePolicies} {target : TargetUrl}
  {requestHeaders : HeaderMap} {response response₁ response₂ : Response}

/-- A header of an upstream response reaches the CORS layer unless the filter strips it. -/
theorem getAll_shaped {name : HeaderName} (hname : name ∈ CORS_DECISION) :
    (¬ Strips policies response name →
      (shapeResponse parsers policies target response).headers.getAll name =
        response.headers.getAll name) ∧
    (Strips policies response name →
      (shapeResponse parsers policies target response).headers.getAll name = []) := by
  have hwritten : name ∉ [EXPOSE_URL_HEADER, .via, .location] := by
    rcases hname with rfl | rfl <;> decide
  rw [getAll_shapeResponse hwritten, HeaderFilter.apply_eq, MultiMap.getAll_removeAll]
  exact ⟨fun h => if_neg h, fun h => if_pos h⟩

/-- The allowed origin that leaves the proxy for an admitted request is the policy's. -/
theorem allowOrigin_of_admits (h : Admits policies requestHeaders) :
    (answerHeaders parsers policies target requestHeaders response).getAll
        ACCESS_CONTROL_ALLOW_ORIGIN =
      [(policies.cors.resolveAllowOrigin (requestHeaders.get .origin)).get h] := by
  obtain ⟨allowOrigin, hsome⟩ := Option.isSome_iff_exists.mp h
  simp only [answerHeaders, corsLayer, getAll_allowOrigin_applyToResponse, hsome,
    Option.get_some]

/-- The allowed origin that leaves the proxy for a request that is not admitted is the
upstream's. -/
theorem allowOrigin_of_not_admits (h : ¬ Admits policies requestHeaders) :
    (answerHeaders parsers policies target requestHeaders response).getAll
        ACCESS_CONTROL_ALLOW_ORIGIN =
      (shapeResponse parsers policies target response).headers.getAll
        ACCESS_CONTROL_ALLOW_ORIGIN := by
  have hnone : policies.cors.resolveAllowOrigin (requestHeaders.get .origin) = none := by
    simpa [Admits] using h
  rw [answerHeaders, corsLayer, getAll_allowOrigin_applyToResponse, hnone]

/-- The allowed credentials that leave the proxy for an admitted request to a policy with
credentials are the policy's. -/
theorem allowCredentials_of_granted
    (h : Admits policies requestHeaders ∧ policies.cors.allowCredentials = true) :
    (answerHeaders parsers policies target requestHeaders response).getAll
        ACCESS_CONTROL_ALLOW_CREDENTIALS = [headerTrue] := by
  rw [answerHeaders, corsLayer, getAll_allowCredentials_applyToResponse, if_pos]
  simpa [Admits] using h

/-- The allowed credentials that leave the proxy where the policy does not grant them are the
upstream's. -/
theorem allowCredentials_of_not_granted
    (h : ¬ (Admits policies requestHeaders ∧ policies.cors.allowCredentials = true)) :
    (answerHeaders parsers policies target requestHeaders response).getAll
        ACCESS_CONTROL_ALLOW_CREDENTIALS =
      (shapeResponse parsers policies target response).headers.getAll
        ACCESS_CONTROL_ALLOW_CREDENTIALS := by
  rw [answerHeaders, corsLayer, getAll_allowCredentials_applyToResponse, if_neg]
  simpa [Admits] using h

/-- Responses that differ in the CORS decision only have the same headers stripped. -/
theorem strips_congr (hdiff : MultiMap.AgreeOff CORS_DECISION response₁.headers response₂.headers)
    (name : HeaderName) : Strips policies response₁ name ↔ Strips policies response₂ name := by
  have hconnection : HeaderName.connection ∉ CORS_DECISION := by
    rintro (h | h) <;> exact absurd h (by decide)
  rw [Strips, Strips, HeaderFilter.stripped_congr _ (hdiff.get_eq hconnection)]

/-- The allowed origin is the same for both upstreams, and none where the policy admits none,
exactly when the policy writes it, the filter strips it, or neither upstream sends one. -/
theorem allowOrigin_iff
    (hdiff : MultiMap.AgreeOff CORS_DECISION response₁.headers response₂.headers) :
    ((answerHeaders parsers policies target requestHeaders response₁).getAll
          ACCESS_CONTROL_ALLOW_ORIGIN =
        (answerHeaders parsers policies target requestHeaders response₂).getAll
          ACCESS_CONTROL_ALLOW_ORIGIN ∧
      (¬ Admits policies requestHeaders → ∀ response ∈ [response₁, response₂],
        (answerHeaders parsers policies target requestHeaders response).getAll
          ACCESS_CONTROL_ALLOW_ORIGIN = [])) ↔
      Admits policies requestHeaders ∨ Strips policies response₁ ACCESS_CONTROL_ALLOW_ORIGIN ∨
        response₁.headers.getAll ACCESS_CONTROL_ALLOW_ORIGIN = [] ∧
          response₂.headers.getAll ACCESS_CONTROL_ALLOW_ORIGIN = [] := by
  have hmem : ACCESS_CONTROL_ALLOW_ORIGIN ∈ CORS_DECISION := Or.inl rfl
  by_cases hadmits : Admits policies requestHeaders
  · simp [hadmits, allowOrigin_of_admits hadmits]
  -- the policy writes nothing, so the upstream decides unless the filter strips the header
  · simp only [hadmits, allowOrigin_of_not_admits hadmits, List.forall_mem_cons,
      List.not_mem_nil, false_imp_iff, implies_true, not_false_eq_true, true_imp_iff, and_true,
      false_or]
    by_cases hstrips : Strips policies response₁ ACCESS_CONTROL_ALLOW_ORIGIN
    · have hstrips₂ := (strips_congr hdiff _).mp hstrips
      simp [hstrips, (getAll_shaped hmem).2 hstrips, (getAll_shaped hmem).2 hstrips₂]
    · have hstrips₂ := fun h => hstrips ((strips_congr hdiff _).mpr h)
      rw [(getAll_shaped hmem).1 hstrips, (getAll_shaped hmem).1 hstrips₂]
      constructor
      · exact fun h => Or.inr h.2
      · rintro (h | h)
        · exact absurd h hstrips
        · exact ⟨h.1.trans h.2.symm, h⟩

/-- The allowed credentials are the same for both upstreams, and none where the policy has none,
exactly when the filter strips them, or the policy has credentials and either writes them or
passes on equal ones, or it has none and neither does an upstream. -/
theorem allowCredentials_iff
    (hdiff : MultiMap.AgreeOff CORS_DECISION response₁.headers response₂.headers) :
    ((answerHeaders parsers policies target requestHeaders response₁).getAll
          ACCESS_CONTROL_ALLOW_CREDENTIALS =
        (answerHeaders parsers policies target requestHeaders response₂).getAll
          ACCESS_CONTROL_ALLOW_CREDENTIALS ∧
      (policies.cors.allowCredentials = false → ∀ response ∈ [response₁, response₂],
        (answerHeaders parsers policies target requestHeaders response).getAll
          ACCESS_CONTROL_ALLOW_CREDENTIALS = [])) ↔
      Strips policies response₁ ACCESS_CONTROL_ALLOW_CREDENTIALS ∨
        policies.cors.allowCredentials = true ∧
          (Admits policies requestHeaders ∨
            response₁.headers.getAll ACCESS_CONTROL_ALLOW_CREDENTIALS =
              response₂.headers.getAll ACCESS_CONTROL_ALLOW_CREDENTIALS) ∨
        policies.cors.allowCredentials = false ∧
          response₁.headers.getAll ACCESS_CONTROL_ALLOW_CREDENTIALS = [] ∧
          response₂.headers.getAll ACCESS_CONTROL_ALLOW_CREDENTIALS = [] := by
  have hmem : ACCESS_CONTROL_ALLOW_CREDENTIALS ∈ CORS_DECISION := Or.inr rfl
  by_cases hgranted :
      Admits policies requestHeaders ∧ policies.cors.allowCredentials = true
  · simp [hgranted, allowCredentials_of_granted hgranted]
  -- the policy writes nothing, so the upstream decides unless the filter strips the header
  · simp only [allowCredentials_of_not_granted hgranted, List.forall_mem_cons,
      List.not_mem_nil, false_imp_iff, implies_true, and_true]
    by_cases hstrips : Strips policies response₁ ACCESS_CONTROL_ALLOW_CREDENTIALS
    · have hstrips₂ := (strips_congr hdiff _).mp hstrips
      simp [hstrips, (getAll_shaped hmem).2 hstrips, (getAll_shaped hmem).2 hstrips₂]
    · have hstrips₂ := fun h => hstrips ((strips_congr hdiff _).mpr h)
      rw [(getAll_shaped hmem).1 hstrips, (getAll_shaped hmem).1 hstrips₂]
      cases hcredentials : policies.cors.allowCredentials with
      | true =>
        have hadmits : ¬ Admits policies requestHeaders := fun h => hgranted ⟨h, hcredentials⟩
        simp [hstrips, hadmits]
      | false =>
        simp only [hstrips, Bool.false_eq_true, false_and, false_or, true_imp_iff, true_and]
        exact and_iff_right_of_imp fun h => h.1.trans h.2.symm

/-- For two upstream responses that differ in the CORS decision only, what leaves the proxy
neither depends on the upstream nor exceeds the policy exactly when

* the policy admits the origin, or the filter strips the upstream's allowed origin, or there is
  none; and
* the filter strips the upstream's allowed credentials; or the policy has credentials and admits
  the origin, or the two agree on them; or it has none, and neither upstream sent any. -/
theorem corsIndependent_iff
    (hdiff : MultiMap.AgreeOff CORS_DECISION response₁.headers response₂.headers) :
    CorsIndependent parsers policies target requestHeaders response₁ response₂ ↔
      (Admits policies requestHeaders ∨ Strips policies response₁ ACCESS_CONTROL_ALLOW_ORIGIN ∨
        response₁.headers.getAll ACCESS_CONTROL_ALLOW_ORIGIN = [] ∧
          response₂.headers.getAll ACCESS_CONTROL_ALLOW_ORIGIN = []) ∧
      (Strips policies response₁ ACCESS_CONTROL_ALLOW_CREDENTIALS ∨
        policies.cors.allowCredentials = true ∧
          (Admits policies requestHeaders ∨
            response₁.headers.getAll ACCESS_CONTROL_ALLOW_CREDENTIALS =
              response₂.headers.getAll ACCESS_CONTROL_ALLOW_CREDENTIALS) ∨
        policies.cors.allowCredentials = false ∧
          response₁.headers.getAll ACCESS_CONTROL_ALLOW_CREDENTIALS = [] ∧
          response₂.headers.getAll ACCESS_CONTROL_ALLOW_CREDENTIALS = []) := by
  constructor
  · rintro ⟨hsame, horigin, hcredentials⟩
    exact ⟨(allowOrigin_iff hdiff).mp ⟨hsame _ (Or.inl rfl), horigin⟩,
      (allowCredentials_iff hdiff).mp ⟨hsame _ (Or.inr rfl), hcredentials⟩⟩
  · rintro ⟨horiginCond, hcredentialsCond⟩
    obtain ⟨hsameOrigin, horigin⟩ := (allowOrigin_iff hdiff).mpr horiginCond
    obtain ⟨hsameCredentials, hcredentials⟩ := (allowCredentials_iff hdiff).mpr hcredentialsCond
    refine ⟨?_, horigin, hcredentials⟩
    rintro name (rfl | rfl)
    · exact hsameOrigin
    · exact hsameCredentials

/-! ## An upstream that allows every origin -/

/-- The policies of a CORS section without rate limits, the rest of the configuration being the
default one. -/
def corsPolicies (cors : CorsConfig) : Option LivePolicies :=
  (LivePolicies.build { Config.default "0.2.0" with cors } fun _ => .ok ()).toOption

/-- The policies of the default configuration: no origin is admitted. -/
def closedPolicies : LivePolicies :=
  (corsPolicies CorsConfig.default).get (by decide +kernel)

/-- The policies that admit any origin, with credentials. -/
def reflectingPolicies : LivePolicies :=
  (corsPolicies { CorsConfig.default with allowAnyOrigin := true, allowCredentials := true }).get
    (by decide +kernel)

/-- `https://api.test/`. -/
def apiTarget : TargetUrl where
  url := { scheme := "https", username := [], password := none, hostStr := some "api.test"
           port := none, path := "/", query := none, fragment := none }
  host := "api.test"
  port := 443

/-- A request from another site. -/
def crossOrigin : HeaderMap :=
  .ofList [(.origin, ⟨Str.asBytes "https://other.test", by decide⟩)]

/-- An upstream response that allows every origin. -/
def openResponse : Response where
  status := .ok
  headers := MultiMap.empty.insert ACCESS_CONTROL_ALLOW_ORIGIN CorsPolicy.star

/-- An upstream response without headers. -/
def bareResponse : Response where
  status := .ok
  headers := .empty

/-- The two responses differ in the allowed origin only. -/
theorem agreeOff_open_bare :
    MultiMap.AgreeOff CORS_DECISION openResponse.headers bareResponse.headers := by
  intro name hname
  have hne : name ≠ ACCESS_CONTROL_ALLOW_ORIGIN := fun h => hname (Or.inl h)
  simp [openResponse, bareResponse, hne]

/-- `corsIndependent_iff` where the policy admits the origin and has credentials. -/
theorem corsIndependent_iff_reflecting :
    CorsIndependent .plain reflectingPolicies apiTarget crossOrigin openResponse bareResponse :=
  (corsIndependent_iff agreeOff_open_bare).mpr
    ⟨Or.inl (by decide +kernel), Or.inr (Or.inl ⟨by decide +kernel, Or.inl (by decide +kernel)⟩)⟩

/-- The upstream's permission for every origin leaves the proxy, for a request whose origin the
policy does not admit. -/
theorem upstream_origin_passes :
    MultiMap.AgreeOff CORS_DECISION openResponse.headers bareResponse.headers ∧
    ¬ Admits closedPolicies crossOrigin ∧
    (answerHeaders .plain closedPolicies apiTarget crossOrigin openResponse).getAll
      ACCESS_CONTROL_ALLOW_ORIGIN = [CorsPolicy.star] ∧
    (answerHeaders .plain closedPolicies apiTarget crossOrigin bareResponse).getAll
      ACCESS_CONTROL_ALLOW_ORIGIN = [] :=
  ⟨agreeOff_open_bare, by decide +kernel, by decide +kernel, by decide +kernel⟩

end Corx
