import Mathlib.Data.Set.Insert
import Corx.Proxy.Cors
import Corx.Proxy.ListHeaders

/-!
# Stamping responses

What stamping does to a response that is stamped already, and to the `Vary` of the upstream. The
stamped headers are a fixpoint (`applyToResponse_fixpoint`), which the layer relies on when it
stamps the answer to a preflight again. `Vary` is extended behind its first line, and the lines
after that are lost; `vary_extended_iff` says when no token goes with them.
-/

namespace Corx

/-- What a response varies with: the elements of all `Vary` lines, in lower case. -/
def HeaderMap.varyTokens (headers : HeaderMap) : Set Str :=
  {token | token ∈ (headers.flattened .vary).map Str.toAsciiLowercase}

/-- The tokens that the answer to a preflight varies with. -/
def PREFLIGHT_VARY : Set Str :=
  {"origin".toList, "access-control-request-method".toList, "access-control-request-headers".toList}

variable {headers headers' : HeaderMap} {value : Str}

/-! ## Recording what a response varies with -/

/-- A token that the first line has is not added. -/
theorem appendVary_of_mem (hvalue : IsElement value)
    (hmem : ∃ element ∈ headers.firstElements .vary,
      element.toAsciiLowercase = value.toAsciiLowercase) :
    appendVary headers value = headers := by
  unfold appendVary
  cases hget : headers.get .vary with
  | none =>
    obtain ⟨element, helement, -⟩ := hmem
    rw [HeaderMap.firstElements, hget] at helement
    cases helement
  | some existing =>
    dsimp only
    cases htext : existing.toStr with
    | none => rfl
    | some line =>
      have hfirst : headers.firstElements .vary = Str.listElements line := by
        refine HeaderMap.firstElements_of_getStr ?_
        rw [HeaderMap.getStr, hget, Option.bind_some, htext]
      dsimp only
      rw [if_pos ((Str.any_split_iff hvalue.ne_nil).mpr (hfirst ▸ hmem))]

/-- A token that the first line does not have is appended to it. -/
theorem appendVary_of_not_mem (hvalue : IsElement value) {line : Str}
    (hget : headers.getStr .vary = some line)
    (hmem : ¬ ∃ element ∈ headers.firstElements .vary,
      element.toAsciiLowercase = value.toAsciiLowercase) :
    appendVary headers value = headers.appendElement .vary value := by
  obtain ⟨existing, hexisting, htext⟩ := Option.bind_eq_some_iff.mp hget
  rw [HeaderMap.firstElements_of_getStr hget, ← Str.any_split_iff hvalue.ne_nil] at hmem
  unfold appendVary HeaderMap.appendElement
  rw [hexisting, hget]
  dsimp only
  rw [htext]
  dsimp only
  rw [if_neg hmem, Option.elim_some]

/-- Without a `Vary` header the token is written. -/
theorem appendVary_of_getAll_eq_nil (h : headers.getAll .vary = []) :
    appendVary headers value = headers.appendElement .vary value := by
  have hget : headers.get .vary = none := by rw [MultiMap.get, h, List.head?_nil]
  unfold appendVary HeaderMap.appendElement HeaderMap.getStr
  rw [hget]
  rfl

/-- A `Vary` header whose first line is not text is left alone. -/
theorem appendVary_of_getStr_eq_none (hne : headers.getAll .vary ≠ [])
    (hget : headers.getStr .vary = none) : appendVary headers value = headers := by
  unfold HeaderMap.getStr at hget
  unfold appendVary
  cases hfirst : headers.get .vary with
  | none => exact absurd (List.head?_eq_none_iff.mp hfirst) hne
  | some existing =>
    rw [hfirst, Option.bind_some] at hget
    dsimp only
    rw [hget]

/-- What is recorded depends on the `Vary` lines only. -/
theorem getAll_vary_appendVary_congr (h : headers.getAll .vary = headers'.getAll .vary) :
    (appendVary headers value).getAll .vary = (appendVary headers' value).getAll .vary := by
  have hget : headers.get .vary = headers'.get .vary := by rw [MultiMap.get, h, MultiMap.get]
  unfold appendVary
  rw [hget]
  split
  · split
    · exact h
    · split
      · exact h
      · rw [HeaderMap.getAll_insertStr_self, HeaderMap.getAll_insertStr_self, h]
  · rw [HeaderMap.getAll_insertStr_self, HeaderMap.getAll_insertStr_self, h]

/-- What is recorded once needs no second record. -/
theorem appendVary_appendVary (hvalue : IsElement value) :
    appendVary (appendVary headers value) value = appendVary headers value := by
  -- either the header is left alone, or the token now stands in the first line
  have happended : appendVary (headers.appendElement .vary value) value =
      headers.appendElement .vary value :=
    appendVary_of_mem hvalue ⟨value, HeaderMap.mem_firstElements_appendElement hvalue, rfl⟩
  by_cases hnil : headers.getAll .vary = []
  · rw [appendVary_of_getAll_eq_nil hnil, happended]
  · cases hget : headers.getStr .vary with
    | none => rw [appendVary_of_getStr_eq_none hnil hget, appendVary_of_getStr_eq_none hnil hget]
    | some line =>
      by_cases hmem : ∃ element ∈ headers.firstElements .vary,
          element.toAsciiLowercase = value.toAsciiLowercase
      · rw [appendVary_of_mem hvalue hmem, appendVary_of_mem hvalue hmem]
      · rw [appendVary_of_not_mem hvalue hget hmem, happended]

/-! ## Stamping twice -/

variable {policy : CorsPolicy} {requestHeaders responseHeaders : HeaderMap} {name : HeaderName}

/-- `origin` is an element. -/
theorem isElement_origin : IsElement ("origin" : Str) :=
  ⟨List.all_iff_forall_prop.mp (by decide : "origin".toList.all fun c => decide (IsHeaderChar c)),
    by decide⟩

/-- Stamping records that the response varies with the origin. -/
theorem getAll_vary_applyToResponse :
    (applyToResponse responseHeaders requestHeaders policy).getAll .vary =
      (appendVary responseHeaders "origin").getAll .vary := by
  have horigin : HeaderName.vary ≠ ACCESS_CONTROL_ALLOW_ORIGIN := by decide
  have hcredentials : HeaderName.vary ≠ ACCESS_CONTROL_ALLOW_CREDENTIALS := by decide
  rw [getAll_applyToResponse (by decide), applyCorsBase]
  -- the headers of an admitted request are written next to `Vary`
  cases policy.resolveAllowOrigin (requestHeaders.get .origin) with
  | none => rfl
  | some allowOrigin =>
    refine getAll_vary_appendVary_congr ?_
    cases policy.allowCredentials <;> simp [horigin, hcredentials]

/-- Stamping writes the exposed headers of the policy, if it has any. -/
theorem getAll_exposeHeaders_applyToResponse :
    (applyToResponse responseHeaders requestHeaders policy).getAll ACCESS_CONTROL_EXPOSE_HEADERS =
      policy.exposedHeaders.elim (responseHeaders.getAll ACCESS_CONTROL_EXPOSE_HEADERS)
        fun value => [value] := by
  unfold applyToResponse
  cases policy.exposedHeaders with
  | some value => simp
  | none => exact getAll_applyCorsBase_of_not_mem (by decide)

/-- Stamping leaves every other header as it is. -/
theorem getAll_applyToResponse_of_not_mem
    (hname : name ∉ [ACCESS_CONTROL_ALLOW_ORIGIN, ACCESS_CONTROL_ALLOW_CREDENTIALS, .vary,
      ACCESS_CONTROL_EXPOSE_HEADERS]) :
    (applyToResponse responseHeaders requestHeaders policy).getAll name =
      responseHeaders.getAll name := by
  have hexpose : name ≠ ACCESS_CONTROL_EXPOSE_HEADERS := by
    rintro rfl
    exact hname (by simp)
  rw [getAll_applyToResponse hexpose]
  refine getAll_applyCorsBase_of_not_mem fun hmem => hname ?_
  exact List.mem_append_left [ACCESS_CONTROL_EXPOSE_HEADERS] hmem

/-- A header that stamping leaves as it is where the decisive headers already are what it writes:
the allowed origin and credentials of the same decision, and a `Vary` that has the origin. -/
theorem getAll_applyToResponse_eq_self
    (horigin : ∀ allowOrigin, policy.resolveAllowOrigin (requestHeaders.get .origin) =
      some allowOrigin → responseHeaders.getAll ACCESS_CONTROL_ALLOW_ORIGIN = [allowOrigin])
    (hcredentials : (policy.resolveAllowOrigin (requestHeaders.get .origin)).isSome &&
      policy.allowCredentials → responseHeaders.getAll ACCESS_CONTROL_ALLOW_CREDENTIALS =
        [headerTrue])
    (hvary : (appendVary responseHeaders "origin").getAll .vary = responseHeaders.getAll .vary)
    (hname : name ≠ ACCESS_CONTROL_EXPOSE_HEADERS) :
    (applyToResponse responseHeaders requestHeaders policy).getAll name =
      responseHeaders.getAll name := by
  by_cases hmem : name ∈ [ACCESS_CONTROL_ALLOW_ORIGIN, ACCESS_CONTROL_ALLOW_CREDENTIALS, .vary,
      ACCESS_CONTROL_EXPOSE_HEADERS]
  · simp only [List.mem_cons, List.not_mem_nil, or_false] at hmem
    rcases hmem with rfl | rfl | rfl | rfl
    · rw [getAll_allowOrigin_applyToResponse]
      split
      next allowOrigin hadmitted => exact (horigin allowOrigin hadmitted).symm
      next => rfl
    · rw [getAll_allowCredentials_applyToResponse]
      split
      next hadmitted => exact (hcredentials hadmitted).symm
      next => rfl
    · rw [getAll_vary_applyToResponse, hvary]
    · exact absurd rfl hname
  · exact getAll_applyToResponse_of_not_mem hmem

/-- The answer to a preflight varies with what preflights ask for. -/
theorem getAll_vary_buildPreflightResponse :
    (buildPreflightResponse requestHeaders policy).headers.getAll .vary =
      (appendVary (appendVary (appendVary .empty "origin") "access-control-request-method")
        "access-control-request-headers").getAll .vary := by
  have hmethods : HeaderName.vary ≠ ACCESS_CONTROL_ALLOW_METHODS := by decide
  have hheaders : HeaderName.vary ≠ ACCESS_CONTROL_ALLOW_HEADERS := by decide
  have hage : HeaderName.vary ≠ ACCESS_CONTROL_MAX_AGE := by decide
  have hnetwork : HeaderName.vary ≠ ACA_PRIVATE_NETWORK := by decide
  have hbase : (applyCorsBase .empty requestHeaders policy).getAll .vary =
      (appendVary .empty "origin").getAll .vary := by
    rw [← getAll_applyToResponse (by decide), getAll_vary_applyToResponse]
  unfold buildPreflightResponse
  dsimp only
  refine getAll_vary_appendVary_congr (getAll_vary_appendVary_congr ?_)
  rw [← hbase, apply_ite (MultiMap.getAll · HeaderName.vary), MultiMap.getAll_insert,
    if_neg hnetwork, ite_self]
  cases policy.maxAgeValue <;> cases policy.allowedHeaders <;> cases policy.allowedMethods <;>
    cases requestHeaders.get ACCESS_CONTROL_REQUEST_METHOD <;>
    cases requestHeaders.get ACCESS_CONTROL_REQUEST_HEADERS <;>
    simp only [MultiMap.getAll_insert, if_neg hage, if_neg hheaders, if_neg hmethods]

/-- Stamping a response twice is stamping it once, and stamping the answer to a preflight of the
same request changes its exposed headers only. -/
theorem applyToResponse_fixpoint (policy : CorsPolicy)
    (requestHeaders responseHeaders : HeaderMap) :
    applyToResponse (applyToResponse responseHeaders requestHeaders policy) requestHeaders policy =
        applyToResponse responseHeaders requestHeaders policy ∧
      ∀ name, name ≠ ACCESS_CONTROL_EXPOSE_HEADERS →
        (applyToResponse (buildPreflightResponse requestHeaders policy).headers requestHeaders
            policy).getAll name =
          (buildPreflightResponse requestHeaders policy).headers.getAll name := by
  constructor
  · ext1
    funext name
    by_cases hname : name = ACCESS_CONTROL_EXPOSE_HEADERS
    · subst hname
      rw [getAll_exposeHeaders_applyToResponse, getAll_exposeHeaders_applyToResponse]
      cases policy.exposedHeaders <;> rfl
    · refine getAll_applyToResponse_eq_self (fun allowOrigin hadmitted => ?_)
        (fun hadmitted => ?_) ?_ hname
      · rw [getAll_allowOrigin_applyToResponse, hadmitted]
      · rw [getAll_allowCredentials_applyToResponse, if_pos hadmitted]
      · rw [getAll_vary_appendVary_congr getAll_vary_applyToResponse,
          appendVary_appendVary isElement_origin, getAll_vary_applyToResponse]
  · intro name hname
    refine getAll_applyToResponse_eq_self (fun allowOrigin hadmitted => ?_)
      (fun hadmitted => ?_) ?_ hname
    · rw [getAll_buildPreflightResponse (by decide), getAll_allowOrigin_applyCorsBase, hadmitted]
    · rw [getAll_buildPreflightResponse (by decide), getAll_allowCredentials_applyCorsBase,
        if_pos hadmitted]
    · -- a preflight varies on `Origin` already
      rw [getAll_vary_appendVary_congr getAll_vary_buildPreflightResponse,
        getAll_vary_buildPreflightResponse]
      decide +kernel

/-! ## The tokens of the upstream -/

/-- Stamping extends what the response varies with by the origin, and the answer to a preflight
varies with the origin and what preflights ask for. -/
def VaryExtended (policy : CorsPolicy) (requestHeaders responseHeaders : HeaderMap) : Prop :=
  (applyToResponse responseHeaders requestHeaders policy).varyTokens =
      insert "origin".toList responseHeaders.varyTokens ∧
    (buildPreflightResponse requestHeaders policy).headers.varyTokens = PREFLIGHT_VARY

/-- What a response varies with depends on its `Vary` lines only. -/
theorem varyTokens_congr (h : headers.getAll .vary = headers'.getAll .vary) :
    headers.varyTokens = headers'.varyTokens := by
  rw [HeaderMap.varyTokens, HeaderMap.flattened_congr h, HeaderMap.varyTokens]

/-- What is recorded for visible lines: nothing where the first line has the token, and else the
tokens of the first line and this one. -/
theorem varyTokens_appendVary (hvisible : headers.IsVisible .vary) (hvalue : IsElement value)
    (hlower : value.toAsciiLowercase = value) :
    (appendVary headers value).varyTokens =
      if value ∈ (headers.firstElements .vary).map Str.toAsciiLowercase then headers.varyTokens
      else
        insert value {token | token ∈ (headers.firstElements .vary).map Str.toAsciiLowercase} := by
  have hmem : value ∈ (headers.firstElements .vary).map Str.toAsciiLowercase ↔
      ∃ element ∈ headers.firstElements .vary,
        element.toAsciiLowercase = value.toAsciiLowercase := by
    rw [hlower, List.mem_map]
  split
  next h => rw [appendVary_of_mem hvalue (hmem.mp h)]
  next h =>
    have happend : appendVary headers value = headers.appendElement .vary value := by
      cases hget : headers.getStr .vary with
      | none => exact appendVary_of_getAll_eq_nil (hvisible.getAll_eq_nil hget)
      | some line => exact appendVary_of_not_mem hvalue hget (hmem.not.mp h)
    rw [happend, HeaderMap.varyTokens, HeaderMap.flattened_appendElement hvisible hvalue]
    ext token
    simp [hlower, or_comm]

/-- No token of the upstream is lost exactly if the first `Vary` line names the origin, or the
lines after it name no token that the first line does not, other than the origin. -/
theorem vary_extended_iff (policy : CorsPolicy) (requestHeaders : HeaderMap)
    {responseHeaders : HeaderMap} (hvisible : responseHeaders.IsVisible .vary) :
    VaryExtended policy requestHeaders responseHeaders ↔
      "origin".toList ∈ (responseHeaders.firstElements .vary).map Str.toAsciiLowercase ∨
        ∀ token ∈ (responseHeaders.laterElements .vary).map Str.toAsciiLowercase,
          token = "origin".toList ∨
            token ∈ (responseHeaders.firstElements .vary).map Str.toAsciiLowercase := by
  have hpreflight : (buildPreflightResponse requestHeaders policy).headers.varyTokens =
      PREFLIGHT_VARY := by
    rw [varyTokens_congr getAll_vary_buildPreflightResponse]
    have htokens : ((appendVary (appendVary (appendVary .empty "origin")
        "access-control-request-method") "access-control-request-headers").flattened .vary).map
          Str.toAsciiLowercase = ["origin".toList, "access-control-request-method".toList,
            "access-control-request-headers".toList] := by decide +kernel
    rw [HeaderMap.varyTokens, htokens]
    ext token
    simp [PREFLIGHT_VARY]
  rw [VaryExtended, and_iff_left hpreflight, varyTokens_congr getAll_vary_applyToResponse,
    varyTokens_appendVary hvisible isElement_origin (by decide)]
  have hall : responseHeaders.varyTokens =
      {token | token ∈ (responseHeaders.firstElements .vary).map Str.toAsciiLowercase} ∪
        {token | token ∈ (responseHeaders.laterElements .vary).map Str.toAsciiLowercase} := by
    rw [HeaderMap.varyTokens, HeaderMap.flattened_eq, List.map_append]
    ext token
    exact List.mem_append
  split
  next hfirst =>
    have hmem : "origin".toList ∈ responseHeaders.varyTokens := hall ▸ Or.inl hfirst
    exact iff_of_true (Set.insert_eq_of_mem hmem).symm (Or.inl hfirst)
  next hfirst =>
    rw [or_iff_right hfirst, hall, ← Set.insert_union]
    exact eq_comm.trans Set.union_eq_left

/-- A policy that admits every origin. -/
def anyOriginPolicy : CorsPolicy where
  mode := .wildcard
  allowedMethods := none
  allowedHeaders := none
  exposedHeaders := none
  maxAgeValue := none
  allowCredentials := false
  allowPrivateNetwork := false

/-- A response that varies with the encoding and the language, on one line. -/
def oneVaryLine : HeaderMap :=
  .ofList [(.vary, ⟨Str.asBytes "Accept-Encoding, Accept-Language", by decide⟩)]

/-- `vary_extended_iff` for a response with one `Vary` line. -/
theorem vary_extended_iff_one_line :
    VaryExtended anyOriginPolicy .empty oneVaryLine ↔
      "origin".toList ∈ (oneVaryLine.firstElements .vary).map Str.toAsciiLowercase ∨
        ∀ token ∈ (oneVaryLine.laterElements .vary).map Str.toAsciiLowercase,
          token = "origin".toList ∨
            token ∈ (oneVaryLine.firstElements .vary).map Str.toAsciiLowercase :=
  vary_extended_iff _ _ (by decide)

/-- A response that varies with the encoding, and on a second line with the cookies. -/
def twoVaryLines : HeaderMap :=
  .ofList [(.vary, ⟨Str.asBytes "Accept-Encoding", by decide⟩),
    (.vary, ⟨Str.asBytes "Cookie", by decide⟩)]

/-- Stamping loses the token of the second line. -/
theorem second_vary_line_lost :
    twoVaryLines.IsVisible .vary ∧ "cookie".toList ∈ twoVaryLines.varyTokens ∧
      ¬ VaryExtended anyOriginPolicy .empty twoVaryLines := by
  have hcookie : "cookie".toList ∈ twoVaryLines.varyTokens := by
    rw [HeaderMap.varyTokens, Set.mem_ofPred_eq]
    decide +kernel
  have hlost : "cookie".toList ∉
      (applyToResponse twoVaryLines .empty anyOriginPolicy).varyTokens := by
    rw [HeaderMap.varyTokens, Set.mem_ofPred_eq]
    decide +kernel
  refine ⟨by decide, hcookie, fun hextended => hlost ?_⟩
  rw [hextended.1]
  exact Set.mem_insert_of_mem _ hcookie

end Corx
