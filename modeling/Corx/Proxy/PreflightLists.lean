import Corx.Config.Validate
import Corx.Proxy.Cors

/-!
# Lists of methods and headers in the answer to a preflight

The configured lists of allowed methods and headers take precedence over echoing what the request
asks for; an empty list is the operator's choice to echo. The list is compiled to one header
value, and a list of which an entry is no header text compiles to nothing, as an empty one does.
Such a list is replaced by the wishes of the request. `keepsList_iff` says when the answer keeps
to the list.
-/

namespace Corx

/-- The lists that a preflight is answered with. -/
inductive PreflightList
  | methods
  | headers
  deriving DecidableEq, Repr

namespace PreflightList

/-- The configured entries. -/
def configured (cfg : CorsConfig) : PreflightList → List Str
  | methods => cfg.allowedMethods
  | headers => cfg.allowedHeaders

/-- The compiled value. -/
def compiled (policy : CorsPolicy) : PreflightList → Option HeaderValue
  | methods => policy.allowedMethods
  | headers => policy.allowedHeaders

/-- The header of the answer that the list is written to. -/
def allowName : PreflightList → HeaderName
  | methods => ACCESS_CONTROL_ALLOW_METHODS
  | headers => ACCESS_CONTROL_ALLOW_HEADERS

/-- The header of the request that is echoed in its place. -/
def requestName : PreflightList → HeaderName
  | methods => ACCESS_CONTROL_REQUEST_METHOD
  | headers => ACCESS_CONTROL_REQUEST_HEADERS

end PreflightList

/-- The two answers have the same values under a name, or one of them has none. -/
def SameOrNone (name : HeaderName) (a b : Response) : Prop :=
  a.headers.getAll name = b.headers.getAll name ∨
    a.headers.getAll name = [] ∨ b.headers.getAll name = []
  deriving Decidable

/-- The answer to every preflight repeats what it asks for, whatever that is. -/
def Echoes (policy : CorsPolicy) (list : PreflightList) : Prop :=
  ∀ requestHeaders : HeaderMap, isPreflight .options requestHeaders = true →
    (buildPreflightResponse requestHeaders policy).headers.getAll list.allowName =
      (requestHeaders.get list.requestName).toList

/-- Every entry of the list is the text of a header value. -/
def AllText (cfg : CorsConfig) (list : PreflightList) : Prop :=
  ∀ entry ∈ list.configured cfg, HeaderValue.isText entry = true

section Answers

variable {cfg : CorsConfig} {list : PreflightList} {policy : CorsPolicy}

/-- The answer has the compiled list, and where there is none, what the request asks for. -/
theorem getAll_allowName_buildPreflightResponse (requestHeaders : HeaderMap)
    (policy : CorsPolicy) (list : PreflightList) :
    (buildPreflightResponse requestHeaders policy).headers.getAll list.allowName =
      ((list.compiled policy).or (requestHeaders.get list.requestName)).toList := by
  have hbase : (applyCorsBase .empty requestHeaders policy).getAll list.allowName = [] :=
    getAll_applyCorsBase_of_not_mem (by cases list <;> decide)
  have hage : list.allowName ≠ ACCESS_CONTROL_MAX_AGE := by cases list <;> decide
  have hnetwork : list.allowName ≠ ACA_PRIVATE_NETWORK := by cases list <;> decide
  have hvary : list.allowName ≠ .vary := by cases list <;> decide
  have hother : ACCESS_CONTROL_ALLOW_METHODS ≠ ACCESS_CONTROL_ALLOW_HEADERS := by decide
  unfold buildPreflightResponse
  dsimp only
  rw [getAll_appendVary hvary, getAll_appendVary hvary, apply_ite (MultiMap.getAll · _),
    MultiMap.getAll_insert, if_neg hnetwork, ite_self]
  cases list with
  | methods =>
    dsimp only [PreflightList.allowName, PreflightList.compiled, PreflightList.requestName] at *
    cases policy.maxAgeValue <;> cases policy.allowedHeaders <;>
      cases requestHeaders.get ACCESS_CONTROL_REQUEST_HEADERS <;>
      cases policy.allowedMethods <;> cases requestHeaders.get ACCESS_CONTROL_REQUEST_METHOD <;>
      simp [hbase, hage, hother]
  | headers =>
    dsimp only [PreflightList.allowName, PreflightList.compiled, PreflightList.requestName] at *
    cases policy.maxAgeValue <;> cases policy.allowedMethods <;>
      cases requestHeaders.get ACCESS_CONTROL_REQUEST_METHOD <;>
      cases policy.allowedHeaders <;> cases requestHeaders.get ACCESS_CONTROL_REQUEST_HEADERS <;>
      simp [hbase, hage, hother.symm]

/-- A list that is not empty is compiled if and only if its entries are texts of header values. -/
theorem isSome_compiled_iff (hlist : list.configured cfg ≠ []) :
    (list.compiled (.fromConfig cfg)).isSome = true ↔ AllText cfg list := by
  have hcompiled : list.compiled (.fromConfig cfg) = encodeTokenList (list.configured cfg) := by
    cases list <;> rfl
  have hsep : HeaderValue.isText ", " = true := by decide
  rw [hcompiled, encodeTokenList, if_neg (by simpa using hlist), HeaderValue.isSome_fromStr,
    HeaderValue.isText_join hsep, List.all_eq_true, AllText]

/-- A preflight of a page for a method. -/
def preflightAsking (method : HeaderValue) : HeaderMap :=
  (MultiMap.empty.insert .origin ⟨Str.asBytes "https://pages.test", by decide⟩).insert
    ACCESS_CONTROL_REQUEST_METHOD method

/-- It is recognised as one. -/
theorem isPreflight_preflightAsking (method : HeaderValue) :
    isPreflight .options (preflightAsking method) = true := by
  have hother : HeaderName.origin ≠ ACCESS_CONTROL_REQUEST_METHOD := by decide
  simp [isPreflight, preflightAsking, MultiMap.containsKey, hother]

/-- A compiled list is not an echo: some preflight asks for something else. -/
theorem not_echoes_of_compiled {value : HeaderValue} (h : list.compiled policy = some value) :
    ¬ Echoes policy list := by
  intro hechoes
  have hanswer : ∀ method, [value] = ((preflightAsking method).get list.requestName).toList := by
    intro method
    rw [← hechoes _ (isPreflight_preflightAsking method), getAll_allowName_buildPreflightResponse,
      h, Option.some_or, Option.toList_some]
  cases list with
  | methods =>
    -- one list does not repeat two methods
    have hasked : ∀ method, (preflightAsking method).get ACCESS_CONTROL_REQUEST_METHOD =
        some method := by
      intro method
      simp [preflightAsking, MultiMap.get]
    have hstar := hanswer CorsPolicy.star
    rw [hanswer headerTrue, PreflightList.requestName, hasked, hasked] at hstar
    exact absurd hstar (by decide)
  | headers =>
    -- the preflight does not ask for headers at all
    have hnone : (preflightAsking value).get ACCESS_CONTROL_REQUEST_HEADERS = none := by
      have horigin : ACCESS_CONTROL_REQUEST_HEADERS ≠ .origin := by decide
      have hmethod : ACCESS_CONTROL_REQUEST_HEADERS ≠ ACCESS_CONTROL_REQUEST_METHOD := by decide
      simp [preflightAsking, MultiMap.get, MultiMap.empty, horigin, hmethod]
    have hvalue := hanswer value
    rw [PreflightList.requestName, hnone] at hvalue
    exact absurd hvalue (by simp)

/-- The answers to two requests differ unless the list is compiled, or one request asks for
nothing, or both ask for the same. -/
theorem sameOrNone_iff {r r' : HeaderMap} :
    SameOrNone list.allowName (buildPreflightResponse r policy)
        (buildPreflightResponse r' policy) ↔
      (list.compiled policy).isSome = true ∨ r.get list.requestName = none ∨
        r'.get list.requestName = none ∨ r.get list.requestName = r'.get list.requestName := by
  rw [SameOrNone, getAll_allowName_buildPreflightResponse, getAll_allowName_buildPreflightResponse]
  cases list.compiled policy with
  | some value => simp
  | none =>
    cases r.get list.requestName <;> cases r'.get list.requestName <;> simp

/-- The answers to two preflights keep to a list that is not empty if and only if its entries are
texts of header values, or the two preflights do not ask for different things. The list is not
replaced by an echo if and only if its entries are such texts. -/
theorem keepsList_iff (hlist : list.configured cfg ≠ []) (r r' : HeaderMap) :
    (SameOrNone list.allowName (buildPreflightResponse r (.fromConfig cfg))
        (buildPreflightResponse r' (.fromConfig cfg)) ↔
      AllText cfg list ∨ r.get list.requestName = none ∨ r'.get list.requestName = none ∨
        r.get list.requestName = r'.get list.requestName) ∧
    (¬ Echoes (.fromConfig cfg) list ↔ AllText cfg list) := by
  rw [← isSome_compiled_iff hlist]
  refine ⟨sameOrNone_iff, ?_⟩
  cases hcompiled : list.compiled (.fromConfig cfg) with
  | some value => simp [not_echoes_of_compiled hcompiled]
  | none =>
    have hechoes : Echoes (.fromConfig cfg) list := by
      intro requestHeaders _
      rw [getAll_allowName_buildPreflightResponse, hcompiled, Option.none_or]
    simp [hechoes]

end Answers

/-- The default configuration for the pages of one origin, with a line break behind the only
entry of each list. -/
def lineBreakListed : Config :=
  { Config.default "0.2.0" with
    cors :=
      { (Config.default "0.2.0").cors with
        policy := .explicit
        origins := ["https://pages.test"]
        allowedMethods := ["GET\n"]
        allowedHeaders := ["x-request-id\n"] } }

/-- A preflight of that page for `DELETE`. -/
def askingDelete : HeaderMap :=
  (preflightAsking ⟨Str.asBytes "DELETE", by decide⟩).insert ACCESS_CONTROL_REQUEST_HEADERS
    ⟨Str.asBytes "x-admin", by decide⟩

/-- Another one for `PUT`. -/
def askingPut : HeaderMap :=
  (preflightAsking ⟨Str.asBytes "PUT", by decide⟩).insert ACCESS_CONTROL_REQUEST_HEADERS
    ⟨Str.asBytes "x-debug", by decide⟩

/-- `keepsList_iff` for the default methods. -/
theorem keepsList_iff_default :
    (SameOrNone ACCESS_CONTROL_ALLOW_METHODS
        (buildPreflightResponse askingDelete (.fromConfig .default))
        (buildPreflightResponse askingPut (.fromConfig .default)) ↔
      AllText .default .methods ∨ askingDelete.get ACCESS_CONTROL_REQUEST_METHOD = none ∨
        askingPut.get ACCESS_CONTROL_REQUEST_METHOD = none ∨
        askingDelete.get ACCESS_CONTROL_REQUEST_METHOD =
          askingPut.get ACCESS_CONTROL_REQUEST_METHOD) ∧
    (¬ Echoes (.fromConfig .default) .methods ↔ AllText .default .methods) :=
  @keepsList_iff .default .methods (by decide) askingDelete askingPut

/-- The configuration has no errors and lists methods and headers, and two preflights of one
origin get the different ones that each of them asks for. -/
theorem lists_replaced_by_wishes :
    (lineBreakListed.validateFull fun _ => false).errors = [] ∧
    lineBreakListed.cors.allowedMethods ≠ [] ∧ lineBreakListed.cors.allowedHeaders ≠ [] ∧
    isPreflight .options askingDelete = true ∧ isPreflight .options askingPut = true ∧
    askingDelete.getAll .origin = askingPut.getAll .origin ∧
    ¬ SameOrNone ACCESS_CONTROL_ALLOW_METHODS
      (buildPreflightResponse askingDelete (.fromConfig lineBreakListed.cors))
      (buildPreflightResponse askingPut (.fromConfig lineBreakListed.cors)) ∧
    ¬ SameOrNone ACCESS_CONTROL_ALLOW_HEADERS
      (buildPreflightResponse askingDelete (.fromConfig lineBreakListed.cors))
      (buildPreflightResponse askingPut (.fromConfig lineBreakListed.cors)) := by
  refine ⟨by decide +kernel, by decide, by decide, by decide, by decide, by decide, ?_, ?_⟩
  · decide +kernel
  · decide +kernel

end Corx
