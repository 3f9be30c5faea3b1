import Corx.Proxy.RedirectChain

/-!
# Credentials over a downgrade

A redirect from `https` to `http` can be followed where that is allowed. Credentials are stripped
when the text of the authority changes, and the text `a.test` stands for port 443 in one scheme and
for port 80 in the other: a redirect that only gives up TLS is not noticed, and the credentials go
out in the clear. `downgrades_bare_iff` says which chains are concerned.
-/

namespace Corx

/-- The headers carry none of the sensitive ones. -/
def Bare (headers : HeaderMap) : Prop :=
  ∀ name ∈ SENSITIVE_HEADERS, headers.getAll name = []

instance (headers : HeaderMap) : Decidable (Bare headers) :=
  inferInstanceAs (Decidable (∀ name ∈ SENSITIVE_HEADERS, headers.getAll name = []))

/-- The second request carries no credentials if it gives up the TLS of the first. -/
def BareOnDowngrade (before after : Request) : Prop :=
  isHttpsToHttpDowngrade before.uri after.uri = true → Bare after.headers

instance : DecidableRel BareOnDowngrade :=
  fun _ _ => inferInstanceAs (Decidable (_ → _))

/-- The URI that a redirect response names, relative to the URI of the request it answers. -/
def namedUri (parsers : Parsers) (uri : Uri) (response : Response) : Option Uri :=
  (response.headers.getStr .location).bind fun location =>
    (resolveLocation parsers uri location).toOption

/-- Responses to a chain of requests from `uri` on name no `http` URI from an `https` one before
the text of the authority has changed. -/
def AuthorityChangesFirst (parsers : Parsers) : Uri → List Response → Prop
  | _, [] => True
  | uri, response :: responses =>
    ∀ next ∈ namedUri parsers uri response,
      authorityDiffers uri next = true ∨
        isHttpsToHttpDowngrade uri next = false ∧ AuthorityChangesFirst parsers next responses

variable {parsers : Parsers} {allow : Bool} {state state' : RedirectState} {hops : List FollowUp}
  {hop : FollowUp}

/-- Stripped headers carry no credentials. -/
theorem bare_stripCredentials (headers : HeaderMap) : Bare (stripCredentials headers) := by
  intro name hname
  rw [getAll_stripCredentials, if_pos (List.mem_append_left _ hname)]

/-- A continued hop goes where the response says. -/
theorem namedUri_of_chainStep (hstep : ChainStep parsers allow state hop state') :
    namedUri parsers state.uri hop.response = some hop.request.uri := by
  obtain ⟨nextUri, ⟨location, hlocation, hresolve⟩, -, -, rfl, hrequest⟩ :=
    prepareNext_eq_continueWith hstep
  rw [namedUri, hlocation, Option.bind_some, hresolve, hrequest]
  rfl

/-- What a step does to the headers. -/
theorem headers_of_chainStep (hstep : ChainStep parsers allow state hop state') :
    hop.request.headers = state'.headers ∧ hop.request.uri = state'.uri ∧
      state'.headers = if authorityDiffers state.uri state'.uri then stripCredentials state.headers
        else state.headers := by
  obtain ⟨nextUri, -, -, -, rfl, hrequest⟩ := prepareNext_eq_continueWith hstep
  rw [hrequest]
  exact ⟨rfl, rfl, rfl⟩

/-- A chain, from a state on, carries no credentials over a downgrade exactly if the state has none
or the authority changes before the first downgrade. -/
theorem isChain_bareOnDowngrade_iff {before : Request} (huri : before.uri = state.uri)
    (hrun : Run (ChainStep parsers allow) state hops state') :
    List.IsChain BareOnDowngrade (before :: hops.map fun hop => hop.request) ↔
      Bare state.headers ∨
        AuthorityChangesFirst parsers state.uri (hops.map fun hop => hop.response) := by
  induction hrun generalizing before with
  | nil s => exact iff_of_true (.singleton before) (Or.inr trivial)
  | @cons s s₁ t hop hops hstep hrest ih =>
    obtain ⟨hheaders, hnext, hstripped⟩ := headers_of_chainStep hstep
    have hnamed := namedUri_of_chainStep hstep
    rw [List.map_cons, List.isChain_cons_cons, ih hnext, BareOnDowngrade, huri, hheaders, hstripped,
      List.map_cons, AuthorityChangesFirst, hnamed]
    simp only [Option.mem_def, Option.some.injEq, forall_eq', hnext]
    cases authorityDiffers s.uri s₁.uri with
    -- the credentials are gone, for this hop and all that follow
    | true => simp [bare_stripCredentials]
    | false =>
      simp only [Bool.false_eq_true, if_false, false_or]
      cases isHttpsToHttpDowngrade s.uri s₁.uri with
      | true =>
        simp only [forall_const, Bool.true_eq_false, false_and, or_false]
        exact ⟨fun h => h.1, fun h => ⟨h, Or.inl h⟩⟩
      | false => simp

/-- Along a chain of redirects no follow-up carries credentials over a downgrade exactly if the
initial request has none, or no response names an `http` URI from an `https` one before the text of
the authority has changed. -/
theorem downgrades_bare_iff {initial : Request}
    (hrun : Run (ChainStep parsers allow) initial.redirectState hops state) :
    List.IsChain BareOnDowngrade (initial :: hops.map fun hop => hop.request) ↔
      Bare initial.headers ∨
        AuthorityChangesFirst parsers initial.uri (hops.map fun hop => hop.response) :=
  isChain_bareOnDowngrade_iff rfl hrun

/-! ## The same host without TLS -/

/-- Credentials. -/
def secretToken : HeaderValue := ⟨Str.asBytes "Bearer secret", by decide⟩

/-- A `GET` with credentials. -/
def getWithToken : Request where
  method := .get
  uri := { scheme := some "https", authority := some "a.test", path := "/", query := none }
  headers := .ofList [(.authorization, secretToken)]
  body := []

/-- A `302 Found` to the same host without TLS. -/
def foundInTheClear : Response where
  status := .found
  headers := .ofList [(.location, ⟨Str.asBytes "http://a.test/", by decide⟩)]

/-- A `302 Found` to the same URI, with its port. -/
def foundInTheClearAtPort : Response where
  status := .found
  headers := .ofList [(.location, ⟨Str.asBytes "http://a.test:80/", by decide⟩)]

/-- The chain that follows a response to `getWithToken`, with downgrades allowed. -/
def tokenChain (response : Response) : List FollowUp × RedirectState :=
  followAll .plain true getWithToken.redirectState [response]

/-- `downgrades_bare_iff` for the redirect that names the port. -/
theorem downgrades_bare_iff_atPort :
    List.IsChain BareOnDowngrade
        (getWithToken :: (tokenChain foundInTheClearAtPort).1.map fun hop => hop.request) ↔
      Bare getWithToken.headers ∨
        AuthorityChangesFirst .plain getWithToken.uri
          ((tokenChain foundInTheClearAtPort).1.map fun hop => hop.response) :=
  downgrades_bare_iff (run_followAll _ _)

/-- The port makes the text of the authority another one, so the credentials are gone. -/
example : (tokenChain foundInTheClearAtPort).1.length = 1 ∧
    List.IsChain BareOnDowngrade
      (getWithToken :: (tokenChain foundInTheClearAtPort).1.map fun hop => hop.request) := by
  decide +kernel

/-- The redirect without a port takes the credentials along. -/
theorem token_in_the_clear :
    ∃ hops state, Run (ChainStep .plain true) getWithToken.redirectState hops state ∧
      ∃ hop ∈ hops, isHttpsToHttpDowngrade getWithToken.uri hop.request.uri = true ∧
        hop.request.headers.getAll .authorization = [secretToken] ∧
        ¬ List.IsChain BareOnDowngrade (getWithToken :: hops.map fun hop => hop.request) := by
  refine ⟨_, _, run_followAll _ [foundInTheClear], ?_⟩
  decide +kernel

end Corx
