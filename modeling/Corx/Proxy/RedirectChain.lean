import Mathlib.Data.List.Chain
import Corx.Base.Run
import Corx.Proxy.Redirect

/-!
# Redirect chains

A redirect chain is a run of `ChainStep`: `prepareNext`, applied to the state that the hop
before it left and to any response, continues with a request. The headers of a chain's requests
are one of two maps, the initial one or the initial one without credentials, and the authorities
of the hops so far say which (`ChainInv`): nothing is stripped while the authority stays, and
what a change of authority strips never comes back.

That the inherited headers are otherwise untouched has a consequence for the body, which every
follow-up drops: the request keeps a `Content-Length` that no longer describes it
(`content_length_consistent_iff`).
-/

namespace Corx

/-- A redirect response and the request that follows it up. -/
structure FollowUp where
  response : Response
  request : Request

/-- One hop of a chain. -/
def ChainStep (parsers : Parsers) (allow : Bool) (state : RedirectState) (hop : FollowUp)
    (state' : RedirectState) : Prop :=
  prepareNext parsers state hop.response allow = .ok (.continueWith hop.request, state')

/-- The state that a request leaves for the redirect chain: `split_initial`. -/
def Request.redirectState (request : Request) : RedirectState :=
  RedirectState.fromInitial request.method request.uri request.headers

/-- The two URIs have the same authority, up to ASCII case. -/
def SameAuthority (a b : Uri) : Prop :=
  ∃ x y, a.authority = some x ∧ b.authority = some y ∧ x.toAsciiLowercase = y.toAsciiLowercase

/-- The hops so far have all stayed with the authority of the initial URI. -/
def AuthorityKept (initial : Uri) (hops : List FollowUp) : Prop :=
  List.IsChain SameAuthority (initial :: hops.map fun hop => hop.request.uri)

/-- The `Host` header, if there is one, is the authority of the URI, up to ASCII case. -/
def HostMatches (headers : HeaderMap) (uri : Uri) : Prop :=
  ∀ value ∈ headers.getAll .host, ∃ host authority, value.toStr = some host ∧
    uri.authority = some authority ∧ host.toAsciiLowercase = authority.toAsciiLowercase

/-- The authorities do not differ exactly when they are the same. -/
theorem authorityDiffers_eq_false {a b : Uri} :
    authorityDiffers a b = false ↔ SameAuthority a b := by
  unfold authorityDiffers SameAuthority
  cases a.authority <;> cases b.authority <;> simp

/-- Stripping removes the sensitive headers and `Host`. -/
theorem stripCredentials_eq (headers : HeaderMap) :
    stripCredentials headers = headers.removeAll (SENSITIVE_HEADERS ++ [.host]) := by
  rw [stripCredentials, MultiMap.removeAll, MultiMap.removeAll, List.foldl_append]
  rfl

/-- Stripping removes nothing but the sensitive headers and `Host`. -/
theorem getAll_stripCredentials (headers : HeaderMap) (name : HeaderName) :
    (stripCredentials headers).getAll name =
      if name ∈ SENSITIVE_HEADERS ++ [.host] then [] else headers.getAll name := by
  rw [stripCredentials_eq, MultiMap.getAll_removeAll]

/-- What is stripped once needs no second stripping. -/
@[simp]
theorem stripCredentials_stripCredentials (headers : HeaderMap) :
    stripCredentials (stripCredentials headers) = stripCredentials headers := by
  ext1
  funext name
  simp only [getAll_stripCredentials]
  split <;> rfl

/-- Stripping leaves some of the entries. -/
theorem stripCredentials_le (headers : HeaderMap) : stripCredentials headers ≤ headers := by
  rw [stripCredentials_eq]
  exact MultiMap.removeAll_le headers _

variable {parsers : Parsers} {allow : Bool} {initial : Request} {hops : List FollowUp}
  {state : RedirectState}

/-- After a chain the state holds the last URI, and the initial headers, stripped if the
authority has changed on the way. -/
structure ChainInv (initial : Request) (hops : List FollowUp) (state : RedirectState) :
    Prop where
  uri_eq : (initial.uri :: hops.map fun hop => hop.request.uri).getLast? = some state.uri
  kept : AuthorityKept initial.uri hops → state.headers = initial.headers
  stripped : ¬ AuthorityKept initial.uri hops →
    state.headers = stripCredentials initial.headers

/-- A further hop keeps the authority when the hops before did and it does. -/
theorem authorityKept_snoc {hop : FollowUp}
    (huri : (initial.uri :: hops.map fun hop => hop.request.uri).getLast? = some state.uri) :
    AuthorityKept initial.uri (hops ++ [hop]) ↔
      AuthorityKept initial.uri hops ∧ SameAuthority state.uri hop.request.uri := by
  unfold AuthorityKept
  rw [List.map_append, ← List.cons_append, List.isChain_append, huri]
  simp

/-- A hop keeps the invariant. -/
theorem ChainInv.step {state' : RedirectState} {hop : FollowUp}
    (hinv : ChainInv initial hops state) (hstep : ChainStep parsers allow state hop state') :
    ChainInv initial (hops ++ [hop]) state' := by
  obtain ⟨nextUri, -, -, -, rfl, hrequest⟩ := prepareNext_eq_continueWith hstep
  have huri : hop.request.uri = nextUri := by rw [hrequest]; rfl
  have hsnoc : AuthorityKept initial.uri (hops ++ [hop]) ↔ _ := authorityKept_snoc hinv.uri_eq
  rw [huri] at hsnoc
  refine ⟨?_, fun hkept => ?_, fun hchanged => ?_⟩
  · rw [List.map_append, ← List.cons_append, List.map_singleton, List.getLast?_concat, huri]
    rfl
  -- the hop keeps the authority, so nothing is stripped
  · obtain ⟨hbefore, hsame⟩ := hsnoc.mp hkept
    rw [RedirectState.follow, if_neg (by simp [authorityDiffers_eq_false.mpr hsame])]
    exact hinv.kept hbefore
  -- the authority changes in this hop, or it has changed before; stripping twice is stripping once
  · by_cases hbefore : AuthorityKept initial.uri hops
    · have hdiffers : authorityDiffers state.uri nextUri = true := by
        by_contra hnot
        have hsame := authorityDiffers_eq_false.mp (Bool.not_eq_true _ ▸ hnot)
        exact hchanged (hsnoc.mpr ⟨hbefore, hsame⟩)
      rw [RedirectState.follow, if_pos hdiffers, hinv.kept hbefore]
    · have hstripped := hinv.stripped hbefore
      simp only [RedirectState.follow, hstripped, stripCredentials_stripCredentials, ite_self]

/-- Every chain keeps the invariant. -/
theorem ChainInv.of_run
    (hrun : Run (ChainStep parsers allow) initial.redirectState hops state) :
    ChainInv initial hops state :=
  hrun.history_invariant (P := ChainInv initial) (fun _ _ _ _ hinv hstep => hinv.step hstep)
    ⟨rfl, fun _ => rfl, fun h => absurd (List.IsChain.singleton _) h⟩

/-- The hop at any place of a chain sends the headers and the URI of the state it leaves. -/
theorem chain_split {past rest : List FollowUp} {hop : FollowUp}
    (hrun : Run (ChainStep parsers allow) initial.redirectState (past ++ hop :: rest) state) :
    ∃ state', ChainInv initial (past ++ [hop]) state' ∧ hop.request = state'.request := by
  -- cut the run right after the hop, whose request the state then determines
  rw [List.append_cons] at hrun
  obtain ⟨state', hrun', -⟩ := hrun.split
  obtain ⟨_, -, hlast⟩ := hrun'.of_snoc
  obtain ⟨_, -, -, -, -, hrequest⟩ := prepareNext_eq_continueWith hlast
  exact ⟨state', ChainInv.of_run hrun', hrequest⟩

/-- A `Host` header that matches keeps matching a URI of the same authority. -/
theorem HostMatches.of_sameAuthority {headers : HeaderMap} {a b : Uri}
    (hhost : HostMatches headers a) (hsame : SameAuthority a b) : HostMatches headers b := by
  intro value hvalue
  obtain ⟨host, authority, htext, hauthority, hequal⟩ := hhost value hvalue
  obtain ⟨x, y, hx, hy, hxy⟩ := hsame
  obtain rfl : authority = x := Option.some.inj (hauthority.symm.trans hx)
  exact ⟨host, y, htext, hy, hequal.trans hxy⟩

/-- While the authority is kept it stays the same as the initial one. -/
theorem AuthorityKept.sameAuthority {hops : List FollowUp} {hop : FollowUp} {initial : Uri}
    (hkept : AuthorityKept initial (hops ++ [hop])) : SameAuthority initial hop.request.uri := by
  have htrans : ∀ a b c : Uri, SameAuthority a b → SameAuthority b c → SameAuthority a c := by
    rintro a b c ⟨x, y, hx, hy, hxy⟩ ⟨y', z, hy', hz, hyz⟩
    obtain rfl : y = y' := Option.some.inj (hy.symm.trans hy')
    exact ⟨x, z, hx, hz, hxy.trans hyz⟩
  -- being a chain of a transitive relation, all hops share the first authority
  have : IsTrans Uri SameAuthority := ⟨htrans⟩
  have hpairwise := List.isChain_iff_pairwise.mp hkept
  exact List.rel_of_pairwise_cons hpairwise (by simp)

/-- Along a chain that starts with a matching `Host`, every follow-up sends entries of the
initial headers only; all of them while the authority is kept, and once it has changed no
credentials and no `Host` ever again; and where it sends a `Host`, that is its own authority. -/
theorem chain_headers (hhost : HostMatches initial.headers initial.uri)
    (hrun : Run (ChainStep parsers allow) initial.redirectState hops state) :
    ∀ past hop rest, hops = past ++ hop :: rest →
      hop.request.headers ≤ initial.headers ∧
      (¬ AuthorityKept initial.uri (past ++ [hop]) →
        ∀ name ∈ SENSITIVE_HEADERS ++ [.host], hop.request.headers.getAll name = []) ∧
      (AuthorityKept initial.uri (past ++ [hop]) → hop.request.headers = initial.headers) ∧
      HostMatches hop.request.headers hop.request.uri := by
  rintro past hop rest rfl
  obtain ⟨state', hinv, hrequest⟩ := chain_split hrun
  have hheaders : hop.request.headers = state'.headers := by rw [hrequest]; rfl
  by_cases hkept : AuthorityKept initial.uri (past ++ [hop])
  · rw [hheaders, hinv.kept hkept]
    exact ⟨le_refl _, fun h => absurd hkept h, fun _ => rfl,
      hhost.of_sameAuthority hkept.sameAuthority⟩
  · have hstripped : ∀ name ∈ SENSITIVE_HEADERS ++ [HeaderName.host],
        (stripCredentials initial.headers).getAll name = [] := by
      intro name hname
      rw [getAll_stripCredentials, if_pos hname]
    rw [hheaders, hinv.stripped hkept]
    -- a stripped map has no `Host` left that could be stale
    refine ⟨stripCredentials_le _, fun _ => hstripped, fun h => absurd h hkept, ?_⟩
    intro value hvalue
    rw [hstripped .host (by simp)] at hvalue
    cases hvalue

/-! ## The length of a body that is gone -/

/-- The length that a `Content-Length` value declares. -/
def declaredLength (value : HeaderValue) : Option ℕ :=
  value.toStr.bind fun s =>
    if !s.isEmpty && s.all Char.isDigit then
      some (s.foldl (fun acc c => acc * 10 + (c.toNat - '0'.toNat)) 0)
    else none

/-- The headers declare a body that is not empty. -/
def declaresBody (headers : HeaderMap) : Bool :=
  (headers.getAll .contentLength).any fun value => (declaredLength value).any (· ≠ 0)

/-- Stripping does not touch the declared length. -/
theorem declaresBody_stripCredentials (headers : HeaderMap) :
    declaresBody (stripCredentials headers) = declaresBody headers := by
  rw [declaresBody, getAll_stripCredentials, if_neg (by decide), declaresBody]

/-- The follow-ups of a chain, none of which has a body, are all framed consistently exactly
when there is none or the initial request declares no body. -/
theorem content_length_consistent_iff
    (hrun : Run (ChainStep parsers allow) initial.redirectState hops state) :
    (∀ hop ∈ hops, hop.request.body = [] ∧ declaresBody hop.request.headers = false) ↔
      hops = [] ∨ declaresBody initial.headers = false := by
  -- whether it is stripped or not, a follow-up declares the body that the initial request did
  have hinherit : ∀ hop ∈ hops, hop.request.body = [] ∧
      declaresBody hop.request.headers = declaresBody initial.headers := by
    intro hop hmem
    obtain ⟨past, rest, rfl⟩ := List.append_of_mem hmem
    obtain ⟨state', hinv, hrequest⟩ := chain_split hrun
    rw [hrequest]
    refine ⟨rfl, ?_⟩
    by_cases hkept : AuthorityKept initial.uri (past ++ [hop])
    · exact congrArg declaresBody (hinv.kept hkept)
    · exact (congrArg declaresBody (hinv.stripped hkept)).trans (declaresBody_stripCredentials _)
  constructor
  · intro hconsistent
    cases hops with
    | nil => exact Or.inl rfl
    | cons hop rest =>
      have hmem : hop ∈ hop :: rest := List.mem_cons_self
      exact Or.inr ((hinherit hop hmem).2 ▸ (hconsistent hop hmem).2)
  · rintro (rfl | hnone) hop hmem
    · cases hmem
    · exact ⟨(hinherit hop hmem).1, (hinherit hop hmem).2.trans hnone⟩

/-! ## Following given responses -/

/-- Follow responses in order, as long as each continues the chain. -/
def followAll (parsers : Parsers) (allow : Bool) (state : RedirectState) :
    List Response → List FollowUp × RedirectState
  | [] => ([], state)
  | response :: responses =>
    match prepareNext parsers state response allow with
    | .ok (.continueWith request, state') =>
      let (hops, last) := followAll parsers allow state' responses
      ({ response, request } :: hops, last)
    | _ => ([], state)

/-- Following responses is a chain. -/
theorem run_followAll (state : RedirectState) (responses : List Response) :
    Run (ChainStep parsers allow) state (followAll parsers allow state responses).1
      (followAll parsers allow state responses).2 := by
  induction responses generalizing state with
  | nil => exact Run.nil state
  | cons response responses ih =>
    rw [followAll]
    split
    next request state' hnext => exact Run.cons hnext (ih state')
    next => exact Run.nil state

/-- A `POST` of three bytes with credentials. -/
def postWithToken : Request where
  method := .post
  uri := { scheme := some "https", authority := some "a.test", path := "/", query := none }
  headers := .ofList
    [(.host, ⟨Str.asBytes "a.test", by decide⟩),
      (.authorization, ⟨Str.asBytes "Bearer t", by decide⟩),
      (.contentLength, ⟨Str.asBytes "3", by decide⟩)]
  body := [0x61, 0x3d, 0x62]

/-- A `303 See Other` to another host. -/
def seeOtherHost : Response where
  status := .seeOther
  headers := .ofList [(.location, ⟨Str.asBytes "https://b.test/", by decide⟩)]

/-- A `303 See Other` back to the first host. -/
def seeFirstHost : Response where
  status := .seeOther
  headers := .ofList [(.location, ⟨Str.asBytes "https://a.test/done", by decide⟩)]

/-- The chain to another host and back. -/
def thereAndBack : List FollowUp × RedirectState :=
  followAll .plain false postWithToken.redirectState [seeOtherHost, seeFirstHost]

/-- `chain_headers` on the chain to another host and back. -/
theorem chain_headers_thereAndBack :
    thereAndBack.1.length = 2 ∧ ∀ past hop rest, thereAndBack.1 = past ++ hop :: rest →
      hop.request.headers ≤ postWithToken.headers ∧
      (¬ AuthorityKept postWithToken.uri (past ++ [hop]) →
        ∀ name ∈ SENSITIVE_HEADERS ++ [.host], hop.request.headers.getAll name = []) ∧
      (AuthorityKept postWithToken.uri (past ++ [hop]) →
        hop.request.headers = postWithToken.headers) ∧
      HostMatches hop.request.headers hop.request.uri := by
  have hhost : HostMatches postWithToken.headers postWithToken.uri := by
    intro value hvalue
    have hvalues : postWithToken.headers.getAll .host =
        [⟨Str.asBytes "a.test", by decide⟩] := by decide
    rw [hvalues, List.mem_singleton] at hvalue
    subst hvalue
    exact ⟨"a.test", "a.test", by decide, rfl, rfl⟩
  exact ⟨by decide +kernel, chain_headers hhost (run_followAll _ _)⟩

/-- `content_length_consistent_iff` on the same chain. -/
theorem content_length_consistent_iff_thereAndBack :
    (∀ hop ∈ thereAndBack.1,
        hop.request.body = [] ∧ declaresBody hop.request.headers = false) ↔
      thereAndBack.1 = [] ∨ declaresBody postWithToken.headers = false :=
  content_length_consistent_iff (run_followAll _ _)

/-- The `GET` that follows up a `POST` still declares the three bytes of its body. -/
theorem rewritten_get_keeps_content_length :
    ∃ hops state, Run (ChainStep .plain false) postWithToken.redirectState hops state ∧
      ∃ hop ∈ hops, hop.request.method = .get ∧ hop.request.body = [] ∧
        declaresBody hop.request.headers = true :=
  ⟨thereAndBack.1, thereAndBack.2, run_followAll _ _, by decide +kernel⟩

end Corx
