import Corx.Proxy.LoopRuns
import Corx.Proxy.PathAuthority
import Corx.Server.Handler

/-!
# One authority

The host of a target stands in three places: in its URL, in the field `host` next to it, and in
the URI of the outbound request, which is built from text. Five components read it there: the
target policy before and during the redirect loop, the rate limiter, the `Host` header and the
circuit breaker. `oneAuthority_of_toUri` shows that they all read the same.

The `url`, `idna` and `http` crates enter through their documented behaviour (`UriLaws`). What
carries the argument is that a domain in ASCII form has no colon, at sign or bracket, so that the
authority that is printed is cut where it was put together (`hostOfAuthority_of_domain`,
`portOfAuthority_of_domain`).
-/

namespace Corx

/-! ## Domains in an authority -/

/-- The characters of a domain in ASCII form: visible ASCII, without the code points that the URL
standard forbids in domains. -/
def isDomainChar (c : Char) : Bool :=
  (32 < c.toNat && c.toNat < 127) && !"#%/:<>?@[\\]^|".toList.contains c

/-- A domain has none of the characters that separate the parts of an authority. -/
theorem not_mem_of_domain {host : Str} (hhost : host.all isDomainChar = true) {c : Char}
    (hc : isDomainChar c = false) : c ∉ host := by
  intro hmem
  rw [List.all_eq_true.mp hhost c hmem] at hc
  cases hc

/-- The host of an authority that is a domain, with a port or without, is the domain. -/
theorem hostOfAuthority_of_domain {host rest : Str} (hhost : host.all isDomainChar = true)
    (hat : '@' ∉ rest) (hrest : rest = [] ∨ ∃ port, rest = ':' :: port) :
    Uri.hostOfAuthority (host ++ rest) = host := by
  have hbracket : (host ++ rest).head? ≠ some '[' := by
    cases host with
    | nil => rcases hrest with rfl | ⟨port, rfl⟩ <;> simp
    | cons c host =>
      intro hhead
      obtain rfl := Option.some.inj hhead
      exact not_mem_of_domain hhost (by decide) List.mem_cons_self
  have hwhole : ((host ++ rest).reverse.takeWhile (· ≠ '@')).reverse = host ++ rest := by
    rw [List.takeWhile_eq_self_iff.mpr, List.reverse_reverse]
    intro c hc
    rw [List.mem_reverse, List.mem_append] at hc
    rw [decide_eq_true_iff]
    rintro rfl
    exact hc.elim (not_mem_of_domain hhost (by decide)) hat
  have hcolon : ∀ c ∈ host, decide (c ≠ ':') = true := by
    intro c hc
    rw [decide_eq_true_iff]
    rintro rfl
    exact not_mem_of_domain hhost (by decide) hc
  rw [Uri.hostOfAuthority, hwhole, if_neg hbracket, List.takeWhile_append_of_pos hcolon]
  rcases hrest with rfl | ⟨port, rfl⟩
  · exact List.append_nil host
  · rw [List.takeWhile_cons_of_neg (by decide), List.append_nil]

section Target

variable {target : TargetUrl}

/-- The authority of a target is its host, followed by its port where that is explicit. -/
theorem TargetUrl.authority_eq (target : TargetUrl) :
    target.authority =
      target.host ++ (target.url.port.elim [] fun port => ':' :: Str.ofNat port.toNat) := by
  unfold TargetUrl.authority
  cases target.url.port with
  | none => exact (List.append_nil _).symm
  | some port => exact List.append_assoc _ _ _

/-- The host is read back from the authority of a target. -/
theorem hostOfAuthority_authority (hhost : target.host.all isDomainChar = true) :
    Uri.hostOfAuthority target.authority = target.host := by
  rw [TargetUrl.authority_eq]
  cases target.url.port with
  | none => exact hostOfAuthority_of_domain hhost (by simp) (Or.inl rfl)
  | some port =>
    refine hostOfAuthority_of_domain hhost ?_ (Or.inr ⟨_, rfl⟩)
    rw [Option.elim_some, List.mem_cons, not_or]
    exact ⟨by decide, Str.not_mem_ofNat (by decide) _⟩

/-- The port is read back from the authority of a target. -/
theorem portOfAuthority_authority (hhost : target.host.all isDomainChar = true) :
    Uri.portOfAuthority target.authority = target.url.port := by
  rw [TargetUrl.authority_eq, Uri.portOfAuthority]
  cases target.url.port with
  | none =>
    rw [Option.elim_none, List.append_nil,
      Str.rsplitOnce_of_not_mem (not_mem_of_domain hhost (by decide)), Option.bind_none]
  | some port =>
    rw [Option.elim_some, Str.rsplitOnce_append (Str.not_mem_ofNat (by decide) _),
      Option.bind_some]
    exact Str.parseU16_ofNat port

/-- The authority of a target is text that a header can hold. -/
theorem isHeaderChar_authority (hhost : target.host.all isDomainChar = true) :
    ∀ c ∈ target.authority, IsHeaderChar c := by
  have hdomain : ∀ c ∈ target.host, IsHeaderChar c := by
    intro c hc
    have hchar := List.all_eq_true.mp hhost c hc
    simp only [isDomainChar, Bool.and_eq_true, decide_eq_true_eq] at hchar
    exact Or.inl ⟨Nat.le_of_lt hchar.1.1, hchar.1.2⟩
  rw [TargetUrl.authority_eq]
  intro c hc
  rcases List.mem_append.mp hc with hc | hc
  · exact hdomain c hc
  · cases hport : target.url.port with
    | none =>
      rw [hport] at hc
      cases hc
    | some port =>
      rw [hport, Option.elim_some, List.mem_cons] at hc
      rcases hc with rfl | hc
      · decide
      · exact isHeaderChar_of_mem_toDigits (by decide) hc

end Target

/-! ## The outbound URI -/

/-- The path of a URL begins with a slash and ends before the query, and neither runs into a
fragment. -/
structure HasPlainPath (u : Url) : Prop where
  slash : u.path.head? = some '/'
  question : '?' ∉ u.path
  hash : '#' ∉ u.path ++ queryText u.query

/-- What the `url`, `idna` and `http` crates promise: HTTP URLs have plain paths, and replacing
the host leaves the path and the query alone; a domain in ASCII form has domain characters; a path
and query without fragment is cut at its first question mark; and a URI that is built has the
parts it is built from. -/
structure UriLaws (parsers : Parsers) : Prop where
  urlParse : ∀ s u, parsers.urlParse s = .ok u → u.scheme = "http" ∨ u.scheme = "https" →
    HasPlainPath u
  urlSetHost : ∀ u host v, parsers.urlSetHost u host = .ok v →
    v.path = u.path ∧ v.query = u.query
  domainToAscii : ∀ host ascii, parsers.domainToAscii host = .ok ascii →
    ascii.all isDomainChar = true
  pathAndQuery : ∀ s path query, s.head? = some '/' → '#' ∉ s →
    parsers.pathAndQuery s = .ok (path, query) → '?' ∉ path ∧ s = path ++ queryText query
  uriBuild : ∀ scheme authority path query u, path.head? = some '/' →
    parsers.uriBuild scheme authority (path, query) = .ok u →
      u = { scheme := some scheme, authority := some authority, path, query }

section OutboundUri

variable {parsers : Parsers} {uri u : Uri} {target : TargetUrl}

/-- The query that a target takes along: its own, unless that is empty. -/
def sentQuery (query : Option Str) : Option Str :=
  query.filter fun q => !q.isEmpty

/-- Only an empty query is left out. -/
theorem sentQuery_spec (query : Option Str) :
    sentQuery query = query ∨ query = some [] ∧ sentQuery query = none := by
  cases query with
  | none => exact Or.inl rfl
  | some q =>
    cases q with
    | nil => exact Or.inr ⟨rfl, rfl⟩
    | cons c q => exact Or.inl rfl

/-- The URI of the outbound request is built from the scheme, the authority, the path and the
query of the target. -/
theorem built_of_toUri (h : target.toUri parsers = .ok u) :
    ∃ pq, parsers.pathAndQuery (target.url.path ++ queryText (sentQuery target.url.query)) =
        .ok pq ∧
      parsers.uriBuild target.url.scheme target.authority pq = .ok u := by
  unfold TargetUrl.toUri at h
  simp only [Bind.bind, Except.bind] at h
  split at h
  next pq hpq =>
    split at h
    next v hbuild =>
      obtain rfl := Except.ok.inj h
      refine ⟨pq, (congrArg parsers.pathAndQuery ?_).trans hpq, hbuild⟩
      -- an empty query leaves no question mark behind
      cases target.url.query with
      | none => exact List.append_nil _
      | some q =>
        cases q with
        | nil => exact List.append_nil _
        | cons c q => exact (List.append_assoc target.url.path ['?'] (c :: q)).symm
    next => cases h
  next => cases h

/-- A text is cut at its first question mark in one way only. -/
theorem queryText_append_inj {path₁ path₂ : Str} {query₁ query₂ : Option Str}
    (h₁ : '?' ∉ path₁) (h₂ : '?' ∉ path₂)
    (heq : path₁ ++ queryText query₁ = path₂ ++ queryText query₂) :
    path₁ = path₂ ∧ query₁ = query₂ := by
  induction path₁ generalizing path₂ with
  | nil =>
    cases path₂ with
    | nil =>
      refine ⟨rfl, ?_⟩
      cases query₁ <;> cases query₂ <;> simp_all [queryText]
    | cons c path₂ =>
      cases query₁ with
      | none => simp [queryText] at heq
      | some query =>
        obtain ⟨rfl, -⟩ := List.cons.inj heq
        exact absurd List.mem_cons_self h₂
  | cons c path₁ ih =>
    cases path₂ with
    | nil =>
      cases query₂ with
      | none => simp [queryText] at heq
      | some query =>
        obtain ⟨rfl, -⟩ := List.cons.inj heq
        exact absurd List.mem_cons_self h₁
    | cons d path₂ =>
      obtain ⟨rfl, htail⟩ := List.cons.inj heq
      obtain ⟨rfl, hquery⟩ := ih (fun h => h₁ (List.mem_cons_of_mem c h))
        (fun h => h₂ (List.mem_cons_of_mem c h)) htail
      exact ⟨rfl, hquery⟩

/-- A target that is extracted has a domain for its host, and a plain path. -/
theorem target_of_extractTarget (laws : UriLaws parsers)
    (h : extractTarget parsers uri = .ok target) :
    target.host.all isDomainChar = true ∧ HasPlainPath target.url := by
  obtain ⟨-, -, normalized, parsed, -, -, -, hparse, hvalid⟩ := extractTarget_eq_ok.mp h
  have hvalidated := validate_eq_ok.mp hvalid
  obtain ⟨host, -, -, hascii, hurl⟩ := hvalidated.host
  have hplain := laws.urlParse normalized parsed hparse hvalidated.scheme
  refine ⟨laws.domainToAscii host target.host hascii, ?_⟩
  split at hurl
  next => exact hurl ▸ hplain
  next =>
    obtain ⟨hpath, hquery⟩ := laws.urlSetHost parsed target.host target.url hurl
    exact ⟨hpath ▸ hplain.slash, hpath ▸ hplain.question, hpath ▸ hquery ▸ hplain.hash⟩

/-- The outbound URI has the scheme, the authority and the path of the target, and its query
unless that is empty. -/
theorem uri_of_toUri (laws : UriLaws parsers) (hextract : extractTarget parsers uri = .ok target)
    (huri : target.toUri parsers = .ok u) :
    u =
      { scheme := some target.url.scheme
        authority := some target.authority
        path := target.url.path
        query := sentQuery target.url.query } := by
  obtain ⟨-, hplain⟩ := target_of_extractTarget laws hextract
  obtain ⟨⟨path, query⟩, hpq, hbuild⟩ := built_of_toUri huri
  have hslash : (target.url.path ++ queryText (sentQuery target.url.query)).head? = some '/' := by
    rw [List.head?_append, hplain.slash, Option.some_or]
  have hhash : '#' ∉ target.url.path ++ queryText (sentQuery target.url.query) := by
    intro hmem
    refine hplain.hash ?_
    rcases List.mem_append.mp hmem with hmem | hmem
    · exact List.mem_append_left _ hmem
    · refine List.mem_append_right _ ?_
      cases hquery : target.url.query with
      | none =>
        rw [hquery] at hmem
        exact hmem
      | some q =>
        rw [hquery, sentQuery, Option.filter_some] at hmem
        split at hmem
        · exact hmem
        · cases hmem
  obtain ⟨hquestion, htext⟩ := laws.pathAndQuery _ path query hslash hhash hpq
  obtain ⟨rfl, rfl⟩ := queryText_append_inj hplain.question hquestion htext
  exact laws.uriBuild _ _ _ _ u hplain.slash hbuild

end OutboundUri

/-! ## What the components read -/

/-- The outbound URI `u` of a target that was extracted from `uri` names the authority of the
target, and every component reads it: the target policy gives the same verdict on both, the `Host`
header is the authority of `u`, and the rate limiter and the circuit breaker use the same host. -/
structure OneAuthority (parsers : Parsers) (uri : Uri) (target : TargetUrl) (u : Uri) : Prop where
  scheme : u.scheme = some target.url.scheme
  host : u.host = some target.host
  port : u.portU16 = target.url.port
  path : u.path = target.url.path
  query : u.query = target.url.query ∨ target.url.query = some [] ∧ u.query = none
  verdict : ∀ policy : TargetPolicy, policy.check target = policy.checkUri u
  hostHeader : ∀ headers, ∃ value,
    (setHostFromTarget headers target).getAll .host = [value] ∧ value.toStr = u.authority
  /-- A request for the target passes the guards once the rate limiter has charged `hostOf u`. -/
  charged : ∀ policies request clientIp, request.uri = uri →
    (serve parsers policies request clientIp = .target target ↔
      isPreflight request.method request.headers = false ∧
        policies.guard.checkOrigin request = .ok () ∧
        policies.targetPolicy.checkUri u = .ok () ∧
        policies.guard.checkRate request clientIp (some (hostOf u)) = .ok ())
  /-- Hop 0 of an outbound request for the target goes out once the circuit breaker has admitted
  `hostOf u`, and that is the host of the target. -/
  circuitKey : hostOf u = target.host ∧
    ∀ build request clientIp requestId outbound,
      outboundRequest parsers build request target clientIp requestId = .ok outbound →
      ∀ upstream cb env, PassesChecks upstream cb env (.start outbound) ↔
        upstream.targetPolicy.checkUri u = .ok () ∧
        ∃ hop, (CircuitHop.admitHop cb env.hosts (hostOf u) env.now).1 = .ok hop

section Components

variable {parsers : Parsers} {uri u : Uri} {target : TargetUrl}

/-- A request for a target is served when its origin and the policy admit it and the rate limiter
has charged the host of the target. -/
theorem serve_eq_target_iff {policies : LivePolicies} {request : Request} {clientIp : IpAddr}
    (hextract : extractTarget parsers request.uri = .ok target) :
    serve parsers policies request clientIp = .target target ↔
      isPreflight request.method request.headers = false ∧
        policies.guard.checkOrigin request = .ok () ∧
        policies.targetPolicy.check target = .ok () ∧
        policies.guard.checkRate request clientIp (some target.host) = .ok () := by
  unfold serve
  rw [hextract]
  cases hpreflight : isPreflight request.method request.headers with
  | true =>
    rw [if_pos rfl]
    refine iff_of_false ?_ (by simp)
    dsimp only
    split <;> exact Served.noConfusion
  | false =>
    rw [if_neg (by decide)]
    cases policies.guard.checkOrigin request with
    | error err => simp
    | ok _ =>
      dsimp only
      cases policies.targetPolicy.check target with
      | error err => simp
      | ok _ =>
        dsimp only
        cases policies.guard.checkRate request clientIp (some target.host) with
        | error err => simp
        | ok _ => simp

/-- The target of a request and the URI of its outbound request have one authority, and all who
read it read the same. -/
theorem oneAuthority_of_toUri (laws : UriLaws parsers)
    (hextract : extractTarget parsers uri = .ok target) (huri : target.toUri parsers = .ok u) :
    OneAuthority parsers uri target u := by
  obtain ⟨hdomain, -⟩ := target_of_extractTarget laws hextract
  have hu := uri_of_toUri laws hextract huri
  have hscheme : u.scheme = some target.url.scheme := by rw [hu]
  have hauthority : u.authority = some target.authority := by rw [hu]
  have hhost : u.host = some target.host := by
    rw [Uri.host, hauthority, Option.map_some, hostOfAuthority_authority hdomain]
  have hkey : hostOf u = target.host := by rw [hostOf, hhost, Option.getD_some]
  -- both checks look at a scheme and a host, and these are the same
  have hverdict : ∀ policy : TargetPolicy, policy.check target = policy.checkUri u := by
    intro policy
    rw [TargetPolicy.check, TargetPolicy.checkUri, hscheme, hhost]
  refine
    { scheme := hscheme
      host := hhost
      port := ?_
      path := by rw [hu]
      query := ?_
      verdict := hverdict
      hostHeader := ?_
      charged := ?_
      circuitKey := ⟨hkey, ?_⟩ }
  · rw [Uri.portU16, hauthority, Option.bind_some, portOfAuthority_authority hdomain]
  · rw [hu]
    exact sentQuery_spec target.url.query
  · intro headers
    obtain ⟨value, hvalue, htext⟩ := HeaderValue.toStr_fromStr (isHeaderChar_authority hdomain)
    refine ⟨value, ?_, htext.trans hauthority.symm⟩
    rw [setHostFromTarget, HeaderMap.getAll_insertStr_self, hvalue, Option.elim_some]
  · rintro policies request clientIp rfl
    rw [serve_eq_target_iff hextract, hverdict, hkey]
  · intro build request clientIp requestId outbound houtbound upstream cb env
    have hout : outbound.uri = u := by
      rw [outboundRequest, huri] at houtbound
      rw [← Except.ok.inj houtbound]
    rw [PassesChecks, LoopState.start, hout]

end Components

/-! ## A target with a port -/

/-- A path with a query is split at the question mark; where the path is empty it becomes a
slash. -/
theorem splitQuery_spec {s path : Str} {query : Option Str}
    (h : Plain.splitQuery s = (path, query)) :
    path ≠ [] ∧ '?' ∉ path ∧
      (s = path ++ queryText query ∨ path = "/" ∧ s = queryText query) := by
  unfold Plain.splitQuery at h
  split at h
  next before after hsplit =>
    obtain ⟨rfl, rfl⟩ := Prod.mk.inj h
    have hs : s = before ++ queryText (some after) := by
      rw [Str.eq_of_splitOnce hsplit, queryText, List.append_assoc, List.singleton_append]
    cases before with
    | nil => exact ⟨by decide, by decide, Or.inr ⟨rfl, hs⟩⟩
    | cons c before =>
      exact ⟨List.cons_ne_nil c before, Str.not_mem_of_splitOnce hsplit, Or.inl hs⟩
  next hsplit =>
    obtain ⟨rfl, rfl⟩ := Prod.mk.inj h
    cases s with
    | nil => exact ⟨by decide, by decide, Or.inr ⟨rfl, rfl⟩⟩
    | cons c s =>
      exact ⟨List.cons_ne_nil c s, Str.not_mem_of_splitOnce_eq_none hsplit,
        Or.inl (List.append_nil _).symm⟩

/-- What follows the authority of a plain URL is empty or begins with a slash or a question
mark. -/
theorem head?_dropWhile_authority (s : Str) :
    ∀ c ∈ (s.dropWhile fun c => decide (c ≠ '/' ∧ c ≠ '?')).head?, c = '/' ∨ c = '?' := by
  intro c hc
  have hstop := List.head?_dropWhile_not (fun c => decide (c ≠ '/' ∧ c ≠ '?')) s
  rw [Option.mem_def.mp hc] at hstop
  by_contra hneither
  exact absurd (not_or.mp hneither) (of_decide_eq_false hstop)

/-- Plain URLs without a fragment have plain paths. -/
theorem hasPlainPath_of_urlParse {s : Str} {u : Url} (hhash : '#' ∉ s)
    (h : Plain.urlParse s = .ok u) : HasPlainPath u := by
  unfold Plain.urlParse at h
  split at h
  next => cases h
  next scheme rest hsplit =>
    obtain rfl := Except.ok.inj h
    obtain ⟨hne, hquestion, htext⟩ := splitQuery_spec (s := rest.dropWhile _) rfl
    have hrest : '#' ∉ rest.dropWhile fun c => decide (c ≠ '/' ∧ c ≠ '?') := by
      intro hmem
      refine hhash ?_
      rw [Str.eq_of_splitOnce hsplit]
      exact List.mem_append_right _ ((List.dropWhile_sublist _).mem hmem)
    refine ⟨?_, hquestion, ?_⟩
    -- the path is what follows the authority, or the slash that stands for an empty one
    · rcases htext with htext | ⟨hslash, -⟩
      · obtain ⟨c, path, hpath⟩ := List.exists_cons_of_ne_nil hne
        have hhead := head?_dropWhile_authority rest c (by rw [htext, hpath]; rfl)
        rw [hpath, List.mem_cons, not_or] at hquestion
        rw [hpath, List.head?_cons, hhead.resolve_right (Ne.symm hquestion.1)]
      · exact congrArg List.head? hslash
    · rcases htext with htext | ⟨hslash, htext⟩
      · exact htext ▸ hrest
      · have hpath : '#' ∉ ("/" : Str) := by decide
        rw [List.mem_append, not_or]
        exact ⟨hslash ▸ hpath, htext ▸ hrest⟩

/-- The parsers on plain URLs, which reject fragments and hosts that are no domains. -/
def Parsers.domains : Parsers :=
  { Parsers.plain with
    urlParse := fun s => if '#' ∈ s then .error "fragment" else Plain.urlParse s
    domainToAscii := fun host =>
      if host.all isDomainChar then .ok host else .error "forbidden domain code point" }

/-- These parsers keep the promises. -/
theorem uriLaws_domains : UriLaws .domains where
  urlParse := by
    intro s u hparse _
    unfold Parsers.domains at hparse
    dsimp only at hparse
    split at hparse
    next => cases hparse
    next hhash => exact hasPlainPath_of_urlParse hhash hparse
  urlSetHost := by
    intro u host v hset
    rw [← Except.ok.inj hset]
    exact ⟨rfl, rfl⟩
  domainToAscii := by
    intro host ascii hascii
    unfold Parsers.domains at hascii
    dsimp only at hascii
    split at hascii
    next hall => exact Except.ok.inj hascii ▸ hall
    next => cases hascii
  pathAndQuery := by
    intro s path query hslash _ hsplit
    obtain ⟨-, hquestion, htext⟩ := splitQuery_spec (Except.ok.inj hsplit)
    refine ⟨hquestion, ?_⟩
    rcases htext with htext | ⟨-, htext⟩
    · exact htext
    -- a text that begins with a slash has a path of its own
    · rw [htext] at hslash
      cases query with
      | none => cases hslash
      | some query => exact absurd (Option.some.inj hslash) (by decide)
  uriBuild := by
    intro scheme authority path query u _ hbuild
    exact (Except.ok.inj hbuild).symm

/-- A request for a target with a port and a query. -/
def portedRequest : Uri :=
  requestOf "/http://api.test:8080/v1" (some "q=1")

/-- The target of that request. -/
def portedTarget : TargetUrl :=
  { url :=
      { scheme := "http"
        username := []
        password := none
        hostStr := some "api.test"
        port := some 8080
        path := "/v1"
        query := some "q=1"
        fragment := none }
    host := "api.test"
    port := 8080 }

/-- The outbound URI of that target. -/
def portedUri : Uri :=
  { scheme := some ("http" : Str)
    authority := some ("api.test:8080" : Str)
    path := "/v1"
    query := some ("q=1" : Str) }

/-- `oneAuthority_of_toUri` for a target with a port. -/
theorem oneAuthority_of_toUri_ported :
    OneAuthority .domains portedRequest portedTarget portedUri :=
  oneAuthority_of_toUri uriLaws_domains (by decide +kernel) (by decide +kernel)

end Corx
