import Mathlib.Data.List.TakeWhile
import Corx.Proxy.UrlReading

/-!
# The two address forms

A client addresses a target in the path of its request, or percent-encoded in the query
parameter `url`. Both forms go through one decoder. In the query form it undoes the client's
encoding, and the target arrives as it was written; in the path form it undoes the escapes of the
target itself. `sameTarget_iff` says for which targets that makes no difference.
-/

namespace Corx

/-- A request target in origin form: the path goes up to the first question mark, and a fragment
is dropped. -/
def Uri.originForm (s : Str) : Uri :=
  let s := s.takeWhile (· ≠ '#')
  match Str.splitOnce ['?'] s with
  | some (path, query) => { scheme := none, authority := none, path, query := some query }
  | none => { scheme := none, authority := none, path := s, query := none }

/-- What stands in front of the first `://` is a scheme that the proxy serves. -/
def NamesHttp (text : Str) : Prop :=
  ∃ scheme rest, Str.splitOnce "://" text = some (scheme, rest) ∧ IsHttpScheme scheme

/-- The scheme of a URL is one that the proxy serves. -/
def Url.IsHttp (url : Url) : Prop :=
  url.scheme = "http" ∨ url.scheme = "https"

/-- An absolute HTTP URL in URI characters, whose own query has no parameter `url`. -/
structure AbsoluteTarget (T : Str) : Prop where
  chars : ∀ c ∈ T, isUriChar c = true
  scheme : ∃ scheme rest, T = scheme ++ ':' :: ("//".toList ++ rest) ∧ IsHttpScheme scheme
  query : ((Uri.originForm ('/' :: T)).query.bind fun q => findQueryValue q "url") = none

/-- The `url` parameter of a request. -/
def urlParam (uri : Uri) : Option Str :=
  uri.query.bind fun query => findQueryValue query "url"

/-- The query of a request, as it follows the path. -/
def queryText : Option Str → Str
  | some query => '?' :: query
  | none => []

/-- The request that addresses a target in its path. -/
def pathForm (T : Str) : Uri :=
  .originForm ('/' :: T)

/-- The request that addresses a target in its query; `keep` are the characters that the client
leaves as they are. -/
def queryForm (keep : Char → Bool) (T : Str) : Uri :=
  .originForm ("/?url=".toList ++ Str.percentEncode keep T)

/-- What a client may leave as it is in the value of a query parameter: no percent sign, no
ampersand, and nothing that is not a URI character. -/
def FitsQuery (keep : Char → Bool) : Prop :=
  ∀ c, keep c = true → isUriChar c = true ∧ c ≠ '%' ∧ c ≠ '&'

/-- Both forms address the target that is the URL `u`. -/
def SameTarget (parsers : Parsers) (keep : Char → Bool) (T : Str) (u : Url) : Prop :=
  ∃ target, extractTarget parsers (pathForm T) = .ok target ∧
    extractTarget parsers (queryForm keep T) = .ok target ∧ target.url = u

/-- Validation admits the URL as it is: without credentials, with a host that is in ASCII form
and not too long. -/
structure AdmittedAsIs (parsers : Parsers) (u : Url) : Prop where
  username : u.username = []
  password : u.password = none
  host : ∃ host, u.hostStr = some host ∧ parsers.domainToAscii host = .ok host ∧
    (Str.asBytes host).length ≤ MAX_HOST_LEN

/-- What follows the authority of an absolute URL: its path and its query. -/
def tailOf (T : Str) : Str :=
  match Str.splitOnce "://" T with
  | some (_, rest) => UrlText.afterAuthority rest
  | none => []

/-- What follows the authority is UTF-8 text with its escapes undone, and each escape is one that
is put for its byte where it stands, none of them for a blank at the end; or, if the path has dot
segments, what is left of path and query without them is the same with the escapes undone. -/
def EscapesKept (sets : UrlText.EscapeSets) (T : Str) : Prop :=
  ∃ text, decodeText (tailOf T) = some text ∧
    (UrlText.Stands sets (tailOf T) text ∨
      UrlText.HasDotSegment ((UrlText.path (tailOf T)).drop 1) ∧
        UrlText.WritesSame sets (tailOf T) text)

/-! ## Requests in origin form -/

/-- A character in front of a request target is a character in front of its path. -/
theorem Uri.originForm_cons {c : Char} (hquestion : c ≠ '?') (hhash : c ≠ '#') (s : Str) :
    Uri.originForm (c :: s) =
      { Uri.originForm s with path := c :: (Uri.originForm s).path } := by
  have hstrip : Str.stripPrefix (c :: s.takeWhile (· ≠ '#')) ['?'] = none := by
    rw [Str.stripPrefix_eq_none, List.cons_prefix_cons]
    exact fun h => hquestion h.1.symm
  unfold Uri.originForm
  rw [List.takeWhile_cons_of_pos (by simpa using hhash)]
  dsimp only
  rw [Str.splitOnce, hstrip]
  cases Str.splitOnce ['?'] (s.takeWhile (· ≠ '#')) <;> rfl

/-- A request target without fragment is its path and its query. -/
theorem Uri.eq_of_originForm {s : Str} (h : '#' ∉ s) :
    s = match (Uri.originForm s).query with
      | some q => (Uri.originForm s).path ++ ['?'] ++ q
      | none => (Uri.originForm s).path := by
  have hwhole : s.takeWhile (· ≠ '#') = s := by
    refine List.takeWhile_eq_self_iff.mpr fun c hc => ?_
    rw [decide_eq_true_iff]
    rintro rfl
    exact h hc
  unfold Uri.originForm
  rw [hwhole]
  dsimp only
  cases hsplit : Str.splitOnce ['?'] s with
  | none => rfl
  | some parts => exact Str.eq_of_splitOnce hsplit

/-! ## Extraction -/

/-- Without the parameter, a request addresses its path with its query, unless the path is made
of slashes only. -/
theorem candidateFromUri_of_no_param {uri : Uri} (hparam : urlParam uri = none) :
    candidateFromUri uri =
      if Str.trimStartMatches uri.path '/' = [] then
        .error (.invalidUrl "no target url supplied")
      else .ok (Str.trimStartMatches uri.path '/' ++ queryText uri.query) := by
  unfold urlParam at hparam
  rw [candidateFromUri, hparam]
  simp only [List.isEmpty_iff]
  split
  next => rfl
  next =>
    cases uri.query with
    | none => rw [queryText, List.append_nil]
    | some query =>
      dsimp only
      rw [queryText, List.append_assoc, List.singleton_append]

/-- Without the parameter, a request addresses the text in its path and query, behind the leading
slashes. -/
theorem candidateFromUri_pathForm_of_no_param {A : Str} (hhash : '#' ∉ A)
    (hparam : urlParam (pathForm A) = none) (hne : Str.trimStartMatches A '/' ≠ [])
    (hquestion : (Str.trimStartMatches A '/').head? ≠ some '?') :
    candidateFromUri (pathForm A) = .ok (Str.trimStartMatches A '/') := by
  have hform : pathForm A = { Uri.originForm A with path := '/' :: (Uri.originForm A).path } :=
    Uri.originForm_cons (by decide) (by decide) A
  have htext : A = (Uri.originForm A).path ++ queryText (Uri.originForm A).query := by
    conv_lhs => rw [Uri.eq_of_originForm hhash]
    cases (Uri.originForm A).query <;> simp [queryText]
  have hpath : Str.trimStartMatches (pathForm A).path '/' =
      Str.trimStartMatches (Uri.originForm A).path '/' := by
    rw [hform]
    exact List.dropWhile_cons_of_pos (by decide)
  have hquery : (pathForm A).query = (Uri.originForm A).query := by rw [hform]
  have htrim : Str.trimStartMatches A '/' =
      if (Str.trimStartMatches (Uri.originForm A).path '/').isEmpty then
        Str.trimStartMatches (queryText (Uri.originForm A).query) '/'
      else Str.trimStartMatches (Uri.originForm A).path '/' ++
        queryText (Uri.originForm A).query := by
    conv_lhs => rw [htext]
    exact List.dropWhile_append
  rw [candidateFromUri_of_no_param hparam, hpath, hquery]
  split at htrim
  next hempty =>
    -- a path of slashes only leaves the query, or nothing
    rw [htrim] at hne hquestion
    cases hq : (Uri.originForm A).query with
    | none =>
      rw [hq] at hne
      exact absurd rfl hne
    | some query =>
      rw [hq] at hquestion
      exact absurd rfl hquestion
  next hempty =>
    rw [htrim, if_neg (by simpa using hempty)]

/-- What extraction yields: the candidate, decoded, completed, parsed and validated. -/
theorem extractTarget_eq_ok {parsers : Parsers} {uri : Uri} {target : TargetUrl} :
    extractTarget parsers uri = .ok target ↔
      ∃ candidate decoded normalized u, candidateFromUri uri = .ok candidate ∧
        Str.fromUtf8 (Str.percentDecode (Str.asBytes candidate)) = some decoded ∧
        normalizeScheme decoded = .ok normalized ∧ parsers.urlParse normalized = .ok u ∧
        validate parsers u = .ok target := by
  unfold extractTarget
  cases hcandidate : candidateFromUri uri with
  | error err => simp [Bind.bind, Except.bind]
  | ok candidate =>
    cases hdecoded : Str.fromUtf8 (Str.percentDecode (Str.asBytes candidate)) with
    | none => simp [Bind.bind, Except.bind, hdecoded]
    | some decoded =>
      cases hnormalized : normalizeScheme decoded with
      | error err => simp [Bind.bind, Except.bind, hdecoded, hnormalized]
      | ok normalized =>
        cases hparse : parsers.urlParse normalized with
        | error err => simp [Bind.bind, Except.bind, hdecoded, hnormalized, hparse]
        | ok u => simp [Bind.bind, Except.bind, hdecoded, hnormalized, hparse]

/-- What validation checks of a URL, and the target that it makes of it: the URL itself, or the
URL with its host in ASCII form. -/
structure Validated (parsers : Parsers) (u : Url) (target : TargetUrl) : Prop where
  scheme : u.IsHttp
  username : u.username = []
  password : u.password = none
  fragment : u.fragment = none
  host : ∃ host, u.hostStr = some host ∧ host ≠ [] ∧
    parsers.domainToAscii host = .ok target.host ∧
    if target.host = host then target.url = u
    else parsers.urlSetHost u target.host = .ok target.url
  length : (Str.asBytes target.host).length ≤ MAX_HOST_LEN
  port : target.url.portOrKnownDefault = some target.port

section Validation

variable {parsers : Parsers} {u : Url} {target : TargetUrl}

/-- A target that validation yields has passed its checks. -/
theorem validated_of_validate (h : validate parsers u = .ok target) :
    Validated parsers u target := by
  unfold validate at h
  simp only [Bind.bind, Except.bind, throw, throwThe, MonadExceptOf.throw, pure,
    Except.pure] at h
  -- one check after the other, each with its error
  split at h
  next => cases h
  next hscheme =>
  split at h
  next => cases h
  next hcredentials =>
  split at h
  next => cases h
  next hfragment =>
  split at h
  next host hhost =>
    split at h
    next => cases h
    next hempty =>
    split at h
    next ascii hascii =>
      split at h
      next => cases h
      next hlength =>
      rw [Bool.or_eq_true, not_or] at hcredentials
      have hserved : u.IsHttp := by
        by_contra hneither
        exact hscheme (not_or.mp hneither)
      have hchecked : ∀ url port, (if ascii = host then url = u
          else parsers.urlSetHost u ascii = .ok url) → url.portOrKnownDefault = some port →
            Validated parsers u ⟨url, ascii, port⟩ := by
        intro url port hurl hport
        exact
          { scheme := hserved
            username := by simpa using hcredentials.1
            password := by simpa using hcredentials.2
            fragment := by simpa using hfragment
            host := ⟨host, hhost, by simpa using hempty, hascii, hurl⟩
            length := Nat.le_of_not_lt hlength
            port := hport }
      split at h
      next hchanged =>
        -- the host was not in ASCII form and is replaced
        split at h
        next url hset =>
          split at h
          next port hport =>
            obtain rfl := Except.ok.inj h
            exact hchecked url port (by rwa [if_neg hchanged]) hport
          next => cases h
        next => cases h
      next hsame =>
        split at h
        next port hport =>
          obtain rfl := Except.ok.inj h
          exact hchecked u port (by rw [if_pos (not_not.mp hsame)]) hport
        next => cases h
    next => cases h
  next => cases h

/-- Validation yields the targets that pass its checks. -/
theorem validate_eq_ok : validate parsers u = .ok target ↔ Validated parsers u target := by
  refine ⟨validated_of_validate, fun h => ?_⟩
  obtain ⟨host, hhost, hempty, hascii, hurl⟩ := h.host
  obtain ⟨url, ascii, port⟩ := target
  have hserved : ¬ (u.scheme ≠ "http" ∧ u.scheme ≠ "https") :=
    fun hother => h.scheme.elim hother.1 hother.2
  have hlength : ¬ MAX_HOST_LEN < (Str.asBytes ascii).length := Nat.not_lt.mpr h.length
  dsimp only at hascii hurl
  unfold validate
  simp only [Bind.bind, Except.bind, throw, throwThe, MonadExceptOf.throw, pure, Except.pure,
    if_neg hserved, h.username, h.password, h.fragment, hhost, hascii, if_neg hlength,
    List.isEmpty_iff]
  by_cases hsame : ascii = host
  · rw [if_pos hsame] at hurl
    subst hsame hurl
    simp [hempty, h.port]
  · rw [if_neg hsame] at hurl
    simp [hempty, hsame, hurl, h.port]

section Standard

variable {sets : UrlText.EscapeSets} {authority : Str → Str → Option Authority}
  {scheme text tail : Str} {a : Authority}

/-- A URL that is read passes validation as it is, if it does. -/
theorem UrlStandard.url_of_validate (std : UrlStandard parsers sets authority)
    (ha : authority scheme text = some a)
    (h : validate parsers (.ofText sets scheme a tail) = .ok target) :
    target.url = .ofText sets scheme a tail ∧
      AdmittedAsIs parsers (.ofText sets scheme a tail) := by
  have hvalid := validate_eq_ok.mp h
  obtain ⟨host, hhost, -, hascii, hurl⟩ := hvalid.host
  obtain rfl : a.host = host := Option.some.inj hhost
  have hsame := std.ascii _ _ _ _ ha hascii
  rw [if_pos hsame] at hurl
  have hlength := hvalid.length
  rw [hsame] at hascii hlength
  exact ⟨hurl,
    { username := hvalid.username
      password := hvalid.password
      host := ⟨a.host, rfl, hascii, hlength⟩ }⟩

/-- A URL that is read, has no fragment and is admitted as it is passes validation. -/
theorem UrlStandard.exists_validate (std : UrlStandard parsers sets authority)
    (ha : authority scheme.toAsciiLowercase text = some a) (hscheme : IsHttpScheme scheme)
    (hfragment : UrlText.fragment tail = none)
    (h : AdmittedAsIs parsers (.ofText sets scheme.toAsciiLowercase a tail)) :
    ∃ target, validate parsers (.ofText sets scheme.toAsciiLowercase a tail) = .ok target ∧
      target.url = .ofText sets scheme.toAsciiLowercase a tail := by
  obtain ⟨host, hhost, hascii, hlength⟩ := h.host
  obtain rfl : a.host = host := Option.some.inj hhost
  -- both schemes that are served have a default port
  obtain ⟨port, hport⟩ : ∃ port,
      (Url.ofText sets scheme.toAsciiLowercase a tail).portOrKnownDefault = some port := by
    unfold Url.portOrKnownDefault
    split
    next port _ => exact ⟨port, rfl⟩
    next =>
      rcases hscheme with hhttp | hhttps
      · exact ⟨80, if_pos (Or.inl hhttp)⟩
      · refine ⟨443, (if_neg ?_).trans (if_pos (Or.inl hhttps))⟩
        have hnamed : (Url.ofText sets scheme.toAsciiLowercase a tail).scheme = "https".toList :=
          hhttps
        rw [hnamed]
        decide
  refine ⟨⟨_, a.host, port⟩, validate_eq_ok.mpr ?_, rfl⟩
  exact
    { scheme := hscheme
      username := h.username
      password := h.password
      fragment := by rw [Url.ofText, hfragment]; rfl
      host := ⟨a.host, rfl, (std.host _ _ _ ha).2, hascii, by rw [if_pos rfl]; rfl⟩
      length := hlength
      port := hport }

end Standard

end Validation

/-! ## Texts that name a scheme -/

/-- A text that names a scheme that is served is no path. -/
theorem NamesHttp.head_ne {text : Str} (h : NamesHttp text) : text.head? ≠ some '/' := by
  obtain ⟨scheme, rest, hsplit, hscheme⟩ := h
  rw [Str.eq_of_splitOnce hsplit]
  cases scheme with
  | nil => exact absurd rfl hscheme.ne_nil
  | cons c scheme =>
    intro hhead
    obtain rfl := Option.some.inj hhead
    exact hscheme.not_mem (by decide) List.mem_cons_self

/-- A text that names a scheme that is served is left as it is. -/
theorem normalizeScheme_of_isHttpScheme {scheme : Str} (h : IsHttpScheme scheme) (rest : Str) :
    normalizeScheme (scheme ++ ':' :: ("//".toList ++ rest)) =
      .ok (scheme ++ ':' :: ("//".toList ++ rest)) := by
  have hsplit : Str.splitOnce "://" (scheme ++ ':' :: ("//".toList ++ rest)) =
      some (scheme, rest) := Str.splitOnce_of_not_mem (h.not_mem (by decide)) rest
  rw [normalizeScheme, hsplit]
  dsimp only
  rw [if_neg]
  rintro ⟨hhttp, hhttps⟩
  exact h.elim hhttp hhttps

/-! ## The two forms -/

section Forms

variable {parsers : Parsers} {keep : Char → Bool} {T : Str} {target : TargetUrl}

/-- A target has no fragment. -/
theorem AbsoluteTarget.not_mem (h : AbsoluteTarget T) : '#' ∉ T :=
  fun hmem => absurd (h.chars '#' hmem) (by decide)

/-- Without the parameter, the path form of a text that names a scheme has the text for its
candidate. -/
theorem candidateFromUri_pathForm_of_scheme {scheme rest : Str} (hscheme : IsHttpScheme scheme)
    (hT : T = scheme ++ ':' :: ("//".toList ++ rest)) (hhash : '#' ∉ T)
    (hparam : urlParam (pathForm T) = none) : candidateFromUri (pathForm T) = .ok T := by
  -- the text begins with a letter of its scheme
  obtain ⟨c, s, rfl, hc⟩ : ∃ c s, T = c :: s ∧ ∀ d : Char, d.toLower ∉ "https".toList → c ≠ d := by
    cases scheme with
    | nil => exact absurd rfl hscheme.ne_nil
    | cons c scheme =>
      refine ⟨c, _, hT, ?_⟩
      rintro d hd rfl
      exact hscheme.not_mem hd List.mem_cons_self
  have htrim : Str.trimStartMatches (c :: s) '/' = c :: s :=
    List.dropWhile_cons_of_neg (by simpa using hc '/' (by decide))
  have hread := candidateFromUri_pathForm_of_no_param hhash hparam
  rw [htrim] at hread
  exact hread (List.cons_ne_nil c s) fun hhead => hc '?' (by decide) (Option.some.inj hhead)

/-- The path form of a target has the target for its candidate. -/
theorem candidateFromUri_pathForm (h : AbsoluteTarget T) :
    candidateFromUri (pathForm T) = .ok T := by
  obtain ⟨scheme, rest, hT, hscheme⟩ := h.scheme
  exact candidateFromUri_pathForm_of_scheme hscheme hT h.not_mem h.query

/-- What a client must escape in a query does not occur in an encoded target. -/
theorem FitsQuery.not_mem (hkeep : FitsQuery keep) {c : Char}
    (hc : isUriChar c = false ∨ c = '&') (hescape : c ∉ Str.escapeChars) (T : Str) :
    c ∉ Str.percentEncode keep T := by
  refine Str.not_mem_percentEncode (eq_false_of_ne_true fun hkept => ?_) hescape T
  obtain ⟨huri, -, hamp⟩ := hkeep c hkept
  rcases hc with hc | hc
  · rw [hc] at huri
    cases huri
  · exact hamp hc

/-- A query of one parameter has its value. -/
theorem findQueryValue_single {key value : Str} (hkey : '=' ∉ key)
    (hamp : '&' ∉ key ++ '=' :: value) : findQueryValue (key ++ '=' :: value) key = some value := by
  have hsplit : Str.split (key ++ '=' :: value) '&' = [key ++ '=' :: value] :=
    List.splitOn_eq_singleton hamp
  have hparam : Str.splitOnce ['='] (key ++ '=' :: value) = some (key, value) :=
    Str.splitOnce_of_not_mem hkey value
  rw [findQueryValue, hsplit, List.findSome?_cons, hparam]
  dsimp only
  rw [if_pos rfl]

/-- The query form of a target has the encoded target for its candidate. -/
theorem candidateFromUri_queryForm (hkeep : FitsQuery keep) (T : Str) :
    candidateFromUri (queryForm keep T) = .ok (Str.percentEncode keep T) := by
  have hhash := hkeep.not_mem (c := '#') (Or.inl (by decide)) (by decide) T
  have hamp := hkeep.not_mem (c := '&') (Or.inr rfl) (by decide) T
  -- the query is the one parameter
  have hquery : (queryForm keep T).query =
      some ("url".toList ++ '=' :: Str.percentEncode keep T) := by
    have hwhole : ("/?url=".toList ++ Str.percentEncode keep T).takeWhile (· ≠ '#') =
        ['/'] ++ '?' :: ([] ++ ("url".toList ++ '=' :: Str.percentEncode keep T)) := by
      rw [List.takeWhile_append_of_pos (List.all_iff_forall_prop.mp (by decide))]
      refine congrArg _ (List.takeWhile_eq_self_iff.mpr fun c hc => ?_)
      rw [decide_eq_true_iff]
      rintro rfl
      exact hhash hc
    rw [queryForm, Uri.originForm, hwhole, Str.splitOnce_of_not_mem (by decide)]
  have hsingle : '&' ∉ "url".toList ++ '=' :: Str.percentEncode keep T := by
    rw [List.mem_append, List.mem_cons, not_or, not_or]
    exact ⟨by decide, by decide, hamp⟩
  rw [candidateFromUri, hquery, Option.bind_some, findQueryValue_single (by decide) hsingle]

/-- The query form is read as the target itself. -/
theorem extractTarget_queryForm (hkeep : FitsQuery keep) (h : AbsoluteTarget T) :
    extractTarget parsers (queryForm keep T) = .ok target ↔
      ∃ u, parsers.urlParse T = .ok u ∧ validate parsers u = .ok target := by
  obtain ⟨scheme, rest, hT, hscheme⟩ := h.scheme
  have hkept : ∀ c, keep c = true → c.toNat < 128 ∧ c ≠ '%' :=
    fun c hc => ⟨toNat_lt_of_isUriChar (hkeep c hc).1, (hkeep c hc).2.1⟩
  have hdecoded : Str.fromUtf8 (Str.percentDecode (Str.asBytes (Str.percentEncode keep T))) =
      some T := by
    rw [Str.percentDecode_percentEncode hkept, Str.fromUtf8_asBytes]
  have hnormalized : normalizeScheme T = .ok T := by
    rw [hT]
    exact normalizeScheme_of_isHttpScheme hscheme rest
  rw [extractTarget_eq_ok]
  simp only [candidateFromUri_queryForm hkeep, Except.ok.injEq, exists_and_left, hdecoded,
    Option.some.injEq, hnormalized, exists_eq_left']

/-- A text that names a scheme that is served keeps it when its escapes are undone. -/
theorem exists_rest_of_decodeText {scheme rest decoded : Str} (hscheme : IsHttpScheme scheme)
    (h : decodeText (scheme ++ ':' :: ("//".toList ++ rest)) = some decoded) :
    ∃ rest', decoded = scheme ++ ':' :: ("//".toList ++ rest') := by
  have hpercent : '%' ∉ scheme ++ "://".toList := by
    rw [List.mem_append, not_or]
    exact ⟨hscheme.not_mem (by decide), by decide⟩
  have hsplit : scheme ++ ':' :: ("//".toList ++ rest) = (scheme ++ "://".toList) ++ rest := by
    simp
  rw [hsplit, decodeText, Str.asBytes_append, Str.percentDecode_append_of_not_mem
    (Str.percent_not_mem_asBytes hpercent), Str.fromUtf8_asBytes_append,
    Option.map_eq_some_iff] at h
  obtain ⟨rest', -, rfl⟩ := h
  exact ⟨rest', by simp⟩

/-- A target keeps its scheme when its escapes are undone. -/
theorem AbsoluteTarget.normalizeScheme_decoded (h : AbsoluteTarget T) {decoded : Str}
    (hdecoded : Str.fromUtf8 (Str.percentDecode (Str.asBytes T)) = some decoded) :
    normalizeScheme decoded = .ok decoded := by
  obtain ⟨scheme, rest, rfl, hscheme⟩ := h.scheme
  obtain ⟨rest', rfl⟩ := exists_rest_of_decodeText hscheme hdecoded
  exact normalizeScheme_of_isHttpScheme hscheme rest'

/-- The path form is read as the target with its escapes undone. -/
theorem extractTarget_pathForm (h : AbsoluteTarget T) :
    extractTarget parsers (pathForm T) = .ok target ↔
      ∃ decoded v, Str.fromUtf8 (Str.percentDecode (Str.asBytes T)) = some decoded ∧
        parsers.urlParse decoded = .ok v ∧ validate parsers v = .ok target := by
  rw [extractTarget_eq_ok]
  constructor
  · rintro ⟨candidate, decoded, normalized, v, hcandidate, hdecoded, hnormalized, hparse, hvalid⟩
    obtain rfl := Except.ok.inj ((candidateFromUri_pathForm h).symm.trans hcandidate)
    obtain rfl := Except.ok.inj ((h.normalizeScheme_decoded hdecoded).symm.trans hnormalized)
    exact ⟨decoded, v, hdecoded, hparse, hvalid⟩
  · rintro ⟨decoded, v, hdecoded, hparse, hvalid⟩
    exact ⟨T, decoded, decoded, v, candidateFromUri_pathForm h, hdecoded,
      h.normalizeScheme_decoded hdecoded, hparse, hvalid⟩

section Standard

variable {sets : UrlText.EscapeSets} {authority : Str → Str → Option Authority}

/-- A target that the path form addresses is read from the decoded text, and passes validation as
it is. -/
theorem UrlStandard.validate_of_pathForm (std : UrlStandard parsers sets authority)
    (h : AbsoluteTarget T) (hpath : extractTarget parsers (pathForm T) = .ok target) :
    ∃ decoded, decodeText T = some decoded ∧ parsers.urlParse decoded = .ok target.url ∧
      validate parsers target.url = .ok target ∧ AdmittedAsIs parsers target.url := by
  obtain ⟨scheme, rest, rfl, hscheme⟩ := h.scheme
  obtain ⟨decoded, v, hdecoded, hread, hvalid⟩ := (extractTarget_pathForm h).mp hpath
  obtain ⟨rest', rfl⟩ := exists_rest_of_decodeText hscheme hdecoded
  obtain ⟨a, ha, rfl⟩ := (std.parse _ _ _ hscheme).mp hread
  obtain ⟨hurl, hadmitted⟩ := std.url_of_validate ha hvalid
  rw [hurl]
  exact ⟨_, hdecoded, hread, hvalid, hadmitted⟩

/-- The path form addresses the URL that the target is, exactly if that URL is admitted as it is
and the escapes of the target make no difference to it. -/
theorem extractTarget_pathForm_iff (std : UrlStandard parsers sets authority)
    (h : AbsoluteTarget T) {u : Url} (hparse : parsers.urlParse T = .ok u) :
    (∃ target, extractTarget parsers (pathForm T) = .ok target ∧ target.url = u) ↔
      AdmittedAsIs parsers u ∧ EscapesKept sets T := by
  obtain ⟨scheme, rest, rfl, hscheme⟩ := h.scheme
  have hchars : ∀ c ∈ rest, isUriChar c = true := fun c hc => h.chars c (by simp [hc])
  have htail : tailOf (scheme ++ ':' :: ("//".toList ++ rest)) = UrlText.afterAuthority rest := by
    have hsplit : Str.splitOnce "://" (scheme ++ ':' :: ("//".toList ++ rest)) =
        some (scheme, rest) := Str.splitOnce_of_not_mem (hscheme.not_mem (by decide)) rest
    rw [tailOf, hsplit]
  have hshape := isTail_afterAuthority std hchars
  rw [EscapesKept, htail]
  constructor
  · rintro ⟨target, hpath, rfl⟩
    obtain ⟨decoded, hdecoded, hread, hvalid, hadmitted⟩ := std.validate_of_pathForm h hpath
    obtain ⟨a, front, ha, hurl, htext, hparsed⟩ :=
      std.urlParse_decoded hscheme hchars hparse hadmitted.username hadmitted.password
    rw [htext, Option.map_eq_some_iff] at hdecoded
    obtain ⟨text, hdecoded, rfl⟩ := hdecoded
    -- the URL is the one of the target, and the one of the target with its escapes undone
    have hurl' := Except.ok.inj (hread.symm.trans (hparsed text hdecoded))
    have hfragment := (validate_eq_ok.mp hvalid).fragment
    rw [hurl', Url.ofText, Option.map_eq_none_iff] at hfragment
    have hsame : UrlText.WritesSame sets (UrlText.afterAuthority rest) text := by
      have heq := hurl'.symm.trans hurl
      exact
        { path := congrArg Url.path heq
          query := congrArg Url.query heq
          fragment := hfragment }
    refine ⟨hadmitted, text, hdecoded, ?_⟩
    by_cases hdots : UrlText.HasDotSegment ((UrlText.path (UrlText.afterAuthority rest)).drop 1)
    · exact Or.inr ⟨hdots, hsame⟩
    · exact Or.inl ((UrlText.writesSame_iff std.lawful hshape hdots
        (decodes_of_decodeText hdecoded)).mp hsame)
  · rintro ⟨hadmitted, text, hdecoded, hkept⟩
    obtain ⟨a, front, ha, rfl, htext, hparsed⟩ :=
      std.urlParse_decoded hscheme hchars hparse hadmitted.username hadmitted.password
    have hsame : UrlText.WritesSame sets (UrlText.afterAuthority rest) text := hkept.elim
      (UrlText.writesSame_of_stands std.lawful hshape (decodes_of_decodeText hdecoded)) (·.2)
    have hnone : UrlText.fragment (UrlText.afterAuthority rest) = none :=
      UrlText.fragment_eq_none_iff.mpr fun hmem => (hshape.plain _ hmem).1 rfl
    obtain ⟨target, hvalid, hurl⟩ := std.exists_validate ha hscheme hnone hadmitted
    refine ⟨target, (extractTarget_pathForm h).mpr
      ⟨front ++ text, _, ?_, hparsed text hdecoded, ?_⟩, hurl⟩
    · rw [← decodeText, htext, hdecoded, Option.map_some]
    · have heq : Url.ofText sets scheme.toAsciiLowercase a (UrlText.clean text) =
          .ofText sets scheme.toAsciiLowercase a (UrlText.afterAuthority rest) := by
        rw [Url.ofText, Url.ofText, hsame.path, hsame.query, hsame.fragment, hnone]
      rwa [heq]

/-- Both forms address the URL that the target is, exactly if that URL is admitted as it is and
the escapes of the target make no difference to it. -/
theorem sameTarget_iff (std : UrlStandard parsers sets authority) (hkeep : FitsQuery keep)
    (h : AbsoluteTarget T) {u : Url} (hparse : parsers.urlParse T = .ok u) :
    SameTarget parsers keep T u ↔ AdmittedAsIs parsers u ∧ EscapesKept sets T := by
  rw [← extractTarget_pathForm_iff std h hparse]
  constructor
  · rintro ⟨target, hpath, -, hurl⟩
    exact ⟨target, hpath, hurl⟩
  · rintro ⟨target, hpath, rfl⟩
    obtain ⟨-, -, -, hvalid, -⟩ := std.validate_of_pathForm h hpath
    exact ⟨target, hpath, (extractTarget_queryForm hkeep h).mpr ⟨_, hparse, hvalid⟩, rfl⟩

end Standard

end Forms

/-! ## An escaped slash -/

/-- `encodeURIComponent`: letters, digits and a few marks are left as they are. -/
def encodesComponent (c : Char) : Bool :=
  c.isAlphanum || "-_.!~*'()".toList.contains c

/-- What `encodeURIComponent` leaves as it is fits into a query. -/
theorem fitsQuery_encodesComponent : FitsQuery encodesComponent := by
  intro c hc
  rw [encodesComponent, Bool.or_eq_true] at hc
  rcases hc with hc | hc
  · refine ⟨by rw [isUriChar, hc, Bool.true_or], ?_, ?_⟩
    · rintro rfl
      exact absurd hc (by decide)
    · rintro rfl
      exact absurd hc (by decide)
  · have hall : ∀ d ∈ "-_.!~*'()".toList, isUriChar d = true ∧ d ≠ '%' ∧ d ≠ '&' :=
      List.all_iff_forall_prop.mp (by decide)
    exact hall c (List.contains_iff_mem.mp hc)

/-- A target without escapes. -/
def plainTarget : Str :=
  "https://api.test/v1?q=1"

/-- The URL of that target. -/
def plainUrl : Url where
  scheme := "https"
  username := []
  password := none
  hostStr := some "api.test"
  port := none
  path := "/v1"
  query := some "q=1"
  fragment := none

/-- A target with an escape that stands for a letter beyond ASCII. -/
def accentedTarget : Str :=
  "https://api.test/caf%C3%A9?q=1"

/-- The URL of that target. -/
def accentedUrl : Url :=
  { plainUrl with path := "/caf%C3%A9" }

/-- `sameTarget_iff` for a target with an escape. -/
theorem sameTarget_iff_accented :
    SameTarget .standard encodesComponent accentedTarget accentedUrl ↔
      AdmittedAsIs .standard accentedUrl ∧ EscapesKept Standard.sets accentedTarget :=
  sameTarget_iff urlStandard_standard fitsQuery_encodesComponent
    ⟨List.all_iff_forall_prop.mp (by decide),
      ⟨"https", "api.test/caf%C3%A9?q=1".toList, rfl, Or.inr (by decide)⟩, by decide +kernel⟩
    (by decide +kernel)

/-- A target with an escaped slash in its path. -/
def escapedTarget : Str :=
  "https://api.test/a%2Fb"

/-- The URL of that target. -/
def escapedUrl : Url :=
  { plainUrl with path := "/a%2Fb", query := none }

/-- The path form of a target with an escaped slash addresses another URL, with the slash
unescaped; the query form addresses the target. -/
theorem escaped_slash_not_same :
    AbsoluteTarget escapedTarget ∧ Parsers.standard.urlParse escapedTarget = .ok escapedUrl ∧
      (extractTarget .standard (queryForm encodesComponent escapedTarget)).toOption.map (·.url) =
        some escapedUrl ∧
      ¬ SameTarget .standard encodesComponent escapedTarget escapedUrl := by
  refine ⟨⟨List.all_iff_forall_prop.mp (by decide),
    ⟨"https", "api.test/a%2Fb".toList, rfl, Or.inr (by decide)⟩, by decide +kernel⟩,
    by decide +kernel, by decide +kernel, ?_⟩
  rintro ⟨target, hpath, -, hurl⟩
  have hslash : (extractTarget .standard (pathForm escapedTarget)).toOption.map (·.url.path) =
      some "/a/b".toList := by decide +kernel
  rw [hpath, Except.toOption, Option.map_some, hurl] at hslash
  revert hslash
  decide

end Corx
