import Corx.Proxy.PathAuthority

/-!
# A path form without a scheme

A client may leave out the scheme of the target in the path of its request. It is then supplied,
by the port; and whether there is one at all is decided by a search for `://` in the whole text,
path and query included. `sameAsFull_iff` says for which texts the request is the same as the one
with the scheme written out.

What the functions of the `url` and `idna` crates do on such texts is the structure
`SchemelessLaws`.
-/

namespace Corx

/-- A text in which there are no escapes to undo. -/
def NoEscapes (s : Str) : Prop :=
  Str.percentDecode (Str.asBytes s) = Str.asBytes s

instance (s : Str) : Decidable (NoEscapes s) :=
  inferInstanceAs (Decidable (_ = _))

/-- How the `url` and `idna` crates read HTTP URLs, of whichever text stands behind the scheme and
the two slashes. -/
structure SchemelessLaws (parsers : Parsers) : Prop where
  /-- The scheme is the one in front, in lower case. -/
  scheme : ∀ scheme rest u, IsHttpScheme scheme →
    parsers.urlParse (scheme ++ ':' :: ("//".toList ++ rest)) = .ok u →
      u.scheme = scheme.toAsciiLowercase
  /-- More slashes are ignored. -/
  slash : ∀ scheme rest, IsHttpScheme scheme →
    parsers.urlParse (scheme ++ ':' :: ("//".toList ++ '/' :: rest)) =
      parsers.urlParse (scheme ++ ':' :: ("//".toList ++ rest))
  /-- There is something in front of the query. -/
  nonempty : ∀ scheme rest u, IsHttpScheme scheme →
    parsers.urlParse (scheme ++ ':' :: ("//".toList ++ rest)) = .ok u →
      rest ≠ [] ∧ rest.head? ≠ some '?'
  /-- A hash begins the fragment. -/
  fragment : ∀ scheme rest u, IsHttpScheme scheme → '#' ∈ rest →
    parsers.urlParse (scheme ++ ':' :: ("//".toList ++ rest)) = .ok u → u.fragment.isSome = true
  /-- Port 443 is the default of the other scheme, and is left out there. -/
  default : ∀ rest u, parsers.urlParse ("http".toList ++ ':' :: ("//".toList ++ rest)) = .ok u →
    u.port = some 443 → parsers.urlParse ("https".toList ++ ':' :: ("//".toList ++ rest)) =
      .ok { u with scheme := "https", port := none }
  /-- The host is in ASCII form. -/
  host : ∀ scheme rest u host ascii, IsHttpScheme scheme →
    parsers.urlParse (scheme ++ ':' :: ("//".toList ++ rest)) = .ok u → u.hostStr = some host →
      parsers.domainToAscii host = .ok ascii → ascii = host

/-- `http://` followed by the text is a URL with a host, without credentials and fragment; the
text does not itself begin with a scheme, and has neither escapes nor a parameter `url`. -/
structure Schemeless (parsers : Parsers) (A : Str) (u : Url) : Prop where
  not_http : ¬ "http://".toList <+: A
  not_https : ¬ "https://".toList <+: A
  escapes : NoEscapes A
  param : urlParam (pathForm A) = none
  parse : parsers.urlParse ("http".toList ++ ':' :: ("//".toList ++ A)) = .ok u
  host : ∃ host, u.hostStr = some host ∧ host ≠ []
  username : u.username = []
  password : u.password = none
  fragment : u.fragment = none

/-- The scheme that a target without one is to have: `https` where the port of its authority is
443. -/
def schemeOfPort (u : Url) : Str :=
  if u.port = some 443 then "https" else "http"

/-- The text with this scheme in front. -/
def fullForm (A : Str) (u : Url) : Str :=
  schemeOfPort u ++ ':' :: ("//".toList ++ A)

/-- The request without a scheme and the request with it address the same target. -/
def SameAsFull (parsers : Parsers) (A : Str) (u : Url) : Prop :=
  ∃ target, extractTarget parsers (pathForm A) = .ok target ∧
    extractTarget parsers (pathForm (fullForm A u)) = .ok target

/-- The host of the URL is a domain that is not too long. -/
def HasDomain (parsers : Parsers) (u : Url) : Prop :=
  ∃ host ascii, u.hostStr = some host ∧ parsers.domainToAscii host = .ok ascii ∧
    (Str.asBytes ascii).length ≤ MAX_HOST_LEN

/-- Behind its leading slashes, the text has no `://`, and what precedes the next slash ends in
`:443` exactly if the port is 443; or the text names a scheme of its own there, and happens to be
read as the URL of the full form. -/
def SchemeFits (parsers : Parsers) (A : Str) (u : Url) : Prop :=
  let text := Str.trimStartMatches A '/'
  Str.splitOnce "://" text = none ∧
      (":443".toList <:+ text.takeWhile (· ≠ '/') ↔ u.port = some 443) ∨
    NamesHttp text ∧ parsers.urlParse text = parsers.urlParse (fullForm A u)

/-! ## Texts -/

/-- A front without percent sign has no part in the escapes of a text. -/
theorem noEscapes_append_iff {pre : Str} (h : '%' ∉ pre) (s : Str) :
    NoEscapes (pre ++ s) ↔ NoEscapes s := by
  unfold NoEscapes
  rw [Str.asBytes_append, Str.percentDecode_append_of_not_mem (Str.percent_not_mem_asBytes h),
    List.append_cancel_left_eq]

/-- A front without question mark and hash has no part in the query of a request. -/
theorem query_originForm_append {pre : Str} (hquestion : '?' ∉ pre) (hhash : '#' ∉ pre) (s : Str) :
    (Uri.originForm (pre ++ s)).query = (Uri.originForm s).query := by
  induction pre with
  | nil => rfl
  | cons c pre ih =>
    rw [List.mem_cons, not_or] at hquestion hhash
    rw [List.cons_append, Uri.originForm_cons (Ne.symm hquestion.1) (Ne.symm hhash.1)]
    exact ih hquestion.2 hhash.2

/-- The scheme that is inferred is `https` exactly if what precedes the first slash ends in
`:443`. -/
theorem inferredScheme_eq (raw : Str) :
    inferredScheme raw =
      if ":443".toList <:+ raw.takeWhile (· ≠ '/') then ("https" : Str) else ("http" : Str) := by
  have hend : ∀ pre : Str, Str.rsplitOnce (pre ++ ':' :: "443".toList) ':' =
      some (pre, "443".toList) := fun pre => Str.rsplitOnce_append (by decide) pre
  unfold inferredScheme
  rw [Str.head?_split, Option.getD_some]
  split
  next pre port hsplit =>
    obtain ⟨htext, hport⟩ := Str.rsplitOnce_eq_some hsplit
    refine if_congr ?_ rfl rfl
    constructor
    · rintro rfl
      exact ⟨pre, htext.symm⟩
    · rintro ⟨pre', heq⟩
      rw [← heq] at hsplit
      exact (Prod.mk.inj (Option.some.inj (hsplit.symm.trans (hend pre')))).2
  next hsplit =>
    rw [if_neg]
    rintro ⟨pre, heq⟩
    rw [← heq] at hsplit
    cases hsplit.symm.trans (hend pre)

/-- What becomes of a text: one that names no scheme is completed by the inferred one, and one
that names a scheme is left as it is, if that scheme is served. -/
theorem normalizeScheme_eq_ok {text normalized : Str} :
    normalizeScheme text = .ok normalized ↔
      Str.splitOnce "://" text = none ∧
          normalized = inferredScheme text ++ ':' :: ("//".toList ++ text) ∨
        NamesHttp text ∧ normalized = text := by
  cases hsplit : Str.splitOnce "://" text with
  | none =>
    rw [normalizeScheme_of_none hsplit, Except.ok.injEq]
    have hnames : ¬ NamesHttp text := by
      rintro ⟨scheme, rest, hfound, -⟩
      exact absurd (hsplit.symm.trans hfound) (by simp)
    simp [hnames, eq_comm]
  | some parts =>
    obtain ⟨scheme, rest⟩ := parts
    -- the scheme is what stands in front of the first `://`
    have hnames : NamesHttp text ↔ IsHttpScheme scheme := by
      constructor
      · rintro ⟨scheme', rest', hfound, hscheme⟩
        obtain ⟨rfl, -⟩ := Prod.mk.inj (Option.some.inj (hsplit.symm.trans hfound))
        exact hscheme
      · exact fun hscheme => ⟨scheme, rest, hsplit, hscheme⟩
    rw [normalizeScheme, hsplit, hnames, IsHttpScheme]
    dsimp only
    split
    next hother =>
      refine iff_of_false (fun h => by cases h) ?_
      rintro (⟨hnone, -⟩ | ⟨hserved, -⟩)
      · cases hnone
      · exact hserved.elim hother.1 hother.2
    next hserved =>
      have hhttp : scheme.toAsciiLowercase = "http" ∨ scheme.toAsciiLowercase = "https" := by
        by_contra hneither
        exact hserved (not_or.mp hneither)
      rw [Except.ok.injEq, or_iff_right (fun h => by cases h.1), and_iff_right hhttp, eq_comm]

/-! ## Requests -/

section Requests

variable {parsers : Parsers} {A scheme : Str} {u : Url} {target : TargetUrl}

/-- What extraction yields for a candidate without escapes. -/
theorem extractTarget_of_candidate {uri : Uri} {text : Str} (hescapes : NoEscapes text)
    (hcandidate : candidateFromUri uri = .ok text) :
    extractTarget parsers uri = .ok target ↔
      ∃ normalized u, normalizeScheme text = .ok normalized ∧
        parsers.urlParse normalized = .ok u ∧ validate parsers u = .ok target := by
  have hdecoded : Str.fromUtf8 (Str.percentDecode (Str.asBytes text)) = some text := by
    rw [hescapes, Str.fromUtf8_asBytes]
  rw [extractTarget_eq_ok]
  simp only [hcandidate, Except.ok.injEq, exists_and_left, exists_eq_left', hdecoded,
    Option.some.injEq]

/-- Leading slashes of what follows the scheme do not matter. -/
theorem SchemelessLaws.urlParse_trim (laws : SchemelessLaws parsers) (h : IsHttpScheme scheme)
    (A : Str) :
    parsers.urlParse (scheme ++ ':' :: ("//".toList ++ Str.trimStartMatches A '/')) =
      parsers.urlParse (scheme ++ ':' :: ("//".toList ++ A)) := by
  unfold Str.trimStartMatches
  induction A with
  | nil => rfl
  | cons c A ih =>
    rw [List.dropWhile_cons]
    split
    next hc =>
      obtain rfl := of_decide_eq_true hc
      rw [ih, laws.slash scheme A h]
    next => rfl

/-- Where the host is in ASCII form, the target is the URL itself. -/
theorem Validated.url_eq (h : Validated parsers u target)
    (hascii : ∀ host ascii, u.hostStr = some host → parsers.domainToAscii host = .ok ascii →
      ascii = host) : target.url = u := by
  obtain ⟨host, hhost, -, hdomain, hurl⟩ := h.host
  rwa [if_pos (hascii host target.host hhost hdomain)] at hurl

/-- An HTTP URL has an effective port. -/
theorem Url.IsHttp.portOrKnownDefault (h : u.IsHttp) :
    ∃ port, u.portOrKnownDefault = some port := by
  unfold Url.portOrKnownDefault
  cases u.port with
  | some port => exact ⟨port, rfl⟩
  | none =>
    rcases h with h | h <;> rw [h]
    · exact ⟨80, rfl⟩
    · exact ⟨443, rfl⟩

end Requests

/-! ## The request with the scheme -/

section Forms

variable {parsers : Parsers} {A : Str} {u v : Url} {target : TargetUrl}

/-- The scheme that a target is to have is one that is served, in lower case. -/
theorem schemeOfPort_spec (u : Url) :
    IsHttpScheme (schemeOfPort u) ∧ (schemeOfPort u).toAsciiLowercase = schemeOfPort u := by
  unfold schemeOfPort
  split
  · exact ⟨Or.inr rfl, rfl⟩
  · exact ⟨Or.inl rfl, rfl⟩

/-- The text has no hash. -/
theorem Schemeless.hash (laws : SchemelessLaws parsers) (h : Schemeless parsers A u) :
    '#' ∉ A := by
  intro hmem
  have hsome := laws.fragment "http" A u (Or.inl rfl) hmem h.parse
  rw [h.fragment] at hsome
  cases hsome

/-- The URL of the full form is the one that the scheme `http` gives, but for scheme and port. -/
theorem Schemeless.urlParse_fullForm (laws : SchemelessLaws parsers)
    (h : Schemeless parsers A u) :
    ∃ v, parsers.urlParse (fullForm A u) = .ok v ∧ v.scheme = schemeOfPort u ∧
      v.hostStr = u.hostStr ∧ v.username = [] ∧ v.password = none ∧ v.fragment = none := by
  obtain ⟨hscheme, hlower⟩ := schemeOfPort_spec u
  have hread : ∃ v, parsers.urlParse (fullForm A u) = .ok v ∧ v.hostStr = u.hostStr ∧
      v.username = [] ∧ v.password = none ∧ v.fragment = none := by
    unfold fullForm schemeOfPort
    split
    next hport =>
      exact ⟨_, laws.default A u h.parse hport, rfl, h.username, h.password, h.fragment⟩
    next => exact ⟨u, h.parse, rfl, h.username, h.password, h.fragment⟩
  obtain ⟨v, hparse, hrest⟩ := hread
  refine ⟨v, hparse, ?_, hrest⟩
  rw [laws.scheme _ A v hscheme hparse, hlower]

/-- The full form is read as its URL. -/
theorem extractTarget_fullForm (laws : SchemelessLaws parsers) (h : Schemeless parsers A u)
    (hparse : parsers.urlParse (fullForm A u) = .ok v) :
    extractTarget parsers (pathForm (fullForm A u)) = .ok target ↔
      validate parsers v = .ok target := by
  have hscheme := (schemeOfPort_spec u).1
  -- the scheme and the slashes add nothing to the query and to the escapes
  have hfront : ∀ c : Char, c.toLower ∉ "https".toList → c ∉ "://".toList →
      c ∉ schemeOfPort u ++ "://".toList := by
    intro c hletter hmark
    rw [List.mem_append, not_or]
    exact ⟨hscheme.not_mem hletter, hmark⟩
  have hform : fullForm A u = (schemeOfPort u ++ "://".toList) ++ A := by simp [fullForm]
  have hhash : '#' ∉ fullForm A u := by
    rw [hform, List.mem_append, not_or]
    exact ⟨hfront '#' (by decide) (by decide), h.hash laws⟩
  have hparam : urlParam (pathForm (fullForm A u)) = none := by
    have hquery : ∀ s : Str, (pathForm s).query = (Uri.originForm s).query := by
      intro s
      rw [pathForm, Uri.originForm_cons (by decide) (by decide)]
    have hplain := h.param
    unfold urlParam at hplain ⊢
    rw [hquery] at hplain ⊢
    rwa [hform, query_originForm_append (hfront '?' (by decide) (by decide))
      (hfront '#' (by decide) (by decide))]
  have hescapes : NoEscapes (fullForm A u) := by
    rw [hform, noEscapes_append_iff (hfront '%' (by decide) (by decide))]
    exact h.escapes
  have hcandidate : candidateFromUri (pathForm (fullForm A u)) = .ok (fullForm A u) :=
    candidateFromUri_pathForm_of_scheme hscheme rfl hhash hparam
  have hnormalized : normalizeScheme (fullForm A u) = .ok (fullForm A u) :=
    normalizeScheme_of_isHttpScheme hscheme A
  rw [extractTarget_of_candidate hescapes hcandidate]
  simp only [hnormalized, Except.ok.injEq, exists_and_left, exists_eq_left', hparse]

/-- Which URL is read for the text without a scheme. -/
def ReadAs (parsers : Parsers) (A : Str) (v : Url) : Prop :=
  Str.splitOnce "://" (Str.trimStartMatches A '/') = none ∧
      parsers.urlParse (inferredScheme (Str.trimStartMatches A '/') ++
        ':' :: ("//".toList ++ A)) = .ok v ∨
    NamesHttp (Str.trimStartMatches A '/') ∧
      parsers.urlParse (Str.trimStartMatches A '/') = .ok v

/-- The text without a scheme is read as the URL that the inferred scheme gives, or, where it names
a scheme of its own, as the URL that it is by itself. -/
theorem extractTarget_schemeless (laws : SchemelessLaws parsers) (h : Schemeless parsers A u) :
    extractTarget parsers (pathForm A) = .ok target ↔
      ∃ v, validate parsers v = .ok target ∧ ReadAs parsers A v := by
  obtain ⟨hne, hquestion⟩ := laws.nonempty "http" (Str.trimStartMatches A '/') u (Or.inl rfl)
    ((laws.urlParse_trim (Or.inl rfl) A).trans h.parse)
  have hescapes : NoEscapes (Str.trimStartMatches A '/') := by
    have hplain := h.escapes
    rw [← List.takeWhile_append_dropWhile (p := (· = '/')) (l := A), noEscapes_append_iff] at hplain
    · exact hplain
    · intro hmem
      exact absurd (List.mem_takeWhile_imp hmem) (by decide)
  rw [extractTarget_of_candidate hescapes
    (candidateFromUri_pathForm_of_no_param (h.hash laws) h.param hne hquestion)]
  simp only [normalizeScheme_eq_ok]
  constructor
  · rintro ⟨normalized, v, ⟨hnone, rfl⟩ | ⟨hnames, rfl⟩, hparse, hvalid⟩
    · rw [laws.urlParse_trim (isHttpScheme_inferredScheme _)] at hparse
      exact ⟨v, hvalid, Or.inl ⟨hnone, hparse⟩⟩
    · exact ⟨v, hvalid, Or.inr ⟨hnames, hparse⟩⟩
  · rintro ⟨v, hvalid, ⟨hnone, hparse⟩ | ⟨hnames, hparse⟩⟩
    · rw [← laws.urlParse_trim (isHttpScheme_inferredScheme _)] at hparse
      exact ⟨_, v, Or.inl ⟨hnone, rfl⟩, hparse, hvalid⟩
    · exact ⟨_, v, Or.inr ⟨hnames, rfl⟩, hparse, hvalid⟩

/-- A URL that is read and admitted is the URL of the target. -/
theorem url_eq_of_readAs (laws : SchemelessLaws parsers) (hread : ReadAs parsers A v)
    (hvalid : validate parsers v = .ok target) : target.url = v := by
  have hascii : ∀ host ascii, v.hostStr = some host → parsers.domainToAscii host = .ok ascii →
      ascii = host := by
    rcases hread with ⟨-, hparse⟩ | ⟨⟨scheme, rest, hsplit, hscheme⟩, hparse⟩
    · exact fun host ascii => laws.host _ A v host ascii (isHttpScheme_inferredScheme _) hparse
    · rw [Str.eq_of_splitOnce hsplit, List.append_assoc] at hparse
      exact fun host ascii => laws.host scheme rest v host ascii hscheme hparse
  exact (validate_eq_ok.mp hvalid).url_eq hascii

/-- The URL of the full form is the one that is read exactly if the scheme fits. -/
theorem readAs_iff (laws : SchemelessLaws parsers)
    (hparse : parsers.urlParse (fullForm A u) = .ok v) :
    ReadAs parsers A v ↔ SchemeFits parsers A u := by
  have hinferred : parsers.urlParse (inferredScheme (Str.trimStartMatches A '/') ++
      ':' :: ("//".toList ++ A)) = .ok v ↔
        inferredScheme (Str.trimStartMatches A '/') = schemeOfPort u := by
    constructor
    · intro hother
      obtain ⟨hscheme, hlower⟩ := schemeOfPort_spec u
      rw [← hlower, ← laws.scheme _ A v hscheme hparse,
        laws.scheme _ A v (isHttpScheme_inferredScheme _) hother, toAsciiLowercase_inferredScheme]
    · intro heq
      rw [heq]
      exact hparse
  have hport : inferredScheme (Str.trimStartMatches A '/') = schemeOfPort u ↔
      (":443".toList <:+ (Str.trimStartMatches A '/').takeWhile (· ≠ '/') ↔
        u.port = some 443) := by
    rw [inferredScheme_eq, schemeOfPort]
    split <;> split <;> simp_all
  unfold ReadAs SchemeFits
  rw [hinferred, hport, hparse]

/-- The URL of the full form is admitted exactly if its host is a domain that is not too long. -/
theorem exists_validate_iff (laws : SchemelessLaws parsers) (h : Schemeless parsers A u)
    (hparse : parsers.urlParse (fullForm A u) = .ok v) :
    (∃ target, validate parsers v = .ok target) ↔ HasDomain parsers u := by
  obtain ⟨v', hparse', hscheme, hhost, husername, hpassword, hfragment⟩ := h.urlParse_fullForm laws
  obtain rfl := Except.ok.inj (hparse'.symm.trans hparse)
  have hascii := fun host ascii => laws.host _ A v' host ascii (schemeOfPort_spec u).1 hparse
  constructor
  · rintro ⟨target, hvalid⟩
    have hvalidated := validate_eq_ok.mp hvalid
    obtain ⟨host, hname, -, hdomain, -⟩ := hvalidated.host
    exact ⟨host, target.host, hhost ▸ hname, hdomain, hvalidated.length⟩
  · rintro ⟨host, ascii, hname, hdomain, hlength⟩
    obtain rfl := hascii host ascii (hhost ▸ hname) hdomain
    obtain ⟨host', hname', hne⟩ := h.host
    obtain rfl := Option.some.inj (hname.symm.trans hname')
    have hhttp : v'.IsHttp := by
      rw [Url.IsHttp, hscheme, schemeOfPort]
      split
      · exact Or.inr rfl
      · exact Or.inl rfl
    obtain ⟨port, hport⟩ := hhttp.portOrKnownDefault
    exact ⟨⟨v', ascii, port⟩, validate_eq_ok.mpr
      { scheme := hhttp
        username := husername
        password := hpassword
        fragment := hfragment
        host := ⟨ascii, hhost ▸ hname, hne, hdomain, by rw [if_pos rfl]⟩
        length := hlength
        port := hport }⟩

/-- The request without a scheme is the same as the request with it exactly if the host is a domain
that is not too long, and the scheme fits. -/
theorem sameAsFull_iff (laws : SchemelessLaws parsers) (h : Schemeless parsers A u) :
    SameAsFull parsers A u ↔ HasDomain parsers u ∧ SchemeFits parsers A u := by
  obtain ⟨v, hparse, -⟩ := h.urlParse_fullForm laws
  rw [← exists_validate_iff laws h hparse, ← readAs_iff laws hparse]
  unfold SameAsFull
  constructor
  · rintro ⟨target, hshort, hfull⟩
    rw [extractTarget_fullForm laws h hparse] at hfull
    obtain ⟨w, hvalid, hread⟩ := (extractTarget_schemeless laws h).mp hshort
    -- a target is the URL it comes from, so both forms were read as one URL
    have hw : target.url = w := url_eq_of_readAs laws hread hvalid
    have hv : target.url = v := by
      have hascii := fun host ascii => laws.host _ A v host ascii (schemeOfPort_spec u).1 hparse
      exact (validate_eq_ok.mp hfull).url_eq hascii
    obtain rfl := hw.symm.trans hv
    exact ⟨⟨target, hfull⟩, hread⟩
  · rintro ⟨⟨target, hvalid⟩, hread⟩
    exact ⟨target, (extractTarget_schemeless laws h).mpr ⟨v, hvalid, hread⟩,
      (extractTarget_fullForm laws h hparse).mpr hvalid⟩

end Forms

/-! ## Plain texts without a scheme -/

namespace Served

/-- The port of a scheme, where none is written. -/
def defaultPort (scheme : Str) : Option UInt16 :=
  if scheme = "https" then some 443 else some 80

/-- Read what follows the scheme and two slashes of a plain URL. -/
def readRest (scheme rest : Str) : Except Str Url :=
  let text := Str.trimStartMatches rest '/'
  let (host, port) := Plain.splitPort (text.takeWhile fun c => c ≠ '/' ∧ c ≠ '?')
  let (path, query) := Plain.splitQuery (text.dropWhile fun c => c ≠ '/' ∧ c ≠ '?')
  if '#' ∈ rest then .error "fragment"
  else if host = [] then .error "empty host"
  else .ok { scheme, username := [], password := none, hostStr := some host,
             port := if port = defaultPort scheme then none else port, path, query,
             fragment := none }

/-- Read a plain URL. -/
def urlParse (s : Str) : Except Str Url :=
  match Str.splitOnce "://" s with
  | none => .error "relative URL without a base"
  | some (scheme, rest) => readRest scheme.toAsciiLowercase rest

end Served

/-- The parsers on plain URLs, which fold the scheme to lower case, ignore further slashes behind
it, leave out the default port, and reject fragments and empty hosts. -/
def Parsers.served : Parsers :=
  { Parsers.plain with urlParse := Served.urlParse }

/-- A URL that is served is read from what follows its scheme. -/
theorem urlParse_served {scheme : Str} (h : IsHttpScheme scheme) (rest : Str) :
    Parsers.served.urlParse (scheme ++ ':' :: ("//".toList ++ rest)) =
      Served.readRest scheme.toAsciiLowercase rest := by
  have hsplit : Str.splitOnce "://" (scheme ++ ':' :: ("//".toList ++ rest)) =
      some (scheme, rest) := Str.splitOnce_of_not_mem (h.not_mem (by decide)) rest
  unfold Parsers.served
  dsimp only
  rw [Served.urlParse, hsplit]

/-- What is read has no hash, a host, and the port unless it is the default. -/
theorem readRest_eq_ok {scheme rest : Str} {u : Url} :
    Served.readRest scheme rest = .ok u ↔
      '#' ∉ rest ∧ ∃ host port path query,
        Plain.splitPort ((Str.trimStartMatches rest '/').takeWhile fun c => c ≠ '/' ∧ c ≠ '?') =
          (host, port) ∧ host ≠ [] ∧
        Plain.splitQuery ((Str.trimStartMatches rest '/').dropWhile fun c => c ≠ '/' ∧ c ≠ '?') =
          (path, query) ∧
        u = { scheme, username := [], password := none, hostStr := some host,
              port := if port = Served.defaultPort scheme then none else port, path, query,
              fragment := none } := by
  unfold Served.readRest
  dsimp only
  by_cases hhash : '#' ∈ rest
  · simp [hhash]
  · rw [if_neg hhash, and_iff_right hhash]
    constructor
    · intro h
      split at h
      next => cases h
      next hhost => exact ⟨_, _, _, _, rfl, hhost, rfl, (Except.ok.inj h).symm⟩
    · rintro ⟨host, port, path, query, hport, hhost, hquery, rfl⟩
      rw [hport, hquery, if_neg hhost]

/-- These parsers read the texts behind a scheme as they should. -/
theorem schemelessLaws_served : SchemelessLaws .served where
  scheme := by
    intro scheme rest u hscheme hparse
    rw [urlParse_served hscheme, readRest_eq_ok] at hparse
    obtain ⟨-, host, port, path, query, -, -, -, rfl⟩ := hparse
    rfl
  slash := by
    intro scheme rest hscheme
    have htrim : Str.trimStartMatches ('/' :: rest) '/' = Str.trimStartMatches rest '/' :=
      List.dropWhile_cons_of_pos (by decide)
    rw [urlParse_served hscheme, urlParse_served hscheme, Served.readRest, Served.readRest, htrim]
    simp only [List.mem_cons, show ¬ '#' = '/' by decide, false_or]
  nonempty := by
    intro scheme rest u hscheme hparse
    rw [urlParse_served hscheme, readRest_eq_ok] at hparse
    obtain ⟨-, host, port, path, query, hsplit, hhost, -⟩ := hparse
    -- an authority that is read has a host
    have hsome : (Str.trimStartMatches rest '/').takeWhile (fun c => c ≠ '/' ∧ c ≠ '?') ≠ [] := by
      intro hempty
      rw [hempty] at hsplit
      exact hhost (Prod.mk.inj hsplit).1.symm
    constructor
    · rintro rfl
      exact hsome rfl
    · intro hhead
      obtain ⟨query', rfl⟩ := List.head?_eq_some_iff.mp hhead
      refine hsome ?_
      rw [Str.trimStartMatches, List.dropWhile_cons_of_neg (by decide)]
      exact List.takeWhile_cons_of_neg (by decide)
  fragment := by
    intro scheme rest u hscheme hhash hparse
    rw [urlParse_served hscheme, readRest_eq_ok] at hparse
    exact absurd hhash hparse.1
  default := by
    intro rest u hparse hport
    rw [urlParse_served (Or.inl rfl), readRest_eq_ok] at hparse
    rw [urlParse_served (Or.inr rfl), readRest_eq_ok]
    obtain ⟨hhash, host, port, path, query, hsplit, hhost, hquery, rfl⟩ := hparse
    have h443 : port = some 443 := by
      dsimp only at hport
      split at hport
      next => cases hport
      next => exact hport
    subst h443
    exact ⟨hhash, host, some 443, path, query, hsplit, hhost, hquery, rfl⟩
  host := by
    intro scheme rest u host ascii _ _ _ hdomain
    exact (Except.ok.inj hdomain).symm

/-- The URL of this host, path and query. -/
def apiUrl (path : Str) (query : Option Str) : Url where
  scheme := "http"
  username := []
  password := none
  hostStr := some "api.test"
  port := none
  path := path
  query := query
  fragment := none

/-- `sameAsFull_iff` for a path and a query. -/
theorem sameAsFull_iff_search :
    SameAsFull .served "api.test/search?q=1" (apiUrl "/search" (some "q=1")) ↔
      HasDomain .served (apiUrl "/search" (some "q=1")) ∧
        SchemeFits .served "api.test/search?q=1" (apiUrl "/search" (some "q=1")) :=
  sameAsFull_iff schemelessLaws_served
    ⟨by decide, by decide, by decide +kernel, by decide +kernel, by decide +kernel,
      ⟨"api.test", rfl, by decide⟩, rfl, rfl, rfl⟩

/-- A URL in the query makes a target without scheme unsupported, and a query that ends in `:443`
gives it another scheme. -/
theorem query_decides_scheme :
    SchemelessLaws .served ∧
    (Schemeless .served "api.test/login?next=https://b.test/"
        (apiUrl "/login" (some "next=https://b.test/")) ∧
      extractTarget .served (pathForm "api.test/login?next=https://b.test/") =
        .error (.invalidUrl ("unsupported scheme `api.test/login?next=https`".toList)) ∧
      ¬ SameAsFull .served "api.test/login?next=https://b.test/"
        (apiUrl "/login" (some "next=https://b.test/"))) ∧
    Schemeless .served "api.test?at=noon:443" (apiUrl "/" (some "at=noon:443")) ∧
      (extractTarget .served (pathForm "api.test?at=noon:443")).toOption.map (·.url.scheme) =
        some "https".toList ∧
      ¬ SameAsFull .served "api.test?at=noon:443" (apiUrl "/" (some "at=noon:443")) := by
  have hlogin : extractTarget .served (pathForm "api.test/login?next=https://b.test/") =
      .error (.invalidUrl ("unsupported scheme `api.test/login?next=https`".toList)) := by
    decide +kernel
  have hnoon : (extractTarget .served (pathForm "api.test?at=noon:443")).toOption.map
      (·.url.scheme) = some "https".toList := by decide +kernel
  have hfull : (extractTarget .served (pathForm (fullForm "api.test?at=noon:443"
      (apiUrl "/" (some "at=noon:443"))))).toOption.map (·.url.scheme) =
        some "http".toList := by decide +kernel
  refine ⟨schemelessLaws_served, ⟨⟨by decide, by decide, by decide +kernel, by decide +kernel,
    by decide +kernel, ⟨"api.test", rfl, by decide⟩, rfl, rfl, rfl⟩, hlogin, ?_⟩,
    ⟨by decide, by decide, by decide +kernel, by decide +kernel, by decide +kernel,
      ⟨"api.test", rfl, by decide⟩, rfl, rfl, rfl⟩, hnoon, ?_⟩
  · rintro ⟨target, hshort, -⟩
    cases hlogin.symm.trans hshort
  · rintro ⟨target, hshort, hlong⟩
    rw [hshort] at hnoon
    rw [hlong] at hfull
    exact absurd (hnoon.symm.trans hfull) (by decide)

end Corx
