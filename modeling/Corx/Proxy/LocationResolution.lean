import Corx.Proxy.AddressForms
import Corx.Proxy.Redirect

/-!
# Resolving a `Location`

`resolveLocation` has two ways: a `Location` with `://` somewhere in it is parsed as it stands, any
other is joined with the base. `resolvesTo_iff` says when the outcome is the URL that joining
yields. Where the text stands by itself but names no scheme, as a path with a URL in its query, it
is not.

What the parsing functions of the `url` and `http` crates do together is the structure
`LocationLaws`.
-/

namespace Corx

/-- A URL without its fragment. -/
def Url.withoutFragment (url : Url) : Url :=
  { url with fragment := none }

/-- The text is a URI. -/
def Parsers.IsUri (parsers : Parsers) (text : Str) : Prop :=
  ∃ uri, parsers.uriParse text = .ok uri

/-- How the parsing functions of the `url` and `http` crates fit together on HTTP URLs. -/
structure LocationLaws (parsers : Parsers) : Prop where
  /-- A URL is written as a text that is read as this URL. -/
  parse_asStr : ∀ base location u, parsers.urlJoin base location = .ok u → u.IsHttp →
    parsers.urlParse (parsers.urlAsStr u) = .ok u
  /-- A text that is a URI and a URL is written, as a URI, as the same URL without fragment. -/
  parse_toString : ∀ text uri u, parsers.uriParse text = .ok uri →
    parsers.urlParse text = .ok u → u.IsHttp →
    parsers.urlParse (parsers.uriToString uri) = .ok u.withoutFragment
  /-- A text with a scheme and two slashes in front does not depend on the base. -/
  join_absolute : ∀ base text, NamesHttp text →
    parsers.urlJoin base text = parsers.urlParse text
  /-- A URI that is written as a URL has its scheme from the text that it was read from. -/
  names_of_toString : ∀ text uri u, Str.contains text "://" = true →
    parsers.uriParse text = .ok uri → parsers.urlParse (parsers.uriToString uri) = .ok u →
    u.IsHttp → NamesHttp text

/-- Resolving a `Location` succeeds, and the URI is the URL, without its fragment and up to the
normalisation of URLs. -/
def ResolvesTo (parsers : Parsers) (base : Uri) (location : Str) (u : Url) : Prop :=
  ∃ uri, resolveLocation parsers base location = .ok uri ∧
    parsers.urlParse (parsers.uriToString uri) = .ok u.withoutFragment

variable {parsers : Parsers} {base uri : Uri} {location : Str} {baseUrl u : Url}

/-- A `Location` with `://` in it is parsed as it stands. -/
theorem resolveLocation_of_contains (h : Str.contains location "://" = true) :
    resolveLocation parsers base location = .ok uri ↔ parsers.uriParse location = .ok uri := by
  unfold resolveLocation
  rw [if_pos h]
  cases parsers.uriParse location <;> simp

/-- Any other `Location` is joined with the base. -/
theorem resolveLocation_of_not_contains (h : ¬ Str.contains location "://" = true)
    (hbase : parsers.urlParse (parsers.uriToString base) = .ok baseUrl)
    (hjoin : parsers.urlJoin baseUrl location = .ok u) :
    resolveLocation parsers base location = .ok uri ↔
      parsers.uriParse (parsers.urlAsStr u) = .ok uri := by
  unfold resolveLocation
  rw [if_neg h, hbase]
  dsimp only
  rw [hjoin]
  dsimp only
  cases parsers.uriParse (parsers.urlAsStr u) <;> simp

/-- Where joining yields an HTTP URL, the outcome is this URL exactly if the `Location` has `://` in
it, names an HTTP scheme there and is a URI, or it has not and the URL can be written as a URI. -/
theorem resolvesTo_iff (laws : LocationLaws parsers)
    (hbase : parsers.urlParse (parsers.uriToString base) = .ok baseUrl)
    (hjoin : parsers.urlJoin baseUrl location = .ok u) (hhttp : u.IsHttp) :
    ResolvesTo parsers base location u ↔
      if Str.contains location "://" then NamesHttp location ∧ parsers.IsUri location
      else parsers.IsUri (parsers.urlAsStr u) := by
  unfold ResolvesTo Parsers.IsUri
  split
  next hcontains =>
    simp only [resolveLocation_of_contains hcontains]
    constructor
    · rintro ⟨uri, hparse, hwritten⟩
      exact ⟨laws.names_of_toString location uri _ hcontains hparse hwritten hhttp, uri, hparse⟩
    · rintro ⟨hnames, uri, hparse⟩
      rw [laws.join_absolute baseUrl location hnames] at hjoin
      exact ⟨uri, hparse, laws.parse_toString location uri u hparse hjoin hhttp⟩
  next hcontains =>
    simp only [resolveLocation_of_not_contains hcontains hbase hjoin]
    refine exists_congr fun uri => and_iff_left_of_imp fun hparse => ?_
    exact laws.parse_toString _ uri u hparse (laws.parse_asStr baseUrl location u hjoin hhttp) hhttp

/-! ## Texts in normal form -/

namespace Canonical

/-- Read a URL in normal form. -/
def urlParse (s : Str) : Except Str Url :=
  match Plain.urlParse s with
  | .error err => .error err
  | .ok u =>
    if (u.scheme = "http" ∨ u.scheme = "https") ∧ Plain.urlAsStr u = s then .ok u
    else .error "not in normal form"

/-- Read an absolute URI in normal form, or a path with a query. -/
def uriParse (s : Str) : Except Str Uri :=
  let parsed :=
    if s.head? = some '/' then
      .ok { scheme := none, authority := none, path := (Plain.splitQuery s).1,
            query := (Plain.splitQuery s).2 }
    else Plain.uriParse s
  match parsed with
  | .error err => .error err
  | .ok uri => if Plain.uriToString uri = s then .ok uri else .error "not in normal form"

/-- Join a base with an absolute URL, or with a path and its query. -/
def urlJoin (base : Url) (s : Str) : Except Str Url :=
  if s.head? = some '/' then
    urlParse (Plain.urlAsStr
      { base with path := (Plain.splitQuery s).1, query := (Plain.splitQuery s).2 })
  else urlParse s

end Canonical

/-- The parsers on texts in normal form, with references that are absolute or paths. -/
def Parsers.canonical : Parsers :=
  { Parsers.plain with
    urlParse := Canonical.urlParse
    urlJoin := Canonical.urlJoin
    uriParse := Canonical.uriParse }

/-- A URL that is read is one of the schemes that are followed, has no fragment, and is written as
the text that was read. -/
theorem canonical_of_urlParse {s : Str} (h : Canonical.urlParse s = .ok u) :
    Plain.urlParse s = .ok u ∧ u.IsHttp ∧ Plain.urlAsStr u = s := by
  unfold Canonical.urlParse at h
  split at h
  next => cases h
  next hparse =>
    split at h
    next hnormal =>
      obtain rfl := Except.ok.inj h
      exact ⟨hparse, hnormal.1, hnormal.2⟩
    next => cases h

/-- A URI that is read is written as the text that was read. -/
theorem toString_of_uriParse {s : Str} (h : Canonical.uriParse s = .ok uri) :
    Plain.uriToString uri = s := by
  unfold Canonical.uriParse at h
  dsimp only at h
  split at h
  next => cases h
  next =>
    split at h
    next hnormal => exact Except.ok.inj h ▸ hnormal
    next => cases h

/-- The scheme of a plain URL is what stands in front of `://`. -/
theorem splitOnce_of_plain_urlParse {s : Str} (h : Plain.urlParse s = .ok u) :
    u.fragment = none ∧ ∃ rest, Str.splitOnce "://" s = some (u.scheme, rest) := by
  unfold Plain.urlParse at h
  split at h
  next => cases h
  next scheme rest hsplit =>
    obtain rfl := Except.ok.inj h
    exact ⟨rfl, rest, hsplit⟩

/-- The parsers on texts in normal form fit together. -/
theorem locationLaws_canonical : LocationLaws .canonical where
  parse_asStr base location u hjoin _ := by
    have hread : ∀ text, Canonical.urlParse text = .ok u →
        Canonical.urlParse (Plain.urlAsStr u) = .ok u := by
      intro text h
      rwa [(canonical_of_urlParse h).2.2]
    replace hjoin : Canonical.urlJoin base location = .ok u := hjoin
    unfold Canonical.urlJoin at hjoin
    split at hjoin
    next => exact hread _ hjoin
    next => exact hread _ hjoin
  parse_toString text uri u huri hurl _ := by
    have hfragment := (splitOnce_of_plain_urlParse (canonical_of_urlParse hurl).1).1
    have hsame : u.withoutFragment = u := by rw [Url.withoutFragment, ← hfragment]
    rw [hsame]
    exact (congrArg Canonical.urlParse (toString_of_uriParse huri)).trans hurl
  join_absolute base text hnames := if_neg hnames.head_ne
  names_of_toString text uri u _ huri hurl _ := by
    have hread : Canonical.urlParse text = .ok u :=
      (congrArg Canonical.urlParse (toString_of_uriParse huri)).symm.trans hurl
    obtain ⟨hparse, hhttp, -⟩ := canonical_of_urlParse hread
    obtain ⟨-, rest, hsplit⟩ := splitOnce_of_plain_urlParse hparse
    refine ⟨u.scheme, rest, hsplit, ?_⟩
    rcases hhttp with h | h
    · exact Or.inl (by rw [h]; rfl)
    · exact Or.inr (by rw [h]; rfl)

/-! ## A login redirect -/

/-- The URI that was fetched. -/
def startUri : Uri where
  scheme := some "https"
  authority := some "a.test"
  path := "/start"
  query := none

/-- The URL of that URI. -/
def startUrl : Url where
  scheme := "https"
  username := []
  password := none
  hostStr := some "a.test"
  port := none
  path := "/start"
  query := none
  fragment := none

/-- The login page of that site, which leads to a page of this address. -/
def loginUrl (next : Str) : Url :=
  { startUrl with path := "/login", query := some ("next=".toList ++ next) }

/-- `resolvesTo_iff` for a path. -/
theorem resolvesTo_iff_path :
    ResolvesTo .canonical startUri "/login?next=home" (loginUrl "home") ↔
      if Str.contains "/login?next=home" "://" then
        NamesHttp "/login?next=home" ∧ Parsers.canonical.IsUri "/login?next=home"
      else Parsers.canonical.IsUri (Parsers.canonical.urlAsStr (loginUrl "home")) := by
  have hbase : Parsers.canonical.urlParse (Parsers.canonical.uriToString startUri) =
      .ok startUrl := by decide +kernel
  exact resolvesTo_iff locationLaws_canonical hbase (by decide +kernel) (Or.inr rfl)

/-- A path with a URL in its query is joined with the base to a URL of the same site, but resolving
it yields a URI without scheme and host. -/
theorem login_redirect_not_resolved :
    LocationLaws .canonical ∧
    Parsers.canonical.urlParse (Parsers.canonical.uriToString startUri) = .ok startUrl ∧
    Parsers.canonical.urlJoin startUrl "/login?next=https://b.test/" =
      .ok (loginUrl "https://b.test/") ∧ (loginUrl "https://b.test/").IsHttp ∧
    resolveLocation .canonical startUri "/login?next=https://b.test/" =
      .ok { scheme := none, authority := none, path := "/login",
            query := some "next=https://b.test/" } ∧
    ¬ ResolvesTo .canonical startUri "/login?next=https://b.test/"
      (loginUrl "https://b.test/") := by
  have hresolved : resolveLocation .canonical startUri "/login?next=https://b.test/" =
      .ok { scheme := none, authority := none, path := "/login",
            query := some "next=https://b.test/" } := by decide +kernel
  refine ⟨locationLaws_canonical, by decide +kernel, by decide +kernel, Or.inr rfl, hresolved, ?_⟩
  rintro ⟨uri, huri, hread⟩
  obtain rfl := Except.ok.inj (hresolved.symm.trans huri)
  exact absurd hread (by decide +kernel)

end Corx
