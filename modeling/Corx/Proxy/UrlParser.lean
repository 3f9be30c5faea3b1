import Corx.Error
import Corx.Http

/-!
# Target URL extraction

The target of a request stands in its path (`/<target-url>`) or in its `url` query parameter.
`extractTarget` decodes it, supplies a scheme where there is none, parses it and validates the
result; `TargetUrl.toUri` projects it onto the URI of the outbound request.

The grammar of URLs and URIs belongs to third-party crates (`url`, `idna`, `http`). Their
functions are the fields of `Parsers`; nothing here depends on what they do. `Parsers.plain`
reads plain absolute URLs, without credentials or percent-escapes, as those crates do.
-/

namespace Corx

/-- A parsed URL, by the components that its accessors return. -/
structure Url where
  scheme : Str
  username : Str
  password : Option Str
  hostStr : Option Str
  port : Option UInt16
  path : Str
  query : Option Str
  fragment : Option Str
  deriving DecidableEq, Repr

/-- The parsing functions of the `url`, `idna` and `http` crates. Errors are their messages. -/
structure Parsers where
  /-- `url::Url::parse`. -/
  urlParse : Str → Except Str Url
  /-- `url::Url::join`. -/
  urlJoin : Url → Str → Except Str Url
  /-- `url::Url::set_host`. -/
  urlSetHost : Url → Str → Except Str Url
  /-- `url::Url::as_str`. -/
  urlAsStr : Url → Str
  /-- `idna::domain_to_ascii_cow` with the URL deny list. -/
  domainToAscii : Str → Except Str Str
  /-- `str::parse::<http::Uri>`. -/
  uriParse : Str → Except Str Uri
  /-- `http::Uri::to_string`. -/
  uriToString : Uri → Str
  /-- `http::uri::PathAndQuery::try_from`. -/
  pathAndQuery : Str → Except Str (Str × Option Str)
  /-- `http::uri::Builder::build` from a scheme, an authority, and a path and query. -/
  uriBuild : Str → Str → Str × Option Str → Except Str Uri

/-- `Url::port_or_known_default`. -/
def Url.portOrKnownDefault (url : Url) : Option UInt16 :=
  match url.port with
  | some port => some port
  | none =>
    if url.scheme = "http" ∨ url.scheme = "ws" then some 80
    else if url.scheme = "https" ∨ url.scheme = "wss" then some 443
    else if url.scheme = "ftp" then some 21
    else none

/-- A validated target URL: the URL, its host in ASCII form and its effective port. -/
structure TargetUrl where
  url : Url
  host : Str
  port : UInt16
  deriving DecidableEq, Repr

namespace TargetUrl

/-- The authority of the target: its host, and its port where it is explicit. -/
def authority (target : TargetUrl) : Str :=
  match target.url.port with
  | some port => target.host ++ [':'] ++ Str.ofNat port.toNat
  | none => target.host

/-- Rebuild a URI for the outbound request. -/
def toUri (parsers : Parsers) (target : TargetUrl) : Except ProxyError Uri := do
  let pathAndQuery :=
    match target.url.query with
    -- an empty query is not sent
    | some q => if !q.isEmpty then target.url.path ++ ['?'] ++ q else target.url.path
    | none => target.url.path
  let pq ← match parsers.pathAndQuery pathAndQuery with
    | .ok pq => .ok pq
    | .error err => .error (.invalidUrl ("invalid path/query: ".toList ++ err))
  match parsers.uriBuild target.url.scheme target.authority pq with
  | .ok uri => .ok uri
  | .error err => .error (.invalidUrl ("uri build failed: ".toList ++ err))

end TargetUrl

/-- The value of the first parameter `key` of a query. -/
def findQueryValue (query key : Str) : Option Str :=
  (Str.split query '&').findSome? fun pair =>
    match Str.splitOnce ['='] pair with
    | some (k, v) => if k = key then some v else none
    | none => none

/-- The text that encodes the target: the `url` parameter, or else the path with its query. -/
def candidateFromUri (uri : Uri) : Except ProxyError Str :=
  match uri.query.bind fun query => findQueryValue query "url" with
  | some value => .ok value
  -- without the parameter the query belongs to the target
  | none =>
    let trimmed := Str.trimStartMatches uri.path '/'
    if trimmed.isEmpty then .error (.invalidUrl "no target url supplied")
    else match uri.query with
      | some q => .ok (trimmed ++ ['?'] ++ q)
      | none => .ok trimmed

/-- Accept a scheme that is present if it is HTTP, and supply one that is not: `https` for
port 443, else `http`. -/
def normalizeScheme (raw : Str) : Except ProxyError Str :=
  match Str.splitOnce "://" raw with
  | some (schemePart, _) =>
    let scheme := schemePart.toAsciiLowercase
    if scheme ≠ "http" ∧ scheme ≠ "https" then
      .error (.invalidUrl ("unsupported scheme `".toList ++ scheme ++ "`".toList))
    else .ok raw
  -- no scheme: the port decides, and only port 443 means TLS
  | none =>
    let hostPart := ((Str.split raw '/').head?).getD raw
    let scheme : Str :=
      match Str.rsplitOnce hostPart ':' with
      | some (_, port) => if port = "443" then "https" else "http"
      | none => "http"
    .ok (scheme ++ "://".toList ++ raw)

/-- The largest length, in bytes, of a host in ASCII form. -/
def MAX_HOST_LEN : ℕ := 253

/-- Validate a parsed URL: HTTP, no credentials, no fragment, a host of bounded length. -/
def validate (parsers : Parsers) (parsed : Url) : Except ProxyError TargetUrl := do
  if parsed.scheme ≠ "http" ∧ parsed.scheme ≠ "https" then
    throw (.invalidUrl ("unsupported scheme `".toList ++ parsed.scheme ++ "`".toList))
  if !parsed.username.isEmpty || parsed.password.isSome then
    throw (.invalidUrl "embedded credentials (`user:pass@`) are not permitted")
  if parsed.fragment.isSome then
    throw (.invalidUrl "fragment identifiers are not permitted in proxy targets")
  let host ← match parsed.hostStr with
    | some host => .ok host
    | none => .error (.invalidUrl "missing hostname")
  if host.isEmpty then
    throw (.invalidUrl "empty hostname")
  let asciiHost ← match parsers.domainToAscii host with
    | .ok asciiHost => .ok asciiHost
    | .error err => .error (.invalidUrl ("invalid IDN host: ".toList ++ err))
  if MAX_HOST_LEN < (Str.asBytes asciiHost).length then
    throw (.invalidUrl ("hostname exceeds ".toList ++ Str.ofNat MAX_HOST_LEN ++
      " bytes after punycode encoding".toList))
  -- the URL goes on with the host in ASCII form
  let parsed ←
    if asciiHost ≠ host then
      match parsers.urlSetHost parsed asciiHost with
      | .ok url => .ok url
      | .error err => .error (.invalidUrl ("cannot set host: ".toList ++ err))
    else .ok parsed
  let port ← match parsed.portOrKnownDefault with
    | some port => .ok port
    | none => .error (.invalidUrl "unable to determine port for scheme")
  return { url := parsed, host := asciiHost, port }

/-- Extract the target URL from the request path or the `url` query parameter. -/
def extractTarget (parsers : Parsers) (uri : Uri) : Except ProxyError TargetUrl := do
  let candidate ← candidateFromUri uri
  -- all of the candidate is decoded, its path and query included
  let decoded ← match Str.fromUtf8 (Str.percentDecode (Str.asBytes candidate)) with
    | some decoded => .ok decoded
    | none => .error (.invalidUrl "target contains invalid utf-8")
  let normalized ← normalizeScheme decoded
  let parsed ← match parsers.urlParse normalized with
    | .ok parsed => .ok parsed
    | .error err => .error (.invalidUrl ("url parse failed: ".toList ++ err))
  validate parsers parsed

/-! ## Plain URLs -/

namespace Plain

/-- Split a host and port at the last colon outside brackets. -/
def splitPort (hostPort : Str) : Str × Option UInt16 :=
  if hostPort.getLast? = some ']' then (hostPort, none)
  else match Str.rsplitOnce hostPort ':' with
    | some (host, port) =>
      match IpAddr.readNumber 10 5 65536 false port with
      | some (n, []) => (host, some (UInt16.ofNat n))
      | _ => (hostPort, none)
    | none => (hostPort, none)

/-- Split a path at its first question mark. -/
def splitQuery (s : Str) : Str × Option Str :=
  match Str.splitOnce ['?'] s with
  | some (path, query) => (if path.isEmpty then ['/'] else path, some query)
  | none => (if s.isEmpty then ['/'] else s, none)

/-- Read an absolute `http` or `https` URL without credentials and fragment. -/
def urlParse (s : Str) : Except Str Url :=
  match Str.splitOnce "://" s with
  | none => .error "relative URL without a base"
  | some (scheme, rest) =>
    let (host, port) := splitPort (rest.takeWhile fun c => c ≠ '/' ∧ c ≠ '?')
    let (path, query) := splitQuery (rest.dropWhile fun c => c ≠ '/' ∧ c ≠ '?')
    .ok { scheme, username := [], password := none, hostStr := some host, port, path, query,
          fragment := none }

/-- Write a URL. -/
def urlAsStr (url : Url) : Str :=
  let port := match url.port with
    | some port => ':' :: Str.ofNat port.toNat
    | none => []
  let query := match url.query with
    | some query => '?' :: query
    | none => []
  url.scheme ++ "://".toList ++ url.hostStr.getD [] ++ port ++ url.path ++ query

/-- Read an absolute URI, or a path with a query. -/
def uriParse (s : Str) : Except Str Uri :=
  match Str.splitOnce "://" s with
  | none =>
    let (path, query) := splitQuery s
    .ok { scheme := none, authority := none, path, query }
  | some (scheme, rest) =>
    let (path, query) := splitQuery (rest.dropWhile fun c => c ≠ '/' ∧ c ≠ '?')
    .ok { scheme := some scheme, authority := some (rest.takeWhile fun c => c ≠ '/' ∧ c ≠ '?'),
          path, query }

/-- Write a URI. -/
def uriToString (uri : Uri) : Str :=
  let scheme := match uri.scheme with
    | some scheme => scheme ++ "://".toList
    | none => []
  let query := match uri.query with
    | some query => '?' :: query
    | none => []
  scheme ++ uri.authority.getD [] ++ uri.path ++ query

end Plain

/-- The parsers on plain URLs: absolute, without credentials, fragments, percent-escapes or
dot segments, in ASCII. -/
def Parsers.plain : Parsers where
  urlParse := Plain.urlParse
  urlJoin url location := .ok { url with path := location, query := none }
  urlSetHost url host := .ok { url with hostStr := some host }
  urlAsStr := Plain.urlAsStr
  domainToAscii host := .ok host
  uriParse := Plain.uriParse
  uriToString := Plain.uriToString
  pathAndQuery s := .ok (Plain.splitQuery s)
  uriBuild scheme authority pq :=
    .ok { scheme := some scheme, authority := some authority, path := pq.1, query := pq.2 }

example :
    (extractTarget Parsers.plain
        { scheme := none
          authority := none
          path := "/api.example.com:443/v1"
          query := none }).toOption.map (·.url.scheme) = some ("https" : Str) := by
  decide +kernel

end Corx
