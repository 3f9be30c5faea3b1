import Corx.Base.MultiMap
import Corx.Base.PercentCoding

/-!
# HTTP messages

The vocabulary of the `http` crate that the proxy's code speaks: methods, status codes, header
names and values, header maps, URIs, requests and responses. Names and values carry their
well-formedness, so an invalid one cannot be built: a `HeaderName` is a lower-cased token, a
`HeaderValue` a sequence of bytes without control characters.

A `Uri` is given by its parts. Parsing URIs is left to the parameters of the code that parses
them. Request bodies are the bytes they yield; response bodies are left out.
-/

namespace Corx

/-! ## Methods and status codes -/

/-- A request method; extension methods are case-sensitive tokens other than the standard ones. -/
inductive Method
  | options
  | get
  | post
  | put
  | delete
  | head
  | trace
  | connect
  | patch
  | extension (name : Str)
  deriving DecidableEq, Repr

/-- The characters of a token, RFC 7230 `tchar`. -/
def isTokenChar (c : Char) : Bool :=
  c.isAlphanum || "!#$%&'*+-.^_`|~".toList.contains c

namespace Method

/-- `Method::as_str`. -/
def asStr : Method → Str
  | options => "OPTIONS"
  | get => "GET"
  | post => "POST"
  | put => "PUT"
  | delete => "DELETE"
  | head => "HEAD"
  | trace => "TRACE"
  | connect => "CONNECT"
  | patch => "PATCH"
  | extension name => name

/-- The methods with a constant of their own. -/
def standard : List Method :=
  [options, get, post, put, delete, head, trace, connect, patch]

/-- `Method::from_bytes`: a standard method, or any other token. -/
def parse (s : Str) : Option Method :=
  match standard.find? fun m => m.asStr = s with
  | some m => some m
  | none => if !s.isEmpty && s.all isTokenChar then some (extension s) else none

end Method

/-- A status code, between 100 and 999. -/
structure StatusCode where
  code : ℕ
  valid : 100 ≤ code ∧ code ≤ 999
  deriving DecidableEq

namespace StatusCode

/-- `200 OK`. -/
def ok : StatusCode := ⟨200, by decide⟩

/-- `301 Moved Permanently`. -/
def movedPermanently : StatusCode := ⟨301, by decide⟩

/-- `302 Found`. -/
def found : StatusCode := ⟨302, by decide⟩

/-- `303 See Other`. -/
def seeOther : StatusCode := ⟨303, by decide⟩

/-- `307 Temporary Redirect`. -/
def temporaryRedirect : StatusCode := ⟨307, by decide⟩

/-- `308 Permanent Redirect`. -/
def permanentRedirect : StatusCode := ⟨308, by decide⟩

/-- `400 Bad Request`. -/
def badRequest : StatusCode := ⟨400, by decide⟩

/-- `401 Unauthorized`. -/
def unauthorized : StatusCode := ⟨401, by decide⟩

/-- `403 Forbidden`. -/
def forbidden : StatusCode := ⟨403, by decide⟩

/-- `413 Payload Too Large`. -/
def payloadTooLarge : StatusCode := ⟨413, by decide⟩

/-- `429 Too Many Requests`. -/
def tooManyRequests : StatusCode := ⟨429, by decide⟩

/-- `500 Internal Server Error`. -/
def internalServerError : StatusCode := ⟨500, by decide⟩

/-- `502 Bad Gateway`. -/
def badGateway : StatusCode := ⟨502, by decide⟩

/-- `503 Service Unavailable`. -/
def serviceUnavailable : StatusCode := ⟨503, by decide⟩

/-- `508 Loop Detected`. -/
def loopDetected : StatusCode := ⟨508, by decide⟩

/-- `StatusCode::is_server_error`: within 500 to 599. -/
def isServerError (s : StatusCode) : Bool :=
  500 ≤ s.code && s.code ≤ 599

end StatusCode

/-! ## Headers -/

/-- A header name: a non-empty token in lower case, of at most 65535 characters. -/
structure HeaderName where
  text : Str
  valid : (!text.isEmpty && text.length ≤ 65535 &&
    text.all fun c => isTokenChar c && !c.isUpper) = true
  deriving DecidableEq

namespace HeaderName

/-- `str::parse::<HeaderName>`: upper-case letters are folded. -/
def parse (s : Str) : Option HeaderName :=
  let text := s.toAsciiLowercase
  if valid : (!text.isEmpty && text.length ≤ 65535 &&
      text.all fun c => isTokenChar c && !c.isUpper) = true then some ⟨text, valid⟩
  else none

/-- `authorization`. -/
def authorization : HeaderName := ⟨"authorization", by decide⟩

/-- `connection`. -/
def connection : HeaderName := ⟨"connection", by decide⟩

/-- `content-length`. -/
def contentLength : HeaderName := ⟨"content-length", by decide⟩

/-- `content-type`. -/
def contentType : HeaderName := ⟨"content-type", by decide⟩

/-- `host`. -/
def host : HeaderName := ⟨"host", by decide⟩

/-- `location`. -/
def location : HeaderName := ⟨"location", by decide⟩

/-- `origin`. -/
def origin : HeaderName := ⟨"origin", by decide⟩

/-- `proxy-authorization`. -/
def proxyAuthorization : HeaderName := ⟨"proxy-authorization", by decide⟩

/-- `user-agent`. -/
def userAgent : HeaderName := ⟨"user-agent", by decide⟩

/-- `vary`. -/
def vary : HeaderName := ⟨"vary", by decide⟩

/-- `via`. -/
def via : HeaderName := ⟨"via", by decide⟩

end HeaderName

/-- The bytes that a header value may hold: anything but control characters, and tab. -/
def isHeaderByte (b : UInt8) : Bool :=
  (32 ≤ b && b ≠ 127) || b = 9

/-- The characters that text in a header value may hold: visible ASCII, blank and tab. -/
def IsHeaderChar (c : Char) : Prop :=
  (32 ≤ c.toNat ∧ c.toNat < 127) ∨ c.toNat = 9

instance : DecidablePred IsHeaderChar := fun _ => inferInstanceAs (Decidable (_ ∨ _))

/-- Digits are header characters. -/
theorem isHeaderChar_digitChar (n : ℕ) : IsHeaderChar n.digitChar := by
  by_cases h : 16 ≤ n
  · rw [Nat.digitChar_eq_star.mpr h]
    decide
  · have hdigits : ∀ m < 16, IsHeaderChar (Nat.digitChar m) := by decide
    exact hdigits n (Nat.lt_of_not_le h)

/-- A number is printed in header characters. -/
theorem isHeaderChar_of_mem_toDigits {b n : ℕ} {c : Char} (hb : 1 < b)
    (hc : c ∈ Nat.toDigits b n) : IsHeaderChar c := by
  induction n using Nat.strong_induction_on with
  | _ n ih =>
    rw [Nat.toDigits_eq_if hb] at hc
    split at hc
    next =>
      obtain rfl := List.mem_singleton.mp hc
      exact isHeaderChar_digitChar n
    next hle =>
      rcases List.mem_append.mp hc with hc | hc
      · exact ih _ (Nat.div_lt_self (by omega) hb) hc
      · obtain rfl := List.mem_singleton.mp hc
        exact isHeaderChar_digitChar _

/-- A header value. -/
structure HeaderValue where
  bytes : List UInt8
  valid : bytes.all isHeaderByte = true
  deriving DecidableEq

namespace HeaderValue

/-- `HeaderValue::from_bytes`. -/
def fromBytes (bytes : List UInt8) : Option HeaderValue :=
  if valid : bytes.all isHeaderByte = true then some ⟨bytes, valid⟩ else none

/-- `HeaderValue::from_str`. -/
def fromStr (s : Str) : Option HeaderValue :=
  fromBytes (Str.asBytes s)

/-- `HeaderValue::to_str`: the value as text, if all of it is visible ASCII, blank or tab. -/
def toStr (v : HeaderValue) : Option Str :=
  if v.bytes.all fun b => (32 ≤ b && b < 127) || b = 9 then
    some (v.bytes.map fun b => Char.ofNat b.toNat)
  else none

/-- The text of a value consists of header characters. -/
theorem isHeaderChar_of_toStr {v : HeaderValue} {s : Str} (h : v.toStr = some s) :
    ∀ c ∈ s, IsHeaderChar c := by
  unfold toStr at h
  split at h
  next hall =>
    obtain rfl := Option.some.inj h
    intro c hc
    obtain ⟨b, hb, rfl⟩ := List.mem_map.mp hc
    have hbyte := List.all_eq_true.mp hall b hb
    simp only [Bool.or_eq_true, Bool.and_eq_true, decide_eq_true_eq, UInt8.le_iff_toNat_le,
      UInt8.lt_iff_toNat_lt] at hbyte
    have hnine : b = 9 ↔ b.toNat = 9 := ⟨fun h => h ▸ rfl, fun h => UInt8.toNat_inj.mp h⟩
    have h32 : (32 : UInt8).toNat = 32 := rfl
    have h127 : (127 : UInt8).toNat = 127 := rfl
    rw [hnine, h32, h127] at hbyte
    have hcode : (Char.ofNat b.toNat).toNat = b.toNat := by
      rw [Char.ofNat, dif_pos (Or.inl (by omega))]
      rfl
    rw [IsHeaderChar, hcode]
    exact hbyte
  next => cases h

/-- Header characters are ASCII characters. -/
theorem isAscii_of_isHeaderChar {s : Str} (h : ∀ c ∈ s, IsHeaderChar c) : Str.IsAscii s := by
  intro c hc
  rcases h c hc with hc | hc <;> omega

/-- The bytes of header characters are visible ASCII, blank or tab. -/
theorem visible_of_isHeaderChar {s : Str} (h : ∀ c ∈ s, IsHeaderChar c) :
    ∀ b ∈ Str.asBytes s, (32 ≤ b ∧ b < 127) ∨ b = 9 := by
  intro b hb
  rw [Str.asBytes_of_isAscii (isAscii_of_isHeaderChar h)] at hb
  obtain ⟨c, hc, rfl⟩ := List.mem_map.mp hb
  have hcode := Str.toNat_ofNat_of_ascii (isAscii_of_isHeaderChar h c hc)
  have hchar := h c hc
  rw [IsHeaderChar, ← hcode] at hchar
  rcases hchar with ⟨h32, h127⟩ | h9
  · exact Or.inl ⟨UInt8.le_iff_toNat_le.mpr h32, UInt8.lt_iff_toNat_lt.mpr h127⟩
  · exact Or.inr (UInt8.toNat_inj.mp h9)

/-- Text of header characters is a header value, and its text is the same. -/
theorem toStr_fromStr {s : Str} (h : ∀ c ∈ s, IsHeaderChar c) :
    ∃ v, fromStr s = some v ∧ v.toStr = some s := by
  have hvisible := visible_of_isHeaderChar h
  have hvalid : (Str.asBytes s).all isHeaderByte = true := by
    rw [List.all_eq_true]
    intro b hb
    rcases hvisible b hb with ⟨h32, h127⟩ | rfl
    · have hne : b ≠ 127 := by
        rintro rfl
        exact absurd h127 (by decide)
      simp [isHeaderByte, h32, hne]
    · rfl
  refine ⟨⟨Str.asBytes s, hvalid⟩, by rw [fromStr, fromBytes, dif_pos hvalid], ?_⟩
  rw [toStr]
  dsimp only
  rw [if_pos, Str.map_ofNat_asBytes (isAscii_of_isHeaderChar h)]
  rw [List.all_eq_true]
  intro b hb
  simpa using hvisible b hb

/-- A value that is text is the value of its text. -/
theorem fromStr_of_toStr {v : HeaderValue} {s : Str} (h : v.toStr = some s) :
    fromStr s = some v := by
  have hchars := isHeaderChar_of_toStr h
  unfold toStr at h
  split at h
  next hall =>
    obtain rfl := Option.some.inj h
    have hbytes : Str.asBytes (v.bytes.map fun b => Char.ofNat b.toNat) = v.bytes := by
      rw [Str.asBytes_of_isAscii (isAscii_of_isHeaderChar hchars), List.map_map]
      conv_rhs => rw [← List.map_id v.bytes]
      refine List.map_congr_left fun b hb => ?_
      have hbyte : b.toNat < 256 := b.toNat_lt
      have hcode : (Char.ofNat b.toNat).toNat = b.toNat := by
        rw [Char.ofNat, dif_pos (Or.inl (by omega))]
        rfl
      rw [Function.comp_apply, hcode, UInt8.ofNat_toNat, id]
    rw [fromStr, fromBytes, hbytes, dif_pos v.valid]
  next => cases h

/-- Different texts are different header values. -/
theorem fromStr_injective {s t : Str} {v : HeaderValue} (hs : fromStr s = some v)
    (ht : fromStr t = some v) : s = t := by
  have hbytes : ∀ {s : Str}, fromStr s = some v → Str.asBytes s = v.bytes := by
    intro s h
    unfold fromStr fromBytes at h
    split at h
    next => rw [← Option.some.inj h]
    next => cases h
  exact Str.asBytes_injective ((hbytes hs).trans (hbytes ht).symm)

/-- The text is a header value. -/
def isText (s : Str) : Bool :=
  (Str.asBytes s).all isHeaderByte

/-- Text is read as a header value exactly if it is one. -/
theorem isSome_fromStr (s : Str) : (fromStr s).isSome = isText s := by
  unfold fromStr fromBytes isText
  split
  next h => rw [Option.isSome_some, h]
  next h => rw [Option.isSome_none, eq_false_of_ne_true h]

/-- Text in two parts is a header value exactly if both parts are. -/
theorem isText_append (s t : Str) : isText (s ++ t) = (isText s && isText t) := by
  rw [isText, Str.asBytes_append, List.all_append]
  rfl

/-- Text of header characters is a header value. -/
theorem isText_of_isHeaderChar {s : Str} (h : ∀ c ∈ s, IsHeaderChar c) : isText s = true := by
  obtain ⟨v, hv, -⟩ := toStr_fromStr h
  rw [← isSome_fromStr, hv, Option.isSome_some]

/-- Joined text is a header value exactly if all of its parts are. -/
theorem isText_join {sep : Str} (hsep : isText sep = true) (parts : List Str) :
    isText (Str.join sep parts) = parts.all isText := by
  induction parts with
  | nil => rfl
  | cons part parts ih =>
    cases parts with
    | nil => simp [Str.join, List.intercalate]
    | cons next parts =>
      have hjoin : Str.join sep (part :: next :: parts) =
          part ++ (sep ++ Str.join sep (next :: parts)) := by
        simp [Str.join, List.intercalate]
      rw [hjoin, isText_append, isText_append, hsep, Bool.true_and, ih]
      rfl

end HeaderValue

/-- The headers of a message. -/
abbrev HeaderMap := MultiMap HeaderName HeaderValue

namespace HeaderMap

/-- `headers.get(name).and_then(|value| value.to_str().ok())`. -/
def getStr (headers : HeaderMap) (name : HeaderName) : Option Str :=
  (headers.get name).bind HeaderValue.toStr

/-- Insert a value given as text, if it is a valid one. -/
def insertStr (headers : HeaderMap) (name : HeaderName) (value : Str) : HeaderMap :=
  match HeaderValue.fromStr value with
  | some value => headers.insert name value
  | none => headers

/-- Inserting text leaves the other headers as they are. -/
theorem getAll_insertStr_of_ne {headers : HeaderMap} {name name' : HeaderName} {value : Str}
    (h : name' ≠ name) : (headers.insertStr name value).getAll name' = headers.getAll name' := by
  unfold insertStr
  split
  · rw [MultiMap.getAll_insert, if_neg h]
  · rfl

/-- Inserting text replaces the values of its header, unless it is no header value. -/
theorem getAll_insertStr_self (headers : HeaderMap) (name : HeaderName) (value : Str) :
    (headers.insertStr name value).getAll name =
      (HeaderValue.fromStr value).elim (headers.getAll name) fun v => [v] := by
  unfold insertStr
  cases HeaderValue.fromStr value with
  | none => rfl
  | some v => simp

/-- Text of header characters is read back where it is inserted. -/
theorem getStr_insertStr {headers : HeaderMap} {name : HeaderName} {s : Str}
    (h : ∀ c ∈ s, IsHeaderChar c) : (headers.insertStr name s).getStr name = some s := by
  obtain ⟨v, hvalue, htext⟩ := HeaderValue.toStr_fromStr h
  rw [insertStr, hvalue]
  dsimp only
  rw [getStr, MultiMap.get, MultiMap.getAll_insert, if_pos rfl, List.head?_cons,
    Option.bind_some, htext]

end HeaderMap

/-! ## URIs and messages -/

/-- A URI, by its parts. -/
structure Uri where
  scheme : Option Str
  authority : Option Str
  path : Str
  query : Option Str
  deriving DecidableEq, Repr

namespace Uri

/-- The host of an authority: what follows the last `@`, up to the closing bracket of an IP
literal or else up to the first colon. -/
def hostOfAuthority (authority : Str) : Str :=
  let hostPort := (authority.reverse.takeWhile (· ≠ '@')).reverse
  if hostPort.head? = some '[' then hostPort.takeWhile (· ≠ ']') ++ [']']
  else hostPort.takeWhile (· ≠ ':')

/-- `Uri::host`. -/
def host (uri : Uri) : Option Str :=
  uri.authority.map hostOfAuthority

/-- The port of an authority: the number after its last colon. -/
def portOfAuthority (authority : Str) : Option UInt16 :=
  (Str.rsplitOnce authority ':').bind fun (_, port) => Str.parseU16 port

/-- `Uri::port_u16`. -/
def portU16 (uri : Uri) : Option UInt16 :=
  uri.authority.bind portOfAuthority

end Uri

/-- A request; `body` is what the body stream yields. -/
structure Request where
  method : Method
  uri : Uri
  headers : HeaderMap
  body : List UInt8

/-- The head of a response. -/
structure Response where
  status : StatusCode
  headers : HeaderMap

end Corx
