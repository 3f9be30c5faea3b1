import Corx.Base.UrlWriting
import Corx.Proxy.UrlParser

/-!
# URLs as the standard reads them

`UrlStandard` names what the model uses of the URL standard, which the `url` crate implements, and
of the `idna` crate. An HTTP URL is what its scheme, its authority and the text behind that say;
which authorities there are is a parameter, as are the sets of characters that are escaped.
`urlParse_decoded` is what becomes of a URL whose escapes are undone before it is parsed.
-/

namespace Corx

/-- The characters of a URI without its fragment, RFC 3986. -/
def isUriChar (c : Char) : Bool :=
  c.isAlphanum || "-._~:/?[]@!$&'()*+,;=%".toList.contains c

/-- A scheme that the proxy serves, in any letter case. -/
def IsHttpScheme (scheme : Str) : Prop :=
  scheme.toAsciiLowercase = "http" ∨ scheme.toAsciiLowercase = "https"

/-- A text with its escapes undone, where it is UTF-8. -/
def decodeText (s : Str) : Option Str :=
  Str.fromUtf8 (Str.percentDecode (Str.asBytes s))

/-- What an authority names: a user, a host, and a port if it is not the one of the scheme. -/
structure Authority where
  username : Str
  password : Option Str
  host : Str
  port : Option UInt16

/-- The URL of a scheme and an authority, with what follows the authority. -/
def Url.ofText (sets : UrlText.EscapeSets) (scheme : Str) (a : Authority) (tail : Str) : Url where
  scheme := scheme
  username := a.username
  password := a.password
  hostStr := some a.host
  port := a.port
  path := UrlText.writePath sets.path (UrlText.path tail)
  query := (UrlText.query tail).map (UrlText.write sets.query)
  fragment := (UrlText.fragment tail).map (UrlText.write sets.fragment)

/-- What the `url` and `idna` crates promise about HTTP URLs: they are read as the standard says;
escapes, and the characters of a URI, are left as they are in a path; an authority and its host
are not empty, and the host is in ASCII form; an authority does not end in a blank; and in one
without credentials, escapes may stand in the host only, where they are undone anyway and stand
for no delimiter and no blank. -/
structure UrlStandard (parsers : Parsers) (sets : UrlText.EscapeSets)
    (authority : Str → Str → Option Authority) : Prop where
  lawful : sets.Lawful
  kept : ∀ c, isUriChar c = true → UrlText.IsKept sets.path c
  parse : ∀ scheme rest u, IsHttpScheme scheme →
    (parsers.urlParse (scheme ++ ':' :: ("//".toList ++ rest)) = .ok u ↔
      ∃ a, authority scheme.toAsciiLowercase (UrlText.authority (UrlText.clean rest)) = some a ∧
        u = .ofText sets scheme.toAsciiLowercase a (UrlText.afterAuthority (UrlText.clean rest)))
  host : ∀ scheme text a, authority scheme text = some a → text ≠ [] ∧ a.host ≠ []
  ascii : ∀ scheme text a host, authority scheme text = some a →
    parsers.domainToAscii a.host = .ok host → host = a.host
  last : ∀ scheme text a, authority scheme text = some a →
    ∀ c ∈ text.getLast?, UrlText.isBlank c = false
  decoded : ∀ scheme text a, authority scheme text = some a → a.username = [] →
    a.password = none → ∃ text', decodeText text = some text' ∧ text' ≠ [] ∧
      (∀ c ∈ text', UrlText.isDelimiter c = false ∧ UrlText.isBlank c = false) ∧
      authority scheme text' = some a

/-! ## Characters of URLs -/

/-- A scheme that is served contains no character that the names of the schemes do not. -/
theorem IsHttpScheme.not_mem {scheme : Str} (h : IsHttpScheme scheme) {c : Char}
    (hc : c.toLower ∉ "https".toList) : c ∉ scheme := by
  intro hmem
  have hlower : c.toLower ∈ scheme.toAsciiLowercase := List.mem_map_of_mem hmem
  rcases h with h | h
  · rw [h] at hlower
    exact hc (List.mem_append_left ['s'] hlower)
  · rw [h] at hlower
    exact hc hlower

/-- A scheme that is served is not empty. -/
theorem IsHttpScheme.ne_nil {scheme : Str} (h : IsHttpScheme scheme) : scheme ≠ [] := by
  rintro rfl
  rcases h with h | h <;> cases h

/-- URI characters are ASCII characters. -/
theorem toNat_lt_of_isUriChar {c : Char} (h : isUriChar c = true) : c.toNat < 128 := by
  -- letters and digits come before the last small letter
  have hle : ∀ d : Char, d.toNat < 128 → c.val ≤ d.val → c.toNat < 128 := by
    intro d hd hcd
    exact Nat.lt_of_le_of_lt (UInt32.le_iff_toNat_le.mp hcd) hd
  rw [isUriChar, Bool.or_eq_true] at h
  rcases h with h | h
  · rcases Bool.or_eq_true_iff.mp h with halpha | hdigit
    · rcases Bool.or_eq_true_iff.mp halpha with hupper | hlower
      · exact hle 'Z' (by decide) (of_decide_eq_true hupper).2
      · exact hle 'z' (by decide) (of_decide_eq_true (Bool.and_eq_true_iff.mp hlower).2)
    · exact hle '9' (by decide) (of_decide_eq_true (Bool.and_eq_true_iff.mp hdigit).2)
  · have hall : ∀ d ∈ "-._~:/?[]@!$&'()*+,;=%".toList, d.toNat < 128 :=
      List.all_iff_forall_prop.mp (by decide)
    exact hall c (List.contains_iff_mem.mp h)

/-! ## A URL whose escapes are undone -/

section Reading

variable {parsers : Parsers} {sets : UrlText.EscapeSets}
  {authority : Str → Str → Option Authority} {scheme rest : Str} {u : Url}

/-- Decoded text has the bytes of the text with its escapes undone. -/
theorem decodes_of_decodeText {s t : Str} (h : decodeText s = some t) : UrlText.Decodes s t :=
  Str.asBytes_of_fromUtf8 h

/-- URI characters are no blanks. -/
theorem isBlank_of_isUriChar {c : Char} (h : isUriChar c = true) : UrlText.isBlank c = false := by
  have hall : ∀ n : Fin 128, isUriChar (Char.ofNat n) = true →
      UrlText.isBlank (Char.ofNat n) = false := by decide +kernel
  have hthis := hall ⟨c.toNat, toNat_lt_of_isUriChar h⟩
  rw [Char.ofNat_toNat] at hthis
  exact hthis h

/-- What follows the authority of a URL in URI characters is a path and a query. -/
theorem isTail_afterAuthority (std : UrlStandard parsers sets authority)
    (hchars : ∀ c ∈ rest, isUriChar c = true) :
    UrlText.IsTail sets (UrlText.afterAuthority rest) := by
  have hsub : ∀ c ∈ UrlText.afterAuthority rest, isUriChar c = true := fun c hc =>
    hchars c (((List.dropWhile_sublist _).trans (List.dropWhile_sublist _)).subset hc)
  have hnot : ∀ c : Char, isUriChar c = false → ∀ d, isUriChar d = true → d ≠ c := by
    rintro c hc d hd rfl
    rw [hc] at hd
    cases hd
  exact
    { head := by
        intro c hc
        have hdelimiter := UrlText.isDelimiter_of_head_afterAuthority hc
        have huri := hsub c (List.mem_of_mem_head? hc)
        have hback := hnot '\\' (by decide) c huri
        have hhash := hnot '#' (by decide) c huri
        simpa [UrlText.isDelimiter, UrlText.isSlash, hback, hhash] using hdelimiter
      kept := fun c hc => std.kept c (hsub c hc)
      plain := fun c hc => ⟨hnot '#' (by decide) c (hsub c hc),
        hnot '\\' (by decide) c (hsub c hc), isBlank_of_isUriChar (hsub c hc)⟩ }

/-- The escapes in front of a delimiter are undone by themselves. -/
theorem decodeText_append_tail {a a' tail : Str} (ha : decodeText a = some a')
    (htail : ∀ c ∈ tail.head?, c = '/' ∨ c = '?') :
    decodeText (a ++ tail) = (decodeText tail).map (a' ++ ·) := by
  cases tail with
  | nil =>
    rw [List.append_nil, ha]
    exact congrArg some (List.append_nil a').symm
  | cons c tail =>
    obtain ⟨hascii, hdigit⟩ : c.toNat < 128 ∧ Str.hexDigit (UInt8.ofNat c.toNat) = none := by
      rcases htail c rfl with rfl | rfl <;> decide
    rw [decodeText, Str.asBytes_append, Str.asBytes_cons, Str.utf8EncodeChar_of_ascii hascii,
      List.singleton_append, Str.percentDecode_append_cons hdigit,
      ← decodes_of_decodeText ha, Str.fromUtf8_asBytes_append, decodeText, Str.asBytes_cons,
      Str.utf8EncodeChar_of_ascii hascii, List.singleton_append]

/-- A delimiter in front is left when the escapes are undone. -/
theorem isDelimiter_of_head_clean {tail t : Str} (htail : ∀ c ∈ tail.head?, c = '/' ∨ c = '?')
    (h : UrlText.Decodes tail t) : ∀ c ∈ (UrlText.clean t).head?, UrlText.isDelimiter c = true := by
  cases tail with
  | nil =>
    rw [h.eq_nil]
    rintro c ⟨⟩
  | cons c tail =>
    obtain ⟨hascii, hdigit, hpercent, hblank, hdelimiter⟩ : c.toNat < 128 ∧
        Str.hexDigit (UInt8.ofNat c.toNat) = none ∧ UInt8.ofNat c.toNat ≠ 0x25 ∧
        UrlText.isBlank c = false ∧ UrlText.isDelimiter c = true := by
      rcases htail c rfl with rfl | rfl <;> decide
    obtain ⟨a', t', rfl, ha', -⟩ :=
      UrlText.Decodes.exists_append (a := []) hascii hdigit hpercent h
    rw [ha'.eq_nil, List.nil_append, UrlText.clean_cons hblank]
    rintro d hd
    rwa [← Option.some.inj hd]

/-- Where what follows the authority is text with its escapes undone, the whole URL is, and it is
read with the same authority. -/
theorem UrlStandard.urlParse_decoded (std : UrlStandard parsers sets authority)
    (hscheme : IsHttpScheme scheme) (hchars : ∀ c ∈ rest, isUriChar c = true)
    (hparse : parsers.urlParse (scheme ++ ':' :: ("//".toList ++ rest)) = .ok u)
    (husername : u.username = []) (hpassword : u.password = none) :
    ∃ a front, authority scheme.toAsciiLowercase (UrlText.authority rest) = some a ∧
      u = .ofText sets scheme.toAsciiLowercase a (UrlText.afterAuthority rest) ∧
      decodeText (scheme ++ ':' :: ("//".toList ++ rest)) =
        (decodeText (UrlText.afterAuthority rest)).map (front ++ ·) ∧
      ∀ t, decodeText (UrlText.afterAuthority rest) = some t →
        parsers.urlParse (front ++ t) =
          .ok (.ofText sets scheme.toAsciiLowercase a (UrlText.clean t)) := by
  have hclean : UrlText.clean rest = rest :=
    UrlText.clean_of_forall fun c hc => isBlank_of_isUriChar (hchars c hc)
  have htail := isTail_afterAuthority std hchars
  obtain ⟨a, ha, rfl⟩ := (std.parse scheme rest u hscheme).mp hparse
  rw [hclean] at ha husername hpassword ⊢
  obtain ⟨text, htext, hne, hplain, hread⟩ := std.decoded _ _ a ha husername hpassword
  -- the scheme and the slashes stay as they are
  let pre := rest.takeWhile UrlText.isSlash
  have hpre : ∀ c ∈ pre, UrlText.isSlash c = true := fun c hc => List.mem_takeWhile_imp hc
  have hpercent : '%' ∉ scheme ++ "://".toList ++ pre := by
    simp only [List.mem_append, not_or]
    exact ⟨⟨hscheme.not_mem (by decide), by decide⟩, fun hmem => absurd (hpre _ hmem) (by decide)⟩
  have hfront : scheme ++ ':' :: ("//".toList ++ rest) =
      (scheme ++ "://".toList ++ pre) ++
        (UrlText.authority rest ++ UrlText.afterAuthority rest) := by
    conv_lhs => rw [UrlText.eq_slashes_append rest]
    simp [pre]
  refine ⟨a, (scheme ++ "://".toList ++ pre) ++ text, ha, rfl, ?_, ?_⟩
  · rw [hfront, decodeText, Str.asBytes_append,
      Str.percentDecode_append_of_not_mem (Str.percent_not_mem_asBytes hpercent),
      Str.fromUtf8_asBytes_append, ← decodeText, decodeText_append_tail htext htail.head,
      Option.map_map]
    refine congrArg (Option.map · _) (funext fun t => ?_)
    simp
  · intro t ht
    have hjoin : (scheme ++ "://".toList ++ pre) ++ text ++ t =
        scheme ++ ':' :: ("//".toList ++ (pre ++ (text ++ t))) := by
      simp
    have hblank : ∀ c ∈ pre ++ text, UrlText.isBlank c = false := by
      intro c hc
      rcases List.mem_append.mp hc with hc | hc
      · exact isBlank_of_isUriChar (hchars c ((List.takeWhile_sublist _).subset hc))
      · exact (hplain c hc).2
    have hread' : UrlText.clean (pre ++ (text ++ t)) = pre ++ (text ++ UrlText.clean t) := by
      rw [← List.append_assoc, UrlText.clean_append hblank, List.append_assoc]
    obtain ⟨hauthority, hafter⟩ := UrlText.authority_append hpre (fun c hc => (hplain c hc).1) hne
      (isDelimiter_of_head_clean htail.head (decodes_of_decodeText ht))
    rw [hjoin, std.parse _ _ _ hscheme, hread', hauthority, hafter]
    exact ⟨a, hread, rfl⟩

end Reading

/-! ## Plain hosts -/

namespace Standard

/-- Controls, spaces and the marks are escaped, but for what is dropped. -/
def escapeSet (marks : List Char) (b : UInt8) : Bool :=
  (b ≤ 0x20 || b = 0x7F || marks.elem (Char.ofNat b.toNat)) &&
    !UrlText.isBreak (Char.ofNat b.toNat)

/-- The sets of the standard. -/
def sets : UrlText.EscapeSets where
  path := escapeSet "\"<>`\x7b\x7d".toList
  query := escapeSet "\"<>'".toList
  fragment := escapeSet "\"<>`".toList

/-- The characters of an authority without credentials, in lower case. -/
def isPlain (c : Char) : Bool :=
  c.isLower || c.isDigit || ".-:".toList.contains c

/-- An authority of plain characters; the port of the scheme is left out. -/
def readAuthority (scheme text : Str) : Option Authority :=
  let (host, port) := Plain.splitPort text
  if text.all isPlain && !host.isEmpty && !host.elem ':' then
    some
      { username := []
        password := none
        host
        port := if port = some (if scheme = "http" then 80 else 443) then none else port }
  else none

/-- HTTP URLs with plain authorities. -/
def urlParse (s : Str) : Except Str Url :=
  match Str.splitOnce "://" s with
  | none => .error "relative URL without a base"
  | some (scheme, rest) =>
    if scheme.toAsciiLowercase = "http" ∨ scheme.toAsciiLowercase = "https" then
      match readAuthority scheme.toAsciiLowercase (UrlText.authority (UrlText.clean rest)) with
      | some a =>
        .ok (.ofText sets scheme.toAsciiLowercase a (UrlText.afterAuthority (UrlText.clean rest)))
      | none => .error "invalid domain character"
    else .error "not an HTTP URL"

/-- A hexadecimal digit is not escaped. -/
theorem keepsEscapes_escapeSet : ∀ marks ∈ ["\"<>`\x7b\x7d".toList, "\"<>'".toList],
    Str.KeepsEscapes (escapeSet marks) := by
  intro marks hmarks
  have hall : ∀ marks ∈ ["\"<>`\x7b\x7d".toList, "\"<>'".toList], ∀ n : Fin 256,
      (UInt8.ofNat n = 0x25 ∨ (Str.hexDigit (UInt8.ofNat n)).isSome = true) →
        escapeSet marks (UInt8.ofNat n) = false := by decide +kernel
  have hbyte : ∀ b : UInt8, (b = 0x25 ∨ (Str.hexDigit b).isSome = true) →
      escapeSet marks b = false := by
    intro b
    have hthis := hall marks hmarks ⟨b.toNat, b.toNat_lt⟩
    rwa [UInt8.ofNat_toNat] at hthis
  exact ⟨hbyte _ (Or.inl rfl), fun b hb => hbyte b (Or.inr hb)⟩

/-- The sets leave escapes as they are, and what is not written anyway. -/
theorem lawful_sets : sets.Lawful where
  path :=
    { toKeepsEscapes := keepsEscapes_escapeSet "\"<>`\x7b\x7d".toList (by decide)
      kept := by
        unfold UrlText.IsKept
        exact List.all_iff_forall_prop.mp (by decide +kernel) }
  query :=
    { toKeepsEscapes := keepsEscapes_escapeSet "\"<>'".toList (by decide)
      kept := by
        unfold UrlText.IsKept
        exact List.all_iff_forall_prop.mp (by decide +kernel) }

/-- URI characters are left as they are in a path. -/
theorem isKept_of_isUriChar {c : Char} (h : isUriChar c = true) :
    UrlText.IsKept sets.path c := by
  have hall : ∀ n : Fin 128, isUriChar (Char.ofNat n) = true →
      sets.path (UInt8.ofNat (Char.ofNat n).toNat) = false := by decide +kernel
  have hascii := toNat_lt_of_isUriChar h
  have hthis := hall ⟨c.toNat, hascii⟩
  rw [Char.ofNat_toNat] at hthis
  exact ⟨hascii, hthis h⟩

/-- What is known of a text that is an authority. -/
theorem readAuthority_eq_some {scheme text : Str} {a : Authority}
    (h : readAuthority scheme text = some a) :
    a.host ≠ [] ∧ text ≠ [] ∧ ∀ c ∈ text, isPlain c = true := by
  unfold readAuthority at h
  dsimp only at h
  split at h
  next hplain =>
    rw [Bool.and_eq_true, Bool.and_eq_true] at hplain
    obtain ⟨⟨hall, hne⟩, -⟩ := hplain
    rw [← Option.some.inj h]
    refine ⟨by simpa using hne, ?_, List.all_eq_true.mp hall⟩
    rintro rfl
    exact absurd hne (by decide)
  next => cases h

/-- Plain characters are ASCII characters other than the percent sign, delimiters and blanks. -/
theorem plain_facts {c : Char} (h : isPlain c = true) :
    c ≠ '%' ∧ UrlText.isDelimiter c = false ∧ UrlText.isBlank c = false := by
  have huri : isUriChar c = true := by
    rw [isPlain, Bool.or_eq_true, Bool.or_eq_true] at h
    have halphanum : c.isAlphanum = ((c.isUpper || c.isLower) || c.isDigit) := rfl
    rw [isUriChar, halphanum]
    rcases h with (hlower | hdigit) | hmark
    · rw [hlower, Bool.or_true, Bool.true_or, Bool.true_or]
    · rw [hdigit, Bool.or_true, Bool.true_or]
    · have hall : ∀ d ∈ ".-:".toList, d ∈ "-._~:/?[]@!$&'()*+,;=%".toList :=
        List.all_iff_forall_prop.mp (by decide +kernel)
      rw [List.contains_iff_mem.mpr (hall c (List.contains_iff_mem.mp hmark)), Bool.or_true]
  have hall : ∀ n : Fin 128, isPlain (Char.ofNat n) = true → Char.ofNat n ≠ '%' ∧
      UrlText.isDelimiter (Char.ofNat n) = false ∧ UrlText.isBlank (Char.ofNat n) = false := by
    decide +kernel
  have hthis := hall ⟨c.toNat, toNat_lt_of_isUriChar huri⟩
  rw [Char.ofNat_toNat] at hthis
  exact hthis h

end Standard

/-- The parsers of the standard, on plain hosts. -/
def Parsers.standard : Parsers :=
  { Parsers.plain with urlParse := Standard.urlParse }

/-- They keep the promises. -/
theorem urlStandard_standard :
    UrlStandard .standard Standard.sets Standard.readAuthority where
  lawful := Standard.lawful_sets
  kept := fun _ => Standard.isKept_of_isUriChar
  parse := by
    intro scheme rest u hscheme
    have hsplit : Str.splitOnce "://" (scheme ++ ':' :: ("//".toList ++ rest)) =
        some (scheme, rest) := Str.splitOnce_of_not_mem (hscheme.not_mem (by decide)) rest
    unfold Parsers.standard
    dsimp only
    rw [Standard.urlParse, hsplit]
    dsimp only
    rw [if_pos (show _ ∨ _ from hscheme)]
    cases Standard.readAuthority scheme.toAsciiLowercase
        (UrlText.authority (UrlText.clean rest)) with
    | none => simp
    | some a => simp [eq_comm]
  host := fun _ _ _ h => ⟨(Standard.readAuthority_eq_some h).2.1,
    (Standard.readAuthority_eq_some h).1⟩
  ascii := by
    intro scheme text a host _ hascii
    exact (Except.ok.inj hascii).symm
  last := by
    intro scheme text a h c hc
    exact (Standard.plain_facts ((Standard.readAuthority_eq_some h).2.2 c
      (List.mem_of_getLast? hc))).2.2
  decoded := by
    intro scheme text a h _ _
    obtain ⟨-, hne, hplain⟩ := Standard.readAuthority_eq_some h
    refine ⟨text, Str.fromUtf8_percentDecode_of_no_escape fun hmem => ?_, hne,
      fun c hc => (Standard.plain_facts (hplain c hc)).2, h⟩
    exact (Standard.plain_facts (hplain _ hmem)).1 rfl

end Corx
