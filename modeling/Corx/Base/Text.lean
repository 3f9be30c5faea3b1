import Mathlib.Data.List.Infix

/-!
# Text

Text is a list of characters, so that the functions on it are structural and compute. The
functions are those of Rust's `str` that a program over protocol text uses, with their
documented behaviour: ASCII case folding, trimming of Unicode white space, splitting and
stripping. `asBytes` is the UTF-8 encoding. The lemmas on `splitOnce` say where a separator is
found; numbers that are printed are read back.
-/

/-- A string slice: the sequence of its characters. -/
abbrev Str := List Char

instance : Coe String Str := ⟨String.toList⟩

namespace Str

/-- `str::to_ascii_lowercase`: `A` to `Z` become `a` to `z`, every other character stays. -/
def toAsciiLowercase (s : Str) : Str :=
  s.map Char.toLower

/-- `str::eq_ignore_ascii_case`. -/
def eqIgnoreAsciiCase (a b : Str) : Bool :=
  a.toAsciiLowercase = b.toAsciiLowercase

/-- Equality up to ASCII case is equality of the lower-cased texts. -/
@[simp]
theorem eqIgnoreAsciiCase_iff {a b : Str} :
    eqIgnoreAsciiCase a b = true ↔ toAsciiLowercase a = toAsciiLowercase b := by
  simp [eqIgnoreAsciiCase]

/-- `char::is_whitespace`: the Unicode property `White_Space`. -/
def isWhitespace (c : Char) : Bool :=
  (9 ≤ c.toNat && c.toNat ≤ 13) || c.toNat = 0x20 || c.toNat = 0x85 || c.toNat = 0xA0 ||
    c.toNat = 0x1680 || (0x2000 ≤ c.toNat && c.toNat ≤ 0x200A) || c.toNat = 0x2028 ||
    c.toNat = 0x2029 || c.toNat = 0x202F || c.toNat = 0x205F || c.toNat = 0x3000

/-- `str::trim`: white space is dropped at both ends. -/
def trim (s : Str) : Str :=
  ((s.dropWhile isWhitespace).reverse.dropWhile isWhitespace).reverse

/-- `str::split` at a character: the pieces between its occurrences, in order. -/
def split (s : Str) (c : Char) : List Str :=
  s.splitOn c

/-- `str::strip_prefix`. -/
def stripPrefix (s pre : Str) : Option Str :=
  if pre.isPrefixOf s then some (s.drop pre.length) else none

/-- Stripping a prefix succeeds on the texts that are the prefix followed by the result. -/
@[simp]
theorem stripPrefix_eq_some {s pre rest : Str} :
    stripPrefix s pre = some rest ↔ s = pre ++ rest := by
  unfold stripPrefix
  constructor
  · intro h
    split at h
    next hpre =>
      obtain ⟨t, rfl⟩ := List.isPrefixOf_iff_prefix.mp hpre
      simpa using h
    next => cases h
  · rintro rfl
    simp

/-- `str::contains` for a text. -/
def contains (s needle : Str) : Bool :=
  decide (needle <:+: s)

/-- `str::ends_with`. -/
def endsWith (s suffix : Str) : Bool :=
  suffix.isSuffixOf s

/-- `str::split_once`: the parts before and after the first occurrence of a text. -/
def splitOnce (sep : Str) : Str → Option (Str × Str)
  | [] => if sep.isEmpty then some ([], []) else none
  -- the first occurrence is the leftmost position where the separator is a prefix
  | c :: cs =>
    match stripPrefix (c :: cs) sep with
    | some rest => some ([], rest)
    | none => (splitOnce sep cs).map fun (before, after) => (c :: before, after)

/-- `str::rsplit_once`: the parts before and after the last occurrence of a character. -/
def rsplitOnce (s : Str) (c : Char) : Option (Str × Str) :=
  (splitOnce [c] s.reverse).map fun (after, before) => (before.reverse, after.reverse)

/-- `str::starts_with`. -/
def startsWith (s pre : Str) : Bool :=
  pre.isPrefixOf s

/-- `str::trim_start_matches` for a character. -/
def trimStartMatches (s : Str) (c : Char) : Str :=
  s.dropWhile (· = c)

/-- `str::trim_end_matches` for a character. -/
def trimEndMatches (s : Str) (c : Char) : Str :=
  (s.reverse.dropWhile (· = c)).reverse

/-- `[&str]::join`. -/
def join (sep : Str) (parts : List Str) : Str :=
  List.intercalate sep parts

/-- `str::as_bytes`: the UTF-8 encoding. -/
def asBytes (s : Str) : List UInt8 :=
  s.flatMap String.utf8EncodeChar

/-- `str::from_utf8`: the text that the bytes encode, if they encode one. -/
def fromUtf8 : List UInt8 → Option Str
  | [] => some []
  | b₀ :: rest =>
    if b₀ < 0x80 then (fromUtf8 rest).map (Char.ofNat b₀.toNat :: ·)
    else match rest with
      | b₁ :: rest =>
        if 0xC2 ≤ b₀ ∧ b₀ ≤ 0xDF ∧ 0x80 ≤ b₁ ∧ b₁ ≤ 0xBF then
          (fromUtf8 rest).map (Char.ofNat ((b₀.toNat - 0xC0) * 64 + (b₁.toNat - 0x80)) :: ·)
        else match rest with
          | b₂ :: rest =>
            -- no overlong forms and no surrogates
            if 0xE0 ≤ b₀ ∧ b₀ ≤ 0xEF ∧ (if b₀ = 0xE0 then 0xA0 else 0x80) ≤ b₁ ∧
                b₁ ≤ (if b₀ = 0xED then 0x9F else 0xBF) ∧ 0x80 ≤ b₂ ∧ b₂ ≤ 0xBF then
              (fromUtf8 rest).map (Char.ofNat ((b₀.toNat - 0xE0) * 4096 +
                (b₁.toNat - 0x80) * 64 + (b₂.toNat - 0x80)) :: ·)
            else match rest with
              | b₃ :: rest =>
                -- no overlong forms and nothing above the last code point
                if 0xF0 ≤ b₀ ∧ b₀ ≤ 0xF4 ∧ (if b₀ = 0xF0 then 0x90 else 0x80) ≤ b₁ ∧
                    b₁ ≤ (if b₀ = 0xF4 then 0x8F else 0xBF) ∧ 0x80 ≤ b₂ ∧ b₂ ≤ 0xBF ∧
                    0x80 ≤ b₃ ∧ b₃ ≤ 0xBF then
                  (fromUtf8 rest).map (Char.ofNat ((b₀.toNat - 0xF0) * 262144 +
                    (b₁.toNat - 0x80) * 4096 + (b₂.toNat - 0x80) * 64 + (b₃.toNat - 0x80)) :: ·)
                else none
              | [] => none
          | [] => none
      | [] => none

/-- The value of an ASCII hexadecimal digit. -/
def hexDigit (b : UInt8) : Option UInt8 :=
  if 0x30 ≤ b ∧ b ≤ 0x39 then some (b - 0x30)
  else if 0x41 ≤ b ∧ b ≤ 0x46 then some (b - 0x41 + 10)
  else if 0x61 ≤ b ∧ b ≤ 0x66 then some (b - 0x61 + 10)
  else none

/-- `percent_encoding::percent_decode`: a percent sign and two hexadecimal digits are one
byte, every other byte stands for itself. -/
def percentDecode : List UInt8 → List UInt8
  | b :: h :: l :: rest =>
    match if b = 0x25 then hexDigit h else none, hexDigit l with
    | some hi, some lo => (hi * 16 + lo) :: percentDecode rest
    | _, _ => b :: percentDecode (h :: l :: rest)
  | [b, c] => [b, c]
  | [b] => [b]
  | [] => []

/-- The decimal digits of a number, as `to_string` prints it. -/
def ofNat (n : ℕ) : Str :=
  Nat.toDigits 10 n

/-- `str::parse::<u16>`: decimal digits, with a plus sign in front or without, for a number below
65536. -/
def parseU16 (s : Str) : Option UInt16 :=
  let digits := (stripPrefix s ['+']).getD s
  if digits.isEmpty || !digits.all Char.isDigit then none
  else if Nat.ofDigitChars 10 digits 0 < 65536 then
    some (UInt16.ofNat (Nat.ofDigitChars 10 digits 0))
  else none

/-! ## Searching -/

/-- Stripping a prefix fails on the other texts. -/
theorem stripPrefix_eq_none {s pre : Str} : stripPrefix s pre = none ↔ ¬ pre <+: s := by
  rw [stripPrefix, ← List.isPrefixOf_iff_prefix]
  split <;> simp_all

/-- Where an empty text is split, everything is empty. -/
theorem splitOnce_nil_eq_some {sep pre post : Str} :
    splitOnce sep [] = some (pre, post) ↔ sep = [] ∧ pre = [] ∧ post = [] := by
  unfold splitOnce
  cases sep <;> simp [eq_comm]

/-- A text is split at its front, if the separator is a prefix, and else where the rest is. -/
theorem splitOnce_cons_eq_some {sep s pre post : Str} {c : Char} :
    splitOnce sep (c :: s) = some (pre, post) ↔
      (pre = [] ∧ stripPrefix (c :: s) sep = some post) ∨
      (stripPrefix (c :: s) sep = none ∧ ∃ pre', splitOnce sep s = some (pre', post) ∧
        pre = c :: pre') := by
  rw [splitOnce]
  cases stripPrefix (c :: s) sep with
  | some rest => simp [eq_comm]
  | none =>
    constructor
    · intro h
      obtain ⟨⟨pre', post'⟩, hsplit, heq⟩ := Option.map_eq_some_iff.mp h
      obtain ⟨rfl, rfl⟩ := Prod.mk.inj heq
      exact .inr ⟨rfl, pre', hsplit, rfl⟩
    · rintro (⟨-, h⟩ | ⟨-, pre', hsplit, rfl⟩)
      · cases h
      · rw [hsplit, Option.map_some]

/-- A text that is split consists of the parts and the separator between them. -/
theorem eq_of_splitOnce {sep s pre post : Str} (h : splitOnce sep s = some (pre, post)) :
    s = pre ++ sep ++ post := by
  induction s generalizing pre with
  | nil =>
    obtain ⟨rfl, rfl, rfl⟩ := splitOnce_nil_eq_some.mp h
    rfl
  | cons c s ih =>
    rcases splitOnce_cons_eq_some.mp h with ⟨rfl, hstrip⟩ | ⟨-, pre', hsplit, rfl⟩
    · exact stripPrefix_eq_some.mp hstrip
    · rw [ih hsplit, List.cons_append, List.cons_append]

/-- A separator is found where its first character first occurs. -/
theorem splitOnce_of_not_mem {c : Char} {sep pre : Str} (h : c ∉ pre) (post : Str) :
    splitOnce (c :: sep) (pre ++ c :: (sep ++ post)) = some (pre, post) := by
  induction pre with
  | nil =>
    have hstrip : stripPrefix (c :: (sep ++ post)) (c :: sep) = some post :=
      stripPrefix_eq_some.mpr (by rw [List.cons_append])
    rw [List.nil_append, splitOnce, hstrip]
  | cons d pre ih =>
    rw [List.mem_cons, not_or] at h
    have hstrip : stripPrefix (d :: (pre ++ c :: (sep ++ post))) (c :: sep) = none := by
      rw [stripPrefix_eq_none, List.cons_prefix_cons]
      exact fun hcd => h.1 hcd.1
    rw [List.cons_append, splitOnce, hstrip, ih h.2]
    rfl

/-- A text that contains a character is split at it, where it first occurs. -/
theorem exists_splitOnce_of_mem {c : Char} {s : Str} (h : c ∈ s) :
    ∃ pre post, c ∉ pre ∧ splitOnce [c] s = some (pre, post) := by
  obtain ⟨pre, post, rfl, hpre⟩ := List.eq_append_cons_of_mem h
  exact ⟨pre, post, hpre, splitOnce_of_not_mem hpre post⟩

/-- A text that is not split at a character does not contain it. -/
theorem not_mem_of_splitOnce_eq_none {c : Char} {s : Str} (h : splitOnce [c] s = none) :
    c ∉ s := by
  intro hmem
  obtain ⟨pre, post, -, hsplit⟩ := exists_splitOnce_of_mem hmem
  rw [h] at hsplit
  cases hsplit

/-- What precedes the separator does not contain it. -/
theorem not_mem_of_splitOnce {c : Char} {s pre post : Str}
    (h : splitOnce [c] s = some (pre, post)) : c ∉ pre := by
  have hmem : c ∈ s := by
    rw [eq_of_splitOnce h]
    simp
  obtain ⟨pre', post', hpre, hsplit⟩ := exists_splitOnce_of_mem hmem
  rw [h] at hsplit
  obtain ⟨rfl, -⟩ := Prod.mk.inj (Option.some.inj hsplit)
  exact hpre

/-- A text in which a character does not occur has no last occurrence to split at. -/
theorem rsplitOnce_of_not_mem {s : Str} {c : Char} (h : c ∉ s) : rsplitOnce s c = none := by
  rw [rsplitOnce, Option.map_eq_none_iff, Option.eq_none_iff_forall_not_mem]
  rintro ⟨after, before⟩ hsplit
  refine h (List.mem_reverse.mp ?_)
  rw [eq_of_splitOnce hsplit]
  simp

/-- The last occurrence of a character is the one that no other follows. -/
theorem rsplitOnce_append {post : Str} {c : Char} (h : c ∉ post) (pre : Str) :
    rsplitOnce (pre ++ c :: post) c = some (pre, post) := by
  have hreverse : (pre ++ c :: post).reverse = post.reverse ++ c :: ([] ++ pre.reverse) := by
    simp
  rw [rsplitOnce, hreverse, splitOnce_of_not_mem (by simpa using h), Option.map_some]
  dsimp only
  rw [List.reverse_reverse, List.reverse_reverse]

/-- A text is split at the last occurrence of a character into what stands before and after it. -/
theorem rsplitOnce_eq_some {s pre post : Str} {c : Char} (h : rsplitOnce s c = some (pre, post)) :
    s = pre ++ c :: post ∧ c ∉ post := by
  obtain ⟨⟨after, before⟩, hsplit, heq⟩ := Option.map_eq_some_iff.mp h
  obtain ⟨rfl, rfl⟩ := Prod.mk.inj heq
  refine ⟨?_, fun hmem => not_mem_of_splitOnce hsplit (List.mem_reverse.mp hmem)⟩
  rw [← List.reverse_reverse s, eq_of_splitOnce hsplit]
  simp

/-- A text has a piece. -/
theorem split_ne_nil (s : Str) (c : Char) : split s c ≠ [] :=
  List.splitOn_ne_nil c s

/-- A separator in front is an empty piece in front. -/
theorem split_cons_self (s : Str) (c : Char) : split (c :: s) c = [] :: split s c := by
  rw [split, split, List.splitOn_cons_eq_if_modifyHead, if_pos (by simp)]

/-- Another character in front belongs to the first piece. -/
theorem exists_split_cons {c d : Char} (h : d ≠ c) (s : Str) :
    ∃ piece pieces, split s c = piece :: pieces ∧ split (d :: s) c = (d :: piece) :: pieces := by
  obtain ⟨piece, pieces, hs⟩ := List.exists_cons_of_ne_nil (split_ne_nil s c)
  refine ⟨piece, pieces, hs, ?_⟩
  rw [split, List.splitOn_cons_eq_if_modifyHead, if_neg (by simpa using h), ← split, hs,
    List.modifyHead_cons]

/-- The first piece of a text is what stands in front of the separator. -/
theorem head?_split (s : Str) (c : Char) : (split s c).head? = some (s.takeWhile (· ≠ c)) := by
  induction s with
  | nil => rfl
  | cons d s ih =>
    rw [List.takeWhile_cons]
    by_cases hd : d = c
    · subst hd
      rw [split_cons_self]
      simp
    · obtain ⟨piece, pieces, hs, hcons⟩ := exists_split_cons hd s
      rw [hs, List.head?_cons] at ih
      rw [hcons, List.head?_cons, if_pos (by simpa using hd), Option.some.inj ih]

/-- A text is determined by its pieces. -/
theorem split_inj {s t : Str} {c : Char} : split s c = split t c ↔ s = t := by
  refine ⟨fun h => ?_, fun h => h ▸ rfl⟩
  have hjoin : ∀ u : Str, [c].intercalate (split u c) = u := fun _ => List.intercalate_splitOn c
  rw [← hjoin s, ← hjoin t, h]

/-- The pieces of a text end with those of another exactly if the texts are equal or the first
ends with the separator and the second. -/
theorem split_suffix_split_iff {s t : Str} {c : Char} :
    split t c <:+ split s c ↔ s = t ∨ (c :: t) <:+ s := by
  constructor
  · intro h
    induction s with
    | nil =>
      -- a text has a piece, so these are all pieces
      have hpieces : split t c = split [] c :=
        (List.suffix_cons_iff.mp h).resolve_right fun hnil =>
          split_ne_nil t c (List.suffix_nil.mp hnil)
      exact .inl (split_inj.mp hpieces).symm
    | cons d s ih =>
      by_cases hd : d = c
      · subst hd
        rw [split_cons_self] at h
        rcases List.suffix_cons_iff.mp h with hpieces | hsuffix
        · exact .inl (split_inj.mp ((split_cons_self s d).trans hpieces.symm))
        · rcases ih hsuffix with rfl | hs
          · exact .inr List.suffix_rfl
          · exact .inr (hs.trans (List.suffix_cons d s))
      · obtain ⟨piece, pieces, hs, hcons⟩ := exists_split_cons hd s
        rw [hcons] at h
        rcases List.suffix_cons_iff.mp h with hpieces | hsuffix
        · exact .inl (split_inj.mp (hcons.trans hpieces.symm))
        · rcases ih (hs ▸ hsuffix.trans (List.suffix_cons piece pieces)) with rfl | hsuffix'
          -- the pieces of a text are not among those after its first
          · have hlength := hsuffix.length_le
            rw [hs, List.length_cons] at hlength
            omega
          · exact .inr (hsuffix'.trans (List.suffix_cons d s))
  · rintro (rfl | ⟨front, rfl⟩)
    · exact List.suffix_rfl
    · unfold split
      rw [List.splitOn_append_cons_self]
      exact List.suffix_append _ _

/-- The characters of a joined text are those of the separator and the parts. -/
theorem forall_mem_join {P : Char → Prop} {sep : Str} {parts : List Str} (hsep : ∀ c ∈ sep, P c)
    (hparts : ∀ part ∈ parts, ∀ c ∈ part, P c) : ∀ c ∈ join sep parts, P c := by
  intro c hc
  obtain ⟨piece, hpiece, hmem⟩ := List.mem_flatten.mp hc
  -- the pieces are the parts with separators between them
  have hor : piece = sep ∨ piece ∈ parts := by
    clear hparts hmem hc
    induction parts with
    | nil => cases hpiece
    | cons part parts ih =>
      cases parts with
      | nil => exact Or.inr hpiece
      | cons next parts =>
        rw [List.intersperse_cons_cons] at hpiece
        rcases List.mem_cons.mp hpiece with rfl | hpiece
        · exact Or.inr List.mem_cons_self
        · rcases List.mem_cons.mp hpiece with rfl | hpiece
          · exact Or.inl rfl
          · exact (ih hpiece).imp_right (List.mem_cons_of_mem part)
  rcases hor with rfl | hpart
  · exact hsep c hmem
  · exact hparts piece hpart c hmem

/-! ## Numbers -/

/-- The digits of a number are digits. -/
theorem isDigit_of_mem_ofNat {n : ℕ} {c : Char} (h : c ∈ ofNat n) : c.isDigit = true :=
  Nat.isDigit_of_mem_toDigits (by decide) (by decide) h

/-- A character that is no digit does not occur in a number. -/
theorem not_mem_ofNat {c : Char} (h : c.isDigit = false) (n : ℕ) : c ∉ ofNat n := by
  intro hc
  rw [isDigit_of_mem_ofNat hc] at h
  cases h

/-- A port that is printed is read back. -/
theorem parseU16_ofNat (port : UInt16) : parseU16 (ofNat port.toNat) = some port := by
  have hplus : stripPrefix (ofNat port.toNat) ['+'] = none := by
    rw [stripPrefix_eq_none]
    rintro ⟨rest, hrest⟩
    have hmem : '+' ∈ ofNat port.toNat := hrest ▸ List.mem_cons_self
    exact not_mem_ofNat (by decide) port.toNat hmem
  have hall : (ofNat port.toNat).all Char.isDigit = true :=
    List.all_eq_true.mpr fun _ => isDigit_of_mem_ofNat
  have hvalue : Nat.ofDigitChars 10 (ofNat port.toNat) 0 = port.toNat :=
    Nat.ofDigitChars_ten_toDigits
  have hne : (ofNat port.toNat).isEmpty = false :=
    List.isEmpty_eq_false_iff.mpr Nat.toDigits_ne_nil
  rw [parseU16, hplus, Option.getD_none, hne, hall, hvalue, if_neg (by decide),
    if_pos port.toNat_lt, UInt16.ofNat_toNat]

end Str
