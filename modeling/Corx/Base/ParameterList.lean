import Mathlib.Algebra.GroupWithZero.Nat
import Mathlib.Algebra.Order.BigOperators.Group.List
import Mathlib.Algebra.Order.Group.Nat
import Corx.Base.ListHeader

/-!
# Parameter lists

Header values that are lists of elements, each a list of parameters: elements between commas,
parameters between semicolons, a parameter a name, an equals sign, and a token or a quoted string.
Which characters make a token is left open. `parse` reads such a value; a separator in a quoted
string does not separate.

A value is written by putting names and raw values together. `parse_text_iff` says when what is
written is read back: a parameter that is written without quotes must be a token. That this is
needed is a matter of length, since a value that is read from quotes is shorter than its text
(`weight_le_of_parse`).
-/

namespace ParameterList

/-! ## Reading -/

/-- Where a reader stands: outside quoted strings, in one, or behind a backslash in one. -/
inductive Place
  | outside
  | quoted
  | escaped
  deriving DecidableEq

/-- Where a reader stands after a character. -/
def Place.next : Place → Char → Place
  | outside, c => if c = '"' then quoted else outside
  | quoted, c => if c = '"' then outside else if c = '\\' then escaped else quoted
  | escaped, _ => quoted

/-- Split at a separator outside quoted strings. -/
def splitFrom (sep : Char) : Place → Str → List Str
  | _, [] => [[]]
  | place, c :: s =>
    if place = .outside ∧ c = sep then [] :: splitFrom sep .outside s
    else (splitFrom sep (place.next c) s).modifyHead (c :: ·)

/-- The characters of a quoted string that stand for themselves. -/
def isQuotedText (c : Char) : Bool :=
  c.toNat = 9 || (32 ≤ c.toNat && c.toNat ≠ 127 && c ≠ '"' && c ≠ '\\')

/-- The characters that may stand behind a backslash in a quoted string. -/
def isQuotedPair (c : Char) : Bool :=
  c.toNat = 9 || (32 ≤ c.toNat && c.toNat ≠ 127)

/-- The content of a quoted string, read up to the closing quote, with nothing behind it. -/
def unquote : Str → Option Str
  | [] => none
  | ['"'] => some []
  | '\\' :: c :: s => if isQuotedPair c then (unquote s).map (c :: ·) else none
  | c :: s => if isQuotedText c then (unquote s).map (c :: ·) else none

variable (tokenChar : Char → Bool)

/-- A token: token characters, and at least one. -/
def isToken (s : Str) : Bool :=
  !s.isEmpty && s.all tokenChar

/-- A token or a quoted string. -/
def parseValue (s : Str) : Option Str :=
  if s.head? = some '"' then unquote s.tail else if isToken tokenChar s then some s else none

/-- A parameter: its name and its value. -/
def parsePair (s : Str) : Option (Str × Str) :=
  match Str.splitOnce ['='] s with
  | some (name, value) =>
    if isToken tokenChar name then (parseValue tokenChar value).map (name, ·) else none
  | none => none

/-- The parameters of an element; there may be nothing between two semicolons. -/
def parsePairs : List Str → Option (List (Str × Str))
  | [] => some []
  | piece :: pieces =>
    if piece.isEmpty then parsePairs pieces
    else (parsePair tokenChar piece).bind fun p => (parsePairs pieces).map (p :: ·)

/-- The elements of a list; there may be nothing between two commas. -/
def parseElements : List Str → Option (List (List (Str × Str)))
  | [] => some []
  | piece :: pieces =>
    if (Str.trimOws piece).isEmpty then parseElements pieces
    else (parsePairs tokenChar (splitFrom ';' .outside (Str.trimOws piece))).bind fun ps =>
      (parseElements pieces).map (ps :: ·)

/-- Read a list of elements. -/
def parse (s : Str) : Option (List (List (Str × Str))) :=
  parseElements tokenChar (splitFrom ',' .outside s)

/-! ## What is read is not longer than the text -/

/-- The characters that a parameter takes at least: its name, an equals sign and its value, which
has quotes around it where it is no token. -/
def weight (p : Str × Str) : ℕ :=
  p.1.length + 1 + p.2.length + if isToken tokenChar p.2 then 0 else 2

/-- The length of texts with a separator behind each. -/
def totalLength (pieces : List Str) : ℕ :=
  (pieces.map fun piece => piece.length + 1).sum

/-- Splitting yields a piece. -/
theorem splitFrom_ne_nil (sep : Char) (place : Place) (s : Str) : splitFrom sep place s ≠ [] := by
  induction s generalizing place with
  | nil => exact List.cons_ne_nil [] []
  | cons c s ih =>
    rw [splitFrom]
    split
    · exact List.cons_ne_nil _ _
    · cases hsplit : splitFrom sep (place.next c) s with
      | nil => exact absurd hsplit (ih _)
      | cons piece pieces => exact List.cons_ne_nil _ _

/-- The pieces and the separators between them are the text. -/
theorem totalLength_splitFrom (sep : Char) (place : Place) (s : Str) :
    totalLength (splitFrom sep place s) = s.length + 1 := by
  induction s generalizing place with
  | nil => rfl
  | cons c s ih =>
    rw [splitFrom, List.length_cons]
    split
    · rw [totalLength, List.map_cons, List.sum_cons, ← totalLength, ih, List.length_nil]
      omega
    · -- the character goes to the first piece
      have hrest := ih (place.next c)
      cases hsplit : splitFrom sep (place.next c) s with
      | nil => exact absurd hsplit (splitFrom_ne_nil sep _ s)
      | cons piece pieces =>
        rw [hsplit, totalLength, List.map_cons, List.sum_cons] at hrest
        rw [List.modifyHead_cons, totalLength, List.map_cons, List.sum_cons, List.length_cons]
        omega

/-- The content of a quoted string is shorter than the string. -/
theorem length_of_unquote {s value : Str} (h : unquote s = some value) :
    value.length + 1 ≤ s.length := by
  fun_induction unquote s generalizing value with
  | case1 => cases h
  | case2 =>
    obtain rfl := Option.some.inj h
    simp
  | case3 c s hc ih =>
    obtain ⟨rest, hrest, rfl⟩ := Option.map_eq_some_iff.mp h
    have hle := ih hrest
    simp only [List.length_cons]
    omega
  | case4 => cases h
  | case5 c s _ _ hc ih =>
    obtain ⟨rest, hrest, rfl⟩ := Option.map_eq_some_iff.mp h
    have hle := ih hrest
    simp only [List.length_cons]
    omega
  | case6 => cases h

variable {tokenChar}

/-- A parameter that is read takes the characters of its text at most. -/
theorem weight_le_of_parsePair {s : Str} {p : Str × Str} (h : parsePair tokenChar s = some p) :
    weight tokenChar p ≤ s.length := by
  unfold parsePair at h
  split at h
  next name value hsplit =>
    split at h
    next =>
      obtain ⟨v, hv, rfl⟩ := Option.map_eq_some_iff.mp h
      rw [Str.eq_of_splitOnce hsplit, weight, List.length_append, List.length_append,
        List.length_singleton]
      unfold parseValue at hv
      split at hv
      next hquote =>
        -- the quotes are not part of the value
        have hlength := length_of_unquote hv
        rw [List.length_tail] at hlength
        dsimp only
        split <;> omega
      next =>
        split at hv
        next htoken =>
          obtain rfl := Option.some.inj hv
          dsimp only
          rw [if_pos htoken]
          omega
        next => cases hv
    next => cases h
  next => cases h

/-- The parameters that are read take the characters of their texts at most. -/
theorem weight_le_of_parsePairs {pieces : List Str} {ps : List (Str × Str)}
    (h : parsePairs tokenChar pieces = some ps) :
    (ps.map fun p => weight tokenChar p + 1).sum ≤ totalLength pieces := by
  induction pieces generalizing ps with
  | nil =>
    obtain rfl := Option.some.inj h
    exact Nat.le_refl 0
  | cons piece pieces ih =>
    rw [totalLength, List.map_cons, List.sum_cons, ← totalLength]
    rw [parsePairs] at h
    split at h
    next => exact (ih h).trans (Nat.le_add_left _ _)
    next =>
      obtain ⟨p, hp, hrest⟩ := Option.bind_eq_some_iff.mp h
      obtain ⟨ps, hps, rfl⟩ := Option.map_eq_some_iff.mp hrest
      have hpair := weight_le_of_parsePair hp
      have hpairs := ih hps
      rw [List.map_cons, List.sum_cons]
      omega

/-- The elements that are read take the characters of their texts at most. -/
theorem weight_le_of_parseElements {pieces : List Str} {elements : List (List (Str × Str))}
    (h : parseElements tokenChar pieces = some elements) :
    (elements.map fun ps => (ps.map fun p => weight tokenChar p + 1).sum).sum ≤
      totalLength pieces := by
  induction pieces generalizing elements with
  | nil =>
    obtain rfl := Option.some.inj h
    exact Nat.le_refl 0
  | cons piece pieces ih =>
    rw [totalLength, List.map_cons, List.sum_cons, ← totalLength]
    rw [parseElements] at h
    split at h
    next => exact (ih h).trans (Nat.le_add_left _ _)
    next =>
      obtain ⟨ps, hps, hrest⟩ := Option.bind_eq_some_iff.mp h
      obtain ⟨elements, helements, rfl⟩ := Option.map_eq_some_iff.mp hrest
      have helement := weight_le_of_parsePairs hps
      have htrim := Str.length_trimOws_le piece
      have hothers := ih helements
      rw [totalLength_splitFrom] at helement
      rw [List.map_cons, List.sum_cons]
      omega

/-- The parameters of an element that is read by itself take the characters of the text at most. -/
theorem weight_le_of_parse {s : Str} {ps : List (Str × Str)}
    (h : parse tokenChar s = some [ps]) :
    (ps.map fun p => weight tokenChar p + 1).sum ≤ s.length + 1 := by
  have hle := weight_le_of_parseElements h
  rwa [List.map_singleton, List.sum_singleton, totalLength_splitFrom] at hle

/-! ## Writing -/

/-- A parameter as it is written: its name, the text behind the equals sign, and what that text
stands for. -/
structure Written where
  name : Str
  raw : Str
  value : Str

namespace Written

/-- The text of a parameter. -/
def text (p : Written) : Str :=
  p.name ++ '=' :: p.raw

/-- The parameter that is meant. -/
def param (p : Written) : Str × Str :=
  (p.name, p.value)

/-- The value stands in quotes, where it has to. -/
def IsQuoted (tokenChar : Char → Bool) (p : Written) : Prop :=
  p.raw = '"' :: (p.value ++ ['"']) ∧ (∀ c ∈ p.value, isQuotedText c = true) ∧
    isToken tokenChar p.value = false

/-- The name is a token, and the value is written as it is or in quotes. -/
structure Ok (tokenChar : Char → Bool) (p : Written) : Prop where
  name : isToken tokenChar p.name = true
  raw : p.raw = p.value ∨ p.IsQuoted tokenChar

end Written

/-- An element as it is written. -/
def elementText (ps : List Written) : Str :=
  Str.join [';'] (ps.map Written.text)

/-- Token characters are none of those that structure a list. -/
structure TokenChars (tokenChar : Char → Bool) : Prop where
  quote : tokenChar '"' = false
  comma : tokenChar ',' = false
  semicolon : tokenChar ';' = false
  equals : tokenChar '=' = false
  blank : tokenChar ' ' = false
  tab : tokenChar '\t' = false

/-- A text that is one piece wherever it stands: nothing in it separates, and it leaves the reader
outside quoted strings. -/
def Closed (sep : Char) (s : Str) : Prop :=
  ∀ rest, splitFrom sep .outside (s ++ rest) =
    (splitFrom sep .outside rest).modifyHead (s ++ ·)

/-- Texts that are one piece make one piece. -/
theorem Closed.append {sep : Char} {s t : Str} (hs : Closed sep s) (ht : Closed sep t) :
    Closed sep (s ++ t) := by
  intro rest
  rw [List.append_assoc, hs, ht, List.modifyHead_modifyHead]
  congr 1
  funext piece
  rw [Function.comp_apply, List.append_assoc]

/-- A text without quotes and separators is one piece. -/
theorem closed_of_forall {sep : Char} {s : Str} (h : ∀ c ∈ s, c ≠ '"' ∧ c ≠ sep) :
    Closed sep s := by
  intro rest
  induction s with
  | nil =>
    cases hsplit : splitFrom sep .outside rest with
    | nil => exact absurd hsplit (splitFrom_ne_nil sep _ rest)
    | cons piece pieces => rw [List.nil_append, hsplit]; rfl
  | cons c s ih =>
    obtain ⟨hquote, hsep⟩ := h c List.mem_cons_self
    have hnext : Place.outside.next c = .outside := if_neg hquote
    rw [List.cons_append, splitFrom, if_neg fun hc => hsep hc.2, hnext,
      ih fun d hd => h d (List.mem_cons_of_mem c hd), List.modifyHead_modifyHead]
    rfl

/-- A quoted string is one piece. -/
theorem closed_quoted {sep : Char} (hsep : sep ≠ '"') {s : Str}
    (h : ∀ c ∈ s, isQuotedText c = true) : Closed sep ('"' :: (s ++ ['"'])) := by
  -- inside the quotes no separator counts, up to the closing one
  have hbody : ∀ (s : Str), (∀ c ∈ s, isQuotedText c = true) → ∀ rest,
      splitFrom sep .quoted (s ++ '"' :: rest) =
        (splitFrom sep .outside rest).modifyHead (s ++ '"' :: ·) := by
    intro s hs rest
    induction s with
    | nil =>
      rw [List.nil_append, splitFrom, if_neg (fun hc => absurd hc.1 (by decide))]
      rfl
    | cons c s ih =>
      have hc := hs c List.mem_cons_self
      have hquote : c ≠ '"' := by
        rintro rfl
        exact absurd hc (by decide)
      have hescape : c ≠ '\\' := by
        rintro rfl
        exact absurd hc (by decide)
      have hnext : Place.quoted.next c = .quoted := by
        rw [Place.next, if_neg hquote, if_neg hescape]
      rw [List.cons_append, splitFrom, if_neg (fun hc => absurd hc.1 (by decide)), hnext,
        ih fun d hd => hs d (List.mem_cons_of_mem c hd), List.modifyHead_modifyHead]
      rfl
  intro rest
  have hshape : '"' :: (s ++ ['"']) ++ rest = '"' :: (s ++ '"' :: rest) := by simp
  have hopen : Place.outside.next '"' = .quoted := by decide
  rw [hshape, splitFrom, if_neg fun hc => hsep hc.2.symm, hopen, hbody s h,
    List.modifyHead_modifyHead]
  congr 1
  funext piece
  simp

/-- A text that is one piece is split into itself. -/
theorem Closed.splitFrom_eq {sep : Char} {s : Str} (h : Closed sep s) :
    splitFrom sep .outside s = [s] := by
  have hwhole := h []
  rwa [List.append_nil, splitFrom, List.modifyHead_cons, List.append_nil] at hwhole

/-- A text that is one piece is cut off in front of a separator. -/
theorem Closed.splitFrom_append {sep : Char} {s : Str} (h : Closed sep s) (rest : Str) :
    splitFrom sep .outside (s ++ sep :: rest) = s :: splitFrom sep .outside rest := by
  rw [h, splitFrom, if_pos ⟨rfl, rfl⟩, List.modifyHead_cons, List.append_nil]

/-- Pieces that are joined are split again. -/
theorem splitFrom_join {sep : Char} {parts : List Str} (hne : parts ≠ [])
    (h : ∀ part ∈ parts, Closed sep part) :
    splitFrom sep .outside (Str.join [sep] parts) = parts := by
  induction parts with
  | nil => exact absurd rfl hne
  | cons part parts ih =>
    cases parts with
    | nil =>
      have hone : Str.join [sep] [part] = part := by simp [Str.join]
      rw [hone, (h part List.mem_cons_self).splitFrom_eq]
    | cons next parts =>
      have hjoin : Str.join [sep] (part :: next :: parts) =
          part ++ sep :: Str.join [sep] (next :: parts) := by simp [Str.join]
      rw [hjoin, (h part List.mem_cons_self).splitFrom_append,
        ih (List.cons_ne_nil next parts) fun p hp => h p (List.mem_cons_of_mem part hp)]

/-- Joined pieces are one piece for another separator. -/
theorem closed_join {sep sep' : Char} (hsep : Closed sep [sep']) {parts : List Str}
    (h : ∀ part ∈ parts, Closed sep part) : Closed sep (Str.join [sep'] parts) := by
  induction parts with
  | nil => exact closed_of_forall (by simp [Str.join])
  | cons part parts ih =>
    cases parts with
    | nil => simpa [Str.join] using h part List.mem_cons_self
    | cons next parts =>
      have hjoin : Str.join [sep'] (part :: next :: parts) =
          part ++ ([sep'] ++ Str.join [sep'] (next :: parts)) := by simp [Str.join]
      rw [hjoin]
      exact (h part List.mem_cons_self).append
        (hsep.append (ih fun p hp => h p (List.mem_cons_of_mem part hp)))

/-! ## Reading what is written -/

section ReadBack

variable {ps : List Written} {p : Written}

/-- A character that is none of a token's does not occur in a token. -/
theorem not_mem_of_isToken {s : Str} (h : isToken tokenChar s = true) {c : Char}
    (hc : tokenChar c = false) : c ∉ s := by
  intro hmem
  have hall := List.all_eq_true.mp (Bool.and_eq_true_iff.mp h).2 c hmem
  rw [hc] at hall
  cases hall

/-- A token is not empty. -/
theorem ne_nil_of_isToken {s : Str} (h : isToken tokenChar s = true) : s ≠ [] := by
  rintro rfl
  cases h

/-- The content of a quoted string is read back. -/
theorem unquote_append {s : Str} (h : ∀ c ∈ s, isQuotedText c = true) :
    unquote (s ++ ['"']) = some s := by
  induction s with
  | nil => rfl
  | cons c s ih =>
    have hc := h c List.mem_cons_self
    have hrest := ih fun d hd => h d (List.mem_cons_of_mem c hd)
    rw [List.cons_append, unquote.eq_def]
    split
    next heq => cases heq
    next heq =>
      -- the closing quote comes after the content
      obtain ⟨-, hnil⟩ := List.cons.inj heq
      exact absurd hnil (by simp)
    next heq =>
      obtain ⟨rfl, -⟩ := List.cons.inj heq
      exact absurd hc (by decide)
    next heq =>
      obtain ⟨rfl, rfl⟩ := List.cons.inj heq
      rw [if_pos hc, hrest]
      rfl

/-- A parameter whose value is a token, or quoted, is read back. -/
theorem parsePair_text (chars : TokenChars tokenChar) (hok : p.Ok tokenChar)
    (htoken : p.raw = p.value → isToken tokenChar p.value = true) :
    parsePair tokenChar p.text = some p.param := by
  have hsplit : Str.splitOnce ['='] p.text = some (p.name, p.raw) :=
    Str.splitOnce_of_not_mem (not_mem_of_isToken hok.name chars.equals) p.raw
  have hvalue : parseValue tokenChar p.raw = some p.value := by
    rcases hok.raw with hplain | ⟨hquoted, hcontent, -⟩
    · have hfirst : ¬ p.value.head? = some '"' := fun hhead =>
        not_mem_of_isToken (htoken hplain) chars.quote (List.mem_of_head? hhead)
      rw [hplain, parseValue, if_neg hfirst, if_pos (htoken hplain)]
    · rw [hquoted, parseValue, if_pos (by rw [List.head?_cons]), List.tail_cons,
        unquote_append hcontent]
  rw [parsePair, hsplit]
  dsimp only
  rw [if_pos hok.name, hvalue]
  rfl

/-- A parameter that is read back is one piece. -/
theorem closed_text (chars : TokenChars tokenChar) {sep : Char} (hsep : tokenChar sep = false)
    (hquote : sep ≠ '"') (hequals : sep ≠ '=') (hok : p.Ok tokenChar)
    (htoken : p.raw = p.value → isToken tokenChar p.value = true) : Closed sep p.text := by
  have hplain : ∀ {s : Str}, isToken tokenChar s = true → Closed sep s := by
    intro s hs
    refine closed_of_forall fun c hc => ⟨?_, ?_⟩
    · rintro rfl
      exact not_mem_of_isToken hs chars.quote hc
    · rintro rfl
      exact not_mem_of_isToken hs hsep hc
  have hshape : p.text = p.name ++ (['='] ++ p.raw) := rfl
  have hequal : Closed sep ['='] := by
    refine closed_of_forall fun c hc => ?_
    obtain rfl := List.mem_singleton.mp hc
    exact ⟨by decide, hequals.symm⟩
  rw [hshape]
  refine (hplain hok.name).append (hequal.append ?_)
  rcases hok.raw with hraw | ⟨hraw, hcontent, -⟩
  · rw [hraw]
    exact hplain (htoken hraw)
  · rw [hraw]
    exact closed_quoted hquote hcontent

/-- The parameters are read back from their texts. -/
theorem parsePairs_text (chars : TokenChars tokenChar) (hok : ∀ p ∈ ps, p.Ok tokenChar)
    (htoken : ∀ p ∈ ps, p.raw = p.value → isToken tokenChar p.value = true) :
    parsePairs tokenChar (ps.map Written.text) = some (ps.map Written.param) := by
  induction ps with
  | nil => rfl
  | cons p ps ih =>
    have hne : p.text.isEmpty = false := by simp [Written.text]
    rw [List.map_cons, parsePairs, hne, if_neg (by decide),
      parsePair_text chars (hok p List.mem_cons_self) (htoken p List.mem_cons_self),
      Option.bind_some, ih (fun q hq => hok q (List.mem_cons_of_mem p hq))
        fun q hq => htoken q (List.mem_cons_of_mem p hq)]
    rfl

/-- The length of joined texts. -/
theorem length_join {sep : Char} {parts : List Str} (hne : parts ≠ []) :
    (Str.join [sep] parts).length + 1 = totalLength parts := by
  induction parts with
  | nil => exact absurd rfl hne
  | cons part parts ih =>
    cases parts with
    | nil => simp [Str.join, totalLength]
    | cons next parts =>
      have hjoin : Str.join [sep] (part :: next :: parts) =
          part ++ sep :: Str.join [sep] (next :: parts) := by simp [Str.join]
      have hrest := ih (List.cons_ne_nil next parts)
      rw [totalLength, List.map_cons, List.sum_cons, ← totalLength, ← hrest, hjoin,
        List.length_append, List.length_cons]
      omega

/-- Token characters are no optional white space. -/
theorem TokenChars.isOws_eq_false (chars : TokenChars tokenChar) {c : Char}
    (hc : tokenChar c = true) : Str.isOws c = false := by
  rw [Str.isOws, Bool.or_eq_false_iff, decide_eq_false_iff_not, decide_eq_false_iff_not]
  refine ⟨?_, ?_⟩
  · rintro rfl
    rw [chars.blank] at hc
    cases hc
  · rintro rfl
    rw [chars.tab] at hc
    cases hc

/-- An element ends in a character of a token, or in a quote. -/
theorem exists_elementText_eq_concat (chars : TokenChars tokenChar) (hne : ps ≠ [])
    (hok : ∀ p ∈ ps, p.Ok tokenChar)
    (htoken : ∀ p ∈ ps, p.raw = p.value → isToken tokenChar p.value = true) :
    ∃ front last, elementText ps = front ++ [last] ∧ Str.isOws last = false := by
  induction ps with
  | nil => exact absurd rfl hne
  | cons p ps ih =>
    cases ps with
    | nil =>
      have hone : elementText [p] = p.text := by simp [elementText, Str.join]
      rw [hone, Written.text]
      rcases (hok p List.mem_cons_self).raw with hraw | ⟨hraw, -, -⟩
      · have hvalue := htoken p List.mem_cons_self hraw
        obtain ⟨front, last, hlast⟩ := (List.eq_nil_or_concat' p.value).resolve_left
          (ne_nil_of_isToken hvalue)
        refine ⟨p.name ++ '=' :: front, last, by rw [hraw, hlast]; simp, ?_⟩
        refine chars.isOws_eq_false (List.all_eq_true.mp (Bool.and_eq_true_iff.mp hvalue).2 last ?_)
        rw [hlast]
        exact List.mem_append_right front (List.mem_singleton_self last)
      · exact ⟨p.name ++ '=' :: '"' :: p.value, '"', by rw [hraw]; simp, by decide⟩
    | cons q ps =>
      obtain ⟨front, last, hlast, hows⟩ := ih (List.cons_ne_nil q ps)
        (fun r hr => hok r (List.mem_cons_of_mem p hr))
        fun r hr => htoken r (List.mem_cons_of_mem p hr)
      have hjoin : elementText (p :: q :: ps) = p.text ++ ';' :: elementText (q :: ps) := by
        simp [elementText, Str.join]
      exact ⟨p.text ++ ';' :: front, last, by rw [hjoin, hlast]; simp, hows⟩

/-- An element begins with its first name. -/
theorem head?_elementText (hname : isToken tokenChar p.name = true) :
    (elementText (p :: ps)).head? = p.name.head? := by
  obtain ⟨c, name, hcons⟩ := List.exists_cons_of_ne_nil (ne_nil_of_isToken hname)
  cases ps <;> simp [elementText, Str.join, Written.text, hcons]

/-- An element has no optional white space at its ends. -/
theorem trimOws_elementText (chars : TokenChars tokenChar) (hne : ps ≠ [])
    (hok : ∀ p ∈ ps, p.Ok tokenChar)
    (htoken : ∀ p ∈ ps, p.raw = p.value → isToken tokenChar p.value = true) :
    Str.trimOws (elementText ps) = elementText ps := by
  obtain ⟨front, last, hlast, hows⟩ := exists_elementText_eq_concat chars hne hok htoken
  obtain ⟨p, ps, rfl⟩ := List.exists_cons_of_ne_nil hne
  have hname := (hok p List.mem_cons_self).name
  refine Str.trimOws_eq_self (fun c hc => ?_) fun c hc => ?_
  · rw [head?_elementText hname] at hc
    exact chars.isOws_eq_false (List.all_eq_true.mp (Bool.and_eq_true_iff.mp hname).2 c
      (List.mem_of_head? hc))
  · rw [hlast, List.getLast?_concat] at hc
    obtain rfl := Option.some.inj hc
    exact hows

/-- The length of the text of a parameter. -/
theorem length_text (p : Written) : p.text.length = p.name.length + 1 + p.raw.length := by
  rw [Written.text, List.length_append, List.length_cons]
  omega

/-- The characters that a parameter takes at least. -/
theorem weight_param (p : Written) :
    weight tokenChar p.param =
      p.name.length + 1 + p.value.length + if isToken tokenChar p.value then 0 else 2 :=
  rfl

/-- No parameter is written in more characters than it takes. -/
theorem length_text_le_weight (hok : p.Ok tokenChar) :
    p.text.length ≤ weight tokenChar p.param := by
  rw [length_text, weight_param]
  rcases hok.raw with hplain | ⟨hquoted, -, hnot⟩
  · rw [hplain]
    omega
  · rw [hquoted, if_neg (by rw [hnot]; decide), List.length_cons, List.length_append,
      List.length_singleton]
    omega

/-- A value that is no token is written in fewer characters than it takes, without quotes. -/
theorem length_text_lt_weight (hraw : p.raw = p.value)
    (hnot : ¬ isToken tokenChar p.value = true) : p.text.length < weight tokenChar p.param := by
  rw [length_text, weight_param, hraw, if_neg hnot]
  omega

/-- An element is read back, as the only one, exactly if every value that is written without quotes
is a token. -/
theorem parse_text_iff (chars : TokenChars tokenChar) (hne : ps ≠ [])
    (hok : ∀ p ∈ ps, p.Ok tokenChar) :
    parse tokenChar (elementText ps) = some [ps.map Written.param] ↔
      ∀ p ∈ ps, p.raw = p.value → isToken tokenChar p.value = true := by
  constructor
  · intro h p hp hraw
    by_contra htoken
    -- what is read takes more characters than there are
    have hle := weight_le_of_parse h
    rw [elementText, length_join (by simpa using hne), totalLength, List.map_map,
      List.map_map] at hle
    refine absurd hle (Nat.not_le.mpr (List.sum_lt_sum _ _ (fun q hq => ?_) ⟨p, hp, ?_⟩))
    · exact Nat.succ_le_succ (length_text_le_weight (hok q hq))
    · exact Nat.succ_lt_succ (length_text_lt_weight hraw htoken)
  · intro htoken
    have hcomma : Closed ',' (elementText ps) := by
      refine closed_join (closed_of_forall ?_) fun text htext => ?_
      · intro c hc
        obtain rfl := List.mem_singleton.mp hc
        exact ⟨by decide, by decide⟩
      · obtain ⟨p, hp, rfl⟩ := List.mem_map.mp htext
        exact closed_text chars chars.comma (by decide) (by decide) (hok p hp) (htoken p hp)
    have hsemicolon : splitFrom ';' .outside (elementText ps) = ps.map Written.text := by
      refine splitFrom_join (by simpa using hne) fun text htext => ?_
      obtain ⟨p, hp, rfl⟩ := List.mem_map.mp htext
      exact closed_text chars chars.semicolon (by decide) (by decide) (hok p hp) (htoken p hp)
    have hnonempty : (elementText ps).isEmpty = false := by
      obtain ⟨front, last, hlast, -⟩ := exists_elementText_eq_concat chars hne hok htoken
      rw [hlast]
      simp
    rw [parse, hcomma.splitFrom_eq, parseElements, trimOws_elementText chars hne hok htoken,
      hnonempty, if_neg (by decide), hsemicolon, parsePairs_text chars hok htoken,
      Option.bind_some]
    rfl

end ReadBack

end ParameterList
