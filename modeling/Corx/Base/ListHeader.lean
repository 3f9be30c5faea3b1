import Corx.Base.Text

/-!
# Comma-separated lists

The elements of a list header, RFC 7230 section 7: the pieces between commas, without the white
space around them; a recipient ignores empty ones. A list that is extended behind a comma keeps
its elements, and gets the new ones behind them (`listElements_append`).
-/

namespace Str

/-- Optional white space: a blank or a tab. -/
def isOws (c : Char) : Bool :=
  c = ' ' || c = '\t'

/-- A text without the optional white space around it. -/
def trimOws (s : Str) : Str :=
  ((s.dropWhile isOws).reverse.dropWhile isOws).reverse

/-- The elements of a comma-separated list. -/
def listElements (s : Str) : List Str :=
  ((split s ',').map trim).filter fun element => !element.isEmpty

/-- White space in front of a text is trimmed. -/
theorem trim_cons {c : Char} (hc : isWhitespace c = true) (s : Str) : trim (c :: s) = trim s := by
  rw [trim, List.dropWhile_cons_of_pos hc, trim]

/-- A text without white space needs no trimming. -/
theorem trim_of_no_whitespace {s : Str} (h : ∀ c ∈ s, isWhitespace c = false) : trim s = s := by
  have hdrop : ∀ t : Str, (∀ c ∈ t, isWhitespace c = false) → t.dropWhile isWhitespace = t := by
    intro t ht
    cases t with
    | nil => rfl
    | cons c t => rw [List.dropWhile_cons_of_neg (by simp [ht c List.mem_cons_self])]
  rw [trim, hdrop s h, hdrop s.reverse fun c hc => h c (List.mem_reverse.mp hc),
    List.reverse_reverse]

/-- A text with no optional white space at its ends needs no trimming. -/
theorem trimOws_eq_self {s : Str} (hfirst : ∀ c ∈ s.head?, isOws c = false)
    (hlast : ∀ c ∈ s.getLast?, isOws c = false) : trimOws s = s := by
  have hdrop : ∀ t : Str, (∀ c ∈ t.head?, isOws c = false) → t.dropWhile isOws = t := by
    intro t ht
    cases t with
    | nil => rfl
    | cons c t => rw [List.dropWhile_cons_of_neg (by simp [ht c rfl])]
  rw [trimOws, hdrop s hfirst, hdrop s.reverse (by rwa [List.head?_reverse]),
    List.reverse_reverse]

/-- Trimming makes no text longer. -/
theorem length_trimOws_le (s : Str) : (trimOws s).length ≤ s.length := by
  rw [trimOws, List.length_reverse]
  refine (List.dropWhile_sublist isOws).length_le.trans ?_
  rw [List.length_reverse]
  exact (List.dropWhile_sublist isOws).length_le

/-- The pieces of two texts with the separator between them are those of both. -/
theorem split_append_cons (s t : Str) (c : Char) : split (s ++ c :: t) c = split s c ++ split t c :=
  List.splitOn_append_cons_self s t

/-- The elements of a list that is extended behind a comma. -/
theorem listElements_append_cons (s t : Str) :
    listElements (s ++ ',' :: t) = listElements s ++ listElements t := by
  rw [listElements, split_append_cons, List.map_append, List.filter_append]
  rfl

/-- White space in front of a list does not count. -/
theorem listElements_cons {c : Char} (hc : isWhitespace c = true) (s : Str) :
    listElements (c :: s) = listElements s := by
  have hcomma : c ≠ ',' := by
    rintro rfl
    exact absurd hc (by decide)
  -- the white space belongs to the first piece
  obtain ⟨piece, pieces, hs, hcons⟩ := exists_split_cons hcomma s
  rw [listElements, hcons, listElements, hs, List.map_cons, List.map_cons, trim_cons hc]

/-- The elements of two lists, written behind each other with a comma and a blank. -/
theorem listElements_append (s t : Str) :
    listElements (s ++ ", ".toList ++ t) = listElements s ++ listElements t := by
  have hshape : s ++ ", ".toList ++ t = s ++ ',' :: ' ' :: t := by simp
  rw [hshape, listElements_append_cons, listElements_cons (by decide)]

/-- A text without commas and white space is its only element. -/
theorem listElements_singleton {s : Str} (hne : s ≠ []) (hcomma : ',' ∉ s)
    (hspace : ∀ c ∈ s, isWhitespace c = false) : listElements s = [s] := by
  rw [listElements, split, List.splitOn_eq_singleton hcomma, List.map_singleton,
    trim_of_no_whitespace hspace, List.filter_singleton, List.isEmpty_eq_false_iff.mpr hne]
  rfl

/-- A list has an element equal to a text up to ASCII case exactly if one of its pieces, trimmed,
is. -/
theorem any_split_iff {s value : Str} (hne : value ≠ []) :
    ((split s ',').any fun piece => eqIgnoreAsciiCase (trim piece) value) = true ↔
      ∃ element ∈ listElements s, toAsciiLowercase element = toAsciiLowercase value := by
  simp only [List.any_eq_true, eqIgnoreAsciiCase_iff, listElements, List.mem_filter, List.mem_map]
  constructor
  · rintro ⟨piece, hmem, hequal⟩
    -- the value is not empty, so the piece is not either
    have hpiece : trim piece ≠ [] := by
      intro hnil
      rw [hnil] at hequal
      exact hne (List.map_eq_nil_iff.mp hequal.symm)
    exact ⟨trim piece, ⟨⟨piece, hmem, rfl⟩, by simpa using hpiece⟩, hequal⟩
  · rintro ⟨_, ⟨⟨piece, hmem, rfl⟩, -⟩, hequal⟩
    exact ⟨piece, hmem, hequal⟩

end Str
