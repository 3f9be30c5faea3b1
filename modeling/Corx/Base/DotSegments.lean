import Corx.Base.UriReference

/-!
# Dot segments of a URL

In a URL the dots of a dot segment may be spelled with escapes. A path never gets longer when its
dot segments are removed (`length_removeDots_le`), and keeps its length only if there are none
(`removeDots_of_length`).
-/

namespace UrlText

open Str

/-- A dot segment, be its dots escaped or not, without escapes. -/
def plainDots (segment : Str) : Str :=
  if segment.toAsciiLowercase = "%2e".toList then ['.']
  else if segment.toAsciiLowercase ∈ [".%2e".toList, "%2e.".toList, "%2e%2e".toList] then
    ['.', '.']
  else segment

/-- Remove the dot segments of a path, given without its first slash. -/
def removeDots (s : Str) : Str :=
  (UriReference.moveSegments [] ((split s '/').map plainDots)).reverse.flatten

/-- The path has a dot segment. -/
def HasDotSegment (s : Str) : Prop :=
  ∃ segment ∈ split s '/', UriReference.IsDot (plainDots segment)

variable {s : Str}

/-- What is no dot segment is left as it is. -/
theorem plainDots_of_not_isDot {segment : Str} (h : ¬ UriReference.IsDot (plainDots segment)) :
    plainDots segment = segment := by
  rw [plainDots] at h ⊢
  split_ifs at h ⊢
  · exact absurd (Or.inl rfl) h
  · exact absurd (Or.inr rfl) h
  · rfl

/-- Where no dots are spelled with escapes, the dot segments are those of a URI reference. -/
theorem removeDots_eq_removeDotSegments (h : ∀ segment ∈ split s '/', plainDots segment = segment) :
    removeDots s = UriReference.removeDotSegments ('/' :: s) := by
  have hplain : (split s '/').map plainDots = split s '/' := by
    conv_rhs => rw [← List.map_id (split s '/')]
    exact List.map_congr_left h
  rw [removeDots, hplain, UriReference.removeDotSegments]

/-- Without dot segments a path is left as it is. -/
theorem removeDots_of_not (h : ¬ HasDotSegment s) : removeDots s = '/' :: s := by
  have hnot : ∀ segment ∈ split s '/', ¬ UriReference.IsDot (plainDots segment) :=
    fun segment hsegment hdot => h ⟨segment, hsegment, hdot⟩
  have hplain : ∀ segment ∈ split s '/', plainDots segment = segment :=
    fun segment hsegment => plainDots_of_not_isDot (hnot segment hsegment)
  rw [removeDots_eq_removeDotSegments hplain]
  refine UriReference.removeDotSegments_of_not_isDot fun segment hsegment => ?_
  rw [← hplain segment hsegment]
  exact hnot segment hsegment

/-! ## The length without dot segments -/

/-- All but the last segment are not longer than all. -/
theorem length_flatten_tail_le (out : List Str) :
    out.tail.flatten.length ≤ out.flatten.length := by
  cases out with
  | nil => exact Nat.le_refl _
  | cons last out =>
    rw [List.tail_cons, List.flatten_cons, List.length_append]
    exact Nat.le_add_left _ _

/-- In the place of a dot segment at the end there is a slash, and elsewhere nothing. -/
theorem length_flatten_slash_le (atEnd : Bool) (out : List Str) :
    (if atEnd then ['/'] :: out else out).flatten.length ≤ out.flatten.length + 1 := by
  cases atEnd with
  | false => exact Nat.le_succ _
  | true =>
    rw [if_pos rfl, List.flatten_cons, List.length_append, List.length_singleton]
    omega

/-- Segments are moved to no more than they are behind slashes. -/
theorem length_moveSegments_le (out segments : List Str) :
    (UriReference.moveSegments out segments).flatten.length ≤
      out.flatten.length + (segments.map ('/' :: ·)).flatten.length := by
  induction segments generalizing out with
  | nil => exact Nat.le_refl _
  | cons segment rest ih =>
    have htail := length_flatten_tail_le out
    rw [UriReference.moveSegments, List.map_cons, List.flatten_cons, List.length_append,
      List.length_cons]
    split
    next =>
      have hslash := length_flatten_slash_le rest.isEmpty out
      exact (ih _).trans (by omega)
    next =>
      split
      next =>
        -- the segment before it goes, too
        have hslash := length_flatten_slash_le rest.isEmpty out.tail
        exact (ih _).trans (by omega)
      next =>
        refine (ih _).trans ?_
        rw [List.flatten_cons, List.length_append, List.length_cons]
        omega

/-- Where there is a dot segment, something is lost. -/
theorem length_moveSegments_lt {segments : List Str} (h : ∃ s ∈ segments, UriReference.IsDot s)
    (out : List Str) :
    (UriReference.moveSegments out segments).flatten.length <
      out.flatten.length + (segments.map ('/' :: ·)).flatten.length := by
  induction segments generalizing out with
  | nil =>
    obtain ⟨s, hs, -⟩ := h
    cases hs
  | cons segment rest ih =>
    have htail := length_flatten_tail_le out
    rw [UriReference.moveSegments, List.map_cons, List.flatten_cons, List.length_append,
      List.length_cons]
    split
    next hone =>
      -- of the slash and the dot no more than a slash is left
      have hslash := length_flatten_slash_le rest.isEmpty out
      refine (length_moveSegments_le _ rest).trans_lt ?_
      rw [hone, List.length_singleton]
      omega
    next hone =>
      split
      next htwo =>
        have hslash := length_flatten_slash_le rest.isEmpty out.tail
        refine (length_moveSegments_le _ rest).trans_lt ?_
        rw [htwo, List.length_cons, List.length_singleton]
        omega
      next htwo =>
        -- the dot segment is one of the rest
        obtain ⟨s, hs, hdot⟩ := h
        rcases List.mem_cons.mp hs with rfl | hs
        · exact (hdot.elim hone htwo).elim
        · refine (ih ⟨s, hs, hdot⟩ _).trans_le ?_
          rw [List.flatten_cons, List.length_append, List.length_cons]
          omega

/-- Dots without escapes are not longer. -/
theorem length_plainDots_le (segment : Str) : (plainDots segment).length ≤ segment.length := by
  have hlength : ∀ text : Str, segment.toAsciiLowercase = text → text.length = segment.length := by
    rintro text rfl
    exact List.length_map _
  rw [plainDots]
  split_ifs with hone htwo
  · have := hlength _ hone
    simp at this ⊢
    omega
  · simp only [List.mem_cons, List.not_mem_nil, or_false] at htwo
    rcases htwo with h | h | h <;>
    · have := hlength _ h
      simp at this ⊢
      omega
  · exact Nat.le_refl _

/-- The segments of a path behind slashes, with plain dots, are not longer than the path behind a
slash. -/
theorem length_plainDots_split_le (s : Str) :
    (((split s '/').map plainDots).map ('/' :: ·)).flatten.length ≤ s.length + 1 := by
  have hplain : ∀ segments : List Str, ((segments.map plainDots).map ('/' :: ·)).flatten.length ≤
      (segments.map ('/' :: ·)).flatten.length := by
    intro segments
    induction segments with
    | nil => exact Nat.le_refl _
    | cons segment rest ih =>
      have hle := length_plainDots_le segment
      simp only [List.map_cons, List.flatten_cons, List.length_append, List.length_cons]
      omega
  have hle := hplain (split s '/')
  rw [UriReference.flatten_map_split] at hle
  exact hle

/-- The order of the pieces makes no difference to the length. -/
theorem length_removeDots (s : Str) :
    (removeDots s).length =
      (UriReference.moveSegments [] ((split s '/').map plainDots)).flatten.length := by
  rw [removeDots, List.length_flatten, List.length_flatten, List.map_reverse, List.sum_reverse]

/-- A path does not get longer when its dot segments are removed. -/
theorem length_removeDots_le (s : Str) : (removeDots s).length ≤ s.length + 1 := by
  have hmoved := length_moveSegments_le [] ((split s '/').map plainDots)
  rw [length_removeDots]
  rw [List.flatten_nil, List.length_nil, Nat.zero_add] at hmoved
  exact hmoved.trans (length_plainDots_split_le s)

/-- A path that keeps its length has no dot segments. -/
theorem removeDots_of_length (h : s.length + 1 ≤ (removeDots s).length) :
    removeDots s = '/' :: s := by
  refine removeDots_of_not fun hdot => ?_
  obtain ⟨segment, hsegment, hdot⟩ := hdot
  have hmoved := length_moveSegments_lt ⟨plainDots segment, List.mem_map_of_mem hsegment, hdot⟩ []
  have hplain := length_plainDots_split_le s
  rw [length_removeDots] at h
  rw [List.flatten_nil, List.length_nil, Nat.zero_add] at hmoved
  omega

end UrlText
