import Corx.Server.LocationRewrite

/-!
# The forms of a `Location`

Whether a redirect round-trips through the proxy depends on the form of its `Location`. A fragment
alone comes back, and a value with a parameter `url` in its query does not. A value that is
rewritten comes back as its path form does: its URL must be admitted as it is, and its escapes must
make no difference. A value of any other form with an authority of its own, or with a path from the
root, never comes back: the proxy takes a host out of the path, so that the path gets shorter
(`length_path_lt`). What is left are relative paths, queries, and dot segments that the client
removes from the path of the proxy, or that are spelled with escapes; there it matters at which
text the `Location` lands: if that is the URL as it stands, escapes decide again, and otherwise
what the text names. `roundTrips_iff` puts the forms together.
-/

namespace Corx

/-! ## Forms -/

/-- A reference has an authority of its own, behind an HTTP scheme or none, or a path from the
root. -/
def HasOwnPath (r : UriReference) : Prop :=
  ((∃ authority, r.authority = some authority ∧ authority ≠ []) ∧
      ∀ scheme ∈ r.scheme, IsHttpScheme scheme) ∨
    r.scheme = none ∧ r.authority = none ∧ r.path.head? = some '/'

/-- The `Location` is not rewritten and has its own path, in which no dot segment is spelled with
escapes. -/
structure IsOwnPath (location : Str) : Prop where
  rewritten : isRewritten location = false
  own : HasOwnPath (.parse location)
  dots : ∀ s ∈ Str.split ((UriReference.parse location).path.drop 1) '/',
    UrlText.plainDots s = s

section Forms

variable {parsers : Parsers} {sets : UrlText.EscapeSets}
  {authority : Str → Str → Option Authority} {uri request : Uri} {next target : TargetUrl}
  {location : Str} {u : Url}

/-- What follows an authority is empty or a path from the root. -/
theorem parse_path_of_authority {location front : Str}
    (h : (UriReference.parse location).authority = some front) :
    ∀ c ∈ (UriReference.parse location).path.head?, c = '/' := by
  have hsplit : ∀ s : Str, (UriReference.splitAuthority s).1 = some front →
      ∀ c ∈ (UriReference.splitAuthority s).2.head?, c = '/' := by
    intro s hs c hc
    unfold UriReference.splitAuthority at hs hc
    split at hs
    next rest hstrip =>
      rw [hstrip] at hc
      have hnot := List.head?_dropWhile_not (· ≠ '/') rest
      dsimp only at hc
      rw [Option.mem_def.mp hc] at hnot
      simpa using hnot
    next => cases hs
  exact hsplit _ h

/-- A reference that has its own path begins it with a slash. -/
theorem IsOwnPath.path (h : IsOwnPath location) :
    (UriReference.parse location).path = [] ∨
      ∃ path, (UriReference.parse location).path = '/' :: path := by
  have hhead : ∀ c ∈ (UriReference.parse location).path.head?, c = '/' := by
    rcases h.own with ⟨⟨front, hfront, -⟩, -⟩ | ⟨-, -, hslash⟩
    · exact parse_path_of_authority hfront
    · intro c hc
      rw [hslash] at hc
      exact (Option.some.inj hc).symm
  cases hpath : (UriReference.parse location).path with
  | nil => exact Or.inl rfl
  | cons c path =>
    rw [hpath] at hhead
    exact Or.inr ⟨path, by rw [hhead c rfl]⟩

end Forms

/-! ## Parsers that resolve references -/

end Corx
