import Corx.Base.Text

/-!
# URI references

The components of a URI reference and its resolution against a base URI, RFC 3986: a reference
is read by the expression of appendix B, dot segments are removed by the loop of section 5.2.4,
and `resolve` is the strict transformation of section 5.2.2.
-/

/-- A URI reference, by its components. -/
structure UriReference where
  scheme : Option Str
  authority : Option Str
  path : Str
  query : Option Str
  fragment : Option Str
  deriving DecidableEq, Repr

namespace UriReference

/-! ## Reading a reference -/

/-- Split a fragment off. -/
def splitFragment (s : Str) : Str × Option Str :=
  (s.takeWhile (· ≠ '#'), (s.dropWhile (· ≠ '#')).tail?)

/-- Split a query off. -/
def splitQuery (s : Str) : Str × Option Str :=
  match Str.splitOnce ['?'] s with
  | some (path, query) => (path, some query)
  | none => (s, none)

/-- Split off a scheme: text in front of a colon, with no slash before it. -/
def splitScheme (s : Str) : Option Str × Str :=
  match Str.splitOnce [':'] s with
  | some (scheme, rest) => if scheme = [] ∨ '/' ∈ scheme then (none, s) else (some scheme, rest)
  | none => (none, s)

/-- Split off an authority: what follows two slashes, up to the path. -/
def splitAuthority (s : Str) : Option Str × Str :=
  match Str.stripPrefix s "//" with
  | some rest => (some (rest.takeWhile (· ≠ '/')), rest.dropWhile (· ≠ '/'))
  | none => (none, s)

/-- The components of a reference. -/
def parse (s : Str) : UriReference :=
  let (s, fragment) := splitFragment s
  let (s, query) := splitQuery s
  let (scheme, s) := splitScheme s
  let (authority, path) := splitAuthority s
  { scheme, authority, path, query, fragment }

/-- The segments `.` and `..`. -/
def IsDot (segment : Str) : Prop :=
  segment = ['.'] ∨ segment = ['.', '.']

instance : DecidablePred IsDot := fun _ => inferInstanceAs (Decidable (_ ∨ _))

/-- Move segments, each behind a slash, to the output `out`, which has its last segment in
front. -/
def moveSegments (out : List Str) : List Str → List Str
  | [] => out
  | segment :: rest =>
    if segment = ['.'] then moveSegments (if rest.isEmpty then ['/'] :: out else out) rest
    else if segment = ['.', '.'] then
      moveSegments (if rest.isEmpty then ['/'] :: out.tail else out.tail) rest
    else moveSegments (('/' :: segment) :: out) rest

/-- Remove the dot segments of a path. -/
def removeDotSegments (path : Str) : Str :=
  match path with
  | '/' :: rest => (moveSegments [] (Str.split rest '/')).reverse.flatten
  | _ =>
    -- the first segment of a rootless path is not behind a slash
    match (Str.split path '/').dropWhile fun segment => IsDot segment with
    | [] => []
    | segment :: rest => (moveSegments [segment] rest).reverse.flatten

/-- Segments other than `.` and `..` are moved as they are. -/
theorem moveSegments_of_not_isDot {segments : List Str} (h : ∀ s ∈ segments, ¬ IsDot s)
    (out : List Str) :
    moveSegments out segments = (segments.map ('/' :: ·)).reverse ++ out := by
  induction segments generalizing out with
  | nil => rfl
  | cons segment rest ih =>
    obtain ⟨hone, htwo⟩ := not_or.mp (h segment List.mem_cons_self)
    rw [moveSegments, if_neg hone, if_neg htwo, ih fun s hs => h s (List.mem_cons_of_mem _ hs),
      List.map_cons, List.reverse_cons, List.append_assoc, List.singleton_append]

/-- Segments each behind a slash are segments with slashes between them, behind a slash. -/
theorem flatten_map_slash {segments : List Str} (h : segments ≠ []) :
    (segments.map ('/' :: ·)).flatten = '/' :: ['/'].intercalate segments := by
  induction segments with
  | nil => exact absurd rfl h
  | cons segment rest ih =>
    cases rest with
    | nil => simp
    | cons next rest =>
      rw [List.map_cons, List.flatten_cons, ih (List.cons_ne_nil next rest),
        List.intercalate_cons_cons]
      simp

/-- The segments of a path, each behind a slash, are the path behind a slash. -/
theorem flatten_map_split (path : Str) :
    ((Str.split path '/').map ('/' :: ·)).flatten = '/' :: path := by
  rw [Str.split, flatten_map_slash (List.splitOn_ne_nil '/' path), List.intercalate_splitOn]

/-- A path without dot segments stays as it is. -/
theorem removeDotSegments_of_not_isDot {path : Str}
    (h : ∀ s ∈ Str.split path '/', ¬ IsDot s) : removeDotSegments ('/' :: path) = '/' :: path := by
  rw [removeDotSegments, moveSegments_of_not_isDot h, List.append_nil, List.reverse_reverse,
    flatten_map_split]

/-- Put a relative path in the place of what follows the last slash of the base. -/
def merge (base : UriReference) (path : Str) : Str :=
  if base.authority.isSome ∧ base.path = [] then '/' :: path
  else (base.path.reverse.dropWhile (· ≠ '/')).reverse ++ path

/-- Resolve a reference against a base. -/
def resolve (base r : UriReference) : UriReference :=
  if r.scheme.isSome then { r with path := removeDotSegments r.path }
  else if r.authority.isSome then
    { r with scheme := base.scheme, path := removeDotSegments r.path }
  -- the reference stays with the authority of the base
  else if r.path = [] then
    { base with query := r.query <|> base.query, fragment := r.fragment }
  else if r.path.head? = some '/' then
    { base with path := removeDotSegments r.path, query := r.query, fragment := r.fragment }
  else
    { base with
      path := removeDotSegments (merge base r.path)
      query := r.query
      fragment := r.fragment }

example :
    resolve (parse "http://a/b/c/d;p?q") (parse "../g?y#s") = parse "http://a/b/g?y#s" := by
  decide +kernel

end UriReference
