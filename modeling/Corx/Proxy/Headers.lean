import Corx.Http

/-!
# Header filtering

One `HeaderFilter` strips a header map for a proxy hop: the names that the `Connection` header
lists, the hop-by-hop names, and the operator's deny list. What it removes is a list of names
computed from the map (`HeaderFilter.stripped`), and it does nothing else (`apply_eq`).
-/

namespace Corx

/-- Hop-by-hop headers. -/
def HOP_BY_HOP : List HeaderName :=
  [.connection, ⟨"keep-alive", by decide⟩, ⟨"proxy-authenticate", by decide⟩,
    .proxyAuthorization, ⟨"te", by decide⟩, ⟨"trailer", by decide⟩,
    ⟨"transfer-encoding", by decide⟩, ⟨"upgrade", by decide⟩, ⟨"proxy-connection", by decide⟩]

/-- The header names that the first `Connection` header lists, if it is text. -/
def connectionListed (headers : HeaderMap) : List HeaderName :=
  -- `get` returns the first line of a header; a value that is not text lists nothing
  match headers.getStr .connection with
  | none => []
  | some value =>
    (((Str.split value ',').map Str.trim).filter fun token => !token.isEmpty).filterMap
      HeaderName.parse

/-- Remove the headers that `Connection` lists. -/
def stripConnectionListed (headers : HeaderMap) : HeaderMap :=
  headers.removeAll (connectionListed headers)

/-- Compiled header filter. -/
structure HeaderFilter where
  extraDeny : List HeaderName
  deriving DecidableEq

namespace HeaderFilter

/-- Parse header names in order; the first that is not one is an error. -/
def parseNames : List Str → Except Str (List HeaderName)
  | [] => .ok []
  | raw :: raws =>
    match HeaderName.parse raw with
    | none =>
      .error ("invalid header name `".toList ++ raw ++ "`: invalid HTTP header name".toList)
    | some name =>
      match parseNames raws with
      | .ok names => .ok (name :: names)
      | .error err => .error err

/-- Compile from the configured names; one that is not a header name is an error. -/
def tryNew (extraDeny : List Str) : Except Str HeaderFilter :=
  match parseNames extraDeny with
  | .ok names => .ok { extraDeny := names }
  | .error err => .error err

/-- Strip every header that must not survive a proxy hop. -/
def apply (filter : HeaderFilter) (headers : HeaderMap) : HeaderMap :=
  ((stripConnectionListed headers).removeAll HOP_BY_HOP).removeAll filter.extraDeny

/-- The names that the filter strips from a header map. -/
def stripped (filter : HeaderFilter) (headers : HeaderMap) : List HeaderName :=
  connectionListed headers ++ HOP_BY_HOP ++ filter.extraDeny

/-- Filtering removes the stripped names and nothing else. -/
theorem apply_eq (filter : HeaderFilter) (headers : HeaderMap) :
    filter.apply headers = headers.removeAll (filter.stripped headers) := by
  simp only [apply, stripConnectionListed, stripped, MultiMap.removeAll, List.foldl_append]

/-- Parsing collects the names of the list. -/
theorem mem_parseNames_iff {raws : List Str} {names : List HeaderName} {name : HeaderName}
    (h : parseNames raws = .ok names) :
    name ∈ names ↔ ∃ raw ∈ raws, HeaderName.parse raw = some name := by
  induction raws generalizing names with
  | nil =>
    obtain rfl := Except.ok.inj h
    simp
  | cons first raws ih =>
    rw [parseNames] at h
    split at h
    next => cases h
    next firstName hfirst =>
      split at h
      next rest hrest =>
        -- all names parsed, so the first name is there next to those of the rest
        obtain rfl := Except.ok.inj h
        rw [List.mem_cons, ih hrest, List.exists_mem_cons_iff, hfirst, Option.some_inj,
          eq_comm]
      next => cases h

/-- A compiled filter denies exactly the configured names, in any letter case. -/
theorem mem_extraDeny_iff {extraDeny : List Str} {filter : HeaderFilter} {name : HeaderName}
    (h : tryNew extraDeny = .ok filter) :
    name ∈ filter.extraDeny ↔ ∃ raw ∈ extraDeny, HeaderName.parse raw = some name := by
  unfold tryNew at h
  split at h
  next names hnames =>
    obtain rfl := Except.ok.inj h
    exact mem_parseNames_iff hnames
  next => cases h

/-- Parsing succeeds exactly if every text is a header name. -/
theorem exists_parseNames_iff {raws : List Str} :
    (∃ names, parseNames raws = .ok names) ↔ ∀ raw ∈ raws, (HeaderName.parse raw).isSome := by
  induction raws with
  | nil => simp [parseNames]
  | cons first raws ih =>
    rw [List.forall_mem_cons, ← ih, parseNames]
    cases HeaderName.parse first with
    | none => simp
    | some firstName => cases parseNames raws <;> simp

/-- A filter compiles exactly if every configured text is a header name. -/
theorem exists_tryNew_iff {extraDeny : List Str} :
    (∃ filter, tryNew extraDeny = .ok filter) ↔
      ∀ raw ∈ extraDeny, (HeaderName.parse raw).isSome := by
  rw [← exists_parseNames_iff, tryNew]
  cases parseNames extraDeny <;> simp

/-- The stripped names depend on the first `Connection` header only. -/
theorem stripped_congr (filter : HeaderFilter) {headers headers' : HeaderMap}
    (h : headers.get .connection = headers'.get .connection) :
    filter.stripped headers = filter.stripped headers' := by
  simp only [stripped, connectionListed, HeaderMap.getStr, h]

end HeaderFilter

end Corx
