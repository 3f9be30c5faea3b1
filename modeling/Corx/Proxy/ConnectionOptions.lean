import Corx.Base.ListHeader
import Corx.Proxy.Headers

/-!
# Connection options

The `Connection` header names further headers that must not pass a hop, one token each, on any
number of lines and next to any other bytes. The filter reads the first line, and only where it is
visible ASCII. `hop_headers_stripped_iff` says for which header maps it nevertheless strips what
must be stripped, and nothing else.
-/

namespace Corx

/-- The bytes of a value, each as the character of its code. -/
def HeaderValue.chars (value : HeaderValue) : Str :=
  value.bytes.map fun b => Char.ofNat b.toNat

/-- The headers that a `Connection` line names. -/
def HeaderValue.connectionOptions (line : HeaderValue) : List HeaderName :=
  ((Str.split line.chars ',').map Str.trimOws).filterMap HeaderName.parse

/-- A header that must not pass the hop. -/
def MustNotPass (filter : HeaderFilter) (headers : HeaderMap) (name : HeaderName) : Prop :=
  name ∈ HOP_BY_HOP ∨ name ∈ filter.extraDeny ∨
    ∃ line ∈ headers.getAll .connection, name ∈ line.connectionOptions

/-- The filter strips the headers that must not pass the hop, and leaves every other header all its
values in order. -/
def HopHeadersStripped (filter : HeaderFilter) (headers : HeaderMap) : Prop :=
  ∀ name, (MustNotPass filter headers name → (filter.apply headers).getAll name = []) ∧
    (¬ MustNotPass filter headers name →
      (filter.apply headers).getAll name = headers.getAll name)

/-! ## The first line -/

/-- The white space of header characters is optional white space. -/
theorem isWhitespace_eq_isOws {c : Char} (h : IsHeaderChar c) :
    Str.isWhitespace c = Str.isOws c := by
  have hblank : c = ' ' ↔ c.toNat = 32 :=
    ⟨fun h => h ▸ rfl, fun h => Char.ext (UInt32.toNat_inj.mp h)⟩
  have htab : c = '\t' ↔ c.toNat = 9 :=
    ⟨fun h => h ▸ rfl, fun h => Char.ext (UInt32.toNat_inj.mp h)⟩
  rw [Bool.eq_iff_iff]
  simp only [Str.isWhitespace, Str.isOws, Bool.or_eq_true, Bool.and_eq_true, decide_eq_true_eq,
    hblank, htab]
  rcases h with h | h <;> omega

/-- Characters that agree on two tests are dropped by both alike. -/
theorem dropWhile_of_agree {p q : Char → Bool} {s : Str} (h : ∀ c ∈ s, p c = q c) :
    s.dropWhile p = s.dropWhile q := by
  induction s with
  | nil => rfl
  | cons c s ih =>
    rw [List.dropWhile_cons, List.dropWhile_cons, h c List.mem_cons_self,
      ih fun d hd => h d (List.mem_cons_of_mem c hd)]

/-- Text of header characters is trimmed of its optional white space. -/
theorem trim_eq_trimOws {s : Str} (h : ∀ c ∈ s, IsHeaderChar c) : Str.trim s = Str.trimOws s := by
  have hspace : ∀ c ∈ s, Str.isWhitespace c = Str.isOws c :=
    fun c hc => isWhitespace_eq_isOws (h c hc)
  have hrest : ∀ c ∈ (s.dropWhile Str.isOws).reverse, Str.isWhitespace c = Str.isOws c :=
    fun c hc => hspace c ((List.dropWhile_sublist Str.isOws).subset (List.mem_reverse.mp hc))
  rw [Str.trim, dropWhile_of_agree hspace, dropWhile_of_agree hrest, Str.trimOws]

/-- The characters of a piece are characters of the text. -/
theorem mem_of_mem_split {s piece : Str} {sep c : Char} (hpiece : piece ∈ Str.split s sep)
    (hc : c ∈ piece) : c ∈ s := by
  induction s generalizing piece with
  | nil =>
    obtain rfl := List.mem_singleton.mp hpiece
    cases hc
  | cons d s ih =>
    by_cases hd : d = sep
    · subst hd
      rw [Str.split_cons_self] at hpiece
      rcases List.mem_cons.mp hpiece with rfl | hpiece
      · cases hc
      · exact List.mem_cons_of_mem d (ih hpiece hc)
    · -- the first piece gets the first character, the others are those of the rest
      obtain ⟨first, rest, hs, hcons⟩ := Str.exists_split_cons hd s
      rw [hcons] at hpiece
      rw [hs] at ih
      rcases List.mem_cons.mp hpiece with rfl | hpiece
      · exact (List.mem_cons.mp hc).elim (fun h => h ▸ List.mem_cons_self)
          fun hc => List.mem_cons_of_mem d (ih List.mem_cons_self hc)
      · exact List.mem_cons_of_mem d (ih (List.mem_cons_of_mem first hpiece) hc)

/-- A value that is text is the text of its characters. -/
theorem chars_of_toStr {line : HeaderValue} {text : Str} (h : line.toStr = some text) :
    line.chars = text := by
  unfold HeaderValue.toStr at h
  split at h
  next => exact Option.some.inj h
  next => cases h

/-- The filter strips the names of the first line, if that is text. -/
theorem connectionListed_eq (headers : HeaderMap) :
    connectionListed headers =
      ((headers.get .connection).filter fun line => line.toStr.isSome).elim []
        HeaderValue.connectionOptions := by
  unfold connectionListed HeaderMap.getStr
  cases headers.get .connection with
  | none => rfl
  | some line =>
    rw [Option.bind_some]
    cases htext : line.toStr with
    | none => rw [Option.filter_some, htext, if_neg (by decide), Option.elim_none]
    | some text =>
      rw [Option.filter_some, htext, if_pos (by rw [Option.isSome_some]), Option.elim_some,
        HeaderValue.connectionOptions, chars_of_toStr htext]
      dsimp only
      have htrim : (Str.split text ',').map Str.trim = (Str.split text ',').map Str.trimOws :=
        List.map_congr_left fun piece hpiece => trim_eq_trimOws fun c hc =>
          HeaderValue.isHeaderChar_of_toStr htext c (mem_of_mem_split hpiece hc)
      -- an empty piece is no header name
      rw [htrim, List.filterMap_filter]
      refine List.filterMap_congr fun token _ => ?_
      cases token with
      | nil => decide
      | cons c token => rfl

/-- A name is stripped for the `Connection` header if the first line is text and names it. -/
theorem mem_connectionListed_iff {headers : HeaderMap} {name : HeaderName} :
    name ∈ connectionListed headers ↔
      ∃ first, headers.get .connection = some first ∧ first.toStr.isSome = true ∧
        name ∈ first.connectionOptions := by
  rw [connectionListed_eq]
  cases headers.get .connection with
  | none => simp
  | some first => cases htext : first.toStr.isSome <;> simp [Option.filter_some, htext]

/-! ## What the filter strips -/

section Stripped

variable {filter : HeaderFilter} {headers : HeaderMap} {name : HeaderName}

/-- A stripped header is hop-by-hop, denied, or listed in the first `Connection` line. -/
theorem mem_stripped_iff :
    name ∈ filter.stripped headers ↔
      name ∈ HOP_BY_HOP ∨ name ∈ filter.extraDeny ∨ name ∈ connectionListed headers := by
  rw [HeaderFilter.stripped, List.mem_append, List.mem_append]
  tauto

/-- The filter leaves nothing of the stripped headers, and the others as they are. -/
theorem getAll_apply :
    (filter.apply headers).getAll name =
      if name ∈ filter.stripped headers then [] else headers.getAll name := by
  rw [HeaderFilter.apply_eq, MultiMap.getAll_removeAll]

/-- A stripped header must not pass. -/
theorem mustNotPass_of_mem_stripped (h : name ∈ filter.stripped headers) :
    MustNotPass filter headers name := by
  rcases mem_stripped_iff.mp h with hhop | hdeny | hlisted
  · exact Or.inl hhop
  · exact Or.inr (Or.inl hdeny)
  · obtain ⟨first, hfirst, -, hoption⟩ := mem_connectionListed_iff.mp hlisted
    exact Or.inr (Or.inr ⟨first, List.mem_of_head? hfirst, hoption⟩)

end Stripped

/-- What must be stripped is stripped, and nothing else, exactly if every header that a `Connection`
line names is absent, hop-by-hop, denied, or named by the first of these lines, which is visible
ASCII. -/
theorem hop_headers_stripped_iff (filter : HeaderFilter) (headers : HeaderMap) :
    HopHeadersStripped filter headers ↔
      ∀ line ∈ headers.getAll .connection, ∀ name ∈ line.connectionOptions,
        headers.getAll name = [] ∨ name ∈ HOP_BY_HOP ∨ name ∈ filter.extraDeny ∨
          ∃ first, headers.get .connection = some first ∧ first.toStr.isSome = true ∧
            name ∈ first.connectionOptions := by
  simp only [← mem_connectionListed_iff, ← mem_stripped_iff]
  unfold HopHeadersStripped
  simp only [getAll_apply]
  constructor
  · intro h line hline name hname
    have hempty := (h name).1 (Or.inr (Or.inr ⟨line, hline, hname⟩))
    split at hempty
    next hin => exact Or.inr hin
    next => exact Or.inl hempty
  · intro h name
    constructor
    · intro hmust
      have hgone : headers.getAll name = [] ∨ name ∈ filter.stripped headers := by
        rcases hmust with hhop | hdeny | ⟨line, hline, hname⟩
        · exact Or.inr (mem_stripped_iff.mpr (Or.inl hhop))
        · exact Or.inr (mem_stripped_iff.mpr (Or.inr (Or.inl hdeny)))
        · exact h line hline name hname
      rcases hgone with hempty | hin
      · rw [hempty, ite_self]
      · rw [if_pos hin]
    · intro hnot
      rw [if_neg fun hin => hnot (mustNotPass_of_mem_stripped hin)]

/-- `x-trace`. -/
def X_TRACE : HeaderName := ⟨"x-trace", by decide⟩

/-- A request that names a header on a second `Connection` line. -/
def twoConnectionLines : HeaderMap :=
  .ofList [(.connection, ⟨Str.asBytes "close", by decide⟩),
    (.connection, ⟨Str.asBytes "X-Trace", by decide⟩), (X_TRACE, ⟨Str.asBytes "1", by decide⟩)]

/-- The header that the second line names passes the hop. -/
theorem second_connection_line_ignored :
    ¬ HopHeadersStripped { extraDeny := [] } twoConnectionLines := by
  intro h
  have hempty := (h X_TRACE).1 (Or.inr (Or.inr ⟨⟨Str.asBytes "X-Trace", by decide⟩, by decide,
    by decide⟩))
  revert hempty
  decide

/-- A `Connection` line with a byte that is not ASCII names a header in vain. -/
example :
    ¬ (let headers : HeaderMap :=
        .ofList [(.connection, ⟨0xE9 :: Str.asBytes ",x-trace", by decide⟩),
          (X_TRACE, ⟨Str.asBytes "1", by decide⟩)]
      (HeaderFilter.apply { extraDeny := [] } headers).getAll X_TRACE = []) := by
  decide

end Corx
