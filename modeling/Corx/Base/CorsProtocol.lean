import Corx.Base.ListHeader
import Corx.Base.ParameterList

/-!
# The CORS protocol

What a browser makes of the answers to a page's request to another origin, after the Fetch
standard. A request with a method or a header that is not safelisted is preceded by a preflight;
the answers to both must pass the CORS check, and the answer to the preflight must list the method
and the headers (`fetchSucceeds`). Which characters make a token is left open.
-/

namespace CorsProtocol

/-- The items of a list header: what stands between commas, without the optional white space
around it. Empty items do not count. -/
def listItems (s : Str) : List Str :=
  ((Str.split s ',').map Str.trimOws).filter fun item => !item.isEmpty

/-- What a page asks its browser to fetch. The header names are those that are not safelisted. -/
structure PageRequest (tokenChar : Char → Bool) where
  origin : Str
  method : Str
  unsafeNames : List Str
  /-- The credentials mode is `include`. -/
  credentials : Bool
  method_isToken : ParameterList.isToken tokenChar method = true
  names_isToken : ∀ name ∈ unsafeNames, ParameterList.isToken tokenChar name = true

/-- The headers of an answer that the protocol reads: for each its values, in order. -/
structure Fields where
  allowOrigin : List Str
  allowCredentials : List Str
  allowMethods : List Str
  allowHeaders : List Str
  deriving DecidableEq

/-- The methods that need no preflight. -/
def safelistedMethods : List Str :=
  ["GET", "HEAD", "POST"]

/-- The values of a header as one value. -/
def combined (values : List Str) : Option Str :=
  if values.isEmpty then none else some (Str.join ", " values)

/-- The items of a list header with several values, if all of them are tokens. -/
def extract (tokenChar : Char → Bool) (values : List Str) : Option (List Str) :=
  let items := values.flatMap listItems
  if items.all (ParameterList.isToken tokenChar) then some items else none

namespace PageRequest

variable {tokenChar : Char → Bool} (page : PageRequest tokenChar)

/-- The request is preceded by a preflight. -/
def needsPreflight : Bool :=
  !safelistedMethods.contains page.method || !page.unsafeNames.isEmpty

/-- What a preflight asks for in `Access-Control-Request-Headers`. -/
def requestedNames : Option Str :=
  if page.unsafeNames.isEmpty then none else some (Str.join "," page.unsafeNames)

/-- The CORS check: the answer allows the origin, and the credentials if there are any. -/
def corsCheck (fields : Fields) : Bool :=
  match combined fields.allowOrigin with
  | none => false
  | some allowed =>
    if !page.credentials && allowed = ("*" : Str) then true
    else if allowed ≠ page.origin then false
    else !page.credentials || combined fields.allowCredentials = some ("true" : Str)

/-- The listed methods allow that of the request. A wildcard does not count together with
credentials. -/
def methodAllowed (methods : List Str) : Bool :=
  methods.contains page.method || safelistedMethods.contains page.method ||
    (!page.credentials && methods.contains ("*" : Str))

/-- The listed names allow a header. A wildcard does not count together with credentials, nor for
`Authorization`. -/
def nameAllowed (names : List Str) (name : Str) : Bool :=
  names.any (Str.eqIgnoreAsciiCase name) ||
    (!Str.eqIgnoreAsciiCase name "authorization" && !page.credentials &&
      names.contains ("*" : Str))

/-- The answer to the preflight lets the request pass. -/
def preflightCheck (status : ℕ) (fields : Fields) : Bool :=
  page.corsCheck fields && (200 ≤ status && status ≤ 299) &&
    match extract tokenChar fields.allowMethods, extract tokenChar fields.allowHeaders with
    | some methods, some names =>
      page.methodAllowed methods && page.unsafeNames.all (page.nameAllowed names)
    | _, _ => false

/-- The page gets the answer: its request passes the preflight, if it needs one, and the answer
passes the CORS check. -/
def fetchSucceeds (status : ℕ) (preflight answer : Fields) : Bool :=
  (!page.needsPreflight || page.preflightCheck status preflight) && page.corsCheck answer

end PageRequest

/-! ## Lists -/

variable {tokenChar : Char → Bool}

/-- White space in front of a text is trimmed. -/
theorem trimOws_cons {c : Char} (hc : Str.isOws c = true) (s : Str) :
    Str.trimOws (c :: s) = Str.trimOws s := by
  rw [Str.trimOws, List.dropWhile_cons_of_pos hc, Str.trimOws]

/-- The items of a list that is extended behind a comma. -/
theorem listItems_append_cons (s t : Str) :
    listItems (s ++ ',' :: t) = listItems s ++ listItems t := by
  rw [listItems, Str.split_append_cons, List.map_append, List.filter_append]
  rfl

/-- White space in front of a list does not count. -/
theorem listItems_cons {c : Char} (hc : Str.isOws c = true) (s : Str) :
    listItems (c :: s) = listItems s := by
  have hcomma : c ≠ ',' := by
    rintro rfl
    exact absurd hc (by decide)
  -- the white space belongs to the first piece
  obtain ⟨piece, pieces, hs, hcons⟩ := Str.exists_split_cons hcomma s
  rw [listItems, hcons, listItems, hs, List.map_cons, List.map_cons, trimOws_cons hc]

/-- The items of a joined list are those of its parts, whether or not blanks follow the
commas. -/
theorem listItems_join {blanks : Str} (hblanks : ∀ c ∈ blanks, Str.isOws c = true)
    (parts : List Str) : listItems (Str.join (',' :: blanks) parts) = parts.flatMap listItems := by
  have hskip : ∀ t : Str, listItems (blanks ++ t) = listItems t := by
    intro t
    induction blanks with
    | nil => rfl
    | cons c blanks ih =>
      rw [List.cons_append, listItems_cons (hblanks c List.mem_cons_self),
        ih fun d hd => hblanks d (List.mem_cons_of_mem c hd)]
  induction parts with
  | nil => rfl
  | cons part parts ih =>
    cases parts with
    | nil => simp [Str.join, List.intercalate]
    | cons next parts =>
      have hjoin : Str.join (',' :: blanks) (part :: next :: parts) =
          part ++ ',' :: (blanks ++ Str.join (',' :: blanks) (next :: parts)) := by
        simp [Str.join, List.intercalate]
      rw [hjoin, listItems_append_cons, hskip, ih, ← List.flatMap_cons]

/-- A token is its only item. -/
theorem listItems_of_isToken (chars : ParameterList.TokenChars tokenChar) {s : Str}
    (hs : ParameterList.isToken tokenChar s = true) : listItems s = [s] := by
  rw [ParameterList.isToken, Bool.and_eq_true, List.all_eq_true] at hs
  obtain ⟨hne, hchars⟩ := hs
  have hcomma : ',' ∉ s := fun hmem => by simpa [chars.comma] using hchars _ hmem
  have hows : ∀ c ∈ s, Str.isOws c = false := fun c hc => chars.isOws_eq_false (hchars c hc)
  have htrim : Str.trimOws s = s :=
    Str.trimOws_eq_self (fun c hc => hows c (List.mem_of_mem_head? hc))
      fun c hc => hows c (List.mem_of_getLast? hc)
  rw [listItems, Str.split, List.splitOn_eq_singleton hcomma, List.map_singleton, htrim,
    List.filter_singleton, hne, Bool.cond_true]

/-- The items of a list of tokens are the tokens. -/
theorem flatMap_listItems_of_isToken (chars : ParameterList.TokenChars tokenChar)
    {tokens : List Str} (htokens : ∀ token ∈ tokens, ParameterList.isToken tokenChar token = true) :
    tokens.flatMap listItems = tokens := by
  induction tokens with
  | nil => rfl
  | cons token tokens ih =>
    rw [List.flatMap_cons, listItems_of_isToken chars (htokens token List.mem_cons_self),
      ih fun t ht => htokens t (List.mem_cons_of_mem token ht), List.singleton_append]

/-- A character that is no white space survives trimming. -/
theorem mem_trimOws {s : Str} {c : Char} (hc : c ∈ s) (hows : Str.isOws c = false) :
    c ∈ Str.trimOws s := by
  have hdrop : ∀ t : Str, c ∈ t → c ∈ t.dropWhile Str.isOws := by
    intro t ht
    rw [← @List.takeWhile_append_dropWhile _ Str.isOws t, List.mem_append] at ht
    refine ht.resolve_left fun htake => ?_
    rw [List.all_eq_true.mp List.all_takeWhile c htake] at hows
    cases hows
  rw [Str.trimOws, List.mem_reverse]
  exact hdrop _ (List.mem_reverse.mpr (hdrop s hc))

/-- A character that is no separator occurs in a piece. -/
theorem exists_mem_split {s : Str} {c sep : Char} (hc : c ∈ s) (hsep : c ≠ sep) :
    ∃ piece ∈ Str.split s sep, c ∈ piece := by
  induction s with
  | nil => cases hc
  | cons d s ih =>
    by_cases hd : d = sep
    · subst hd
      obtain ⟨piece, hpiece, hmem⟩ := ih ((List.mem_cons.mp hc).resolve_left hsep)
      exact ⟨piece, by rw [Str.split_cons_self]; exact List.mem_cons_of_mem _ hpiece, hmem⟩
    · obtain ⟨first, rest, hs, hcons⟩ := Str.exists_split_cons hd s
      rw [hcons]
      rcases List.mem_cons.mp hc with rfl | hc
      · exact ⟨c :: first, List.mem_cons_self, List.mem_cons_self⟩
      · obtain ⟨piece, hpiece, hmem⟩ := ih hc
        rw [hs] at hpiece
        rcases List.mem_cons.mp hpiece with rfl | hpiece
        · exact ⟨d :: piece, List.mem_cons_self, List.mem_cons_of_mem d hmem⟩
        · exact ⟨piece, List.mem_cons_of_mem _ hpiece, hmem⟩

/-- A list whose items are tokens consists of token characters, commas and white space. -/
theorem char_of_isToken_listItems {s : Str}
    (hs : ∀ item ∈ listItems s, ParameterList.isToken tokenChar item = true) {c : Char}
    (hc : c ∈ s) : c = ',' ∨ Str.isOws c = true ∨ tokenChar c = true := by
  by_cases hcomma : c = ','
  · exact .inl hcomma
  · cases hows : Str.isOws c with
    | true => exact .inr (.inl rfl)
    | false =>
      obtain ⟨piece, hpiece, hmem⟩ := exists_mem_split hc hcomma
      have hitem : c ∈ Str.trimOws piece := mem_trimOws hmem hows
      have htoken := hs (Str.trimOws piece)
        (List.mem_filter.mpr ⟨List.mem_map_of_mem hpiece, by
          rw [List.isEmpty_eq_false_iff.mpr (List.ne_nil_of_mem hitem), Bool.not_false]⟩)
      rw [ParameterList.isToken, Bool.and_eq_true, List.all_eq_true] at htoken
      exact .inr (.inr (htoken.2 c hitem))

/-- What is extracted from the items of a list header. -/
theorem extract_eq_some_iff {values items : List Str} :
    extract tokenChar values = some items ↔
      (∀ item ∈ items, ParameterList.isToken tokenChar item = true) ∧
        values.flatMap listItems = items := by
  unfold extract
  dsimp only
  constructor
  · intro h
    split at h
    next hall =>
      obtain rfl := Option.some.inj h
      exact ⟨List.all_eq_true.mp hall, rfl⟩
    next => cases h
  · rintro ⟨hall, rfl⟩
    rw [if_pos (List.all_eq_true.mpr hall)]

/-! ## Checks -/

namespace PageRequest

variable {page : PageRequest tokenChar} {fields : Fields}

/-- One value is its own combination. -/
theorem combined_singleton (value : Str) : combined [value] = some value := by
  simp [combined, Str.join, List.intercalate]

/-- The CORS check against an answer with one allowed origin at most. -/
theorem corsCheck_iff {allowed : Option Str} (hfields : fields.allowOrigin = allowed.toList) :
    page.corsCheck fields = true ↔
      (page.credentials = false ∧ allowed = some ("*" : Str)) ∨
        allowed = some page.origin ∧
          (page.credentials = true → combined fields.allowCredentials = some ("true" : Str)) := by
  unfold corsCheck
  rw [hfields]
  cases allowed with
  | none => simp [combined]
  | some value =>
    rw [Option.toList_some, combined_singleton]
    dsimp only
    cases page.credentials <;> by_cases hstar : value = ("*" : Str) <;>
      by_cases horigin : value = page.origin <;> simp_all

/-- The check of an answer to a preflight. -/
theorem preflightCheck_iff {status : ℕ} :
    page.preflightCheck status fields = true ↔
      page.corsCheck fields = true ∧ (200 ≤ status ∧ status ≤ 299) ∧
        (∀ item ∈ fields.allowMethods.flatMap listItems ++ fields.allowHeaders.flatMap listItems,
          ParameterList.isToken tokenChar item = true) ∧
        page.methodAllowed (fields.allowMethods.flatMap listItems) = true ∧
        ∀ name ∈ page.unsafeNames,
          page.nameAllowed (fields.allowHeaders.flatMap listItems) name = true := by
  unfold preflightCheck
  rw [Bool.and_eq_true, Bool.and_eq_true, Bool.and_eq_true, decide_eq_true_eq,
    decide_eq_true_eq, and_assoc]
  refine and_congr_right fun _ => and_congr_right fun _ => ?_
  constructor
  · intro h
    split at h
    next methods names hmethods hnames =>
      obtain ⟨hmethodTokens, rfl⟩ := extract_eq_some_iff.mp hmethods
      obtain ⟨hnameTokens, rfl⟩ := extract_eq_some_iff.mp hnames
      rw [Bool.and_eq_true, List.all_eq_true] at h
      refine ⟨fun item hitem => ?_, h⟩
      rcases List.mem_append.mp hitem with hitem | hitem
      · exact hmethodTokens item hitem
      · exact hnameTokens item hitem
    next => cases h
  · rintro ⟨htokens, hmethod, hnames⟩
    rw [extract_eq_some_iff.mpr ⟨fun item h => htokens item (List.mem_append_left _ h), rfl⟩,
      extract_eq_some_iff.mpr ⟨fun item h => htokens item (List.mem_append_right _ h), rfl⟩]
    rw [Bool.and_eq_true, List.all_eq_true]
    exact ⟨hmethod, hnames⟩

/-- The names that a preflight asks for are read back from its header. -/
theorem flatMap_listItems_requestedNames (chars : ParameterList.TokenChars tokenChar) :
    page.requestedNames.toList.flatMap listItems = page.unsafeNames := by
  unfold requestedNames
  split
  next hempty => rw [Option.toList_none, List.flatMap_nil, List.isEmpty_iff.mp hempty]
  next =>
    have hjoin : listItems (Str.join ",".toList page.unsafeNames) =
        page.unsafeNames.flatMap listItems := listItems_join (by simp) page.unsafeNames
    rw [Option.toList_some, List.flatMap_singleton, hjoin,
      flatMap_listItems_of_isToken chars page.names_isToken]

/-- A header is allowed where its name is listed. -/
theorem nameAllowed_of_mem {names : List Str} {name : Str} (h : name ∈ names) :
    page.nameAllowed names name = true := by
  rw [nameAllowed, Bool.or_eq_true, List.any_eq_true]
  exact .inl ⟨name, h, by simp⟩

/-- The request's own method is allowed where it is listed. -/
theorem methodAllowed_of_mem {methods : List Str} (h : page.method ∈ methods) :
    page.methodAllowed methods = true := by
  simp [methodAllowed, h]

end PageRequest

end CorsProtocol
