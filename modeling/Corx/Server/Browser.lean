import Corx.Base.CorsProtocol
import Corx.Proxy.ConnectionOptions
import Corx.Proxy.CorsCredentials
import Corx.Proxy.CorsStamping
import Corx.Proxy.PreflightLists
import Corx.Server.ForwardedValue

/-!
# What a browser makes of the answers

The headers that the proxy writes are read by browsers, which enforce the CORS protocol. The
configuration says what it permits (`Permits`, `PermitsPreflight`); `fetchSucceeds_iff` says that
a browser lets a page have an answer exactly where the configuration permits it. The answer to the
preflight and the answer to the request may come from different configurations, since a reload can
fall between them.
-/

namespace Corx

open CorsProtocol (PageRequest Fields listItems)

/-- The headers of an answer that a browser reads. -/
def corsFields (headers : HeaderMap) : Fields where
  allowOrigin := (headers.getAll ACCESS_CONTROL_ALLOW_ORIGIN).map HeaderValue.chars
  allowCredentials := (headers.getAll ACCESS_CONTROL_ALLOW_CREDENTIALS).map HeaderValue.chars
  allowMethods := (headers.getAll ACCESS_CONTROL_ALLOW_METHODS).map HeaderValue.chars
  allowHeaders := (headers.getAll ACCESS_CONTROL_ALLOW_HEADERS).map HeaderValue.chars

/-- The headers are those of a preflight that a browser sends for a page's request. -/
structure IsPreflightOf (page : PageRequest isTokenChar) (headers : HeaderMap) : Prop where
  origin : headers.getStr .origin = some page.origin
  method : headers.getStr ACCESS_CONTROL_REQUEST_METHOD = some page.method
  names : headers.getAll ACCESS_CONTROL_REQUEST_HEADERS =
    (page.requestedNames.bind HeaderValue.fromStr).toList

/-- The answer to a preflight as it leaves the proxy: the layer stamps it again. -/
def preflightAnswer (headers : HeaderMap) (policy : CorsPolicy) : Response :=
  let response := buildPreflightResponse headers policy
  { response with headers := applyToResponse response.headers headers policy }

/-! ## What the configuration permits -/

/-- The configuration admits an origin. -/
def CorsConfig.admits (cfg : CorsConfig) (origin : Str) : Bool :=
  match cfg.policy with
  | .wildcard => true
  | .reflect => if cfg.origins.isEmpty then cfg.allowAnyOrigin else cfg.origins.contains origin
  | .explicit => cfg.origins.contains origin

/-- The configuration permits a page's request: it admits the origin, and the credentials if
there are any. -/
structure CorsConfig.Permits (cfg : CorsConfig) (page : PageRequest isTokenChar) : Prop where
  origin : cfg.admits page.origin = true
  credentials : page.credentials = true → cfg.allowCredentials = true

/-- The list is written into the answer to a preflight; any other one is the operator's choice to
echo. -/
def PreflightList.IsWritten (list : PreflightList) (cfg : CorsConfig) : Prop :=
  list.configured cfg ≠ [] ∧ AllText cfg list

/-- The items that the entries of the list consist of. -/
def PreflightList.items (list : PreflightList) (cfg : CorsConfig) : List Str :=
  (list.configured cfg).flatMap listItems

/-- The items of a list allow what the page's request needs of it: its method, or its headers. -/
def PreflightList.Allows (page : PageRequest isTokenChar) : PreflightList → List Str → Prop
  | methods, items => page.methodAllowed items = true
  | headers, items => ∀ name ∈ page.unsafeNames, page.nameAllowed items name = true

/-- The configuration permits a page's request that is preceded by a preflight: the lists that it
writes consist of tokens, and allow the method and the headers. -/
structure CorsConfig.PermitsPreflight (cfg : CorsConfig) (page : PageRequest isTokenChar) : Prop
    extends cfg.Permits page where
  lists : ∀ list : PreflightList, list.IsWritten cfg →
    (∀ item ∈ list.items cfg, IsToken item) ∧ list.Allows page (list.items cfg)

variable {cfg : CorsConfig} {page : PageRequest isTokenChar}
  {requestHeaders responseHeaders : HeaderMap} {list : PreflightList}

/-! ## Values as characters -/

/-- The bytes of a value are those of its text. -/
theorem HeaderValue.bytes_of_fromStr {v : HeaderValue} {s : Str}
    (h : HeaderValue.fromStr s = some v) : v.bytes = Str.asBytes s := by
  unfold HeaderValue.fromStr HeaderValue.fromBytes at h
  split at h
  · rw [← Option.some.inj h]
  · cases h

/-- A value has the characters of its text exactly if the text is ASCII. -/
theorem HeaderValue.chars_of_fromStr {v : HeaderValue} {s : Str}
    (h : HeaderValue.fromStr s = some v) (hs : Str.IsAscii s) : v.chars = s := by
  rw [HeaderValue.chars, HeaderValue.bytes_of_fromStr h, Str.map_ofNat_asBytes hs]

/-- Text of which every byte is an ASCII character is ASCII. -/
theorem isAscii_of_chars {v : HeaderValue} {s : Str} (h : HeaderValue.fromStr s = some v)
    (hchars : Str.IsAscii v.chars) : Str.IsAscii s := by
  -- the characters encode to the bytes that the text encodes to
  have hbytes : Str.asBytes v.chars = Str.asBytes s := by
    rw [Str.asBytes_of_isAscii hchars, HeaderValue.chars, List.map_map,
      ← HeaderValue.bytes_of_fromStr h]
    conv_rhs => rw [← List.map_id v.bytes]
    refine List.map_congr_left fun b hb => ?_
    have hbyte : b.toNat < 256 := b.toNat_lt
    have hcode : (Char.ofNat b.toNat).toNat = b.toNat := by
      rw [Char.ofNat, dif_pos (Or.inl (by omega))]
      rfl
    rw [Function.comp_apply, hcode, UInt8.ofNat_toNat, id]
  rwa [← Str.asBytes_injective hbytes]

/-- A list of tokens is ASCII text. -/
theorem isAscii_of_isToken_items {s : Str} (h : ∀ item ∈ listItems s, IsToken item) :
    Str.IsAscii s := by
  intro c hc
  rcases CorsProtocol.char_of_isToken_listItems h hc with rfl | hows | htoken
  · decide
  · rw [Str.isOws, Bool.or_eq_true, decide_eq_true_eq, decide_eq_true_eq] at hows
    rcases hows with rfl | rfl <;> decide
  · rcases isHeaderChar_of_isTokenChar htoken with hvisible | htab <;> omega

/-! ## The origin -/

/-- The policy's decision on an origin. -/
theorem resolveAllowOrigin_of_toStr {origin : HeaderValue} {text : Str}
    (h : origin.toStr = some text) :
    (CorsPolicy.fromConfig cfg).resolveAllowOrigin (some origin) =
      if cfg.policy = .wildcard ∧ cfg.allowCredentials = false then some CorsPolicy.star
      else if cfg.admits text = true then some origin else none := by
  have hecho : HeaderValue.fromStr text = some origin := HeaderValue.fromStr_of_toStr h
  unfold CorsPolicy.resolveAllowOrigin CorsPolicy.fromConfig CorsConfig.admits
  cases hpolicy : cfg.policy with
  | wildcard => cases hcredentials : cfg.allowCredentials <;> simp [h, hecho]
  | reflect =>
    by_cases hlist : cfg.origins = []
    · cases hany : cfg.allowAnyOrigin <;> simp [h, hecho, hlist]
    · simp [h, hecho, hlist]
  | explicit => simp [h, hecho]

/-- A browser passes an answer that carries the decision exactly where the configuration permits
the request. -/
theorem corsCheck_iff_of_decided (h : Decided cfg requestHeaders responseHeaders)
    (horigin : requestHeaders.getStr .origin = some page.origin) :
    page.corsCheck (corsFields responseHeaders) = true ↔ cfg.Permits page := by
  obtain ⟨origin, hget, htext⟩ := Option.bind_eq_some_iff.mp horigin
  have hpermits : cfg.Permits page ↔ cfg.admits page.origin = true ∧
      (page.credentials = true → cfg.allowCredentials = true) :=
    ⟨fun h => ⟨h.origin, h.credentials⟩, fun h => ⟨h.1, h.2⟩⟩
  have hstar : CorsPolicy.star.chars = ("*" : Str) := by decide
  have htrue : headerTrue.chars = ("true" : Str) := by decide
  have hdecision := @resolveAllowOrigin_of_toStr cfg _ _ htext
  have hallowed : (corsFields responseHeaders).allowOrigin =
      (((CorsPolicy.fromConfig cfg).resolveAllowOrigin (some origin)).map
        HeaderValue.chars).toList := by
    rw [corsFields, h.allowOrigin, hget]
    cases (CorsPolicy.fromConfig cfg).resolveAllowOrigin (some origin) <;> rfl
  have hcredentials : (corsFields responseHeaders).allowCredentials =
      if ((CorsPolicy.fromConfig cfg).resolveAllowOrigin (some origin)).isSome &&
        cfg.allowCredentials then ["true".toList] else [] := by
    rw [corsFields, h.allowCredentials, hget]
    dsimp only
    split
    · rw [List.map_singleton, htrue]
    · rfl
  rw [PageRequest.corsCheck_iff hallowed, hcredentials, hpermits, hdecision]
  split
  -- every origin is admitted without credentials, by the value `*`
  next hwild =>
    have hadmits : cfg.admits page.origin = true := by simp [CorsConfig.admits, hwild.1]
    simp [hadmits, hwild.2, hstar, CorsProtocol.combined]
  next =>
    split
    next hadmits =>
      have hchars := chars_of_toStr htext
      cases hcred : cfg.allowCredentials <;> cases page.credentials <;>
        simp [hadmits, hchars, CorsProtocol.combined, Str.join]
    next hadmits => simp [hadmits]

/-! ## The lists -/

/-- A list that is written is the value of its joined entries. -/
theorem compiled_of_isWritten (h : list.IsWritten cfg) :
    ∃ value, list.compiled (.fromConfig cfg) = some value ∧
      HeaderValue.fromStr (Str.join ", " (list.configured cfg)) = some value := by
  obtain ⟨value, hvalue⟩ := Option.isSome_iff_exists.mp ((isSome_compiled_iff h.1).mpr h.2)
  refine ⟨value, hvalue, ?_⟩
  have hcompiled : list.compiled (.fromConfig cfg) = encodeTokenList (list.configured cfg) := by
    cases list <;> rfl
  rw [hcompiled, encodeTokenList, if_neg (by simpa using h.1)] at hvalue
  exact hvalue

/-- A list that is not written leaves the choice to the request. -/
theorem compiled_of_not_isWritten (h : ¬ list.IsWritten cfg) :
    list.compiled (.fromConfig cfg) = none := by
  rw [Option.eq_none_iff_forall_not_mem]
  intro value hvalue
  have hconfigured : list.configured cfg ≠ [] := by
    intro hnil
    have hcompiled : list.compiled (.fromConfig cfg) = encodeTokenList (list.configured cfg) := by
      cases list <;> rfl
    rw [hcompiled, hnil] at hvalue
    cases hvalue
  refine h ⟨hconfigured, (isSome_compiled_iff hconfigured).mp ?_⟩
  rw [Option.mem_def.mp hvalue, Option.isSome_some]

/-- A browser reads from a written list the items of the entries if they are tokens, and else
something that is no token. -/
theorem items_of_isWritten {value : HeaderValue}
    (hvalue : HeaderValue.fromStr (Str.join ", " (list.configured cfg)) = some value) :
    ((∀ item ∈ listItems value.chars, IsToken item) ↔ ∀ item ∈ list.items cfg, IsToken item) ∧
      ((∀ item ∈ list.items cfg, IsToken item) → listItems value.chars = list.items cfg) := by
  have hjoin : listItems (Str.join ", ".toList (list.configured cfg)) = list.items cfg :=
    CorsProtocol.listItems_join (List.all_eq_true.mp (by decide)) (list.configured cfg)
  have hitems : (∀ item ∈ list.items cfg, IsToken item) →
      listItems value.chars = list.items cfg := by
    intro htokens
    rw [← hjoin] at htokens ⊢
    rw [HeaderValue.chars_of_fromStr hvalue (isAscii_of_isToken_items htokens)]
  refine ⟨⟨fun h => ?_, fun h => by rw [hitems h]; exact h⟩, hitems⟩
  have hchars := HeaderValue.chars_of_fromStr hvalue
    (isAscii_of_chars hvalue (isAscii_of_isToken_items h))
  rwa [hchars, hjoin] at h

/-- The items that a browser reads from a list of the answer. -/
def PreflightList.shown (list : PreflightList) (headers : HeaderMap) (cfg : CorsConfig) :
    List Str :=
  (((list.compiled (.fromConfig cfg)).or (headers.get list.requestName)).toList.map
    HeaderValue.chars).flatMap listItems

/-- The names that a preflight asks for are text. -/
theorem isHeaderChar_requestedNames {names : Str} (h : page.requestedNames = some names) :
    ∀ c ∈ names, IsHeaderChar c := by
  unfold PageRequest.requestedNames at h
  split at h
  next => cases h
  next =>
    obtain rfl := Option.some.inj h
    refine Str.forall_mem_join (List.all_iff_forall_prop.mp (by decide)) fun name hname c hc => ?_
    have htoken := page.names_isToken name hname
    rw [ParameterList.isToken, Bool.and_eq_true, List.all_eq_true] at htoken
    exact isHeaderChar_of_isTokenChar (htoken.2 c hc)

/-- A preflight asks for tokens that allow the request. -/
theorem allows_requested {headers : HeaderMap} (h : IsPreflightOf page headers) :
    ∃ items, ((headers.get list.requestName).toList.map HeaderValue.chars).flatMap listItems =
        items ∧ (∀ item ∈ items, IsToken item) ∧ list.Allows page items := by
  cases list with
  | methods =>
    obtain ⟨method, hget, htext⟩ := Option.bind_eq_some_iff.mp h.method
    refine ⟨[page.method], ?_, ?_, PageRequest.methodAllowed_of_mem (List.mem_singleton_self _)⟩
    · rw [PreflightList.requestName, hget, Option.toList_some, List.map_singleton,
        chars_of_toStr htext, List.flatMap_singleton,
        CorsProtocol.listItems_of_isToken tokenChars_isTokenChar page.method_isToken]
    · intro item hitem
      rw [List.mem_singleton.mp hitem]
      exact page.method_isToken
  | headers =>
    refine ⟨page.unsafeNames, ?_, page.names_isToken,
      fun name hname => PageRequest.nameAllowed_of_mem hname⟩
    have hasked : (headers.get ACCESS_CONTROL_REQUEST_HEADERS).toList.map HeaderValue.chars =
        page.requestedNames.toList := by
      rw [MultiMap.get, h.names]
      cases hnames : page.requestedNames with
      | none => rfl
      | some names =>
        obtain ⟨value, hvalue, htext⟩ :=
          HeaderValue.toStr_fromStr (isHeaderChar_requestedNames hnames)
        rw [Option.bind_some, hvalue, Option.toList_some, List.head?_cons, Option.toList_some,
          List.map_singleton, chars_of_toStr htext, Option.toList_some]
    rw [PreflightList.requestName, hasked,
      PageRequest.flatMap_listItems_requestedNames tokenChars_isTokenChar]

/-- What a browser reads from a list of the answer lets the request pass exactly where the
configuration does not write the list, or writes tokens that allow the request. -/
theorem shown_iff {headers : HeaderMap} (h : IsPreflightOf page headers) :
    ((∀ item ∈ list.shown headers cfg, IsToken item) ∧
        list.Allows page (list.shown headers cfg)) ↔
      (list.IsWritten cfg →
        (∀ item ∈ list.items cfg, IsToken item) ∧ list.Allows page (list.items cfg)) := by
  unfold PreflightList.shown
  by_cases hwritten : list.IsWritten cfg
  · obtain ⟨value, hcompiled, hvalue⟩ := compiled_of_isWritten hwritten
    obtain ⟨htokens, hitems⟩ := items_of_isWritten hvalue
    rw [hcompiled, Option.some_or, Option.toList_some, List.map_singleton,
      List.flatMap_singleton, htokens]
    simp only [hwritten, true_imp_iff]
    exact and_congr_right fun h => by rw [hitems h]
  · obtain ⟨items, hitems, hok⟩ := @allows_requested _ list _ h
    rw [compiled_of_not_isWritten hwritten, Option.none_or, hitems]
    simp only [hwritten, false_imp_iff, iff_true]
    exact hok

/-! ## Fetching -/

/-- A stamped answer to a preflight carries the decision. -/
theorem decided_preflightAnswer (headers : HeaderMap) (cfg : CorsConfig) :
    Decided cfg headers (preflightAnswer headers (.fromConfig cfg)).headers where
  allowOrigin := by
    have hbuilt := (@decided_buildPreflightResponse cfg headers).allowOrigin
    rw [preflightAnswer, getAll_allowOrigin_applyToResponse]
    split
    next hsome => rw [hsome, Option.toList_some]
    next => exact hbuilt
  allowCredentials := by
    have hbuilt := (@decided_buildPreflightResponse cfg headers).allowCredentials
    rw [preflightAnswer, getAll_allowCredentials_applyToResponse, hbuilt]
    simp [CorsPolicy.fromConfig]

/-- The lists of a stamped answer to a preflight. -/
theorem getAll_allowName_preflightAnswer (headers : HeaderMap) (policy : CorsPolicy)
    (list : PreflightList) :
    (preflightAnswer headers policy).headers.getAll list.allowName =
      ((list.compiled policy).or (headers.get list.requestName)).toList := by
  rw [preflightAnswer, getAll_applyToResponse_of_not_mem (by cases list <;> decide),
    getAll_allowName_buildPreflightResponse]

/-- A browser passes the answer to a preflight exactly where the configuration permits the
request that follows. -/
theorem preflightCheck_iff {headers : HeaderMap} (h : IsPreflightOf page headers) :
    page.preflightCheck (preflightAnswer headers (.fromConfig cfg)).status.code
        (corsFields (preflightAnswer headers (.fromConfig cfg)).headers) = true ↔
      cfg.PermitsPreflight page := by
  have hmethods : (corsFields
      (preflightAnswer headers (.fromConfig cfg)).headers).allowMethods.flatMap listItems =
        PreflightList.methods.shown headers cfg :=
    congrArg (fun values => (values.map HeaderValue.chars).flatMap listItems)
      (getAll_allowName_preflightAnswer headers (.fromConfig cfg) .methods)
  have hheaders : (corsFields
      (preflightAnswer headers (.fromConfig cfg)).headers).allowHeaders.flatMap listItems =
        PreflightList.headers.shown headers cfg :=
    congrArg (fun values => (values.map HeaderValue.chars).flatMap listItems)
      (getAll_allowName_preflightAnswer headers (.fromConfig cfg) .headers)
  have hstatus : 200 ≤ (preflightAnswer headers (.fromConfig cfg)).status.code ∧
      (preflightAnswer headers (.fromConfig cfg)).status.code ≤ 299 :=
    (by decide : 200 ≤ StatusCode.noContent.code ∧ StatusCode.noContent.code ≤ 299)
  rw [PageRequest.preflightCheck_iff,
    corsCheck_iff_of_decided (decided_preflightAnswer headers cfg) h.origin, hmethods, hheaders,
    List.forall_mem_append]
  -- list by list
  have hshown := fun list => @shown_iff cfg _ list _ h
  constructor
  · rintro ⟨hpermits, -, ⟨htokens, htokens'⟩, hmethod, hnames⟩
    refine ⟨hpermits, fun list => ?_⟩
    cases list with
    | methods => exact (hshown .methods).mp ⟨htokens, hmethod⟩
    | headers => exact (hshown .headers).mp ⟨htokens', hnames⟩
  · rintro ⟨hpermits, hlists⟩
    obtain ⟨htokens, hmethod⟩ := (hshown .methods).mpr (hlists .methods)
    obtain ⟨htokens', hnames⟩ := (hshown .headers).mpr (hlists .headers)
    exact ⟨hpermits, hstatus, ⟨htokens, htokens'⟩, hmethod, hnames⟩

/-- A browser lets a page have an answer exactly where the configuration that answered the
preflight permitted the request, if it needed one, and the configuration that answered the request
permits it: for every request of a page, and an answer without a decision of its own. -/
theorem fetchSucceeds_iff {before after : CorsConfig} {page : PageRequest isTokenChar}
    {preflightHeaders requestHeaders responseHeaders : HeaderMap}
    (hpreflight : IsPreflightOf page preflightHeaders)
    (horigin : requestHeaders.getStr .origin = some page.origin)
    (hallowOrigin : responseHeaders.getAll ACCESS_CONTROL_ALLOW_ORIGIN = [])
    (hallowCredentials : responseHeaders.getAll ACCESS_CONTROL_ALLOW_CREDENTIALS = []) :
    page.fetchSucceeds (preflightAnswer preflightHeaders (.fromConfig before)).status.code
        (corsFields (preflightAnswer preflightHeaders (.fromConfig before)).headers)
        (corsFields (applyToResponse responseHeaders requestHeaders (.fromConfig after))) =
        true ↔
      (page.needsPreflight = true → before.PermitsPreflight page) ∧ after.Permits page := by
  rw [PageRequest.fetchSucceeds, Bool.and_eq_true, Bool.or_eq_true, Bool.not_eq_true',
    preflightCheck_iff hpreflight, corsCheck_iff_of_decided
      (decided_applyToResponse hallowOrigin hallowCredentials) horigin]
  refine and_congr_left fun _ => ?_
  cases page.needsPreflight <;> simp

/-- A page that deletes something, with a header of its own. -/
def deletingPage : PageRequest isTokenChar where
  origin := "https://pages.test"
  method := "DELETE"
  unsafeNames := ["x-admin"]
  credentials := false
  method_isToken := by decide
  names_isToken := by decide

/-- The page's preflight is answered by the default configuration for its origin, and its request
after a reload has taken the origin from the list. -/
theorem fetchSucceeds_iff_deletingPage :
    deletingPage.fetchSucceeds
        (preflightAnswer askingDelete
          (.fromConfig { CorsConfig.default with origins := ["https://pages.test"] })).status.code
        (corsFields (preflightAnswer askingDelete
          (.fromConfig { CorsConfig.default with origins := ["https://pages.test"] })).headers)
        (corsFields (applyToResponse .empty askingDelete (.fromConfig .default))) = true ↔
      (deletingPage.needsPreflight = true →
        { CorsConfig.default with origins := ["https://pages.test"] }.PermitsPreflight
          deletingPage) ∧ CorsConfig.default.Permits deletingPage := by
  have hasked : IsPreflightOf deletingPage askingDelete := by
    constructor <;> decide
  exact fetchSucceeds_iff hasked hasked.origin rfl rfl

end Corx
