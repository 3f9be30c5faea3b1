import Corx.Proxy.ListHeaders
import Corx.Server.ForgedHeaders

/-!
# The chain of proxies

`X-Forwarded-For` and `Via` list the hops of a request. Both are extended behind their first line,
in the place of all lines (`HeaderMap.appendElement`): `chain_extended_iff` says when the list of
the hops before survives, and `inject_idempotent_iff` when stamping twice is stamping once, which
for a trusted `X-Forwarded-For` it never is.
-/

namespace Corx

variable {headers : HeaderMap} {inbound : InboundContext} {target : TargetUrl}
  {cfg : ForwardedConfig} {requestId : Str} {name : HeaderName}

/-! ## The elements of this hop -/

/-- Appending the token of this hop is appending an element. -/
theorem appendViaHeader_eq (headers : HeaderMap) :
    appendViaHeader headers = headers.appendElement .via VIA_HEADER_VALUE := by
  unfold appendViaHeader HeaderMap.appendElement
  cases headers.getStr .via <;> rfl

/-- The token of this hop is an element. -/
theorem isElement_via : IsElement VIA_HEADER_VALUE :=
  ⟨List.all_iff_forall_prop.mp
    (by decide : VIA_HEADER_VALUE.all fun c => decide (IsHeaderChar c)), by decide⟩

/-- An address is an element. -/
theorem isElement_display (client : IpAddr) : IsElement client.display := by
  have hchars : ∀ c ∈ IpAddr.displayChars,
      (IsHeaderChar c ∧ c ≠ ',') ∧ Str.isWhitespace c = false :=
    List.all_iff_forall_prop.mp (by decide)
  have hdisplay : ∀ c ∈ client.display, (IsHeaderChar c ∧ c ≠ ',') ∧ Str.isWhitespace c = false :=
    fun c hc => hchars c (IpAddr.mem_displayChars_of_display c hc)
  exact
    { chars := fun c hc => (hdisplay c hc).1.1
      single := Str.listElements_singleton client.display_ne_nil
        (fun hmem => (hdisplay ',' hmem).1.2 rfl) fun c hc => (hdisplay c hc).2 }

/-! ## What injection writes -/

/-- The value that injection has for `X-Forwarded-For`. -/
def xffValue (headers : HeaderMap) (inbound : InboundContext) (trustInboundXff : Bool) :
    Option HeaderValue :=
  inbound.clientIp.bind fun client =>
    HeaderValue.fromStr
      (if trustInboundXff then
        (headers.getStr X_FORWARDED_FOR).elim client.display fun prev =>
          prev ++ ", ".toList ++ client.display
      else client.display)

/-- What injection has for the forwarding headers, in the order in which it writes them. -/
def stampedValues (headers : HeaderMap) (inbound : InboundContext) (target : TargetUrl)
    (trustInboundXff : Bool) : List (HeaderName × Option HeaderValue) :=
  (X_FORWARDED_FOR, xffValue headers inbound trustInboundXff) ::
    (injectedValues inbound target).tail

/-- The headers that injection has an entry for. -/
theorem map_fst_stampedValues (headers : HeaderMap) (trustInboundXff : Bool) :
    (stampedValues headers inbound target trustInboundXff).map Prod.fst =
      FORWARDING_HEADERS.erase REQUEST_ID_HEADER :=
  rfl

/-- Injection overwrites the forwarding headers one by one. -/
theorem injectForwarded_eq_foldl (headers : HeaderMap) (inbound : InboundContext)
    (target : TargetUrl) (trustInboundXff : Bool) :
    injectForwarded headers inbound target trustInboundXff =
      (stampedValues headers inbound target trustInboundXff).foldl HeaderMap.overwrite headers := by
  unfold injectForwarded stampedValues injectedValues xffValue
  cases inbound.clientIp with
  | none => cases inbound.host <;> rfl
  | some client =>
    cases trustInboundXff with
    | false => cases inbound.host <;> rfl
    | true =>
      unfold appendXff
      cases headers.getStr X_FORWARDED_FOR <;> cases inbound.host <;> rfl

/-- Switched off, injection touches the request id only. -/
theorem getAll_inject_of_off (hinject : cfg.inject = false) (hid : name ≠ REQUEST_ID_HEADER) :
    (inject headers inbound target cfg requestId).getAll name = headers.getAll name := by
  unfold inject
  rw [hinject]
  exact getAll_ensureRequestId headers cfg requestId hid

/-- Injection writes the forwarding headers that it has a value for, and leaves the others. -/
theorem getAll_inject_of_mem (hinject : cfg.inject = true) {value : Option HeaderValue}
    (hmem : (name, value) ∈ stampedValues headers inbound target cfg.trustInboundXff) :
    (inject headers inbound target cfg requestId).getAll name =
      value.elim (headers.getAll name) fun v => [v] := by
  have hname : name ∈ FORWARDING_HEADERS.erase REQUEST_ID_HEADER :=
    map_fst_stampedValues headers cfg.trustInboundXff ▸ List.mem_map_of_mem (f := Prod.fst) hmem
  have hid : name ≠ REQUEST_ID_HEADER := by
    rintro rfl
    exact absurd hname (by decide)
  have hnodup : ((stampedValues headers inbound target cfg.trustInboundXff).map
      Prod.fst).Nodup := by
    rw [map_fst_stampedValues]
    decide
  -- the request id does not change what is read of `X-Forwarded-For`
  have hread : stampedValues
      (if cfg.injectRequestId then ensureRequestId headers requestId else headers) inbound target
        cfg.trustInboundXff = stampedValues headers inbound target cfg.trustInboundXff := by
    have hget := getAll_ensureRequestId headers cfg requestId
      (show X_FORWARDED_FOR ≠ REQUEST_ID_HEADER by decide)
    unfold stampedValues xffValue HeaderMap.getStr MultiMap.get
    rw [hget]
  unfold inject
  rw [hinject]
  dsimp only
  rw [if_neg (show ¬ (!true) = true by decide), injectForwarded_eq_foldl, hread,
    HeaderMap.getAll_foldl_overwrite hnodup hmem, getAll_ensureRequestId _ _ _ hid]

/-- The request ids that injection leaves. -/
theorem getAll_requestId_inject :
    (inject headers inbound target cfg requestId).getAll REQUEST_ID_HEADER =
      (if cfg.injectRequestId then ensureRequestId headers requestId else headers).getAll
        REQUEST_ID_HEADER := by
  have hnotMem : ∀ h : HeaderMap, (injectForwarded h inbound target
      cfg.trustInboundXff).getAll REQUEST_ID_HEADER = h.getAll REQUEST_ID_HEADER := by
    intro h
    rw [injectForwarded_eq_foldl, HeaderMap.getAll_foldl_overwrite_of_not_mem]
    rw [map_fst_stampedValues]
    decide
  unfold inject
  dsimp only
  split
  · rfl
  · rw [hnotMem]

/-- With trust in the client, injection appends it to `X-Forwarded-For`. -/
theorem getAll_xff_inject (hinject : cfg.inject = true) (htrust : cfg.trustInboundXff = true)
    {client : IpAddr} (hclient : inbound.clientIp = some client) :
    (inject headers inbound target cfg requestId).getAll X_FORWARDED_FOR =
      (headers.appendElement X_FORWARDED_FOR client.display).getAll X_FORWARDED_FOR := by
  rw [getAll_inject_of_mem hinject List.mem_cons_self, HeaderMap.appendElement,
    HeaderMap.getAll_insertStr_self, xffValue, hclient, htrust, Option.bind_some]
  rfl

/-! ## The hops before -/

/-- With trust in the client, the hops of `X-Forwarded-For` and those of `Via` are each kept, with
this one behind them, exactly if injection is on, for `X-Forwarded-For`, and no line of the header
after the first has an element. -/
theorem chain_extended_iff (target : TargetUrl) (requestId : Str)
    (hxff : headers.IsVisible X_FORWARDED_FOR) (hvia : headers.IsVisible .via)
    (htrust : cfg.trustInboundXff = true) {client : IpAddr}
    (hclient : inbound.clientIp = some client) :
    ((inject headers inbound target cfg requestId).flattened X_FORWARDED_FOR =
          headers.flattened X_FORWARDED_FOR ++ [client.display] ↔
        cfg.inject = true ∧ headers.laterElements X_FORWARDED_FOR = []) ∧
      ((appendViaHeader headers).flattened .via = headers.flattened .via ++ [VIA_HEADER_VALUE] ↔
        headers.laterElements .via = []) := by
  constructor
  · cases hinject : cfg.inject with
    | false =>
      rw [HeaderMap.flattened_congr (getAll_inject_of_off hinject (by decide))]
      simp
    | true =>
      rw [HeaderMap.flattened_congr (getAll_xff_inject hinject htrust hclient), and_iff_right rfl]
      exact HeaderMap.flattened_appendElement_eq_iff hxff (isElement_display client)
  · rw [appendViaHeader_eq]
    exact HeaderMap.flattened_appendElement_eq_iff hvia isElement_via

/-! ### A request through a load balancer -/

/-- The target of the request. -/
def hopTarget : TargetUrl where
  url :=
    { scheme := "https"
      username := []
      password := none
      hostStr := some "api.test"
      port := none
      path := "/"
      query := none
      fragment := none }
  host := "api.test"
  port := 443

/-- A connection from a load balancer. -/
def fromBalancer : InboundContext where
  clientIp := some (.v4 0x0A000001#32)
  scheme := "https"
  host := none
  localPort := 8080

/-- A configuration that trusts what is in front of the proxy. -/
def trustingConfig : ForwardedConfig where
  inject := true
  trustInboundXff := true
  injectRequestId := false

/-- The hops before, on one line of each header. -/
def oneChainLine : HeaderMap :=
  .ofList [(X_FORWARDED_FOR, ⟨Str.asBytes "192.0.2.7, 198.51.100.4", by decide⟩),
    (.via, ⟨Str.asBytes "1.0 fred", by decide⟩)]

/-- `chain_extended_iff` for hops on one line. -/
theorem chain_extended_iff_one_line :
    ((inject oneChainLine fromBalancer hopTarget trustingConfig []).flattened X_FORWARDED_FOR =
          oneChainLine.flattened X_FORWARDED_FOR ++ [(IpAddr.v4 0x0A000001#32).display] ↔
        trustingConfig.inject = true ∧ oneChainLine.laterElements X_FORWARDED_FOR = []) ∧
      ((appendViaHeader oneChainLine).flattened .via =
          oneChainLine.flattened .via ++ [VIA_HEADER_VALUE] ↔
        oneChainLine.laterElements .via = []) :=
  chain_extended_iff hopTarget [] (by decide) (by decide) rfl rfl

/-- The hops before, the last of them on a line of its own. -/
def twoChainLines : HeaderMap :=
  .ofList [(X_FORWARDED_FOR, ⟨Str.asBytes "192.0.2.7", by decide⟩),
    (X_FORWARDED_FOR, ⟨Str.asBytes "198.51.100.4", by decide⟩),
    (.via, ⟨Str.asBytes "1.0 fred", by decide⟩), (.via, ⟨Str.asBytes "1.1 wilma", by decide⟩)]

/-- The entries of the second lines are lost. -/
theorem second_chain_line_lost :
    twoChainLines.IsVisible X_FORWARDED_FOR ∧ twoChainLines.IsVisible .via ∧
      (inject twoChainLines fromBalancer hopTarget trustingConfig []).flattened X_FORWARDED_FOR =
        ["192.0.2.7".toList, "10.0.0.1".toList] ∧
      (inject twoChainLines fromBalancer hopTarget trustingConfig []).flattened X_FORWARDED_FOR ≠
        twoChainLines.flattened X_FORWARDED_FOR ++ [(IpAddr.v4 0x0A000001#32).display] ∧
      (appendViaHeader twoChainLines).flattened .via ≠
        twoChainLines.flattened .via ++ [VIA_HEADER_VALUE] := by
  decide +kernel

/-! ## Stamping twice -/

/-- A request id is generated once. -/
theorem ensureRequestId_ensureRequestId (headers : HeaderMap) (requestId : Str) :
    ensureRequestId (ensureRequestId headers requestId) requestId =
      ensureRequestId headers requestId := by
  by_cases hkey : headers.containsKey REQUEST_ID_HEADER = true
  · have hkept : ensureRequestId headers requestId = headers := by
      rw [ensureRequestId, if_pos hkey]
    rw [hkept, hkept]
  · have hwritten : ensureRequestId headers requestId =
        headers.insertStr REQUEST_ID_HEADER requestId := by rw [ensureRequestId, if_neg hkey]
    cases hvalue : HeaderValue.fromStr requestId with
    | none =>
      have hkept : ensureRequestId headers requestId = headers := by
        rw [hwritten, HeaderMap.insertStr, hvalue]
      rw [hkept, hkept]
    | some value =>
      rw [hwritten, ensureRequestId, if_pos]
      rw [MultiMap.containsKey, HeaderMap.getAll_insertStr_self, hvalue]
      rfl

/-- What injection leaves of the request ids stays. -/
theorem getAll_requestId_inject_inject :
    (inject (inject headers inbound target cfg requestId) inbound target cfg requestId).getAll
        REQUEST_ID_HEADER =
      (inject headers inbound target cfg requestId).getAll REQUEST_ID_HEADER := by
  have hcongr : ∀ h h' : HeaderMap, h.getAll REQUEST_ID_HEADER = h'.getAll REQUEST_ID_HEADER →
      (ensureRequestId h requestId).getAll REQUEST_ID_HEADER =
        (ensureRequestId h' requestId).getAll REQUEST_ID_HEADER := by
    intro h h' heq
    have hkey : h.containsKey REQUEST_ID_HEADER = h'.containsKey REQUEST_ID_HEADER := by
      rw [MultiMap.containsKey, heq, MultiMap.containsKey]
    unfold ensureRequestId
    rw [hkey]
    split
    · exact heq
    · rw [HeaderMap.getAll_insertStr_self, HeaderMap.getAll_insertStr_self, heq]
  have hfirst : (inject headers inbound target cfg requestId).getAll REQUEST_ID_HEADER =
      (if cfg.injectRequestId then ensureRequestId headers requestId else headers).getAll
        REQUEST_ID_HEADER := getAll_requestId_inject
  rw [getAll_requestId_inject]
  cases hid : cfg.injectRequestId with
  | false => rfl
  | true =>
    rw [hid] at hfirst
    rw [if_pos rfl, hcongr _ _ hfirst, if_pos rfl, ensureRequestId_ensureRequestId, hfirst,
      if_pos rfl]

/-- With trust in the client, a second injection makes the list of the first one longer. -/
theorem inject_inject_ne (hinject : cfg.inject = true) (htrust : cfg.trustInboundXff = true)
    {client : IpAddr} (hclient : inbound.clientIp = some client) :
    inject (inject headers inbound target cfg requestId) inbound target cfg requestId ≠
      inject headers inbound target cfg requestId := by
  intro h
  have hlines : ∀ h : HeaderMap, (inject h inbound target cfg requestId).getAll X_FORWARDED_FOR =
      (h.appendElement X_FORWARDED_FOR client.display).getAll X_FORWARDED_FOR :=
    fun _ => getAll_xff_inject hinject htrust hclient
  -- the first application leaves one visible line
  obtain ⟨line, hline, htext⟩ := headers.exists_line_appendElement X_FORWARDED_FOR
    (isElement_display client)
  rw [← hlines] at hline
  have hvisible : (inject headers inbound target cfg requestId).IsVisible X_FORWARDED_FOR := by
    intro line' hmem
    rw [hline, List.mem_singleton] at hmem
    rw [hmem, htext]
  have hlater : (inject headers inbound target cfg requestId).laterElements X_FORWARDED_FOR =
      [] := by
    rw [HeaderMap.laterElements, hline]
    rfl
  have hlonger := (HeaderMap.flattened_appendElement_eq_iff hvisible
    (isElement_display client)).mpr hlater
  rw [← HeaderMap.flattened_congr (hlines _), h, List.self_eq_append_right] at hlonger
  cases hlonger

/-- Without trust in the client, or without a client, what injection writes does not depend on
what is there. -/
theorem stampedValues_congr {headers' : HeaderMap}
    (h : cfg.trustInboundXff = false ∨ inbound.clientIp = none) :
    stampedValues headers inbound target cfg.trustInboundXff =
      stampedValues headers' inbound target cfg.trustInboundXff := by
  unfold stampedValues xffValue
  rcases h with h | h
  · rw [h]
    rfl
  · rw [h]
    rfl

/-- Injecting the forwarding headers twice is injecting them once, exactly if they are not injected,
the client is not trusted, or it is not known. -/
theorem inject_idempotent_iff (headers : HeaderMap) (inbound : InboundContext) (target : TargetUrl)
    (cfg : ForwardedConfig) (requestId : Str) :
    inject (inject headers inbound target cfg requestId) inbound target cfg requestId =
        inject headers inbound target cfg requestId ↔
      cfg.inject = false ∨ cfg.trustInboundXff = false ∨ inbound.clientIp = none := by
  constructor
  · intro h
    by_contra hnot
    simp only [not_or, Bool.not_eq_false] at hnot
    obtain ⟨hinject, htrust, hclient⟩ := hnot
    obtain ⟨client, hclient⟩ := Option.ne_none_iff_exists'.mp hclient
    exact inject_inject_ne hinject htrust hclient h
  · intro h
    ext1
    funext name
    by_cases hid : name = REQUEST_ID_HEADER
    · rw [hid, getAll_requestId_inject_inject]
    · by_cases hmem : name ∈ FORWARDING_HEADERS
      · cases hinject : cfg.inject with
        | false => rw [getAll_inject_of_off hinject hid]
        | true =>
          have hentry : name ∈ (stampedValues headers inbound target cfg.trustInboundXff).map
              Prod.fst := by
            rw [map_fst_stampedValues]
            exact (List.mem_erase_of_ne hid).mpr hmem
          obtain ⟨⟨name, value⟩, hvalue, rfl⟩ := List.mem_map.mp hentry
          have hagain : (name, value) ∈ stampedValues (inject headers inbound target cfg requestId)
              inbound target cfg.trustInboundXff := by
            rwa [stampedValues_congr (h.resolve_left (by rw [hinject]; decide))]
          rw [getAll_inject_of_mem hinject hagain, getAll_inject_of_mem hinject hvalue]
          cases value <;> rfl
      · rw [getAll_inject _ _ _ _ _ hmem]

/-- A trusted client is listed twice. -/
theorem client_listed_twice :
    (inject (inject .empty fromBalancer hopTarget trustingConfig []) fromBalancer hopTarget
          trustingConfig []).flattened X_FORWARDED_FOR =
        ["10.0.0.1".toList, "10.0.0.1".toList] ∧
      inject (inject .empty fromBalancer hopTarget trustingConfig []) fromBalancer hopTarget
          trustingConfig [] ≠
        inject .empty fromBalancer hopTarget trustingConfig [] := by
  have htwice : (inject (inject .empty fromBalancer hopTarget trustingConfig []) fromBalancer
      hopTarget trustingConfig []).flattened X_FORWARDED_FOR =
        ["10.0.0.1".toList, "10.0.0.1".toList] := by decide +kernel
  refine ⟨htwice, fun h => ?_⟩
  rw [h] at htwice
  revert htwice
  decide +kernel

end Corx
