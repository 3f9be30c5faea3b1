import Corx.Server.Dialing
import Corx.Server.Handler

/-!
# Forged forwarding headers

Two requests that differ in the forwarding headers only, at a proxy that does not trust these.
`inject` overwrites a forwarding header wherever it has a value for it (`getAll_inject_forgeable`):
always for `X-Forwarded-For` and `X-Forwarded-Port`, and for `X-Forwarded-Proto` and `Forwarded`
unless a part of them is no header value. For `X-Forwarded-Host` it has one only if the request
has a `Host` header; without it, as under HTTP/2, the client's own value goes on to the upstream.
`forged_agree_iff` gives the exact condition under which the upstream cannot tell the two apart.
-/

namespace Corx

/-- The forwarding headers that a client can forge. -/
def FORGEABLE : Set HeaderName :=
  {X_FORWARDED_FOR, X_FORWARDED_PROTO, X_FORWARDED_HOST, X_FORWARDED_PORT, FORWARDED}

/-- What injection has for the forwarding headers, in the order in which it writes them. -/
def injectedValues (inbound : InboundContext) (target : TargetUrl) :
    List (HeaderName × Option HeaderValue) :=
  [(X_FORWARDED_FOR, inbound.clientIp.bind fun client => HeaderValue.fromStr client.display),
    (X_FORWARDED_PROTO, HeaderValue.fromStr inbound.scheme),
    (X_FORWARDED_HOST, inbound.host.bind HeaderValue.fromStr),
    (X_FORWARDED_PORT, HeaderValue.fromStr (Str.ofNat inbound.localPort.toNat)),
    (FORWARDED, buildForwardedValue inbound target)]

/-- What the filter leaves of a header is the same for both requests. -/
def LeftAlike (build : ServerBuild) (request₁ request₂ : Request) (name : HeaderName) : Prop :=
  name ∈ build.policies.requestFilter.stripped request₁.headers ∨
    request₁.headers.getAll name = request₂.headers.getAll name

/-! ## What injection overwrites -/

namespace HeaderMap

/-- Replace the values of a header, if there is a value to replace them by. -/
def overwrite (headers : HeaderMap) (entry : HeaderName × Option HeaderValue) : HeaderMap :=
  match entry.2 with
  | some value => headers.insert entry.1 value
  | none => headers

/-- Overwriting leaves the other headers as they are. -/
theorem getAll_overwrite_of_ne {headers : HeaderMap} {entry : HeaderName × Option HeaderValue}
    {name : HeaderName} (h : name ≠ entry.1) :
    (headers.overwrite entry).getAll name = headers.getAll name := by
  unfold overwrite
  cases entry.2 <;> simp [h]

/-- Overwriting replaces the values of its header. -/
theorem getAll_overwrite_self {headers : HeaderMap} {name : HeaderName}
    {value : Option HeaderValue} :
    (headers.overwrite (name, value)).getAll name =
      value.elim (headers.getAll name) fun v => [v] := by
  unfold overwrite
  cases value <;> simp

/-- Overwriting several headers leaves the others as they are. -/
theorem getAll_foldl_overwrite_of_not_mem {entries : List (HeaderName × Option HeaderValue)}
    {headers : HeaderMap} {name : HeaderName} (hname : name ∉ entries.map Prod.fst) :
    (entries.foldl overwrite headers).getAll name = headers.getAll name := by
  induction entries generalizing headers with
  | nil => rfl
  | cons entry entries ih =>
    rw [List.map_cons, List.mem_cons, not_or] at hname
    rw [List.foldl_cons, ih hname.2, getAll_overwrite_of_ne hname.1]

/-- Several headers are overwritten each by its own value. -/
theorem getAll_foldl_overwrite {entries : List (HeaderName × Option HeaderValue)}
    (hnodup : (entries.map Prod.fst).Nodup) {headers : HeaderMap} {name : HeaderName}
    {value : Option HeaderValue} (hmem : (name, value) ∈ entries) :
    (entries.foldl overwrite headers).getAll name =
      value.elim (headers.getAll name) fun v => [v] := by
  induction entries generalizing headers with
  | nil => cases hmem
  | cons entry entries ih =>
    rw [List.map_cons, List.nodup_cons] at hnodup
    rw [List.foldl_cons]
    -- before its own entry and after it, the header is left alone
    rcases List.mem_cons.mp hmem with rfl | hmem
    · rw [getAll_foldl_overwrite_of_not_mem hnodup.1, getAll_overwrite_self]
    · have hne : name ≠ entry.1 := fun heq =>
        hnodup.1 (heq ▸ List.mem_map_of_mem (f := Prod.fst) hmem)
      rw [ih hnodup.2 hmem, getAll_overwrite_of_ne hne]

end HeaderMap

/-- Without trust in the client, injection overwrites the forwarding headers one by one. -/
theorem injectForwarded_eq (headers : HeaderMap) (inbound : InboundContext) (target : TargetUrl) :
    injectForwarded headers inbound target false =
      (injectedValues inbound target).foldl HeaderMap.overwrite headers := by
  unfold injectForwarded injectedValues
  cases inbound.clientIp <;> cases inbound.host <;> rfl

variable {build : ServerBuild} {request request₁ request₂ : Request} {target : TargetUrl}
  {clientIp : IpAddr} {requestId : Str} {name : HeaderName}

/-- A forgeable header is one that injection has an entry for. -/
theorem mem_forgeable_iff {inbound : InboundContext} :
    name ∈ FORGEABLE ↔ ∃ value, (name, value) ∈ injectedValues inbound target := by
  simp [FORGEABLE, injectedValues, exists_or]

/-- A forwarding header that injection has a value for is that value, and else what the filter
leaves. -/
theorem getAll_injectedHeaders (hinject : build.policies.config.forwarded.inject = true)
    (htrust : build.policies.config.forwarded.trustInboundXff = false)
    {value : Option HeaderValue}
    (hmem : (name, value) ∈ injectedValues (inboundContext build request clientIp) target) :
    (injectedHeaders build request target clientIp requestId).getAll name =
      value.elim ((build.policies.requestFilter.apply request.headers).getAll name)
        fun v => [v] := by
  have hid : name ≠ REQUEST_ID_HEADER := by
    rcases mem_forgeable_iff.mpr ⟨value, hmem⟩ with rfl | rfl | rfl | rfl | rfl <;> decide
  have hnodup : ((injectedValues (inboundContext build request clientIp) target).map
      Prod.fst).Nodup := by
    simp only [injectedValues, List.map_cons, List.map_nil]
    decide
  unfold injectedHeaders inject
  rw [hinject, htrust]
  dsimp only
  rw [if_neg (show ¬ (!true) = true by decide), injectForwarded_eq,
    HeaderMap.getAll_foldl_overwrite hnodup hmem]
  -- the request id is none of these headers
  rw [getAll_ensureRequestId _ _ _ hid]

/-! ## Which values there are -/

/-- A number in digits is a header value. -/
theorem isText_toDigits {b : ℕ} (hb : 1 < b) (n : ℕ) :
    HeaderValue.isText (Nat.toDigits b n) = true :=
  HeaderValue.isText_of_isHeaderChar fun _ => isHeaderChar_of_mem_toDigits hb

/-- An IPv4 address is printed as a header value. -/
theorem isText_displayV4 (a : BitVec 32) : HeaderValue.isText (IpAddr.displayV4 a) = true := by
  rw [IpAddr.displayV4, HeaderValue.isText_join (by decide), List.all_map, List.all_eq_true]
  exact fun shift _ => isText_toDigits (by decide) _

/-- Groups of an IPv6 address are printed as a header value. -/
theorem isText_displayGroups (groups : List ℕ) :
    HeaderValue.isText (IpAddr.displayGroups groups) = true := by
  rw [IpAddr.displayGroups, HeaderValue.isText_join (by decide), List.all_map, List.all_eq_true]
  exact fun group _ => isText_toDigits (by decide) group

/-- An IPv6 address is printed as a header value. -/
theorem isText_displayV6 (a : BitVec 128) : HeaderValue.isText (IpAddr.displayV6 a) = true := by
  unfold IpAddr.displayV6
  split
  · rw [HeaderValue.isText_append, isText_displayV4, Bool.and_true]
    decide
  · dsimp only
    split
    · rw [HeaderValue.isText_append, HeaderValue.isText_append, isText_displayGroups,
        isText_displayGroups, Bool.and_true, Bool.true_and]
      decide
    · exact isText_displayGroups _

/-- An address is printed as a header value. -/
theorem isText_display (ip : IpAddr) : HeaderValue.isText ip.display = true := by
  cases ip with
  | v4 a => exact isText_displayV4 a
  | v6 a => exact isText_displayV6 a

/-- A header read as text is a header value. -/
theorem isText_of_getStr {headers : HeaderMap} {text : Str}
    (h : headers.getStr name = some text) : HeaderValue.isText text = true := by
  obtain ⟨value, -, htext⟩ := Option.bind_eq_some_iff.mp h
  exact HeaderValue.isText_of_isHeaderChar (HeaderValue.isHeaderChar_of_toStr htext)

/-- A request has a value for `X-Forwarded-Host` exactly if it has a host. -/
theorem isSome_bind_host :
    ((inboundContext build request clientIp).host.bind HeaderValue.fromStr).isSome =
      (request.headers.getStr .host).isSome := by
  unfold inboundContext
  dsimp only
  cases hget : request.headers.getStr .host with
  | none => rfl
  | some host =>
    rw [Option.bind_some, HeaderValue.isSome_fromStr, isText_of_getStr hget, Option.isSome_some]

/-- A part of the `Forwarded` element is a header value exactly if its value is. -/
theorem all_isText_singleton {label : Str} (hlabel : HeaderValue.isText label = true)
    (value : Str) : [label ++ value].all HeaderValue.isText = HeaderValue.isText value := by
  rw [List.all_cons, List.all_nil, Bool.and_true, HeaderValue.isText_append, hlabel,
    Bool.true_and]

/-- The `Forwarded` element of a request is built exactly if the scheme and the host of the
target are header values. -/
theorem isSome_buildForwardedValue :
    (buildForwardedValue (inboundContext build request clientIp) target).isSome =
      (HeaderValue.isText (inboundContext build request clientIp).scheme &&
        HeaderValue.isText target.host) := by
  rw [buildForwardedValue, HeaderValue.isSome_fromStr, HeaderValue.isText_join (by decide)]
  rw [List.all_append, List.all_append, List.all_append]
  have hproto := all_isText_singleton (by decide : HeaderValue.isText "proto=".toList = true)
    (inboundContext build request clientIp).scheme
  have hby := all_isText_singleton (by decide : HeaderValue.isText "by=".toList = true) target.host
  refine (congrArg₂ and (congrArg₂ and (congrArg₂ and (?client : _ = true) hproto)
    (?host : _ = true)) hby).trans ?_
  case client =>
    cases clientIp with
    | v4 a => exact (all_isText_singleton (by decide) _).trans (isText_displayV4 a)
    | v6 a =>
      have hclosed : HeaderValue.isText (IpAddr.displayV6 a ++ "]\"".toList) = true := by
        rw [HeaderValue.isText_append, isText_displayV6, Bool.true_and]
        decide
      have hopened := (all_isText_singleton (by decide : HeaderValue.isText "for=\"[".toList = true)
        (IpAddr.displayV6 a ++ "]\"".toList)).trans hclosed
      rwa [← List.append_assoc] at hopened
  case host =>
    split
    next host hget => exact (all_isText_singleton (by decide) _).trans (isText_of_getStr hget)
    next => rfl
  rw [Bool.true_and, Bool.and_true]

/-! ## Two requests -/

/-- A header that the filter leaves alike is alike in both requests, or stripped from both. -/
theorem getAll_apply_eq_iff
    (hdiff : MultiMap.AgreeOff FORGEABLE request₁.headers request₂.headers) :
    (build.policies.requestFilter.apply request₁.headers).getAll name =
        (build.policies.requestFilter.apply request₂.headers).getAll name ↔
      LeftAlike build request₁ request₂ name := by
  have hconnection : HeaderName.connection ∉ FORGEABLE := by
    rintro (h | h | h | h | h) <;> exact absurd h (by decide)
  rw [HeaderFilter.apply_eq, HeaderFilter.apply_eq, MultiMap.getAll_removeAll,
    MultiMap.getAll_removeAll,
    ← HeaderFilter.stripped_congr build.policies.requestFilter (hdiff.get_eq hconnection),
    LeftAlike]
  split
  next hstripped => exact iff_of_true rfl (.inl hstripped)
  next hkept => exact (or_iff_right hkept).symm

/-- Requests that differ in the forgeable headers come over the same connection. -/
theorem inboundContext_congr (hscheme : request₁.uri.scheme = request₂.uri.scheme)
    (hdiff : MultiMap.AgreeOff FORGEABLE request₁.headers request₂.headers) :
    inboundContext build request₁ clientIp = inboundContext build request₂ clientIp := by
  have hhost : HeaderName.host ∉ FORGEABLE := by
    rintro (h | h | h | h | h) <;> exact absurd h (by decide)
  simp only [inboundContext, hscheme, HeaderMap.getStr, hdiff.get_eq hhost]

/-- A forwarding header is the same for both requests, if injection has a value for it or the
filter leaves it alike. -/
theorem getAll_injectedHeaders_eq_iff {id₁ id₂ : Str}
    (hinject : build.policies.config.forwarded.inject = true)
    (htrust : build.policies.config.forwarded.trustInboundXff = false)
    (hscheme : request₁.uri.scheme = request₂.uri.scheme)
    (hdiff : MultiMap.AgreeOff FORGEABLE request₁.headers request₂.headers)
    {value : Option HeaderValue}
    (hmem : (name, value) ∈ injectedValues (inboundContext build request₁ clientIp) target) :
    (injectedHeaders build request₁ target clientIp id₁).getAll name =
        (injectedHeaders build request₂ target clientIp id₂).getAll name ↔
      value.isSome = true ∨ LeftAlike build request₁ request₂ name := by
  have hmem₂ := hmem
  rw [inboundContext_congr hscheme hdiff] at hmem₂
  rw [getAll_injectedHeaders hinject htrust hmem, getAll_injectedHeaders hinject htrust hmem₂,
    ← getAll_apply_eq_iff hdiff]
  cases value <;> simp

/-- The header maps of two requests that differ in the forgeable headers agree on these, exactly
if: there is a `Host` header or `X-Forwarded-Host` is left alike; the scheme is a header value or
`X-Forwarded-Proto` is left alike; and the scheme and the host of the target are header values or
`Forwarded` is left alike. -/
theorem forged_agree_iff {build : ServerBuild} {request₁ request₂ : Request}
    (target : TargetUrl) (clientIp : IpAddr) (id₁ id₂ : Str)
    (hinject : build.policies.config.forwarded.inject = true)
    (htrust : build.policies.config.forwarded.trustInboundXff = false)
    (hscheme : request₁.uri.scheme = request₂.uri.scheme)
    (hdiff : MultiMap.AgreeOff FORGEABLE request₁.headers request₂.headers) :
    (∀ name ∈ FORGEABLE, (injectedHeaders build request₁ target clientIp id₁).getAll name =
        (injectedHeaders build request₂ target clientIp id₂).getAll name) ↔
      ((request₁.headers.getStr .host).isSome = true ∨
        LeftAlike build request₁ request₂ X_FORWARDED_HOST) ∧
      (HeaderValue.isText (inboundContext build request₁ clientIp).scheme = true ∨
        LeftAlike build request₁ request₂ X_FORWARDED_PROTO) ∧
      ((HeaderValue.isText (inboundContext build request₁ clientIp).scheme &&
          HeaderValue.isText target.host) = true ∨
        LeftAlike build request₁ request₂ FORWARDED) := by
  have hiff {name : HeaderName} {value : Option HeaderValue}
      (hmem : (name, value) ∈ injectedValues (inboundContext build request₁ clientIp) target) :
      (injectedHeaders build request₁ target clientIp id₁).getAll name =
          (injectedHeaders build request₂ target clientIp id₂).getAll name ↔
        value.isSome = true ∨ LeftAlike build request₁ request₂ name :=
    getAll_injectedHeaders_eq_iff hinject htrust hscheme hdiff hmem
  -- the address of the client and the port are always written
  have hfor := (hiff (.head _)).mpr (.inl (by
    rw [inboundContext, Option.bind_some, HeaderValue.isSome_fromStr, isText_display]))
  have hport := (hiff (.tail _ (.tail _ (.tail _ (.head _))))).mpr (.inl (by
    rw [HeaderValue.isSome_fromStr, Str.ofNat, isText_toDigits (by decide)]))
  have hproto := hiff (.tail _ (.head _))
  have hhost := hiff (.tail _ (.tail _ (.head _)))
  have hforwarded := hiff (.tail _ (.tail _ (.tail _ (.tail _ (.head _)))))
  rw [HeaderValue.isSome_fromStr] at hproto
  rw [isSome_bind_host] at hhost
  rw [isSome_buildForwardedValue] at hforwarded
  simp only [FORGEABLE, Set.mem_insert_iff, Set.mem_singleton_iff, forall_eq_or_imp, forall_eq]
  rw [hproto, hhost, hforwarded]
  constructor
  · rintro ⟨-, hproto, hhost, -, hforwarded⟩
    exact ⟨hhost, hproto, hforwarded⟩
  · rintro ⟨hhost, hproto, hforwarded⟩
    exact ⟨hfor, hproto, hhost, hport, hforwarded⟩

/-! ## A request without a host -/

/-- `evil.test`, as a header value. -/
def forgedHost : HeaderValue := ⟨Str.asBytes "evil.test", by decide⟩

/-- A request over HTTP/2, whose authority is part of its URI, with the given headers. -/
def http2Get (headers : HeaderMap) : Request where
  method := .get
  uri :=
    { scheme := some "https".toList
      authority := some "proxy.test".toList
      path := "/https://api.test/"
      query := none }
  headers
  body := []

/-- A request that claims to be for another host. -/
def forgingGet : Request :=
  http2Get (MultiMap.empty.insert X_FORWARDED_HOST forgedHost)

/-- The same request without that claim. -/
def honestGet : Request :=
  http2Get .empty

/-- The two requests differ in a forgeable header only. -/
theorem agreeOff_forgingGet : MultiMap.AgreeOff FORGEABLE forgingGet.headers honestGet.headers := by
  intro name hname
  have hne : name ≠ X_FORWARDED_HOST := fun h => hname (h ▸ .inr (.inr (.inl rfl)))
  exact MultiMap.getAll_insert.trans (if_neg hne)

/-- The condition for the two requests. -/
theorem forged_agree_iff_http2 :
    (∀ name ∈ FORGEABLE,
      (injectedHeaders defaultBuild forgingGet namedTarget (.v4 0) []).getAll name =
        (injectedHeaders defaultBuild honestGet namedTarget (.v4 0) []).getAll name) ↔
      ((forgingGet.headers.getStr .host).isSome = true ∨
        LeftAlike defaultBuild forgingGet honestGet X_FORWARDED_HOST) ∧
      (HeaderValue.isText (inboundContext defaultBuild forgingGet (.v4 0)).scheme = true ∨
        LeftAlike defaultBuild forgingGet honestGet X_FORWARDED_PROTO) ∧
      ((HeaderValue.isText (inboundContext defaultBuild forgingGet (.v4 0)).scheme &&
          HeaderValue.isText namedTarget.host) = true ∨
        LeftAlike defaultBuild forgingGet honestGet FORWARDED) :=
  forged_agree_iff namedTarget (.v4 0) [] [] (by decide +kernel) (by decide +kernel) rfl
    agreeOff_forgingGet

/-- Without a `Host` header the client's `X-Forwarded-Host` goes on to the upstream. -/
theorem forged_host_without_host :
    defaultBuild.policies.config.forwarded.inject = true ∧
    defaultBuild.policies.config.forwarded.trustInboundXff = false ∧
    MultiMap.AgreeOff FORGEABLE forgingGet.headers honestGet.headers ∧
    (injectedHeaders defaultBuild forgingGet namedTarget (.v4 0) []).getAll X_FORWARDED_HOST =
      [forgedHost] ∧
    (injectedHeaders defaultBuild honestGet namedTarget (.v4 0) []).getAll X_FORWARDED_HOST = [] :=
  ⟨by decide +kernel, by decide +kernel, agreeOff_forgingGet, by decide +kernel, by decide +kernel⟩

end Corx
