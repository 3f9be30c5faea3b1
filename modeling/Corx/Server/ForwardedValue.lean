import Corx.Base.ParameterList
import Corx.Server.ChainHeaders

/-!
# The `Forwarded` element

RFC 7239: a `Forwarded` value is a list of elements with parameters. The code puts an IPv6 address
into quotes, and everything else as it is; the host is the client's. `forwarded_decodes_iff` says
when a recipient reads the parameters that were meant.
-/

namespace Corx

open ParameterList (Written elementText)

/-- The characters of a token do not structure a list. -/
theorem tokenChars_isTokenChar : ParameterList.TokenChars isTokenChar := by
  constructor <;> decide

/-- A token, RFC 7230. -/
def IsToken (s : Str) : Prop :=
  ParameterList.isToken isTokenChar s = true

instance : DecidablePred IsToken := fun _ => inferInstanceAs (Decidable (_ = true))

/-- The elements of a `Forwarded` value, each as its parameters. -/
def decodeForwarded (value : HeaderValue) : Option (List (List (Str × Str))) :=
  value.toStr.bind (ParameterList.parse isTokenChar)

/-- The name of a node: an IPv6 address is enclosed in brackets. -/
def nodeName : IpAddr → Str
  | .v4 a => IpAddr.displayV4 a
  | .v6 a => "[".toList ++ IpAddr.displayV6 a ++ "]".toList

/-- The parameters that the element of this hop is meant to have. -/
def forwardedParams (inbound : InboundContext) (target : TargetUrl) : List (Str × Str) :=
  (inbound.clientIp.elim [] fun client => [("for".toList, nodeName client)]) ++
    [("proto".toList, inbound.scheme)] ++
    (inbound.host.elim [] fun host => [("host".toList, host)]) ++ [("by".toList, target.host)]

/-- Injection writes this `Forwarded` value, whatever the headers are. -/
def InjectWrites (inbound : InboundContext) (target : TargetUrl) (cfg : ForwardedConfig)
    (value : HeaderValue) : Prop :=
  ∀ headers requestId, (inject headers inbound target cfg requestId).getAll FORWARDED = [value]

/-! ## The element as it is written -/

/-- A parameter that is written as it is. -/
def plainPart (name value : Str) : Written where
  name := name
  raw := value
  value := value

/-- The parameter for the client. -/
def clientPart : IpAddr → Written
  | .v4 a => plainPart "for" (nodeName (.v4 a))
  | .v6 a =>
    { name := "for"
      raw := '"' :: (nodeName (.v6 a) ++ ['"'])
      value := nodeName (.v6 a) }

/-- The parameters of this hop. -/
def forwardedParts (inbound : InboundContext) (target : TargetUrl) : List Written :=
  (inbound.clientIp.elim [] fun client => [clientPart client]) ++
    [plainPart "proto" inbound.scheme] ++
    (inbound.host.elim [] fun host => [plainPart "host" host]) ++ [plainPart "by" target.host]

variable {inbound : InboundContext} {target : TargetUrl} {cfg : ForwardedConfig}
  {value : HeaderValue}

/-- The parts stand for the parameters. -/
theorem map_param_forwardedParts :
    (forwardedParts inbound target).map Written.param = forwardedParams inbound target := by
  unfold forwardedParts forwardedParams
  cases inbound.clientIp with
  | none => cases inbound.host <;> rfl
  | some client => cases client <;> cases inbound.host <;> rfl

/-- The code writes the parts. -/
theorem buildForwardedValue_eq :
    buildForwardedValue inbound target =
      HeaderValue.fromStr (elementText (forwardedParts inbound target)) := by
  unfold buildForwardedValue forwardedParts elementText
  cases inbound.clientIp with
  | none => cases inbound.host <;> rfl
  | some client =>
    cases client with
    | v4 a => cases inbound.host <;> rfl
    | v6 a =>
      have htext : (clientPart (.v6 a)).text =
          "for=\"[".toList ++ IpAddr.displayV6 a ++ "]\"".toList := by
        simp [clientPart, Written.text, nodeName]
      cases inbound.host <;>
        simp only [Option.elim_some, Option.elim_none, List.map_append, List.map_cons, List.map_nil,
          htext] <;> rfl

/-- The parts, one by one. -/
theorem mem_forwardedParts {p : Written} :
    p ∈ forwardedParts inbound target ↔
      ((∃ client, inbound.clientIp = some client ∧ p = clientPart client) ∨
        p = plainPart "proto" inbound.scheme) ∨
        (∃ host, inbound.host = some host ∧ p = plainPart "host" host) ∨
          p = plainPart "by" target.host := by
  unfold forwardedParts
  rw [List.append_assoc, List.mem_append, List.mem_append, List.mem_append, List.mem_singleton,
    List.mem_singleton]
  cases inbound.clientIp <;> cases inbound.host <;> simp

/-- What injection writes is what it builds. -/
theorem InjectWrites.eq (h : InjectWrites inbound target cfg value) :
    buildForwardedValue inbound target = some value := by
  have hempty := h .empty []
  cases hinject : cfg.inject with
  | false =>
    rw [getAll_inject_of_off hinject (by decide)] at hempty
    cases hempty
  | true =>
    have hmem : (FORWARDED, buildForwardedValue inbound target) ∈
        stampedValues .empty inbound target cfg.trustInboundXff := by
      simp [stampedValues, injectedValues]
    rw [getAll_inject_of_mem hinject hmem] at hempty
    cases hbuild : buildForwardedValue inbound target with
    | none =>
      rw [hbuild] at hempty
      cases hempty
    | some built =>
      rw [hbuild, Option.elim_some] at hempty
      rw [List.singleton_injective hempty]

/-! ## Which parts are tokens -/

/-- An IPv4 address is a token. -/
theorem isToken_displayV4 (a : BitVec 32) : IsToken (IpAddr.displayV4 a) := by
  rw [IsToken, ParameterList.isToken, Bool.and_eq_true, Bool.not_eq_true',
    List.isEmpty_eq_false_iff, List.all_eq_true]
  refine ⟨IpAddr.display_ne_nil (.v4 a), fun c hc => ?_⟩
  rcases IpAddr.isDigit_of_mem_displayV4 c hc with hdigit | rfl
  · rw [isTokenChar, Char.isAlphanum, hdigit, Bool.or_true, Bool.true_or]
  · decide

/-- The name of a node consists of brackets and the characters of addresses. -/
theorem mem_of_mem_nodeName {client : IpAddr} {c : Char} (hc : c ∈ nodeName client) :
    c ∈ "[]".toList ++ IpAddr.displayChars := by
  cases client with
  | v4 a => exact List.mem_append_right _ (IpAddr.mem_displayChars_of_displayV4 c hc)
  | v6 a =>
    rcases List.mem_append.mp hc with hc | hc
    · rcases List.mem_append.mp hc with hc | hc
      · exact List.mem_append_left _ (List.mem_append_left [']'] hc)
      · exact List.mem_append_right _ (IpAddr.mem_displayChars_of_displayV6 c hc)
    · exact List.mem_append_left _ (List.mem_append_right ['['] hc)

/-- The parts have tokens for names, and quotes only where they must. -/
theorem ok_forwardedParts : ∀ p ∈ forwardedParts inbound target, p.Ok isTokenChar := by
  have hplain : ∀ name value : Str, IsToken name → (plainPart name value).Ok isTokenChar :=
    fun name value hname => ⟨hname, Or.inl rfl⟩
  have hclient : ∀ client, (clientPart client).Ok isTokenChar := by
    intro client
    cases client with
    | v4 a => exact hplain _ _ (by decide)
    | v6 a =>
      have hname : IsToken ("for" : Str) := by decide
      refine ⟨hname, Or.inr ⟨rfl, fun c hc => ?_, ?_⟩⟩
      · have hall : ∀ c ∈ "[]".toList ++ IpAddr.displayChars,
            ParameterList.isQuotedText c = true := List.all_iff_forall_prop.mp (by decide)
        exact hall c (@mem_of_mem_nodeName (.v6 a) c hc)
      · -- a bracket is no token character
        rw [clientPart, nodeName, ParameterList.isToken]
        simp [show isTokenChar '[' = false by decide]
  intro p hp
  rcases mem_forwardedParts.mp hp with (⟨client, -, rfl⟩ | rfl) | ⟨host, -, rfl⟩ | rfl
  · exact hclient client
  · exact hplain _ _ (by decide)
  · exact hplain _ _ (by decide)
  · exact hplain _ _ (by decide)

/-- Next to the scheme, what is written without quotes is tokens exactly if the host, where there
is one, and the host of the target are. -/
theorem forall_isToken_iff (hscheme : IsToken inbound.scheme) :
    (∀ p ∈ forwardedParts inbound target, p.raw = p.value → IsToken p.value) ↔
      (∀ host ∈ inbound.host, IsToken host) ∧ IsToken target.host := by
  have hclient : ∀ client, (clientPart client).raw = (clientPart client).value →
      IsToken (clientPart client).value := by
    intro client
    cases client with
    | v4 a => exact fun _ => isToken_displayV4 a
    | v6 a =>
      intro h
      have hlength := congrArg List.length h
      simp only [clientPart, List.length_cons, List.length_append] at hlength
      omega
  constructor
  · intro h
    refine ⟨fun host hhost => ?_, ?_⟩
    · exact h (plainPart "host" host) (mem_forwardedParts.mpr (Or.inr (Or.inl ⟨host, hhost, rfl⟩)))
        rfl
    · exact h (plainPart "by" target.host) (mem_forwardedParts.mpr (Or.inr (Or.inr rfl))) rfl
  · rintro ⟨hhost, htarget⟩ p hp hraw
    rcases mem_forwardedParts.mp hp with (⟨client, -, rfl⟩ | rfl) | ⟨host, hinbound, rfl⟩ | rfl
    · exact hclient client hraw
    · exact hscheme
    · exact hhost host hinbound
    · exact htarget

/-! ## What a recipient reads -/

/-- Token characters are header characters. -/
theorem isHeaderChar_of_isTokenChar {c : Char} (h : isTokenChar c = true) : IsHeaderChar c := by
  have hrange : ∀ low high : Char, 32 ≤ low.toNat → high.toNat < 127 → low.val ≤ c.val →
      c.val ≤ high.val → IsHeaderChar c := by
    intro low high hlow hhigh hlc hch
    exact Or.inl ⟨hlow.trans (UInt32.le_iff_toNat_le.mp hlc),
      Nat.lt_of_le_of_lt (UInt32.le_iff_toNat_le.mp hch) hhigh⟩
  rw [isTokenChar, Bool.or_eq_true] at h
  rcases h with h | h
  · rcases Bool.or_eq_true_iff.mp h with halpha | hdigit
    · rcases Bool.or_eq_true_iff.mp halpha with hupper | hlower
      · exact hrange 'A' 'Z' (by decide) (by decide) (of_decide_eq_true hupper).1
          (of_decide_eq_true hupper).2
      · exact hrange 'a' 'z' (by decide) (by decide)
          (of_decide_eq_true (Bool.and_eq_true_iff.mp hlower).1)
          (of_decide_eq_true (Bool.and_eq_true_iff.mp hlower).2)
    · exact hrange '0' '9' (by decide) (by decide)
        (of_decide_eq_true (Bool.and_eq_true_iff.mp hdigit).1)
        (of_decide_eq_true (Bool.and_eq_true_iff.mp hdigit).2)
  · have hall : ∀ d ∈ "!#$%&'*+-.^_`|~".toList, IsHeaderChar d :=
      List.all_iff_forall_prop.mp (by decide)
    exact hall c (List.contains_iff_mem.mp h)

/-- Tokens are header characters. -/
theorem IsToken.isHeaderChar {s : Str} (h : IsToken s) : ∀ c ∈ s, IsHeaderChar c :=
  fun c hc => isHeaderChar_of_isTokenChar (List.all_eq_true.mp (Bool.and_eq_true_iff.mp h).2 c hc)

/-- The name of a node is header characters. -/
theorem isHeaderChar_nodeName (client : IpAddr) : ∀ c ∈ nodeName client, IsHeaderChar c := by
  have hall : ∀ c ∈ "[]".toList ++ IpAddr.displayChars, IsHeaderChar c :=
    List.all_iff_forall_prop.mp (by decide)
  exact fun c hc => hall c (mem_of_mem_nodeName hc)

/-- An element of tokens and addresses is header characters. -/
theorem isHeaderChar_elementText (hscheme : IsToken inbound.scheme)
    (hhost : ∀ host ∈ inbound.host, IsToken host) (htarget : IsToken target.host) :
    ∀ c ∈ elementText (forwardedParts inbound target), IsHeaderChar c := by
  have hplain : ∀ name value : Str, IsToken name → (∀ c ∈ value, IsHeaderChar c) →
      ∀ c ∈ (plainPart name value).text, IsHeaderChar c := by
    intro name value hname hvalue c hc
    rcases List.mem_append.mp hc with hc | hc
    · exact hname.isHeaderChar c hc
    · rcases List.mem_cons.mp hc with rfl | hc
      · decide
      · exact hvalue c hc
  refine Str.forall_mem_join (by simp; decide) fun text htext => ?_
  obtain ⟨p, hp, rfl⟩ := List.mem_map.mp htext
  rcases mem_forwardedParts.mp hp with (⟨client, -, rfl⟩ | rfl) | ⟨host, hinbound, rfl⟩ | rfl
  · cases client with
    | v4 a => exact hplain _ _ (by decide) (isHeaderChar_nodeName (.v4 a))
    | v6 a =>
      -- the quotes around the address
      intro c hc
      have hquoted : (clientPart (.v6 a)).text =
          "for=\"".toList ++ (nodeName (.v6 a) ++ ['"']) := rfl
      rw [hquoted] at hc
      have hfront : ∀ c ∈ "for=\"".toList, IsHeaderChar c :=
        List.all_iff_forall_prop.mp (by decide)
      rcases List.mem_append.mp hc with hc | hc
      · exact hfront c hc
      · rcases List.mem_append.mp hc with hc | hc
        · exact isHeaderChar_nodeName (.v6 a) c hc
        · exact hfront c (List.mem_append_right "for=".toList hc)
  · exact hplain _ _ (by decide) hscheme.isHeaderChar
  · exact hplain _ _ (by decide) (hhost host hinbound).isHeaderChar
  · exact hplain _ _ (by decide) htarget.isHeaderChar

/-- A recipient reads the parameters that were meant, and no others, exactly if the host of the
client, where there is one, and the host of the target are tokens. -/
theorem forwarded_decodes_iff (hwrites : InjectWrites inbound target cfg value)
    (hscheme : IsToken inbound.scheme) :
    decodeForwarded value = some [forwardedParams inbound target] ↔
      (∀ host ∈ inbound.host, IsToken host) ∧ IsToken target.host := by
  have hbuild := hwrites.eq
  rw [buildForwardedValue_eq] at hbuild
  have hne : forwardedParts inbound target ≠ [] := by simp [forwardedParts]
  have hok : ∀ p ∈ forwardedParts inbound target, p.Ok isTokenChar := ok_forwardedParts
  have hread := ParameterList.parse_text_iff tokenChars_isTokenChar hne hok
  rw [map_param_forwardedParts] at hread
  rw [← forall_isToken_iff hscheme, decodeForwarded]
  cases htext : value.toStr with
  | some text =>
    -- the text of the value is the text that was written
    have hbytes : HeaderValue.fromStr text = some value := HeaderValue.fromStr_of_toStr htext
    obtain rfl : text = elementText (forwardedParts inbound target) :=
      HeaderValue.fromStr_injective hbytes hbuild
    rw [Option.bind_some]
    exact hread
  | none =>
    rw [Option.bind_none]
    refine iff_of_false (fun h => nomatch h) fun htoken => ?_
    obtain ⟨hhost, htarget⟩ := (forall_isToken_iff hscheme).mp htoken
    obtain ⟨v, hv, hvisible⟩ :=
      HeaderValue.toStr_fromStr (isHeaderChar_elementText hscheme hhost htarget)
    obtain rfl := Option.some.inj (hv.symm.trans hbuild)
    rw [htext] at hvisible
    cases hvisible

/-- A connection that names the host of the proxy. -/
def namedHost (host : Str) : InboundContext :=
  { fromBalancer with host := some host }

/-- The value for a host without a port. -/
def plainForwarded : HeaderValue :=
  ⟨Str.asBytes "for=10.0.0.1;proto=https;host=proxy.test;by=api.test", by decide⟩

/-- Injection writes this value. -/
theorem injectWrites_of_build {inbound : InboundContext} {value : HeaderValue}
    (hinject : cfg.inject = true) (hbuild : buildForwardedValue inbound target = some value) :
    InjectWrites inbound target cfg value := by
  intro headers requestId
  have hmem : (FORWARDED, buildForwardedValue inbound target) ∈
      stampedValues headers inbound target cfg.trustInboundXff := by
    simp [stampedValues, injectedValues]
  rw [getAll_inject_of_mem hinject hmem, hbuild]
  rfl

/-- `forwarded_decodes_iff` for a host without a port. -/
theorem forwarded_decodes_iff_plain :
    decodeForwarded plainForwarded = some [forwardedParams (namedHost "proxy.test") hopTarget] ↔
      (∀ host ∈ (namedHost "proxy.test").host, IsToken host) ∧ IsToken hopTarget.host :=
  forwarded_decodes_iff
    (show InjectWrites _ _ trustingConfig _ from injectWrites_of_build rfl (by decide +kernel))
    (by decide)

/-- The value for a host that ends its own parameter. -/
def forgedForwarded : HeaderValue :=
  ⟨Str.asBytes "for=10.0.0.1;proto=https;host=a;for=192.0.2.1;by=api.test", by decide⟩

/-- A host with a separator in it adds a parameter to the element. -/
theorem host_adds_parameter :
    InjectWrites (namedHost "a;for=192.0.2.1") hopTarget trustingConfig forgedForwarded ∧
      decodeForwarded forgedForwarded =
        some [[("for".toList, "10.0.0.1".toList), ("proto".toList, "https".toList),
          ("host".toList, "a".toList), ("for".toList, "192.0.2.1".toList),
          ("by".toList, "api.test".toList)]] ∧
      decodeForwarded forgedForwarded ≠
        some [forwardedParams (namedHost "a;for=192.0.2.1") hopTarget] :=
  ⟨injectWrites_of_build rfl (by decide +kernel), by decide +kernel, by decide +kernel⟩

/-- A host with a port makes the value malformed. -/
example : (buildForwardedValue (namedHost "proxy.test:8080") hopTarget).bind decodeForwarded =
    none := by
  decide +kernel

end Corx
