import Corx.Proxy.LoopRuns
import Corx.Server.Router

/-!
# Dialed addresses

The SSRF guard is installed as the resolver of the connector, and the connector (`HttpConnector`
of `hyper-util`, given here by its documented behaviour) asks its resolver about names only: a
URI host that is an IP literal is dialed as it stands. `dialed_checked_iff` shows that every
dialed address has been checked exactly when no connection is opened to a blocked literal.
-/

namespace Corx

/-- The text of a URI host without the brackets of an IPv6 literal. -/
def trimBrackets (host : Str) : Str :=
  Str.trimEndMatches (Str.trimStartMatches host '[') ']'

/-- `HttpConnector` of `hyper-util`: the addresses it dials for one connection, given the
resolver installed in it and the URI. -/
structure HttpConnector where
  dial : (Str → Except ProxyError (List IpAddr)) → Uri → List IpAddr
  /-- A host that is an IP literal is dialed without the resolver. -/
  dial_literal : ∀ {resolver uri host ip}, uri.host = some host →
    IpAddr.parse (trimBrackets host) = some ip → dial resolver uri = [ip]
  /-- For any other host only addresses that the resolver returned are dialed. -/
  dial_name : ∀ {resolver uri host ip}, uri.host = some host →
    IpAddr.parse (trimBrackets host) = none → ip ∈ dial resolver uri →
    ∃ addrs, resolver (trimBrackets host) = .ok addrs ∧ ip ∈ addrs
  /-- Without a host nothing is dialed. -/
  dial_no_host : ∀ {resolver uri}, uri.host = none → dial resolver uri = []

/-- The connector that dials every address its resolver returned. -/
def HttpConnector.everyAddress : HttpConnector where
  dial resolver uri :=
    match uri.host with
    | none => []
    | some host =>
      match IpAddr.parse (trimBrackets host) with
      | some ip => [ip]
      | none => ((resolver (trimBrackets host)).toOption).getD []
  dial_literal hhost hliteral := by simp [hhost, hliteral]
  dial_name {resolver _ host _} hhost hname hip := by
    simp only [hhost, hname] at hip
    cases h : resolver (trimBrackets host) with
    | error err => simp [h, Except.toOption] at hip
    | ok addrs => exact ⟨addrs, rfl, by simpa [h, Except.toOption] using hip⟩
  dial_no_host hhost := by simp [hhost]

/-- `GuardedResolver::call`: resolve a name under the guard. -/
def GuardedResolver.call (guard : SsrfGuard) (lookupIp : Str → Except Str (List IpAddr))
    (name : Str) : Except ProxyError (List IpAddr) :=
  guard.resolve lookupIp name

/-- The addresses dialed for a dispatch, over all connections opened for it. -/
def HttpConnector.dialed (connector : HttpConnector) (guard : SsrfGuard) (d : Dispatch) :
    List IpAddr :=
  d.env.connections.flatMap fun lookupIp =>
    connector.dial (GuardedResolver.call guard lookupIp) d.request.uri

/-- The guard permits an address. -/
def SsrfGuard.Permits (guard : SsrfGuard) (ip : IpAddr) : Prop :=
  ∃ canonical, guard.checkIp ip = .ok canonical

/-- The host of the URI is not an IP literal, or one that the guard permits. -/
def LiteralPermitted (guard : SsrfGuard) (uri : Uri) : Prop :=
  ∀ host ip, uri.host = some host → IpAddr.parse (trimBrackets host) = some ip →
    guard.Permits ip

/-- Everything dialed for a dispatch is permitted exactly when nothing is dialed or its host is
no blocked literal. -/
theorem permits_dialed_iff {connector : HttpConnector} {guard : SsrfGuard} {d : Dispatch} :
    (∀ ip ∈ connector.dialed guard d, guard.Permits ip) ↔
      (d.env.connections ≠ [] → LiteralPermitted guard d.request.uri) := by
  unfold HttpConnector.dialed
  constructor
  · intro hall hconnections host ip hhost hliteral
    -- a literal is dialed for any connection, so the first one shows whether it is permitted
    obtain ⟨lookupIp, hlookup⟩ := List.exists_mem_of_ne_nil _ hconnections
    refine hall ip (List.mem_flatMap.mpr ⟨lookupIp, hlookup, ?_⟩)
    rw [connector.dial_literal hhost hliteral]
    exact List.mem_singleton_self ip
  · intro hpermitted ip hip
    obtain ⟨lookupIp, hlookup, hdial⟩ := List.mem_flatMap.mp hip
    cases hhost : d.request.uri.host with
    | none =>
      rw [connector.dial_no_host hhost] at hdial
      cases hdial
    | some host =>
      cases hparse : IpAddr.parse (trimBrackets host) with
      | some literal =>
        rw [connector.dial_literal hhost hparse, List.mem_singleton] at hdial
        exact hdial ▸ hpermitted (List.ne_nil_of_mem hlookup) host literal hhost hparse
      | none =>
        -- a name goes through the guarded resolver, which returns checked addresses only
        obtain ⟨addrs, hresolve, hmem⟩ := connector.dial_name hhost hparse hdial
        exact ⟨ip, SsrfGuard.checkIp_of_mem_resolve hresolve hmem⟩

/-- Everything dialed while a request is forwarded is permitted by the guard exactly when, at
every state the redirect loop comes to, a turn that passes its checks and opens a connection has
a URI whose host is no blocked literal. -/
theorem dialed_checked_iff (connector : HttpConnector) (parsers : Parsers) (build : ServerBuild)
    (request : Request) (target : TargetUrl) (clientIp : IpAddr) (requestId : Str)
    (envs : ℕ → HopEnv) :
    (∀ d ∈ (executeProxy parsers build request target clientIp requestId envs).1,
      ∀ ip ∈ connector.dialed build.policies.upstream.guard d,
        build.policies.upstream.guard.Permits ip) ↔
    ∀ outbound n l,
      outboundRequest parsers build request target clientIp requestId = .ok outbound →
      StandsAt parsers build.policies.upstream build.policies.circuit envs outbound n l →
      PassesChecks build.policies.upstream build.policies.circuit (envs n) l →
      (envs n).connections ≠ [] →
        LiteralPermitted build.policies.upstream.guard l.nextRequest.uri := by
  cases houtbound : outboundRequest parsers build request target clientIp requestId with
  | error err => simp [executeProxy, houtbound]
  | ok outbound =>
    rw [executeProxy_fst envs houtbound]
    constructor
    -- a turn that passes its checks dispatches, so what is dialed there is permitted
    · intro hall outbound' n l heq hstands hchecks
      obtain rfl := Except.ok.inj heq
      obtain ⟨d, hd⟩ : ∃ d, (Upstream.iterate parsers _ _ (envs n) l).1 = some d :=
        exists_dispatch_iff.mpr hchecks
      obtain ⟨hrequest, henv, -⟩ := (Upstream.iterate_spec _ _ _ _ _).dispatched d hd
      have hpermits := permits_dialed_iff.mp (hall d (mem_execute_iff.mpr ⟨n, l, hstands, hd⟩))
      rwa [hrequest, henv] at hpermits
    · intro hpermitted d hd
      obtain ⟨n, l, hstands, hdispatch⟩ := mem_execute_iff.mp hd
      obtain ⟨hrequest, henv, -⟩ := (Upstream.iterate_spec _ _ _ _ _).dispatched d hdispatch
      have hchecks := exists_dispatch_iff.mp ⟨d, hdispatch⟩
      rw [permits_dialed_iff, hrequest, henv]
      exact hpermitted outbound n l rfl hstands hchecks

/-! ## A loopback literal -/

/-- Whether an address is permitted is computed by the check. -/
instance (guard : SsrfGuard) (ip : IpAddr) : Decidable (guard.Permits ip) :=
  match h : guard.checkIp ip with
  | .ok canonical => .isTrue ⟨canonical, h⟩
  | .error _ => .isFalse fun ⟨_, hok⟩ => by simp [h] at hok

/-- A server with the default configuration and without rate limits. -/
def defaultBuild : ServerBuild :=
  (ServerBuild.fromConfig (Config.default "0.2.0") fun _ => .ok ()).toOption.get
    (by decide +kernel)

/-- A `GET` request with an origin for the target in its path. -/
def getFor (path : Str) : Request where
  method := .get
  uri := { scheme := none, authority := none, path, query := none }
  headers := .ofList [(.origin, ⟨Str.asBytes "https://page.test", by decide⟩)]
  body := []

/-- The target of a `GET` request, if its path encodes one. -/
def targetFor (path : Str) : Option TargetUrl :=
  (extractTarget .plain (getFor path).uri).toOption

/-- `https://api.test/`. -/
def namedTarget : TargetUrl := (targetFor "/https://api.test/").get (by decide +kernel)

/-- `http://127.0.0.1/`. -/
def loopbackTarget : TargetUrl := (targetFor "/http://127.0.0.1/").get (by decide +kernel)

/-- Surroundings in which a connection is opened for a name of one address, and the answer is an
empty `200 OK`. -/
def openingEnv : HopEnv where
  hosts := ∅
  now := 0
  exchange := .response { status := .ok, headers := .empty }
  connections := [fun _ => .ok [.v4 0x01020304]]

/-- `dialed_checked_iff` for a request to a named host. -/
theorem dialed_checked_iff_named :
    (∀ d ∈ (executeProxy .plain defaultBuild (getFor "/https://api.test/") namedTarget (.v4 0) []
        fun _ => openingEnv).1,
      ∀ ip ∈ HttpConnector.everyAddress.dialed defaultBuild.policies.upstream.guard d,
        defaultBuild.policies.upstream.guard.Permits ip) ↔
    ∀ outbound n l,
      outboundRequest .plain defaultBuild (getFor "/https://api.test/") namedTarget (.v4 0) [] =
        .ok outbound →
      StandsAt .plain defaultBuild.policies.upstream defaultBuild.policies.circuit
        (fun _ => openingEnv) outbound n l →
      PassesChecks defaultBuild.policies.upstream defaultBuild.policies.circuit openingEnv l →
      openingEnv.connections ≠ [] →
        LiteralPermitted defaultBuild.policies.upstream.guard l.nextRequest.uri :=
  dialed_checked_iff .everyAddress .plain defaultBuild (getFor "/https://api.test/") namedTarget
    (.v4 0) [] fun _ => openingEnv

/-- Under the default configuration a request for `http://127.0.0.1/` is forwarded, and the
loopback address is dialed although the guard blocks it. -/
theorem loopback_literal_dialed :
    (∃ outbound, handle .plain (fun route path => route = path) defaultBuild
      (getFor "/http://127.0.0.1/") (.v4 0) [] = .forwarded outbound) ∧
    ∃ d ∈ (executeProxy .plain defaultBuild (getFor "/http://127.0.0.1/") loopbackTarget (.v4 0)
        [] fun _ => openingEnv).1,
      ∃ ip ∈ HttpConnector.everyAddress.dialed defaultBuild.policies.upstream.guard d,
        ¬ defaultBuild.policies.upstream.guard.Permits ip := by
  refine ⟨Handled.exists_of_isForwarded (by decide +kernel), ?_⟩
  decide +kernel

end Corx
