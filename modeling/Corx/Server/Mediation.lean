import Corx.Server.Browser
import Corx.Server.Service

/-!
# What every request passes

Two invariants of the service. Every request that was dispatched upstream has passed each of the
checks in front of it, though perhaps under different snapshots, and nothing is dispatched for one
that was turned away (`mediated_of_run`); and every response that leaves carries the CORS headers
of the snapshot that was live when it was stamped (`readable_of_run`), wherever it came from: from
the upstream, from a guard, from the layers that turn requests away, or in place of a handler that
panicked or took too long.
-/

namespace Corx

variable {ι : Type} {server : Server ι} {seen seen' : List LivePolicies} {i : ι}

/-! ## What is dispatched -/

/-- The headers of the request are within the limit, and a snapshot's authentication layer let it
pass. -/
structure LetIn (server : Server ι) (seen : List LivePolicies) (i : ι) : Prop where
  headers : server.fits i = true
  authenticated : ∃ p ∈ seen,
    authLayer { server.build with policies := p } (server.request i) = .ok ()

/-- The request is for the proxy handler, and a snapshot's guards admitted its target. -/
structure Guarded (server : Server ι) (seen : List LivePolicies) (i : ι) (target : TargetUrl) :
    Prop extends LetIn server seen i where
  routed : opsRouted server.routeMatches server.build (server.request i).uri.path = false
  served : ∃ p ∈ seen, serve server.parsers p (server.request i)
    (server.inbound i).arrival.clientIp = .target target

/-- The dispatched request comes from an admitted one: a snapshot's client sent it, for the
outbound request that it was given, past its target policy and its circuit breaker. -/
def Mediated (server : Server ι) (seen : List LivePolicies) (i : ι) (d : Dispatch) : Prop :=
  ∃ target, Guarded server seen i target ∧ ∃ p ∈ seen, ∃ outbound,
    outboundRequest server.parsers { server.build with policies := p } (server.request i) target
      (server.inbound i).arrival.clientIp (server.inbound i).arrival.requestId = .ok outbound ∧
    d ∈ (p.upstream.execute server.parsers p.circuit (server.inbound i).arrival.envs outbound).1 ∧
    p.upstream.Admitted p.circuit d

/-- Where a request stands inside the layers, it has passed what is in front. -/
def PhaseOk (server : Server ι) (seen : List LivePolicies) (i : ι) : RequestPhase → Prop
  | .arrived => server.fits i = true
  | .authorized => LetIn server seen i
  | .admitted target => Guarded server seen i target
  | .fetched _ _ dispatches _ | .dropped dispatches => ∀ d ∈ dispatches, Mediated server seen i d
  | .answered answer | .finished answer => ∀ d ∈ answer.dispatches, Mediated server seen i d

/-- Where a request stands among the layers, it has passed what is in front. -/
def StageOk (server : Server ι) (seen : List LivePolicies) (i : ι) : Stage → Prop
  | .outside | .entered | .shedding => True
  | .inside phase => PhaseOk server seen i phase
  | .responded dispatches _ | .finished dispatches _ | .gone dispatches =>
    ∀ d ∈ dispatches, Mediated server seen i d

/-- The live snapshot is remembered, all snapshots may be installed, and every request has passed
what is in front of it. -/
structure Service.Inv (server : Server ι) (s : Service ι) : Prop where
  live_mem : s.live ∈ s.seen
  installed : ∀ q ∈ s.seen, MayInstall server.build q
  stages : ∀ i, StageOk server s.seen i (s.stage i)

/-! ## More snapshots -/

/-- What was let in stays let in. -/
theorem LetIn.mono (h : LetIn server seen i) (hseen : seen ⊆ seen') : LetIn server seen' i := by
  obtain ⟨p, hp, hauth⟩ := h.authenticated
  exact ⟨h.headers, p, hseen hp, hauth⟩

/-- What was admitted stays admitted. -/
theorem Guarded.mono {target : TargetUrl} (h : Guarded server seen i target)
    (hseen : seen ⊆ seen') : Guarded server seen' i target := by
  obtain ⟨p, hp, hserve⟩ := h.served
  exact ⟨h.toLetIn.mono hseen, h.routed, p, hseen hp, hserve⟩

/-- What was dispatched stays mediated. -/
theorem Mediated.mono {d : Dispatch} (h : Mediated server seen i d) (hseen : seen ⊆ seen') :
    Mediated server seen' i d := by
  obtain ⟨target, hguarded, p, hp, hrest⟩ := h
  exact ⟨target, hguarded.mono hseen, p, hseen hp, hrest⟩

/-- More snapshots leave a stage as it is. -/
theorem StageOk.mono {stage : Stage} (h : StageOk server seen i stage) (hseen : seen ⊆ seen') :
    StageOk server seen' i stage := by
  have hall : ∀ {dispatches : List Dispatch}, (∀ d ∈ dispatches, Mediated server seen i d) →
      ∀ d ∈ dispatches, Mediated server seen' i d := fun h d hd => (h d hd).mono hseen
  cases stage with
  | outside => trivial
  | entered => trivial
  | shedding => trivial
  | inside phase =>
    cases phase with
    | arrived => exact h
    | authorized => exact LetIn.mono h hseen
    | admitted target => exact Guarded.mono h hseen
    | fetched => exact hall h
    | answered => exact hall h
    | finished => exact hall h
    | dropped => exact hall h
  | responded => exact hall h
  | gone => exact hall h
  | finished => exact hall h

/-! ## One stage -/

/-- A request that the client dispatches has passed the client's checks. -/
theorem admitted_of_mem_execute {parsers : Parsers} {upstream : Upstream} {cb : CircuitBreaker}
    {envs : ℕ → HopEnv} {request : Request} {d : Dispatch}
    (hd : d ∈ (upstream.execute parsers cb envs request).1) : upstream.Admitted cb d := by
  obtain ⟨n, l, -, hdispatch⟩ := mem_execute_iff.mp hd
  exact ((upstream.iterate_spec parsers cb (envs n) l).dispatched d hdispatch).2.2

/-- Nothing has been dispatched beyond what was. -/
theorem PhaseOk.dispatches {phase : RequestPhase} (h : PhaseOk server seen i phase) :
    ∀ d ∈ phase.dispatches, Mediated server seen i d := by
  cases phase with
  | arrived => exact List.forall_mem_nil _
  | authorized => exact List.forall_mem_nil _
  | admitted => exact List.forall_mem_nil _
  | fetched => exact h
  | answered => exact h
  | finished => exact h
  | dropped => exact h

/-- A stage under a remembered snapshot keeps what the request has passed. -/
theorem PhaseOk.read {phase : RequestPhase} {p : LivePolicies}
    (h : PhaseOk server seen i phase) (ready : Bool) (hp : p ∈ seen) :
    PhaseOk server seen i (server.read ready p i phase) := by
  -- a stage that answers leaves nothing dispatched; one that goes on adds its own check
  cases phase with
  | arrived =>
    rw [Server.read, Arrival.read, Arrival.authenticate]
    split
    next => exact List.forall_mem_nil _
    next hauth => exact ⟨h, p, hp, hauth⟩
  | authorized =>
    rw [Server.read, Arrival.read, Arrival.guard]
    split
    next => exact List.forall_mem_nil _
    next hrouted =>
      split
      next => exact List.forall_mem_nil _
      next => exact List.forall_mem_nil _
      next target hserve => exact ⟨h, eq_false_of_ne_true hrouted, p, hp, hserve⟩
  | admitted target =>
    rw [Server.read, Arrival.read, Arrival.fetch]
    split
    next => exact List.forall_mem_nil _
    next outbound houtbound =>
      have hmediated : ∀ d ∈ (p.upstream.execute server.parsers p.circuit
          (server.inbound i).arrival.envs outbound).1, Mediated server seen i d := fun d hd =>
        ⟨target, h, p, hp, outbound, houtbound, hd, admitted_of_mem_execute hd⟩
      dsimp only [Server.arrivalAt] at houtbound ⊢
      split
      next hexecute => exact fun d hd => hmediated d (hexecute ▸ hd)
      next hexecute => exact fun d hd => hmediated d (hexecute ▸ hd)
      next hexecute => exact fun d hd => hmediated d (hexecute ▸ hd)
  | fetched => exact h
  | answered => exact h
  | finished => exact h
  | dropped => exact h

/-! ## Runs -/

/-- The first snapshot of a server is compiled from its configuration. -/
theorem ServerBuild.policies_of_fromConfig {config : Config} {rateLimiter : RateLimiter}
    {build : ServerBuild} (h : ServerBuild.fromConfig config rateLimiter = .ok build) :
    LivePolicies.build config rateLimiter = .ok build.policies := by
  unfold ServerBuild.fromConfig at h
  split at h
  next => cases h
  next policies hpolicies =>
    obtain rfl := Except.ok.inj h
    exact hpolicies

/-- The snapshot that a server is built with may be installed. -/
theorem Server.mayInstall_build (server : Server ι) :
    MayInstall server.build server.build.policies := by
  obtain ⟨config, rateLimiter, hbuilt⟩ := server.built
  have hpolicies := ServerBuild.policies_of_fromConfig hbuilt
  obtain ⟨hconfig, -⟩ := LivePolicies.config_of_build hpolicies
  refine ⟨?_, rateLimiter, hconfig ▸ hpolicies⟩
  rw [ServerBuild.hotReload_fromConfig hbuilt, ReloadHandle.assertImmutable_ofConfig, hconfig]
  constructor <;> rfl

variable [DecidableEq ι] {s t : Service ι} {e : ServiceEvent ι} {es : List (ServiceEvent ι)}

namespace Service

omit [DecidableEq ι] in
/-- Before the first request. -/
theorem Inv.start (server : Server ι) : (start server).Inv server where
  live_mem := List.mem_singleton_self _
  installed := by
    intro q hq
    rw [List.mem_singleton.mp hq]
    exact server.mayInstall_build
  stages _ := trivial

omit [DecidableEq ι] in
/-- What a future is dropped with has been dispatched after all checks. -/
theorem Abandons.mediated {phase : RequestPhase} {dispatches : List Dispatch}
    (h : Abandons server s i phase dispatches) (hlive : s.live ∈ seen)
    (hok : PhaseOk server seen i phase) : ∀ d ∈ dispatches, Mediated server seen i d := by
  rcases h with rfl | hread
  · exact hok.dispatches
  · have hnext := hok.read s.ready hlive
    rwa [hread] at hnext

omit [DecidableEq ι] in
/-- A request that advances has passed what is in front of where it comes to. -/
theorem Advance.stageOk {before after : Stage} (h : Advance server s i before after)
    (hlive : s.live ∈ seen) (hok : StageOk server seen i before) :
    StageOk server seen i after := by
  cases h with
  | arrive => trivial
  | tooLarge => exact List.forall_mem_nil _
  | reject => trivial
  | accept hfits => exact hfits
  | shed => exact List.forall_mem_nil _
  | work hread => exact hread ▸ PhaseOk.read hok s.ready hlive
  | answer hread =>
    have hnext := PhaseOk.read hok s.ready hlive
    rwa [hread] at hnext
  | interrupt _ habandons => exact habandons.mediated hlive hok
  | cancel habandons => exact habandons.mediated hlive hok
  | stamp => exact hok

/-- Every step keeps the invariant. -/
theorem Inv.step (hs : s.Inv server) (h : Step server s e t) : t.Inv server := by
  have hstages : ∀ j, StageOk server t.seen j (t.stage j) := by
    intro j
    by_cases hj : e.request? = some j
    · exact ((h.advance hj).stageOk hs.live_mem (hs.stages j)).mono h.seen_subset
    · rw [h.stage_of_ne hj]
      exact (hs.stages j).mono h.seen_subset
  cases he : e.request? with
  | some i =>
    obtain ⟨inflight, stage, rfl⟩ := h.eq_of_request he
    exact ⟨hs.live_mem, hs.installed, hstages⟩
  | none =>
    cases h <;> cases he
    case none.reload.refl policies hmay =>
      refine ⟨List.mem_cons_self, fun q hq => ?_, hstages⟩
      rcases List.mem_cons.mp hq with rfl | hq
      · exact hmay
      · exact hs.installed q hq
    all_goals exact ⟨hs.live_mem, hs.installed, hstages⟩

/-- Every run keeps the invariant. -/
theorem inv_of_run (hrun : Run (Step server) (start server) es s) : s.Inv server :=
  hrun.invariant (fun _ _ _ hs hstep => hs.step hstep) (.start server)

end Service

/-! ## Every dispatch is mediated -/

omit [DecidableEq ι] in
/-- Nothing has been dispatched past the checks. -/
theorem StageOk.dispatches {stage : Stage} (h : StageOk server seen i stage) :
    ∀ d ∈ stage.dispatches, Mediated server seen i d := by
  cases stage with
  | outside => exact List.forall_mem_nil _
  | entered => exact List.forall_mem_nil _
  | shedding => exact List.forall_mem_nil _
  | inside phase => exact PhaseOk.dispatches h
  | responded => exact h
  | gone => exact h
  | finished => exact h

/-! ## Nothing is dispatched for a request that is turned away -/

omit [DecidableEq ι] in
/-- An answer in front of the upstream has dispatched nothing. -/
theorem dispatches_of_read {ready : Bool} {p : LivePolicies} {phase : RequestPhase}
    {answer : Answer} (hphase : phase = .arrived ∨ phase = .authorized)
    (hread : server.read ready p i phase = .answered answer) : answer.dispatches = [] := by
  rcases hphase with rfl | rfl
  · rw [Server.read, Arrival.read, Arrival.authenticate] at hread
    split at hread
    next => exact (RequestPhase.answered.inj hread) ▸ rfl
    next => cases hread
  · rw [Server.read, Arrival.read, Arrival.guard] at hread
    split at hread
    next => exact (RequestPhase.answered.inj hread) ▸ rfl
    next =>
      split at hread
      next => exact (RequestPhase.answered.inj hread) ▸ rfl
      next => exact (RequestPhase.answered.inj hread) ▸ rfl
      next => cases hread

/-- The event turns the request away: for its headers, for the number of requests inside, or with
an answer of the authentication layer, the router or the guards of the proxy handler. -/
def TurnsAway (server : Server ι) (s : Service ι) (i : ι) (e : ServiceEvent ι) : Prop :=
  e = .tooLarge i ∨ e = .shed i ∨
    e = .work i ∧ ∃ phase answer, s.stage i = .inside phase ∧
      (phase = .arrived ∨ phase = .authorized) ∧
      server.read s.ready s.live i phase = .answered answer

/-- The request was turned away in the course of the run to `s`. -/
def TurnedAway (server : Server ι) (es : List (ServiceEvent ι)) (s : Service ι) (i : ι) : Prop :=
  ∃ before e after mid, es = before ++ e :: after ∧
    Run (Service.Step server) (.start server) before mid ∧ TurnsAway server mid i e ∧
    Run (Service.Step server) mid (e :: after) s

omit [DecidableEq ι] in
/-- A response without dispatches is stamped, and that is all. -/
theorem Service.Advance.dispatches {before after : Stage} (h : Advance server s i before after)
    (hbefore : ∃ response, before = .responded [] response ∨ before = .finished [] response) :
    ∃ response, after = .responded [] response ∨ after = .finished [] response := by
  obtain ⟨response, rfl | rfl⟩ := hbefore
  · cases h with
    | stamp => exact ⟨_, .inr rfl⟩
  · cases h

/-- A request that is turned away is answered, and nothing is dispatched. -/
theorem TurnsAway.responded (h : TurnsAway server s i e) (hstep : Service.Step server s e t) :
    ∃ response, t.stage i = .responded [] response := by
  rcases h with rfl | rfl | ⟨rfl, phase, answer, hstage, hphase, hread⟩
  · cases hstep
    exact ⟨_, Service.setStage_stage_self⟩
  · cases hstep
    exact ⟨_, Service.setStage_stage_self⟩
  · cases hstep with
    | work hstage' =>
      obtain rfl := Stage.inside.inj (hstage'.symm.trans hstage)
      rw [hread, Service.proceed, Service.setStage_stage_self, dispatches_of_read hphase hread]
      exact ⟨_, rfl⟩

/-- Nothing is dispatched for a request that was turned away. -/
theorem TurnedAway.dispatches (h : TurnedAway server es s i) : (s.stage i).dispatches = [] := by
  obtain ⟨before, e, after, mid, -, -, haway, hrun⟩ := h
  obtain ⟨next, hstep, hrest⟩ := hrun.of_cons
  obtain ⟨response, hnext⟩ := haway.responded hstep
  have hlast : ∃ response, s.stage i = .responded [] response ∨
      s.stage i = .finished [] response := by
    refine hrest.invariant (P := fun s => ∃ response, s.stage i = .responded [] response ∨
      s.stage i = .finished [] response) ?_ ⟨response, .inl hnext⟩
    intro s e t hs hstep
    by_cases he : e.request? = some i
    · exact (hstep.advance he).dispatches hs
    · rwa [hstep.stage_of_ne he]
  obtain ⟨response, hstage | hstage⟩ := hlast <;> rw [hstage] <;> rfl

/-- However requests, reloads and the shutdown interleave: every request that has been dispatched
upstream, for whatever became of its client's request since, has passed the header limit, the
authentication layer, the router, the guards of the proxy handler, the target policy and the
circuit breaker, each under a snapshot that may have been installed and was live meanwhile. For a
request that was turned away in front of the upstream nothing is dispatched, then or later. -/
theorem mediated_of_run {ι : Type} [DecidableEq ι] {server : Server ι}
    {es : List (ServiceEvent ι)} {s : Service ι}
    (hrun : Run (Service.Step server) (.start server) es s) :
    (∀ q ∈ s.seen, MayInstall server.build q) ∧
      (∀ i, ∀ d ∈ (s.stage i).dispatches, Mediated server s.seen i d) ∧
      ∀ i, TurnedAway server es s i → (s.stage i).dispatches = [] := by
  have hs := Service.inv_of_run hrun
  exact ⟨hs.installed, fun i => (hs.stages i).dispatches, fun _ haway => haway.dispatches⟩

/-! ## Every response is readable -/

/-- A snapshot's CORS policy is compiled from its configuration. -/
theorem MayInstall.cors {build : ServerBuild} {p : LivePolicies} (h : MayInstall build p) :
    p.cors = .fromConfig p.config.cors := by
  obtain ⟨-, rateLimiter, hbuild⟩ := h
  unfold LivePolicies.build at hbuild
  split at hbuild
  next => cases hbuild
  next =>
    split at hbuild
    next => cases hbuild
    next => rw [← Except.ok.inj hbuild]

/-- A page that a configuration permits can read every response that is stamped under it,
whatever the response said before. -/
theorem corsCheck_applyToResponse {cfg : CorsConfig} {page : CorsProtocol.PageRequest isTokenChar}
    {requestHeaders : HeaderMap} (responseHeaders : HeaderMap) (hpermits : cfg.Permits page)
    (horigin : requestHeaders.getStr .origin = some page.origin) :
    page.corsCheck (corsFields (applyToResponse responseHeaders requestHeaders
      (.fromConfig cfg))) = true := by
  obtain ⟨origin, hget, htext⟩ := Option.bind_eq_some_iff.mp horigin
  have hdecision : (CorsPolicy.fromConfig cfg).resolveAllowOrigin (requestHeaders.get .origin) =
      if cfg.policy = .wildcard ∧ cfg.allowCredentials = false then some CorsPolicy.star
      else some origin := by
    rw [hget, resolveAllowOrigin_of_toStr htext, hpermits.origin, if_pos rfl]
  have hstar : CorsPolicy.star.chars = ("*" : Str) := by decide
  have htrue : headerTrue.chars = ("true" : Str) := by decide
  have hallowed : ∀ allowOrigin, (CorsPolicy.fromConfig cfg).resolveAllowOrigin
      (requestHeaders.get .origin) = some allowOrigin →
        (corsFields (applyToResponse responseHeaders requestHeaders
          (.fromConfig cfg))).allowOrigin = (some allowOrigin.chars).toList := by
    intro allowOrigin h
    rw [corsFields, getAll_allowOrigin_applyToResponse, h]
    rfl
  -- with `*` the page must not send credentials; its own origin is followed by the grant of them
  split at hdecision
  next hwild =>
    have hcredentials : page.credentials = false :=
      eq_false_of_ne_true fun h => by simpa [hwild.2] using hpermits.credentials h
    rw [CorsProtocol.PageRequest.corsCheck_iff (hallowed _ hdecision), hstar]
    exact .inl ⟨hcredentials, rfl⟩
  next =>
    rw [CorsProtocol.PageRequest.corsCheck_iff (hallowed _ hdecision), chars_of_toStr htext]
    refine .inr ⟨rfl, fun hcredentials => ?_⟩
    have hgranted : (CorsPolicy.fromConfig cfg).allowCredentials = true :=
      hpermits.credentials hcredentials
    rw [corsFields, getAll_allowCredentials_applyToResponse, hdecision, hgranted]
    simp only [Option.isSome_some, Bool.and_self, if_pos, List.map_singleton, htrue]
    rfl

/-- A response leaves as it is stamped. -/
theorem Service.Step.eq_stamp {dispatches : List Dispatch} {response : Response}
    (h : Step server s e t) (he : e.request? = some i)
    (hfinished : t.stage i = .finished dispatches response) :
    e = .stamp i ∧ ∃ inner, response = corsLayer s.live (server.request i).headers inner := by
  have hadvance := h.advance he
  rw [hfinished] at hadvance
  generalize hbefore : s.stage i = before at hadvance
  cases hadvance
  cases h <;> cases he <;> simp_all

/-- A response that has left was stamped, under the snapshot that was live then. -/
theorem stamped_of_run {dispatches : List Dispatch} {response : Response}
    (hrun : Run (Service.Step server) (.start server) es s)
    (hfinished : s.stage i = .finished dispatches response) :
    ∃ before after mid inner, es = before ++ .stamp i :: after ∧
      Run (Service.Step server) (.start server) before mid ∧
      Run (Service.Step server) mid (.stamp i :: after) s ∧
      response = corsLayer mid.live (server.request i).headers inner := by
  -- induction on the run, from its end: the last step has stamped the response, or left it
  induction es using List.reverseRecOn generalizing s with
  | nil =>
    rw [← hrun.eq_of_nil] at hfinished
    cases hfinished
  | append_singleton es e ih =>
    obtain ⟨mid, hpast, hstep⟩ := hrun.of_snoc
    by_cases he : e.request? = some i
    · obtain ⟨rfl, inner, hresponse⟩ := hstep.eq_stamp he hfinished
      exact ⟨es, [], mid, inner, rfl, hpast, .single hstep, hresponse⟩
    · rw [hstep.stage_of_ne he] at hfinished
      obtain ⟨before, after, u, inner, rfl, hbefore, hafter, hresponse⟩ := ih hpast hfinished
      exact ⟨before, after ++ [e], u, inner, by simp, hbefore, hafter.snoc hstep, hresponse⟩

/-- However requests, reloads and the shutdown interleave: a page can read the response to its
request if the snapshot that was live when the response was stamped permits the request, be it the
upstream's response, an operational handler's, a rejection for its headers, for the number of
requests inside, for its token or by the guards, or the answer in place of a handler that panicked
or took too long. -/
theorem readable_of_run {ι : Type} [DecidableEq ι] {server : Server ι}
    {es : List (ServiceEvent ι)} {s : Service ι} {i : ι} {dispatches : List Dispatch}
    {response : Response} {page : CorsProtocol.PageRequest isTokenChar}
    (hrun : Run (Service.Step server) (.start server) es s)
    (hfinished : s.stage i = .finished dispatches response)
    (horigin : (server.request i).headers.getStr .origin = some page.origin) :
    ∃ before after mid, es = before ++ .stamp i :: after ∧
      Run (Service.Step server) (.start server) before mid ∧
      Run (Service.Step server) mid (.stamp i :: after) s ∧
      (mid.live.config.cors.Permits page →
        page.corsCheck (corsFields response.headers) = true) := by
  obtain ⟨before, after, mid, inner, hes, hbefore, hafter, rfl⟩ := stamped_of_run hrun hfinished
  refine ⟨before, after, mid, hes, hbefore, hafter, fun hpermits => ?_⟩
  have hmid := Service.inv_of_run hbefore
  rw [corsLayer, (hmid.installed _ hmid.live_mem).cors]
  exact corsCheck_applyToResponse inner.headers hpermits horigin

/-! ## A page's request -/

/-- The default configuration for the pages of one origin. -/
def pagesConfig : Config :=
  { Config.default "0.2.0" with
    cors := { CorsConfig.default with origins := ["https://pages.test"] } }

/-- A `GET` request of such a page. -/
def pagesInbound : Inbound where
  arrival :=
    { request :=
        { method := .get
          uri := { scheme := none, authority := none, path := "/https://api.test/", query := none }
          headers := .ofList [(.origin, (HeaderValue.fromStr "https://pages.test").get (by decide))]
          body := [] }
      clientIp := .v4 0
      requestId := []
      envs := promptUpstream
      opsResponse := { status := .ok, headers := .empty } }
  lines := [(.origin, (HeaderValue.fromStr "https://pages.test").get (by decide))]
  headers_eq := rfl

/-- A server with that configuration, to which such requests come. -/
def pagesServer : Server ℕ where
  parsers := .plain
  routeMatches := literalRoutes
  build := (ServerBuild.fromConfig pagesConfig fun _ => .ok ()).toOption.get (by decide +kernel)
  built := ⟨pagesConfig, fun _ => .ok (), eq_ok_get_toOption (by decide +kernel)⟩
  panicResponse := { status := .internalServerError, headers := .empty }
  inbound _ := pagesInbound

/-- The page. -/
def readingPage : CorsProtocol.PageRequest isTokenChar where
  origin := "https://pages.test"
  method := "GET"
  unsafeNames := []
  credentials := false
  method_isToken := by decide
  names_isToken := by decide

/-- A request on which the handler stays at work stays inside. -/
theorem Service.Step.work_of_isOpen {phase : RequestPhase} (h : s.stage i = .inside phase)
    (hopen : (server.read s.ready s.live i phase).isOpen = true) :
    Step server s (.work i) (s.setStage i (.inside (server.read s.ready s.live i phase))) := by
  have hproceed : s.proceed i (server.read s.ready s.live i phase) =
      s.setStage i (.inside (server.read s.ready s.live i phase)) := by
    rcases proceed_stage s i (server.read s.ready s.live i phase) with ⟨answer, hanswer, -⟩ | heq
    · rw [hanswer] at hopen
      cases hopen
    · exact heq
  rw [← hproceed]
  refine .work h fun dispatches hdropped => ?_
  rw [hdropped] at hopen
  cases hopen

/-- A stage of the page's request under the only snapshot. -/
def pagesRead : RequestPhase → RequestPhase :=
  pagesServer.read true pagesServer.build.policies 0

/-- A server once its first request is counted. -/
def Service.counted (server : Server ℕ) : Service ℕ :=
  ((start server).setStage 0 .entered).count server.build.immutableLimits 0

/-- The first request comes in and is counted. -/
theorem run_counted (server : Server ℕ) (hfits : server.fits 0 = true)
    (hfree : 0 < server.build.immutableLimits.inflightMax) :
    Run (Service.Step server) (.start server) [.arrive 0, .count 0] (.counted server) ∧
      (Service.counted server).stage 0 = .inside .arrived := by
  refine ⟨.cons (.arrive rfl (by simp [Service.start])) (.single (.count
    Service.setStage_stage_self hfits)), ?_⟩
  rw [Service.counted, Service.count, Service.setStage_stage_self, if_neg]
  have hpos : 0 < server.build.immutableLimits.inflightMax.toNat := UInt32.lt_iff_toNat_lt.mp hfree
  simp [Service.setStage, Service.start, LoadShed.Inflight.arrive, LoadShed.Inflight.start,
    LoadShed.AtomicCounter.natural, hpos.ne']

/-- The server once the page's request is counted. -/
def pagesCounted : Service ℕ :=
  .counted pagesServer

/-- The page's request comes in and is counted. -/
theorem run_pagesCounted :
    Run (Service.Step pagesServer) (.start pagesServer) [.arrive 0, .count 0] pagesCounted ∧
      pagesCounted.stage 0 = .inside .arrived :=
  run_counted pagesServer (by decide +kernel) (by decide +kernel)

/-- The page's request is authenticated, guarded and forwarded. -/
theorem mediated_of_run_forwarded :
    ∃ s d, Run (Service.Step pagesServer) (.start pagesServer)
        [.arrive 0, .count 0, .work 0, .work 0, .work 0] s ∧
      d ∈ (s.stage 0).dispatches ∧ Mediated pagesServer s.seen 0 d := by
  obtain ⟨hrun, hstage⟩ := run_pagesCounted
  have hauthorized : (pagesRead .arrived).isOpen = true := by decide +kernel
  have hadmitted : (pagesRead (pagesRead .arrived)).isOpen = true := by decide +kernel
  have hfetched : (pagesRead (pagesRead (pagesRead .arrived))).isOpen = true := by decide +kernel
  have hrun' := hrun.append (.cons (.work_of_isOpen hstage hauthorized)
    (.cons (.work_of_isOpen Service.setStage_stage_self hadmitted)
      (.cons (.work_of_isOpen Service.setStage_stage_self hfetched) (.nil _))))
  have hlength : (pagesRead (pagesRead (pagesRead .arrived))).dispatches.length = 1 := by
    decide +kernel
  obtain ⟨d, hd⟩ := List.exists_mem_of_length_pos (hlength ▸ Nat.one_pos)
  have hmediated := (mediated_of_run hrun').2.1 0 d
  rw [Service.setStage_stage_self] at hmediated
  refine ⟨_, d, hrun', ?_, hmediated hd⟩
  rw [Service.setStage_stage_self]
  exact hd

/-- The same configuration before any origin is listed. -/
def unlistedConfig : Config :=
  { pagesConfig with cors := CorsConfig.default }

/-- A server with that configuration, to which the page's requests come. -/
def unlistedServer : Server ℕ :=
  { pagesServer with
    build := (ServerBuild.fromConfig unlistedConfig fun _ => .ok ()).toOption.get
      (by decide +kernel)
    built := ⟨unlistedConfig, fun _ => .ok (), eq_ok_get_toOption (by decide +kernel)⟩ }

/-- The page's request takes too long. Its origin is listed by a reload before the response is
stamped, and the page can read the response. -/
theorem readable_of_run_reload :
    ¬ unlistedServer.build.policies.config.cors.Permits readingPage ∧
      ∃ s response, Run (Service.Step unlistedServer) (.start unlistedServer)
          [.arrive 0, .count 0, .interrupt .timeout 0, .reload pagesServer.build.policies, .stamp 0]
          s ∧
        s.stage 0 = .finished [] response ∧
        readingPage.corsCheck (corsFields response.headers) = true := by
  have hmay : MayInstall unlistedServer.build pagesServer.build.policies :=
    ⟨by decide +kernel, fun _ => .ok (), eq_ok_get_toOption (by decide +kernel)⟩
  have hpermits : pagesServer.build.policies.config.cors.Permits readingPage :=
    ⟨by decide +kernel, fun h => by cases h⟩
  refine ⟨fun h => absurd h.origin (by decide +kernel), ?_⟩
  obtain ⟨hcounted, hstage⟩ := run_counted unlistedServer (by decide +kernel) (by decide +kernel)
  have hrun := hcounted.append (.cons (.interrupt .timeout hstage (.inl rfl))
    (.cons (.reload hmay) (.cons (.stamp Service.setStage_stage_self) (.nil _))))
  refine ⟨_, _, hrun, Service.setStage_stage_self, ?_⟩
  have horigin : (unlistedServer.request 0).headers.getStr .origin = some readingPage.origin := by
    decide +kernel
  obtain ⟨before, after, mid, hes, hbefore, -, hreadable⟩ :=
    readable_of_run hrun Service.setStage_stage_self horigin
  refine hreadable ?_
  -- the response was stamped right after the reload
  obtain ⟨u, -, hreload⟩ : ∃ u, Run (Service.Step unlistedServer) (.start unlistedServer)
      [.arrive 0, .count 0, .interrupt .timeout 0] u ∧
        Service.Step unlistedServer u (.reload pagesServer.build.policies) mid := by
    refine Run.of_snoc ?_
    rcases before with _ | ⟨_, _ | ⟨_, _ | ⟨_, _ | ⟨_, _ | ⟨_, before⟩⟩⟩⟩⟩ <;> simp_all
  cases hreload
  exact hpermits

end Corx
