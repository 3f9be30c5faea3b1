import Corx.Server.Mediation

/-!
# Where responses come from

Every response that leaves the service has an origin. It is one of the answers that the layers and
handlers write themselves, or what came back for the last request that was dispatched for this very
client's request, shaped by a snapshot (`Answered`); and in both cases it is stamped for this
request by the snapshot that was live then (`answered_of_run`). However requests interleave, no
client gets the response to another one's request, and nothing but the named headers of an
upstream's response is touched.
-/

namespace Corx

/-! ## What the upstream client returns -/

/-- The response is what came back for the last of the dispatched requests. -/
def CameBack (envs : ℕ → HopEnv) (dispatches : List Dispatch) (response : Response) : Prop :=
  ∃ n d, dispatches.length = n + 1 ∧ dispatches[n]? = some d ∧ d.env = envs n ∧
    (envs n).exchange = .response response

namespace Upstream

variable {parsers : Parsers} {upstream : Upstream} {cb : CircuitBreaker} {envs : ℕ → HopEnv}
  {l : LoopState} {dispatches : List Dispatch} {response : Response}

/-- What the loop returns came back for its last request. -/
theorem cameBack_of_loop {fuel : ℕ}
    (h : upstream.loop parsers cb fuel envs l = (dispatches, some (.returned (.ok response)))) :
    CameBack envs dispatches response := by
  -- the environments shift by one with each turn, so they are generalized with the state
  induction fuel generalizing envs l dispatches with
  | zero => cases (Prod.mk.inj h).2
  | succ fuel ih =>
    rw [loop] at h
    split at h
    next dispatch exit hturn =>
      obtain ⟨rfl, hexit⟩ := Prod.mk.inj h
      obtain ⟨⟨settlement, hdispatch⟩, hexchange⟩ :=
        (upstream.iterate_spec parsers cb (envs 0) l).returned response
          (by rw [hturn, Option.some.inj hexit])
      rw [hturn] at hdispatch
      obtain rfl := hdispatch
      exact ⟨0, _, rfl, rfl, rfl, hexchange⟩
    next dispatch l' hturn =>
      obtain ⟨rfl, hexit⟩ := Prod.mk.inj h
      obtain ⟨n, d, hlength, hd, henv, hexchange⟩ := ih (Prod.ext rfl hexit)
      have hfirst := ((upstream.iterate_spec parsers cb (envs 0) l).goesOn l' (by rw [hturn])).1
      rw [hturn] at hfirst
      obtain rfl := hfirst
      exact ⟨n + 1, d, by simp [hlength], by simpa using hd, henv, hexchange⟩

end Upstream

/-! ## What a request may be answered with -/

variable {ι : Type} {server : Server ι} {seen seen' : List LivePolicies} {i : ι}

/-- What the layers inside `cors_layer` may answer a request with, after some dispatches. -/
inductive Answered (server : Server ι) (seen : List LivePolicies) (i : ι) :
    List Dispatch → Response → Prop
  | tooLarge : Answered server seen i [] headerLimitResponse
  | shed : Answered server seen i [] shedResponse
  | interrupted (interruption : Interruption) (dispatches : List Dispatch) :
      Answered server seen i dispatches (server.interruptionResponse interruption)
  | failed (err : ProxyError) (dispatches : List Dispatch) :
      Answered server seen i dispatches err.intoResponse
  | operational (ready : Bool) :
      opsRouted server.routeMatches server.build (server.request i).uri.path = true →
      Answered server seen i []
        (opsAnswer server.routeMatches server.build ready (server.request i))
  | preflight {p : LivePolicies} : p ∈ seen →
      isPreflight (server.request i).method (server.request i).headers = true →
      Answered server seen i [] (buildPreflightResponse (server.request i).headers p.cors)
  | forwarded {p : LivePolicies} {target : TargetUrl} {redirectPolicy : RedirectPolicy}
      {dispatches : List Dispatch} {response : Response} : p ∈ seen →
      CameBack (server.inbound i).arrival.envs dispatches response →
      Answered server seen i dispatches
        (shapeResponseUnder server.parsers p redirectPolicy target response)

/-- The response is such an answer, stamped for its request under a snapshot. -/
def StampedAnswer (server : Server ι) (seen : List LivePolicies) (i : ι)
    (dispatches : List Dispatch) (response : Response) : Prop :=
  ∃ q ∈ seen, ∃ before, Answered server seen i dispatches before ∧
    response = corsLayer q (server.request i).headers before

/-- What a request inside the layers has come back with. -/
def PhaseAnswered (server : Server ι) (seen : List LivePolicies) (i : ι) : RequestPhase → Prop
  | .fetched _ _ dispatches response => CameBack (server.inbound i).arrival.envs dispatches response
  | .answered answer => Answered server seen i answer.dispatches answer.response
  | .arrived | .authorized | .admitted _ | .finished _ | .dropped _ => True

/-- What a request has come back with. -/
def StageAnswered (server : Server ι) (seen : List LivePolicies) (i : ι) : Stage → Prop
  | .outside | .entered | .shedding | .gone _ => True
  | .inside phase => PhaseAnswered server seen i phase
  | .responded dispatches response => Answered server seen i dispatches response
  | .finished dispatches response => StampedAnswer server seen i dispatches response

/-- More snapshots leave an answer as it is. -/
theorem Answered.mono {dispatches : List Dispatch} {response : Response}
    (h : Answered server seen i dispatches response) (hseen : seen ⊆ seen') :
    Answered server seen' i dispatches response := by
  cases h with
  | tooLarge => exact .tooLarge
  | shed => exact .shed
  | interrupted interruption => exact .interrupted interruption dispatches
  | failed err => exact .failed err dispatches
  | operational ready hrouted => exact .operational ready hrouted
  | preflight hp hpreflight => exact .preflight (hseen hp) hpreflight
  | forwarded hp hback => exact .forwarded (hseen hp) hback

/-- More snapshots leave a stage as it is. -/
theorem StageAnswered.mono {stage : Stage} (h : StageAnswered server seen i stage)
    (hseen : seen ⊆ seen') : StageAnswered server seen' i stage := by
  cases stage with
  | outside => trivial
  | entered => trivial
  | shedding => trivial
  | gone => trivial
  | inside phase =>
    cases phase with
    | answered answer => exact Answered.mono h hseen
    | fetched => exact h
    | _ => trivial
  | responded => exact Answered.mono h hseen
  | finished =>
    obtain ⟨q, hq, before, hbefore, heq⟩ := h
    exact ⟨q, hseen hq, before, hbefore.mono hseen, heq⟩

/-- The proxy handler answers preflights only, and with the lists of the policy. -/
theorem preflight_of_serve {parsers : Parsers} {p : LivePolicies} {request : Request}
    {clientIp : IpAddr} {response : Response}
    (h : serve parsers p request clientIp = .preflight response) :
    isPreflight request.method request.headers = true ∧
      response = buildPreflightResponse request.headers p.cors := by
  obtain ⟨err, hserve⟩ | ⟨hpreflight, hserve⟩ | ⟨_, -, -, -, -, -, hserve⟩ :=
    serve_cases parsers p request clientIp
  · cases h.symm.trans hserve
  · exact ⟨hpreflight, Served.preflight.inj (h.symm.trans hserve)⟩
  · cases h.symm.trans hserve

/-- A stage under a remembered snapshot answers a request with such an answer. -/
theorem PhaseAnswered.read {phase : RequestPhase} {p : LivePolicies}
    (h : PhaseAnswered server seen i phase) (ready : Bool) (hp : p ∈ seen) :
    PhaseAnswered server seen i (server.read ready p i phase) := by
  cases phase with
  | arrived =>
    rw [Server.read, Arrival.read, Arrival.authenticate]
    split
    next err _ => exact .failed err []
    next => trivial
  | authorized =>
    rw [Server.read, Arrival.read, Arrival.guard]
    split
    next hrouted => exact .operational ready hrouted
    next =>
      split
      next err _ => exact .failed err []
      next response hserve =>
        obtain ⟨hpreflight, rfl⟩ := preflight_of_serve hserve
        exact .preflight hp hpreflight
      next => trivial
  | admitted target =>
    rw [Server.read, Arrival.read, Arrival.fetch]
    split
    next err _ => exact .failed err []
    next outbound _ =>
      split
      -- the response is not shaped yet: that is done under the snapshot of the next stage
      next hexecute => exact Upstream.cameBack_of_loop hexecute
      next dispatches err hexecute => exact .failed err dispatches
      next => trivial
  | fetched target redirectPolicy dispatches response => exact .forwarded hp h
  | answered => trivial
  | finished => trivial
  | dropped => trivial

namespace Service

variable {s t : Service ι} {e : ServiceEvent ι} {es : List (ServiceEvent ι)}

/-- A request that advances comes back with such an answer, if it does. -/
theorem Advance.stageAnswered {before after : Stage} (h : Advance server s i before after)
    (hlive : s.live ∈ seen) (hok : StageAnswered server seen i before) :
    StageAnswered server seen i after := by
  cases h with
  | arrive => trivial
  | tooLarge => exact .tooLarge
  | reject => trivial
  | accept => trivial
  | shed => exact .shed
  | work hread => exact hread ▸ PhaseAnswered.read hok s.ready hlive
  | answer hread =>
    have hnext := PhaseAnswered.read hok s.ready hlive
    rwa [hread] at hnext
  | interrupt interruption => exact .interrupted interruption _
  | cancel => trivial
  | stamp => exact ⟨s.live, hlive, _, hok, rfl⟩

/-- Every snapshot is remembered, and every request has come back with an answer to it only. -/
structure Sound (server : Server ι) (s : Service ι) : Prop where
  inv : s.Inv server
  answered : ∀ i, StageAnswered server s.seen i (s.stage i)

/-- The service starts soundly. -/
theorem Sound.start (server : Server ι) : Sound server (start server) where
  inv := .start server
  answered := fun _ => trivial

/-- What a sound service has finished is stamped for its request. -/
theorem Sound.stamped (hs : Sound server s) {dispatches : List Dispatch} {response : Response}
    (hfinished : s.stage i = .finished dispatches response) :
    StampedAnswer server s.seen i dispatches response := by
  have hstage := hs.answered i
  rwa [hfinished] at hstage

variable [DecidableEq ι]

/-- A step lets a request come back with such an answer only, under the snapshot that is live. -/
theorem Step.stageAnswered (h : Step server s e t) (hlive : s.live ∈ seen) (hseen : seen ⊆ seen')
    (hok : StageAnswered server seen i (s.stage i)) :
    StageAnswered server seen' i (t.stage i) := by
  -- a step is about one request at most, and leaves the others where they are
  by_cases he : e.request? = some i
  · exact ((h.advance he).stageAnswered hlive hok).mono hseen
  · rw [h.stage_of_ne he]
    exact hok.mono hseen

/-- A step keeps the service sound. -/
theorem Sound.step (hs : Sound server s) (h : Step server s e t) : Sound server t where
  inv := hs.inv.step h
  answered := fun i => h.stageAnswered hs.inv.live_mem h.seen_subset (hs.answered i)

/-- However requests, reloads and the shutdown interleave: every response that leaves is an answer
to its own request, stamped for that request, under snapshots that were live. -/
theorem answered_of_run (hrun : Run (Step server) (.start server) es s) {dispatches : List Dispatch}
    {response : Response} (hfinished : s.stage i = .finished dispatches response) :
    StampedAnswer server s.seen i dispatches response := by
  have hsound : Sound server s :=
    hrun.invariant (fun _ _ _ hs hstep => hs.step hstep) (.start server)
  exact hsound.stamped hfinished

/-- A request that is answered leaves the load-shedding layer with its answer. -/
theorem Step.work_answered {phase : RequestPhase} {answer : Answer}
    (hstage : s.stage i = .inside phase)
    (hread : server.read s.ready s.live i phase = .answered answer) :
    Step server s (.work i)
      ((s.release i).setStage i (.responded answer.dispatches answer.response)) := by
  have hwork := @Step.work ι _ server s i phase hstage fun dispatches hdropped => by
    rw [hread] at hdropped
    cases hdropped
  rwa [hread] at hwork

/-- The answer to the page's request. -/
def pagesResponse : Response :=
  match pagesRead (pagesRead (pagesRead (pagesRead .arrived))) with
  | .answered answer =>
    corsLayer pagesServer.build.policies (pagesServer.request 0).headers answer.response
  | _ => notFound

/-- The page's request is forwarded and answered, all under one snapshot. -/
theorem run_pagesForwarded :
    ∃ s dispatches, Run (Step pagesServer) (.start pagesServer)
        [.arrive 0, .count 0, .work 0, .work 0, .work 0, .work 0, .stamp 0] s ∧
      s.stage 0 = .finished dispatches pagesResponse ∧ dispatches.length = 1 ∧
      s.seen = [pagesServer.build.policies] := by
  obtain ⟨hrun, hstage⟩ := run_pagesCounted
  have hauthorized : (pagesRead .arrived).isOpen = true := by decide +kernel
  have hadmitted : (pagesRead (pagesRead .arrived)).isOpen = true := by decide +kernel
  have hopen : (pagesRead (pagesRead (pagesRead .arrived))).isOpen = true := by decide +kernel
  have hrank : (pagesRead (pagesRead (pagesRead .arrived))).rank = 2 := by decide +kernel
  have hlength : (pagesRead (pagesRead (pagesRead .arrived))).dispatches.length = 1 := by
    decide +kernel
  -- the third stage waits for the shaping of the upstream's response
  obtain ⟨answer, hanswer, hdispatches⟩ : ∃ answer,
      pagesRead (pagesRead (pagesRead (pagesRead .arrived))) = .answered answer ∧
        answer.dispatches.length = 1 := by
    generalize pagesRead (pagesRead (pagesRead .arrived)) = phase at hrank hlength
    cases phase with
    | fetched => exact ⟨_, rfl, hlength⟩
    | _ => cases hrank
  have hrun' := hrun.append (.cons (.work_of_isOpen hstage hauthorized)
    (.cons (.work_of_isOpen setStage_stage_self hadmitted)
      (.cons (.work_of_isOpen setStage_stage_self hopen)
        (.cons (.work_answered setStage_stage_self hanswer)
          (.cons (.stamp setStage_stage_self) (.nil _))))))
  have hresponse : pagesResponse = corsLayer pagesServer.build.policies
      (pagesServer.request 0).headers answer.response := by
    rw [pagesResponse, hanswer]
  -- no step has replaced the snapshot
  refine ⟨_, answer.dispatches, hrun', ?_, hdispatches, ?_⟩
  · rw [setStage_stage_self, hresponse, release_eq]
    rfl
  · rw [release_eq]
    rfl

/-- The page gets what came back for its request. -/
theorem answered_of_run_forwarded :
    ∃ s dispatches, Run (Step pagesServer) (.start pagesServer)
        [.arrive 0, .count 0, .work 0, .work 0, .work 0, .work 0, .stamp 0] s ∧
      StampedAnswer pagesServer s.seen 0 dispatches pagesResponse := by
  obtain ⟨s, dispatches, hrun, hfinished, -⟩ := run_pagesForwarded
  exact ⟨s, dispatches, hrun, answered_of_run hrun hfinished⟩

end Service

end Corx
