import Corx.Proxy.LoopRuns
import Corx.Server.LoadShed
import Corx.Server.Ops
import Corx.Server.Snapshots

/-!
# The service

The layers of `build_router` around the handlers, for any number of requests at once, in a server
that reloads and shuts down. From the outside in, a request passes

* `cors_layer`, which stamps whatever comes back with the headers of the snapshot then live;
* the timeout and the panic layer, which answer in place of what they enclose;
* `header_limit_layer` and `load_shed_layer`, which turn requests away;
* the authentication layer, the router and the handlers: `Arrival.read`, one stage at a time.

Between any two of these steps other requests take theirs, and a reload may replace the live
snapshot (`Step`). A signal makes the server not ready; it exits once no request is under way.
-/

namespace Corx

/-- A request as it comes in, with the lines of its headers. -/
structure Inbound where
  arrival : Arrival
  lines : List (HeaderName × HeaderValue)
  headers_eq : arrival.request.headers = .ofList lines

/-- What is fixed while a server runs: what it was built from, the answer to a panic, and the
requests that come. -/
structure Server (ι : Type) where
  parsers : Parsers
  routeMatches : Str → Str → Bool
  build : ServerBuild
  built : ∃ config rateLimiter, ServerBuild.fromConfig config rateLimiter = .ok build
  panicResponse : Response
  inbound : ι → Inbound

/-- Where a request stands among the layers. -/
inductive Stage
  /-- It has not come yet. -/
  | outside
  /-- It is in front of the header limit. -/
  | entered
  /-- It has found the cap of requests reached. -/
  | shedding
  /-- It is inside the load-shedding layer. -/
  | inside (phase : RequestPhase)
  /-- A response has come back to the CORS layer. -/
  | responded (dispatches : List Dispatch) (response : Response)
  | finished (dispatches : List Dispatch) (response : Response)
  /-- The connection was closed and the future dropped. -/
  | gone (dispatches : List Dispatch)

/-- The handler is still at work on the request. -/
def RequestPhase.isOpen : RequestPhase → Bool
  | .arrived | .authorized | .admitted _ | .fetched _ _ _ _ => true
  | .answered _ | .finished _ | .dropped _ => false

/-- The handler is still at work on a request inside. -/
def Stage.Open : Stage → Prop
  | inside phase => phase.isOpen = true
  | _ => True

/-- The number of steps that a request has left, at most. -/
def Stage.rank : Stage → ℕ
  | outside | finished _ _ | gone _ => 0
  | entered => 8
  | shedding => 2
  | inside phase => phase.rank + 2
  | responded _ _ => 1

/-- The requests dispatched so far. -/
def Stage.dispatches : Stage → List Dispatch
  | outside | entered | shedding => []
  | inside phase => phase.dispatches
  | responded dispatches _ | finished dispatches _ | gone dispatches => dispatches

/-- Where the server stands. -/
inductive Lifecycle
  | serving
  | draining
  /-- The grace period is over. -/
  | aborting
  | exited
  deriving DecidableEq, Repr

/-- The state of the service. Every snapshot that was live so far is remembered. -/
structure Service (ι : Type) where
  live : LivePolicies
  seen : List LivePolicies
  ready : Bool
  lifecycle : Lifecycle
  inflight : LoadShed.Inflight ℕ ι
  stage : ι → Stage

/-- What answers in place of the inner layers. -/
inductive Interruption
  | panic
  | timeout
  deriving DecidableEq, Repr

/-- What happens next. -/
inductive ServiceEvent (ι : Type)
  | arrive (i : ι)
  | tooLarge (i : ι)
  | count (i : ι)
  | shed (i : ι)
  | work (i : ι)
  | interrupt (interruption : Interruption) (i : ι)
  | cancel (i : ι)
  | stamp (i : ι)
  | reload (policies : LivePolicies)
  | signal
  | deadline
  | exit

/-- The request that an event is about. -/
def ServiceEvent.request? {ι : Type} : ServiceEvent ι → Option ι
  | arrive i | tooLarge i | count i | shed i | work i | interrupt _ i | cancel i | stamp i => some i
  | reload _ | signal | deadline | exit => none

namespace Server

variable {ι : Type} (server : Server ι)

/-- The request itself. -/
def request (i : ι) : Request :=
  (server.inbound i).arrival.request

/-- A request as the handlers see it; the operational ones read the readiness of the server. -/
def arrivalAt (ready : Bool) (i : ι) : Arrival :=
  { (server.inbound i).arrival with
    opsResponse := opsAnswer server.routeMatches server.build ready (server.request i) }

/-- The next stage of a request inside the layers. -/
def read (ready : Bool) (policies : LivePolicies) (i : ι) : RequestPhase → RequestPhase :=
  (server.arrivalAt ready i).read server.parsers server.routeMatches server.build policies

/-- The headers of a request are within the limit. -/
def fits (i : ι) : Bool :=
  headerMapBytes (server.inbound i).lines ≤
    server.build.immutableLimits.maxRequestHeaderBytes.toNat

/-- The answer in place of the inner layers. -/
def interruptionResponse : Interruption → Response
  | .panic => server.panicResponse
  | .timeout => timeoutResponse

end Server

namespace Service

variable {ι : Type} [DecidableEq ι]

/-- The service as it is built. -/
def start (server : Server ι) : Service ι where
  live := server.build.policies
  seen := [server.build.policies]
  ready := true
  lifecycle := .serving
  inflight := .start .natural
  stage _ := .outside

/-- Take a request to a stage. -/
def setStage (s : Service ι) (i : ι) (stage : Stage) : Service ι :=
  { s with stage := Function.update s.stage i stage }

/-- Drop the permit of a request, if it has one. -/
def release (s : Service ι) (i : ι) : Service ι :=
  if i ∈ s.inflight.permits then { s with inflight := s.inflight.dropPermit .natural i } else s

/-- A request counts itself, and looks at the count it found. -/
def count (limits : LimitsConfig) (s : Service ι) (i : ι) : Service ι :=
  let inflight := s.inflight.arrive .natural limits i
  { s with inflight }.setStage i
    (if i ∈ inflight.rejected then .shedding else .inside .arrived)

/-- A rejected request takes back its count and is answered. -/
def shed (s : Service ι) (i : ι) : Service ι :=
  { s with inflight := s.inflight.shed .natural i }.setStage i (.responded [] shedResponse)

/-- A request goes on inside the layers; its permit is dropped once it is answered. -/
def proceed (s : Service ι) (i : ι) : RequestPhase → Service ι
  | .answered answer => (s.release i).setStage i (.responded answer.dispatches answer.response)
  | phase => s.setStage i (.inside phase)

/-- What has been dispatched for a request whose future is dropped: what went out before, or what
goes out while it waits for the upstream. -/
def Abandons (server : Server ι) (s : Service ι) (i : ι) (phase : RequestPhase)
    (dispatches : List Dispatch) : Prop :=
  dispatches = phase.dispatches ∨ server.read s.ready s.live i phase = .dropped dispatches

/-- No request is under way. -/
def Idle (s : Service ι) : Prop :=
  ∀ i, (s.stage i).rank = 0

/-- One step of the service. -/
inductive Step (server : Server ι) : Service ι → ServiceEvent ι → Service ι → Prop
  | arrive {s : Service ι} {i : ι} : s.stage i = .outside → s.lifecycle ≠ .exited →
      Step server s (.arrive i) (s.setStage i .entered)
  | tooLarge {s : Service ι} {i : ι} : s.stage i = .entered → server.fits i = false →
      Step server s (.tooLarge i) (s.setStage i (.responded [] headerLimitResponse))
  | count {s : Service ι} {i : ι} : s.stage i = .entered → server.fits i = true →
      Step server s (.count i) (s.count server.build.immutableLimits i)
  -- there is no suspension point between finding the cap reached and taking the count back
  | shed {s : Service ι} {i : ι} : s.stage i = .shedding → Step server s (.shed i) (s.shed i)
  | work {s : Service ι} {i : ι} {phase : RequestPhase} : s.stage i = .inside phase →
      (∀ dispatches, server.read s.ready s.live i phase ≠ .dropped dispatches) →
      Step server s (.work i) (s.proceed i (server.read s.ready s.live i phase))
  | interrupt {s : Service ι} {i : ι} {phase : RequestPhase} {dispatches : List Dispatch}
      (interruption : Interruption) :
      s.stage i = .inside phase → Abandons server s i phase dispatches →
      Step server s (.interrupt interruption i) ((s.release i).setStage i
        (.responded dispatches (server.interruptionResponse interruption)))
  | cancel {s : Service ι} {i : ι} {phase : RequestPhase} {dispatches : List Dispatch} :
      s.stage i = .inside phase → Abandons server s i phase dispatches →
      Step server s (.cancel i) ((s.release i).setStage i (.gone dispatches))
  | stamp {s : Service ι} {i : ι} {dispatches : List Dispatch} {response : Response} :
      s.stage i = .responded dispatches response →
      Step server s (.stamp i) (s.setStage i
        (.finished dispatches (corsLayer s.live (server.request i).headers response)))
  | reload {s : Service ι} {policies : LivePolicies} : MayInstall server.build policies →
      Step server s (.reload policies) { s with live := policies, seen := policies :: s.seen }
  | signal {s : Service ι} : s.lifecycle = .serving →
      Step server s .signal { s with ready := false, lifecycle := .draining }
  | deadline {s : Service ι} : s.lifecycle = .draining →
      Step server s .deadline { s with lifecycle := .aborting }
  | exit {s : Service ι} : s.lifecycle = .draining ∨ s.lifecycle = .aborting → s.Idle →
      Step server s .exit { s with lifecycle := .exited }

/-! ## What a step leaves as it is -/

variable {server : Server ι} {s t : Service ι} {e : ServiceEvent ι} {i j : ι} {stage : Stage}

/-- A request that is taken to a stage is there. -/
@[simp]
theorem setStage_stage_self : (s.setStage i stage).stage i = stage :=
  Function.update_self ..

/-- The other requests stay where they are. -/
theorem setStage_stage_of_ne (h : j ≠ i) : (s.setStage i stage).stage j = s.stage j :=
  Function.update_of_ne h ..

/-- Dropping a permit changes the count only. -/
theorem release_eq (s : Service ι) (i : ι) :
    s.release i = { s with inflight := (s.release i).inflight } := by
  unfold release
  split <;> rfl

/-- Dropping a permit leaves the stages. -/
@[simp]
theorem release_stage : (s.release i).stage = s.stage := by
  rw [release_eq]

/-- A request that goes on is answered, or stays inside. -/
theorem proceed_stage (s : Service ι) (i : ι) (phase : RequestPhase) :
    (∃ answer, phase = .answered answer ∧ s.proceed i phase =
        (s.release i).setStage i (.responded answer.dispatches answer.response)) ∨
      s.proceed i phase = s.setStage i (.inside phase) := by
  cases phase with
  | answered answer => exact .inl ⟨answer, rfl, rfl⟩
  | _ => exact .inr rfl

/-- A step of a request changes its stage and the count only. -/
theorem Step.eq_of_request (h : Step server s e t) (he : e.request? = some i) :
    ∃ inflight stage, t = { s with inflight }.setStage i stage := by
  cases h <;> cases he
  case arrive => exact ⟨_, _, rfl⟩
  case tooLarge => exact ⟨_, _, rfl⟩
  case count => exact ⟨_, _, rfl⟩
  case shed => exact ⟨_, _, rfl⟩
  case work phase _ _ =>
    rcases proceed_stage s i (server.read s.ready s.live i phase) with ⟨answer, -, heq⟩ | heq
    · rw [heq, release_eq]
      exact ⟨_, _, rfl⟩
    · rw [heq]
      exact ⟨_, _, rfl⟩
  case interrupt =>
    rw [release_eq]
    exact ⟨_, _, rfl⟩
  case cancel =>
    rw [release_eq]
    exact ⟨_, _, rfl⟩
  case stamp => exact ⟨_, _, rfl⟩

/-- A step of the server leaves the stages and the count. -/
theorem Step.eq_of_server (h : Step server s e t) (he : e.request? = none) :
    t.stage = s.stage ∧ t.inflight = s.inflight := by
  cases h <;> cases he <;> exact ⟨rfl, rfl⟩

/-- A step leaves the stages of the other requests. -/
theorem Step.stage_of_ne (h : Step server s e t) (hj : e.request? ≠ some j) :
    t.stage j = s.stage j := by
  cases he : e.request? with
  | none => rw [(h.eq_of_server he).1]
  | some i =>
    obtain ⟨inflight, stage, rfl⟩ := h.eq_of_request he
    refine setStage_stage_of_ne ?_
    rintro rfl
    exact hj he

/-- Snapshots are remembered. -/
theorem Step.seen_subset (h : Step server s e t) : s.seen ⊆ t.seen := by
  cases he : e.request? with
  | some i =>
    obtain ⟨inflight, stage, rfl⟩ := h.eq_of_request he
    exact fun _ hq => hq
  | none =>
    cases h <;> cases he
    case none.reload.refl => exact List.subset_cons_self _ _
    all_goals exact fun _ hq => hq

/-! ## What a step does to its request -/

/-- What a step can do to the request that it is about. -/
inductive Advance (server : Server ι) (s : Service ι) (i : ι) : Stage → Stage → Prop
  | arrive : Advance server s i .outside .entered
  | tooLarge : Advance server s i .entered (.responded [] headerLimitResponse)
  | reject : Advance server s i .entered .shedding
  | accept : server.fits i = true → Advance server s i .entered (.inside .arrived)
  | shed : Advance server s i .shedding (.responded [] shedResponse)
  | work {phase next : RequestPhase} : server.read s.ready s.live i phase = next →
      (∀ answer, next ≠ .answered answer) → (∀ dispatches, next ≠ .dropped dispatches) →
      Advance server s i (.inside phase) (.inside next)
  | answer {phase : RequestPhase} {answer : Answer} :
      server.read s.ready s.live i phase = .answered answer →
      Advance server s i (.inside phase) (.responded answer.dispatches answer.response)
  | interrupt {phase : RequestPhase} {dispatches : List Dispatch} (interruption : Interruption) :
      Abandons server s i phase dispatches →
      Advance server s i (.inside phase)
        (.responded dispatches (server.interruptionResponse interruption))
  | cancel {phase : RequestPhase} {dispatches : List Dispatch} :
      Abandons server s i phase dispatches → Advance server s i (.inside phase) (.gone dispatches)
  | stamp {dispatches : List Dispatch} {response : Response} :
      Advance server s i (.responded dispatches response)
        (.finished dispatches (corsLayer s.live (server.request i).headers response))

/-- A step advances the request that it is about. -/
theorem Step.advance (h : Step server s e t) (he : e.request? = some i) :
    Advance server s i (s.stage i) (t.stage i) := by
  cases h <;> cases he
  case arrive _ hstage =>
    rw [hstage, setStage_stage_self]
    exact .arrive
  case tooLarge hstage _ =>
    rw [hstage, setStage_stage_self]
    exact .tooLarge
  case count hstage hfits =>
    rw [hstage, Service.count, setStage_stage_self]
    split
    · exact .reject
    · exact .accept hfits
  case shed hstage =>
    rw [hstage, Service.shed, setStage_stage_self]
    exact .shed
  case work phase hstage hnext =>
    rw [hstage]
    -- an answer ends the way inward; anything else is the next phase
    cases hread : server.read s.ready s.live i phase with
    | answered answer =>
      rw [Service.proceed, setStage_stage_self]
      exact .answer hread
    | dropped dispatches => exact absurd hread (hnext dispatches)
    | _ =>
      rw [Service.proceed, setStage_stage_self]
      · exact .work hread (by simp) (by simp)
      · simp
  case interrupt hstage habandons =>
    rw [hstage, setStage_stage_self]
    exact .interrupt _ habandons
  case cancel hstage habandons =>
    rw [hstage, setStage_stage_self]
    exact .cancel habandons
  case stamp hstage =>
    rw [hstage, setStage_stage_self]
    exact .stamp

end Service

end Corx
