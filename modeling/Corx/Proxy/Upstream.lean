import Corx.Policy.CircuitRuns
import Corx.Policy.Target
import Corx.Proxy.Redirect
import Corx.Proxy.Ssrf

/-!
# Upstream client

`Upstream.iterate` is one turn of the redirect loop of `Upstream::execute`, `Upstream.loop` the
loop. What the loop meets on a turn is given from outside (`HopEnv`): the state of the shared
circuit breaker and the time at admission, the outcome of the request, and the DNS answers for
each connection opened for it. The loop returns the requests it dispatched, each with the
settlement of its hop, next to the way it ended.

`iterate_spec` says what a turn can do.
-/

namespace Corx

/-- Tuning parameters for the upstream client. -/
structure ClientConfig where
  poolMaxIdlePerHost : ℕ
  poolIdleTimeout : Duration
  connectTimeout : Duration
  maxRedirects : UInt8
  allowHttpsToHttpDowngrade : Bool
  redirectPolicy : RedirectPolicy
  userAgent : Str
  deriving DecidableEq, Repr

/-- Upstream client: its parameters, the guard installed in its resolver, and the target policy
it enforces on every hop. -/
structure Upstream where
  config : ClientConfig
  guard : SsrfGuard
  targetPolicy : TargetPolicy
  deriving DecidableEq, Repr

/-- The host of a URI, for the circuit breaker. -/
def hostOf (uri : Uri) : Str :=
  uri.host.getD "unknown"

/-- How a dispatched request comes back: with a response, with a transport error, or not at all
because the future is dropped while it waits. -/
inductive Exchange
  | response (response : Response)
  | failed (err : Str)
  | cancelled

/-- What one turn of the loop meets: the circuit breaker's map and the time when the hop asks
for admission, the outcome of its request, and the DNS lookup behind each connection that is
opened for it. -/
structure HopEnv where
  hosts : Hosts
  now : Instant
  exchange : Exchange
  connections : List (Str → Except Str (List IpAddr))

/-- A request handed to the client, in which surroundings, and how its hop was settled. -/
structure Dispatch where
  request : Request
  env : HopEnv
  settlement : Settlement

/-- How the loop ends. -/
inductive Exit
  | returned (result : Except ProxyError Response)
  | cancelled

/-- The variables of the loop. -/
structure LoopState where
  state : RedirectState
  nextRequest : Request
  hops : UInt8

/-- `u8::saturating_add(1)`. -/
def saturatingSucc (n : UInt8) : UInt8 :=
  if n = 255 then 255 else n + 1

/-- Settle a hop that ends the chain. -/
def settleTerminal (cb : CircuitBreaker) (status : StatusCode) : Settlement :=
  if cb.count5xx && status.isServerError then .failure else .success

namespace Upstream

/-- One turn of the loop: the request it dispatches, if it gets that far, and how it goes on. -/
def iterate (parsers : Parsers) (upstream : Upstream) (cb : CircuitBreaker) (env : HopEnv)
    (l : LoopState) : Option Dispatch × (Exit ⊕ LoopState) :=
  match upstream.targetPolicy.checkUri l.nextRequest.uri with
  | .error err => (none, .inl (.returned (.error err)))
  | .ok () =>
    match (CircuitHop.admitHop cb env.hosts (hostOf l.nextRequest.uri) env.now).1 with
    | .error err => (none, .inl (.returned (.error err)))
    | .ok _ =>
      -- from here on the request goes out, and what differs is how the hop is settled
      let dispatch (settlement : Settlement) : Option Dispatch :=
        some { request := l.nextRequest, env, settlement }
      match env.exchange with
      | .cancelled => (dispatch .drop, .inl .cancelled)
      | .failed err => (dispatch .failure, .inl (.returned (.error (.upstream err))))
      | .response response =>
        if !isRedirect response.status then
          (dispatch (settleTerminal cb response.status), .inl (.returned (.ok response)))
        else match upstream.config.redirectPolicy with
          | .block =>
            (dispatch .success,
              .inl (.returned (.error (.redirectBlocked "redirect policy is block"))))
          | .rewrite => (dispatch .success, .inl (.returned (.ok response)))
          | .follow =>
            -- the budget is spent: this hop counts as a failure
            if upstream.config.maxRedirects ≤ l.hops then
              (dispatch .failure,
                .inl (.returned (.error (.tooManyRedirects upstream.config.maxRedirects))))
            else
              match prepareNext parsers l.state response
                  upstream.config.allowHttpsToHttpDowngrade with
              -- the hop is settled before the next one is prepared
              | .error err => (dispatch .success, .inl (.returned (.error err)))
              | .ok (.stop _, _) => (dispatch .success, .inl (.returned (.ok response)))
              | .ok (.continueWith request, state) =>
                (dispatch .success,
                  .inr { state, nextRequest := request, hops := saturatingSucc l.hops })

/-- At most `fuel` turns of the loop; turn `n` meets `envs n`. -/
def loop (parsers : Parsers) (upstream : Upstream) (cb : CircuitBreaker) :
    ℕ → (ℕ → HopEnv) → LoopState → List Dispatch × Option Exit
  | 0, _, _ => ([], none)
  | fuel + 1, envs, l =>
    match upstream.iterate parsers cb (envs 0) l with
    | (dispatch, .inl exit) => (dispatch.toList, some exit)
    | (dispatch, .inr l') =>
      let (dispatches, exit) := upstream.loop parsers cb fuel (fun n => envs (n + 1)) l'
      (dispatch.toList ++ dispatches, exit)

end Upstream

/-- The variables of the loop at its start: `split_initial`. -/
def LoopState.start (request : Request) : LoopState where
  state := .fromInitial request.method request.uri request.headers
  nextRequest := request
  hops := 0

namespace Upstream

/-- Execute a request against the upstream, following redirects up to the configured budget. -/
def execute (parsers : Parsers) (upstream : Upstream) (cb : CircuitBreaker)
    (envs : ℕ → HopEnv) (request : Request) : List Dispatch × Option Exit :=
  upstream.loop parsers cb (upstream.config.maxRedirects.toNat + 1) envs (.start request)

variable {parsers : Parsers} {upstream : Upstream} {cb : CircuitBreaker} {env : HopEnv}
  {envs : ℕ → HopEnv} {l l' : LoopState}

/-- A dispatched request has passed the target policy, and the circuit breaker has admitted its
host. -/
def Admitted (upstream : Upstream) (cb : CircuitBreaker) (d : Dispatch) : Prop :=
  upstream.targetPolicy.checkUri d.request.uri = .ok () ∧
    ∃ hop, (CircuitHop.admitHop cb d.env.hosts (hostOf d.request.uri) d.env.now).1 = .ok hop

/-- What a turn can do: dispatch the next request after its checks, and go on only after a
success, with a follow-up that `prepareNext` makes, under the follow policy and within the
budget. A response that it returns came back for the request that it dispatched. -/
structure TurnSpec (parsers : Parsers) (upstream : Upstream) (cb : CircuitBreaker) (env : HopEnv)
    (l : LoopState) (result : Option Dispatch × (Exit ⊕ LoopState)) : Prop where
  dispatched : ∀ d, result.1 = some d →
    d.request = l.nextRequest ∧ d.env = env ∧ upstream.Admitted cb d
  goesOn : ∀ l', result.2 = .inr l' →
    result.1 = some { request := l.nextRequest, env, settlement := .success } ∧
    upstream.config.redirectPolicy = .follow ∧ l.hops < upstream.config.maxRedirects ∧
    l'.hops = saturatingSucc l.hops ∧
    ∃ response, env.exchange = .response response ∧ isRedirect response.status = true ∧
      prepareNext parsers l.state response upstream.config.allowHttpsToHttpDowngrade =
        .ok (.continueWith l'.nextRequest, l'.state)
  returned : ∀ response, result.2 = .inl (.returned (.ok response)) →
    (∃ settlement, result.1 = some { request := l.nextRequest, env, settlement }) ∧
    env.exchange = .response response

/-- Every turn does what a turn can do. -/
theorem iterate_spec (parsers : Parsers) (upstream : Upstream) (cb : CircuitBreaker)
    (env : HopEnv) (l : LoopState) :
    TurnSpec parsers upstream cb env l (upstream.iterate parsers cb env l) := by
  unfold iterate
  split
  next => exact ⟨by simp, by simp, by simp⟩
  next hcheck =>
    split
    next => exact ⟨by simp, by simp, by simp⟩
    next hop hadmission =>
      -- every branch below dispatches the admitted request
      have hadmitted : ∀ settlement,
          upstream.Admitted cb { request := l.nextRequest, env, settlement } :=
        fun _ => ⟨hcheck, hop, hadmission⟩
      dsimp only
      split
      next => exact ⟨by simp [hadmitted], by simp, by simp⟩
      next => exact ⟨by simp [hadmitted], by simp, by simp⟩
      next response hexchange =>
        split
        next => exact ⟨by simp [hadmitted], by simp, by simp [hexchange]⟩
        next hredirect =>
          split
          next => exact ⟨by simp [hadmitted], by simp, by simp⟩
          next => exact ⟨by simp [hadmitted], by simp, by simp [hexchange]⟩
          next hfollow =>
            split
            next => exact ⟨by simp [hadmitted], by simp, by simp⟩
            next hbudget =>
              split
              next => exact ⟨by simp [hadmitted], by simp, by simp⟩
              -- a redirect that cannot be followed is returned as it is
              next => exact ⟨by simp [hadmitted], by simp, by simp [hexchange]⟩
              next request state hnext =>
                refine ⟨by simp [hadmitted], ?_, by simp⟩
                intro l' hl'
                obtain rfl := Sum.inr.inj hl'
                refine ⟨rfl, hfollow, UInt8.not_le.mp hbudget, rfl, response, hexchange, ?_, hnext⟩
                simpa using hredirect

end Upstream

end Corx
