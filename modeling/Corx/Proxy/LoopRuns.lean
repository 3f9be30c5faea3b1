import Corx.Proxy.HopAdmission
import Corx.Proxy.RedirectChain

/-!
# Runs of the redirect loop

The turns of the loop that go on are a transition relation, each labelled by what it meets. The
loop dispatches a request exactly when a run of such turns leads to a state whose next turn
dispatches it (`mem_execute_iff`); the budget of redirects cuts no run short. So a property that
every turn preserves holds of every state that a request is dispatched from
(`execute_invariant`).
-/

namespace Corx

/-- A turn of the loop that goes on. -/
def Turn (parsers : Parsers) (upstream : Upstream) (cb : CircuitBreaker) (l : LoopState)
    (env : HopEnv) (l' : LoopState) : Prop :=
  (upstream.iterate parsers cb env l).2 = .inr l'

/-- The loop stands at `l` before turn `n`. -/
def StandsAt (parsers : Parsers) (upstream : Upstream) (cb : CircuitBreaker)
    (envs : ℕ → HopEnv) (request : Request) (n : ℕ) (l : LoopState) : Prop :=
  Run (Turn parsers upstream cb) (.start request) ((List.range n).map envs) l

/-- A turn at `l` passes its checks: the target policy passes the next request, and the circuit
breaker admits its host. -/
def PassesChecks (upstream : Upstream) (cb : CircuitBreaker) (env : HopEnv) (l : LoopState) :
    Prop :=
  upstream.targetPolicy.checkUri l.nextRequest.uri = .ok () ∧
    ∃ hop, (CircuitHop.admitHop cb env.hosts (hostOf l.nextRequest.uri) env.now).1 = .ok hop

variable {parsers : Parsers} {upstream : Upstream} {cb : CircuitBreaker} {env : HopEnv}
  {envs : ℕ → HopEnv} {l l' : LoopState} {request : Request} {d : Dispatch}

/-- A turn dispatches a request exactly when it passes its checks. -/
theorem exists_dispatch_iff :
    (∃ d, (upstream.iterate parsers cb env l).1 = some d) ↔ PassesChecks upstream cb env l := by
  constructor
  · rintro ⟨d, hd⟩
    obtain ⟨hrequest, henv, hcheck, hadmission⟩ :=
      (upstream.iterate_spec parsers cb env l).dispatched d hd
    rw [hrequest] at hcheck hadmission
    rw [henv] at hadmission
    exact ⟨hcheck, hadmission⟩
  · rintro ⟨hcheck, hop, hadmission⟩
    simp only [Upstream.iterate, hcheck, hadmission]
    -- whatever comes back and however the hop is settled, the request has gone out
    split
    · exact ⟨_, rfl⟩
    · exact ⟨_, rfl⟩
    · repeat' split
      all_goals exact ⟨_, rfl⟩

/-- The loop dispatches what its first turn does and, if that goes on, what the others do. -/
theorem mem_loop_succ {fuel : ℕ} :
    d ∈ (upstream.loop parsers cb (fuel + 1) envs l).1 ↔
      (upstream.iterate parsers cb (envs 0) l).1 = some d ∨
      ∃ l', Turn parsers upstream cb l (envs 0) l' ∧
        d ∈ (upstream.loop parsers cb fuel (fun n => envs (n + 1)) l').1 := by
  rw [Upstream.loop]
  split
  next dispatch exit hturn => simp [Turn, hturn]
  next dispatch l' hturn => simp [Turn, hturn]

/-- The loop dispatches a request exactly when a run of turns leads to a state whose next turn
dispatches it, within the fuel. -/
theorem mem_loop_iff {fuel : ℕ} :
    d ∈ (upstream.loop parsers cb fuel envs l).1 ↔
      ∃ n l', n < fuel ∧ Run (Turn parsers upstream cb) l ((List.range n).map envs) l' ∧
        (upstream.iterate parsers cb (envs n) l').1 = some d := by
  induction fuel generalizing envs l with
  | zero => simp [Upstream.loop]
  | succ fuel ih =>
    rw [mem_loop_succ]
    constructor
    -- the first turn is the empty run; a later one is reached through the first
    · rintro (hfirst | ⟨l₁, hturn, hrest⟩)
      · exact ⟨0, l, Nat.succ_pos fuel, Run.nil l, hfirst⟩
      · obtain ⟨n, l', hn, hrun, hdispatch⟩ := ih.mp hrest
        refine ⟨n + 1, l', Nat.succ_lt_succ hn, ?_, hdispatch⟩
        rw [List.range_succ_eq_map, List.map_cons, List.map_map]
        exact Run.cons hturn hrun
    · rintro ⟨n, l', hn, hrun, hdispatch⟩
      cases n with
      | zero => exact Or.inl (hrun.eq_of_nil ▸ hdispatch)
      | succ n =>
        rw [List.range_succ_eq_map, List.map_cons, List.map_map] at hrun
        cases hrun with
        | cons hturn hrest =>
          exact Or.inr ⟨_, hturn, ih.mpr ⟨n, l', Nat.lt_of_succ_lt_succ hn, hrest, hdispatch⟩⟩

/-- The counter of hops counts the turns, up to the budget. -/
theorem hops_of_run {turns : List HopEnv}
    (hrun : Run (Turn parsers upstream cb) (.start request) turns l) :
    l.hops.toNat = turns.length ∧ turns.length ≤ upstream.config.maxRedirects.toNat := by
  -- a turn goes on below the budget only, where the counter does not saturate
  refine hrun.history_invariant
    (P := fun turns l => l.hops.toNat = turns.length ∧
      turns.length ≤ upstream.config.maxRedirects.toNat) ?_ ⟨rfl, Nat.zero_le _⟩
  rintro turns l env l' ⟨hcount, -⟩ hturn
  obtain ⟨-, -, hbudget, hhops, -⟩ := (upstream.iterate_spec parsers cb env l).goesOn l' hturn
  have hlt : l.hops.toNat < upstream.config.maxRedirects.toNat := hbudget
  rw [hhops, toNat_saturatingSucc hbudget, List.length_append, List.length_singleton, ← hcount]
  exact ⟨rfl, hlt⟩

/-- Executing a request dispatches exactly what the turns from the states it stands at do. -/
theorem mem_execute_iff :
    d ∈ (upstream.execute parsers cb envs request).1 ↔
      ∃ n l, StandsAt parsers upstream cb envs request n l ∧
        (upstream.iterate parsers cb (envs n) l).1 = some d := by
  rw [Upstream.execute, mem_loop_iff]
  constructor
  · rintro ⟨n, l, -, hrun, hdispatch⟩
    exact ⟨n, l, hrun, hdispatch⟩
  · rintro ⟨n, l, hrun, hdispatch⟩
    -- no run has more turns than the budget, so the fuel covers it
    have hn := (hops_of_run hrun).2
    rw [List.length_map, List.length_range] at hn
    exact ⟨n, l, Nat.lt_succ_of_le hn, hrun, hdispatch⟩

/-- The invariant rule of the loop: what every turn preserves holds of the states that requests
are dispatched from. -/
theorem execute_invariant {P : LoopState → Prop} (hstart : P (.start request))
    (hturn : ∀ l env l', P l → Turn parsers upstream cb l env l' → P l')
    (hd : d ∈ (upstream.execute parsers cb envs request).1) :
    ∃ l, P l ∧ d.request = l.nextRequest := by
  obtain ⟨n, l, hrun, hdispatch⟩ := mem_execute_iff.mp hd
  have hrequest := ((upstream.iterate_spec parsers cb (envs n) l).dispatched d hdispatch).1
  exact ⟨l, Run.invariant hturn hrun hstart, hrequest⟩

/-- A turn sends on entries of the headers it found only. -/
theorem Turn.headers_le (hturn : Turn parsers upstream cb l env l') :
    l'.state.headers ≤ l.state.headers ∧ l'.nextRequest.headers = l'.state.headers := by
  obtain ⟨-, -, -, -, response, -, -, hprepare⟩ :=
    (upstream.iterate_spec parsers cb env l).goesOn l' hturn
  obtain ⟨nextUri, -, -, -, hstate, hrequest⟩ := prepareNext_eq_continueWith hprepare
  refine ⟨?_, by rw [hrequest]; rfl⟩
  rw [hstate, RedirectState.follow]
  dsimp only
  split
  · exact stripCredentials_le _
  · exact le_refl _

/-- Every dispatched request sends entries of the initial headers only. -/
theorem headers_le_of_mem_execute (hd : d ∈ (upstream.execute parsers cb envs request).1) :
    d.request.headers ≤ request.headers := by
  have hstep : ∀ l env l', l.state.headers ≤ request.headers ∧
      l.nextRequest.headers ≤ request.headers → Turn parsers upstream cb l env l' →
      l'.state.headers ≤ request.headers ∧ l'.nextRequest.headers ≤ request.headers := by
    rintro l env l' ⟨hstate, -⟩ hturn
    obtain ⟨hle, hnext⟩ := hturn.headers_le
    rw [hnext]
    exact ⟨hle.trans hstate, hle.trans hstate⟩
  obtain ⟨l, ⟨-, hle⟩, hrequest⟩ :=
    execute_invariant ⟨le_refl request.headers, le_refl request.headers⟩ hstep hd
  rw [hrequest]
  exact hle

end Corx
