import Mathlib.Data.List.Chain
import Corx.Proxy.Upstream

/-!
# The redirect loop

Whatever the upstream answers and whatever other requests do to the circuit breaker meanwhile,
the loop ends after at most `maxRedirects + 1` dispatched requests, each of them admitted by the
target policy and the circuit breaker (`execute_spec`).

The proof is one induction on the turns, over `LoopSpec`. The counter of hops saturates at 255,
but a turn goes on only below `maxRedirects`, so it never counts twice at the same value
(`toNat_saturatingSucc`). Between turns the state of the redirect chain is about the request
that comes next (`LoopState.Consistent`).
-/

namespace Corx

/-- One request follows up another: over HTTP or HTTPS, and with TLS given up only where that
is allowed. -/
def FollowsUp (upstream : Upstream) (d d' : Dispatch) : Prop :=
  (d'.request.uri.scheme = some ("http" : Str) ∨ d'.request.uri.scheme = some ("https" : Str)) ∧
    (upstream.config.allowHttpsToHttpDowngrade = false →
      ¬ (d.request.uri.scheme = some ("https" : Str) ∧
        d'.request.uri.scheme = some ("http" : Str)))

/-- The state of the chain is about the request that comes next. -/
def LoopState.Consistent (l : LoopState) : Prop :=
  l.state.uri = l.nextRequest.uri

/-- Below a bound the counter does not saturate. -/
theorem toNat_saturatingSucc {n m : UInt8} (h : n < m) :
    (saturatingSucc n).toNat = n.toNat + 1 := by
  have hlt : n.toNat < m.toNat := h
  have hm : m.toNat < 256 := m.toNat_lt
  -- the largest word is below no word
  have hne : n ≠ 255 := by
    rintro rfl
    exact absurd hlt (Nat.not_lt.mpr (Nat.le_of_lt_succ hm))
  rw [saturatingSucc, if_neg hne, UInt8.toNat_add]
  exact Nat.mod_eq_of_lt (by simpa using by omega)

variable {parsers : Parsers} {upstream : Upstream} {cb : CircuitBreaker} {env : HopEnv}
  {envs : ℕ → HopEnv} {l l' : LoopState}

/-- What the dispatches of a loop from `l` with `fuel` turns satisfy. -/
structure LoopSpec (upstream : Upstream) (cb : CircuitBreaker) (l : LoopState) (fuel : ℕ)
    (envs : ℕ → HopEnv) (result : List Dispatch × Option Exit) : Prop where
  returns : upstream.config.maxRedirects.toNat - l.hops.toNat < fuel → result.2.isSome = true
  bounded : result.1.length ≤ upstream.config.maxRedirects.toNat - l.hops.toNat + 1
  admitted : ∀ d ∈ result.1, upstream.Admitted cb d
  turns : ∀ (n : ℕ) (d : Dispatch), result.1[n]? = some d → d.env = envs n
  starts : ∀ d ∈ result.1.head?, d.request = l.nextRequest
  followsUp : result.1.IsChain (FollowsUp upstream)
  single : upstream.config.redirectPolicy ≠ .follow → result.1.length ≤ 1

/-- A turn that goes on leaves a consistent state. -/
theorem consistent_of_iterate (hnext : (upstream.iterate parsers cb env l).2 = .inr l') :
    l'.Consistent := by
  obtain ⟨-, -, -, -, response, -, -, hprepare⟩ :=
    (upstream.iterate_spec parsers cb env l).goesOn l' hnext
  obtain ⟨nextUri, -, -, -, -, hrequest⟩ := prepareNext_eq_continueWith hprepare
  rw [LoopState.Consistent, hrequest]
  rfl

/-- A turn that goes on leaves a request that follows up the one dispatched. -/
theorem followsUp_of_iterate (hl : l.Consistent)
    (hnext : (upstream.iterate parsers cb env l).2 = .inr l') {d d' : Dispatch}
    (hd : d.request = l.nextRequest) (hd' : d'.request = l'.nextRequest) :
    FollowsUp upstream d d' := by
  obtain ⟨-, -, -, -, response, -, -, hprepare⟩ :=
    (upstream.iterate_spec parsers cb env l).goesOn l' hnext
  obtain ⟨nextUri, -, hsafe, hdowngrade, hstate, hrequest⟩ := prepareNext_eq_continueWith hprepare
  have huri : l'.nextRequest.uri = nextUri := by rw [hrequest, hstate]; rfl
  refine ⟨?_, ?_⟩
  -- both facts were checked by `prepareNext`, against the URI that `l` is consistent with
  · rw [hd', huri]
    exact requireSafeScheme_eq_ok hsafe
  · rintro hallow ⟨hhttps, hhttp⟩
    have hnot := hdowngrade hallow
    rw [hl, ← hd, ← huri, ← hd'] at hnot
    simp [isHttpsToHttpDowngrade, hhttps, hhttp] at hnot

/-- The loop satisfies its specification from any consistent state. -/
theorem loop_spec (fuel : ℕ) (envs : ℕ → HopEnv) (hl : l.Consistent) :
    LoopSpec upstream cb l fuel envs (upstream.loop parsers cb fuel envs l) := by
  induction fuel generalizing envs l with
  | zero =>
    rw [Upstream.loop]
    exact ⟨by simp, by simp, by simp, by simp, by simp, .nil, by simp⟩
  | succ fuel ih =>
    obtain ⟨hdispatch, hgoesOn, -⟩ := upstream.iterate_spec parsers cb (envs 0) l
    rw [Upstream.loop]
    split
    next dispatch exit hturn =>
      rw [hturn] at hdispatch
      -- the loop ends in this turn, with the dispatch of the turn or without any
      cases dispatch with
      | none => exact ⟨by simp, by simp, by simp, by simp, by simp, .nil, by simp⟩
      | some d =>
        obtain ⟨hrequest, henv, hadmitted⟩ := hdispatch d rfl
        have hturns : ∀ (n : ℕ) (d' : Dispatch), [d][n]? = some d' → d'.env = envs n := by
          intro n d' hd'
          obtain ⟨rfl, rfl⟩ : n = 0 ∧ d = d' := by cases n <;> simp_all
          exact henv
        exact ⟨by simp, by simp, by simp [hadmitted], hturns, by simp [hrequest], .singleton d,
          by simp⟩
    next dispatch l' hturn =>
      -- the loop goes on: it has dispatched, and the budget shrinks by one
      obtain ⟨hsome, hfollow, hbudget, hhops, -⟩ := hgoesOn l' (by rw [hturn])
      rw [hturn] at hsome hdispatch
      dsimp only at hsome hdispatch
      subst hsome
      obtain ⟨-, -, hadmitted⟩ := hdispatch _ rfl
      have hcount : l'.hops.toNat = l.hops.toNat + 1 := hhops ▸ toNat_saturatingSucc hbudget
      have hlt : l.hops.toNat < upstream.config.maxRedirects.toNat := hbudget
      have hnext : (upstream.iterate parsers cb (envs 0) l).2 = .inr l' := by rw [hturn]
      have hrest := ih (fun n => envs (n + 1)) (consistent_of_iterate hnext)
      have hreturns := hrest.returns
      have hbounded := hrest.bounded
      dsimp only [Option.toList_some, List.singleton_append]
      refine ⟨fun hfuel => hreturns (by omega), ?_, ?_, ?_, by simp, ?_,
        fun h => absurd hfollow h⟩
      · rw [List.length_cons]
        omega
      · exact List.forall_mem_cons.mpr ⟨hadmitted, hrest.admitted⟩
      · intro n d hd
        cases n with
        | zero => rw [List.getElem?_cons_zero, Option.some.injEq] at hd; exact hd ▸ rfl
        | succ n => exact hrest.turns n d (by simpa using hd)
      · refine List.isChain_cons.mpr ⟨fun d' hd' => ?_, hrest.followsUp⟩
        exact followsUp_of_iterate hl hnext rfl (hrest.starts d' hd')

/-- The first request that is dispatched is the given one. -/
theorem execute_head (parsers : Parsers) (upstream : Upstream) (cb : CircuitBreaker)
    (envs : ℕ → HopEnv) (request : Request) :
    ∀ d ∈ (upstream.execute parsers cb envs request).1.head?, d.request = request :=
  (loop_spec _ envs (rfl : (LoopState.start request).Consistent)).starts

/-- A call returns, whatever it meets. -/
theorem exists_execute_eq (parsers : Parsers) (upstream : Upstream) (cb : CircuitBreaker)
    (envs : ℕ → HopEnv) (request : Request) :
    ∃ dispatches exit, upstream.execute parsers cb envs request = (dispatches, some exit) := by
  have hspec : LoopSpec upstream cb (.start request) (upstream.config.maxRedirects.toNat + 1) envs
      (upstream.execute parsers cb envs request) := loop_spec _ envs rfl
  have hstart : (LoopState.start request).hops.toNat = 0 := rfl
  obtain ⟨exit, hexit⟩ := Option.isSome_iff_exists.mp (hspec.returns (by omega))
  exact ⟨_, exit, Prod.ext rfl hexit⟩

/-- A loop with more turns than `maxRedirects` returns, whatever it meets: it dispatches at most
`maxRedirects + 1` requests, the first of them the given one, one a turn, each passed by the
target policy and admitted by the circuit breaker in that turn, each follow-up over HTTP(S) and
without an unallowed downgrade; and at most one unless redirects are followed. -/
theorem execute_spec (parsers : Parsers) (upstream : Upstream) (cb : CircuitBreaker)
    (envs : ℕ → HopEnv) (request : Request) (extra : ℕ) :
    ∃ dispatches exit,
      upstream.loop parsers cb (upstream.config.maxRedirects.toNat + 1 + extra) envs
        (.start request) = (dispatches, some exit) ∧
      dispatches.length ≤ upstream.config.maxRedirects.toNat + 1 ∧
      (∀ d ∈ dispatches.head?, d.request = request) ∧
      (∀ (n : ℕ) (d : Dispatch), dispatches[n]? = some d →
        upstream.targetPolicy.checkUri d.request.uri = .ok () ∧
        ∃ hop, (CircuitHop.admitHop cb (envs n).hosts (hostOf d.request.uri) (envs n).now).1 =
          .ok hop) ∧
      dispatches.IsChain (FollowsUp upstream) ∧
      (upstream.config.redirectPolicy = .block ∨ upstream.config.redirectPolicy = .rewrite →
        dispatches.length ≤ 1) := by
  have hspec : LoopSpec upstream cb (.start request)
      (upstream.config.maxRedirects.toNat + 1 + extra) envs
      (upstream.loop parsers cb (upstream.config.maxRedirects.toNat + 1 + extra) envs
        (.start request)) :=
    loop_spec _ envs rfl
  have hstart : (LoopState.start request).hops.toNat = 0 := rfl
  obtain ⟨exit, hexit⟩ := Option.isSome_iff_exists.mp (hspec.returns (by omega))
  refine ⟨_, exit, Prod.ext rfl hexit, ?_, hspec.starts, ?_, hspec.followsUp, ?_⟩
  · exact hspec.bounded
  · intro n d hd
    rw [← hspec.turns n d hd]
    exact hspec.admitted d (List.mem_of_getElem? hd)
  · rintro (hpolicy | hpolicy)
    · exact hspec.single (by simp [hpolicy])
    · exact hspec.single (by simp [hpolicy])

end Corx
