import Corx.Base.Run
import Corx.Server.RateLimit

/-!
# Budgets after a rejection

What a check of the rate limiter leaves behind when one dimension rejects the request. The
dimensions are charged on the way: those checked before the rejecting one have admitted the
request and stay charged, the others are as they were (`budgets_of_rejected`). So a client that
is over its own budget still registers and drains the origins it names
(`origin_charged_by_ip_rejection`).
-/

namespace Corx

namespace RateLimiter

variable {Cell : Type} {gov : Governor Cell} {inner : Inner Cell} {ctx : RateContext}
  {now : Instant} {r : Rejection}

namespace Inner

/-- A run through dimensions ends with a rejection: the dimensions passed before have charged the
request where they apply to it, and no other but the rejecting one has changed. -/
def RejectedAt (gov : Governor Cell) (ctx : RateContext) (now : Instant) (r : Rejection)
    (before after : Inner Cell) (ds : List Dimension) : Prop :=
  ∃ passed rest, ds = passed ++ r.dimension :: rest ∧ ∀ e ≠ r.dimension,
    (e ∈ passed ∧ before.applies ctx e = true → Charged gov ctx now before after e) ∧
    (¬ (e ∈ passed ∧ before.applies ctx e = true) → before.SameBudget after e)

section RejectedAt

variable {before mid after : Inner Cell} {d : Dimension} {ds : List Dimension}

/-- The first dimension rejects. -/
theorem RejectedAt.head (hframe : ∀ e ≠ r.dimension, before.SameBudget after e) :
    RejectedAt gov ctx now r before after (r.dimension :: ds) :=
  ⟨[], ds, rfl, fun e he => ⟨fun hboth => absurd hboth.1 List.not_mem_nil, fun _ => hframe e he⟩⟩

/-- A dimension that does not apply is passed without a change. -/
theorem RejectedAt.cons_exempt (happlies : before.applies ctx d = false)
    (h : RejectedAt gov ctx now r before after ds) :
    RejectedAt gov ctx now r before after (d :: ds) := by
  obtain ⟨passed, rest, rfl, hall⟩ := h
  refine ⟨d :: passed, rest, rfl, fun e he => ⟨?_, ?_⟩⟩
  · rintro ⟨hmem, hap⟩
    rcases List.mem_cons.mp hmem with rfl | hmem
    · exact absurd hap (by simp [happlies])
    · exact (hall e he).1 ⟨hmem, hap⟩
  · exact fun hnot => (hall e he).2 fun hboth =>
      hnot ⟨List.mem_cons_of_mem _ hboth.1, hboth.2⟩

/-- A dimension that is charged is passed, and nothing after it touches it again. -/
theorem RejectedAt.cons_charged (hd : d ∉ ds) (happlies : before.applies ctx d = true)
    (hcharged : Charged gov ctx now before mid d) (hframe : ∀ e ≠ d, before.SameBudget mid e)
    (h : RejectedAt gov ctx now r mid after ds) :
    RejectedAt gov ctx now r before after (d :: ds) := by
  obtain ⟨passed, rest, rfl, hall⟩ := h
  have hdne : d ≠ r.dimension := by
    rintro rfl
    exact hd (by simp)
  have hdpassed : d ∉ passed := fun hmem => hd (List.mem_append_left _ hmem)
  refine ⟨d :: passed, rest, rfl, fun e he => ⟨?_, ?_⟩⟩
  · rintro ⟨hmem, hap⟩
    by_cases hed : e = d
    · subst hed
      exact hcharged.congr (SameBudget.refl _ _) ((hall e he).2 fun hboth => hdpassed hboth.1)
    · have hmem := (List.mem_cons.mp hmem).resolve_left hed
      rw [← (hframe e hed).applies_eq ctx] at hap
      exact ((hall e he).1 ⟨hmem, hap⟩).congr (hframe e hed) (SameBudget.refl _ _)
  · intro hnot
    have hed : e ≠ d := by
      rintro rfl
      exact hnot ⟨List.mem_cons_self, happlies⟩
    refine (hframe e hed).trans ((hall e he).2 fun hboth => hnot ?_)
    rw [(hframe e hed).applies_eq ctx] at hboth
    exact ⟨List.mem_cons_of_mem _ hboth.1, hboth.2⟩

end RejectedAt

/-- A run through distinct dimensions that fails ends with a rejection for the rate limit. -/
theorem checkEach_rejected {ds : List Dimension} (hnodup : ds.Nodup)
    (h : (inner.checkEach gov ctx now ds).1 = .error r) :
    r.error = .rateLimited ∧
      RejectedAt gov ctx now r inner (inner.checkEach gov ctx now ds).2 ds := by
  induction ds generalizing inner with
  | nil => cases h
  | cons d ds ih =>
    obtain ⟨hd, hnodup⟩ := List.nodup_cons.mp hnodup
    have hframe : ∀ e ≠ d, inner.SameBudget (inner.checkDimension gov ctx now d).2 e :=
      fun e he => checkDimension_frame gov inner ctx now he
    rcases checkDimension_spec gov inner ctx now d with
      ⟨happlies, hskip⟩ | ⟨happlies, hok, hcharged⟩ | ⟨-, hreject⟩
    -- the request is exempt: the run goes on with the same limiter
    · rw [checkEach, hskip] at h ⊢
      obtain ⟨herror, hrest⟩ := ih hnodup h
      exact ⟨herror, hrest.cons_exempt happlies⟩
    -- the dimension is charged, and the run goes on
    · rcases hstep : inner.checkDimension gov ctx now d with ⟨result, next⟩
      rw [hstep] at hok hcharged hframe
      obtain rfl : result = .ok () := hok
      rw [checkEach, hstep] at h ⊢
      obtain ⟨herror, hrest⟩ := ih hnodup h
      exact ⟨herror, hrest.cons_charged hd happlies hcharged hframe⟩
    -- the dimension rejects: the run ends here
    · rcases hstep : inner.checkDimension gov ctx now d with ⟨result, next⟩
      rw [hstep] at hreject hframe
      obtain rfl : result = reject d := hreject
      rw [checkEach, hstep] at h ⊢
      obtain rfl := Except.error.inj h
      exact ⟨rfl, .head hframe⟩

/-- The dimension `e` is checked before the dimension `d`. -/
def CheckedBefore (e d : Dimension) : Prop :=
  e ∈ order.takeWhile (· ≠ d)

end Inner

/-! ## A sample limiter -/

/-- The GCRA of `governor`, on theoretical arrival times: an interval for each cell, and a
tolerance of a whole burst. -/
def Governor.gcra : Governor (Option Instant) where
  fresh := none
  test quota now tat :=
    let interval := max 1 (1000000000 / quota.rps.toNat)
    let arrival := tat.getD (now + interval)
    if now < arrival - interval * quota.burst.toNat then none
    else some (some (max arrival now + interval))
  consumes quota now tat tat' h := by
    simp only at h
    split at h
    · cases h
    · obtain rfl := Option.some.inj h
      cases tat with
      | none => simp
      | some arrival =>
        have hpos : 0 < max 1 (1000000000 / quota.rps.toNat) := by omega
        simp only [Option.getD_some, ne_eq, Option.some.injEq]
        exact (lt_of_le_of_lt (Nat.le_max_left _ _) (Nat.lt_add_of_pos_right hpos)).ne'

/-- The limiter of a configuration comes to a state by checks. -/
def Reaches (gov : Governor Cell) (regexSet : List Str → Except Str RegexSet)
    (cfg : RateLimitConfig) (inner : Inner Cell) : Prop :=
  ∃ start checks, fromConfig gov regexSet cfg = .ok start ∧
    Run (fun a (e : RateContext × Instant) b => b = (a.check gov e.1 e.2).2) start checks inner

/-- One request per second for each origin and for each client. -/
def onePerSecond : RateLimitConfig where
  enabled := true
  maxKeys := 16
  origin := { rps := 1, burst := 1, unlimitedPatterns := [] }
  ip := { rps := 1, burst := 1, trustedCidrs := [] }
  targetHost := { rps := 0, burst := 0 }
  global := { rps := 0, burst := 0 }

/-- The limiter of that configuration at its start. -/
def onePerSecondLimiter : Inner (Option Instant) where
  enabled := true
  maxKeys := 16
  origin := some { Keyed.new Governor.gcra ⟨1, 1⟩ with unlimited := fun _ => false }
  ip := some { Keyed.new Governor.gcra ⟨1, 1⟩ with trusted := [] }
  host := none
  global := none

/-- A request of one client, on behalf of an origin. -/
def fromOrigin (origin : Str) : RateContext where
  origin := some origin
  clientIp := .v4 0xC0000207
  targetHost := none

/-- A request that names an origin other than the client's own. -/
def victimRequest : RateContext :=
  fromOrigin "https://victim.test"

/-- That limiter after a first request of the client. -/
def spentLimiter : Inner (Option Instant) :=
  (onePerSecondLimiter.check Governor.gcra (fromOrigin "https://own.test") 0).2

/-! ## What a rejection leaves behind -/

/-- When a check rejects, a dimension that was checked before the rejecting one and applies to
the request has admitted and charged it; every other dimension is as it was. -/
theorem Inner.budgets_of_rejected (gov : Governor Cell) (inner : Inner Cell) (ctx : RateContext)
    (now : Instant) {r : Rejection} (h : (inner.check gov ctx now).1 = .error r) :
    r.error = .rateLimited ∧ ∀ e ≠ r.dimension,
      (Inner.CheckedBefore e r.dimension ∧ inner.applies ctx e = true →
        Inner.Charged gov ctx now inner (inner.check gov ctx now).2 e ∧
          ¬ inner.SameBudget (inner.check gov ctx now).2 e) ∧
      (¬ (Inner.CheckedBefore e r.dimension ∧ inner.applies ctx e = true) →
        inner.SameBudget (inner.check gov ctx now).2 e) := by
  unfold Inner.check at h ⊢
  split
  next hdisabled =>
    rw [if_pos hdisabled] at h
    cases h
  next henabled =>
    rw [if_neg henabled] at h
    have hnodup : Inner.order.Nodup := by decide
    obtain ⟨herror, passed, rest, horder, hall⟩ := Inner.checkEach_rejected hnodup h
    -- the dimensions passed are those in front of the rejecting one
    have hfront : r.dimension ∉ passed := by
      intro hmem
      rw [horder] at hnodup
      exact (List.nodup_append.mp hnodup).2.2 _ hmem _ List.mem_cons_self rfl
    have htake : Inner.order.takeWhile (· ≠ r.dimension) = passed := by
      rw [horder, List.takeWhile_append_of_pos, List.takeWhile_cons_of_neg (by simp),
        List.append_nil]
      intro e he
      simpa using fun heq : e = r.dimension => hfront (heq ▸ he)
    refine ⟨herror, fun e he => ?_⟩
    rw [Inner.CheckedBefore, htake]
    obtain ⟨hcharged, hsame⟩ := hall e he
    exact ⟨fun hboth => ⟨hcharged hboth, (hcharged hboth).not_sameBudget⟩, hsame⟩

/-- The second request of a client in the sample limiter is such a rejection. -/
theorem budgets_of_rejected_second :
    Rejection.error { dimension := .ip, error := .rateLimited } = .rateLimited ∧
      ∀ e ≠ Dimension.ip,
        (Inner.CheckedBefore e .ip ∧ spentLimiter.applies victimRequest e →
          Inner.Charged Governor.gcra victimRequest 0 spentLimiter
              (spentLimiter.check Governor.gcra victimRequest 0).2 e ∧
            ¬ spentLimiter.SameBudget (spentLimiter.check Governor.gcra victimRequest 0).2 e) ∧
        (¬ (Inner.CheckedBefore e .ip ∧ spentLimiter.applies victimRequest e) →
          spentLimiter.SameBudget (spentLimiter.check Governor.gcra victimRequest 0).2 e) :=
  Inner.budgets_of_rejected Governor.gcra spentLimiter victimRequest 0 (by decide +kernel)

/-- The client has spent its own budget, and spends that of another origin nevertheless: its
address rejects the request, and the origin it names is registered. -/
theorem origin_charged_by_ip_rejection :
    ∃ limiter : Inner (Option Instant),
      Reaches Governor.gcra (fun _ => .ok fun _ => false) onePerSecond limiter ∧
      (limiter.check Governor.gcra victimRequest 0).1 =
        .error { dimension := .ip, error := .rateLimited } ∧
      ¬ limiter.SameBudget (limiter.check Governor.gcra victimRequest 0).2 .origin := by
  refine ⟨spentLimiter,
    ⟨onePerSecondLimiter, [(fromOrigin "https://own.test", 0)], rfl, .cons rfl (.nil _)⟩,
    by decide +kernel, fun hsame => ?_⟩
  have hkeys := congrArg (Option.map fun dim => dim.keys.card) hsame
  revert hkeys
  decide +kernel

end RateLimiter

end Corx
