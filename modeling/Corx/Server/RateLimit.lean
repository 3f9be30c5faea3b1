import Mathlib.Data.Finset.Card
import Mathlib.Logic.Function.Basic
import Corx.Server.Guards

/-!
# Rate limiter

The compiled rate limiter with its state: up to four dimensions, each with its token buckets
and, for the three keyed ones, the registry of the keys seen. A check runs through the
dimensions in a fixed order and stops at the first that rejects. The limiter's state is
explicit: every operation takes and returns it.

The buckets are `governor`'s. `Governor` is what the code relies on: the test of one bucket
either rejects and changes nothing, or admits and leaves another cell. Patterns are compiled by
the `regex` crate; the compiler is an argument of `RateLimiter.fromConfig`.

`RateLimiter.Inner.checkDimension_spec` says what the check of one dimension can do.
-/

namespace Corx

/-! ## Buckets -/

/-- `governor::Quota`: cells per second, and the size of a burst. -/
structure Quota where
  rps : UInt32
  burst : UInt32
  deriving DecidableEq, Repr

/-- The quota of a dimension; the burst is at least the rate. -/
def quota (rps burst : UInt32) : Except Str Quota :=
  if rps = 0 then .error "rps must be > 0"
  else if max burst rps = 0 then .error "burst must be > 0"
  else .ok { rps, burst := max burst rps }

/-- The token buckets of `governor`. A cell is the state of one bucket; `test` yields the next
cell, or none where the bucket is exhausted. -/
structure Governor (Cell : Type) where
  /-- The cell of a bucket that was never tested. -/
  fresh : Cell
  /-- Test a bucket at an instant. -/
  test : Quota → Instant → Cell → Option Cell
  /-- An admission consumes budget. -/
  consumes : ∀ quota now cell cell', test quota now cell = some cell' → cell' ≠ cell

variable {Cell K : Type} (gov : Governor Cell)

/-- A limiter with one bucket for each key. -/
structure KeyedLimiter (Cell K : Type) where
  quota : Quota
  state : K → Cell

/-- A limiter with a single bucket. -/
structure DirectLimiter (Cell : Type) where
  quota : Quota
  state : Cell

/-- `check_key`: whether the bucket of the key admits, and the limiter it leaves. -/
def KeyedLimiter.checkKey [DecidableEq K] (limiter : KeyedLimiter Cell K) (key : K)
    (now : Instant) : Bool × KeyedLimiter Cell K :=
  match gov.test limiter.quota now (limiter.state key) with
  | some cell => (true, { limiter with state := Function.update limiter.state key cell })
  | none => (false, limiter)

/-- `check`: whether the bucket admits, and the limiter it leaves. -/
def DirectLimiter.check (limiter : DirectLimiter Cell) (now : Instant) :
    Bool × DirectLimiter Cell :=
  match gov.test limiter.quota now limiter.state with
  | some cell => (true, { limiter with state := cell })
  | none => (false, limiter)

/-- A check keeps the quota. -/
theorem DirectLimiter.quota_check (limiter : DirectLimiter Cell) (now : Instant) :
    (limiter.check gov now).2.quota = limiter.quota := by
  unfold DirectLimiter.check
  split <;> rfl

namespace RateLimiter

/-! ## Dimensions -/

/-- The dimensions of the limiter, by the label that a rejection is counted under. -/
inductive Dimension
  | origin
  | ip
  | targetHost
  | global
  deriving DecidableEq, Repr

/-- A rejection: the dimension it is counted under, and the error. -/
structure Rejection where
  dimension : Dimension
  error : ProxyError
  deriving DecidableEq, Repr

/-- Reject on behalf of a dimension. -/
def reject (dimension : Dimension) : Except Rejection Unit :=
  .error { dimension, error := .rateLimited }

/-- A compiled `regex::RegexSet`: whether some pattern matches. -/
abbrev RegexSet := Str → Bool

/-- The buckets of a keyed dimension and the registry of its keys. -/
structure Keyed (Cell K : Type) where
  limiter : KeyedLimiter Cell K
  keys : Finset K

/-- The dimension of origins. -/
structure OriginDimension (Cell : Type) extends Keyed Cell Str where
  unlimited : RegexSet

/-- The dimension of client addresses. -/
structure IpDimension (Cell : Type) extends Keyed Cell IpAddr where
  trusted : List IpNet

/-- The dimension of target hosts. -/
structure HostDimension (Cell : Type) extends Keyed Cell Str

/-- Register a new key if needed, and reject it where the registry is full. -/
def admitKey [DecidableEq K] (keys : Finset K) (key : K) (maxKeys : ℕ) (dimension : Dimension) :
    Except Rejection Unit × Finset K :=
  if key ∈ keys then (.ok (), keys)
  else if maxKeys ≤ keys.card then (reject dimension, keys)
  else
    let keys := insert key keys
    -- the registry may have grown in between: undo the insertion on an overshoot
    if maxKeys < keys.card then (reject dimension, keys.erase key)
    else (.ok (), keys)

/-- Register the key, then charge its bucket. -/
def admitAndCheck [DecidableEq K] (dim : Keyed Cell K) (key : K) (maxKeys : ℕ)
    (dimension : Dimension) (now : Instant) : Except Rejection Unit × Keyed Cell K :=
  match admitKey dim.keys key maxKeys dimension with
  | (.error rejection, keys) => (.error rejection, { dim with keys })
  | (.ok (), keys) =>
    match dim.limiter.checkKey gov key now with
    | (false, limiter) => (reject dimension, { limiter, keys })
    | (true, limiter) => (.ok (), { limiter, keys })

/-- `admitAndCheck` for a key that is text. -/
def admitAndCheckStr (dim : Keyed Cell Str) (key : Str) (maxKeys : ℕ) (dimension : Dimension)
    (now : Instant) : Except Rejection Unit × Keyed Cell Str :=
  admitAndCheck gov dim key maxKeys dimension now

/-- The address lies in a trusted network. -/
def isTrusted (nets : List IpNet) (ip : IpAddr) : Bool :=
  nets.any fun net => net.contains ip

/-! ## The limiter -/

/-- Compiled, four-dimensional rate limiter. -/
structure Inner (Cell : Type) where
  enabled : Bool
  maxKeys : ℕ
  origin : Option (OriginDimension Cell)
  ip : Option (IpDimension Cell)
  host : Option (HostDimension Cell)
  global : Option (DirectLimiter Cell)

/-- Buckets and a registry that have seen nothing. -/
def Keyed.new (quota : Quota) : Keyed Cell K where
  limiter := { quota, state := fun _ => gov.fresh }
  keys := ∅

/-- The dimension of origins, where it has a rate. -/
def buildOrigin (regexSet : List Str → Except Str RegexSet) (cfg : OriginLimitConfig) :
    Except Str (Option (OriginDimension Cell)) :=
  if cfg.rps = 0 then .ok none
  else match quota cfg.rps cfg.burst with
    | .error err => .error err
    | .ok q =>
      match regexSet cfg.unlimitedPatterns with
      | .error err => .error ("invalid origin.unlimited_patterns regex: ".toList ++ err)
      | .ok unlimited => .ok (some { Keyed.new gov q with unlimited })

/-- The dimension of client addresses, where it has a rate. -/
def buildIp (cfg : IpLimitConfig) : Except Str (Option (IpDimension Cell)) :=
  if cfg.rps = 0 then .ok none
  else match quota cfg.rps cfg.burst with
    | .error err => .error err
    | .ok q => .ok (some { Keyed.new gov q with trusted := cfg.trustedCidrs })

/-- The dimension of target hosts, where it has a rate. -/
def buildHost (cfg : BucketConfig) : Except Str (Option (HostDimension Cell)) :=
  if cfg.rps = 0 then .ok none
  else match quota cfg.rps cfg.burst with
    | .error err => .error err
    | .ok q => .ok (some { Keyed.new gov q with })

/-- The process-wide dimension, where it has a rate. -/
def buildGlobal (cfg : BucketConfig) : Except Str (Option (DirectLimiter Cell)) :=
  if cfg.rps = 0 then .ok none
  else match quota cfg.rps cfg.burst with
    | .error err => .error err
    | .ok q => .ok (some { quota := q, state := gov.fresh })

/-- Compile every dimension declared in the configuration. -/
def fromConfig (regexSet : List Str → Except Str RegexSet) (cfg : RateLimitConfig) :
    Except Str (Inner Cell) :=
  if !cfg.enabled then
    -- switched off, no dimension is built
    .ok
      { enabled := false
        maxKeys := max cfg.maxKeys 1
        origin := none
        ip := none
        host := none
        global := none }
  else
    match buildOrigin gov regexSet cfg.origin with
    | .error err => .error err
    | .ok origin =>
      match buildIp gov cfg.ip with
      | .error err => .error err
      | .ok ip =>
        match buildHost gov cfg.targetHost with
        | .error err => .error err
        | .ok host =>
          match buildGlobal gov cfg.global with
          | .error err => .error err
          | .ok global =>
            .ok { enabled := true, maxKeys := max cfg.maxKeys 1, origin, ip, host, global }

namespace Inner

/-- Check one dimension: it is skipped where it is absent or does not apply to the request. -/
def checkDimension (inner : Inner Cell) (ctx : RateContext) (now : Instant) :
    Dimension → Except Rejection Unit × Inner Cell
  | .origin =>
    match inner.origin, ctx.origin with
    | some dim, some origin =>
      if dim.unlimited origin then (.ok (), inner)
      else
        let (result, keyed) :=
          admitAndCheckStr gov dim.toKeyed origin inner.maxKeys .origin now
        (result, { inner with origin := some { dim with toKeyed := keyed } })
    -- a request without an `Origin` is not charged here
    | _, _ => (.ok (), inner)
  | .ip =>
    match inner.ip with
    | some dim =>
      -- trusted clients are not charged
      if isTrusted dim.trusted ctx.clientIp then (.ok (), inner)
      else
        let (result, keyed) :=
          admitAndCheck gov dim.toKeyed ctx.clientIp inner.maxKeys .ip now
        (result, { inner with ip := some { dim with toKeyed := keyed } })
    | none => (.ok (), inner)
  | .targetHost =>
    match inner.host, ctx.targetHost with
    | some dim, some host =>
      let (result, keyed) :=
        admitAndCheckStr gov dim.toKeyed host inner.maxKeys .targetHost now
      (result, { inner with host := some { toKeyed := keyed } })
    | _, _ => (.ok (), inner)
  | .global =>
    match inner.global with
    | some global =>
      -- one bucket, and no key to admit
      let (admitted, global) := global.check gov now
      (if admitted then .ok () else reject .global, { inner with global := some global })
    | none => (.ok (), inner)

/-- Check dimensions in turn; the first that rejects is the last to be checked. -/
def checkEach (ctx : RateContext) (now : Instant) :
    List Dimension → Inner Cell → Except Rejection Unit × Inner Cell
  | [], inner => (.ok (), inner)
  | d :: ds, inner =>
    match inner.checkDimension gov ctx now d with
    | (.error rejection, inner) => (.error rejection, inner)
    | (.ok (), inner) => checkEach ctx now ds inner

/-- The settings of a limiter: all of it but the cells and the registries. -/
structure Settings where
  enabled : Bool
  maxKeys : ℕ
  origin : Option (Quota × RegexSet)
  ip : Option (Quota × List IpNet)
  host : Option Quota
  global : Option Quota

/-- The settings that a limiter was compiled with. -/
def settings (inner : Inner Cell) : Settings where
  enabled := inner.enabled
  maxKeys := inner.maxKeys
  origin := inner.origin.map fun dim => (dim.limiter.quota, dim.unlimited)
  ip := inner.ip.map fun dim => (dim.limiter.quota, dim.trusted)
  host := inner.host.map fun dim => dim.limiter.quota
  global := inner.global.map fun limiter => limiter.quota

/-- The order in which the dimensions are checked. -/
def order : List Dimension :=
  [.origin, .ip, .targetHost, .global]

/-- Enforce every enabled dimension on a request. -/
def check (inner : Inner Cell) (ctx : RateContext) (now : Instant) :
    Except Rejection Unit × Inner Cell :=
  if !inner.enabled then (.ok (), inner) else inner.checkEach gov ctx now order

/-- The verdicts of the limiter in its present state. -/
def verdicts (inner : Inner Cell) (now : Instant) : RateLimiter := fun ctx =>
  match (inner.check gov ctx now).1 with
  | .ok () => .ok ()
  | .error rejection => .error rejection.error

end Inner

/-! ## What compiles -/

section Compiles

/-- A rate that is not zero has a quota. -/
theorem quota_of_ne_zero {rps : UInt32} (burst : UInt32) (h : rps ≠ 0) :
    quota rps burst = .ok { rps, burst := max burst rps } := by
  have hburst : max burst rps ≠ 0 := by
    intro hzero
    rw [show max burst rps = if burst ≤ rps then rps else burst from rfl] at hzero
    split at hzero
    next => exact h hzero
    next hle =>
      subst hzero
      exact hle UInt32.zero_le
  rw [quota, if_neg h, if_neg hburst]

/-- The dimension of origins compiles unless it has a rate and its patterns are malformed. -/
theorem exists_buildOrigin_iff {regexSet : List Str → Except Str RegexSet}
    {cfg : OriginLimitConfig} :
    (∃ origin, buildOrigin gov regexSet cfg = .ok origin) ↔
      (cfg.rps ≠ 0 → ∃ set, regexSet cfg.unlimitedPatterns = .ok set) := by
  unfold buildOrigin
  by_cases hrps : cfg.rps = 0
  · simp [hrps]
  · rw [if_neg hrps, quota_of_ne_zero cfg.burst hrps]
    cases regexSet cfg.unlimitedPatterns <;> simp [hrps]

/-- The dimension of client addresses starts without any key or used bucket. -/
theorem buildIp_of_ne_zero {cfg : IpLimitConfig} (h : cfg.rps ≠ 0) :
    buildIp gov cfg = .ok (some { Keyed.new gov ⟨cfg.rps, max cfg.burst cfg.rps⟩ with
      trusted := cfg.trustedCidrs }) := by
  rw [buildIp, if_neg h, quota_of_ne_zero cfg.burst h]

/-- The dimension of client addresses compiles. -/
theorem exists_buildIp (cfg : IpLimitConfig) : ∃ ip, buildIp gov cfg = .ok ip := by
  by_cases hrps : cfg.rps = 0
  · exact ⟨none, if_pos hrps⟩
  · exact ⟨_, buildIp_of_ne_zero gov hrps⟩

/-- The dimension of target hosts compiles. -/
theorem exists_buildHost (cfg : BucketConfig) : ∃ host, buildHost gov cfg = .ok host := by
  unfold buildHost
  by_cases hrps : cfg.rps = 0
  · exact ⟨none, if_pos hrps⟩
  · rw [if_neg hrps, quota_of_ne_zero cfg.burst hrps]
    exact ⟨_, rfl⟩

/-- The process-wide dimension compiles. -/
theorem exists_buildGlobal (cfg : BucketConfig) : ∃ global, buildGlobal gov cfg = .ok global := by
  unfold buildGlobal
  by_cases hrps : cfg.rps = 0
  · exact ⟨none, if_pos hrps⟩
  · rw [if_neg hrps, quota_of_ne_zero cfg.burst hrps]
    exact ⟨_, rfl⟩

/-- The limiter compiles unless its dimension of origins is on and has malformed patterns. -/
theorem exists_fromConfig_iff {regexSet : List Str → Except Str RegexSet}
    {cfg : RateLimitConfig} :
    (∃ inner, fromConfig gov regexSet cfg = .ok inner) ↔
      (cfg.enabled = true → cfg.origin.rps ≠ 0 →
        ∃ set, regexSet cfg.origin.unlimitedPatterns = .ok set) := by
  rw [← exists_buildOrigin_iff gov]
  unfold fromConfig
  cases henabled : cfg.enabled with
  | false => simp
  | true =>
    obtain ⟨ip, hip⟩ := exists_buildIp gov cfg.ip
    obtain ⟨host, hhost⟩ := exists_buildHost gov cfg.targetHost
    obtain ⟨global, hglobal⟩ := exists_buildGlobal gov cfg.global
    cases horigin : buildOrigin gov regexSet cfg.origin <;> simp [hip, hhost, hglobal]

end Compiles

/-! ## What a check can do -/

section Specs

variable {gov} {inner : Inner Cell} {ctx : RateContext} {now : Instant}

/-- An admitted key is registered. -/
theorem admitKey_eq_ok [DecidableEq K] {keys keys' : Finset K} {key : K} {maxKeys : ℕ}
    {dimension : Dimension} (h : admitKey keys key maxKeys dimension = (.ok (), keys')) :
    keys' = insert key keys := by
  unfold admitKey at h
  split at h
  next hmem =>
    rw [Finset.insert_eq_of_mem hmem]
    exact (Prod.mk.inj h).2.symm
  next =>
    split at h
    next => cases (Prod.mk.inj h).1
    next =>
      dsimp only at h
      split at h
      next => cases (Prod.mk.inj h).1
      next => exact (Prod.mk.inj h).2.symm

/-- A key that is not admitted is rejected for its dimension. -/
theorem admitKey_eq_error [DecidableEq K] {keys keys' : Finset K} {key : K} {maxKeys : ℕ}
    {dimension : Dimension} {rejection : Rejection}
    (h : admitKey keys key maxKeys dimension = (.error rejection, keys')) :
    rejection = { dimension, error := .rateLimited } := by
  unfold admitKey at h
  split at h
  next => cases (Prod.mk.inj h).1
  next =>
    split at h
    next => exact (Except.error.inj (Prod.mk.inj h).1).symm
    next =>
      dsimp only at h
      split at h
      next => exact (Except.error.inj (Prod.mk.inj h).1).symm
      next => cases (Prod.mk.inj h).1

/-- The keyed dimension has admitted the key and charged its bucket: the key is registered, and
its cell, and no other, is the one that the test leaves. -/
def Keyed.Charged [DecidableEq K] (gov : Governor Cell) (key : K) (now : Instant)
    (before after : Keyed Cell K) : Prop :=
  ∃ cell, gov.test before.limiter.quota now (before.limiter.state key) = some cell ∧
    after.limiter.quota = before.limiter.quota ∧
    after.limiter.state = Function.update before.limiter.state key cell ∧
    after.keys = insert key before.keys

/-- The check of a key charges it, or rejects on behalf of the dimension. -/
theorem admitAndCheck_spec [DecidableEq K] (gov : Governor Cell) (dim : Keyed Cell K) (key : K)
    (maxKeys : ℕ) (dimension : Dimension) (now : Instant) :
    ((admitAndCheck gov dim key maxKeys dimension now).1 = .ok () ∧
        dim.Charged gov key now (admitAndCheck gov dim key maxKeys dimension now).2) ∨
      (admitAndCheck gov dim key maxKeys dimension now).1 = reject dimension := by
  unfold admitAndCheck
  split
  next rejection keys hkey =>
    right
    rw [admitKey_eq_error hkey, reject]
  next keys hkey =>
    unfold KeyedLimiter.checkKey
    cases htest : gov.test dim.limiter.quota now (dim.limiter.state key) with
    | none => exact .inr rfl
    | some cell => exact .inl ⟨rfl, cell, htest, rfl, rfl, admitKey_eq_ok hkey⟩

/-- The check of a key keeps the quota of its dimension. -/
theorem quota_admitAndCheck [DecidableEq K] (gov : Governor Cell) (dim : Keyed Cell K) (key : K)
    (maxKeys : ℕ) (dimension : Dimension) (now : Instant) :
    (admitAndCheck gov dim key maxKeys dimension now).2.limiter.quota = dim.limiter.quota := by
  unfold admitAndCheck KeyedLimiter.checkKey
  split
  next => rfl
  next => cases gov.test dim.limiter.quota now (dim.limiter.state key) <;> rfl

namespace Inner

/-- The dimension is present, and the request is not exempt from it. -/
def applies (inner : Inner Cell) (ctx : RateContext) : Dimension → Bool
  | .origin =>
    match inner.origin, ctx.origin with
    | some dim, some origin => !dim.unlimited origin
    | _, _ => false
  | .ip =>
    match inner.ip with
    | some dim => !isTrusted dim.trusted ctx.clientIp
    | none => false
  | .targetHost => inner.host.isSome && ctx.targetHost.isSome
  | .global => inner.global.isSome

/-- Two limiters agree on the buckets and the registry of a dimension, and on its settings. -/
def SameBudget (a b : Inner Cell) : Dimension → Prop
  | .origin => b.origin = a.origin
  | .ip => b.ip = a.ip
  | .targetHost => b.host = a.host
  | .global => b.global = a.global

/-- The dimension has admitted the request and charged it. -/
def Charged (gov : Governor Cell) (ctx : RateContext) (now : Instant) (before after : Inner Cell) :
    Dimension → Prop
  | .origin => ∃ dim dim' key, before.origin = some dim ∧ after.origin = some dim' ∧
      ctx.origin = some key ∧ dim'.unlimited = dim.unlimited ∧
      dim.toKeyed.Charged gov key now dim'.toKeyed
  | .ip => ∃ dim dim', before.ip = some dim ∧ after.ip = some dim' ∧
      dim'.trusted = dim.trusted ∧ dim.toKeyed.Charged gov ctx.clientIp now dim'.toKeyed
  | .targetHost => ∃ dim dim' key, before.host = some dim ∧ after.host = some dim' ∧
      ctx.targetHost = some key ∧ dim.toKeyed.Charged gov key now dim'.toKeyed
  | .global => ∃ limiter limiter', before.global = some limiter ∧ after.global = some limiter' ∧
      limiter'.quota = limiter.quota ∧
      gov.test limiter.quota now limiter.state = some limiter'.state

/-- A limiter agrees with itself. -/
theorem SameBudget.refl (a : Inner Cell) (d : Dimension) : a.SameBudget a d := by
  cases d <;> exact Eq.refl _

/-- Agreement on a dimension is transitive. -/
theorem SameBudget.trans {a b c : Inner Cell} {d : Dimension} (hab : a.SameBudget b d)
    (hbc : b.SameBudget c d) : a.SameBudget c d := by
  cases d <;> exact Eq.trans hbc hab

/-- Whether a dimension applies is read off its settings. -/
theorem SameBudget.applies_eq {a b : Inner Cell} {d : Dimension} (h : a.SameBudget b d)
    (ctx : RateContext) : b.applies ctx d = a.applies ctx d := by
  cases d <;> simp_all only [SameBudget, applies]

/-- What is done to a dimension does not depend on the others. -/
theorem Charged.congr {a a' b b' : Inner Cell} {d : Dimension} (h : Charged gov ctx now a b d)
    (ha : a'.SameBudget a d) (hb : b.SameBudget b' d) : Charged gov ctx now a' b' d := by
  cases d <;> simp_all only [SameBudget, Charged]

/-- A charged dimension is not the same: a test that admits consumes budget. -/
theorem Charged.not_sameBudget {a b : Inner Cell} {d : Dimension}
    (h : Charged gov ctx now a b d) : ¬ a.SameBudget b d := by
  -- the cell of the tested key would be its own successor
  have hkeyed : ∀ {K : Type} [DecidableEq K] {k k' : Keyed Cell K} {key : K},
      k.Charged gov key now k' → k ≠ k' := by
    rintro K _ k _ key ⟨cell, htest, -, hstate, -⟩ rfl
    refine gov.consumes _ _ _ _ htest ?_
    rw [hstate, Function.update_self]
  intro hsame
  cases d with
  | origin =>
    obtain ⟨dim, dim', key, hbefore, hafter, -, -, hcharged⟩ := h
    obtain rfl : dim' = dim := Option.some.inj (hafter.symm.trans (Eq.trans hsame hbefore))
    exact hkeyed hcharged rfl
  | ip =>
    obtain ⟨dim, dim', hbefore, hafter, -, hcharged⟩ := h
    obtain rfl : dim' = dim := Option.some.inj (hafter.symm.trans (Eq.trans hsame hbefore))
    exact hkeyed hcharged rfl
  | targetHost =>
    obtain ⟨dim, dim', key, hbefore, hafter, -, hcharged⟩ := h
    obtain rfl : dim' = dim := Option.some.inj (hafter.symm.trans (Eq.trans hsame hbefore))
    exact hkeyed hcharged rfl
  | global =>
    obtain ⟨limiter, limiter', hbefore, hafter, -, htest⟩ := h
    obtain rfl : limiter' = limiter := Option.some.inj (hafter.symm.trans (Eq.trans hsame hbefore))
    exact gov.consumes _ _ _ _ htest rfl

/-- The check of one dimension leaves the others as they are. -/
theorem checkDimension_frame (gov : Governor Cell) (inner : Inner Cell) (ctx : RateContext)
    (now : Instant) {d e : Dimension} (h : e ≠ d) :
    inner.SameBudget (inner.checkDimension gov ctx now d).2 e := by
  -- only the field of the dimension itself is ever replaced
  cases d <;> cases e <;> first | exact absurd rfl h | skip
  all_goals
    unfold checkDimension
    dsimp only
    repeat' split
    all_goals rfl

/-- The check of a dimension skips, charges or rejects the request, as the dimension applies to
it. -/
theorem checkDimension_spec (gov : Governor Cell) (inner : Inner Cell) (ctx : RateContext)
    (now : Instant) (d : Dimension) :
    (inner.applies ctx d = false ∧ inner.checkDimension gov ctx now d = (.ok (), inner)) ∨
    (inner.applies ctx d = true ∧ (inner.checkDimension gov ctx now d).1 = .ok () ∧
      Charged gov ctx now inner (inner.checkDimension gov ctx now d).2 d) ∨
    (inner.applies ctx d = true ∧ (inner.checkDimension gov ctx now d).1 = reject d) := by
  cases d with
  | origin =>
    -- no limiter, no `Origin` or an unlimited key: nothing is charged
    cases hdim : inner.origin with
    | none => exact .inl ⟨by simp [applies, hdim], by simp [checkDimension, hdim]⟩
    | some dim =>
      cases horigin : ctx.origin with
      | none =>
        exact .inl ⟨by simp [applies, horigin], by simp [checkDimension, hdim, horigin]⟩
      | some origin =>
        cases hunlimited : dim.unlimited origin with
        | true =>
          exact .inl ⟨by simp [applies, hdim, horigin, hunlimited],
            by simp [checkDimension, hdim, horigin, hunlimited]⟩
        | false =>
          right
          simp only [applies, checkDimension, hdim, horigin, hunlimited, Bool.false_eq_true,
            ↓reduceIte, Bool.not_false, true_and]
          refine (admitAndCheck_spec gov dim.toKeyed origin inner.maxKeys .origin now).imp_left ?_
          rintro ⟨hok, hcharged⟩
          exact ⟨hok, dim, _, origin, hdim, rfl, horigin, rfl, hcharged⟩
  | ip =>
    cases hdim : inner.ip with
    | none => exact .inl ⟨by simp [applies, hdim], by simp [checkDimension, hdim]⟩
    | some dim =>
      cases htrusted : isTrusted dim.trusted ctx.clientIp with
      | true =>
        exact .inl ⟨by simp [applies, hdim, htrusted], by simp [checkDimension, hdim, htrusted]⟩
      | false =>
        right
        simp only [applies, checkDimension, hdim, htrusted, Bool.false_eq_true, ↓reduceIte,
          Bool.not_false, true_and]
        refine (admitAndCheck_spec gov dim.toKeyed ctx.clientIp inner.maxKeys .ip now).imp_left ?_
        rintro ⟨hok, hcharged⟩
        exact ⟨hok, dim, _, hdim, rfl, rfl, hcharged⟩
  | targetHost =>
    cases hdim : inner.host with
    | none => exact .inl ⟨by simp [applies, hdim], by simp [checkDimension, hdim]⟩
    | some dim =>
      cases hhost : ctx.targetHost with
      | none => exact .inl ⟨by simp [applies, hhost], by simp [checkDimension, hdim, hhost]⟩
      | some host =>
        right
        simp only [applies, checkDimension, hdim, hhost, Option.isSome_some, Bool.and_self,
          true_and]
        refine (admitAndCheck_spec gov dim.toKeyed host inner.maxKeys .targetHost now).imp_left ?_
        rintro ⟨hok, hcharged⟩
        exact ⟨hok, dim, _, host, hdim, rfl, hhost, hcharged⟩
  | global =>
    -- there is one bucket, and no key to register
    cases hglobal : inner.global with
    | none => exact .inl ⟨by simp [applies, hglobal], by simp [checkDimension, hglobal]⟩
    | some limiter =>
      right
      cases htest : gov.test limiter.quota now limiter.state with
      | none =>
        exact .inr ⟨by simp [applies, hglobal],
          by simp [checkDimension, hglobal, DirectLimiter.check, htest]⟩
      | some cell =>
        refine .inl ⟨by simp [applies, hglobal],
          by simp [checkDimension, hglobal, DirectLimiter.check, htest],
          limiter, { limiter with state := cell }, hglobal, ?_, rfl, htest⟩
        simp [checkDimension, hglobal, DirectLimiter.check, htest]

/-- A check replaces cells and registers keys; it never changes the settings. -/
theorem settings_checkDimension (gov : Governor Cell) (inner : Inner Cell) (ctx : RateContext)
    (now : Instant) (d : Dimension) :
    (inner.checkDimension gov ctx now d).2.settings = inner.settings := by
  cases d with
  | origin =>
    unfold checkDimension
    dsimp only
    split
    next dim origin hdim _ =>
      split
      next => rfl
      next => simp [settings, hdim, admitAndCheckStr, quota_admitAndCheck]
    next => rfl
  | ip =>
    unfold checkDimension
    dsimp only
    split
    next dim hdim =>
      split
      next => rfl
      next => simp [settings, hdim, quota_admitAndCheck]
    next => rfl
  | targetHost =>
    unfold checkDimension
    dsimp only
    split
    next dim host hdim _ => simp [settings, hdim, admitAndCheckStr, quota_admitAndCheck]
    next => rfl
  | global =>
    unfold checkDimension
    dsimp only
    split
    next limiter hglobal => simp [settings, hglobal, DirectLimiter.quota_check]
    next => rfl

end Inner

end Specs

end RateLimiter

end Corx
