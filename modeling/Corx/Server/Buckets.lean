import Corx.Server.RateBudgets

/-!
# Buckets of the rate limiter

A limiter has a token bucket for every key of its three keyed dimensions, and one for the process.
A check of one dimension concerns one bucket, the one that the request has there: it leaves it as
it is, or it charges it and registers its key; and it rejects the request only if the registry of
keys has no room for the key, or the bucket refuses (`Inner.checkDimension_judges`).

The check of a dimension is taken as a whole here. What becomes of the registry where the
operations of several checks on it interleave is the subject of `Corx.Server.KeyRegistry`.
-/

namespace Corx

namespace RateLimiter

/-! ## Buckets of a limiter -/

/-- A bucket of a limiter: the one of a key, or the single one of the process. -/
inductive Bucket
  | origin (key : Str)
  | ip (key : IpAddr)
  | targetHost (key : Str)
  | global
  deriving DecidableEq, Repr

/-- The dimension that a bucket belongs to. -/
def Bucket.dimension : Bucket → Dimension
  | origin _ => .origin
  | ip _ => .ip
  | targetHost _ => .targetHost
  | global => .global

/-- The bucket of a request in a dimension. -/
def bucketOf (ctx : RateContext) : Dimension → Option Bucket
  | .origin => ctx.origin.map .origin
  | .ip => some (.ip ctx.clientIp)
  | .targetHost => ctx.targetHost.map .targetHost
  | .global => some .global

/-- The bucket of a request in a dimension belongs to it. -/
theorem dimension_of_bucketOf {ctx : RateContext} {d : Dimension} {bucket : Bucket}
    (h : bucketOf ctx d = some bucket) : bucket.dimension = d := by
  cases d with
  | origin =>
    obtain ⟨key, -, rfl⟩ := Option.map_eq_some_iff.mp h
    rfl
  | ip => exact Option.some.inj h ▸ rfl
  | targetHost =>
    obtain ⟨key, -, rfl⟩ := Option.map_eq_some_iff.mp h
    rfl
  | global => exact Option.some.inj h ▸ rfl

namespace Inner

variable {Cell : Type} (gov : Governor Cell)

/-- The quota of a dimension. -/
def Settings.quota (settings : Settings) : Dimension → Option Quota
  | .origin => settings.origin.map Prod.fst
  | .ip => settings.ip.map Prod.fst
  | .targetHost => settings.host
  | .global => settings.global

/-- The cell of a bucket. -/
def cell (inner : Inner Cell) : Bucket → Option Cell
  | .origin key => inner.origin.map fun dim => dim.limiter.state key
  | .ip key => inner.ip.map fun dim => dim.limiter.state key
  | .targetHost key => inner.host.map fun dim => dim.limiter.state key
  | .global => inner.global.map fun limiter => limiter.state

/-- The bucket is new to a registry that is full. -/
def Unregistrable (inner : Inner Cell) : Bucket → Prop
  | .origin key => ∃ dim ∈ inner.origin, key ∉ dim.keys ∧ inner.maxKeys ≤ dim.keys.card
  | .ip key => ∃ dim ∈ inner.ip, key ∉ dim.keys ∧ inner.maxKeys ≤ dim.keys.card
  | .targetHost key => ∃ dim ∈ inner.host, key ∉ dim.keys ∧ inner.maxKeys ≤ dim.keys.card
  | .global => False

/-- The registry of a bucket knows its key. The single bucket of the process needs none. -/
def Registered (inner : Inner Cell) : Bucket → Prop
  | .origin key => ∀ dim ∈ inner.origin, key ∈ dim.keys
  | .ip key => ∀ dim ∈ inner.ip, key ∈ dim.keys
  | .targetHost key => ∀ dim ∈ inner.host, key ∈ dim.keys
  | .global => True

/-- The bucket that the check of a dimension charges, if it does. -/
def charged (inner : Inner Cell) (ctx : RateContext) (now : Instant) (d : Dimension) :
    Option Bucket :=
  if inner.applies ctx d && (inner.checkDimension gov ctx now d).1.isOk then bucketOf ctx d
  else none

end Inner

/-! ## What a check does to a bucket -/

section Specs

variable {Cell K : Type} {gov : Governor Cell} {now : Instant} {ctx : RateContext}

/-- A key is not admitted only where it is new and the registry is full. -/
theorem unregistrable_of_admitKey [DecidableEq K] {keys keys' : Finset K} {key : K} {maxKeys : ℕ}
    {dimension : Dimension} {rejection : Rejection}
    (h : admitKey keys key maxKeys dimension = (.error rejection, keys')) :
    key ∉ keys ∧ maxKeys ≤ keys.card := by
  unfold admitKey at h
  split at h
  next => cases (Prod.mk.inj h).1
  next hnew =>
    refine ⟨hnew, ?_⟩
    split at h
    next hfull => exact hfull
    next =>
      dsimp only at h
      split at h
      next hover =>
        rw [Finset.card_insert_of_notMem hnew] at hover
        omega
      next => cases (Prod.mk.inj h).1

/-- A registry keeps its keys. -/
theorem subset_admitKey [DecidableEq K] (keys : Finset K) (key : K) (maxKeys : ℕ)
    (dimension : Dimension) : keys ⊆ (admitKey keys key maxKeys dimension).2 := by
  unfold admitKey
  split
  next => exact subset_rfl
  next hnew =>
    split
    next => exact subset_rfl
    next =>
      dsimp only
      split
      -- what is undone is the insertion of a key that was not there
      next => exact (Finset.erase_insert hnew).symm.subset
      next => exact Finset.subset_insert _ _

/-- The check of a key keeps the keys of its dimension. -/
theorem subset_admitAndCheck [DecidableEq K] (gov : Governor Cell) (dim : Keyed Cell K) (key : K)
    (maxKeys : ℕ) (dimension : Dimension) (now : Instant) :
    dim.keys ⊆ (admitAndCheck gov dim key maxKeys dimension now).2.keys := by
  have hsubset := subset_admitKey dim.keys key maxKeys dimension
  unfold admitAndCheck
  split
  next rejection keys hkey =>
    rw [hkey] at hsubset
    exact hsubset
  next keys hkey =>
    rw [hkey] at hsubset
    split
    all_goals exact hsubset

/-- A check of a key that rejects has charged no bucket: the registry is full, or the bucket of
the key is exhausted. -/
theorem admitAndCheck_rejected [DecidableEq K] {dim : Keyed Cell K} {key : K} {maxKeys : ℕ}
    {dimension : Dimension}
    (h : (admitAndCheck gov dim key maxKeys dimension now).1 = reject dimension) :
    (admitAndCheck gov dim key maxKeys dimension now).2.limiter = dim.limiter ∧
      ((key ∉ dim.keys ∧ maxKeys ≤ dim.keys.card) ∨
        gov.test dim.limiter.quota now (dim.limiter.state key) = none) := by
  unfold admitAndCheck at h ⊢
  split at h
  next rejection keys hkey =>
    exact ⟨rfl, .inl (unregistrable_of_admitKey hkey)⟩
  next keys hkey =>
    unfold KeyedLimiter.checkKey at h ⊢
    cases htest : gov.test dim.limiter.quota now (dim.limiter.state key) with
    | none => exact ⟨rfl, .inr rfl⟩
    | some cell =>
      rw [htest] at h
      cases h

namespace Inner

variable {inner after : Inner Cell} {d : Dimension} {bucket : Bucket}

/-- A bucket has admitted a request: its cell is the one that the test leaves, and every other
bucket has the cell it had. -/
def Charges (gov : Governor Cell) (now : Instant) (before after : Inner Cell) (bucket : Bucket) :
    Prop :=
  ∃ quota cell cell', before.settings.quota bucket.dimension = some quota ∧
    before.cell bucket = some cell ∧ gov.test quota now cell = some cell' ∧
    after.cell bucket = some cell' ∧ ∀ other ≠ bucket, after.cell other = before.cell other

/-- A bucket refuses a request: its registry is full, or its test says so. -/
def Refuses (gov : Governor Cell) (now : Instant) (inner : Inner Cell) (bucket : Bucket) : Prop :=
  inner.Unregistrable bucket ∨
    ∃ quota cell, inner.settings.quota bucket.dimension = some quota ∧
      inner.cell bucket = some cell ∧ gov.test quota now cell = none

/-- Limiters that agree on a dimension agree on its buckets. -/
theorem SameBudget.cell_eq (h : inner.SameBudget after bucket.dimension) :
    after.cell bucket = inner.cell bucket := by
  cases bucket <;> exact congrArg (Option.map _) h

/-- Limiters that agree on a dimension agree on what is registered there. -/
theorem SameBudget.registered (h : inner.SameBudget after bucket.dimension)
    (hinner : inner.Registered bucket) : after.Registered bucket := by
  cases bucket with
  | origin key => exact fun dim hdim => hinner dim (h ▸ hdim)
  | ip key => exact fun dim hdim => hinner dim (h ▸ hdim)
  | targetHost key => exact fun dim hdim => hinner dim (h ▸ hdim)
  | global => trivial

/-- A dimension of the limiter has the buckets and the registry of `dim`, whatever its keys are:
`bucketFor` is the bucket of a key. -/
structure KeyedAs (inner : Inner Cell) (d : Dimension) (bucketFor : K → Bucket)
    (dim : Keyed Cell K) : Prop where
  dimension : ∀ key, (bucketFor key).dimension = d
  exhausts : ∀ bucket : Bucket, bucket.dimension = d → ∃ key, bucket = bucketFor key
  injective : ∀ key key', bucketFor key = bucketFor key' → key = key'
  quota : inner.settings.quota d = some dim.limiter.quota
  cell : ∀ key, inner.cell (bucketFor key) = some (dim.limiter.state key)
  unregistrable : ∀ key, key ∉ dim.keys ∧ inner.maxKeys ≤ dim.keys.card →
    inner.Unregistrable (bucketFor key)
  registered : ∀ key, inner.Registered (bucketFor key) ↔ key ∈ dim.keys

/-- The dimension of origins is keyed by texts. -/
theorem keyedAs_origin (dim : OriginDimension Cell) (h : inner.origin = some dim) :
    inner.KeyedAs .origin .origin dim.toKeyed where
  dimension _ := rfl
  exhausts bucket hbucket := by
    cases bucket with
    | origin key => exact ⟨key, rfl⟩
    | _ => cases hbucket
  injective _ _ := Bucket.origin.inj
  quota := by
    rw [Settings.quota, settings, h]
    rfl
  cell _ := by rw [Inner.cell, h, Option.map_some]
  unregistrable _ hfull := ⟨dim, h, hfull⟩
  registered _ := ⟨fun hall => hall dim h,
    fun hmem _ hdim => Option.some.inj (h.symm.trans hdim) ▸ hmem⟩

/-- The dimension of client addresses is keyed by them. -/
theorem keyedAs_ip (dim : IpDimension Cell) (h : inner.ip = some dim) :
    inner.KeyedAs .ip .ip dim.toKeyed where
  dimension _ := rfl
  exhausts bucket hbucket := by
    cases bucket with
    | ip key => exact ⟨key, rfl⟩
    | _ => cases hbucket
  injective _ _ := Bucket.ip.inj
  quota := by
    rw [Settings.quota, settings, h]
    rfl
  cell _ := by rw [Inner.cell, h, Option.map_some]
  unregistrable _ hfull := ⟨dim, h, hfull⟩
  registered _ := ⟨fun hall => hall dim h,
    fun hmem _ hdim => Option.some.inj (h.symm.trans hdim) ▸ hmem⟩

/-- The dimension of target hosts is keyed by texts. -/
theorem keyedAs_host (dim : HostDimension Cell) (h : inner.host = some dim) :
    inner.KeyedAs .targetHost .targetHost dim.toKeyed where
  dimension _ := rfl
  exhausts bucket hbucket := by
    cases bucket with
    | targetHost key => exact ⟨key, rfl⟩
    | _ => cases hbucket
  injective _ _ := Bucket.targetHost.inj
  quota := by
    rw [Settings.quota, settings, h]
    rfl
  cell _ := by rw [Inner.cell, h, Option.map_some]
  unregistrable _ hfull := ⟨dim, h, hfull⟩
  registered _ := ⟨fun hall => hall dim h,
    fun hmem _ hdim => Option.some.inj (h.symm.trans hdim) ▸ hmem⟩

/-- What the check of a dimension comes to for the bucket of its request: it admits and charges
the bucket, which is registered then, or it rejects because the bucket refuses and leaves every
cell as it is. What is registered remains so. -/
structure Judges (gov : Governor Cell) (now : Instant) (d : Dimension) (inner after : Inner Cell)
    (verdict : Except Rejection Unit) (bucket : Bucket) : Prop where
  registered : ∀ other, inner.Registered other → after.Registered other
  outcome : (verdict = .ok () ∧ inner.Charges gov now after bucket ∧ after.Registered bucket) ∨
    (verdict = reject d ∧ (∀ other, after.cell other = inner.cell other) ∧
      inner.Refuses gov now bucket)

/-- The check of a key judges its bucket. -/
theorem KeyedAs.judges [DecidableEq K] {bucketFor : K → Bucket} {dim : Keyed Cell K} {key : K}
    (hinner : inner.KeyedAs d bucketFor dim)
    (hafter : after.KeyedAs d bucketFor (admitAndCheck gov dim key inner.maxKeys d now).2)
    (hframe : ∀ e ≠ d, inner.SameBudget after e) :
    Judges gov now d inner after (admitAndCheck gov dim key inner.maxKeys d now).1
      (bucketFor key) := by
  -- `hframe` is for the buckets of other dimensions
  constructor
  case registered =>
    intro other hregistered
    by_cases hd : other.dimension = d
    · obtain ⟨key', rfl⟩ := hinner.exhausts other hd
      have hmem := (hinner.registered key').mp hregistered
      exact (hafter.registered key').mpr (subset_admitAndCheck gov dim key inner.maxKeys d now hmem)
    · exact (hframe _ hd).registered hregistered
  case outcome =>
    obtain ⟨hok, cell, htest, -, hstate, hkeys⟩ | hreject :=
      admitAndCheck_spec gov dim key inner.maxKeys d now
    · refine .inl ⟨hok, ⟨dim.limiter.quota, _, cell, ?_, hinner.cell key, htest, ?_, ?_⟩, ?_⟩
      · rw [hinner.dimension, hinner.quota]
      · rw [hafter.cell, hstate, Function.update_self]
      · intro other hne
        by_cases hd : other.dimension = d
        · obtain ⟨key', rfl⟩ := hinner.exhausts other hd
          have hkey : key' ≠ key := fun heq => hne (congrArg bucketFor heq)
          rw [hafter.cell, hinner.cell, hstate, Function.update_of_ne hkey]
        · exact (hframe _ hd).cell_eq
      · rw [hafter.registered, hkeys]
        exact Finset.mem_insert_self _ _
    · obtain ⟨hlimiter, hwhy⟩ := admitAndCheck_rejected hreject
      refine .inr ⟨hreject, fun other => ?_, hwhy.imp (hinner.unregistrable key) fun htest =>
        ⟨_, _, ?_, hinner.cell key, htest⟩⟩
      · by_cases hd : other.dimension = d
        · obtain ⟨key', rfl⟩ := hinner.exhausts other hd
          rw [hafter.cell, hinner.cell, hlimiter]
        · exact (hframe _ hd).cell_eq
      · rw [hinner.dimension, hinner.quota]

/-- The check of a dimension that applies judges the bucket of the request. -/
theorem judges_of_applies (gov : Governor Cell) (now : Instant)
    (happlies : inner.applies ctx d = true) :
    ∃ bucket, bucketOf ctx d = some bucket ∧
      Judges gov now d inner (inner.checkDimension gov ctx now d).2
        (inner.checkDimension gov ctx now d).1 bucket := by
  have hframe := fun e (he : e ≠ d) => checkDimension_frame gov inner ctx now he
  cases d with
  | origin =>
    unfold applies at happlies
    dsimp only at happlies
    split at happlies
    next dim key hdim hkey =>
      have hunlimited : dim.unlimited key = false := by simpa using happlies
      have hcheck : inner.checkDimension gov ctx now .origin =
          ((admitAndCheck gov dim.toKeyed key inner.maxKeys .origin now).1,
            { inner with origin := some { dim with
              toKeyed := (admitAndCheck gov dim.toKeyed key inner.maxKeys .origin now).2 } }) := by
        simp [checkDimension, hdim, hkey, hunlimited, admitAndCheckStr]
      rw [hcheck] at hframe ⊢
      exact ⟨.origin key, by rw [bucketOf, hkey, Option.map_some],
        (keyedAs_origin dim hdim).judges (keyedAs_origin { dim with toKeyed := _ } rfl) hframe⟩
    next => cases happlies
  | ip =>
    unfold applies at happlies
    dsimp only at happlies
    split at happlies
    next dim hdim =>
      have htrusted : isTrusted dim.trusted ctx.clientIp = false := by simpa using happlies
      have hcheck : inner.checkDimension gov ctx now .ip =
          ((admitAndCheck gov dim.toKeyed ctx.clientIp inner.maxKeys .ip now).1,
            { inner with ip := some { dim with
              toKeyed :=
                (admitAndCheck gov dim.toKeyed ctx.clientIp inner.maxKeys .ip now).2 } }) := by
        simp [checkDimension, hdim, htrusted]
      rw [hcheck] at hframe ⊢
      exact ⟨.ip ctx.clientIp, rfl,
        (keyedAs_ip dim hdim).judges (keyedAs_ip { dim with toKeyed := _ } rfl) hframe⟩
    next => cases happlies
  | targetHost =>
    obtain ⟨hsome, hkey⟩ := Bool.and_eq_true_iff.mp happlies
    obtain ⟨dim, hdim⟩ := Option.isSome_iff_exists.mp hsome
    obtain ⟨key, hkey⟩ := Option.isSome_iff_exists.mp hkey
    have hcheck : inner.checkDimension gov ctx now .targetHost =
        ((admitAndCheck gov dim.toKeyed key inner.maxKeys .targetHost now).1,
          { inner with host := some {
            toKeyed :=
              (admitAndCheck gov dim.toKeyed key inner.maxKeys .targetHost now).2 } }) := by
      simp [checkDimension, hdim, hkey, admitAndCheckStr]
    rw [hcheck] at hframe ⊢
    exact ⟨.targetHost key, by rw [bucketOf, hkey, Option.map_some],
      (keyedAs_host dim hdim).judges (keyedAs_host { toKeyed := _ } rfl) hframe⟩
  | global =>
    obtain ⟨limiter, hlimiter⟩ := Option.isSome_iff_exists.mp happlies
    -- there is one bucket and no registry
    have hcell : inner.cell .global = some limiter.state := by
      rw [Inner.cell, hlimiter, Option.map_some]
    have hquota : inner.settings.quota Bucket.global.dimension = some limiter.quota := by
      rw [Bucket.dimension, Settings.quota, settings, hlimiter, Option.map_some]
    have hothers : ∀ other : Bucket, other ≠ .global → other.dimension ≠ .global := by
      intro other hne
      cases other with
      | global => exact absurd rfl hne
      | _ => simp [Bucket.dimension]
    refine ⟨.global, rfl, fun other hregistered => ?_, ?_⟩
    · by_cases hother : other = .global
      · rw [hother]
        trivial
      · exact (hframe _ (hothers other hother)).registered hregistered
    · cases htest : gov.test limiter.quota now limiter.state with
      | some cell =>
        refine .inl ⟨?_, ⟨_, _, cell, hquota, hcell, htest, ?_, fun other hother => ?_⟩, trivial⟩
        · simp [checkDimension, hlimiter, DirectLimiter.check, htest]
        · simp [checkDimension, hlimiter, DirectLimiter.check, htest, Inner.cell]
        · exact (hframe _ (hothers other hother)).cell_eq
      | none =>
        refine .inr ⟨?_, fun other => ?_, .inr ⟨_, _, hquota, hcell, htest⟩⟩
        · simp [checkDimension, hlimiter, DirectLimiter.check, htest]
        · by_cases hother : other = .global
          · subst hother
            simp [checkDimension, hlimiter, DirectLimiter.check, htest, Inner.cell]
          · exact (hframe _ (hothers other hother)).cell_eq

/-- A check skips the request, or judges its bucket. -/
theorem checkDimension_judges (gov : Governor Cell) (inner : Inner Cell) (ctx : RateContext)
    (now : Instant) (d : Dimension) :
    (inner.applies ctx d = false ∧ inner.checkDimension gov ctx now d = (.ok (), inner)) ∨
      (inner.applies ctx d = true ∧ ∃ bucket, bucketOf ctx d = some bucket ∧
        Judges gov now d inner (inner.checkDimension gov ctx now d).2
          (inner.checkDimension gov ctx now d).1 bucket) := by
  obtain hskip | ⟨happlies, -⟩ | ⟨happlies, -⟩ := checkDimension_spec gov inner ctx now d
  · exact .inl hskip
  · exact .inr ⟨happlies, judges_of_applies gov now happlies⟩
  · exact .inr ⟨happlies, judges_of_applies gov now happlies⟩

/-- A check that charges a bucket judges it, and does what its test does. -/
theorem charged_spec (h : inner.charged gov ctx now d = some bucket) :
    bucketOf ctx d = some bucket ∧
      inner.Charges gov now (inner.checkDimension gov ctx now d).2 bucket ∧
      (inner.checkDimension gov ctx now d).2.Registered bucket := by
  unfold charged at h
  split at h
  next hcharged =>
    obtain ⟨happlies, hok⟩ := Bool.and_eq_true_iff.mp hcharged
    obtain ⟨bucket', hbucket, -, ⟨-, hcharges⟩ | ⟨hreject, -⟩⟩ :=
      judges_of_applies gov now happlies
    · obtain rfl := Option.some.inj (h.symm.trans hbucket)
      exact ⟨h, hcharges⟩
    · rw [hreject] at hok
      cases hok
  next => cases h

/-- A check that charges no bucket leaves every one as it is. -/
theorem cell_of_not_charged (h : inner.charged gov ctx now d = none) (bucket : Bucket) :
    (inner.checkDimension gov ctx now d).2.cell bucket = inner.cell bucket := by
  obtain ⟨-, hskip⟩ | ⟨happlies, bucket', hbucket, -, ⟨hok, -⟩ | ⟨-, hcells, -⟩⟩ :=
    checkDimension_judges gov inner ctx now d
  · rw [hskip]
  · rw [charged, happlies, hok, hbucket] at h
    cases h
  · exact hcells bucket

/-- A dimension rejects a request because its bucket refuses it. -/
theorem exists_refuses_of_rejected (h : (inner.checkDimension gov ctx now d).1 = reject d) :
    ∃ bucket, bucketOf ctx d = some bucket ∧ inner.Refuses gov now bucket := by
  obtain ⟨-, hskip⟩ | ⟨-, bucket, hbucket, -, ⟨hok, -⟩ | ⟨-, -, hrefuses⟩⟩ :=
    checkDimension_judges gov inner ctx now d
  · rw [hskip] at h
    cases h
  · rw [hok] at h
    cases h
  · exact ⟨bucket, hbucket, hrefuses⟩

end Inner

end Specs

end RateLimiter

end Corx
