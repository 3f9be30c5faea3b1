import Corx.Base.ArrivalMeter
import Corx.Server.CompiledLimits
import Corx.Server.ReloadRuns

/-!
# Rates over windows of time

What the rate limiter comes to over a run of the process: requests check dimensions in any
interleaving, at instants that need not come in order, and reloads happen in between. Each check of
a dimension is one step.

Every bucket of a limiter is a meter (`Process.meters_charges`), if the buckets of `governor` are
what it documents, a generic cell rate algorithm (`Governor.IsGcra`). So the requests that a
bucket admits in any window of time stay within its rate and burst, and reloads that leave the
section alone do not refill it (`Process.admissions_of_run`).
-/

namespace Corx

/-! ## What `governor` documents -/

/-- The buckets are those of the generic cell rate algorithm. A cell holds the theoretical arrival
time of the next request; a test refuses where that is ahead of the present by more than a burst,
and moves it by one interval otherwise. A bucket that was never used starts one interval ahead. -/
structure Governor.IsGcra {Cell : Type} (gov : Governor Cell) (interval : Quota → ℕ)
    (arrival : Cell → ℕ) : Prop where
  fresh : arrival gov.fresh = 0
  refuses : ∀ {quota : Quota} {now : Instant} {cell : Cell}, quota.burst ≠ 0 →
    gov.test quota now cell = none → now + quota.burst.toNat * interval quota < arrival cell
  within : ∀ {quota : Quota} {now : Instant} {cell cell' : Cell}, quota.burst ≠ 0 →
    gov.test quota now cell = some cell' →
    arrival cell ≤ now + quota.burst.toNat * interval quota
  advances : ∀ {quota : Quota} {now : Instant} {cell cell' : Cell},
    gov.test quota now cell = some cell' →
    max (arrival cell) now + interval quota ≤ arrival cell'
  idle : ∀ {quota : Quota} {now : Instant} {cell cell' : Cell},
    gov.test quota now cell = some cell' → arrival cell ≤ now →
    arrival cell' ≤ now + 2 * interval quota
  busy : ∀ {quota : Quota} {now : Instant} {cell cell' : Cell},
    gov.test quota now cell = some cell' → now < arrival cell →
    arrival cell' ≤ arrival cell + interval quota

/-- The interval of the sample buckets. -/
def gcraInterval (quota : Quota) : ℕ :=
  max 1 (1000000000 / quota.rps.toNat)

/-- The test of a sample bucket. -/
theorem test_gcra (quota : Quota) (now : Instant) (tat : Option Instant) :
    RateLimiter.Governor.gcra.test quota now tat =
      if now < tat.getD (now + gcraInterval quota) - gcraInterval quota * quota.burst.toNat then
        none
      else some (some (max (tat.getD (now + gcraInterval quota)) now + gcraInterval quota)) :=
  rfl

/-- A sample bucket that admits is not ahead by more than a burst, and moves by one interval. -/
theorem test_gcra_eq_some {quota : Quota} {now : Instant} {tat tat' : Option Instant}
    (h : RateLimiter.Governor.gcra.test quota now tat = some tat') :
    tat.getD (now + gcraInterval quota) ≤ now + quota.burst.toNat * gcraInterval quota ∧
      tat'.getD 0 = max (tat.getD (now + gcraInterval quota)) now + gcraInterval quota := by
  rw [test_gcra] at h
  split at h
  next => cases h
  next hle =>
    obtain rfl := Option.some.inj h
    rw [Nat.mul_comm]
    exact ⟨Nat.le_add_of_sub_le (Nat.le_of_not_lt hle), rfl⟩

/-- The sample buckets are such. -/
theorem isGcra_gcra :
    RateLimiter.Governor.gcra.IsGcra gcraInterval (fun cell => cell.getD 0) where
  fresh := rfl
  refuses {quota now cell} hburst h := by
    have hpos : 0 < quota.burst.toNat :=
      Nat.pos_of_ne_zero fun hzero => hburst (UInt32.toNat_inj.mp hzero)
    have hone : gcraInterval quota ≤ gcraInterval quota * quota.burst.toNat :=
      Nat.le_mul_of_pos_right _ hpos
    rw [test_gcra] at h
    split at h
    next hlt =>
      rw [Nat.mul_comm]
      -- a cell that was never charged is not ahead of the clock
      have hahead := Nat.add_lt_of_lt_sub hlt
      cases cell with
      | none => exact absurd hahead (by simpa using hone)
      | some arrival => exact hahead
    next => cases h
  within {quota now cell cell'} _ h := by
    cases cell with
    | none => exact Nat.zero_le _
    | some arrival => exact (test_gcra_eq_some h).1
  advances {quota now cell cell'} h := by
    rw [(test_gcra_eq_some h).2]
    cases cell with
    | none => simp
    | some arrival => exact le_rfl
  idle {quota now cell cell'} h hidle := by
    rw [(test_gcra_eq_some h).2, Nat.two_mul, ← Nat.add_assoc]
    cases cell with
    | none => simp
    | some arrival => exact Nat.add_le_add_right (max_le (hidle.trans (Nat.le_add_right _ _))
        (Nat.le_add_right _ _)) _
  busy {quota now cell cell'} h hbusy := by
    rw [(test_gcra_eq_some h).2]
    cases cell with
    | none => exact absurd hbusy (Nat.not_lt_zero _)
    | some arrival => exact Nat.add_le_add_right (max_le le_rfl hbusy.le) _

/-! ## Buckets of the process -/

/-- A heap has the limiters of another one, and at most one more that was just compiled. -/
def Heap.AddsLimiter {Cell : Type} (gov : Governor Cell)
    (regexSet : List Str → Except Str RateLimiter.RegexSet) (before after : Heap Cell) : Prop :=
  after.limiters = before.limiters ∨
    ∃ cfg inner, RateLimiter.fromConfig gov regexSet cfg = .ok inner ∧
      after.limiters = before.limiters ++ [inner]

/-- Compiling a snapshot compiles at most one more limiter. -/
theorem Snapshot.addsLimiter_buildFrom {Cell : Type} {gov : Governor Cell}
    {regexSet : List Str → Except Str RateLimiter.RegexSet} {tls : Except Str Unit}
    {config : Config} {previous : Option Snapshot} {heap heap' : Heap Cell} {s : Snapshot}
    (h : buildFrom gov regexSet tls config previous heap = .ok (s, heap')) :
    heap.AddsLimiter gov regexSet heap' := by
  obtain ⟨_, _, _, heap₁, _, -, -, hlimiter, -, -, rfl⟩ := exists_of_buildFrom h
  -- the breaker's part of the heap is another one
  have hcircuit : (circuitFrom config previous heap₁).2.limiters = heap₁.limiters := by
    unfold circuitFrom
    split <;> rfl
  rw [Heap.AddsLimiter, hcircuit]
  obtain ⟨_, -, -, -, rfl⟩ | ⟨inner, -, hinner, -, rfl⟩ := rateLimiterFrom_cases hlimiter
  · exact .inl rfl
  · exact .inr ⟨_, inner, hinner, rfl⟩

/-- The instant at which an event checks a rate limiter, if it does. -/
def ProcessEvent.checkedAt : ProcessEvent → Option Instant
  | .rate _ _ _ now => some now
  | .attempt _ | .hop .. => none

namespace Process

open RateLimiter ArrivalMeter

variable {Cell : Type} (gov : Governor Cell)
  (regexSet : List Str → Except Str RegexSet)

/-- The instant at which an event charges a bucket of the limiter at a place, if it does. -/
def charges (limiter : ℕ) (bucket : Bucket) (p : Process Cell) : ProcessEvent → Option Instant
  | .rate place dimension ctx now =>
    if place = limiter ∧ (p.heap.limiters[limiter]?.bind fun inner =>
        inner.charged gov ctx now dimension) = some bucket then some now
    else none
  | .attempt _ | .hop .. => none

/-- The cell of a bucket of the limiter at a place. -/
def cellAt (p : Process Cell) (limiter : ℕ) (bucket : Bucket) : Option Cell :=
  p.heap.limiters[limiter]?.bind fun inner => inner.cell bucket

/-- The theoretical arrival time of a bucket; one that does not exist yet is idle. -/
def arrivalAt (arrival : Cell → ℕ) (limiter : ℕ) (bucket : Bucket) (p : Process Cell) : ℕ :=
  (p.cellAt limiter bucket).elim 0 arrival

/-- Whatever limiter is at the place has the quota for the dimension. -/
def QuotaAt (limiter : ℕ) (d : Dimension) (quota : Quota) (p : Process Cell) : Prop :=
  ∀ inner ∈ p.heap.limiters[limiter]?, inner.settings.quota d = some quota

variable {gov regexSet} {p q : Process Cell} {e : ProcessEvent} {es : List ProcessEvent}
  {limiter place : ℕ} {bucket : Bucket} {ctx : RateContext} {now : Instant} {d : Dimension}
  {quota : Quota} {interval : Quota → ℕ} {arrival : Cell → ℕ}

/-- A run of the process is a fold of its events. -/
theorem run_iff_foldl :
    Run (Step gov regexSet) p es q ↔ q = es.foldl (next gov regexSet) p :=
  Run.iff_foldl

/-- An event that charges a bucket at an instant checks a limiter at it. -/
theorem checkedAt_of_charges (h : charges gov limiter bucket p e = some now) :
    e.checkedAt = some now := by
  cases e with
  | rate place dimension ctx t =>
    rw [charges] at h
    split at h
    next => exact h
    next => cases h
  | _ => cases h

/-- An event that charges a bucket of the limiter is a check of it that admits the request. -/
theorem exists_of_charges (h : charges gov limiter bucket p e = some now) :
    ∃ inner ctx d, e = .rate limiter d ctx now ∧ p.heap.limiters[limiter]? = some inner ∧
      inner.charged gov ctx now d = some bucket := by
  cases e with
  | rate place dimension ctx t =>
    rw [charges] at h
    split at h
    next hboth =>
      obtain ⟨rfl, hbind⟩ := hboth
      obtain ⟨inner, hinner, hcharged⟩ := Option.bind_eq_some_iff.mp hbind
      obtain rfl := Option.some.inj h
      exact ⟨inner, ctx, dimension, rfl, hinner, hcharged⟩
    next => cases h
  | _ => cases h

/-- The limiter at a place after it was checked. -/
theorem limiters_rate_self {inner : Inner Cell} (h : p.heap.limiters[limiter]? = some inner) :
    (p.next gov regexSet (.rate limiter d ctx now)).heap.limiters[limiter]? =
      some (inner.checkDimension gov ctx now d).2 := by
  rw [next, Heap.rate, List.getElem?_modify_eq, h]
  rfl

/-- The check of one limiter leaves the others as they are. -/
theorem limiters_rate_of_ne (h : place ≠ limiter) :
    (p.next gov regexSet (.rate place d ctx now)).heap.limiters[limiter]? =
      p.heap.limiters[limiter]? :=
  List.getElem?_modify_ne _ _ h

/-- A reload compiles at most one more limiter. -/
theorem addsLimiter_reload (gov : Governor Cell)
    (regexSet : List Str → Except Str RegexSet) (p : Process Cell) (a : Attempt) :
    p.heap.AddsLimiter gov regexSet (p.reload gov regexSet a).2.heap := by
  obtain ⟨err, heq⟩ | ⟨config, live, heap, -, -, hbuild, heq⟩ := reload_spec gov regexSet p a
  · rw [heq]
    exact .inl rfl
  · rw [heq]
    exact Snapshot.addsLimiter_buildFrom hbuild

/-- A reload attempt leaves the limiters that are there as they are. -/
theorem limiters_attempt {inner : Inner Cell} (h : p.heap.limiters[limiter]? = some inner)
    (a : Attempt) :
    (p.next gov regexSet (.attempt a)).heap.limiters[limiter]? = some inner := by
  obtain hsame | ⟨cfg, fresh, -, hgrown⟩ := addsLimiter_reload gov regexSet p a
  · rw [next, hsame]
    exact h
  · rw [next, hgrown]
    exact Heap.getElem?_eq_some_of_prefix (List.prefix_append _ _) h

/-- An event keeps the settings of every limiter. -/
theorem settings_next (gov : Governor Cell) (regexSet : List Str → Except Str RegexSet)
    {inner : Inner Cell} (h : p.heap.limiters[limiter]? = some inner) (e : ProcessEvent) :
    ∃ inner' ∈ (p.next gov regexSet e).heap.limiters[limiter]?,
      inner'.settings = inner.settings := by
  cases e with
  | attempt a => exact ⟨inner, limiters_attempt h a, rfl⟩
  | rate place dimension ctx now =>
    by_cases hplace : place = limiter
    · rw [hplace, limiters_rate_self h]
      exact ⟨_, rfl, Inner.settings_checkDimension gov inner ctx now dimension⟩
    · rw [limiters_rate_of_ne hplace]
      exact ⟨inner, h, rfl⟩
  | hop circuit use => exact ⟨inner, h, rfl⟩

/-- A limiter keeps its settings along a run. -/
theorem settings_foldl (gov : Governor Cell) (regexSet : List Str → Except Str RegexSet)
    {inner : Inner Cell} (h : p.heap.limiters[limiter]? = some inner) (es : List ProcessEvent) :
    ∃ inner' ∈ (es.foldl (next gov regexSet) p).heap.limiters[limiter]?,
      inner'.settings = inner.settings := by
  induction es generalizing p inner with
  | nil => exact ⟨inner, h, rfl⟩
  | cons e es ih =>
    obtain ⟨inner₁, hinner₁, hsettings₁⟩ := settings_next gov regexSet h e
    obtain ⟨inner₂, hinner₂, hsettings₂⟩ := ih hinner₁
    exact ⟨inner₂, hinner₂, hsettings₂.trans hsettings₁⟩

/-- The quota that the limiter at a place has in the end, it has all along. -/
theorem throughout_quotaAt (h : QuotaAt limiter d quota (es.foldl (next gov regexSet) p)) :
    Run.Throughout (next gov regexSet) (QuotaAt limiter d quota) p es := by
  rintro past ⟨rest, rfl⟩ inner hinner
  rw [List.foldl_append] at h
  obtain ⟨inner', hinner', hsettings⟩ := settings_foldl gov regexSet hinner rest
  rw [← hsettings]
  exact h inner' hinner'

/-- A limiter that is added has idle buckets, as they were before it was there. -/
theorem arrivalAt_of_addsLimiter (hgov : gov.IsGcra interval arrival)
    (h : p.heap.AddsLimiter gov regexSet q.heap) :
    arrivalAt arrival limiter bucket q = arrivalAt arrival limiter bucket p := by
  unfold arrivalAt cellAt
  obtain hsame | ⟨cfg, fresh, hfresh, hgrown⟩ := h
  · rw [hsame]
  · rw [hgrown]
    rcases Nat.lt_or_ge limiter p.heap.limiters.length with hlt | hge
    · rw [List.getElem?_append_left hlt]
    · rw [List.getElem?_append_right hge, List.getElem?_eq_none hge]
      cases hcell : ([fresh][limiter - p.heap.limiters.length]?.bind fun inner =>
          inner.cell bucket) with
      | none => rfl
      | some cell =>
        obtain ⟨inner, hinner, hbucket⟩ := Option.bind_eq_some_iff.mp hcell
        obtain rfl := List.mem_singleton.mp (List.mem_of_getElem? hinner)
        rw [(fromConfig_spec hfresh).2 bucket cell hbucket]
        exact hgov.fresh

/-- An event that does not charge a bucket leaves its cell as it is. -/
theorem cellAt_rate (h : charges gov limiter bucket p (.rate place d ctx now) = none) :
    (p.next gov regexSet (.rate place d ctx now)).cellAt limiter bucket =
      p.cellAt limiter bucket := by
  unfold cellAt
  by_cases hplace : place = limiter
  · cases hinner : p.heap.limiters[limiter]? with
    | none =>
      rw [hplace, next, Heap.rate, List.getElem?_modify_eq, hinner]
      rfl
    | some inner =>
      rw [hplace, limiters_rate_self hinner, Option.bind_some, Option.bind_some]
      rw [charges, hinner, Option.bind_some] at h
      cases hcharged : inner.charged gov ctx now d with
      | none => exact Inner.cell_of_not_charged hcharged bucket
      | some other =>
        obtain ⟨-, ⟨_, _, _, -, -, -, -, hothers⟩, -⟩ := Inner.charged_spec hcharged
        refine hothers bucket ?_
        rintro rfl
        rw [if_pos ⟨hplace, hcharged⟩] at h
        cases h
  · rw [limiters_rate_of_ne hplace]

/-- A bucket of a process is a meter: its interval is that of its quota, its tolerance a burst. -/
theorem meters_charges (regexSet : List Str → Except Str RegexSet) (limiter : ℕ)
    (bucket : Bucket) (hgov : gov.IsGcra interval arrival) (hburst : quota.burst ≠ 0) :
    Meters (next gov regexSet) (charges gov limiter bucket)
      (QuotaAt limiter bucket.dimension quota) (arrivalAt arrival limiter bucket)
      (interval quota) (quota.burst.toNat * interval quota) := by
  -- an admission is a test of the cell that succeeds
  have htest : ∀ {p : Process Cell} {e : ProcessEvent} {now : Instant},
      QuotaAt limiter bucket.dimension quota p → charges gov limiter bucket p e = some now →
      ∃ cell cell', gov.test quota now cell = some cell' ∧
        arrivalAt arrival limiter bucket p = arrival cell ∧
        arrivalAt arrival limiter bucket (p.next gov regexSet e) = arrival cell' := by
    intro p e now hquota hcharges
    obtain ⟨inner, ctx, d, rfl, hinner, hcharged⟩ := exists_of_charges hcharges
    obtain ⟨-, ⟨quota', cell, cell', hquota', hcell, htest, hcell', -⟩, -⟩ :=
      Inner.charged_spec hcharged
    obtain rfl := Option.some.inj ((hquota inner hinner).symm.trans hquota')
    refine ⟨cell, cell', htest, ?_, ?_⟩
    · rw [arrivalAt, cellAt, hinner, Option.bind_some, hcell]
      rfl
    · rw [arrivalAt, cellAt, limiters_rate_self hinner, Option.bind_some, hcell']
      rfl
  constructor
  case within =>
    intro p e now hquota hcharges
    obtain ⟨cell, cell', htest, hbefore, -⟩ := htest hquota hcharges
    rw [hbefore]
    exact hgov.within hburst htest
  case advances =>
    intro p e now hquota hcharges
    obtain ⟨cell, cell', htest, hbefore, hafter⟩ := htest hquota hcharges
    rw [hbefore, hafter]
    exact hgov.advances htest
  case idle =>
    intro p e now hquota hcharges hle
    obtain ⟨cell, cell', htest, hbefore, hafter⟩ := htest hquota hcharges
    rw [hbefore] at hle
    rw [hafter]
    exact hgov.idle htest hle
  case busy =>
    intro p e now hquota hcharges hlt
    obtain ⟨cell, cell', htest, hbefore, hafter⟩ := htest hquota hcharges
    rw [hbefore] at hlt ⊢
    rw [hafter]
    exact hgov.busy htest hlt
  case keeps =>
    intro p e _ hcharges
    cases e with
    | attempt a => exact arrivalAt_of_addsLimiter hgov (addsLimiter_reload gov regexSet p a)
    | rate place d ctx now => rw [arrivalAt, arrivalAt, cellAt_rate hcharges]
    | hop circuit use => rfl

/-! ## Admissions -/

variable {startup : Config} {p₀ : Process Cell} {past : List ProcessEvent}
  {tls : Except Str Unit}

/-- An event that keeps the section of the rate limiter keeps the limiter. -/
theorem rateLimiter_next (h : p.Inv gov regexSet startup)
    (hsame : (p.next gov regexSet e).live.config.rateLimit = p.live.config.rateLimit) :
    (p.next gov regexSet e).live.rateLimiter = p.live.rateLimiter := by
  cases e with
  | attempt a =>
    cases hok : (p.reload gov regexSet a).1 with
    | ok u => exact ((carriedOver_reload h hok).limiter hsame.symm).1
    | error err =>
      obtain ⟨_, heq⟩ | ⟨_, _, _, -, -, -, heq⟩ := reload_spec gov regexSet p a
      · rw [next, heq]
      · rw [heq] at hok
        cases hok
  | rate => rfl
  | hop => rfl

/-- Along a run that keeps the section of the rate limiter, one limiter is live. -/
theorem throughout_rateLimiter (h : p.Inv gov regexSet startup)
    (hsame : Run.Throughout (next gov regexSet)
      (fun s => s.live.config.rateLimit = p.live.config.rateLimit) p es) :
    Run.Throughout (next gov regexSet) (fun s => s.live.rateLimiter = p.live.rateLimiter) p es := by
  have hlive : Run.Throughout (next gov regexSet)
      (fun s => s.Inv gov regexSet startup ∧ s.live.rateLimiter = p.live.rateLimiter) p es := by
    refine hsame.induct ⟨h, rfl⟩ ?_
    rintro s e - ⟨hinv, hlive⟩ hbefore hafter
    exact ⟨inv_step hinv rfl, (rateLimiter_next hinv (hafter.trans hbefore.symm)).trans hlive⟩
  exact fun past hpast => (hlive past hpast).2

/-- Let a run start in any state that a process reaches, and let its reloads keep the section of
the rate limiter. Then one limiter is live all along, and the requests that any of its buckets
admits in any window of time stay within the declared rate and burst, and one more: however the
requests interleave and wherever the reloads fall. -/
theorem admissions_of_run (hgov : gov.IsGcra interval arrival)
    (hstart : start gov regexSet tls startup = .ok p₀)
    (hpast : Run (Step gov regexSet) p₀ past p)
    (hsame : Run.Throughout (next gov regexSet)
      (fun s => s.live.config.rateLimit = p.live.config.rateLimit) p es)
    (henabled : p.live.config.rateLimit.enabled = true)
    (hquota : declaredQuota (bucketConfig p.live.config.rateLimit bucket.dimension) = some quota)
    (since width : ℕ) :
    Run.Throughout (next gov regexSet) (fun s => s.live.rateLimiter = p.live.rateLimiter) p es ∧
      inWindow since width
          (admissions (next gov regexSet) (charges gov p.live.rateLimiter bucket) p es) *
        interval quota ≤ width + (quota.burst.toNat + 1) * interval quota := by
  have hinv : p.Inv gov regexSet startup := inv_of_run hstart hpast
  refine ⟨throughout_rateLimiter hinv hsame, ?_⟩
  obtain ⟨inner, fresh, hinner, hfresh, hsettings⟩ := hinv.coherent.rateLimiter
  -- the limiter has the declared quota in the end
  have hend : QuotaAt p.live.rateLimiter bucket.dimension quota
      (es.foldl (next gov regexSet) p) := by
    intro inner' hinner'
    obtain ⟨inner'', hinner'', hsettings'⟩ := settings_foldl gov regexSet hinner es
    obtain rfl := Option.some.inj (hinner'.symm.trans hinner'')
    rw [hsettings', hsettings, (fromConfig_spec hfresh).1, if_pos henabled, hquota]
  have hmeters :=
    meters_charges regexSet p.live.rateLimiter bucket hgov (burst_of_declaredQuota hquota)
  have hle := hmeters.inWindow_admissions_mul_le (throughout_quotaAt hend) since width
  rwa [Nat.add_assoc, ← Nat.succ_mul] at hle

/-! ### A client with one request per second -/

/-- The default configuration with one request per second for each origin and each client. -/
def tightConfig : Config :=
  { Config.default "0.2.0" with rateLimit := onePerSecond }

/-- The process that starts from it. -/
def tightProcess : Process (Option Instant) :=
  (start gcra noPattern (.ok ()) tightConfig).toOption.get (by decide +kernel)

/-- That configuration is reloaded with reflection opened to every origin. -/
def openTight : Attempt where
  source := .ok { tightConfig with cors := { CorsConfig.default with allowAnyOrigin := true } }
  isFile := fun _ => false
  tls := .ok ()

/-- The client comes twice, and in between the configuration is reloaded. -/
def twoRequests : List ProcessEvent :=
  [.rate 0 .ip victimRequest 0, .attempt openTight, .rate 0 .ip victimRequest 1]

/-- The second request does not come through in the first second. -/
theorem admissions_of_run_tight :
    Run.Throughout (next gcra noPattern)
      (fun s => s.live.rateLimiter = tightProcess.live.rateLimiter) tightProcess twoRequests ∧
      inWindow 0 2
          (admissions (next gcra noPattern)
            (charges gcra tightProcess.live.rateLimiter (.ip victimRequest.clientIp))
            tightProcess twoRequests) *
        gcraInterval (Quota.mk 1 1) ≤
          2 + ((Quota.mk 1 1).burst.toNat + 1) * gcraInterval (Quota.mk 1 1) := by
  have hsame : ∀ past ∈ twoRequests.inits,
      (past.foldl (next gcra noPattern) tightProcess).live.config.rateLimit =
        tightProcess.live.config.rateLimit := by
    decide +kernel
  exact admissions_of_run isGcra_gcra (eq_ok_get_toOption (by decide +kernel)) (.nil tightProcess)
    (fun past hpast => hsame past ((List.mem_inits _ _).mpr hpast)) (by decide +kernel)
    (by decide +kernel) 0 2

end Process

end Corx
