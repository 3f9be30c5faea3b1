import Corx.Server.RateWindows

/-!
# Why a request is rejected for its rate

In a run of the process whose checks come in the order of their instants, each of them one step, a
request is not rejected without a reason: the registry of keys is full, or its bucket has admitted
a whole burst (`Process.rejected_of_run`).
-/

namespace Corx

namespace Process

open RateLimiter ArrivalMeter

variable {Cell : Type} {gov : Governor Cell} {regexSet : List Str → Except Str RegexSet}
  {p q : Process Cell} {e : ProcessEvent} {es : List ProcessEvent} {limiter : ℕ}
  {ctx : RateContext} {now : Instant} {d : Dimension} {interval : Quota → ℕ} {arrival : Cell → ℕ}
  {startup : Config} {tls : Except Str Unit}

/-- Every limiter of the process has quotas that allow for a burst. -/
def BurstsOk (p : Process Cell) : Prop :=
  ∀ inner ∈ p.heap.limiters, ∀ d, ∀ quota ∈ inner.settings.quota d, quota.burst ≠ 0

/-- A limiter that is compiled has such quotas. -/
theorem burst_of_fromConfig {cfg : RateLimitConfig} {inner : Inner Cell}
    (h : fromConfig gov regexSet cfg = .ok inner) :
    ∀ d, ∀ quota ∈ inner.settings.quota d, quota.burst ≠ 0 := by
  intro d quota hquota
  rw [(fromConfig_spec h).1] at hquota
  split at hquota
  next => exact burst_of_declaredQuota hquota
  next => cases hquota

/-- A limiter that is added has such quotas. -/
theorem burstsOk_of_addsLimiter (hp : p.BurstsOk) (h : p.heap.AddsLimiter gov regexSet q.heap) :
    q.BurstsOk := by
  intro inner hinner
  obtain hsame | ⟨cfg, fresh, hfresh, hgrown⟩ := h
  · exact hp inner (hsame ▸ hinner)
  · rw [hgrown] at hinner
    rcases List.mem_append.mp hinner with hold | hnew
    · exact hp inner hold
    · rw [List.mem_singleton.mp hnew]
      exact burst_of_fromConfig hfresh

/-- A process starts with such quotas, and with idle buckets. -/
theorem burstsOk_start (hgov : gov.IsGcra interval arrival)
    (h : start gov regexSet tls startup = .ok p) :
    p.BurstsOk ∧ ∀ limiter bucket, arrivalAt arrival limiter bucket p = 0 := by
  unfold start at h
  split at h
  next => cases h
  next live heap hbuild =>
    obtain rfl := Except.ok.inj h
    -- as if it grew from a process without any limiter
    have hadds := Snapshot.addsLimiter_buildFrom hbuild
    refine ⟨burstsOk_of_addsLimiter
      (p := { handle := .ofConfig startup, live, heap := .empty }) ?_ hadds, fun _ _ => ?_⟩
    · exact List.forall_mem_nil _
    · exact arrivalAt_of_addsLimiter
        (p := { handle := .ofConfig startup, live, heap := .empty }) hgov hadds

/-- An event keeps such quotas. -/
theorem burstsOk_step (h : p.BurstsOk) (hstep : Step gov regexSet p e q) : q.BurstsOk := by
  rw [hstep]
  cases e with
  | attempt a => exact burstsOk_of_addsLimiter h (addsLimiter_reload gov regexSet p a)
  | rate place d ctx now =>
    intro inner hinner
    obtain ⟨i, hi⟩ := List.mem_iff_getElem?.mp hinner
    rw [next, Heap.rate, List.getElem?_modify] at hi
    obtain ⟨before, hbefore, rfl⟩ := Option.map_eq_some_iff.mp hi
    have hok := h before (List.mem_of_getElem? hbefore)
    split
    next => rwa [Inner.settings_checkDimension]
    next => exact hok
  | hop circuit use => exact h

/-- In a run of a process whose checks are atomic steps and come in the order of their instants, no
check rejects a request without a reason: the registry of the dimension is full and does not know
the request's key, or the bucket has admitted a whole budget since some instant. -/
theorem rejected_of_run (hgov : gov.IsGcra interval arrival)
    (hstart : start gov regexSet tls startup = .ok p) (hrun : Run (Step gov regexSet) p es q)
    (hordered : (es.filterMap ProcessEvent.checkedAt).Pairwise (· ≤ ·))
    (hnow : ∀ t ∈ es.filterMap ProcessEvent.checkedAt, t ≤ now) {inner : Inner Cell}
    (hinner : q.heap.limiters[limiter]? = some inner)
    (hreject : (inner.checkDimension gov ctx now d).1 = reject d) :
    ∃ bucket, bucketOf ctx d = some bucket ∧
      (inner.Unregistrable bucket ∨ ∃ quota, inner.settings.quota d = some quota ∧
        ∃ since ≤ now, now - since + quota.burst.toNat * interval quota <
          (inWindow since (now - since)
            (admissions (next gov regexSet) (charges gov limiter bucket) p es) + 1) *
            interval quota) := by
  obtain ⟨bucket, hbucket, hfull | ⟨quota, cell, hquota, hcell, htest⟩⟩ :=
    Inner.exists_refuses_of_rejected hreject
  · exact ⟨bucket, hbucket, .inl hfull⟩
  · refine ⟨bucket, hbucket, .inr ⟨quota, dimension_of_bucketOf hbucket ▸ hquota, ?_⟩⟩
    obtain ⟨hbursts, hidle⟩ := burstsOk_start hgov hstart
    have hburst : quota.burst ≠ 0 := by
      have hok := hrun.invariant (fun _ _ _ hs hstep => burstsOk_step hs hstep) hbursts
      exact hok inner (List.mem_of_getElem? hinner) _ quota hquota
    have hq := run_iff_foldl.mp hrun
    subst hq
    have hgood : QuotaAt limiter bucket.dimension quota (es.foldl (next gov regexSet) p) :=
      fun inner' hinner' => Option.some.inj (hinner.symm.trans hinner') ▸ hquota
    have hsub := admissions_sublist (next gov regexSet) (charges gov limiter bucket)
      (fun _ _ _ => checkedAt_of_charges) p es
    refine (meters_charges regexSet limiter bucket hgov hburst).exists_busy
      (throughout_quotaAt hgood) (hidle _ _) (hordered.sublist hsub)
      (fun t ht => hnow t (hsub.subset ht)) ?_
    rw [arrivalAt, cellAt, hinner, Option.bind_some, hcell]
    exact hgov.refuses hburst htest

/-- The limiter of the process with one request per second, after a first request. -/
def tightLimiter : Inner (Option Instant) :=
  (tightProcess.next gcra noPattern (.rate 0 .ip victimRequest 0)).heap.limiters.head
    (by decide +kernel)

/-- The second request of a client at one instant is rejected, and the bucket of the client has
admitted the first one. -/
theorem rejected_of_run_tight :
    ∃ bucket, bucketOf victimRequest .ip = some bucket ∧
      (tightLimiter.Unregistrable bucket ∨
        ∃ quota, tightLimiter.settings.quota .ip = some quota ∧
          ∃ since ≤ 0, 0 - since + quota.burst.toNat * gcraInterval quota <
            (inWindow since (0 - since)
              (admissions (next gcra noPattern) (charges gcra 0 bucket) tightProcess
                [.rate 0 .ip victimRequest 0]) + 1) * gcraInterval quota) :=
  rejected_of_run isGcra_gcra (eq_ok_get_toOption (by decide +kernel)) (.cons rfl (.nil _))
    (by decide) (by decide)
    (List.head?_eq_getElem?.symm.trans (List.head?_eq_some_head _)) (by decide +kernel)

end Process

end Corx
