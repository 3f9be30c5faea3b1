import Corx.Server.Buckets

/-!
# Limits as they are compiled

What a limiter starts with (`RateLimiter.fromConfig_spec`): the quotas that its section of the
configuration declares, no keys, and buckets that were never used.
-/

namespace Corx

namespace RateLimiter

section Compiled

variable {Cell : Type} {gov : Governor Cell}
  {regexSet : List Str → Except Str RegexSet} {cfg : RateLimitConfig} {inner : Inner Cell}

/-- The quota that a bucket is declared with, where it has a rate. -/
def declaredQuota (cfg : BucketConfig) : Option Quota :=
  if cfg.rps = 0 then none else some { rps := cfg.rps, burst := max cfg.burst cfg.rps }

/-- The numbers of a dimension. -/
def bucketConfig (cfg : RateLimitConfig) : Dimension → BucketConfig
  | .origin => cfg.origin.toBucketConfig
  | .ip => cfg.ip.toBucketConfig
  | .targetHost => cfg.targetHost
  | .global => cfg.global

/-- A declared quota allows for a burst. -/
theorem burst_of_declaredQuota {cfg : BucketConfig} {q : Quota} (h : declaredQuota cfg = some q) :
    q.burst ≠ 0 := by
  unfold declaredQuota at h
  split at h
  next => cases h
  next hrps =>
    have hquota := quota_of_ne_zero cfg.burst hrps
    rw [Option.some.inj h] at hquota
    unfold quota at hquota
    split at hquota
    next => cases hquota
    next =>
      split at hquota
      next => cases hquota
      next hburst => exact Except.ok.inj hquota ▸ hburst

/-- What is compiled for one dimension: its quota is the declared one, and its buckets are
fresh. -/
def BuiltAs (gov : Governor Cell) {D K : Type} (built : Option D) (quotaOf : D → Quota)
    (cellOf : D → K → Cell) (cfg : BucketConfig) : Prop :=
  built.map quotaOf = declaredQuota cfg ∧ ∀ dim ∈ built, ∀ key, cellOf dim key = gov.fresh

/-- The dimension of origins starts with fresh buckets. -/
theorem buildOrigin_spec {cfg : OriginLimitConfig} {built : Option (OriginDimension Cell)}
    (h : buildOrigin gov regexSet cfg = .ok built) :
    BuiltAs gov built (fun dim => dim.limiter.quota) (fun dim => dim.limiter.state)
      cfg.toBucketConfig := by
  unfold buildOrigin at h
  unfold BuiltAs declaredQuota
  split at h
  next hrps =>
    rw [if_pos hrps]
    exact Except.ok.inj h ▸ ⟨rfl, fun dim hdim => absurd hdim (Option.not_mem_none dim)⟩
  next hrps =>
    rw [quota_of_ne_zero cfg.burst hrps] at h
    dsimp only at h
    split at h
    next => cases h
    next =>
      rw [if_neg hrps, ← Except.ok.inj h]
      exact ⟨rfl, fun dim hdim key => Option.some.inj hdim ▸ rfl⟩

/-- The dimension of client addresses starts with fresh buckets. -/
theorem buildIp_spec {cfg : IpLimitConfig} {built : Option (IpDimension Cell)}
    (h : buildIp gov cfg = .ok built) :
    BuiltAs gov built (fun dim => dim.limiter.quota) (fun dim => dim.limiter.state)
      cfg.toBucketConfig := by
  unfold BuiltAs declaredQuota
  by_cases hrps : cfg.rps = 0
  · rw [buildIp, if_pos hrps] at h
    rw [if_pos hrps]
    exact Except.ok.inj h ▸ ⟨rfl, fun dim hdim => absurd hdim (Option.not_mem_none dim)⟩
  · rw [buildIp_of_ne_zero gov hrps] at h
    rw [if_neg hrps, ← Except.ok.inj h]
    exact ⟨rfl, fun dim hdim key => Option.some.inj hdim ▸ rfl⟩

/-- The dimension of target hosts starts with fresh buckets. -/
theorem buildHost_spec {cfg : BucketConfig} {built : Option (HostDimension Cell)}
    (h : buildHost gov cfg = .ok built) :
    BuiltAs gov built (fun dim => dim.limiter.quota) (fun dim => dim.limiter.state) cfg := by
  unfold buildHost at h
  unfold BuiltAs declaredQuota
  split at h
  next hrps =>
    rw [if_pos hrps]
    exact Except.ok.inj h ▸ ⟨rfl, fun dim hdim => absurd hdim (Option.not_mem_none dim)⟩
  next hrps =>
    rw [quota_of_ne_zero cfg.burst hrps] at h
    rw [if_neg hrps, ← Except.ok.inj h]
    exact ⟨rfl, fun dim hdim key => Option.some.inj hdim ▸ rfl⟩

/-- The process-wide dimension starts with a fresh bucket. -/
theorem buildGlobal_spec {cfg : BucketConfig} {built : Option (DirectLimiter Cell)}
    (h : buildGlobal gov cfg = .ok built) :
    BuiltAs gov built (fun limiter => limiter.quota)
      (fun limiter (_ : Unit) => limiter.state) cfg := by
  unfold buildGlobal at h
  unfold BuiltAs declaredQuota
  split at h
  next hrps =>
    rw [if_pos hrps]
    exact Except.ok.inj h ▸ ⟨rfl, fun dim hdim => absurd hdim (Option.not_mem_none dim)⟩
  next hrps =>
    rw [quota_of_ne_zero cfg.burst hrps] at h
    rw [if_neg hrps, ← Except.ok.inj h]
    exact ⟨rfl, fun dim hdim key => Option.some.inj hdim ▸ rfl⟩

/-- A limiter is compiled with the declared quotas, and with fresh buckets. -/
theorem fromConfig_spec (h : fromConfig gov regexSet cfg = .ok inner) :
    (∀ d, inner.settings.quota d =
      if cfg.enabled then declaredQuota (bucketConfig cfg d) else none) ∧
      ∀ bucket, ∀ cell ∈ inner.cell bucket, cell = gov.fresh := by
  unfold fromConfig at h
  cases henabled : cfg.enabled with
  | false =>
    rw [henabled] at h
    rw [← Except.ok.inj h]
    refine ⟨fun d => ?_, fun bucket cell hcell => ?_⟩
    · cases d <;> rfl
    · cases bucket <;> cases hcell
  | true =>
    rw [henabled] at h
    cases horigin : buildOrigin gov regexSet cfg.origin with
    | error err =>
      rw [horigin] at h
      cases h
    | ok origin =>
      -- only the patterns of origins can fail to compile
      obtain ⟨ip, hip⟩ := exists_buildIp gov cfg.ip
      obtain ⟨host, hhost⟩ := exists_buildHost gov cfg.targetHost
      obtain ⟨global, hglobal⟩ := exists_buildGlobal gov cfg.global
      rw [horigin, hip, hhost, hglobal] at h
      rw [← Except.ok.inj h]
      obtain ⟨horigin, hfreshOrigin⟩ := buildOrigin_spec horigin
      obtain ⟨hip, hfreshIp⟩ := buildIp_spec hip
      obtain ⟨hhost, hfreshHost⟩ := buildHost_spec hhost
      obtain ⟨hglobal, hfreshGlobal⟩ := buildGlobal_spec hglobal
      refine ⟨fun d => ?_, fun bucket cell hcell => ?_⟩
      · cases d with
        | origin =>
          simpa [Inner.settings, Inner.Settings.quota, bucketConfig, Function.comp_def]
            using horigin
        | ip =>
          simpa [Inner.settings, Inner.Settings.quota, bucketConfig, Function.comp_def] using hip
        | targetHost => exact hhost
        | global => exact hglobal
      · cases bucket with
        | origin key =>
          obtain ⟨dim, hdim, rfl⟩ := Option.map_eq_some_iff.mp hcell
          exact hfreshOrigin dim hdim key
        | ip key =>
          obtain ⟨dim, hdim, rfl⟩ := Option.map_eq_some_iff.mp hcell
          exact hfreshIp dim hdim key
        | targetHost key =>
          obtain ⟨dim, hdim, rfl⟩ := Option.map_eq_some_iff.mp hcell
          exact hfreshHost dim hdim key
        | global =>
          obtain ⟨limiter, hlimiter, rfl⟩ := Option.map_eq_some_iff.mp hcell
          exact hfreshGlobal limiter hlimiter ()

end Compiled

end RateLimiter

end Corx
