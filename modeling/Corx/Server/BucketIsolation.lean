import Corx.Base.Unwinding
import Corx.Server.RateWindows

/-!
# Isolation of buckets

What the traffic of others can do to the rate limit of a client. Requests check the dimensions of
the limiters in any interleaving, reloads happen in between, and breakers are used. The check of a
dimension is one atomic step: it is not taken apart into its operations on the registry of keys.

A bucket that has admitted a request is registered, and remains so (`Inner.Registered`). From then
on the verdict of each check on it is a function of its own cell and of the settings of its limiter
(`Inner.checkDimension_registered`), which nobody else moves. So the owner of the bucket sees the
verdicts that it would see alone: no traffic of others, no reload and no state of a breaker costs
it a request or wins it one (`Process.isolated_of_run`).

Before the first admission this fails, by design: a registry that others have filled turns a new
key away. It also needs the checks to be atomic: of two calls for one key at a full registry, one
can be admitted with the key of the other, which then undoes it (`Corx.Server.KeyRegistry`).
-/

namespace Corx

namespace RateLimiter

/-! ## Registered buckets -/

namespace Inner

variable {Cell : Type} {gov : Governor Cell} {now : Instant} {ctx : RateContext}
  {inner a b : Inner Cell} {d : Dimension} {bucket : Bucket}

/-- A registered bucket is never turned away by a full registry. -/
theorem Registered.not_unregistrable (h : inner.Registered bucket) :
    ¬ inner.Unregistrable bucket := by
  cases bucket with
  | global => exact id
  | _ =>
    rintro ⟨dim, hdim, hnew, -⟩
    exact hnew (h dim hdim)

/-- A check keeps registered what is registered. -/
theorem Registered.checkDimension (h : inner.Registered bucket) (gov : Governor Cell)
    (ctx : RateContext) (now : Instant) (d : Dimension) :
    (inner.checkDimension gov ctx now d).2.Registered bucket := by
  obtain ⟨-, hskip⟩ | ⟨-, _, -, hjudges⟩ := checkDimension_judges gov inner ctx now d
  · rw [hskip]
    exact h
  · exact hjudges.registered bucket h

/-! ## The verdict on a registered bucket -/

/-- Whether a dimension applies to a request, by the settings of a limiter. -/
def Settings.applies (settings : Settings) (ctx : RateContext) : Dimension → Bool
  | .origin =>
    match settings.origin, ctx.origin with
    | some (_, unlimited), some origin => !unlimited origin
    | _, _ => false
  | .ip =>
    match settings.ip with
    | some (_, trusted) => !isTrusted trusted ctx.clientIp
    | none => false
  | .targetHost => settings.host.isSome && ctx.targetHost.isSome
  | .global => settings.global.isSome

/-- Whether a dimension applies does not depend on the buckets. -/
theorem applies_settings (inner : Inner Cell) (ctx : RateContext) (d : Dimension) :
    inner.settings.applies ctx d = inner.applies ctx d := by
  cases d with
  | origin =>
    cases horigin : inner.origin <;> cases hctx : ctx.origin <;>
      simp [Settings.applies, settings, applies, horigin, hctx]
  | ip => cases hip : inner.ip <;> simp [Settings.applies, settings, applies, hip]
  | targetHost => simp [Settings.applies, settings, applies]
  | global => simp [Settings.applies, settings, applies]

/-- What the check of a dimension shows the owner of a bucket and makes of its cell, by the
settings of the limiter and the cell alone. -/
def judge (gov : Governor Cell) (settings : Settings) (cell : Option Cell) (ctx : RateContext)
    (now : Instant) (d : Dimension) : Except Rejection Unit × Option Cell :=
  if settings.applies ctx d then
    match settings.quota d, cell with
    | some quota, some cell =>
      match gov.test quota now cell with
      | some cell' => (.ok (), some cell')
      | none => (reject d, some cell)
    | _, _ => (.ok (), cell)
  else (.ok (), cell)

/-- The check of a registered bucket is its judgement. -/
theorem checkDimension_registered (gov : Governor Cell) (now : Instant)
    (hregistered : inner.Registered bucket) (hbucket : bucketOf ctx d = some bucket) :
    ((inner.checkDimension gov ctx now d).1, (inner.checkDimension gov ctx now d).2.cell bucket) =
      judge gov inner.settings (inner.cell bucket) ctx now d := by
  unfold judge
  rw [applies_settings]
  obtain ⟨hexempt, hskip⟩ | ⟨happlies, bucket', hbucket', -, houtcome⟩ :=
    checkDimension_judges gov inner ctx now d
  · rw [hexempt, hskip, if_neg Bool.false_ne_true]
  · obtain rfl := Option.some.inj (hbucket.symm.trans hbucket')
    rw [if_pos happlies]
    obtain ⟨hok, ⟨quota, cell, cell', hquota, hcell, htest, hafter, -⟩, -⟩ |
      ⟨hreject, hcells, hfull | ⟨quota, cell, hquota, hcell, htest⟩⟩ := houtcome
    · rw [dimension_of_bucketOf hbucket] at hquota
      rw [hok, hafter, hquota, hcell]
      dsimp only
      rw [htest]
    · exact absurd hfull hregistered.not_unregistrable
    · rw [dimension_of_bucketOf hbucket] at hquota
      rw [hreject, hcells, hquota, hcell]
      dsimp only
      rw [htest]

/-- Limiters that are the same to the owner of a bucket: the same settings and the same cell, and
the bucket is registered in both. -/
structure SameFor (bucket : Bucket) (a b : Inner Cell) : Prop where
  settings : b.settings = a.settings
  cell : b.cell bucket = a.cell bucket
  left : a.Registered bucket
  right : b.Registered bucket

/-- A check of the owner shows it the same verdict of both, and leaves the same cell in both. -/
theorem SameFor.check (h : SameFor bucket a b) (hbucket : bucketOf ctx d = some bucket) :
    (b.checkDimension gov ctx now d).1 = (a.checkDimension gov ctx now d).1 ∧
      (b.checkDimension gov ctx now d).2.cell bucket =
        (a.checkDimension gov ctx now d).2.cell bucket := by
  have ha := checkDimension_registered gov now h.left hbucket
  have hb := checkDimension_registered gov now h.right hbucket
  -- the judgement reads nothing but the settings and the cell
  rw [h.settings, h.cell, ← ha] at hb
  exact Prod.mk.inj hb

/-- A check of the owner keeps them the same. -/
theorem SameFor.own (h : SameFor bucket a b) (hbucket : bucketOf ctx d = some bucket) :
    SameFor bucket (a.checkDimension gov ctx now d).2 (b.checkDimension gov ctx now d).2 where
  settings := by
    rw [settings_checkDimension, settings_checkDimension, h.settings]
  cell := (h.check hbucket).2
  left := h.left.checkDimension gov ctx now d
  right := h.right.checkDimension gov ctx now d

/-- A check of somebody else on one of them does, too. -/
theorem SameFor.other (h : SameFor bucket a b) (hbucket : bucketOf ctx d ≠ some bucket) :
    SameFor bucket (a.checkDimension gov ctx now d).2 b where
  settings := by rw [settings_checkDimension, h.settings]
  cell := by
    rw [h.cell]
    -- a check changes the cell of the bucket that it charges, and no other one
    cases hcharged : a.charged gov ctx now d with
    | none => exact (cell_of_not_charged hcharged bucket).symm
    | some other =>
      obtain ⟨hother, ⟨_, _, _, -, -, -, -, hothers⟩, -⟩ := charged_spec hcharged
      refine (hothers bucket ?_).symm
      rintro rfl
      exact hbucket hother
  left := h.left.checkDimension gov ctx now d
  right := h.right

end Inner

end RateLimiter

/-! ## The owner of a bucket in a process -/

namespace Process

open RateLimiter ArrivalMeter

variable {Cell : Type} (gov : Governor Cell) (regexSet : List Str → Except Str RegexSet)

/-- The event is a check of a request of the bucket against the limiter at a place. -/
def concerns (limiter : ℕ) (bucket : Bucket) : ProcessEvent → Bool
  | .rate place d ctx _ => decide (place = limiter ∧ bucketOf ctx d = some bucket)
  | .attempt _ | .hop .. => false

/-- The verdict of the check that an event is. -/
def verdict (p : Process Cell) : ProcessEvent → Option (Except Rejection Unit)
  | .rate place d ctx now =>
    p.heap.limiters[place]?.map fun inner => (inner.checkDimension gov ctx now d).1
  | .attempt _ | .hop .. => none

/-- The limiter at a place has the bucket registered. -/
def RegisteredAt (limiter : ℕ) (bucket : Bucket) (p : Process Cell) : Prop :=
  ∃ inner, p.heap.limiters[limiter]? = some inner ∧ inner.Registered bucket

/-- The processes are the same to the owner of a bucket of the limiter at a place. -/
def SameForOwner (limiter : ℕ) (bucket : Bucket) (p q : Process Cell) : Prop :=
  ∃ a b, p.heap.limiters[limiter]? = some a ∧ q.heap.limiters[limiter]? = some b ∧
    Inner.SameFor bucket a b

variable {gov regexSet} {p q : Process Cell} {e : ProcessEvent} {past es fs : List ProcessEvent}
  {limiter : ℕ} {bucket : Bucket} {now : Instant}

/-- A check that concerns a bucket is one of its requests. -/
theorem exists_of_concerns (h : concerns limiter bucket e = true) :
    ∃ d ctx now, e = .rate limiter d ctx now ∧ bucketOf ctx d = some bucket := by
  cases e with
  | rate place d ctx now =>
    obtain ⟨rfl, hbucket⟩ := of_decide_eq_true h
    exact ⟨d, ctx, now, rfl, hbucket⟩
  | _ => cases h

/-- A process in which the bucket is registered is the same as itself. -/
theorem RegisteredAt.sameForOwner (h : p.RegisteredAt limiter bucket) :
    SameForOwner limiter bucket p p :=
  let ⟨inner, hinner, hregistered⟩ := h
  ⟨inner, inner, hinner, hinner, rfl, rfl, hregistered, hregistered⟩

/-- What is registered at a place remains so. -/
theorem RegisteredAt.next (h : p.RegisteredAt limiter bucket)
    (gov : Governor Cell) (regexSet : List Str → Except Str RegexSet) (e : ProcessEvent) :
    (p.next gov regexSet e).RegisteredAt limiter bucket := by
  obtain ⟨inner, hinner, hregistered⟩ := h
  cases e with
  | attempt a => exact ⟨inner, limiters_attempt hinner a, hregistered⟩
  | rate place d ctx now =>
    by_cases hplace : place = limiter
    · subst hplace
      exact ⟨_, limiters_rate_self hinner, hregistered.checkDimension gov ctx now d⟩
    · exact ⟨inner, (limiters_rate_of_ne hplace).trans hinner, hregistered⟩
  | hop circuit use => exact ⟨inner, hinner, hregistered⟩

/-- A bucket that has admitted a request is registered. -/
theorem registeredAt_of_charges (h : charges gov limiter bucket p e = some now) :
    (p.next gov regexSet e).RegisteredAt limiter bucket := by
  obtain ⟨inner, ctx, d, rfl, hinner, hcharged⟩ := exists_of_charges h
  exact ⟨_, limiters_rate_self hinner, (Inner.charged_spec hcharged).2.2⟩

/-- A bucket that has admitted a request in the past is registered. -/
theorem registeredAt_of_admissions
    (h : admissions (next gov regexSet) (charges gov limiter bucket) p past ≠ []) :
    (past.foldl (next gov regexSet) p).RegisteredAt limiter bucket := by
  have hkept : ∀ (es : List ProcessEvent) (p : Process Cell), p.RegisteredAt limiter bucket →
      (es.foldl (next gov regexSet) p).RegisteredAt limiter bucket := by
    intro es p hp
    have hrun : Run (Step gov regexSet) p es _ := run_iff_foldl.mpr rfl
    refine hrun.invariant (fun s e t hs hstep => ?_) hp
    rw [hstep]
    exact hs.next gov regexSet e
  -- the first event that charges the bucket registers it, and nothing after that undoes it
  induction past generalizing p with
  | nil => exact absurd rfl h
  | cons e past ih =>
    rw [admissions] at h
    rw [List.foldl_cons]
    cases hcharges : charges gov limiter bucket p e with
    | some now => exact hkept past _ (registeredAt_of_charges hcharges)
    | none =>
      rw [hcharges, Option.toList_none, List.nil_append] at h
      exact ih h

/-- The owner of a bucket cannot tell apart processes that are the same to it, and no event of
others changes that. -/
theorem unwinding_sameForOwner (gov : Governor Cell)
    (regexSet : List Str → Except Str RegexSet) (limiter : ℕ) (bucket : Bucket) :
    Unwinding (next gov regexSet) (concerns limiter bucket) (verdict gov)
      (SameForOwner limiter bucket) := by
  constructor
  case output =>
    rintro p q e ⟨a, b, ha, hb, hsame⟩ hown
    obtain ⟨d, ctx, now, rfl, hbucket⟩ := exists_of_concerns hown
    rw [verdict, verdict, ha, hb, Option.map_some, Option.map_some, (hsame.check hbucket).1]
  case own_step =>
    rintro p q e ⟨a, b, ha, hb, hsame⟩ hown
    obtain ⟨d, ctx, now, rfl, hbucket⟩ := exists_of_concerns hown
    exact ⟨_, _, limiters_rate_self ha, limiters_rate_self hb, hsame.own hbucket⟩
  case other_step =>
    rintro p q e ⟨a, b, ha, hb, hsame⟩ hother
    cases e with
    -- a reload appends a limiter at most, so the one at this place stays
    | attempt attempt => exact ⟨a, b, limiters_attempt ha attempt, hb, hsame⟩
    | rate place d ctx now =>
      by_cases hplace : place = limiter
      · subst hplace
        refine ⟨_, b, limiters_rate_self ha, hb, hsame.other ?_⟩
        exact fun hbucket => of_decide_eq_false hother ⟨rfl, hbucket⟩
      · exact ⟨a, b, (limiters_rate_of_ne hplace).trans ha, hb, hsame⟩
    | hop circuit use => exact ⟨a, b, ha, hb, hsame⟩

/-- Let a bucket have admitted a request, and every check of a dimension be one atomic step. Then
the owner of the bucket gets the same verdicts in any two futures in which it makes the same checks:
however many requests of others come in between, and wherever the reloads and the uses of breakers
fall. -/
theorem isolated_of_run
    (hadmitted : admissions (next gov regexSet) (charges gov limiter bucket) p past ≠ [])
    (hsame : es.filter (concerns limiter bucket) = fs.filter (concerns limiter bucket)) :
    seenBy (next gov regexSet) (concerns limiter bucket) (verdict gov)
        (past.foldl (next gov regexSet) p) es =
      seenBy (next gov regexSet) (concerns limiter bucket) (verdict gov)
        (past.foldl (next gov regexSet) p) fs := by
  have hself := (registeredAt_of_admissions hadmitted).sameForOwner
  exact (unwinding_sameForOwner gov regexSet limiter bucket).seenBy_congr hself hself hsame

/-- The request of a client of another origin. -/
def otherRequest : RateContext :=
  RateLimiter.fromOrigin "https://other.test"

/-- An origin with one request per second comes twice, alone and among others. -/
theorem isolated_of_run_tight :
    seenBy (next gcra noPattern) (concerns 0 (.origin "https://victim.test")) (verdict gcra)
        ([.rate 0 .origin victimRequest 0].foldl (next gcra noPattern) tightProcess)
        [.rate 0 .origin victimRequest 1] =
      seenBy (next gcra noPattern) (concerns 0 (.origin "https://victim.test")) (verdict gcra)
        ([.rate 0 .origin victimRequest 0].foldl (next gcra noPattern) tightProcess)
        [.rate 0 .origin otherRequest 1, .attempt openTight, .rate 0 .origin victimRequest 1] :=
  isolated_of_run (by decide +kernel) (by rfl)

end Process

end Corx
