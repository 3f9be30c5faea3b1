import Mathlib.Logic.Relator
import Corx.Server.RateBudgets

/-!
# Two forms of one client

A dual-stack listener reports an IPv4 client by its IPv4-mapped IPv6 address. The rate limiter
takes the address as it is reported: `trusted_cidrs` is matched against it, and it is the key of
the client's bucket. Two runs of one limiter are compared here, over the same calls with some of
the clients reported in their mapped form.

Two keyed dimensions correspond along a relation of their keys (`Keyed.Corresponds`): related
keys are both registered or both not, and their buckets are in the same state. A check of related
keys keeps that and has one verdict (`admitAndCheck_corresponds`), as long as the relation is
one-to-one. So the two runs agree where the exemptions do and the reported addresses tell the
clients apart as their own addresses do (`SameClients`, `verdictsOver_reported`).
-/

namespace Corx

namespace RateLimiter

variable {Cell K : Type} {gov : Governor Cell}

/-! ## Keyed dimensions along a relation of their keys -/

section Corresponds

variable [DecidableEq K] {R : K → K → Prop} {dim dim' : Keyed Cell K} {a b : K}
  {keys keys' : Finset K}

/-- Registries of one size, of which the one holds a key where the other holds a related one. -/
structure SameKeys (R : K → K → Prop) (keys keys' : Finset K) : Prop where
  card_eq : keys.card = keys'.card
  mem_iff : ∀ a b, R a b → (a ∈ keys ↔ b ∈ keys')

/-- Dimensions of one quota whose registries correspond, and whose buckets of related keys are
in one state. -/
structure Keyed.Corresponds (R : K → K → Prop) (dim dim' : Keyed Cell K) : Prop where
  quota_eq : dim.limiter.quota = dim'.limiter.quota
  keys : SameKeys R dim.keys dim'.keys
  state_eq : ∀ a b, R a b → dim.limiter.state a = dim'.limiter.state b

/-- Registering related keys keeps the correspondence of the registries. -/
theorem SameKeys.insert (hR : Relator.BiUnique R) (h : SameKeys R keys keys') (hab : R a b) :
    SameKeys R (insert a keys) (insert b keys') where
  card_eq := by
    by_cases hmem : a ∈ keys
    · rw [Finset.insert_eq_of_mem hmem, Finset.insert_eq_of_mem ((h.mem_iff a b hab).mp hmem)]
      exact h.card_eq
    · have hmem' : b ∉ keys' := mt (h.mem_iff a b hab).mpr hmem
      rw [Finset.card_insert_of_notMem hmem, Finset.card_insert_of_notMem hmem', h.card_eq]
  mem_iff a' b' hab' := by
    have hsame : a' = a ↔ b' = b := Relator.rel_eq hR hab' hab
    rw [Finset.mem_insert, Finset.mem_insert, h.mem_iff a' b' hab', hsame]

/-- Related keys are admitted to corresponding registries alike. -/
theorem admitKey_sameKeys (maxKeys : ℕ) (dimension : Dimension) (hR : Relator.BiUnique R)
    (h : SameKeys R keys keys') (hab : R a b) :
    (admitKey keys a maxKeys dimension).1 = (admitKey keys' b maxKeys dimension).1 ∧
      SameKeys R (admitKey keys a maxKeys dimension).2 (admitKey keys' b maxKeys dimension).2 := by
  have hinsert := h.insert hR hab
  unfold admitKey
  by_cases hmem : a ∈ keys
  · simp only [if_pos hmem, if_pos ((h.mem_iff a b hab).mp hmem)]
    exact ⟨trivial, h⟩
  · have hmem' : b ∉ keys' := mt (h.mem_iff a b hab).mpr hmem
    simp only [if_neg hmem, if_neg hmem', ← h.card_eq, ← hinsert.card_eq,
      Finset.erase_insert hmem, Finset.erase_insert hmem']
    split
    · exact ⟨rfl, h⟩
    · split
      · exact ⟨rfl, h⟩
      · exact ⟨rfl, hinsert⟩

/-- Related keys are charged to corresponding dimensions alike. -/
theorem admitAndCheck_corresponds (gov : Governor Cell) (maxKeys : ℕ) (dimension : Dimension)
    (now : Instant) (hR : Relator.BiUnique R) (h : dim.Corresponds R dim') (hab : R a b) :
    (admitAndCheck gov dim a maxKeys dimension now).1 =
        (admitAndCheck gov dim' b maxKeys dimension now).1 ∧
      (admitAndCheck gov dim a maxKeys dimension now).2.Corresponds R
        (admitAndCheck gov dim' b maxKeys dimension now).2 := by
  obtain ⟨hverdict, hkeys⟩ := admitKey_sameKeys maxKeys dimension hR h.keys hab
  unfold admitAndCheck
  rcases hkey : admitKey dim.keys a maxKeys dimension with ⟨verdict, keys⟩
  rcases hkey' : admitKey dim'.keys b maxKeys dimension with ⟨verdict', keys'⟩
  rw [hkey, hkey'] at hverdict hkeys
  obtain rfl : verdict = verdict' := hverdict
  cases verdict with
  | error rejection => exact ⟨rfl, h.quota_eq, hkeys, h.state_eq⟩
  | ok u =>
    -- both buckets are tested in one state
    simp only [KeyedLimiter.checkKey, h.quota_eq, h.state_eq a b hab]
    cases gov.test dim'.limiter.quota now (dim'.limiter.state b) with
    | none => exact ⟨rfl, h.quota_eq, hkeys, h.state_eq⟩
    | some cell =>
      refine ⟨rfl, rfl, hkeys, fun a' b' hab' => ?_⟩
      have hsame : a' = a ↔ b' = b := Relator.rel_eq hR hab' hab
      simp only [Function.update_apply, hsame, h.state_eq a' b' hab']

end Corresponds

/-! ## Limiters whose clients are reported differently -/

/-- Requests that differ in the client's address only: it is exempt in both, or in neither, and
then the two addresses are related. -/
structure SameRequest (R : IpAddr → IpAddr → Prop) (exempt : IpAddr → Bool)
    (ctx ctx' : RateContext) : Prop where
  origin_eq : ctx.origin = ctx'.origin
  targetHost_eq : ctx.targetHost = ctx'.targetHost
  exempt_eq : exempt ctx.clientIp = exempt ctx'.clientIp
  related : exempt ctx.clientIp = false → R ctx.clientIp ctx'.clientIp

namespace Inner

/-- Limiters that differ in the dimension of client addresses only, which correspond. -/
structure Corresponds (R : IpAddr → IpAddr → Prop) (exempt : IpAddr → Bool)
    (inner inner' : Inner Cell) : Prop where
  enabled_eq : inner.enabled = inner'.enabled
  maxKeys_eq : inner.maxKeys = inner'.maxKeys
  origin_eq : inner.origin = inner'.origin
  host_eq : inner.host = inner'.host
  global_eq : inner.global = inner'.global
  ip : Option.Rel (fun dim dim' => isTrusted dim.trusted = exempt ∧ dim'.trusted = dim.trusted ∧
    dim.toKeyed.Corresponds R dim'.toKeyed) inner.ip inner'.ip

variable {R : IpAddr → IpAddr → Prop} {exempt : IpAddr → Bool} {inner inner' : Inner Cell}
  {ctx ctx' : RateContext}

/-- One dimension judges the request alike. -/
theorem checkDimension_corresponds (gov : Governor Cell) (now : Instant) (hR : Relator.BiUnique R)
    (h : inner.Corresponds R exempt inner') (hctx : SameRequest R exempt ctx ctx') (d : Dimension) :
    (inner.checkDimension gov ctx now d).1 = (inner'.checkDimension gov ctx' now d).1 ∧
      (inner.checkDimension gov ctx now d).2.Corresponds R exempt
        (inner'.checkDimension gov ctx' now d).2 := by
  cases d with
  | origin =>
    simp only [checkDimension, ← h.origin_eq, ← hctx.origin_eq, ← h.maxKeys_eq]
    split
    · split
      · exact ⟨rfl, h⟩
      · exact ⟨rfl, { h with origin_eq := rfl, maxKeys_eq := rfl }⟩
    · exact ⟨rfl, h⟩
  | ip =>
    have hip := h.ip
    simp only [checkDimension, ← h.maxKeys_eq]
    cases hdim : inner.ip with
    | none =>
      cases hdim' : inner'.ip with
      | none => exact ⟨rfl, h⟩
      | some dim' =>
        rw [hdim, hdim'] at hip
        cases hip
    | some dim =>
      cases hdim' : inner'.ip with
      | none =>
        rw [hdim, hdim'] at hip
        cases hip
      | some dim' =>
        rw [hdim, hdim'] at hip
        obtain ⟨rfl, htrusted, hkeyed⟩ := Option.rel_some_some.mp hip
        simp only [htrusted, ← hctx.exempt_eq]
        split
        · exact ⟨rfl, h⟩
        next hcharged =>
          -- the bucket is found under the address that is reported
          have hrelated := hctx.related (eq_false_of_ne_true hcharged)
          obtain ⟨hverdict, hnext⟩ :=
            admitAndCheck_corresponds gov inner.maxKeys .ip now hR hkeyed hrelated
          exact ⟨hverdict, { h with
            maxKeys_eq := rfl
            ip := Option.Rel.some ⟨rfl, rfl, hnext⟩ }⟩
  | targetHost =>
    simp only [checkDimension, ← h.host_eq, ← hctx.targetHost_eq, ← h.maxKeys_eq]
    split
    · exact ⟨rfl, { h with host_eq := rfl, maxKeys_eq := rfl }⟩
    · exact ⟨rfl, h⟩
  | global =>
    simp only [checkDimension, ← h.global_eq]
    split
    · exact ⟨rfl, { h with global_eq := rfl }⟩
    · exact ⟨rfl, h⟩

/-- A run through dimensions judges the request alike. -/
theorem checkEach_corresponds (gov : Governor Cell) (now : Instant) (hR : Relator.BiUnique R)
    (h : inner.Corresponds R exempt inner') (hctx : SameRequest R exempt ctx ctx')
    (ds : List Dimension) :
    (inner.checkEach gov ctx now ds).1 = (inner'.checkEach gov ctx' now ds).1 ∧
      (inner.checkEach gov ctx now ds).2.Corresponds R exempt
        (inner'.checkEach gov ctx' now ds).2 := by
  induction ds generalizing inner inner' with
  | nil => exact ⟨rfl, h⟩
  | cons d ds ih =>
    obtain ⟨hverdict, hnext⟩ := checkDimension_corresponds gov now hR h hctx d
    unfold checkEach
    rcases hstep : inner.checkDimension gov ctx now d with ⟨verdict, next⟩
    rcases hstep' : inner'.checkDimension gov ctx' now d with ⟨verdict', next'⟩
    rw [hstep, hstep'] at hverdict hnext
    obtain rfl : verdict = verdict' := hverdict
    cases verdict with
    | error rejection => exact ⟨rfl, hnext⟩
    | ok u => exact ih hnext

/-- A check judges the request alike. -/
theorem check_corresponds (gov : Governor Cell) (now : Instant) (hR : Relator.BiUnique R)
    (h : inner.Corresponds R exempt inner') (hctx : SameRequest R exempt ctx ctx') :
    (inner.check gov ctx now).1 = (inner'.check gov ctx' now).1 ∧
      (inner.check gov ctx now).2.Corresponds R exempt (inner'.check gov ctx' now).2 := by
  simp only [check, ← h.enabled_eq]
  split
  · exact ⟨rfl, h⟩
  · exact checkEach_corresponds gov now hR h hctx order

/-- The verdicts on calls of a limiter, one after the other. -/
def verdictsOver (gov : Governor Cell) :
    Inner Cell → List (RateContext × Instant) → List (Except ProxyError Unit)
  | _, [] => []
  | inner, (ctx, now) :: calls =>
    inner.verdicts gov now ctx :: verdictsOver gov (inner.check gov ctx now).2 calls

/-- Calls one after the other are judged alike. -/
theorem verdictsOver_corresponds (hR : Relator.BiUnique R)
    (h : inner.Corresponds R exempt inner') {calls calls' : List (RateContext × Instant)}
    (hcalls : List.Forall₂ (fun c c' => SameRequest R exempt c.1 c'.1 ∧ c.2 = c'.2)
      calls calls') :
    inner.verdictsOver gov calls = inner'.verdictsOver gov calls' := by
  induction hcalls generalizing inner inner' with
  | nil => rfl
  | @cons c c' calls calls' hcall _ ih =>
    obtain ⟨ctx, now⟩ := c
    obtain ⟨ctx', now'⟩ := c'
    obtain ⟨hctx, rfl⟩ := hcall
    obtain ⟨hverdict, hnext⟩ := check_corresponds gov now hR h hctx
    rw [verdictsOver, verdictsOver, verdicts, verdicts, hverdict, ih hnext]

end Inner

/-! ## Calls with mapped clients -/

/-- No budget is charged for the address: the limiter or its dimension of client addresses is
off, or the address is in a trusted network. -/
def exempts (cfg : RateLimitConfig) (ip : IpAddr) : Bool :=
  !cfg.enabled || cfg.ip.rps = 0 || isTrusted cfg.ip.trustedCidrs ip

/-- The dimension of client addresses at the start: none where every address is exempt, and else
without any key or used bucket. -/
theorem ip_of_fromConfig {regexSet : List Str → Except Str RegexSet} {cfg : RateLimitConfig}
    {start : Inner Cell} (h : fromConfig gov regexSet cfg = .ok start) :
    start.ip = none ∨ ∃ q, isTrusted cfg.ip.trustedCidrs = exempts cfg ∧
      start.ip = some { Keyed.new gov q with trusted := cfg.ip.trustedCidrs } := by
  unfold fromConfig at h
  cases henabled : cfg.enabled with
  | false =>
    rw [henabled] at h
    obtain rfl := Except.ok.inj h
    exact .inl rfl
  | true =>
    rw [henabled] at h
    cases horigin : buildOrigin gov regexSet cfg.origin with
    | error err => simp [horigin] at h
    | ok origin =>
      obtain ⟨host, hhost⟩ := exists_buildHost gov cfg.targetHost
      obtain ⟨global, hglobal⟩ := exists_buildGlobal gov cfg.global
      by_cases hrps : cfg.ip.rps = 0
      · have hip : buildIp gov cfg.ip = .ok none := if_pos hrps
        simp only [horigin, hip, hhost, hglobal] at h
        obtain rfl := Except.ok.inj h
        exact .inl rfl
      · have hexempts : isTrusted cfg.ip.trustedCidrs = exempts cfg := by
          funext ip
          simp [exempts, henabled, hrps]
        simp only [horigin, buildIp_of_ne_zero gov hrps, hhost, hglobal] at h
        obtain rfl := Except.ok.inj h
        exact .inr ⟨_, hexempts, rfl⟩

/-- A limiter at its start corresponds to itself along any relation. -/
theorem corresponds_of_fromConfig {regexSet : List Str → Except Str RegexSet}
    {cfg : RateLimitConfig} {start : Inner Cell} (R : IpAddr → IpAddr → Prop)
    (h : fromConfig gov regexSet cfg = .ok start) :
    start.Corresponds R (exempts cfg) start where
  enabled_eq := rfl
  maxKeys_eq := rfl
  origin_eq := rfl
  host_eq := rfl
  global_eq := rfl
  ip := by
    rcases ip_of_fromConfig h with hip | ⟨q, hexempts, hip⟩
    · rw [hip]
      exact .none
    · rw [hip]
      -- every bucket is fresh, and no key is registered
      have hkeys : SameKeys R (∅ : Finset IpAddr) ∅ := ⟨rfl, fun _ _ _ => by simp⟩
      exact .some ⟨hexempts, rfl, rfl, hkeys, fun _ _ _ => rfl⟩

/-- A call of the limiter; where `mapped` is set, the listener reports an IPv4 client by its
IPv4-mapped IPv6 address. -/
structure ClientCall where
  ctx : RateContext
  now : Instant
  mapped : Bool
  deriving DecidableEq, Repr

namespace ClientCall

/-- The call with the client's own address. -/
def own (call : ClientCall) : RateContext × Instant :=
  (call.ctx, call.now)

/-- The address as it is reported. -/
def reportedIp (call : ClientCall) : IpAddr :=
  match call.mapped, call.ctx.clientIp with
  | true, .v4 a => .toIpv6Mapped a
  | _, ip => ip

/-- The call as it is reported. -/
def reported (call : ClientCall) : RateContext × Instant :=
  ({ call.ctx with clientIp := call.reportedIp }, call.now)

end ClientCall

/-- A call that is charged to a client has the first address as the client's own, and is
reported with the second. -/
def ReportedAs (cfg : RateLimitConfig) (calls : List ClientCall) (a b : IpAddr) : Prop :=
  ∃ call ∈ calls, exempts cfg a = false ∧ call.ctx.clientIp = a ∧ call.reportedIp = b

/-- The limiter takes the clients for the same: an address is exempt as it is reported if and
only if the client's own is, and calls that are charged come from one client if and only if they
are reported with one address. -/
structure SameClients (cfg : RateLimitConfig) (calls : List ClientCall) : Prop where
  exempt_eq : ∀ call ∈ calls, exempts cfg call.ctx.clientIp = exempts cfg call.reportedIp
  oneToOne : Relator.BiUnique (ReportedAs cfg calls)

/-- The canonical form of the reported address is that of the client's own. -/
theorem ClientCall.toCanonical_reportedIp (call : ClientCall) :
    call.reportedIp.toCanonical = call.ctx.clientIp.toCanonical := by
  unfold reportedIp
  split
  next a _ hip => rw [hip, IpAddr.toCanonical_toIpv6Mapped, IpAddr.toCanonical]
  next => rfl

/-- A single listener takes the clients for the same if it reports every client in the one way,
no client has a mapped address of its own, and the trusted networks cover both forms alike. -/
theorem sameClients_of_uniform {cfg : RateLimitConfig} {calls : List ClientCall} {mapped : Bool}
    (hmapped : ∀ call ∈ calls, call.mapped = mapped)
    (hcanonical : ∀ call ∈ calls, call.ctx.clientIp.toCanonical = call.ctx.clientIp)
    (hexempt : ∀ call ∈ calls, exempts cfg call.ctx.clientIp = exempts cfg call.reportedIp) :
    SameClients cfg calls where
  exempt_eq := hexempt
  oneToOne := by
    constructor
    · rintro a c b ⟨call, hcall, -, rfl, rfl⟩ ⟨call', hcall', -, rfl, hreported⟩
      rw [← hcanonical call hcall, ← call.toCanonical_reportedIp, ← hreported,
        call'.toCanonical_reportedIp, hcanonical call' hcall']
    · rintro a b c ⟨call, hcall, -, rfl, rfl⟩ ⟨call', hcall', -, hip, rfl⟩
      rw [ClientCall.reportedIp, ClientCall.reportedIp, hip, hmapped call hcall,
        hmapped call' hcall']

/-- Where the limiter takes the clients for the same, the calls as they are reported have the
verdicts of the calls with the clients' own addresses. -/
theorem verdictsOver_reported (gov : Governor Cell) (regexSet : List Str → Except Str RegexSet)
    {cfg : RateLimitConfig} {start : Inner Cell} (hstart : fromConfig gov regexSet cfg = .ok start)
    {calls : List ClientCall} (h : SameClients cfg calls) :
    start.verdictsOver gov (calls.map ClientCall.reported) =
      start.verdictsOver gov (calls.map ClientCall.own) := by
  have hcalls : List.Forall₂ (fun c c' =>
      SameRequest (ReportedAs cfg calls) (exempts cfg) c.1 c'.1 ∧ c.2 = c'.2)
      (calls.map ClientCall.own) (calls.map ClientCall.reported) := by
    rw [List.forall₂_map_left_iff, List.forall₂_map_right_iff, List.forall₂_same]
    intro call hcall
    exact ⟨⟨rfl, rfl, h.exempt_eq call hcall, fun hcharged => ⟨call, hcall, hcharged, rfl, rfl⟩⟩,
      rfl⟩
  exact (Inner.verdictsOver_corresponds h.oneToOne (corresponds_of_fromConfig _ hstart)
    hcalls).symm

/-- A request of the client `10.0.0.1`, without an origin. -/
def fromTen : RateContext where
  origin := none
  clientIp := .v4 0x0A000001
  targetHost := none

/-- One request per second for each client, except for `10.0.0.0/8`. -/
def trustedTen : RateLimitConfig :=
  { onePerSecond with
    ip := { onePerSecond.ip with trustedCidrs := [.v4 0x0A000000 ⟨8, by decide⟩] } }

/-- The limiter of that configuration at its start. -/
def trustedTenLimiter : Inner (Option Instant) :=
  { onePerSecondLimiter with
    ip := some { Keyed.new Governor.gcra ⟨1, 1⟩ with trusted := [.v4 0x0A000000 ⟨8, by decide⟩] } }

/-- `verdictsOver_reported` for two requests of one client that are both reported mapped. -/
theorem verdictsOver_reported_mapped :
    onePerSecondLimiter.verdictsOver Governor.gcra
        ([⟨fromTen, 0, true⟩, ⟨fromTen, 0, true⟩].map ClientCall.reported) =
      onePerSecondLimiter.verdictsOver Governor.gcra
        ([⟨fromTen, 0, true⟩, ⟨fromTen, 0, true⟩].map ClientCall.own) :=
  @verdictsOver_reported _ Governor.gcra (fun _ => .ok fun _ => false) onePerSecond _ rfl _
    (@sameClients_of_uniform _ _ true (by decide) (by decide) (by decide))

/-- A client that has spent its budget has another one under its mapped form, and the mapped
form of a trusted client is limited. -/
theorem mapped_client_is_another :
    (fromConfig Governor.gcra (fun _ => .ok fun _ => false) onePerSecond =
        .ok onePerSecondLimiter ∧
      onePerSecondLimiter.verdictsOver Governor.gcra
          ([⟨fromTen, 0, false⟩, ⟨fromTen, 0, true⟩].map ClientCall.own) =
        [.ok (), .error .rateLimited] ∧
      onePerSecondLimiter.verdictsOver Governor.gcra
          ([⟨fromTen, 0, false⟩, ⟨fromTen, 0, true⟩].map ClientCall.reported) =
        [.ok (), .ok ()]) ∧
    fromConfig Governor.gcra (fun _ => .ok fun _ => false) trustedTen = .ok trustedTenLimiter ∧
      trustedTenLimiter.verdictsOver Governor.gcra
          ([⟨fromTen, 0, true⟩, ⟨fromTen, 0, true⟩].map ClientCall.own) = [.ok (), .ok ()] ∧
      trustedTenLimiter.verdictsOver Governor.gcra
          ([⟨fromTen, 0, true⟩, ⟨fromTen, 0, true⟩].map ClientCall.reported) =
        [.ok (), .error .rateLimited] :=
  ⟨⟨rfl, by decide +kernel, by decide +kernel⟩, rfl, by decide +kernel, by decide +kernel⟩

end RateLimiter

end Corx
