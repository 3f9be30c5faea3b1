import Corx.Proxy.BlockList

/-!
# Resolution agrees with the address check

`SsrfGuard::resolve` has two paths. A literal goes through `check_ip`; the answers of a lookup
go through a loop that repeats the steps of `check_ip` inline, with its own accumulators. Read
as a whole, the loop collects what `check_ip` returns and remembers the last violation
(`sift_eq`), so that `resolveAt_spec` can say what a lookup yields in terms of `check_ip` and of
the configured networks alone.
-/

namespace Corx

/-- A socket address. -/
structure SocketAddr where
  ip : IpAddr
  port : UInt16
  deriving DecidableEq, Repr

/-- Every built-in blocked network parses. -/
theorem isSome_parse_of_mem_default {raw : Str} (h : raw ∈ DEFAULT_BLOCKED_CIDRS) :
    ∃ net, IpNet.parse raw = some net := by
  have hall : DEFAULT_BLOCKED_CIDRS.all (fun raw => (IpNet.parse raw).isSome) = true := by
    decide +kernel
  exact Option.isSome_iff_exists.mp (List.all_eq_true.mp hall raw h)

/-- The address is of a family in use and is turned down by a network: one that the mode looks
at contains its canonical form, and no allowed one does. -/
def SsrfConfig.RejectedByCidr (cfg : SsrfConfig) (raw : IpAddr) : Prop :=
  ¬ (cfg.allowIpv6 = false ∧ (SsrfGuard.canonicalise raw).isIpv6 = true) ∧
    ¬ cfg.ExtraAllows raw ∧ cfg.ListedForMode raw

namespace SsrfGuard

variable {guard : SsrfGuard} {cfg : SsrfConfig}

/-- `SsrfGuard::resolve` with the port that it pairs every address with. -/
def resolveAt (guard : SsrfGuard) (lookupIp : Str → Except Str (List IpAddr)) (host : Str)
    (port : UInt16) : Except ProxyError (List SocketAddr) :=
  match guard.resolve lookupIp host with
  | .ok addrs => .ok (addrs.map fun ip => ⟨ip, port⟩)
  | .error err => .error err

/-- The canonical addresses among the answers for which the check is positive. -/
def admissible (guard : SsrfGuard) (answers : List IpAddr) : List IpAddr :=
  (answers.map canonicalise).filter fun ip => (guard.checkIp ip).isOk

/-! ## The loop over the answers -/

/-- The violation that the loop remembers of one answer, if any. -/
def violation (guard : SsrfGuard) (raw : IpAddr) : Option ProxyError :=
  if !guard.allowIpv6 && (canonicalise raw).isIpv6 then none
  else match guard.evaluate (canonicalise raw) with
    | .ok () => none
    | .error err => some err

/-- One turn of the loop collects what the check returns, and replaces the violation if the
answer has one. -/
theorem siftStep_eq (acc : List IpAddr × Option ProxyError) (raw : IpAddr) :
    guard.siftStep acc raw =
      (acc.1 ++ (guard.checkIp raw).toOption.toList, (guard.violation raw).or acc.2) := by
  unfold siftStep checkIp violation
  dsimp only
  by_cases hfamily : (!guard.allowIpv6 && (canonicalise raw).isIpv6) = true
  · simp [hfamily, Except.toOption]
  · rw [if_neg hfamily, if_neg hfamily, if_neg hfamily]
    cases guard.evaluate (canonicalise raw) with
    | ok _ => simp [Except.toOption]
    | error err => simp [Except.toOption]

/-- One more answer adds what the check returns of it. -/
theorem admissible_append_singleton (answers : List IpAddr) (raw : IpAddr) :
    guard.admissible (answers ++ [raw]) =
      guard.admissible answers ++ (guard.checkIp raw).toOption.toList := by
  unfold admissible
  rw [List.map_append, List.filter_append, List.map_singleton]
  congr 1
  cases h : guard.checkIp raw with
  | ok ip =>
    obtain rfl := eq_canonicalise_of_checkIp h
    simp [checkIp_canonicalise, h, Except.isOk, Except.toBool, Except.toOption]
  | error err => simp [checkIp_canonicalise, h, Except.isOk, Except.toBool, Except.toOption]

/-- The loop collects, in answer order, the admissible addresses, and ends with the last
violation. -/
theorem sift_eq (answers : List IpAddr) :
    guard.sift answers =
      (guard.admissible answers, (answers.filterMap guard.violation).getLast?) := by
  induction answers using List.reverseRecOn with
  | nil => rfl
  | append_singleton answers raw ih =>
    unfold sift at ih ⊢
    rw [List.foldl_append, List.foldl_cons, List.foldl_nil, ih, siftStep_eq,
      List.filterMap_append, List.getLast?_append, admissible_append_singleton]
    cases h : guard.violation raw <;> simp [h]

/-- The only error of an evaluation is that the address is blocked. -/
theorem eq_ssrfBlocked_of_evaluate {ip : IpAddr} {err : ProxyError}
    (h : guard.evaluate ip = .error err) : err = .ssrfBlocked ip := by
  unfold evaluate at h
  split at h
  · cases h
  · split at h
    · split at h
      · exact (Except.error.inj h).symm
      · cases h
    · split at h
      · cases h
      · split at h
        · exact (Except.error.inj h).symm
        · cases h

/-- An address is evaluated positively if an allowed network contains it. -/
theorem evaluate_of_extraAllows {raw : IpAddr} (h : cfg.ExtraAllows raw) :
    (SsrfGuard.new cfg).evaluate (canonicalise raw) = .ok () := by
  have hallowed : ((SsrfGuard.new cfg).allowed.any fun net =>
      net.contains (canonicalise raw)) = true :=
    List.any_eq_true.mpr h
  unfold evaluate
  rw [if_pos hallowed]

/-- The violation of an answer says that its canonical form is blocked, and it has one exactly
if a network turns it down. -/
theorem violation_new_eq_some_iff {raw : IpAddr} {err : ProxyError} :
    (SsrfGuard.new cfg).violation raw = some err ↔
      cfg.RejectedByCidr raw ∧ err = .ssrfBlocked (canonicalise raw) := by
  have hipv6 : (SsrfGuard.new cfg).allowIpv6 = cfg.allowIpv6 := rfl
  unfold violation SsrfConfig.RejectedByCidr
  rw [hipv6]
  by_cases hfamily : cfg.allowIpv6 = false ∧ (canonicalise raw).isIpv6 = true
  · simp [hfamily]
  rw [if_neg (by simpa using hfamily), and_iff_right hfamily]
  by_cases hallowed : cfg.ExtraAllows raw
  · simp [evaluate_of_extraAllows hallowed, hallowed]
  have hcheck := checkIp_new_eq_error_iff hallowed
  unfold checkIp at hcheck
  dsimp only at hcheck
  rw [hipv6, if_neg (by simpa using hfamily)] at hcheck
  rw [← hcheck, and_iff_right hallowed]
  cases h : (SsrfGuard.new cfg).evaluate (canonicalise raw) with
  | ok _ => simp
  | error err' => simp [eq_ssrfBlocked_of_evaluate h, eq_comm]

/-! ## What a resolution returns -/

/-- A literal resolves to its check. -/
theorem resolveAt_literal (lookupIp : Str → Except Str (List IpAddr)) {host : Str}
    (port : UInt16) {ip : IpAddr} (h : IpAddr.parse host = some ip) :
    guard.resolveAt lookupIp host port =
      (guard.checkIp ip).map fun canonical => [⟨canonical, port⟩] := by
  unfold resolveAt resolve
  rw [h]
  cases hcheck : guard.checkIp ip <;> simp [hcheck, Except.map]

/-- A name resolves to the admissible addresses, or to the last violation. -/
theorem resolveAt_name {lookupIp : Str → Except Str (List IpAddr)} {host : Str}
    (port : UInt16) {answers : List IpAddr} (hname : IpAddr.parse host = none)
    (hlookup : lookupIp host = .ok answers) :
    guard.resolveAt lookupIp host port =
      if guard.admissible answers = [] then
        .error ((answers.filterMap guard.violation).getLast?.getD
          (.dns host "no usable address returned by resolver"))
      else .ok ((guard.admissible answers).map fun ip => ⟨ip, port⟩) := by
  unfold resolveAt resolve
  rw [hname, hlookup]
  dsimp only
  rw [sift_eq]
  by_cases hnone : guard.admissible answers = [] <;> simp [hnone]

/-- The last violation is the block of an answer that a network turns down; without such an
answer there is none. -/
theorem getLast?_violation (cfg : SsrfConfig) (answers : List IpAddr) :
    (∃ raw ∈ answers, cfg.RejectedByCidr raw ∧
        (answers.filterMap (SsrfGuard.new cfg).violation).getLast? =
          some (.ssrfBlocked (canonicalise raw))) ∨
      (∀ raw ∈ answers, ¬ cfg.RejectedByCidr raw) ∧
        (answers.filterMap (SsrfGuard.new cfg).violation).getLast? = none := by
  cases hlast : (answers.filterMap (SsrfGuard.new cfg).violation).getLast? with
  | none =>
    refine .inr ⟨fun raw hraw hrejected => ?_, rfl⟩
    have hnil := List.getLast?_eq_none_iff.mp hlast
    have hviolation := violation_new_eq_some_iff.mpr ⟨hrejected, rfl⟩
    rw [List.filterMap_eq_nil_iff.mp hnil raw hraw] at hviolation
    cases hviolation
  | some err =>
    obtain ⟨raw, hraw, hviolation⟩ := List.mem_filterMap.mp (List.mem_of_getLast? hlast)
    obtain ⟨hrejected, rfl⟩ := violation_new_eq_some_iff.mp hviolation
    exact .inl ⟨raw, hraw, hrejected, rfl⟩

/-- The check of an address and of its mapped form is the same. -/
theorem checkIp_toIpv6Mapped (a : BitVec 32) :
    guard.checkIp (IpAddr.toIpv6Mapped a) = guard.checkIp (.v4 a) := by
  have hcanonical : canonicalise (IpAddr.toIpv6Mapped a) = canonicalise (.v4 a) :=
    IpAddr.toCanonical_toIpv6Mapped a
  unfold checkIp
  rw [hcanonical]

/-- What passes the check in strict mode is in an allowed network or outside every blocked
one. -/
theorem allowed_or_outside_of_checkIp {ip : IpAddr} (hmode : cfg.mode = .strict)
    (h : (SsrfGuard.new cfg).checkIp ip = .ok ip) :
    (∃ net ∈ cfg.extraAllowedCidrs, net.contains ip = true) ∨
      (∀ raw ∈ DEFAULT_BLOCKED_CIDRS,
        ∃ net, IpNet.parse raw = some net ∧ net.contains ip = false) ∧
      ∀ net ∈ cfg.extraBlockedCidrs, net.contains ip = false := by
  have hcanonical : canonicalise ip = ip := (eq_canonicalise_of_checkIp h).symm
  rw [or_iff_not_imp_left]
  intro hallowed
  have hlisted : ¬ cfg.ListedForMode ip := by
    rw [← checkIp_new_eq_error_iff (by rwa [SsrfConfig.ExtraAllows, hcanonical])]
    simp [h]
  unfold SsrfConfig.ListedForMode at hlisted
  rw [hmode, hcanonical] at hlisted
  have hoff : ∀ net ∈ compileCidrList DEFAULT_BLOCKED_CIDRS cfg.extraBlockedCidrs,
      net.contains ip = false := by
    intro net hnet
    by_contra hcontains
    exact hlisted (.inr ⟨net, hnet, by simpa using hcontains⟩)
  refine ⟨fun raw hraw => ?_, fun net hnet => hoff net (List.mem_append_right _ hnet)⟩
  obtain ⟨net, hnet⟩ := isSome_parse_of_mem_default hraw
  exact ⟨net, hnet, hoff net (List.mem_append_left _ (List.mem_filterMap.mpr ⟨raw, hraw, hnet⟩))⟩

/-- The two paths of a resolution agree with the check. A literal resolves to its check. A name
resolves to its admissible answers, in answer order; if there are none, to the block of an
answer that a network turns down; if there are none of these either, to a DNS error. The check
takes an IPv4 address and its mapped form for the same. In strict mode whatever is returned is in
an allowed network or outside every built-in and extra blocked one. -/
theorem resolveAt_spec (cfg : SsrfConfig) (lookupIp : Str → Except Str (List IpAddr))
    (host : Str) (port : UInt16) :
    (∀ ip, IpAddr.parse host = some ip →
      (SsrfGuard.new cfg).resolveAt lookupIp host port =
        ((SsrfGuard.new cfg).checkIp ip).map fun canonical => [⟨canonical, port⟩]) ∧
    (∀ answers, IpAddr.parse host = none → lookupIp host = .ok answers →
      ((SsrfGuard.new cfg).admissible answers ≠ [] →
        (SsrfGuard.new cfg).resolveAt lookupIp host port =
          .ok (((SsrfGuard.new cfg).admissible answers).map fun ip => ⟨ip, port⟩)) ∧
      ((SsrfGuard.new cfg).admissible answers = [] → (∃ raw ∈ answers, cfg.RejectedByCidr raw) →
        ∃ raw ∈ answers, cfg.RejectedByCidr raw ∧
          (SsrfGuard.new cfg).resolveAt lookupIp host port =
            .error (.ssrfBlocked (canonicalise raw))) ∧
      ((SsrfGuard.new cfg).admissible answers = [] → (∀ raw ∈ answers, ¬ cfg.RejectedByCidr raw) →
        (SsrfGuard.new cfg).resolveAt lookupIp host port =
          .error (.dns host "no usable address returned by resolver"))) ∧
    (∀ a, (SsrfGuard.new cfg).checkIp (IpAddr.toIpv6Mapped a) =
      (SsrfGuard.new cfg).checkIp (.v4 a)) ∧
    (cfg.mode = .strict → ∀ addrs, (SsrfGuard.new cfg).resolveAt lookupIp host port = .ok addrs →
      ∀ addr ∈ addrs, (∃ net ∈ cfg.extraAllowedCidrs, net.contains addr.ip = true) ∨
        (∀ raw ∈ DEFAULT_BLOCKED_CIDRS,
          ∃ net, IpNet.parse raw = some net ∧ net.contains addr.ip = false) ∧
        ∀ net ∈ cfg.extraBlockedCidrs, net.contains addr.ip = false) := by
  refine ⟨fun ip h => resolveAt_literal lookupIp port h, fun answers hname hlookup => ?_,
    checkIp_toIpv6Mapped, fun hmode addrs hresolve addr haddr => ?_⟩
  · rw [resolveAt_name port hname hlookup]
    refine ⟨fun hsome => if_neg hsome, fun hnone hrejected => ?_, fun hnone hpassed => ?_⟩
    · rw [if_pos hnone]
      -- the loop remembers the last violation only
      rcases getLast?_violation cfg answers with ⟨raw, hraw, hraw', hlast⟩ | ⟨hpassed, -⟩
      · exact ⟨raw, hraw, hraw', by rw [hlast, Option.getD_some]⟩
      · obtain ⟨raw, hraw, hraw'⟩ := hrejected
        exact absurd hraw' (hpassed raw hraw)
    · rw [if_pos hnone]
      rcases getLast?_violation cfg answers with ⟨raw, hraw, hraw', -⟩ | ⟨-, hlast⟩
      · exact absurd hraw' (hpassed raw hraw)
      · rw [hlast, Option.getD_none]
  · unfold resolveAt at hresolve
    split at hresolve
    next ips hips =>
      obtain rfl := Except.ok.inj hresolve
      obtain ⟨ip, hip, rfl⟩ := List.mem_map.mp haddr
      exact allowed_or_outside_of_checkIp hmode (checkIp_of_mem_resolve hips hip)
    next => cases hresolve

/-- A private and a mapped public answer under the default configuration. -/
theorem resolveAt_spec_mixed :
    (SsrfGuard.new SsrfConfig.default).resolveAt
        (fun _ => .ok [.v4 0x0A000001, IpAddr.toIpv6Mapped 0x08080808, .v4 0x08080808])
        "dns.test" 443 =
      .ok [⟨.v4 0x08080808, 443⟩, ⟨.v4 0x08080808, 443⟩] := by
  have hadmissible : (SsrfGuard.new SsrfConfig.default).admissible
      [.v4 0x0A000001, IpAddr.toIpv6Mapped 0x08080808, .v4 0x08080808] =
        [.v4 0x08080808, .v4 0x08080808] := by
    decide +kernel
  have hresolve := ((resolveAt_spec SsrfConfig.default
    (fun _ => .ok [.v4 0x0A000001, IpAddr.toIpv6Mapped 0x08080808, .v4 0x08080808])
    "dns.test" 443).2.1 _ (by decide +kernel) rfl).1 (by rw [hadmissible]; simp)
  rw [hadmissible] at hresolve
  exact hresolve

end SsrfGuard

end Corx
