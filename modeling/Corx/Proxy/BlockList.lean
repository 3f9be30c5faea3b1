import Corx.Proxy.Ssrf

/-!
# The operator's block list

When `ssrf.extra_blocked_cidrs` is honoured. The networks go into the one block list of the
compiled guard, which is looked at in strict mode only, and there with the canonical form of an
address. So permissive mode passes them over (`metadata_address_admitted`), and a network that
holds an address in its mapped form alone never matches. `blockHonoured_iff` is the exact
condition.
-/

namespace Corx

open SsrfGuard

/-- Some extra blocked network contains the address or its canonical form. -/
def SsrfConfig.ExtraBlocks (cfg : SsrfConfig) (a : IpAddr) : Prop :=
  ∃ net ∈ cfg.extraBlockedCidrs, net.contains a = true ∨ net.contains (canonicalise a) = true

/-- Some extra allowed network contains the canonical form of the address. -/
def SsrfConfig.ExtraAllows (cfg : SsrfConfig) (a : IpAddr) : Prop :=
  ∃ net ∈ cfg.extraAllowedCidrs, net.contains (canonicalise a) = true

/-- The guard refuses the address as a literal, and no lookup ever returns it. -/
def BlockHonoured (cfg : SsrfConfig) (a : IpAddr) : Prop :=
  (∃ err, (SsrfGuard.new cfg).checkIp a = .error err) ∧
    ∀ lookupIp host addrs, (SsrfGuard.new cfg).resolve lookupIp host = .ok addrs →
      canonicalise a ∉ addrs

/-- The address is of a family that is switched off, or its canonical form lies in a network
of the list that the mode looks at: the built-in and the extra networks in strict mode, the
private ranges in permissive mode without private addresses. -/
def SsrfConfig.ListedForMode (cfg : SsrfConfig) (a : IpAddr) : Prop :=
  (cfg.allowIpv6 = false ∧ (canonicalise a).isIpv6 = true) ∨
    match cfg.mode with
    | .strict => ∃ net ∈ compileCidrList DEFAULT_BLOCKED_CIDRS cfg.extraBlockedCidrs,
        net.contains (canonicalise a) = true
    | .permissive true => False
    | .permissive false => ∃ net ∈ compileCidrList PRIVATE_RANGES [],
        net.contains (canonicalise a) = true

instance (cfg : SsrfConfig) (a : IpAddr) : Decidable (cfg.ListedForMode a) := by
  unfold SsrfConfig.ListedForMode
  cases cfg.mode with
  | strict => infer_instance
  | permissive allowPrivate => cases allowPrivate <;> infer_instance

/-- An address that no allowed network contains is judged by the list of the mode. -/
theorem evaluate_new_eq_error_iff {cfg : SsrfConfig} {ip : IpAddr}
    (hallow : (cfg.extraAllowedCidrs.any fun net => net.contains ip) = false) :
    (∃ err, (SsrfGuard.new cfg).evaluate ip = .error err) ↔
      match cfg.mode with
      | .strict => ∃ net ∈ compileCidrList DEFAULT_BLOCKED_CIDRS cfg.extraBlockedCidrs,
          net.contains ip = true
      | .permissive true => False
      | .permissive false => ∃ net ∈ compileCidrList PRIVATE_RANGES [],
          net.contains ip = true := by
  have hallowed : (SsrfGuard.new cfg).allowed = cfg.extraAllowedCidrs := rfl
  have hblocked : (SsrfGuard.new cfg).blocked =
    compileCidrList DEFAULT_BLOCKED_CIDRS cfg.extraBlockedCidrs := rfl
  have hprivate : (SsrfGuard.new cfg).privateRanges = compileCidrList PRIVATE_RANGES [] := rfl
  have hmode : (SsrfGuard.new cfg).mode = cfg.mode := rfl
  unfold evaluate
  rw [hallowed, hallow, hblocked, hprivate, hmode, if_neg Bool.false_ne_true]
  -- an error is the verdict of one list: the one that the mode looks at
  have hlist : ∀ nets : List IpNet,
      (∃ err, (if nets.any fun net => net.contains ip then .error (.ssrfBlocked ip)
        else .ok () : Except ProxyError Unit) = .error err) ↔
        ∃ net ∈ nets, net.contains ip = true := by
    intro nets
    rw [← List.any_eq_true]
    by_cases h : (nets.any fun net => net.contains ip) = true <;> simp [h]
  cases cfg.mode with
  | strict => exact hlist _
  | permissive allowPrivate =>
    cases allowPrivate with
    | true => simp
    | false => exact hlist _

/-- An address that no allowed network contains fails the check exactly if it is listed for the
mode. -/
theorem checkIp_new_eq_error_iff {cfg : SsrfConfig} {a : IpAddr}
    (hallowed : ¬ cfg.ExtraAllows a) :
    (∃ err, (SsrfGuard.new cfg).checkIp a = .error err) ↔ cfg.ListedForMode a := by
  have hallow : (cfg.extraAllowedCidrs.any fun net => net.contains (canonicalise a)) = false := by
    rw [Bool.eq_false_iff, ne_eq, List.any_eq_true]
    exact hallowed
  have hipv6 : (SsrfGuard.new cfg).allowIpv6 = cfg.allowIpv6 := rfl
  unfold SsrfConfig.ListedForMode
  rw [← evaluate_new_eq_error_iff hallow]
  unfold checkIp
  dsimp only
  rw [hipv6]
  by_cases hfamily : cfg.allowIpv6 = false ∧ (canonicalise a).isIpv6 = true
  · simp [hfamily]
  · rw [if_neg (by simpa using hfamily), or_iff_right hfamily]
    cases (SsrfGuard.new cfg).evaluate (canonicalise a) with
    | ok _ => simp
    | error err => simp

/-- An address that no allowed network contains is kept out, also where the operator's block
list has it, exactly if it is listed for the mode. -/
theorem blockHonoured_iff {cfg : SsrfConfig} {a : IpAddr} (hallowed : ¬ cfg.ExtraAllows a) :
    BlockHonoured cfg a ↔ cfg.ListedForMode a := by
  rw [← checkIp_new_eq_error_iff hallowed]
  refine ⟨fun h => h.1, fun herror => ⟨herror, ?_⟩⟩
  -- whatever a lookup returns passes the check, in its canonical form
  intro lookupIp host addrs hresolve hmem
  have hok := checkIp_of_mem_resolve hresolve hmem
  rw [checkIp_canonicalise] at hok
  obtain ⟨err, herror⟩ := herror
  rw [hok] at herror
  cases herror

/-- A plain network in strict mode. -/
theorem blockHonoured_iff_strict :
    BlockHonoured { SsrfConfig.default with extraBlockedCidrs := [.v4 0x08080800 24] }
        (.v4 0x08080808) ↔
      SsrfConfig.ListedForMode
        { SsrfConfig.default with extraBlockedCidrs := [.v4 0x08080800 24] } (.v4 0x08080808) :=
  blockHonoured_iff (by simp [SsrfConfig.ExtraAllows, SsrfConfig.default])

/-- Permissive mode with the link-local network on the block list, as the validator's warning
advises. -/
def permissiveWithoutMetadata : SsrfConfig where
  mode := .permissive true
  allowIpv6 := true
  extraBlockedCidrs := [.v4 0xA9FE0000 16]
  extraAllowedCidrs := []

/-- Strict mode with a network of IPv4-mapped addresses on the block list. -/
def strictWithMapped : SsrfConfig where
  mode := .strict
  allowIpv6 := true
  extraBlockedCidrs := [.v6 0xFFFF08080800 120]
  extraAllowedCidrs := []

/-- The metadata address passes permissive mode although it is on the block list, and so does
an IPv4-mapped address in strict mode whose mapped form alone is on it. -/
theorem metadata_address_admitted :
    (permissiveWithoutMetadata.ExtraBlocks (.v4 0xA9FEA9FE) ∧
      ¬ permissiveWithoutMetadata.ExtraAllows (.v4 0xA9FEA9FE) ∧
      ¬ BlockHonoured permissiveWithoutMetadata (.v4 0xA9FEA9FE)) ∧
    (strictWithMapped.ExtraBlocks (.v6 0xFFFF08080808) ∧
      ¬ strictWithMapped.ExtraAllows (.v6 0xFFFF08080808) ∧
      ¬ BlockHonoured strictWithMapped (.v6 0xFFFF08080808)) := by
  refine ⟨⟨⟨.v4 0xA9FE0000 16, by decide, .inl (by decide)⟩, ?_, ?_⟩,
    ⟨.v6 0xFFFF08080800 120, by decide, .inl (by decide)⟩, ?_, ?_⟩
  · rintro ⟨net, hnet, -⟩
    cases hnet
  · rintro ⟨⟨err, herror⟩, -⟩
    have hok : (SsrfGuard.new permissiveWithoutMetadata).checkIp (.v4 0xA9FEA9FE) =
      .ok (.v4 0xA9FEA9FE) := by decide +kernel
    rw [hok] at herror
    cases herror
  · rintro ⟨net, hnet, -⟩
    cases hnet
  · rintro ⟨⟨err, herror⟩, -⟩
    have hok : (SsrfGuard.new strictWithMapped).checkIp (.v6 0xFFFF08080808) =
      .ok (.v4 0x08080808) := by decide +kernel
    rw [hok] at herror
    cases herror

end Corx
