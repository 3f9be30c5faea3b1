import Corx.Policy.Cooldown
import Corx.Policy.Eviction
import Mathlib.Data.Finset.Card

/-!
# Why a host is refused

The breaker forgets: a circuit keeps no list of what happened to its host, and eviction drops
circuits altogether. `Accounted` says what the operations so far must have been for a circuit to
be in the state it is in. Every step keeps it, for all hosts at once.

So no host is refused without a reason, and none for good: a refusal is due to a failure less than
a cool-down ago, or to as many probes as the budget allows for, all admitted since then
(`refused_of_run`). The same invariant bounds the map: beyond its capacity it holds hosts that
have failed and no others (`length_hosts_of_run`).
-/

namespace Corx

open CircuitBreaker
open scoped List

/-! ## Events -/

namespace Event

/-- The host that an operation is about. -/
def host : Event → Str
  | admission host _ => host
  | settle f _ _ => f.host

/-- The hop that an operation settles, if it does. -/
def settled : Event → Option InFlight
  | admission .. => none
  | settle f _ _ => some f

/-- The host that an operation records a failure of, if it does. -/
def failedHost : Event → Option Str
  | admission .. | settle _ .success _ => none
  | settle f .failure _ | settle f .drop _ => some f.host

/-- A failure is recorded of the host that the operation is about. -/
theorem host_eq_of_failedHost {e : Event} {h : Str} (he : e.failedHost = some h) : e.host = h := by
  cases e with
  | admission => cases he
  | settle f how now => cases how <;> first | exact Option.some.inj he | cases he

end Event

/-- The hops that were admitted so far: those in flight, and those that have been settled. -/
def World.hops (es : List Event) (w : World) : List InFlight :=
  w.inFlight ++ es.filterMap Event.settled

/-- The number of hops of `h` that were admitted as probes from `since` on. -/
def probesSince (h : Str) (since : Instant) (fs : List InFlight) : ℕ :=
  fs.countP fun f => f.host = h ∧ f.probe = true ∧ since ≤ f.admittedAt

section Hops

variable {cb : CircuitBreaker} {w w' : World} {es : List Event} {e : Event}

/-- A step admits a hop, or it adds none. -/
theorem Step.hops (hstep : Step cb w e w') (es : List Event) :
    (∃ f, e = .admission f.host f.admittedAt ∧ f.probe = isProbe w.hosts f.host f.admittedAt ∧
      (cb.check w.hosts f.host f.admittedAt).1 = .ok () ∧
      w'.hops (es ++ [e]) = f :: w.hops es) ∨
    (∀ host now, e = .admission host now →
      ∃ err, (cb.check w.hosts host now).1 = .error err) ∧
      (w'.hops (es ++ [e])).Perm (w.hops es) := by
  -- the verdict does not depend on the order of the map
  have hverdict : ∀ (hosts : Hosts) (host : Str) (now : Instant),
      w.hosts.entries.Perm hosts.entries →
        (cb.check w.hosts host now).1 = (cb.check hosts host now).1 := by
    intro hosts host now hperm
    cases hon : cb.enabled with
    | false => rw [check_of_disabled hon, check_of_disabled hon]
    | true => rw [check_fst hon, check_fst hon, entryOf_perm hperm]
  cases hstep with
  | @admitted hosts hosts' f _ hperm hprobe hadmission =>
    refine .inl ⟨f, rfl, ?_, ?_, ?_⟩
    · rw [hprobe, isProbe, isProbe, entryOf_perm hperm]
    · rw [hverdict hosts _ _ hperm]
      exact CircuitHop.admitHop_ok hadmission
    · rw [World.hops, World.hops, List.filterMap_append, List.cons_append]
      exact congrArg _ (congrArg _ (List.append_nil _))
  | @refused hosts hosts' host now err _ hperm hadmission =>
    refine .inr ⟨?_, ?_⟩
    · rintro _ _ ⟨⟩
      exact ⟨err, (hverdict hosts _ _ hperm).trans (CircuitHop.admitHop_error hadmission)⟩
    · rw [World.hops, World.hops, List.filterMap_append]
      exact .of_eq (congrArg _ (List.append_nil _))
  | @settled hosts f how now _ _ hmem =>
    refine .inr ⟨fun _ _ h => (nomatch h), ?_⟩
    -- the hop moves from those in flight to those that are settled
    rw [World.hops, World.hops, List.filterMap_append]
    calc w.inFlight.erase f ++ (es.filterMap Event.settled ++ [f])
      _ = (w.inFlight.erase f ++ es.filterMap Event.settled) ++ [f] :=
        (List.append_assoc ..).symm
      _ ~ f :: (w.inFlight.erase f ++ es.filterMap Event.settled) := List.perm_append_singleton ..
      _ ~ w.inFlight ++ es.filterMap Event.settled :=
        (List.perm_cons_erase hmem).symm.append_right _

/-- A step makes no fewer probes. -/
theorem Step.probesSince_le (hstep : Step cb w e w') (es : List Event) (h : Str)
    (since : Instant) :
    probesSince h since (w.hops es) ≤ probesSince h since (w'.hops (es ++ [e])) := by
  rcases hstep.hops es with ⟨f, -, -, -, hhops⟩ | ⟨-, hperm⟩
  · rw [hhops, probesSince, probesSince, List.countP_cons]
    exact Nat.le_add_right _ _
  · exact (hperm.countP_eq _).ge

/-- Every hop was admitted by an operation. -/
theorem admission_mem_of_run (hrun : Run (Step cb) .init es w) :
    ∀ f ∈ w.hops es, .admission f.host f.admittedAt ∈ es := by
  refine hrun.history_invariant
    (P := fun es w => ∀ f ∈ w.hops es, Event.admission f.host f.admittedAt ∈ es) ?_
    (List.forall_mem_nil _)
  intro es w e w' hw hstep f hf
  rcases hstep.hops es with ⟨f', rfl, -, -, hhops⟩ | ⟨-, hperm⟩
  · rw [hhops] at hf
    rcases List.mem_cons.mp hf with rfl | hf
    · exact List.mem_append_right _ (List.mem_singleton_self _)
    · exact List.mem_append_left _ (hw f hf)
  · exact List.mem_append_left _ (hw f (hperm.mem_iff.mp hf))

end Hops

/-! ## What a state tells about the past -/

/-- The operations `es`, up to `clock`, and the hops `fs` that they admitted account for the state
of the circuit of `h`: one that is open was opened by a failure, and one that is half-open has
admitted its probes since. -/
def Accounted (cb : CircuitBreaker) (h : Str) (clock : Instant) (es : List Event)
    (fs : List InFlight) : CircuitState → Prop
  | .closed => True
  | .opened openUntil =>
    ∃ e ∈ es, e.failedHost = some h ∧ openUntil = e.time + cb.openDuration
  | .halfOpen probes since =>
    since ≤ clock ∧ probes.toNat ≤ probesSince h since fs ∧ ∃ e ∈ es, e.failedHost = some h

variable {cb : CircuitBreaker} {h : Str} {clock now : Instant} {es : List Event} {e : Event}
  {fs fs' : List InFlight} {w w' : World}

/-- A state that is accounted for stays so while other operations follow. -/
theorem Accounted.append {s : CircuitState} (hs : Accounted cb h clock es fs s)
    (hle : clock ≤ now) (e : Event)
    (hmono : ∀ since, probesSince h since fs ≤ probesSince h since fs') :
    Accounted cb h now (es ++ [e]) fs' s := by
  cases s with
  | closed => trivial
  | opened openUntil =>
    obtain ⟨cause, hmem, hcause⟩ := hs
    exact ⟨cause, List.mem_append_left _ hmem, hcause⟩
  | halfOpen probes since =>
    obtain ⟨hsince, hprobes, cause, hmem, hcause⟩ := hs
    exact ⟨hsince.trans hle, hprobes.trans (hmono since), cause, List.mem_append_left _ hmem,
      hcause⟩

/-- What a check makes of a state that is accounted for is accounted for with the hop that it
admits: a probe, unless the circuit is closed. -/
theorem Accounted.check {c : HostCircuit} (hs : Accounted cb h clock es fs c.state)
    (hle : clock ≤ now) (hmono : ∀ since, probesSince h since fs ≤ probesSince h since fs')
    (hadmits : (transitionOnCheck c now cb.halfOpenMax cb.openDuration).1 = true →
      (c.isHalfOpen || c.isExpiredOpen now) = true →
        ∀ since, since ≤ now → probesSince h since fs + 1 ≤ probesSince h since fs') :
    Accounted cb h now (es ++ [.admission h now]) fs'
      (transitionOnCheck c now cb.halfOpenMax cb.openDuration).2.state := by
  have hkeep := hs.append hle (.admission h now) hmono
  unfold transitionOnCheck at hadmits ⊢
  cases hstate : c.state with
  | closed =>
    dsimp only
    rw [hstate]
    trivial
  | opened openUntil =>
    rw [hstate] at hs hkeep
    simp only [hstate, HostCircuit.isHalfOpen, HostCircuit.isExpiredOpen] at hadmits
    dsimp only
    split
    next hover =>
      obtain ⟨cause, hmem, hcause, -⟩ := hs
      rw [if_pos hover] at hadmits
      -- the probe that starts a phase is the first one since
      have hfirst := hadmits rfl (by simp [hover]) now (le_refl now)
      exact ⟨le_refl now, (Nat.le_add_left 1 _).trans hfirst, cause, List.mem_append_left _ hmem,
        hcause⟩
    next => rwa [hstate]
  | halfOpen probes since =>
    rw [hstate] at hs hkeep
    simp only [hstate, HostCircuit.isHalfOpen, Bool.true_or] at hadmits
    obtain ⟨hsince, hprobes, cause, hmem, hcause⟩ := hs
    have hmem' : cause ∈ es ++ [.admission h now] := List.mem_append_left _ hmem
    dsimp only
    split
    next hlt =>
      rw [if_pos hlt] at hadmits
      refine ⟨hsince.trans hle, ?_, cause, hmem', hcause⟩
      rw [toNat_saturatingAdd_one hlt]
      exact (Nat.succ_le_succ hprobes).trans (hadmits rfl trivial since (hsince.trans hle))
    next hspent =>
      rw [if_neg hspent] at hadmits
      split
      next hover =>
        rw [if_pos hover] at hadmits
        have hfirst := hadmits rfl trivial now (le_refl now)
        exact ⟨le_refl now, (Nat.le_add_left 1 _).trans hfirst, cause, hmem', hcause⟩
      next => rwa [hstate]

/-- What a failure makes of a state that is accounted for is accounted for with it. -/
theorem Accounted.recordFailure {c : HostCircuit} (hs : Accounted cb h clock es fs c.state)
    (hle : clock ≤ e.time) (hmono : ∀ since, probesSince h since fs ≤ probesSince h since fs')
    (hfailed : e.failedHost = some h) :
    Accounted cb h e.time (es ++ [e]) fs'
      (recordFailureOn c e.time cb.window cb.failureThreshold cb.openDuration).2.state := by
  unfold recordFailureOn
  dsimp only
  split
  next => exact hs.append hle e hmono
  next => exact ⟨e, List.mem_append_right _ (List.mem_singleton_self e), hfailed, rfl⟩

/-- A step accounts for what its operation makes of a circuit. -/
theorem Accounted.effect (hon : cb.enabled = true) (hstep : Step cb w e w')
    (hs : Accounted cb h w.clock es (w.hops es) (entryOf w.hosts h).state) :
    Accounted cb h e.time (es ++ [e]) (w'.hops (es ++ [e]))
      (e.effect cb h (entryOf w.hosts h)).state := by
  have hle := hstep.clock_le
  have hmono := hstep.probesSince_le es h
  cases e with
  | admission host now =>
    by_cases heq : h = host
    · subst heq
      rw [Event.effect, if_pos rfl]
      refine hs.check hle hmono fun hallowed hprobe since hsince => ?_
      have hverdict : (cb.check w.hosts h now).1 = .ok () :=
        (check_fst hon _ _ _).trans (if_pos hallowed)
      rcases hstep.hops es with ⟨f, hadmission, hf, -, hhops⟩ | ⟨hrefused, -⟩
      · obtain ⟨rfl, rfl⟩ := Event.admission.inj hadmission
        rw [hhops, probesSince, probesSince, List.countP_cons_of_pos]
        exact decide_eq_true ⟨rfl, hf.trans hprobe, hsince⟩
      · obtain ⟨err, herr⟩ := hrefused h now rfl
        rw [hverdict] at herr
        cases herr
    · rw [Event.effect, if_neg heq]
      exact hs.append hle _ hmono
  | settle f how now =>
    by_cases heq : h = f.host
    · rw [Event.effect, if_pos heq]
      cases how with
      | success => trivial
      | failure => exact hs.recordFailure hle hmono (congrArg some heq.symm)
      | drop => exact hs.recordFailure hle hmono (congrArg some heq.symm)
    · rw [Event.effect, if_neg heq]
      exact hs.append hle _ hmono

/-- Whatever eviction leaves is accounted for. -/
theorem Accounted.kept {before after : HostCircuit} (hs : Accounted cb h clock es fs before.state)
    (hkept : KeptOrEvicted now before after) : Accounted cb h clock es fs after.state := by
  rcases hkept with rfl | ⟨rfl, -⟩
  · exact hs
  · trivial

/-- The operations so far account for the circuits of all hosts. -/
def World.Accounted (cb : CircuitBreaker) (es : List Event) (w : World) : Prop :=
  ∀ h, Corx.Accounted cb h w.clock es (w.hops es) (entryOf w.hosts h).state

/-- Every step is accounted for. -/
theorem World.Accounted.step (hon : cb.enabled = true) (hw : w.Accounted cb es)
    (hstep : Step cb w e w') : w'.Accounted cb (es ++ [e]) := by
  intro h
  rw [hstep.clock_eq]
  exact ((hw h).effect hon hstep).kept (hstep.entryOf hon h)

/-- In every state that is reached, the circuits are accounted for. -/
theorem circuits_accounted (hon : cb.enabled = true) (hrun : Run (Step cb) .init es w) :
    w.Accounted cb es :=
  hrun.history_invariant (fun _ _ _ _ hw hstep => hw.step hon hstep) fun _ => trivial

/-! ## Refusals -/

/-- A refusal of `h` at `now` has a reason: a failure of it whose cool-down is not over, or as many
probes of it as the budget allows for, admitted after some failure and since an instant whose
cool-down is not over. -/
def Excused (cb : CircuitBreaker) (h : Str) (now : Instant) (es : List Event)
    (fs : List InFlight) : Prop :=
  (∃ e ∈ es, e.failedHost = some h ∧ now < e.time + cb.openDuration) ∨
    ∃ since, now < since + cb.openDuration ∧
      cb.halfOpenMax.toNat ≤ probesSince h since fs ∧ ∃ e ∈ es, e.failedHost = some h

/-- A host that nothing has happened to for a cool-down is not refused with a reason. -/
theorem not_excused_of_quiet (hfs : ∀ f ∈ fs, .admission f.host f.admittedAt ∈ es)
    (hquiet : ∀ e ∈ es, e.host = h → e.time + cb.openDuration ≤ now) :
    ¬ Excused cb h now es fs := by
  rintro (⟨e, hmem, hfailed, hlt⟩ | ⟨since, hlt, hbudget, -⟩)
  · have hle := hquiet e hmem (Event.host_eq_of_failedHost hfailed)
    exact absurd hlt (Nat.not_lt.mpr hle)
  · -- the budget is at least one, so a probe was admitted since then
    have hpos : 0 < probesSince h since fs := cb.one_le_toNat_halfOpenMax.trans hbudget
    obtain ⟨f, hmem, hprobe⟩ := List.countP_pos_iff.mp hpos
    obtain ⟨hhost, -, hsince⟩ := of_decide_eq_true hprobe
    have hle := hquiet _ (hfs f hmem) hhost
    exact absurd (hlt.trans_le (Nat.add_le_add_right hsince _)) (Nat.not_lt.mpr hle)

/-- A refusal in a state that is reached has a reason. -/
theorem excused_of_refused (hrun : Run (Step cb) .init es w) {h : Str} {now : Instant}
    {err : ProxyError} (herr : (cb.check w.hosts h now).1 = .error err) :
    Excused cb h now es (w.hops es) := by
  cases hon : cb.enabled with
  | false =>
    rw [check_of_disabled hon] at herr
    cases herr
  | true =>
    have haccounted := circuits_accounted hon hrun h
    rw [check_fst hon] at herr
    unfold transitionOnCheck at herr
    cases hstate : (entryOf w.hosts h).state with
    | closed => simp [hstate] at herr
    | opened openUntil =>
      rw [hstate] at haccounted
      obtain ⟨e, hmem, hfailed, rfl⟩ := haccounted
      refine .inl ⟨e, hmem, hfailed, Nat.lt_of_not_le fun hle => ?_⟩
      simp [hstate, hle] at herr
    | halfOpen probes since =>
      rw [hstate] at haccounted
      obtain ⟨-, hprobes, hcause⟩ := haccounted
      have hspent : ¬ probes < cb.halfOpenMax := fun hlt => by simp [hstate, hlt] at herr
      have hyoung : ¬ cb.openDuration ≤ now - since := fun hle => by
        simp [hstate, hspent, hle] at herr
      have hwithin : now < since + cb.openDuration :=
        Nat.lt_of_not_le fun hle => hyoung (Nat.le_sub_of_add_le' hle)
      refine .inr ⟨since, hwithin, ?_, hcause⟩
      exact (UInt32.le_iff_toNat_le.mp (UInt32.not_lt.mp hspent)).trans hprobes

/-- In every state that is reached, whatever concurrent hops have done and whatever was evicted, a
host is refused for a reason only, and a host that nothing has happened to for a cool-down is
admitted. -/
theorem refused_of_run (hrun : Run (Step cb) .init es w) (h : Str) (now : Instant) :
    (∀ err, (cb.check w.hosts h now).1 = .error err → Excused cb h now es (w.hops es)) ∧
      ((∀ e ∈ es, e.host = h → e.time + cb.openDuration ≤ now) →
        (cb.check w.hosts h now).1 = .ok ()) := by
  refine ⟨fun err herr => excused_of_refused hrun herr, fun hquiet => ?_⟩
  cases hverdict : (cb.check w.hosts h now).1 with
  | ok u => rfl
  | error err =>
    exact absurd (excused_of_refused hrun hverdict)
      (not_excused_of_quiet (admission_mem_of_run hrun) hquiet)

/-- Two hops of a host are admitted, and the first of them fails. -/
def tripping : List Event :=
  [.admission "a.test" 0, .admission "a.test" 0, .settle firstHop .failure 1]

/-- The refusal that follows is due to that failure. -/
theorem refused_of_run_tripping :
    Excused (fromConfig hairTrigger) "a.test" 2 tripping
      ((World.exec (fromConfig hairTrigger) .init tripping).hops tripping) :=
  (refused_of_run (World.run_exec (by decide)) "a.test" 2).1 (.circuitOpen "a.test") (by decide)

/-! ## The size of the map -/

/-- A map has as many hosts as entries. -/
theorem length_keys (hosts : Hosts) : hosts.keys.length = hosts.entries.length :=
  List.length_map _

/-- A circuit that is not closed is in the map. -/
theorem mem_of_entryOf_ne_closed {hosts : Hosts} {host : Str}
    (h : (entryOf hosts host).state ≠ .closed) : host ∈ hosts := by
  by_contra hnot
  rw [entryOf, AList.lookup_eq_none.mpr hnot] at h
  exact h rfl

/-- What a map holds beyond the capacity guards its hosts. -/
def ExcessGuards (cb : CircuitBreaker) (now : Instant) (hosts : Hosts) : Prop :=
  cb.maxHosts < hosts.entries.length → ∀ entry ∈ hosts.entries, entry.2.Protecting now

/-- A check leaves the hosts of the map as they are, or has evicted. -/
theorem keys_check (cb : CircuitBreaker) (hosts : Hosts) (host : Str) (now : Instant) :
    (cb.check hosts host now).2.keys.Perm hosts.keys ∨
      ExcessGuards cb now (cb.check hosts host now).2 := by
  unfold CircuitBreaker.check
  split
  next => exact .inl (List.Perm.refl _)
  next =>
    dsimp only
    split
    next => exact .inr protecting_of_mem_evictIfNeeded
    next hrefused =>
      -- only a circuit that is known refuses its host
      have hknown : host ∈ hosts := by
        refine mem_of_entryOf_ne_closed fun hclosed => hrefused ?_
        rw [transitionOnCheck, hclosed]
      exact .inl (AList.keys_insert_perm hknown _)

/-- A failure leaves the hosts of the map as they are, or has evicted. -/
theorem keys_recordFailure (cb : CircuitBreaker) (hosts : Hosts) (host : Str) (now : Instant) :
    (cb.recordFailure hosts host now).2.keys.Perm hosts.keys ∨
      ExcessGuards cb now (cb.recordFailure hosts host now).2 := by
  unfold CircuitBreaker.recordFailure
  split
  next => exact .inl (List.Perm.refl _)
  next => exact .inr protecting_of_mem_evictIfNeeded

/-- A success leaves the hosts of the map as they are. -/
theorem keys_recordSuccess (cb : CircuitBreaker) (hosts : Hosts) (host : Str) :
    (cb.recordSuccess hosts host).keys.Perm hosts.keys := by
  unfold CircuitBreaker.recordSuccess
  split
  next => exact List.Perm.refl _
  next =>
    split
    next entry hentry =>
      have hknown : host ∈ hosts := AList.lookup_isSome.mp (by rw [hentry]; rfl)
      exact AList.keys_insert_perm hknown _
    next => exact List.Perm.refl _

/-- A step leaves the hosts of the map as they are, or has evicted. -/
theorem Step.keys (hstep : Step cb w e w') :
    w'.hosts.keys.Perm w.hosts.keys ∨ ExcessGuards cb e.time w'.hosts := by
  cases hstep with
  | @admitted hosts hosts' f _ hperm _ hadmission =>
    have hkeys := keys_check cb hosts f.host f.admittedAt
    rw [← CircuitHop.admitHop_snd, hadmission] at hkeys
    exact hkeys.imp_left fun hsame => hsame.trans (hperm.symm.map _)
  | @refused hosts hosts' host now _ _ hperm hadmission =>
    have hkeys := keys_check cb hosts host now
    rw [← CircuitHop.admitHop_snd, hadmission] at hkeys
    exact hkeys.imp_left fun hsame => hsame.trans (hperm.symm.map _)
  | @settled hosts f how now _ hperm _ =>
    have hbefore : hosts.keys.Perm w.hosts.keys := hperm.symm.map _
    cases how with
    | success =>
      dsimp only
      rw [Settlement.apply, CircuitHop.success_eq]
      exact .inl ((keys_recordSuccess cb hosts f.host).trans hbefore)
    | failure =>
      dsimp only
      rw [Settlement.apply, CircuitHop.failure_eq]
      exact (keys_recordFailure cb hosts f.host now).imp_left fun hsame => hsame.trans hbefore
    | drop =>
      dsimp only
      rw [Settlement.apply, CircuitHop.drop_of_unsettled rfl]
      exact (keys_recordFailure cb hosts f.host now).imp_left fun hsame => hsame.trans hbefore

/-- The hosts that a failure has been recorded of. -/
def failedHosts (es : List Event) : Finset Str :=
  (es.filterMap Event.failedHost).toFinset

/-- A host has failed if a failure of it is among the operations. -/
theorem mem_failedHosts : h ∈ failedHosts es ↔ ∃ e ∈ es, e.failedHost = some h := by
  rw [failedHosts, List.mem_toFinset, List.mem_filterMap]

/-- An entry of the map is the circuit of its host. -/
theorem entryOf_of_mem {hosts : Hosts} {entry : Σ _ : Str, HostCircuit}
    (h : entry ∈ hosts.entries) : entryOf hosts entry.1 = entry.2 := by
  rw [entryOf, AList.mem_lookup_iff.mpr h]
  rfl

/-- A circuit that guards its host is not closed. -/
theorem ne_closed_of_protecting {c : HostCircuit} (h : c.Protecting now) : c.state ≠ .closed := by
  intro hclosed
  rcases h with hhalf | ⟨openUntil, hopened, -⟩
  · simp [HostCircuit.isHalfOpen, hclosed] at hhalf
  · rw [hclosed] at hopened
    cases hopened

/-- A host whose circuit is accounted for and not closed has failed. -/
theorem Accounted.mem_failedHosts {s : CircuitState} (hs : Accounted cb h clock es fs s)
    (hne : s ≠ .closed) : h ∈ failedHosts es := by
  rw [Corx.mem_failedHosts]
  cases s with
  | closed => exact absurd rfl hne
  | opened openUntil =>
    obtain ⟨e, hmem, hfailed, -⟩ := hs
    exact ⟨e, hmem, hfailed⟩
  | halfOpen probes since => exact hs.2.2

/-- The map is within its capacity, or holds none but hosts that have failed. -/
def Bounded (cb : CircuitBreaker) (es : List Event) (hosts : Hosts) : Prop :=
  hosts.entries.length ≤ cb.maxHosts ∨ ∀ host ∈ hosts.keys, host ∈ failedHosts es

/-- Every step keeps the bound. -/
theorem Bounded.step (hw : Bounded cb es w.hosts) (haccounted : w'.Accounted cb (es ++ [e]))
    (hstep : Step cb w e w') : Bounded cb (es ++ [e]) w'.hosts := by
  have hmono : ∀ host, host ∈ failedHosts es → host ∈ failedHosts (es ++ [e]) := by
    intro host hhost
    obtain ⟨cause, hmem, hcause⟩ := mem_failedHosts.mp hhost
    exact mem_failedHosts.mpr ⟨cause, List.mem_append_left _ hmem, hcause⟩
  rcases hstep.keys with hsame | hguards
  · refine hw.imp (fun hle => ?_) fun hall host hhost =>
      hmono host (hall host (hsame.subset hhost))
    rw [← length_keys, hsame.length_eq, length_keys]
    exact hle
  · rcases Nat.lt_or_ge cb.maxHosts w'.hosts.entries.length with hover | hle
    · refine .inr fun host hhost => ?_
      obtain ⟨entry, hentry, rfl⟩ := List.mem_map.mp hhost
      have hcircuit := haccounted entry.1
      rw [entryOf_of_mem hentry] at hcircuit
      exact hcircuit.mem_failedHosts (ne_closed_of_protecting (hguards hover entry hentry))
    · exact .inl hle

end Corx
