import Corx.Policy.ProbeBudget
import Corx.Proxy.LoopRuns

/-!
# The breaker and the names of hosts

The breaker keeps its circuits under the text of a hop's URI host. The URL parser writes the host
of an initial target in lower case, but the URI of a redirect is the text of its `Location`, so a
host may come in several spellings, with a circuit for each. Along every run the breaker treats a
name as one exactly if no two hops spell it differently, or it is switched off
(`oneBreaker_iff`).
-/

namespace Corx

open CircuitBreaker

/-! ## Hops by their URIs -/

/-- An operation of some request: a hop to a URI asks for admission, or one is settled. -/
inductive HopCall
  | admission (uri : Uri) (now : Instant)
  | settle (flight : InFlight) (how : Settlement) (now : Instant)
  deriving DecidableEq, Repr

namespace HopCall

/-- The operation on the breaker, with the host of the URI. -/
def event : HopCall → Event
  | admission uri now => .admission (hostOf uri) now
  | settle flight how now => .settle flight how now

/-- The URI of a hop that asks for admission. -/
def uri? : HopCall → Option Uri
  | admission uri _ => some uri
  | settle _ _ _ => none

end HopCall

/-- One operation of a hop. -/
def HopStep (cb : CircuitBreaker) (w : World) (call : HopCall) (w' : World) : Prop :=
  Step cb w call.event w'

/-- The URIs that hops of a run ask for. -/
def hopUris (calls : List HopCall) : List Uri :=
  calls.filterMap HopCall.uri?

/-- Two texts spell one host name. -/
def SameName (host host' : Str) : Prop :=
  host.toAsciiLowercase = host'.toAsciiLowercase

instance (host host' : Str) : Decidable (SameName host host') :=
  inferInstanceAs (Decidable (_ = _))

/-- In every state of the breaker, admissions of the two hosts get the same verdict and leave the
same circuits. -/
def SharesState (cb : CircuitBreaker) (host host' : Str) : Prop :=
  ∀ hosts now,
    (CircuitHop.admitHop cb hosts host now).1.isOk =
        (CircuitHop.admitHop cb hosts host' now).1.isOk ∧
      ∀ h, entryOf (CircuitHop.admitHop cb hosts host now).2 h =
        entryOf (CircuitHop.admitHop cb hosts host' now).2 h

/-- The hops of a run that spell one name share one state of the breaker, and a hop to a name
whose circuit is open, under whatever spelling, is not admitted. -/
structure OneBreaker (cb : CircuitBreaker) (calls : List HopCall) : Prop where
  shared : ∀ uri ∈ hopUris calls, ∀ uri' ∈ hopUris calls, SameName (hostOf uri) (hostOf uri') →
    SharesState cb (hostOf uri) (hostOf uri')
  refused : ∀ past uri now rest w w' host openUntil, calls = past ++ .admission uri now :: rest →
    Run (HopStep cb) World.init past w → HopStep cb w (.admission uri now) w' →
    SameName host (hostOf uri) → (entryOf w.hosts host).state = .opened openUntil →
    now < openUntil → w'.inFlight = w.inFlight

/-- The hops of a run spell every name in one way. -/
def OneSpelling (calls : List HopCall) : Prop :=
  ∀ uri ∈ hopUris calls, ∀ uri' ∈ hopUris calls, SameName (hostOf uri) (hostOf uri') →
    hostOf uri = hostOf uri'

/-- Names that are all in lower case are spelled in one way. -/
theorem oneSpelling_of_lowercase {calls : List HopCall}
    (h : ∀ uri ∈ hopUris calls, (hostOf uri).toAsciiLowercase = hostOf uri) :
    OneSpelling calls := by
  intro uri huri uri' huri' hsame
  rw [← h uri huri, ← h uri' huri']
  exact hsame

variable {cb : CircuitBreaker} {host host' : Str} {calls : List HopCall} {w w' : World}

/-! ## Sharing a state -/

/-- A map with one open circuit. -/
def openedOnly (host : Str) : Hosts :=
  let circuit : HostCircuit := { state := .opened 1, failures := [] }
  AList.insert host circuit ∅

/-- The verdict of an admission is that of the check. -/
theorem isOk_admitHop (hosts : Hosts) (host : Str) (now : Instant) :
    (CircuitHop.admitHop cb hosts host now).1.isOk = (cb.check hosts host now).1.isOk := by
  unfold CircuitHop.admitHop
  split
  next h => rw [h]; rfl
  next h => rw [h]; rfl

/-- Two hosts share the state of a breaker exactly if it is switched off or their texts are
equal. -/
theorem sharesState_iff : SharesState cb host host' ↔ cb.enabled = false ∨ host = host' := by
  constructor
  · intro hshares
    by_contra hnot
    obtain ⟨hon, hne⟩ := not_or.mp hnot
    have hon : cb.enabled = true := Bool.of_not_eq_false hon
    -- with the circuit of one host open, the other one is new
    obtain ⟨hverdict, -⟩ := hshares (openedOnly host) 0
    have hopened : (entryOf (openedOnly host) host).state = .opened 1 := by
      rw [entryOf, openedOnly, AList.lookup_insert]
      rfl
    have hnew : (entryOf (openedOnly host) host').state = .closed := by
      rw [entryOf, openedOnly, AList.lookup_insert_ne (Ne.symm hne)]
      rfl
    rw [isOk_admitHop, isOk_admitHop, check_of_opened hon hopened (by decide),
      check_of_closed hon hnew] at hverdict
    cases hverdict
  · rintro (hoff | rfl)
    · intro hosts now
      simp [CircuitHop.admitHop, check_of_disabled hoff, Except.isOk, Except.toBool]
    · exact fun hosts now => ⟨rfl, fun h => rfl⟩

/-! ## Runs of hops -/

/-- Some hop of a run asks for the host. -/
def Named (calls : List HopCall) (host : Str) : Prop :=
  ∃ uri ∈ hopUris calls, hostOf uri = host

/-- What was named stays named. -/
theorem Named.append {more : List HopCall} (h : Named calls host) :
    Named (calls ++ more) host := by
  obtain ⟨uri, huri, rfl⟩ := h
  exact ⟨uri, by simp [hopUris] at huri ⊢; exact .inl huri, rfl⟩

/-- Hops in flight, and the hosts of circuits that are not new, were named by a hop. -/
structure NamedInv (calls : List HopCall) (w : World) : Prop where
  inFlight : ∀ f ∈ w.inFlight, Named calls f.host
  circuits : ∀ h, entryOf w.hosts h ≠ HostCircuit.new → Named calls h

/-- Nothing is named at the start. -/
theorem NamedInv.init : NamedInv [] World.init where
  inFlight := by simp [World.init]
  circuits h hne := absurd rfl hne

/-- A hop that asks for admission is named. -/
theorem named_admission (calls : List HopCall) (uri : Uri) (now : Instant) :
    Named (calls ++ [.admission uri now]) (hostOf uri) :=
  ⟨uri, by simp [hopUris, HopCall.uri?], rfl⟩

/-- A hop that asks for admission is refused, or the check passes and it joins the hops in
flight. -/
theorem inFlight_of_admission {now : Instant} (hstep : Step cb w (.admission host now) w') :
    w'.inFlight = w.inFlight ∨
      ∃ f hosts, f.host = host ∧ w'.inFlight = f :: w.inFlight ∧
        w.hosts.entries.Perm hosts.entries ∧ (cb.check hosts host now).1 = .ok () := by
  cases hstep with
  | admitted hclock hperm hprobe hadmission =>
    exact .inr ⟨_, _, rfl, rfl, hperm, CircuitHop.admitHop_ok hadmission⟩
  | refused hclock hperm hadmission => exact .inl rfl

/-- An operation moves the circuit of a host that is named, and no other. -/
theorem NamedInv.step (hon : cb.enabled = true) (hinv : NamedInv calls w) {call : HopCall}
    (hstep : HopStep cb w call w') : NamedInv (calls ++ [call]) w' := by
  have hentry := Step.entryOf hon hstep
  have hmoved : ∀ h, (¬ Named (calls ++ [call]) h → call.event.effect cb h (entryOf w.hosts h) =
      entryOf w.hosts h) → entryOf w'.hosts h ≠ HostCircuit.new → Named (calls ++ [call]) h := by
    intro h heffect hne
    by_contra hnot
    rcases hentry h with hkept | ⟨hnew, -⟩
    · rw [heffect hnot] at hkept
      exact hnot (hinv.circuits h (hkept ▸ hne)).append
    · exact hne hnew
  cases call with
  | admission uri now =>
    constructor
    · intro g hg
      rcases inFlight_of_admission hstep with hsame | ⟨f, -, hhost, hcons, -⟩
      · exact (hinv.inFlight g (hsame ▸ hg)).append
      · rcases List.mem_cons.mp (hcons ▸ hg) with rfl | hg
        · exact hhost ▸ named_admission calls uri now
        · exact (hinv.inFlight g hg).append
    · refine fun h => hmoved h fun hnot => if_neg fun heq => hnot ?_
      exact heq ▸ named_admission calls uri now
  | settle flight how now =>
    cases hstep with
    | settled hclock hperm hmem =>
      constructor
      · exact fun g hg => (hinv.inFlight g (List.mem_of_mem_erase hg)).append
      · refine fun h => hmoved h fun hnot => if_neg fun heq => hnot ?_
        exact heq ▸ (hinv.inFlight flight hmem).append

/-- Along a run only named hosts have circuits that are not new. -/
theorem NamedInv.of_run (hon : cb.enabled = true) (hrun : Run (HopStep cb) World.init calls w) :
    NamedInv calls w :=
  hrun.history_invariant (P := NamedInv) (fun _ _ _ _ hinv hstep => hinv.step hon hstep) .init

/-- A breaker that is switched off has no circuit that is not new. -/
theorem entryOf_of_disabled_run (hoff : cb.enabled = false)
    (hrun : Run (HopStep cb) World.init calls w) (h : Str) :
    entryOf w.hosts h = HostCircuit.new := by
  have hempty := (no_probe_of_disabled (h := h) hoff
    (Run.map_labels (f := HopCall.event) hrun : Run (Step cb) _ _ _)).1
  simp [entryOf, AList.lookup, hempty]

/-- A hop to a host whose circuit is open is not admitted. -/
theorem inFlight_of_opened (hon : cb.enabled = true) {uri : Uri} {now openUntil : Instant}
    (hstep : HopStep cb w (.admission uri now) w')
    (hstate : (entryOf w.hosts (hostOf uri)).state = .opened openUntil) (hlt : now < openUntil) :
    w'.inFlight = w.inFlight := by
  rcases inFlight_of_admission hstep with hsame | ⟨f, hosts, -, -, hperm, hcheck⟩
  · exact hsame
  · rw [entryOf_perm hperm] at hstate
    rw [check_of_opened hon hstate hlt] at hcheck
    cases hcheck

/-- Along every run the breaker treats each host name as one exactly if it is switched off or the
hops of the run spell every name in one way. -/
theorem oneBreaker_iff (hrun : Run (HopStep cb) World.init calls w) :
    OneBreaker cb calls ↔ cb.enabled = false ∨ OneSpelling calls := by
  constructor
  · intro hone
    rw [or_iff_not_imp_left]
    intro hon uri huri uri' huri' hsame
    exact (sharesState_iff.mp (hone.shared uri huri uri' huri' hsame)).resolve_left hon
  · intro hcond
    refine ⟨fun uri huri uri' huri' hsame => sharesState_iff.mpr
      (hcond.imp_right fun hspelling => hspelling uri huri uri' huri' hsame), ?_⟩
    rintro past uri now rest w₁ w₂ host openUntil rfl hpast hstep hsame hstate hlt
    rcases hcond with hoff | hspelling
    · rw [entryOf_of_disabled_run hoff hpast] at hstate
      cases hstate
    · by_cases hon : cb.enabled = true
      -- the circuit is that of a hop before, which spells the name as this one does
      · obtain ⟨uri', huri', rfl⟩ := (NamedInv.of_run hon hpast).circuits host (by
          intro hnew
          rw [hnew] at hstate
          cases hstate)
        have hmem : uri' ∈ hopUris (past ++ .admission uri now :: rest) := by
          simp [hopUris] at huri' ⊢
          exact .inl huri'
        have hmem' : uri ∈ hopUris (past ++ .admission uri now :: rest) := by
          simp [hopUris, HopCall.uri?]
        rw [hspelling uri' hmem uri hmem' hsame] at hstate
        exact inFlight_of_opened hon hstep hstate hlt
      · rw [entryOf_of_disabled_run (eq_false_of_ne_true hon) hpast] at hstate
        cases hstate

/-! ## A redirect in capitals -/

/-- Executing enabled operations of hops is a run. -/
theorem hopRun_exec (h : World.AllEnabled cb w (calls.map HopCall.event)) :
    Run (HopStep cb) w calls (World.exec cb w (calls.map HopCall.event)) := by
  induction calls generalizing w with
  | nil => exact Run.nil w
  | cons call calls ih => exact Run.cons (World.step_next h.1) (ih h.2)

/-- `http://host/`. -/
def rootOf (host : Str) : Uri where
  scheme := some "http"
  authority := some host
  path := "/"
  query := none

/-- The circuit of one host opens at 1, and a hop to another one succeeds at 2. -/
def openedAndPassed : List HopCall :=
  [.admission (rootOf "a.test") 0, .settle firstHop .failure 1, .admission (rootOf "b.test") 2,
    .settle { host := "b.test", admittedAt := 2, probe := false } .success 2]

/-- The breaker after the first `n` of these operations. -/
def worldAfter (n : ℕ) : World :=
  World.exec (fromConfig hairTrigger) World.init ((openedAndPassed.take n).map HopCall.event)

/-- `oneBreaker_iff` for the run so far. -/
theorem oneBreaker_iff_openedAndPassed :
    OneBreaker (fromConfig hairTrigger) openedAndPassed ↔
      (fromConfig hairTrigger).enabled = false ∨ OneSpelling openedAndPassed :=
  oneBreaker_iff (hopRun_exec (by decide))

/-- A client that follows redirects. -/
def followingUpstream : Upstream where
  config :=
    { poolMaxIdlePerHost := 32, poolIdleTimeout := 90, connectTimeout := 10, maxRedirects := 5
      allowHttpsToHttpDowngrade := false, redirectPolicy := .follow, userAgent := "corx" }
  guard := .new SsrfConfig.default
  targetPolicy := .fromConfig TargetConfig.default

/-- A `GET` request for the other host. -/
def getOther : Request where
  method := .get
  uri := rootOf "b.test"
  headers := .empty
  body := []

/-- The other host redirects to the first one in capitals, which answers `200 OK`. -/
def capitalRedirect : ℕ → HopEnv
  | 0 =>
    { hosts := (worldAfter 2).hosts
      now := 2
      exchange := .response
        { status := .found
          headers := .ofList [(.location, ⟨Str.asBytes "http://A.test/", by decide⟩)] }
      connections := [] }
  | _ =>
    { hosts := (worldAfter 4).hosts
      now := 3
      exchange := .response { status := .ok, headers := .empty }
      connections := [] }

/-- While the circuit of a host is open, a redirect to the host in capitals is admitted and
followed. -/
theorem capitals_admitted :
    Run (HopStep (fromConfig hairTrigger)) World.init openedAndPassed (worldAfter 4) ∧
    (∃ openUntil, (entryOf (worldAfter 4).hosts "a.test").state = .opened openUntil ∧
      3 < openUntil) ∧
    ((followingUpstream.execute .plain (fromConfig hairTrigger) capitalRedirect getOther).1.map
        fun d => hostOf d.request.uri) = ["b.test".toList, "A.test".toList] ∧
    ¬ OneBreaker (fromConfig hairTrigger)
      (openedAndPassed ++ [.admission (rootOf "A.test") 3]) := by
  have hrun : Run (HopStep (fromConfig hairTrigger)) World.init openedAndPassed (worldAfter 4) :=
    hopRun_exec (by decide)
  have hopen : (entryOf (worldAfter 4).hosts "a.test").state =
      .opened (1 + hairTrigger.openDuration) := by
    decide +kernel
  refine ⟨hrun, ⟨_, hopen, by decide⟩, by decide +kernel, fun hone => ?_⟩
  -- the hop in capitals joins the hops in flight
  have hstep : HopStep (fromConfig hairTrigger) (worldAfter 4) (.admission (rootOf "A.test") 3)
      ((worldAfter 4).next (fromConfig hairTrigger) (.admission (hostOf (rootOf "A.test")) 3)) :=
    World.step_next (by decide)
  have hsame := hone.refused openedAndPassed (rootOf "A.test") 3 [] _ _ "a.test" _ rfl hrun hstep
    (by decide) hopen (by decide)
  exact absurd hsame (by decide)

end Corx
