import Mathlib.Algebra.Order.BigOperators.Group.Finset
import Corx.Server.Capacity

/-!
# Readiness and draining

After the signal the server is not ready, for good: a probe that comes later is never answered
with `200` (`not_ready_of_run`), whatever else happens to it. The requests under way never wait
for each other: each of them can take its next step, and as long as no more requests come in they
take together no more steps than they had left, however these interleave; then the server can exit
(`drained_of_run`).
-/

namespace Corx

/-- The request that comes with an event. -/
def ServiceEvent.arrival? {ι : Type} : ServiceEvent ι → Option ι
  | arrive i => some i
  | _ => none

namespace Service

variable {ι : Type} [DecidableEq ι] {server : Server ι} {s t : Service ι} {e : ServiceEvent ι}
  {es : List (ServiceEvent ι)} {i : ι}

/-! ## Readiness -/

/-- A server that is not ready stays so. -/
theorem Step.ready_eq_false (h : Step server s e t) (hs : s.ready = false) : t.ready = false := by
  cases he : e.request? with
  | some i =>
    obtain ⟨inflight, stage, rfl⟩ := h.eq_of_request he
    exact hs
  | none => cases h <;> cases he <;> simp [hs]

/-- Once the signal has come the server is not ready. -/
theorem ready_eq_false_of_signal (hrun : Run (Step server) (start server) es s)
    (hsignal : ServiceEvent.signal ∈ es) : s.ready = false := by
  revert hsignal
  refine hrun.history_invariant (P := fun es s => ServiceEvent.signal ∈ es → s.ready = false) ?_
    (fun h => absurd h List.not_mem_nil)
  intro es s e t hs hstep hsignal
  rcases List.mem_append.mp hsignal with hpast | hlast
  · exact hstep.ready_eq_false (hs hpast)
  · obtain rfl := List.mem_singleton.mp hlast
    cases hstep
    rfl

end Service

/-- The request is routed to one of the readiness probes. -/
def IsProbe {ι : Type} (server : Server ι) (i : ι) : Prop :=
  ∃ route, ((opsHandlers server.build).find? fun handler =>
      server.routeMatches handler.1 (server.request i).uri.path) = some (route, readyz)

/-- A probe that has not been answered by `200`, and has not been forwarded. -/
def NotReported : Stage → Prop
  | .outside | .entered | .shedding => True
  | .inside phase => phase = .arrived ∨ phase = .authorized
  | .responded dispatches response | .finished dispatches response =>
    dispatches = [] ∧ response.status ≠ .ok
  | .gone dispatches => dispatches = []

namespace Service

variable {ι : Type} [DecidableEq ι] {server : Server ι} {s t : Service ι} {e : ServiceEvent ι}
  {es : List (ServiceEvent ι)} {i : ι}

/-- A failed request is not answered by `200`. -/
theorem status_intoResponse_ne_ok (err : ProxyError) : err.intoResponse.status ≠ .ok := by
  intro h
  have hstatus := err.kind.four_hundred_le_status
  have hok : err.kind.status = .ok := h
  rw [hok] at hstatus
  exact absurd hstatus (by decide)

omit [DecidableEq ι] in
/-- A probe inside a server that is not ready goes on to the router, or is answered by something
else than `200`. -/
theorem read_probe {phase : RequestPhase} {policies : LivePolicies} (hprobe : IsProbe server i)
    (hphase : phase = .arrived ∨ phase = .authorized) :
    server.read false policies i phase = .authorized ∨
      ∃ answer, server.read false policies i phase = .answered answer ∧
        answer.dispatches = [] ∧ answer.response.status ≠ .ok := by
  rcases hphase with rfl | rfl
  · rw [Server.read, Arrival.read, Arrival.authenticate]
    split
    next err _ => exact .inr ⟨_, rfl, rfl, status_intoResponse_ne_ok err⟩
    next => exact .inl rfl
  · obtain ⟨route, hroute⟩ := hprobe
    have hrouted : opsRouted server.routeMatches server.build
        (server.arrivalAt false i).request.uri.path = true :=
      opsRouted_iff.mpr (Option.isSome_iff_exists.mpr ⟨_, hroute⟩)
    rw [Server.read, Arrival.read, Arrival.guard, if_pos hrouted]
    refine .inr ⟨_, rfl, rfl, ?_⟩
    change (opsAnswer server.routeMatches server.build false (server.request i)).status ≠ .ok
    rw [opsAnswer, hroute]
    split
    · exact (by decide : (readyz false).status ≠ .ok)
    · exact (by decide : notFound.status ≠ .ok)

omit [DecidableEq ι] in
/-- A server that is not ready does not report readiness. -/
theorem notReported_advance {before after : Stage} (hbefore : NotReported before)
    (hpanic : server.panicResponse.status ≠ .ok) (hprobe : IsProbe server i)
    (hready : s.ready = false) (h : Advance server s i before after) : NotReported after := by
  -- what a probe is dropped with has not been forwarded
  have habandoned : ∀ {phase dispatches}, phase = .arrived ∨ phase = .authorized →
      Abandons server s i phase dispatches → dispatches = [] := by
    rintro phase dispatches hphase (rfl | hread)
    · rcases hphase with rfl | rfl <;> rfl
    · rw [hready] at hread
      rcases read_probe hprobe hphase with hnext | ⟨answer, hnext, -⟩ <;>
        cases hnext.symm.trans hread
  cases h with
  | arrive => trivial
  | tooLarge => exact ⟨rfl, by decide⟩
  | reject => trivial
  | accept => exact .inl rfl
  | shed => exact ⟨rfl, by decide⟩
  | work hread hanswered =>
    rw [hready] at hread
    rcases read_probe hprobe hbefore with hnext | ⟨answer, hnext, -⟩
    · exact .inr (hread.symm.trans hnext)
    · exact absurd (hread.symm.trans hnext) (hanswered answer)
  | answer hread =>
    rw [hready] at hread
    rcases read_probe hprobe hbefore with hnext | ⟨answer, hnext, hnone, hstatus⟩
    · cases hnext.symm.trans hread
    · obtain rfl := RequestPhase.answered.inj (hnext.symm.trans hread)
      exact ⟨hnone, hstatus⟩
  | interrupt interruption habandons =>
    refine ⟨habandoned hbefore habandons, ?_⟩
    cases interruption with
    | panic => exact hpanic
    | timeout => exact (by decide : timeoutResponse.status ≠ .ok)
  | cancel habandons => exact habandoned hbefore habandons
  | stamp => exact hbefore

/-- A readiness probe that comes after the signal is never answered by `200`, however requests,
reloads and the shutdown interleave before and after, and it is not forwarded. -/
theorem not_ready_of_run {ι : Type} [DecidableEq ι] {server : Server ι}
    {past es : List (ServiceEvent ι)} {s t : Service ι} {i : ι} {dispatches : List Dispatch}
    {response : Response} (hpanic : server.panicResponse.status = .internalServerError)
    (hprobe : IsProbe server i) (hpast : Run (Step server) (start server) past s)
    (hsignal : ServiceEvent.signal ∈ past) (houtside : s.stage i = .outside)
    (hrun : Run (Step server) s es t) (hfinished : t.stage i = .finished dispatches response) :
    response.status ≠ .ok ∧ dispatches = [] := by
  have hpanic' : server.panicResponse.status ≠ .ok := by
    rw [hpanic]
    decide
  have hinv : t.ready = false ∧ NotReported (t.stage i) := by
    refine hrun.invariant (P := fun s => s.ready = false ∧ NotReported (s.stage i)) ?_
      ⟨ready_eq_false_of_signal hpast hsignal, by rw [houtside]; trivial⟩
    rintro s e t ⟨hs, hstage⟩ hstep
    refine ⟨hstep.ready_eq_false hs, ?_⟩
    by_cases he : e.request? = some i
    · exact notReported_advance hstage hpanic' hprobe hs (hstep.advance he)
    · rw [hstep.stage_of_ne he]
      exact hstage
  have hstage := hinv.2
  rw [hfinished] at hstage
  exact hstage.symm

/-- A readiness probe. -/
def probeInbound : Inbound :=
  { pagesInbound with
    arrival :=
      { pagesInbound.arrival with
        request :=
          { pagesInbound.arrival.request with
            uri := { scheme := none, authority := none, path := "/readyz", query := none } } } }

/-- A server to which such probes come. -/
def probeServer : Server ℕ :=
  { pagesServer with inbound := fun _ => probeInbound }

/-- The probe is routed to its handler. -/
theorem isProbe_probeServer : IsProbe probeServer 0 :=
  ⟨"/readyz", rfl⟩

/-- The server after the signal, once a probe has come in and is counted. -/
def probeCounted : Service ℕ :=
  (({ start probeServer with ready := false, lifecycle := .draining } : Service ℕ).setStage 0
    .entered).count probeServer.build.immutableLimits 0

/-- The probe is answered, and not by `200`. -/
theorem not_ready_of_run_probe :
    ∃ t dispatches response, Run (Step probeServer) (start probeServer)
        [.signal, .arrive 0, .count 0, .work 0, .work 0, .stamp 0] t ∧
      t.stage 0 = .finished dispatches response ∧ response.status ≠ .ok ∧ dispatches = [] := by
  have hsignal : Run (Step probeServer) (start probeServer) [.signal]
      { start probeServer with ready := false, lifecycle := .draining } := .single (.signal rfl)
  have hstage : probeCounted.stage 0 = .inside .arrived := by
    rw [probeCounted, Service.count, setStage_stage_self, if_neg (by decide +kernel)]
  have hopen : (probeServer.read false probeServer.build.policies 0 .arrived).isOpen = true := by
    decide +kernel
  have hclosed : (probeServer.read false probeServer.build.policies 0 .authorized).isOpen =
      false := by decide +kernel
  -- the authentication layer lets the probe pass, and its handler answers
  have hauthorized : probeServer.read false probeServer.build.policies 0 .arrived =
      .authorized := by
    rcases read_probe isProbe_probeServer (.inl rfl) with h | ⟨answer, h, -⟩
    · exact h
    · rw [h] at hopen
      cases hopen
  obtain ⟨answer, hanswered⟩ : ∃ answer,
      probeServer.read false probeServer.build.policies 0 .authorized = .answered answer := by
    rcases read_probe isProbe_probeServer (.inr rfl) with h | ⟨answer, h, -⟩
    · rw [h] at hclosed
      cases hclosed
    · exact ⟨answer, h⟩
  have hauthenticate : Step probeServer probeCounted (.work 0)
      (probeCounted.setStage 0 (.inside .authorized)) := by
    rw [← hauthorized]
    exact .work_of_isOpen hstage hopen
  have hanswer : Step probeServer (probeCounted.setStage 0 (.inside .authorized)) (.work 0)
      ((probeCounted.setStage 0 (.inside .authorized)).proceed 0 (.answered answer)) := by
    rw [← hanswered]
    refine .work setStage_stage_self fun dispatches h => ?_
    cases hanswered.symm.trans h
  have hrun : Run (Step probeServer)
      { start probeServer with ready := false, lifecycle := .draining }
      [.arrive 0, .count 0, .work 0, .work 0, .stamp 0] _ :=
    .cons (.arrive rfl (by decide)) (.cons (.count setStage_stage_self (by decide +kernel))
      (.cons hauthenticate (.cons hanswer (.cons (.stamp setStage_stage_self) (.nil _)))))
  exact ⟨_, _, _, hsignal.append hrun, setStage_stage_self, not_ready_of_run rfl
    isProbe_probeServer hsignal (List.mem_singleton_self _) rfl hrun setStage_stage_self⟩

/-! ## Draining -/

omit [DecidableEq ι] in
/-- A handler that is at work does not finish the response itself. -/
theorem read_ne_finished (server : Server ι) (i : ι) {phase : RequestPhase}
    (h : phase.isOpen = true) (ready : Bool) (policies : LivePolicies) (answer : Answer) :
    server.read ready policies i phase ≠ .finished answer := by
  cases phase with
  | arrived =>
    rw [Server.read, Arrival.read, Arrival.authenticate]
    split <;> simp
  | authorized =>
    rw [Server.read, Arrival.read, Arrival.guard]
    split
    · simp
    · split <;> simp
  | admitted target =>
    rw [Server.read, Arrival.read, Arrival.fetch]
    split
    · simp
    · split <;> simp
  | fetched => simp [Server.read, Arrival.read]
  | answered => cases h
  | finished => cases h
  | dropped => cases h

omit [DecidableEq ι] in
/-- A request that advances inside still has a handler at work. -/
theorem open_advance {before after : Stage} (hbefore : before.Open)
    (h : Advance server s i before after) : after.Open := by
  cases h with
  | @work phase next hread hanswered hdropped =>
    have hfinished := read_ne_finished server i hbefore s.ready s.live
    rw [hread] at hfinished
    cases next with
    | answered answer => exact absurd rfl (hanswered answer)
    | dropped dispatches => exact absurd rfl (hdropped dispatches)
    | finished answer => exact absurd rfl (hfinished answer)
    | _ => rfl
  | accept => rfl
  | _ => trivial

omit [DecidableEq ι] in
/-- A request that advances has fewer steps left, unless it comes in. -/
theorem rank_lt_of_advance {before after : Stage} (hbefore : before.Open)
    (hcome : before ≠ .outside) (h : Advance server s i before after) :
    after.rank < before.rank := by
  have hinside : ∀ phase : RequestPhase, 1 < (Stage.inside phase).rank :=
    fun phase => Nat.lt_add_left _ (Nat.lt_succ_self 1)
  cases h with
  | arrive => exact absurd rfl hcome
  | tooLarge => exact (by decide : 1 < 8)
  | reject => exact (by decide : 2 < 8)
  | accept => exact (by decide : 7 < 8)
  | shed => exact (by decide : 1 < 2)
  | @work phase next hread _ _ =>
    have hrank := @rank_read server.parsers server.routeMatches server.build
      (server.arrivalAt s.ready i) phase s.live
    have hpos : 0 < phase.rank := by
      cases phase with
      | finished => cases hbefore
      | dropped => cases hbefore
      | _ => exact Nat.succ_pos _
    have hnext : next.rank ≤ phase.rank - 1 := hread ▸ hrank
    simp only [Stage.rank]
    omega
  | answer => exact hinside _
  | interrupt => exact hinside _
  | cancel => exact Nat.zero_lt_of_lt (hinside _)
  | stamp => exact Nat.one_pos

/-- A request whose step does not bring it in has come in before. -/
theorem Step.stage_ne_outside (h : Step server s e t) (he : e.request? = some i)
    (hcome : e.arrival? = none) : s.stage i ≠ .outside := by
  cases h <;> cases he
  case arrive => cases hcome
  all_goals simp_all

/-- The requests that came in, the steps that each of them has left, and a handler at work on each
that is inside. -/
structure Tracked (past : List (ServiceEvent ι)) (s : Service ι) : Prop where
  came : ∀ i, s.stage i ≠ .outside → i ∈ past.filterMap ServiceEvent.arrival?
  handled : ∀ i, (s.stage i).Open

/-- Every step keeps track of the requests. -/
theorem Tracked.step {past : List (ServiceEvent ι)} (hs : s.Tracked past)
    (h : Step server s e t) : t.Tracked (past ++ [e]) := by
  refine ⟨fun i hi => ?_, fun i => ?_⟩
  · rw [List.filterMap_append, List.mem_append]
    by_cases he : e.request? = some i
    · cases hcome : e.arrival? with
      | none => exact .inl (hs.came i (h.stage_ne_outside he hcome))
      | some j =>
        refine .inr ?_
        cases e with
        | arrive j => simpa [ServiceEvent.arrival?] using (Option.some.inj he).symm
        | _ => cases hcome
    · rw [h.stage_of_ne he] at hi
      exact .inl (hs.came i hi)
  · by_cases he : e.request? = some i
    · exact open_advance (hs.handled i) (h.advance he)
    · rw [h.stage_of_ne he]
      exact hs.handled i

/-- The requests are tracked in every run. -/
theorem tracked_of_run (hrun : Run (Step server) (start server) es s) : s.Tracked es :=
  hrun.history_invariant (fun _ _ _ _ hs hstep => hs.step hstep)
    ⟨fun _ h => absurd rfl h, fun _ => trivial⟩

/-- The steps that some requests have left together. -/
def pending (requests : Finset ι) (s : Service ι) : ℕ :=
  ∑ i ∈ requests, (s.stage i).rank

/-- A step leaves fewer steps, if it is one of a request and brings none in. -/
theorem Step.pending_le {requests : Finset ι} (hopen : ∀ i, (s.stage i).Open)
    (hrequests : ∀ i, s.stage i ≠ .outside → i ∈ requests) (h : Step server s e t)
    (hcome : e.arrival? = none) :
    e.request?.toList.length + t.pending requests ≤ s.pending requests := by
  cases he : e.request? with
  | none =>
    rw [pending, (h.eq_of_server he).1, ← pending]
    simp
  | some i =>
    have hout := h.stage_ne_outside he hcome
    have hlt : (t.stage i).rank < (s.stage i).rank :=
      rank_lt_of_advance (hopen i) hout (h.advance he)
    have hle : ∀ j ∈ requests, (t.stage j).rank ≤ (s.stage j).rank := by
      intro j _
      by_cases hj : j = i
      · rw [hj]
        exact Nat.le_of_lt hlt
      · rw [h.stage_of_ne (by rw [he]; simpa using Ne.symm hj)]
    have hsum := Finset.sum_lt_sum hle ⟨i, hrequests i hout, hlt⟩
    rw [Option.toList_some, List.length_singleton, pending, pending]
    omega

/-- A run that brings no requests in takes the steps that are left. -/
theorem pending_le_of_run {requests : Finset ι} (hopen : ∀ i, (s.stage i).Open)
    (hrequests : ∀ i, s.stage i ≠ .outside → i ∈ requests) (hrun : Run (Step server) s es t)
    (hclosed : ∀ e ∈ es, e.arrival? = none) :
    (es.filterMap ServiceEvent.request?).length + t.pending requests ≤ s.pending requests := by
  induction hrun with
  | nil s => simp
  | @cons s u t e es hstep _ ih =>
    obtain ⟨hcome, hrest⟩ := List.forall_mem_cons.mp hclosed
    have hopen' : ∀ i, (u.stage i).Open := by
      intro i
      by_cases he : e.request? = some i
      · exact open_advance (hopen i) (hstep.advance he)
      · rw [hstep.stage_of_ne he]
        exact hopen i
    have hrequests' : ∀ i, u.stage i ≠ .outside → i ∈ requests := by
      intro i hi
      by_cases he : e.request? = some i
      · exact hrequests i (hstep.stage_ne_outside he hcome)
      · rw [hstep.stage_of_ne he] at hi
        exact hrequests i hi
    have hfirst := hstep.pending_le hopen hrequests hcome
    have hothers := ih hopen' hrequests' hrest
    have hlength : ((e :: es).filterMap ServiceEvent.request?).length =
        e.request?.toList.length + (es.filterMap ServiceEvent.request?).length := by
      cases he : e.request? with
      | none => rw [List.filterMap_cons_none he]; simp
      | some i => rw [List.filterMap_cons_some he, List.length_cons, Nat.add_comm]; rfl
    omega

/-- A request under way can take its next step. It is cut off only where its future is dropped
while it waits for the upstream. -/
theorem exists_step (hrank : (s.stage i).rank ≠ 0) :
    ∃ e t, e.request? = some i ∧ Step server s e t ∧
      (e = .cancel i → ∃ phase dispatches, s.stage i = .inside phase ∧
        server.read s.ready s.live i phase = .dropped dispatches) := by
  cases hstage : s.stage i with
  | outside => exact absurd (by rw [hstage]; rfl) hrank
  | finished => exact absurd (by rw [hstage]; rfl) hrank
  | gone => exact absurd (by rw [hstage]; rfl) hrank
  | entered =>
    cases hfits : server.fits i with
    | true => exact ⟨_, _, rfl, .count hstage hfits, fun h => nomatch h⟩
    | false => exact ⟨_, _, rfl, .tooLarge hstage hfits, fun h => nomatch h⟩
  | shedding => exact ⟨_, _, rfl, .shed hstage, fun h => nomatch h⟩
  | responded => exact ⟨_, _, rfl, .stamp hstage, fun h => nomatch h⟩
  | inside phase =>
    by_cases hread : ∃ dispatches, server.read s.ready s.live i phase = .dropped dispatches
    · obtain ⟨dispatches, hread⟩ := hread
      exact ⟨_, _, rfl, .cancel hstage (.inr hread), fun _ => ⟨phase, dispatches, rfl, hread⟩⟩
    · exact ⟨_, _, rfl, .work hstage fun dispatches h => hread ⟨dispatches, h⟩,
        fun h => nomatch h⟩

/-- From any state that is reached, in a run in which no more requests come in: the requests under
way take no more steps than they had left, however these interleave with each other, with reloads
and with the shutdown. Each of them can take its next step without another one, and waits for
nothing but its own upstream; where no request can take a step, none is under way. -/
theorem drained_of_run {ι : Type} [DecidableEq ι] {server : Server ι}
    {past es : List (ServiceEvent ι)} {s t : Service ι}
    (hpast : Run (Step server) (start server) past s) (hrun : Run (Step server) s es t)
    (hclosed : ∀ e ∈ es, e.arrival? = none) :
    (es.filterMap ServiceEvent.request?).length +
        t.pending (past.filterMap ServiceEvent.arrival?).toFinset ≤
      s.pending (past.filterMap ServiceEvent.arrival?).toFinset ∧
    (∀ i, (t.stage i).rank ≠ 0 → ∃ e u, e.request? = some i ∧ Step server t e u ∧
      (e = .cancel i → ∃ phase dispatches, t.stage i = .inside phase ∧
        server.read t.ready t.live i phase = .dropped dispatches)) ∧
    ((∀ e u, Step server t e u → e.request? = none) → t.Idle) := by
  have hs := tracked_of_run hpast
  have hcame : ∀ i, s.stage i ≠ .outside →
      i ∈ (past.filterMap ServiceEvent.arrival?).toFinset :=
    fun i hi => List.mem_toFinset.mpr (hs.came i hi)
  refine ⟨pending_le_of_run hs.handled hcame hrun hclosed, fun i => exists_step,
    fun hstuck i => ?_⟩
  by_contra hrank
  obtain ⟨e, u, he, hstep, -⟩ := exists_step hrank
  rw [hstuck e u hstep] at he
  cases he

/-- The signal comes while a page's request is inside. The request takes two of the seven steps that
it has left: it is answered. -/
theorem drained_of_run_pages :
    ∃ t, Run (Step pagesServer) pagesCounted [.signal, .interrupt .timeout 0, .stamp 0] t ∧
      2 + t.pending {0} ≤ pagesCounted.pending {0} ∧ pagesCounted.pending {0} = 7 := by
  obtain ⟨hpast, hstage⟩ := run_pagesCounted
  have hrun : Run (Step pagesServer) pagesCounted [.signal, .interrupt .timeout 0, .stamp 0] _ :=
    .cons (.signal rfl) (.cons (.interrupt .timeout hstage (.inl rfl))
      (.cons (.stamp setStage_stage_self) (.nil _)))
  have hdrained := (drained_of_run hpast hrun (by simp [ServiceEvent.arrival?])).1
  refine ⟨_, hrun, hdrained, ?_⟩
  rw [pending, Finset.sum_singleton, hstage]
  rfl

end Service

end Corx
