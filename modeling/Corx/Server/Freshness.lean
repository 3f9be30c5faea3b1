import Corx.Server.Answers

/-!
# No stale policies

A reload is in force for every request that comes in after it. From any state in which a request
has not come in yet, whatever is decided on it is decided under a snapshot that is live from then
on (`fresh_of_run`): the snapshots that were replaced before have no say in it. So what a reload
takes away is gone at once: a client whose token no live snapshot accepts any more gets nothing
dispatched (`dispatches_of_revoked`).
-/

namespace Corx

variable {ι : Type} {server : Server ι} {s t : Service ι} {e : ServiceEvent ι}
  {es : List (ServiceEvent ι)} {i : ι}

/-- The snapshot that an event installs. -/
def ServiceEvent.installed : ServiceEvent ι → Option LivePolicies
  | reload policies => some policies
  | arrive _ | tooLarge _ | count _ | shed _ | work _ | interrupt _ _ | cancel _ | stamp _ | signal
  | deadline | exit => none

namespace Service

/-- The snapshots that are live from a state on. -/
def liveSince (s : Service ι) (es : List (ServiceEvent ι)) : List LivePolicies :=
  s.live :: es.filterMap ServiceEvent.installed

/-- One event more leaves these live, and its own. -/
theorem liveSince_append (s : Service ι) (es : List (ServiceEvent ι)) (e : ServiceEvent ι) :
    s.liveSince (es ++ [e]) = s.liveSince es ++ e.installed.toList := by
  unfold liveSince
  rw [List.filterMap_append, List.cons_append]
  cases hinstalled : e.installed with
  | none => rw [List.filterMap_cons_none hinstalled, List.filterMap_nil, Option.toList_none]
  | some p => rw [List.filterMap_cons_some hinstalled, List.filterMap_nil, Option.toList_some]

variable [DecidableEq ι]

/-- A step leaves the live snapshot or installs another one. -/
theorem Step.live_eq (h : Step server s e t) : t.live = e.installed.getD s.live := by
  cases he : e.request? with
  | some i =>
    obtain ⟨inflight, stage, rfl⟩ := h.eq_of_request he
    cases e <;> first | rfl | cases he
  | none =>
    cases h <;> cases he
    all_goals rfl

/-- What a step makes live is live from before on. -/
theorem live_mem_liveSince {u : Service ι} (h : Step server t e u) (ht : t.live ∈ s.liveSince es) :
    u.live ∈ s.liveSince (es ++ [e]) := by
  rw [h.live_eq, liveSince_append]
  cases e.installed with
  | none => exact List.mem_append_left _ ht
  | some p => exact List.mem_append_right _ (List.mem_singleton_self p)

/-- A request that has not come in yet is judged and answered under snapshots that are live from
then on. -/
theorem stageOk_liveSince (hrun : Run (Step server) s es t) (houtside : s.stage i = .outside) :
    StageOk server (s.liveSince es) i (t.stage i) ∧
      StageAnswered server (s.liveSince es) i (t.stage i) := by
  refine (hrun.history_invariant
    (P := fun es t => t.live ∈ s.liveSince es ∧ StageOk server (s.liveSince es) i (t.stage i) ∧
      StageAnswered server (s.liveSince es) i (t.stage i))
    ?_ ⟨List.mem_cons_self, ?_⟩).2
  -- what is live now may judge the request later, so it is part of the invariant
  · rintro es t e u ⟨hlive, hstage, hanswered⟩ hstep
    have hmore : s.liveSince es ⊆ s.liveSince (es ++ [e]) := by
      rw [liveSince_append]
      exact List.subset_append_left _ _
    refine ⟨live_mem_liveSince hstep hlive, ?_, hstep.stageAnswered hlive hmore hanswered⟩
    by_cases he : e.request? = some i
    · exact ((hstep.advance he).stageOk hlive hstage).mono hmore
    · rw [hstep.stage_of_ne he]
      exact hstage.mono hmore
  · rw [houtside]
    exact ⟨trivial, trivial⟩

/-- From any state in which a request has not come in yet, however the service goes on: the request
passes each check, and its response is shaped and stamped, under a snapshot that is live from then
on. -/
theorem fresh_of_run (hrun : Run (Step server) s es t) (houtside : s.stage i = .outside) :
    (∀ d ∈ (t.stage i).dispatches, Mediated server (s.liveSince es) i d) ∧
      ∀ dispatches response, t.stage i = .finished dispatches response →
        StampedAnswer server (s.liveSince es) i dispatches response := by
  obtain ⟨hok, hanswered⟩ := stageOk_liveSince hrun houtside
  refine ⟨hok.dispatches, fun dispatches response hfinished => ?_⟩
  rwa [hfinished] at hanswered

/-- Nothing is dispatched for a request whose token no snapshot accepts that is live when it comes
in or later. -/
theorem dispatches_of_revoked (hrun : Run (Step server) s es t) (houtside : s.stage i = .outside)
    (hrevoked : ∀ p ∈ s.liveSince es,
      authLayer { server.build with policies := p } (server.request i) ≠ .ok ()) :
    (t.stage i).dispatches = [] := by
  rw [List.eq_nil_iff_forall_not_mem]
  intro d hd
  obtain ⟨target, hguarded, -⟩ := (stageOk_liveSince hrun houtside).1.dispatches d hd
  obtain ⟨p, hp, hauth⟩ := hguarded.authenticated
  exact hrevoked p hp hauth

end Service

/-! ## A token that is asked for from now on -/

/-- The pages' configuration with a bearer token. -/
def guardedPolicies : LivePolicies :=
  (LivePolicies.build
    { pagesConfig with
      security :=
        { SecurityConfig.default with auth := { mode := .bearer, bearerTokens := ["s3cret"] } } }
    fun _ => .ok ()).toOption.get (by decide +kernel)

/-- The service once that is loaded. -/
def guardedService : Service ℕ :=
  { Service.start pagesServer with
    live := guardedPolicies
    seen := guardedPolicies :: (Service.start pagesServer).seen }

/-- The service once a page's request has come in. -/
def guardedCounted : Service ℕ :=
  (guardedService.setStage 0 .entered).count pagesServer.build.immutableLimits 0

/-- A page's request without a token comes in after the reload, and is turned away. -/
theorem Service.fresh_of_run_guarded :
    ∃ t response, Run (Step pagesServer) guardedService [.arrive 0, .count 0, .work 0, .stamp 0] t ∧
      t.stage 0 = .finished [] response ∧
      StampedAnswer pagesServer [guardedPolicies] 0 [] response := by
  have hread : pagesServer.read guardedCounted.ready guardedCounted.live 0 .arrived =
      .answered (.failed (.unauthorized "missing Authorization header") []) := by
    have hauth : authLayer { pagesServer.build with policies := guardedPolicies }
        (pagesServer.arrivalAt true 0).request =
          .error (.unauthorized "missing Authorization header") := by
      decide +kernel
    have hanswer : pagesServer.read true guardedPolicies 0 .arrived =
        .answered (.failed (.unauthorized "missing Authorization header") []) := by
      rw [Server.read, Arrival.read, Arrival.authenticate, hauth]
    exact hanswer
  have hstage : guardedCounted.stage 0 = .inside .arrived := by
    rw [guardedCounted, Service.count, setStage_stage_self, if_neg (by decide +kernel)]
  have hcounted : Run (Step pagesServer) guardedService [.arrive 0, .count 0] guardedCounted :=
    .cons (.arrive rfl (by decide)) (.single (.count setStage_stage_self (by decide +kernel)))
  have hrun := (hcounted.snoc (.work_answered hstage hread)).snoc (.stamp setStage_stage_self)
  exact ⟨_, _, hrun, setStage_stage_self, (fresh_of_run hrun rfl).2 _ _ setStage_stage_self⟩

end Corx
