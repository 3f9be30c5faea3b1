import Corx.Server.Mediation

/-!
# Requests inside the service

The service refines the load-shedding layer by itself: each of its steps makes one move on the
shared counter, or none (`ServiceEvent.moves`, `Service.Step.refines`). The permits are held by the
requests inside the layers, however these leave: answered, cancelled, timed out or in a panic. So
what holds of the layer holds of the service: the requests inside stay within the cap, and a service
at rest has counted nothing (`capacity_of_run`).
-/

namespace Corx

/-- The request is inside the load-shedding layer. -/
def Stage.isInside : Stage → Bool
  | .inside _ => true
  | _ => false

/-- The request has found the cap reached. -/
def Stage.isShedding : Stage → Bool
  | .shedding => true
  | _ => false

/-- The handler has answered. -/
def RequestPhase.isAnswered : RequestPhase → Bool
  | .answered _ => true
  | _ => false

/-- The handler's next step is the answer to the request. -/
def Service.answers {ι : Type} (server : Server ι) (s : Service ι) (i : ι) : Bool :=
  match s.stage i with
  | .inside phase => (server.read s.ready s.live i phase).isAnswered
  | _ => false

/-- What becomes of the counter with a step of the service: a request counts itself as it comes to
the layer, and drops its permit, if it has one, as it leaves. -/
def ServiceEvent.moves {ι : Type} [DecidableEq ι] (server : Server ι) (s : Service ι) :
    ServiceEvent ι → List (LoadShed.Move ι)
  | count i => [.arrive i]
  | shed i => [.shed i]
  | work i => if i ∈ s.inflight.permits ∧ s.answers server i then [.complete i] else []
  | interrupt .panic i => if i ∈ s.inflight.permits then [.complete i] else []
  | interrupt .timeout i | cancel i => if i ∈ s.inflight.permits then [.cancel i] else []
  | arrive _ | tooLarge _ | stamp _ | reload _ | signal | deadline | exit => []

namespace Service

open LoadShed (Inflight)

variable {ι : Type} [DecidableEq ι] {server : Server ι} {s t : Service ι} {e : ServiceEvent ι}
  {es : List (ServiceEvent ι)} {i : ι} {stage : Stage}

/-- With a cap, the permits are held by the requests inside, and the rejected requests are those
that have found the cap reached; without one, nothing is counted. -/
structure Counts (limits : LimitsConfig) (s : Service ι) : Prop where
  permits : limits.inflightMax.toNat ≠ 0 →
    ∀ i, i ∈ s.inflight.permits ↔ (s.stage i).isInside = true
  rejected : ∀ i, i ∈ s.inflight.rejected ↔ (s.stage i).isShedding = true
  uncounted : limits.inflightMax.toNat = 0 → s.inflight.permits = ∅

variable {limits : LimitsConfig}

omit [DecidableEq ι] in
/-- Before the first request. -/
theorem Counts.start : (start server).Counts limits where
  permits _ i := by simp [Service.start, Inflight.start, Stage.isInside]
  rejected i := by simp [Service.start, Inflight.start, Stage.isShedding]
  uncounted _ := rfl

/-- A request that is taken to a stage of the same kind changes no count. -/
theorem Counts.setStage (hs : s.Counts limits) (hinside : stage.isInside = (s.stage i).isInside)
    (hshedding : stage.isShedding = (s.stage i).isShedding) :
    (s.setStage i stage).Counts limits := by
  have hkind : ∀ j, ((s.setStage i stage).stage j).isInside = (s.stage j).isInside ∧
      ((s.setStage i stage).stage j).isShedding = (s.stage j).isShedding := by
    intro j
    by_cases hj : j = i
    · subst hj
      rw [setStage_stage_self]
      exact ⟨hinside, hshedding⟩
    · rw [setStage_stage_of_ne hj]
      exact ⟨rfl, rfl⟩
  refine ⟨fun hcap j => ?_, fun j => ?_, hs.uncounted⟩
  · rw [(hkind j).1]
    exact hs.permits hcap j
  · rw [(hkind j).2]
    exact hs.rejected j

omit [DecidableEq ι] in
/-- A request in front of the counter is not counted. -/
theorem Counts.not_mem (hs : s.Counts limits) (hinside : (s.stage i).isInside = false)
    (hshedding : (s.stage i).isShedding = false) :
    i ∉ s.inflight.permits ∧ i ∉ s.inflight.rejected := by
  refine ⟨fun hi => ?_, fun hi => ?_⟩
  · by_cases hcap : limits.inflightMax.toNat = 0
    · rw [hs.uncounted hcap] at hi
      exact absurd hi (Finset.notMem_empty i)
    · rw [hs.permits hcap, hinside] at hi
      cases hi
  · rw [hs.rejected, hshedding] at hi
    cases hi

/-- What an arrival does to the counter. -/
theorem arrive_cases (limits : LimitsConfig) (inflight : Inflight ℕ ι) (i : ι) :
    (limits.inflightMax.toNat = 0 ∧ inflight.arrive .natural limits i = inflight) ∨
      limits.inflightMax.toNat ≠ 0 ∧ ∃ counter,
        inflight.arrive .natural limits i =
            { inflight with counter, rejected := insert i inflight.rejected } ∨
          inflight.arrive .natural limits i =
            { inflight with counter, permits := insert i inflight.permits } := by
  unfold Inflight.arrive
  dsimp only
  split
  next hcap => exact .inl ⟨hcap, rfl⟩
  next hcap =>
    split
    · exact .inr ⟨hcap, _, .inl rfl⟩
    · exact .inr ⟨hcap, _, .inr rfl⟩

/-- A request that is counted is inside, or has found the cap reached. -/
theorem Counts.count (hs : s.Counts limits) (h : s.stage i = .entered) :
    LoadShed.Step .natural limits s.inflight (.arrive i) (s.count limits i).inflight ∧
      (s.count limits i).Counts limits := by
  obtain ⟨hpermits, hrejected⟩ := @Counts.not_mem _ s i limits hs (by rw [h]; rfl) (by rw [h]; rfl)
  refine ⟨.arrive hpermits hrejected, ?_⟩
  have hother : ∀ j, j ≠ i → ((s.count limits i).stage j) = s.stage j :=
    fun j hj => setStage_stage_of_ne hj
  have hown : (s.count limits i).stage i =
      if i ∈ (s.inflight.arrive .natural limits i).rejected then .shedding
      else .inside .arrived := setStage_stage_self
  have hinflight : (s.count limits i).inflight = s.inflight.arrive .natural limits i := rfl
  -- without a cap it goes in uncounted; with one it is rejected or takes a permit
  rcases arrive_cases limits s.inflight i with ⟨hcap, heq⟩ | ⟨hcap, counter, heq | heq⟩ <;>
    rw [heq] at hown hinflight
  · rw [if_neg hrejected] at hown
    refine ⟨fun h => absurd hcap h, fun j => ?_, fun _ => ?_⟩
    · rw [hinflight]
      by_cases hj : j = i
      · subst hj
        simp [hown, hrejected, Stage.isShedding]
      · rw [hother j hj, hs.rejected]
    · rw [hinflight, hs.uncounted hcap]
  · rw [if_pos (Finset.mem_insert_self i _)] at hown
    refine ⟨fun _ j => ?_, fun j => ?_, fun h => absurd h hcap⟩
    · rw [hinflight]
      by_cases hj : j = i
      · subst hj
        simp [hown, hpermits, Stage.isInside]
      · rw [hother j hj, ← hs.permits hcap]
    · rw [hinflight]
      by_cases hj : j = i
      · subst hj
        simp [hown, Stage.isShedding]
      · rw [hother j hj, ← hs.rejected]
        exact Finset.mem_insert.trans (or_iff_right hj)
  · rw [if_neg hrejected] at hown
    refine ⟨fun _ j => ?_, fun j => ?_, fun h => absurd h hcap⟩
    · rw [hinflight]
      by_cases hj : j = i
      · subst hj
        simp [hown, Stage.isInside]
      · rw [hother j hj, ← hs.permits hcap]
        exact Finset.mem_insert.trans (or_iff_right hj)
    · rw [hinflight]
      by_cases hj : j = i
      · subst hj
        simp [hown, hrejected, Stage.isShedding]
      · rw [hother j hj, ← hs.rejected]

/-- A rejected request takes its count back. -/
theorem Counts.shed (hs : s.Counts limits) (h : s.stage i = .shedding) :
    LoadShed.Step .natural limits s.inflight (.shed i) (s.shed i).inflight ∧
      (s.shed i).Counts limits := by
  refine ⟨.shed ((hs.rejected i).mpr (by rw [h]; rfl)), ?_⟩
  have hkept : ({ s with inflight := s.inflight.shed .natural i } : Service ι).stage = s.stage :=
    rfl
  refine ⟨fun hcap j => ?_, fun j => ?_, hs.uncounted⟩
  · change j ∈ s.inflight.permits ↔ _
    by_cases hj : j = i
    · subst hj
      rw [hs.permits hcap, h, Service.shed, setStage_stage_self]
      rfl
    · rw [hs.permits hcap, Service.shed, setStage_stage_of_ne hj]
  · change j ∈ s.inflight.rejected.erase i ↔ _
    by_cases hj : j = i
    · subst hj
      rw [Service.shed, setStage_stage_self]
      simp [Stage.isShedding]
    · rw [Service.shed, setStage_stage_of_ne hj, ← hs.rejected]
      exact Finset.mem_erase.trans (and_iff_right hj)

/-- A request that leaves drops its permit, if it has one. -/
theorem Counts.leave {phase : RequestPhase} {move : LoadShed.Move ι} (hs : s.Counts limits)
    (h : s.stage i = .inside phase) (hinside : stage.isInside = false)
    (hshedding : stage.isShedding = false) (hmove : move = .complete i ∨ move = .cancel i) :
    Run (LoadShed.Step .natural limits) s.inflight
        (if i ∈ s.inflight.permits then [move] else [])
        ((s.release i).setStage i stage).inflight ∧
      ((s.release i).setStage i stage).Counts limits := by
  have hstage : ∀ j, ((s.release i).setStage i stage).stage j =
      if j = i then stage else s.stage j := by
    intro j
    split
    next hj => rw [hj, setStage_stage_self]
    next hj => rw [setStage_stage_of_ne hj, release_stage]
  have hrejected : ∀ j, j ∈ s.inflight.rejected ↔
      (((s.release i).setStage i stage).stage j).isShedding = true := by
    intro j
    rw [hstage, hs.rejected]
    split
    next hj => rw [hj, h, hshedding]; rfl
    next => rfl
  -- a request inside holds a permit exactly if requests are counted
  by_cases hi : i ∈ s.inflight.permits
  · have hinflight : ((s.release i).setStage i stage).inflight =
        s.inflight.dropPermit .natural i := by
      rw [release, if_pos hi]
      rfl
    have hcap : limits.inflightMax.toNat ≠ 0 := by
      intro hcap
      rw [hs.uncounted hcap] at hi
      exact absurd hi (Finset.notMem_empty i)
    have hdrop : LoadShed.Step .natural limits s.inflight move
        (s.inflight.dropPermit .natural i) := by
      rcases hmove with rfl | rfl
      · exact .complete hi
      · exact .cancel hi
    rw [hinflight, if_pos hi]
    refine ⟨.single hdrop, fun _ j => ?_, fun j => ?_, fun h => absurd h hcap⟩
    · rw [hinflight, hstage]
      change j ∈ s.inflight.permits.erase i ↔ _
      rw [Finset.mem_erase, hs.permits hcap]
      split
      next hj => simp [hj, hinside]
      next hj => simp [hj]
    · rw [hinflight]
      exact hrejected j
  · have hinflight : ((s.release i).setStage i stage).inflight = s.inflight := by
      rw [release, if_neg hi]
      rfl
    have hcap : limits.inflightMax.toNat = 0 := by
      by_contra hcap
      exact hi ((hs.permits hcap i).mpr (by rw [h]; rfl))
    rw [hinflight, if_neg hi]
    refine ⟨.nil _, fun h => absurd hcap h, fun j => ?_, fun _ => ?_⟩
    · rw [hinflight]
      exact hrejected j
    · rw [hinflight]
      exact hs.uncounted hcap

/-- A step of the service makes its moves on the counter. -/
theorem Step.refines (hs : s.Counts server.build.immutableLimits) (h : Step server s e t) :
    Run (LoadShed.Step .natural server.build.immutableLimits) s.inflight (e.moves server s)
        t.inflight ∧
      t.Counts server.build.immutableLimits := by
  cases h
  case arrive hstage _ =>
    exact ⟨.nil _, hs.setStage (by rw [hstage]; rfl) (by rw [hstage]; rfl)⟩
  case tooLarge hstage _ =>
    exact ⟨.nil _, hs.setStage (by rw [hstage]; rfl) (by rw [hstage]; rfl)⟩
  case count hstage _ => exact (hs.count hstage).imp_left .single
  case shed hstage => exact (hs.shed hstage).imp_left .single
  case work i phase hstage _ =>
    have hanswers : s.answers server i = (server.read s.ready s.live i phase).isAnswered := by
      rw [answers, hstage]
    rw [ServiceEvent.moves, hanswers]
    cases server.read s.ready s.live i phase with
    | answered answer =>
      simpa [RequestPhase.isAnswered, proceed] using hs.leave hstage rfl rfl (.inl rfl)
    | _ =>
      refine ⟨?_, hs.setStage (by rw [hstage]; rfl) (by rw [hstage]; rfl)⟩
      simpa [RequestPhase.isAnswered, proceed, Service.setStage] using Run.nil _
  case interrupt i phase dispatches interruption hstage _ =>
    cases interruption with
    | panic => exact hs.leave hstage rfl rfl (.inl rfl)
    | timeout => exact hs.leave hstage rfl rfl (.inr rfl)
  case cancel hstage _ => exact hs.leave hstage rfl rfl (.inr rfl)
  case stamp hstage =>
    exact ⟨.nil _, hs.setStage (by rw [hstage]; rfl) (by rw [hstage]; rfl)⟩
  -- the steps of the server
  case reload => exact ⟨.nil _, hs.permits, hs.rejected, hs.uncounted⟩
  case signal => exact ⟨.nil _, hs.permits, hs.rejected, hs.uncounted⟩
  case deadline => exact ⟨.nil _, hs.permits, hs.rejected, hs.uncounted⟩
  case exit => exact ⟨.nil _, hs.permits, hs.rejected, hs.uncounted⟩

/-- The counter of the service is the one that moves of the layer have led to. -/
def Tracks (server : Server ι) (_moves : List (LoadShed.Move ι)) (s : Service ι)
    (inflight : LoadShed.Inflight ℕ ι) : Prop :=
  inflight = s.inflight ∧ s.Counts server.build.immutableLimits

/-- A run of the service is a run of the load-shedding layer. -/
theorem refines_of_run (hrun : Run (Step server) (start server) es s) :
    (∃ moves, Run (LoadShed.Step .natural server.build.immutableLimits) (.start .natural) moves
        s.inflight) ∧ s.Counts server.build.immutableLimits := by
  have hstart : Tracks server [] (start server) (.start .natural) := ⟨rfl, Counts.start⟩
  have hsim : ∀ past s e t inflight, Tracks server past s inflight → Step server s e t →
      ∃ moves inflight', Run (LoadShed.Step .natural server.build.immutableLimits) inflight moves
        inflight' ∧ Tracks server (past ++ moves) t inflight' := by
    rintro past s e t _ ⟨rfl, hs⟩ hstep
    obtain ⟨hmoves, ht⟩ := hstep.refines hs
    exact ⟨_, t.inflight, hmoves, rfl, ht⟩
  obtain ⟨moves, _, hmoves, rfl, hs⟩ := hrun.simulated hsim hstart
  exact ⟨⟨moves, hmoves⟩, hs⟩

/-- However requests, reloads and the shutdown interleave: the counter of the service takes a run
of the load-shedding layer, in which every step of the service makes its moves. With a cap the
permits are held by the requests inside the layers, and these are no more than the cap; and a
service at rest counts none. -/
theorem capacity_of_run {ι : Type} [DecidableEq ι] {server : Server ι}
    {es : List (ServiceEvent ι)} {s : Service ι} (hrun : Run (Step server) (start server) es s) :
    (∃ moves, Run (LoadShed.Step .natural server.build.immutableLimits) (.start .natural) moves
      s.inflight) ∧
    (∀ e t, Step server s e t → Run (LoadShed.Step .natural server.build.immutableLimits)
      s.inflight (e.moves server s) t.inflight) ∧
    s.Counts server.build.immutableLimits ∧
    (server.build.immutableLimits.inflightMax ≠ 0 → ∀ requests : Finset ι,
      (∀ i ∈ requests, ∃ phase, s.stage i = .inside phase) →
        requests.card ≤ server.build.immutableLimits.inflightMax.toNat) ∧
    (s.Idle → s.inflight.counter = 0) := by
  obtain ⟨⟨moves, hmoves⟩, hs⟩ := refines_of_run hrun
  have hcounter : s.inflight.Accounted server.build.immutableLimits :=
    LoadShed.Inflight.accounted_start.run hmoves
  refine ⟨⟨moves, hmoves⟩, fun e t hstep => (hstep.refines hs).1, hs,
    fun hcap requests hinside => ?_, fun hidle => ?_⟩
  · have hcap' : server.build.immutableLimits.inflightMax.toNat ≠ 0 :=
      fun h => hcap (UInt32.toNat_inj.mp h)
    -- all of them hold permits
    refine (Finset.card_le_card fun i hi => ?_).trans hcounter.permits_le
    obtain ⟨phase, hphase⟩ := hinside i hi
    exact (hs.permits hcap' i).mpr (by rw [hphase]; rfl)
  · have hnone : ∀ i, i ∉ s.inflight.permits ∧ i ∉ s.inflight.rejected := by
      intro i
      have hrank := hidle i
      refine hs.not_mem ?_ ?_ <;> cases hstage : s.stage i <;>
        simp_all [Stage.rank, Stage.isInside, Stage.isShedding]
    rw [hcounter.counter_eq, LoadShed.Inflight.inside,
      Finset.eq_empty_of_forall_notMem fun i => (hnone i).1,
      Finset.eq_empty_of_forall_notMem fun i => (hnone i).2]
    rfl

/-- A page's request is inside with a permit, and gives it back when it takes too long. -/
theorem capacity_of_run_pages :
    ∃ t, Step pagesServer pagesCounted (.interrupt .timeout 0) t ∧
      0 ∈ pagesCounted.inflight.permits ∧
      Run (LoadShed.Step .natural pagesServer.build.immutableLimits) pagesCounted.inflight
        [.cancel 0] t.inflight ∧
      t.inflight.permits = ∅ := by
  obtain ⟨hrun, hstage⟩ := run_pagesCounted
  have hstep : Step pagesServer pagesCounted (.interrupt .timeout 0) _ :=
    .interrupt .timeout hstage (.inl rfl)
  obtain ⟨-, hmoves, hcounts, -⟩ := capacity_of_run hrun
  have hpermit : 0 ∈ pagesCounted.inflight.permits :=
    (hcounts.permits (by decide +kernel) 0).mpr (by rw [hstage]; rfl)
  have hleaves := hmoves _ _ hstep
  rw [ServiceEvent.moves, if_pos hpermit] at hleaves
  have hreleased : (pagesCounted.release 0).inflight.permits = ∅ := by decide +kernel
  exact ⟨_, hstep, hpermit, hleaves, hreleased⟩

end Service

end Corx
