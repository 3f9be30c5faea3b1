import Mathlib.Data.List.Induction
import Mathlib.Logic.Relation

/-!
# Labelled runs of a transition relation

A transition relation `step : σ → ε → σ → Prop` relates a state, a label and a successor
state. `Run step s es t` is a finite run from `s` to `t` whose labels are `es`, in order.

The rules below are the ones an invariant proof needs: runs compose and split
(`Run.append`, `Run.split`), a run can be extended or read from its last step
(`Run.snoc`, `Run.of_snoc`), and what every step preserves every run preserves
(`Run.invariant`; `Run.history_invariant` when the property speaks of the past labels as
well). `Run.always_iff_eachStep` turns a property that a step keeps exactly under a condition
into an equivalence about whole runs. `Run.mono` passes from a run to the same run of a larger
relation, and `Run.simulated` from a run to one of another system that keeps up with it.

A deterministic system `next : σ → ε → σ` has one run for given labels, the fold of them
(`Run.iff_foldl`); `Run.Throughout` is what holds in every state along it.
-/

/-- Runs of `step`: the labels of the steps taken, first step first. -/
inductive Run {σ ε : Type*} (step : σ → ε → σ → Prop) : σ → List ε → σ → Prop
  | nil (s : σ) : Run step s [] s
  | cons {s s' t : σ} {e : ε} {es : List ε} :
      step s e s' → Run step s' es t → Run step s (e :: es) t

namespace Run

variable {σ ε : Type*} {step : σ → ε → σ → Prop} {s t u : σ} {e : ε} {es fs : List ε}

/-- One step is a run. -/
theorem single (h : step s e t) : Run step s [e] t :=
  cons h (nil t)

/-- Two runs that meet compose. -/
theorem append (h₁ : Run step s es t) (h₂ : Run step t fs u) : Run step s (es ++ fs) u := by
  induction h₁ with
  | nil _ => exact h₂
  | cons hstep _ ih => exact cons hstep (ih h₂)

/-- A run may be extended by one step at its end. -/
theorem snoc (h₁ : Run step s es t) (h₂ : step t e u) : Run step s (es ++ [e]) u :=
  h₁.append (single h₂)

/-- A run over a concatenation passes through a state between the two parts. -/
theorem split (h : Run step s (es ++ fs) u) : ∃ t, Run step s es t ∧ Run step t fs u := by
  induction es generalizing s with
  | nil => exact ⟨s, nil s, h⟩
  | cons e es ih =>
    cases h with
    | cons hstep hrest =>
      obtain ⟨t, h₁, h₂⟩ := ih hrest
      exact ⟨t, cons hstep h₁, h₂⟩

/-- The only run without labels stays where it is. -/
theorem eq_of_nil (h : Run step s [] t) : s = t := by
  cases h with
  | nil _ => rfl

/-- A run of one label is one step. -/
theorem step_of_single (h : Run step s [e] t) : step s e t := by
  cases h with
  | cons hstep hrest => exact hrest.eq_of_nil ▸ hstep

/-- The first step of a nonempty run. -/
theorem of_cons (h : Run step s (e :: es) u) : ∃ t, step s e t ∧ Run step t es u := by
  cases h with
  | cons hstep hrest => exact ⟨_, hstep, hrest⟩

/-- The last step of a nonempty run. -/
theorem of_snoc (h : Run step s (es ++ [e]) u) : ∃ t, Run step s es t ∧ step t e u := by
  obtain ⟨t, h₁, h₂⟩ := h.split
  exact ⟨t, h₁, h₂.step_of_single⟩

/-- The invariant rule: a property that every step preserves holds at the end of every run
that starts in it. -/
theorem invariant {P : σ → Prop} (hstep : ∀ s e t, P s → step s e t → P t)
    (h : Run step s es t) (hs : P s) : P t := by
  induction h with
  | nil _ => exact hs
  | cons hse _ ih => exact ih (hstep _ _ _ hs hse)

/-- The invariant rule for runs whose labels all meet a condition. -/
theorem invariant_of_labels {P : σ → Prop} {Q : ε → Prop}
    (hstep : ∀ s e t, P s → Q e → step s e t → P t)
    (h : Run step s es t) (hes : ∀ e ∈ es, Q e) (hs : P s) : P t := by
  induction h with
  | nil _ => exact hs
  | @cons s s' t e es hse _ ih =>
    exact ih (fun e' he' => hes e' (List.mem_cons_of_mem _ he'))
      (hstep _ _ _ hs (hes e List.mem_cons_self) hse)

/-- The invariant rule for a property that also speaks of the labels so far. -/
theorem history_invariant {P : List ε → σ → Prop}
    (hstep : ∀ es s e t, P es s → step s e t → P (es ++ [e]) t)
    (h : Run step s es t) (hs : P [] s) : P es t := by
  -- the labels before the run accumulate in front of those of the run
  suffices hprefix : ∀ past, P past s → P (past ++ es) t from hprefix [] hs
  clear hs
  induction h with
  | nil _ =>
    intro past hpast
    rwa [List.append_nil]
  | @cons s s' t e es hse _ ih =>
    intro past hpast
    rw [List.append_cons]
    exact ih (past ++ [e]) (hstep past s e s' hpast hse)

/-- A property holds in every state along the runs from `s` to `t` with the given labels. -/
def Always (step : σ → ε → σ → Prop) (s : σ) (es : List ε) (t : σ) (P : σ → Prop) : Prop :=
  ∀ past rest u, es = past ++ rest → Run step s past u → Run step u rest t → P u

/-- A condition on a state and a label holds at every step along the runs from `s` to `t` with
the given labels. -/
def EachStep (step : σ → ε → σ → Prop) (s : σ) (es : List ε) (t : σ) (C : σ → ε → Prop) : Prop :=
  ∀ past e rest u, es = past ++ e :: rest → Run step s past u → Run step u (e :: rest) t → C u e

/-- What holds along a run holds at its end. -/
theorem Always.last {P : σ → Prop} (halways : Always step s es t P) (h : Run step s es t) : P t :=
  halways es [] t (List.append_nil es).symm h (nil t)

/-- A weaker condition holds at every step, too. -/
theorem EachStep.mono {C D : σ → ε → Prop} (h : EachStep step s es t C)
    (hCD : ∀ u e, C u e → D u e) : EachStep step s es t D :=
  fun past e rest u hes hpast hrest => hCD u e (h past e rest u hes hpast hrest)

/-- A condition holds at every step of a run without steps. -/
theorem EachStep.nil {C : σ → ε → Prop} : EachStep step s [] t C := by
  intro past e rest u h
  cases past <;> cases h

/-- A condition holds at every step if it holds at the first one and at those after it. -/
theorem EachStep.cons {C : σ → ε → Prop} (hC : C s e)
    (hrest : ∀ u, step s e u → EachStep step u es t C) : EachStep step s (e :: es) t C := by
  intro past e' rest u heq hpast hfuture
  cases past with
  | nil =>
    obtain ⟨rfl, rfl⟩ := List.cons.inj heq
    rwa [← hpast.eq_of_nil]
  | cons f past =>
    obtain ⟨rfl, rfl⟩ := List.cons.inj heq
    obtain ⟨v, hv, hvu⟩ := hpast.of_cons
    exact hrest v hv past e' rest u rfl hvu hfuture

/-- The first step of a run meets a condition that every step meets, and so do the others. -/
theorem EachStep.of_cons {C : σ → ε → Prop} {u : σ} (h : EachStep step s (e :: es) t C)
    (hse : step s e u) (hrun : Run step u es t) : C s e ∧ EachStep step u es t C := by
  refine ⟨h [] e es s rfl (.nil s) (.cons hse hrun), ?_⟩
  intro past e' rest v heq hpast hfuture
  exact h (e :: past) e' rest v (by rw [heq, List.cons_append]) (.cons hse hpast) hfuture

/-- Where a step keeps a property exactly under a condition, the property holds along a run
exactly if the condition holds at every step. -/
theorem always_iff_eachStep {P : σ → Prop} {C : σ → ε → Prop}
    (hstep : ∀ s e t, P s → step s e t → (P t ↔ C s e)) (hs : P s) :
    Always step s es t P ↔ EachStep step s es t C := by
  constructor
  · rintro halways past e rest u rfl hpast hrest
    have hu : P u := halways past (e :: rest) u rfl hpast hrest
    obtain ⟨v, hv, hvt⟩ := hrest.of_cons
    have hpast' : Run step s (past ++ [e]) v := hpast.snoc hv
    exact (hstep u e v hu hv).mp (halways (past ++ [e]) rest v (by simp) hpast' hvt)
  · intro hsteps past
    -- induction on the past, from its end: the last step of the past met the condition
    induction past using List.reverseRecOn with
    | nil =>
      intro rest u _ hpast _
      rwa [← hpast.eq_of_nil]
    | append_singleton past e ih =>
      rintro rest v rfl hpast hrest
      obtain ⟨u, hu, huv⟩ := hpast.of_snoc
      have hPu : P u := ih (e :: rest) u (by simp) hu (cons huv hrest)
      exact (hstep u e v hPu huv).mpr (hsteps past e rest u (by simp) hu (cons huv hrest))

/-- A run whose labels stand for others is a run with those. -/
theorem map_labels {ε' : Type*} {step : σ → ε' → σ → Prop} {f : ε → ε'}
    (h : Run (fun s e t => step s (f e) t) s es t) : Run step s (es.map f) t := by
  induction h with
  | nil s => exact nil s
  | cons hse _ ih => exact cons hse ih

/-- The rule of forward simulation. Two systems are related, as the other one's moves so far tell;
if the other one answers every step by moves that keep them related, it does so along every run. -/
theorem simulated {τ δ : Type*} {step' : τ → δ → τ → Prop} {R : List δ → σ → τ → Prop}
    (hsim : ∀ past s e t u, R past s u → step s e t →
      ∃ moves v, Run step' u moves v ∧ R (past ++ moves) t v)
    (h : Run step s es t) {past : List δ} {u : τ} (hR : R past s u) :
    ∃ moves v, Run step' u moves v ∧ R (past ++ moves) t v := by
  induction h generalizing past u with
  | nil s => exact ⟨[], u, nil u, by rwa [List.append_nil]⟩
  | cons hse _ ih =>
    obtain ⟨first, v, hfirst, hv⟩ := hsim _ _ _ _ _ hR hse
    obtain ⟨rest, w, hrest, hw⟩ := ih hv
    exact ⟨first ++ rest, w, hfirst.append hrest, by rwa [← List.append_assoc]⟩

/-- A run is also a run of every larger relation. -/
theorem mono {step' : σ → ε → σ → Prop} (hle : ∀ s e t, step s e t → step' s e t)
    (h : Run step s es t) : Run step' s es t := by
  induction h with
  | nil s => exact nil s
  | cons hse _ ih => exact cons (hle _ _ _ hse) ih

/-! ## Deterministic systems -/

variable {next : σ → ε → σ} {P Q : σ → Prop}

/-- A run of a deterministic system is the fold of its labels. -/
theorem iff_foldl : Run (fun s e t => t = next s e) s es t ↔ t = es.foldl next s := by
  constructor
  · intro h
    induction h with
    | nil => rfl
    | cons hstep _ ih => rw [ih, hstep, List.foldl_cons]
  · rintro rfl
    induction es generalizing s with
    | nil => exact nil s
    | cons e es ih => exact cons rfl ih

/-- A property holds in every state along a run of a deterministic system. -/
def Throughout (next : σ → ε → σ) (P : σ → Prop) (s : σ) (es : List ε) : Prop :=
  ∀ past, past <+: es → P (past.foldl next s)

/-- What holds along a run holds where it starts. -/
theorem Throughout.head (h : Throughout next P s es) : P s :=
  h [] List.nil_prefix

/-- What holds along a run holds along what follows its first step. -/
theorem Throughout.tail (h : Throughout next P s (e :: es)) : Throughout next P (next s e) es :=
  fun past hpast => h (e :: past) (List.cons_prefix_cons.mpr ⟨rfl, hpast⟩)

/-- What holds along a run holds along what comes before its last step, and at the end of that. -/
theorem Throughout.init (h : Throughout next P s (es ++ [e])) :
    Throughout next P s es ∧ P (es.foldl next s) :=
  ⟨fun past hpast => h past (hpast.trans (List.prefix_append _ _)), h es (List.prefix_append _ _)⟩

/-- The induction rule: a property holds along a run if it holds where the run starts and every
step keeps it that the run takes between states with another property. -/
theorem Throughout.induct (hQ : Throughout next Q s es) (hs : P s)
    (hstep : ∀ s, ∀ e ∈ es, P s → Q s → Q (next s e) → P (next s e)) :
    Throughout next P s es := by
  intro past
  -- induction on the past, from its end
  induction past using List.reverseRecOn with
  | nil => exact fun _ => hs
  | append_singleton past e ih =>
    intro hpast
    have hpast' : past <+: es := (List.prefix_append past [e]).trans hpast
    have hafter := hQ (past ++ [e]) hpast
    rw [List.foldl_append, List.foldl_cons, List.foldl_nil] at hafter ⊢
    exact hstep _ e (hpast.subset (by simp)) (ih hpast') (hQ past hpast') hafter

end Run
