import Corx.Base.Run

/-!
# Shared caches

A cache stands in front of an origin. It may keep any response that the origin has given, forget
any, and answer a request with a stored response to another one where `selects` lets it. The origin
is a transition relation of its own that goes on meanwhile; `given s i r` says that it has answered
the request `i` with `r`.

A cache is transparent for a property of responses that the origin guarantees and that survives
being selected (`Transparent`). Then whatever is handed out from the cache is meant for the request
it is handed out to (`Transparent.handed_of_run`), however long it was stored and however the origin
has changed.
-/

namespace SharedCache

variable {σ ε ι ρ : Type*}

/-- An origin with a cache in front: what is stored for which request, and what has been handed
out to which. -/
structure State (σ ι ρ : Type*) where
  origin : σ
  stored : List (ι × ρ)
  handed : List (ι × ρ)

/-- What happens to an origin with a cache. -/
inductive Event (ε ι ρ : Type*)
  | origin (e : ε)
  | store (i : ι) (r : ρ)
  | reuse (i j : ι) (r : ρ)
  | evict (kept : List (ι × ρ))

/-- An origin with an empty cache. -/
def State.start (s : σ) : State σ ι ρ where
  origin := s
  stored := []
  handed := []

/-- One step of an origin with a cache. -/
inductive Step (step : σ → ε → σ → Prop) (given : σ → ι → ρ → Prop) (selects : ρ → ι → ι → Prop) :
    State σ ι ρ → Event ε ι ρ → State σ ι ρ → Prop
  | origin {s : State σ ι ρ} {e : ε} {t : σ} : step s.origin e t →
      Step step given selects s (.origin e) { s with origin := t }
  | store {s : State σ ι ρ} {i : ι} {r : ρ} : given s.origin i r →
      Step step given selects s (.store i r) { s with stored := (i, r) :: s.stored }
  | reuse {s : State σ ι ρ} {i j : ι} {r : ρ} : (i, r) ∈ s.stored → selects r i j →
      Step step given selects s (.reuse i j r) { s with handed := (j, r) :: s.handed }
  | evict {s : State σ ι ρ} {kept : List (ι × ρ)} : kept ⊆ s.stored →
      Step step given selects s (.evict kept) { s with stored := kept }

variable {step : σ → ε → σ → Prop} {given : σ → ι → ρ → Prop} {selects : ρ → ι → ι → Prop}
  {Good : σ → Prop} {Meant : σ → ι → ρ → Prop} {s t : State σ ι ρ} {s₀ : σ}
  {es : List (Event ε ι ρ)}

/-- The origin goes on whatever the cache holds. -/
theorem run_origin {s₀ t₀ : σ} {es : List ε} (hrun : Run step s₀ es t₀)
    (stored handed : List (ι × ρ)) :
    Run (Step step given selects) ⟨s₀, stored, handed⟩ (es.map .origin) ⟨t₀, stored, handed⟩ := by
  induction hrun with
  | nil _ => exact .nil _
  | cons hstep _ ih => exact .cons (.origin hstep) ih

/-- In good states the origin means its responses for their requests, and what is meant for a
request is meant for every other one that it may be selected for. -/
structure Transparent (step : σ → ε → σ → Prop) (given : σ → ι → ρ → Prop)
    (selects : ρ → ι → ι → Prop) (Good : σ → Prop) (Meant : σ → ι → ρ → Prop) : Prop where
  good : ∀ {s : σ} {e : ε} {t : σ}, Good s → step s e t → Good t
  given : ∀ {s : σ} {i : ι} {r : ρ}, Good s → given s i r → Meant s i r
  kept : ∀ {s : σ} {e : ε} {t : σ} {i : ι} {r : ρ}, step s e t → Meant s i r → Meant t i r
  selects : ∀ {s : σ} {i j : ι} {r : ρ}, Meant s i r → selects r i j → Meant s j r

/-- What is stored and what was handed out is meant for its request. -/
structure Invariant (Good : σ → Prop) (Meant : σ → ι → ρ → Prop) (s : State σ ι ρ) : Prop where
  good : Good s.origin
  stored : ∀ p ∈ s.stored, Meant s.origin p.1 p.2
  handed : ∀ p ∈ s.handed, Meant s.origin p.1 p.2

namespace Transparent

/-- A step keeps the invariant. -/
theorem invariant_step (h : Transparent step given selects Good Meant) {e : Event ε ι ρ}
    (hs : Invariant Good Meant s) (hstep : Step step given selects s e t) :
    Invariant Good Meant t := by
  cases hstep with
  -- the cache stands still while the origin moves, so what it holds has to keep its meaning
  | origin hstep =>
    exact
      { good := h.good hs.good hstep
        stored := fun p hp => h.kept hstep (hs.stored p hp)
        handed := fun p hp => h.kept hstep (hs.handed p hp) }
  | store hgiven =>
    have hmeant := h.given hs.good hgiven
    exact { hs with stored := List.forall_mem_cons.mpr ⟨hmeant, hs.stored⟩ }
  | reuse hstored hselects =>
    have hmeant := h.selects (hs.stored _ hstored) hselects
    exact { hs with handed := List.forall_mem_cons.mpr ⟨hmeant, hs.handed⟩ }
  | evict hkept => exact { hs with stored := fun p hp => hs.stored p (hkept hp) }

/-- Whatever a run hands out from the cache is meant for the request it is handed out to. -/
theorem handed_of_run (h : Transparent step given selects Good Meant) (hs₀ : Good s₀)
    (hrun : Run (Step step given selects) (.start s₀) es t) :
    ∀ p ∈ t.handed, Meant t.origin p.1 p.2 := by
  have hstart : Invariant Good Meant (State.start s₀) :=
    { good := hs₀
      stored := List.forall_mem_nil _
      handed := List.forall_mem_nil _ }
  exact (hrun.invariant (fun _ _ _ hs hstep => h.invariant_step hs hstep) hstart).handed

end Transparent

end SharedCache
