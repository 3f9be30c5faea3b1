import Mathlib.Data.Set.Function
import Mathlib.Order.Defs.PartialOrder

/-!
# Multimaps

A `MultiMap κ ν` holds for every key the list of its values, in the order in which they were
added. The order of different keys is not represented, so two multimaps are equal when they
hold the same values at every key.

Two relations compare multimaps. `m ≤ n` says that every entry of `m` is an entry of `n`.
`AgreeOff s m n` says that `m` and `n` differ at keys of `s` only; it is the indistinguishability
of a two-run argument, which ends in equality when the keys of `s` are removed
(`AgreeOff.eq_of_removed`).
-/

/-- For every key its values, in order. -/
@[ext]
structure MultiMap (κ ν : Type*) where
  getAll : κ → List ν

namespace MultiMap

variable {κ ν : Type*}

/-- No entries. -/
def empty : MultiMap κ ν where
  getAll _ := []

/-- The first value of a key. -/
def get (m : MultiMap κ ν) (k : κ) : Option ν :=
  (m.getAll k).head?

/-- The key has a value. -/
def containsKey (m : MultiMap κ ν) (k : κ) : Bool :=
  !(m.getAll k).isEmpty

/-- Overwrite the keys that `n` has by their values in `n`. -/
def extend (m n : MultiMap κ ν) : MultiMap κ ν where
  getAll k := if (n.getAll k).isEmpty then m.getAll k else n.getAll k

/-- Every entry of `m` is an entry of `n`. -/
instance : Preorder (MultiMap κ ν) where
  le m n := ∀ k v, v ∈ m.getAll k → v ∈ n.getAll k
  le_refl _ _ _ h := h
  le_trans _ _ _ h h' k v hv := h' k v (h k v hv)

/-- The two multimaps differ at keys of `s` only. -/
def AgreeOff (s : Set κ) (m n : MultiMap κ ν) : Prop :=
  Set.EqOn m.getAll n.getAll sᶜ

variable {m n : MultiMap κ ν} {k k' : κ} {v : ν}

/-- Extending the empty multimap is copying. -/
@[simp]
theorem empty_extend : (empty : MultiMap κ ν).extend n = n := by
  ext1
  funext k
  by_cases h : n.getAll k = [] <;> simp [extend, empty, h]

/-- Agreeing multimaps have the same first value at a key outside `s`. -/
theorem AgreeOff.get_eq {s : Set κ} (h : AgreeOff s m n) (hk : k ∉ s) : m.get k = n.get k := by
  rw [get, h hk, get]

/-! ## Changing the values of a key -/

variable [DecidableEq κ]

/-- Replace the values of a key by one value. -/
def insert (m : MultiMap κ ν) (k : κ) (v : ν) : MultiMap κ ν where
  getAll := Function.update m.getAll k [v]

/-- Add a value to a key, after those it has. -/
def append (m : MultiMap κ ν) (k : κ) (v : ν) : MultiMap κ ν where
  getAll := Function.update m.getAll k (m.getAll k ++ [v])

/-- Remove every value of a key. -/
def remove (m : MultiMap κ ν) (k : κ) : MultiMap κ ν where
  getAll := Function.update m.getAll k []

/-- Remove every value of each of the keys. -/
def removeAll (m : MultiMap κ ν) (ks : List κ) : MultiMap κ ν :=
  ks.foldl remove m

/-- The multimap of a list of entries. -/
def ofList (entries : List (κ × ν)) : MultiMap κ ν :=
  entries.foldl (fun m e => m.append e.1 e.2) empty

/-- Insertion determines the values of its key and leaves the others. -/
@[simp]
theorem getAll_insert : (m.insert k v).getAll k' = if k' = k then [v] else m.getAll k' :=
  Function.update_apply ..

/-- Removal leaves its key without values. -/
@[simp]
theorem getAll_remove : (m.remove k).getAll k' = if k' = k then [] else m.getAll k' :=
  Function.update_apply ..

/-- Removal of several keys leaves those without values. -/
@[simp]
theorem getAll_removeAll (ks : List κ) :
    (m.removeAll ks).getAll k' = if k' ∈ ks then [] else m.getAll k' := by
  induction ks generalizing m with
  | nil => rfl
  | cons k ks ih =>
    rw [removeAll, List.foldl_cons, ← removeAll, ih, getAll_remove]
    -- `k'` is removed first, later, or not at all
    by_cases hks : k' ∈ ks <;> by_cases hk : k' = k <;> simp [hks, hk]

/-- Removing keys leaves some of the entries. -/
theorem removeAll_le (m : MultiMap κ ν) (ks : List κ) : m.removeAll ks ≤ m := by
  intro k v hv
  rw [getAll_removeAll] at hv
  split at hv
  · cases hv
  · exact hv

/-- Removing every key of `s` makes agreeing multimaps equal. -/
theorem AgreeOff.eq_of_removed {s : Set κ} (h : AgreeOff s m n) {ks : List κ}
    (hs : ∀ k ∈ s, k ∈ ks) :
    m.removeAll ks = n.removeAll ks := by
  ext1
  funext k
  rw [getAll_removeAll, getAll_removeAll]
  -- a key of `s` is empty on both sides, any other has the same values
  by_cases hk : k ∈ s
  · rw [if_pos (hs k hk), if_pos (hs k hk)]
  · rw [h hk]

end MultiMap
