import Mathlib.Data.List.Basic

/-!
# Layered settings

Settings that are put together from several layers. A `Layer` holds a `Setting` for each of its
keys: a value, or a table of further settings. Merging lays one layer over another: tables are
merged key by key, and otherwise the upper setting replaces the lower one. Nothing that is set in
a layer loses its key by what is laid over it (`Layer.mem_keys_merge`).
-/

/-- A value, or a table of settings by their keys. -/
inductive Setting (κ α : Type*)
  | value (a : α)
  | table (entries : List (κ × Setting κ α))

/-- The table at the top of a layer. -/
abbrev Layer (κ α : Type*) := List (κ × Setting κ α)

namespace Layer

variable {κ α : Type*}

/-- The keys of a layer. -/
def keys (layer : Layer κ α) : List κ :=
  layer.map Prod.fst

/-- A setting alone, under a path of keys. -/
def nest (key : κ) : List κ → Setting κ α → Layer κ α
  | [], setting => [(key, setting)]
  | next :: path, setting => [(key, .table (nest next path setting))]

variable [DecidableEq κ]

/-- Replace the setting of a key, or add it at the end. -/
def set (key : κ) (setting : Setting κ α) : Layer κ α → Layer κ α
  | [] => [(key, setting)]
  | (key', setting') :: rest =>
    if key' = key then (key, setting) :: rest else (key', setting') :: set key setting rest

mutual

/-- Lay a setting over another one. -/
def mergeSetting : Setting κ α → Setting κ α → Setting κ α
  | .table lower, .table upper => .table (merge lower upper)
  | .value _, .table upper => .table upper
  | _, .value a => .value a

/-- Lay a layer over another one. -/
def merge (lower : Layer κ α) : Layer κ α → Layer κ α
  | [] => lower
  | (key, setting) :: upper =>
    merge (set key (match lower.lookup key with
      | some below => mergeSetting below setting
      | none => setting) lower) upper

end

variable {layer lower upper : Layer κ α} {key key' : κ} {setting : Setting κ α}

omit [DecidableEq κ] in
/-- A setting alone has the first key of its path. -/
@[simp]
theorem keys_nest (path : List κ) : (nest key path setting).keys = [key] := by
  cases path <;> rfl

/-- Setting a key adds it to the keys. -/
theorem mem_keys_set : key' ∈ (set key setting layer).keys ↔ key' = key ∨ key' ∈ layer.keys := by
  induction layer with
  | nil => simp [set, keys]
  | cons entry rest ih =>
    obtain ⟨first, setting'⟩ := entry
    unfold set
    by_cases hfirst : first = key
    · simp [hfirst, keys]
    · rw [if_neg hfirst]
      simp only [keys, List.map_cons, List.mem_cons] at ih ⊢
      rw [ih, or_left_comm]

/-- A merged layer has the keys of both. -/
theorem mem_keys_merge : key ∈ (lower.merge upper).keys ↔ key ∈ lower.keys ∨ key ∈ upper.keys := by
  induction upper generalizing lower with
  | nil => simp [merge, keys]
  | cons entry upper ih =>
    obtain ⟨first, setting⟩ := entry
    rw [merge, ih, mem_keys_set]
    simp only [keys, List.map_cons, List.mem_cons]
    rw [or_assoc, or_left_comm]

/-- Layers laid one over the other have the keys of the lowest and of each of the others. -/
theorem mem_keys_foldl_merge {ι : Type*} {f : ι → Layer κ α} {is : List ι} :
    key ∈ (is.foldl (fun layer i => layer.merge (f i)) lower).keys ↔
      key ∈ lower.keys ∨ ∃ i ∈ is, key ∈ (f i).keys := by
  induction is generalizing lower with
  | nil => simp
  | cons i is ih =>
    rw [List.foldl_cons, ih, mem_keys_merge, List.exists_mem_cons_iff, or_assoc]

end Layer
