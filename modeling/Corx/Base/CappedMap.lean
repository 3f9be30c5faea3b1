import Mathlib.Data.List.AList

/-!
# Capped removal from a keyed map

A concurrent hash map offers `retain`: one pass over the entries, in an order the map
chooses, that keeps or drops each of them. A cache that is over its capacity uses it with a
counter: it drops matching entries until the excess is gone. `List.dropMatching` is that pass
over a list of entries and `AList.dropMatching` the same pass over a map with unique keys.
The order of the entries is the order of the pass, so a statement for every permutation of
the entries is a statement for every iteration order.

The facts that matter to a user of the map: what is kept is a sublist
(`List.dropMatching_sublist`), only matching entries are dropped
(`List.mem_dropMatching_of_not`), the number dropped is the smaller of the excess and the
number of matches (`List.length_dropMatching`), and a key keeps its value or loses a matching one
(`AList.lookup_dropMatching`).
-/

namespace List

variable {γ : Type*} (excess : ℕ) (pred : γ → Bool)

/-- One pass of a capped `retain`: `removed` entries have been dropped so far, and an entry
is kept once `excess` of them are, or when it does not match. -/
def dropMatching : ℕ → List γ → List γ
  | _, [] => []
  | removed, x :: xs =>
    if excess ≤ removed || !pred x then x :: dropMatching removed xs
    else dropMatching (removed + 1) xs

/-- The pass keeps a sublist of the entries. -/
theorem dropMatching_sublist (removed : ℕ) (l : List γ) :
    (dropMatching excess pred removed l).Sublist l := by
  induction l generalizing removed with
  | nil => exact List.Sublist.refl _
  | cons x xs ih =>
    rw [dropMatching]
    split
    · exact (ih removed).cons_cons x
    · exact (ih (removed + 1)).cons x

/-- An entry that does not match is kept. -/
theorem mem_dropMatching_of_not {removed : ℕ} {l : List γ} {x : γ} (hx : x ∈ l)
    (hpred : pred x = false) : x ∈ dropMatching excess pred removed l := by
  induction l generalizing removed with
  | nil => exact absurd hx (List.not_mem_nil)
  | cons y ys ih =>
    rw [dropMatching]
    rcases List.mem_cons.mp hx with rfl | hmem
    · simp [hpred]
    · split
      · exact List.mem_cons_of_mem _ (ih hmem)
      · exact ih hmem

/-- The pass drops the smaller of what is left of the excess and the number of matches. -/
theorem length_dropMatching (removed : ℕ) (l : List γ) :
    (dropMatching excess pred removed l).length + min (excess - removed) (l.countP pred) =
      l.length := by
  induction l generalizing removed with
  | nil => simp [dropMatching]
  | cons x xs ih =>
    rw [dropMatching]
    split
    next h =>
      have hkeep := ih removed
      -- the entry is kept: the excess is gone, or it does not match
      rcases Bool.or_eq_true_iff.mp h with hcap | hpred
      · have hzero : excess - removed = 0 := by simpa [Nat.sub_eq_zero_iff_le] using hcap
        rw [hzero] at hkeep ⊢
        simpa using hkeep
      · have hpred' : pred x = false := by simpa using hpred
        simp only [List.length_cons, List.countP_cons, hpred', Bool.false_eq_true, ↓reduceIte,
          Nat.add_zero]
        omega
    next h =>
      -- the entry is dropped, so one of the excess is used up by one of the matches
      have hdrop := ih (removed + 1)
      have hlt : removed < excess := by
        by_contra hle
        exact h (by simp [Nat.le_of_not_lt hle])
      have hpred : pred x = true := by
        by_contra hne
        exact h (by simp [Bool.not_eq_true _ ▸ hne])
      simp only [List.length_cons, List.countP_cons, hpred, ↓reduceIte]
      omega

/-- Once the excess is gone the pass keeps everything. -/
theorem dropMatching_of_le {removed : ℕ} (h : excess ≤ removed) (l : List γ) :
    dropMatching excess pred removed l = l := by
  induction l with
  | nil => rfl
  | cons x xs ih => rw [dropMatching, ih, if_pos (by simp [h])]

/-- The pass leaves the entries of any kind without matches as they are. -/
theorem filter_dropMatching {keep : γ → Bool} (hkeep : ∀ x, keep x = true → pred x = false)
    (removed : ℕ) (l : List γ) :
    (dropMatching excess pred removed l).filter keep = l.filter keep := by
  induction l generalizing removed with
  | nil => rfl
  | cons x xs ih =>
    rw [dropMatching]
    split
    next => rw [filter_cons, filter_cons, ih]
    next h =>
      have hdropped : keep x = false := by
        by_contra hx
        exact h (by simp [hkeep x (by simpa using hx)])
      rw [ih, filter_cons_of_neg (by simp [hdropped])]

/-- If the excess outnumbers the matches, no match is left. -/
theorem not_pred_of_mem_dropMatching {removed : ℕ} {l : List γ}
    (hexcess : removed + l.countP pred ≤ excess) :
    ∀ x ∈ dropMatching excess pred removed l, pred x = false := by
  induction l generalizing removed with
  | nil => exact fun x hx => absurd hx not_mem_nil
  | cons x xs ih =>
    rw [dropMatching]
    cases hx : pred x with
    | false =>
      rw [countP_cons_of_neg (by simp [hx])] at hexcess
      rw [if_pos (by simp)]
      intro y hy
      rcases mem_cons.mp hy with rfl | hy
      · exact hx
      · exact ih hexcess y hy
    | true =>
      rw [countP_cons_of_pos hx] at hexcess
      rw [if_neg (by simp; omega)]
      exact ih (by omega)

/-! ### Shedding down to a capacity -/

/-- The pass with the excess over a capacity. -/
def shedTo (cap : ℕ) (l : List γ) : List γ :=
  dropMatching (l.length - cap) pred 0 l

variable {pred} {cap : ℕ}

/-- Within the capacity nothing is shed. -/
theorem shedTo_of_length_le {l : List γ} (h : l.length ≤ cap) : shedTo pred cap l = l :=
  dropMatching_of_le _ _ (by omega) l

/-- What is left is a sublist. -/
theorem shedTo_sublist (l : List γ) : (shedTo pred cap l).Sublist l :=
  dropMatching_sublist _ _ 0 l

/-- Never is more shed than the excess. -/
theorem le_length_shedTo {l : List γ} (h : cap ≤ l.length) : cap ≤ (shedTo pred cap l).length := by
  have hlength := length_dropMatching (l.length - cap) pred 0 l
  rw [shedTo]
  omega

/-- If more than the capacity is left, no match is. -/
theorem not_pred_of_mem_shedTo {l : List γ} (h : cap < (shedTo pred cap l).length) :
    ∀ x ∈ shedTo pred cap l, pred x = false := by
  have hlength := length_dropMatching (l.length - cap) pred 0 l
  rw [shedTo] at h ⊢
  exact not_pred_of_mem_dropMatching _ _ (by omega)

end List

namespace AList

variable {α : Type*} {β : α → Type*}

/-- The capped pass over a map with unique keys. -/
def dropMatching (excess : ℕ) (pred : Sigma β → Bool) (m : AList β) : AList β where
  entries := List.dropMatching excess pred 0 m.entries
  nodupKeys := m.nodupKeys.sublist (List.dropMatching_sublist excess pred 0 m.entries)

variable [DecidableEq α]

/-- After a capped pass a key keeps its value, or has lost a value that matched. -/
theorem lookup_dropMatching (excess : ℕ) (pred : Sigma β → Bool) (m : AList β) (a : α) :
    (m.dropMatching excess pred).lookup a = m.lookup a ∨
      (m.dropMatching excess pred).lookup a = none ∧
        ∃ b, m.lookup a = some b ∧ pred ⟨a, b⟩ = true := by
  have hsub := List.dropMatching_sublist excess pred 0 m.entries
  rcases hl : m.lookup a with _ | b
  · left
    rw [lookup_eq_none] at hl ⊢
    exact fun hmem => hl (hsub.map Sigma.fst |>.subset hmem)
  · have hmem : ⟨a, b⟩ ∈ m.entries := List.of_mem_dlookup hl
    by_cases hkept : ⟨a, b⟩ ∈ (m.dropMatching excess pred).entries
    · left
      exact List.mem_dlookup (m.dropMatching excess pred).nodupKeys hkept
    · right
      constructor
      · rw [← Option.not_isSome_iff_eq_none, Option.isSome_iff_exists]
        rintro ⟨b', hb'⟩
        have hmem' : ⟨a, b'⟩ ∈ (m.dropMatching excess pred).entries := List.of_mem_dlookup hb'
        -- keys are unique, so a value that is still there would be the dropped one
        have heq := m.nodupKeys.eq_of_mk_mem hmem (hsub.subset hmem')
        exact hkept (heq ▸ hmem')
      · refine ⟨b, rfl, ?_⟩
        by_contra hne
        exact hkept (List.mem_dropMatching_of_not excess pred hmem (by simpa using hne))

/-- Replacing the value of a key that is present leaves the keys as they are. -/
theorem keys_insert_perm {m : AList β} {a : α} (h : a ∈ m) (b : β a) :
    (m.insert a b).keys.Perm m.keys := by
  rw [keys_insert]
  exact (List.perm_cons_erase (mem_keys.mp h)).symm

end AList
