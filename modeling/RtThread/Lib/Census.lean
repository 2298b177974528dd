import Mathlib

/-!
# How many are in a place

Things that move one at a time: a function gives each its place, and what is counted is how many have a place of a kind. One that moves enters, leaves or stays.
-/

namespace Census

variable {ι κ : Type*} [DecidableEq ι] {f : ι → κ} {C : κ → Prop} {i : ι} {p : κ}

theorem encard_enter (hold : ¬ C (f i)) (hnew : C p) : {j | C (Function.update f i p j)}.encard = {j | C (f j)}.encard + 1 := by
  rw [← Set.encard_insert_of_notMem (a := i) (s := {j | C (f j)}) hold]
  congr 1
  ext j
  by_cases hj : j = i
  · subst hj
    simpa using hnew
  · simp [hj]

theorem encard_leave (hold : C (f i)) (hnew : ¬ C p) : {j | C (Function.update f i p j)}.encard + 1 = {j | C (f j)}.encard := by
  rw [← Set.encard_sdiff_singleton_add_one (a := i) (s := {j | C (f j)}) hold]
  congr 2
  ext j
  by_cases hj : j = i
  · subst hj
    simpa using hnew
  · simp [hj]

theorem encard_stay (hsame : C (f i) ↔ C p) : {j | C (Function.update f i p j)}.encard = {j | C (f j)}.encard := by
  congr 1
  ext j
  by_cases hj : j = i
  · subst hj
    simpa using hsame.symm
  · simp [Function.update_of_ne hj]

theorem exists_of_update (hp : C p → C (f i)) (h : ∃ j, C (Function.update f i p j)) : ∃ j, C (f j) := by
  obtain ⟨j, hj⟩ := h
  by_cases hji : j = i
  · subst hji
    rw [Function.update_self] at hj
    exact ⟨j, hp hj⟩
  · rw [Function.update_of_ne hji] at hj
    exact ⟨j, hj⟩

theorem exists_update (hp : C (f i) → C p) (h : ∃ j, C (f j)) : ∃ j, C (Function.update f i p j) := by
  obtain ⟨j, hj⟩ := h
  by_cases hji : j = i
  · subst hji
    exact ⟨j, by rw [Function.update_self]; exact hp hj⟩
  · exact ⟨j, by rw [Function.update_of_ne hji]; exact hj⟩

end Census
