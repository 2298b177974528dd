import Mathlib

/-!
# At least so many

That a property holds of at least `n` elements, of a type that need not be finite: there is a list of `n` different ones. This is how wake-ups that are on their way are counted.
-/

variable {α : Type*} {n m : Nat} {P Q : α → Prop} {t : α}

def AtLeast (n : Nat) (P : α → Prop) : Prop := ∃ l : List α, l.Nodup ∧ (∀ t ∈ l, P t) ∧ n ≤ l.length

namespace AtLeast

theorem zero (P : α → Prop) : AtLeast 0 P := ⟨[], List.nodup_nil, fun _ ht => (List.not_mem_nil ht).elim, Nat.le_refl 0⟩

theorem mono (h : AtLeast n P) (hm : m ≤ n) (hP : ∀ u, P u → Q u) : AtLeast m Q := by
  obtain ⟨l, hnodup, hl, hn⟩ := h
  exact ⟨l, hnodup, fun u hu => hP u (hl u hu), by omega⟩

theorem cons (h : AtLeast n P) (ht : ¬ P t) (hQ : Q t) (hP : ∀ u, P u → Q u) : AtLeast (n + 1) Q := by
  obtain ⟨l, hnodup, hl, hn⟩ := h
  refine ⟨t :: l, List.nodup_cons.2 ⟨fun hmem => ht (hl t hmem), hnodup⟩, fun u hu => ?_, Nat.succ_le_succ hn⟩
  rcases List.mem_cons.1 hu with rfl | hu
  · exact hQ
  · exact hP u (hl u hu)

theorem remove [DecidableEq α] (h : AtLeast n P) (t : α) (hP : ∀ u, u ≠ t → P u → Q u) : AtLeast (n - 1) Q := by
  obtain ⟨l, hnodup, hl, hn⟩ := h
  refine ⟨l.erase t, hnodup.erase t, fun u hu => ?_, ?_⟩
  · obtain ⟨hne, hu⟩ := hnodup.mem_erase_iff.1 hu
    exact hP u hne (hl u hu)
  · have := List.le_length_erase (a := t) (l := l)
    omega

theorem exists_of_pos (h : AtLeast n P) (hn : 0 < n) : ∃ t, P t := by
  obtain ⟨l, -, hl, hle⟩ := h
  cases l with
  | nil =>
    rw [List.length_nil] at hle
    omega
  | cons t l => exact ⟨t, hl t (List.mem_cons_self ..)⟩

end AtLeast
