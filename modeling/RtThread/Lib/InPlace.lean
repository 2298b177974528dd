import Mathlib

/-!
# Rewriting a text in place

A text is read from one cursor and written at another that stays behind it. The cells between the two cursors do not matter. So what has been written and what is still to be read determine what a rewriting does, and no write can reach what has not been read.
-/

variable {α : Type*} {m out rest : List α} {src : Nat} {a : α}

/-- `out` has been written, and `rest` is read from `src` on. -/
def InPlace (m out : List α) (src : Nat) (rest : List α) : Prop :=
  ∃ gap, m = out ++ gap ++ rest ∧ src = out.length + gap.length

namespace InPlace

theorem start (m : List α) : InPlace m [] 0 m := ⟨[], rfl, rfl⟩

theorem get (h : InPlace m out src rest) (k : Nat) : m[src + k]? = rest[k]? := by
  obtain ⟨gap, rfl, rfl⟩ := h
  rw [List.getElem?_append_right (by rw [List.length_append]; omega), List.length_append, Nat.add_sub_cancel_left]

theorem get_zero (h : InPlace m out src (a :: rest)) : m[src]? = some a := h.get 0

theorem get_out (h : InPlace m out src rest) {i : Nat} (hi : i < out.length) : m[i]? = out[i]? := by
  obtain ⟨gap, rfl, rfl⟩ := h
  rw [List.append_assoc, List.getElem?_append_left hi]

theorem length_le (h : InPlace m out src rest) : src + rest.length = m.length := by
  obtain ⟨gap, rfl, rfl⟩ := h
  rw [List.length_append, List.length_append]

theorem out_le (h : InPlace m out src rest) : out.length ≤ src := by
  obtain ⟨gap, rfl, rfl⟩ := h
  omega

theorem skip {skipped : List α} (h : InPlace m out src (skipped ++ rest)) : InPlace m out (src + skipped.length) rest := by
  obtain ⟨gap, rfl, rfl⟩ := h
  refine ⟨gap ++ skipped, ?_, ?_⟩
  · rw [List.append_assoc, List.append_assoc, List.append_assoc]
  · rw [List.length_append]
    omega

theorem truncate {back : List α} (h : InPlace m (out ++ back) src rest) : InPlace m out src rest := by
  obtain ⟨gap, rfl, rfl⟩ := h
  refine ⟨back ++ gap, ?_, ?_⟩
  · rw [List.append_assoc, List.append_assoc, List.append_assoc, List.append_assoc]
  · rw [List.length_append, List.length_append]
    omega

theorem store (h : InPlace m out src (a :: rest)) : InPlace (m.set out.length a) (out ++ [a]) (src + 1) rest := by
  obtain ⟨gap, rfl, rfl⟩ := h
  rw [List.append_assoc, List.set_append_right _ _ (Nat.le_refl _), Nat.sub_self]
  cases gap with
  | nil =>
    refine ⟨[], ?_, ?_⟩
    · rw [List.nil_append, List.set_cons_zero, List.append_nil, List.append_assoc]
      rfl
    · rw [List.length_append]
      rfl
  | cons b gap =>
    refine ⟨gap ++ [a], ?_, ?_⟩
    · rw [List.cons_append, List.set_cons_zero, List.append_assoc, List.append_assoc, List.append_assoc]
      rfl
    · simp only [List.length_append, List.length_cons, List.length_nil]
      omega

end InPlace
