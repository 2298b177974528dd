import Mathlib

/-!
# Circular buffers

A buffer of `size` cells used in a circle: the cells from `start` on, for `n` places, taken modulo the size. What a circular buffer holds is such a slice, from where it is read.
-/

namespace Ring

variable {α : Type*} {size start m n i j : Nat} {pool pool' : Nat → α} {v : α}

/-- The `n` cells from `start` on. -/
def slice (size : Nat) (pool : Nat → α) (start n : Nat) : List α :=
  (List.range n).map fun i => pool ((start + i) % size)

@[simp] theorem slice_zero : slice size pool start 0 = [] := rfl

@[simp] theorem length_slice : (slice size pool start n).length = n := by simp [slice]

theorem slice_add : slice size pool start (m + n) = slice size pool start m ++ slice size pool (start + m) n := by
  simp [slice, List.range_add, Nat.add_assoc, Function.comp_def]

theorem slice_one : slice size pool start 1 = [pool (start % size)] := by simp [slice]

theorem slice_mod : slice size pool (start % size) n = slice size pool start n := by simp [slice]

theorem slice_congr (h : ∀ i < n, pool' ((start + i) % size) = pool ((start + i) % size)) :
    slice size pool' start n = slice size pool start n :=
  List.map_congr_left fun i hi => h i (List.mem_range.1 hi)

theorem add_mod_inj (hi : i < size) (hj : j < size) : (start + i) % size = (start + j) % size ↔ i = j := by
  refine ⟨fun h => ?_, fun h => by rw [h]⟩
  exact Nat.ModEq.eq_of_lt_of_lt (Nat.ModEq.add_left_cancel' start h) hi hj

theorem slice_push (hn : n < size) :
    slice size (Function.update pool ((start + n) % size) v) start (n + 1) = slice size pool start n ++ [v] := by
  rw [slice_add, slice_one, Function.update_self]
  congr 1
  refine slice_congr fun i hi => Function.update_of_ne (fun heq => ?_) ..
  have := (add_mod_inj (hi.trans hn) hn).1 heq
  omega

theorem slice_append {data : List α} (hroom : n + data.length ≤ size)
    (hdata : ∀ i (hi : i < data.length), pool' ((start + n + i) % size) = data[i])
    (hkeep : ∀ j, (∀ i < data.length, j ≠ (start + n + i) % size) → pool' j = pool j) :
    slice size pool' start (n + data.length) = slice size pool start n ++ data := by
  rw [slice_add]
  congr 1
  · refine slice_congr fun i hi => hkeep _ fun k hk heq => ?_
    rw [Nat.add_assoc] at heq
    have := (add_mod_inj (by omega) (by omega)).1 heq
    omega
  · refine List.ext_getElem length_slice fun i hi hi' => ?_
    simp only [slice, List.getElem_map, List.getElem_range]
    exact hdata i hi'

theorem slice_pop : slice size pool start (n + 1) = pool (start % size) :: slice size pool ((start + 1) % size) n := by
  rw [Nat.add_comm n 1, slice_add, slice_one, slice_mod]
  rfl

theorem next_eq (hi : i < size) : (if size ≤ i + 1 then 0 else i + 1) = (i + 1) % size := by
  split_ifs with h
  · have heq : i + 1 = size := by omega
    rw [heq, Nat.mod_self]
  · rw [Nat.mod_eq_of_lt (by omega)]

theorem slice_of_le (h : start + n ≤ size) : slice size pool start n = (List.range n).map fun i => pool (start + i) :=
  List.map_congr_left fun i hi => by
    have hi := List.mem_range.1 hi
    rw [Nat.mod_eq_of_lt (by omega)]

theorem slice_of_ge (hstart : start ≤ size) (h : size ≤ start + n) (hn : n ≤ size) :
    slice size pool start n = (List.range (size - start)).map (fun i => pool (start + i)) ++ (List.range (start + n - size)).map pool := by
  have hsplit : n = (size - start) + (start + n - size) := by omega
  rw [hsplit, slice_add, slice_of_le (by omega), Nat.add_sub_cancel' hstart, ← slice_mod, Nat.mod_self, slice_of_le (by omega), ← hsplit]
  simp only [Nat.zero_add]

theorem slice_congr_start (h : start % size = m % size) : slice size pool start n = slice size pool m n := by
  rw [← slice_mod, h, slice_mod]

/-! ## Overwriting -/

def store (size : Nat) (pool : Nat → α) (start : Nat) : List α → Nat → α
  | [] => pool
  | v :: data => store size (Function.update pool (start % size) v) (start + 1) data

theorem store_congr_start {data : List α} (h : start % size = m % size) : store size pool start data = store size pool m data := by
  induction data generalizing pool start m with
  | nil => rfl
  | cons v data ih =>
    rw [store, store, h]
    exact ih (Nat.ModEq.add_right 1 h)

theorem slice_push_full (hsize : 0 < size) :
    slice size (Function.update pool ((start + size) % size) v) (start + 1) size = (slice size pool start size).tail ++ [v] := by
  obtain ⟨m, rfl⟩ : ∃ m, size = m + 1 := ⟨size - 1, by omega⟩
  rw [← Nat.succ_add_eq_add_succ start m, Nat.succ_eq_add_one, slice_push (Nat.lt_succ_self m), slice_pop, slice_mod, List.tail_cons]

theorem rtake_of_length_le {l : List α} (h : l.length ≤ n) : l.rtake n = l := by
  rw [List.rtake, Nat.sub_eq_zero_of_le h, List.drop_zero]

theorem rtake_drop {l : List α} (h : m + n ≤ l.length) : (l.drop m).rtake n = l.rtake n := by
  rw [List.rtake, List.rtake, List.drop_drop, List.length_drop]
  congr 1
  omega

theorem rtake_rtake {l : List α} : (l.rtake m).rtake n = l.rtake (min m n) := by
  rw [List.rtake, List.rtake, List.rtake, List.drop_drop, List.length_drop]
  congr 1
  omega

theorem rtake_append {l data : List α} (h : n ≤ l.length) : (l ++ data).rtake (n + data.length) = l.rtake n ++ data := by
  rw [List.rtake, List.rtake, List.length_append, List.drop_append_of_le_length (by omega)]
  congr 2
  omega

theorem length_rtake {l : List α} : (l.rtake n).length = min n l.length := by
  rw [List.rtake, List.length_drop]
  omega

theorem slice_store (hsize : 0 < size) {data : List α} (hn : n ≤ size) :
    slice size (store size pool (start + n) data) (start + (n + data.length - min (n + data.length) size)) (min (n + data.length) size) =
      (slice size pool start n ++ data).rtake size := by
  induction data generalizing pool start n with
  | nil =>
    rw [List.length_nil, Nat.add_zero, Nat.min_eq_left hn, Nat.sub_self, Nat.add_zero, List.append_nil,
      rtake_of_length_le (length_slice.trans_le hn), store]
  | cons v data ih =>
    rw [store, List.length_cons]
    by_cases hlt : n < size
    · have hpush := @ih start (n + 1) (Function.update pool ((start + n) % size) v) hlt
      rwa [slice_push hlt, List.append_assoc, List.singleton_append, Nat.add_right_comm n 1, Nat.add_assoc n, ← Nat.add_assoc start n] at hpush
    · obtain rfl : n = size := by omega
      have hpush := @ih (start + 1) n (Function.update pool ((start + n) % n) v) (Nat.le_refl n)
      have hsame : ((slice n pool start n).tail ++ [v] ++ data).rtake n = (slice n pool start n ++ v :: data).rtake n := by
        rw [← List.drop_one, List.append_assoc, List.singleton_append, ← List.drop_append_of_le_length (by rw [length_slice]; omega),
          rtake_drop]
        rw [List.length_append, length_slice, List.length_cons]
        omega
      rw [slice_push_full hsize, hsame, Nat.min_eq_right (Nat.le_add_right _ _)] at hpush
      rw [← hpush, Nat.min_eq_right (Nat.le_add_right _ _), Nat.add_right_comm start 1]
      congr 1
      omega

end Ring
