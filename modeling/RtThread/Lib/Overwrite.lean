import Mathlib

/-!
# Writing into a list

A list with some of its elements replaced from a position on; what stands behind the end is appended.
-/

namespace List

variable {α : Type*}

def overwrite (l : List α) (pos : Nat) (xs : List α) : List α := l.take pos ++ xs ++ l.drop (pos + xs.length)

variable {l l' xs : List α} {pos n : Nat}

theorem overwrite_nil (l : List α) (pos : Nat) : l.overwrite pos [] = l := by
  rw [overwrite, append_nil, length_nil, Nat.add_zero, take_append_drop]

theorem length_overwrite (hpos : pos ≤ l.length) : (l.overwrite pos xs).length = max l.length (pos + xs.length) := by
  rw [overwrite, length_append, length_append, length_take, length_drop, Nat.min_eq_left hpos]
  omega

theorem take_overwrite (hpos : pos ≤ l.length) (hn : pos + xs.length ≤ n) : (l.overwrite pos xs).take n = (l.take n).overwrite pos xs := by
  have hlength : (l.take pos ++ xs).length = pos + xs.length := by rw [length_append, length_take, Nat.min_eq_left hpos]
  rw [overwrite, overwrite, take_append, hlength, take_of_length_le (hlength ▸ hn), take_take, Nat.min_eq_left (by omega), drop_take]

theorem overwrite_congr (htake : l.take pos = l'.take pos) (hdrop : l.drop (pos + xs.length) = l'.drop (pos + xs.length)) :
    l.overwrite pos xs = l'.overwrite pos xs := by
  rw [overwrite, overwrite, htake, hdrop]

end List
