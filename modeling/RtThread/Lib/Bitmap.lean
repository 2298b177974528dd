import Mathlib

/-!
# Bitmaps of sets of small numbers

A word represents a set of numbers when its set bits are the members. Above the word size a second level is needed: one word of groups, and for each group a byte of members. Inserting a member sets one bit a level; deleting one clears the byte's bit, and the group's bit once the byte is zero. The lowest set bit of every level names the least member.
-/

namespace Bitmap

variable {w : Nat} {v : BitVec w} {S : Set Nat}

/-- Bit `i` is the lowest set bit of `v`. -/
def IsLowest (v : BitVec w) (i : Nat) : Prop := v.getLsbD i = true ∧ ∀ j, j < i → v.getLsbD j = false

theorem getLsbD_bit (p i : Nat) : (1#w <<< p).getLsbD i = (decide (i < w) && decide (i = p)) := by
  simp only [BitVec.getLsbD_shiftLeft, BitVec.getLsbD_one]
  by_cases hi : i < w <;> by_cases hp : i = p
  · subst hp; simp [hi]; omega
  · by_cases hlt : i < p
    · simp [hi, hp, hlt]
    · simp [hi, hp, hlt, show ¬ i - p = 0 by omega]
  all_goals simp [hi]

theorem getLsbD_or_bit (p : Nat) {i : Nat} (hi : i < w) :
    (v ||| 1#w <<< p).getLsbD i = (v.getLsbD i || decide (i = p)) := by
  rw [BitVec.getLsbD_or, getLsbD_bit, decide_eq_true hi, Bool.true_and]

theorem getLsbD_and_not_bit (p : Nat) {i : Nat} (hi : i < w) :
    (v &&& ~~~(1#w <<< p)).getLsbD i = (v.getLsbD i && !decide (i = p)) := by
  rw [BitVec.getLsbD_and, BitVec.getLsbD_not, getLsbD_bit, decide_eq_true hi, Bool.true_and, Bool.true_and]

theorem and_not_zero (v : BitVec w) : v &&& ~~~0 = v := by
  ext i hi
  simp

theorem eq_zero_iff : v = 0 ↔ ∀ i < w, v.getLsbD i = false := by
  constructor
  · rintro rfl i _
    simp
  · intro h
    exact BitVec.eq_of_getLsbD_eq fun i hi => by simpa using h i hi

/-! ## One word -/

/-- The members of `S` are below the word size, and the set bits of `v` are the members. -/
structure Flat (v : BitVec w) (S : Set Nat) : Prop where
  lt : ∀ p ∈ S, p < w
  bit : ∀ p < w, v.getLsbD p = true ↔ p ∈ S

theorem Flat.empty : Flat (0#w) ∅ where
  lt p hp := hp.elim
  bit p _ := by simp

theorem Flat.eq_zero_iff (h : Flat v S) : v = 0 ↔ S = ∅ := by
  rw [Bitmap.eq_zero_iff, Set.eq_empty_iff_forall_notMem]
  constructor
  · intro hbits p hp
    have hset := (h.bit p (h.lt p hp)).2 hp
    rw [hbits p (h.lt p hp)] at hset
    cases hset
  · intro hnone p hp
    rw [← Bool.not_eq_true, h.bit p hp]
    exact hnone p

theorem Flat.insert (h : Flat v S) {p : Nat} (hp : p < w) : Flat (v ||| 1#w <<< p) (insert p S) where
  lt q hq := hq.elim (fun heq => heq ▸ hp) (h.lt q)
  bit q hq := by
    rw [getLsbD_or_bit p hq, Bool.or_eq_true, h.bit q hq, decide_eq_true_iff, Set.mem_insert_iff, or_comm]

theorem Flat.erase (h : Flat v S) (p : Nat) : Flat (v &&& ~~~(1#w <<< p)) (S \ {p}) where
  lt q hq := h.lt q hq.1
  bit q hq := by
    rw [getLsbD_and_not_bit p hq, Bool.and_eq_true, h.bit q hq, Bool.not_eq_true', decide_eq_false_iff_not]
    rfl

theorem Flat.isLeast (h : Flat v S) {i : Nat} (hi : IsLowest v i) : IsLeast S i := by
  have hlt : i < w := BitVec.lt_of_getLsbD hi.1
  refine ⟨(h.bit i hlt).1 hi.1, fun p hp => ?_⟩
  by_contra hpi
  have hset := (h.bit p (h.lt p hp)).2 hp
  rw [hi.2 p (by omega)] at hset
  cases hset

/-! ## Two levels -/

/-- Bit `n` of `group` says whether byte `n` of `table` has a bit; the bits of byte `n` are the members `8 * n` to `8 * n + 7`. -/
structure TwoLevel (group : BitVec w) (table : Nat → BitVec 8) (S : Set Nat) : Prop where
  lt : ∀ p ∈ S, p < 8 * w
  group : ∀ n < w, group.getLsbD n = true ↔ table n ≠ 0
  bit : ∀ p < 8 * w, (table (p / 8)).getLsbD (p % 8) = true ↔ p ∈ S

variable {group : BitVec w} {table : Nat → BitVec 8}

theorem TwoLevel.both_iff (h : TwoLevel group table S) {p : Nat} (hp : p < 8 * w) :
    (group.getLsbD (p / 8) = true ∧ (table (p / 8)).getLsbD (p % 8) = true) ↔ p ∈ S := by
  rw [h.bit p hp, and_iff_right_iff_imp]
  intro hmem
  rw [h.group (p / 8) (by omega)]
  intro hzero
  have hset := (h.bit p hp).2 hmem
  simp [hzero] at hset

theorem TwoLevel.empty : TwoLevel (0#w) (fun _ => 0#8) ∅ where
  lt p hp := hp.elim
  group n _ := by simp
  bit p _ := by simp

theorem TwoLevel.table_eq_zero_iff (h : TwoLevel group table S) {n : Nat} (hn : n < w) :
    table n = 0 ↔ ∀ j < 8, 8 * n + j ∉ S := by
  rw [Bitmap.eq_zero_iff]
  refine forall₂_congr fun j hj => ?_
  rw [← h.bit (8 * n + j) (by omega), show (8 * n + j) / 8 = n by omega, show (8 * n + j) % 8 = j by omega,
    Bool.not_eq_true]

theorem TwoLevel.eq_zero_iff (h : TwoLevel group table S) : group = 0 ↔ S = ∅ := by
  rw [Bitmap.eq_zero_iff, Set.eq_empty_iff_forall_notMem]
  have hgroup (n : Nat) (hn : n < w) : group.getLsbD n = false ↔ ∀ j < 8, 8 * n + j ∉ S := by
    rw [← h.table_eq_zero_iff hn, ← Bool.not_eq_true, h.group n hn, not_not]
  constructor
  · intro hbits p hp
    have hlt := h.lt p hp
    have hnone := (hgroup (p / 8) (by omega)).1 (hbits _ (by omega)) (p % 8) (by omega)
    rw [show 8 * (p / 8) + p % 8 = p by omega] at hnone
    exact hnone hp
  · intro hnone n hn
    exact (hgroup n hn).2 fun j _ => hnone _

theorem TwoLevel.insert (h : TwoLevel group table S) {p : Nat} (hp : p < 8 * w) :
    TwoLevel (group ||| 1#w <<< (p / 8)) (Function.update table (p / 8) (table (p / 8) ||| 1#8 <<< (p % 8)))
      (insert p S) where
  lt q hq := hq.elim (fun heq => heq ▸ hp) (h.lt q)
  group n hn := by
    rw [getLsbD_or_bit _ hn, Bool.or_eq_true, h.group n hn, decide_eq_true_iff]
    by_cases hnp : n = p / 8
    · subst hnp
      have hbit : (table (p / 8) ||| 1#8 <<< (p % 8)).getLsbD (p % 8) = true := by
        rw [getLsbD_or_bit _ (by omega)]
        simp
      have hne : table (p / 8) ||| 1#8 <<< (p % 8) ≠ 0 := by
        intro hzero
        rw [hzero] at hbit
        simp at hbit
      simpa using hne
    · rw [Function.update_of_ne hnp]
      simp [hnp]
  bit q hq := by
    rw [Set.mem_insert_iff, ← h.bit q hq]
    by_cases hqp : q / 8 = p / 8
    · rw [hqp, Function.update_self, getLsbD_or_bit _ (by omega), Bool.or_eq_true, decide_eq_true_iff, or_comm,
        show q % 8 = p % 8 ↔ q = p by omega]
    · rw [Function.update_of_ne hqp]
      have hne : q ≠ p := fun heq => hqp (heq ▸ rfl)
      simp [hne]

theorem TwoLevel.erase (h : TwoLevel group table S) (p : Nat) :
    TwoLevel
      (if table (p / 8) &&& ~~~(1#8 <<< (p % 8)) = 0 then group &&& ~~~(1#w <<< (p / 8)) else group)
      (Function.update table (p / 8) (table (p / 8) &&& ~~~(1#8 <<< (p % 8)))) (S \ {p}) where
  lt q hq := h.lt q hq.1
  group n hn := by
    by_cases hnp : n = p / 8
    · subst hnp
      rw [Function.update_self]
      split
      · rename_i hzero
        rw [getLsbD_and_not_bit _ hn]
        simpa using hzero
      · rename_i hne
        have hold : table (p / 8) ≠ 0 := by
          intro hzero
          rw [hzero] at hne
          exact hne (by simp)
        exact iff_of_true ((h.group _ hn).2 hold) hne
    · rw [Function.update_of_ne hnp]
      split
      · rw [getLsbD_and_not_bit _ hn, Bool.and_eq_true, h.group n hn]
        simp [hnp]
      · exact h.group n hn
  bit q hq := by
    rw [Set.mem_sdiff, Set.mem_singleton_iff, ← h.bit q hq]
    by_cases hqp : q / 8 = p / 8
    · rw [hqp, Function.update_self, getLsbD_and_not_bit _ (by omega), Bool.and_eq_true, Bool.not_eq_true',
        decide_eq_false_iff_not, show q % 8 = p % 8 ↔ q = p by omega]
    · rw [Function.update_of_ne hqp]
      have hne : q ≠ p := fun heq => hqp (heq ▸ rfl)
      simp [hne]

theorem TwoLevel.group_clear (h : TwoLevel group table S) {n : Nat} (hzero : table n = 0) :
    group &&& ~~~(1#w <<< n) = group := by
  apply BitVec.eq_of_getLsbD_eq
  intro i hi
  rw [getLsbD_and_not_bit n hi]
  by_cases hin : i = n
  · have hclear : ¬ group.getLsbD i = true := by
      rw [h.group i hi, hin]
      exact not_not.2 hzero
    simp [hclear]
  · simp [hin]

theorem TwoLevel.isLeast (h : TwoLevel group table S) {n j : Nat} (hn : IsLowest group n)
    (hj : IsLowest (table n) j) : IsLeast S (8 * n + j) := by
  have hnw : n < w := BitVec.lt_of_getLsbD hn.1
  have hj8 : j < 8 := BitVec.lt_of_getLsbD hj.1
  have hmem (q : Nat) (hq : q < 8 * w) := h.bit q hq
  constructor
  · rw [← hmem _ (by omega), show (8 * n + j) / 8 = n by omega, show (8 * n + j) % 8 = j by omega]
    exact hj.1
  · intro q hq
    by_contra hlt
    have hq8 := h.lt q hq
    have hbit := (hmem q hq8).2 hq
    rcases Nat.lt_or_ge (q / 8) n with hbelow | hsame
    · -- the group of `q` would be a lower set bit
      have hempty : table (q / 8) = 0 := by
        have hclear := hn.2 _ hbelow
        rw [← Bool.not_eq_true, h.group _ (by omega), not_not] at hclear
        exact hclear
      rw [hempty] at hbit
      simp at hbit
    · have heq : q / 8 = n := by omega
      rw [heq, hj.2 (q % 8) (by omega)] at hbit
      cases hbit

end Bitmap
