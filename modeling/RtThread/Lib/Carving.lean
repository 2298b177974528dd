import Mathlib

/-!
# Slots that are carved and given back

A store of so many slots gives them out in order, and keeps a list of those that have come back. A slot is live between the two. What is left is the slots that were never given out and those in the list.
-/

namespace Carving

variable {total carved k j : Nat} {free rest : List Nat}

structure WellFormed (total carved : Nat) (free : List Nat) : Prop where
  le : carved ≤ total
  nodup : free.Nodup
  lt : ∀ k ∈ free, k < carved

def Live (carved : Nat) (free : List Nat) (k : Nat) : Prop := k < carved ∧ k ∉ free

def left (total carved : Nat) (free : List Nat) : Nat := total - carved + free.length

namespace WellFormed

theorem carve (h : WellFormed total carved free) (hlt : carved < total) : WellFormed total (carved + 1) free :=
  ⟨hlt, h.nodup, fun k hk => Nat.lt_succ_of_lt (h.lt k hk)⟩

theorem pop (h : WellFormed total carved (k :: rest)) : WellFormed total carved rest :=
  ⟨h.le, (List.nodup_cons.mp h.nodup).2, fun j hj => h.lt j (List.mem_cons_of_mem k hj)⟩

theorem push (h : WellFormed total carved free) (hlive : Live carved free k) : WellFormed total carved (k :: free) :=
  ⟨h.le, List.nodup_cons.mpr ⟨hlive.2, h.nodup⟩, List.forall_mem_cons.mpr ⟨hlive.1, h.lt⟩⟩

theorem length_le (h : WellFormed total carved free) : free.length ≤ carved := by
  have hsubset : free.toFinset ⊆ Finset.range carved := by
    intro k hk
    exact Finset.mem_range.mpr (h.lt k (List.mem_toFinset.mp hk))
  have hcard := Finset.card_le_card hsubset
  rwa [List.toFinset_card_of_nodup h.nodup, Finset.card_range] at hcard

theorem not_live (h : WellFormed total carved free) (hall : left total carved free = total) : ¬ Live carved free k := by
  intro hlive
  have hlength := (h.push hlive).length_le
  have hle := h.le
  rw [List.length_cons] at hlength
  rw [left] at hall
  omega

end WellFormed

theorem live_carve (h : WellFormed total carved free) : Live (carved + 1) free j ↔ Live carved free j ∨ j = carved := by
  constructor
  · rintro ⟨hlt, hfree⟩
    rcases Nat.lt_succ_iff_lt_or_eq.mp hlt with hless | heq
    · exact Or.inl ⟨hless, hfree⟩
    · exact Or.inr heq
  · rintro (⟨hlt, hfree⟩ | heq)
    · exact ⟨Nat.lt_succ_of_lt hlt, hfree⟩
    · refine ⟨by omega, fun hmem => ?_⟩
      have hlt := h.lt j hmem
      omega

theorem live_pop (h : WellFormed total carved (k :: rest)) : Live carved rest j ↔ Live carved (k :: rest) j ∨ j = k := by
  have hk := h.lt k List.mem_cons_self
  have hrest := (List.nodup_cons.mp h.nodup).1
  constructor
  · rintro ⟨hlt, hfree⟩
    by_cases heq : j = k
    · exact Or.inr heq
    · exact Or.inl ⟨hlt, fun hmem => (List.mem_cons.mp hmem).elim heq hfree⟩
  · rintro (⟨hlt, hfree⟩ | heq)
    · exact ⟨hlt, fun hmem => hfree (List.mem_cons_of_mem k hmem)⟩
    · rw [heq]
      exact ⟨hk, hrest⟩

theorem live_push : Live carved (k :: free) j ↔ Live carved free j ∧ j ≠ k := by
  constructor
  · rintro ⟨hlt, hfree⟩
    exact ⟨⟨hlt, fun hmem => hfree (List.mem_cons_of_mem k hmem)⟩, fun heq => hfree (List.mem_cons.mpr (Or.inl heq))⟩
  · rintro ⟨⟨hlt, hfree⟩, hne⟩
    exact ⟨hlt, fun hmem => (List.mem_cons.mp hmem).elim hne hfree⟩

end Carving
