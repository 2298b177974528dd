import Mathlib

/-!
# Doubly linked tilings

The interval from zero to a bound is cut into blocks. Each block is known by its offset and holds two links: the offset at which it ends, which is that of the next block or the bound, and the offset of the block before it. A block can be split in two, and a block can be joined with the next one.
-/

namespace Tiling

/-- The offsets `blocks` cut the interval up to `bound` into blocks of at least `width`, linked in both directions. -/
structure Tiles (width bound : Nat) (next prev : Nat → Nat) (blocks : Set Nat) : Prop where
  start : 0 ∈ blocks
  wide : ∀ b ∈ blocks, b + width ≤ next b
  closed : ∀ b ∈ blocks, next b = bound ∨ next b ∈ blocks
  below : ∀ b ∈ blocks, b < bound
  apart : ∀ b ∈ blocks, ∀ c ∈ blocks, b < c → next b ≤ c
  first : prev 0 = 0
  back : ∀ b ∈ blocks, b ≠ 0 → prev b ∈ blocks ∧ next (prev b) = b

variable {width bound : Nat} {next prev next' prev' : Nat → Nat} {blocks : Set Nat} {b c m : Nat}

theorem Tiles.one (hwidth : 0 < width) (hbound : width ≤ bound) (hnext : next 0 = bound) (hprev : prev 0 = 0) :
    Tiles width bound next prev {0} where
  start := rfl
  wide := by rintro _ rfl; omega
  closed := by rintro _ rfl; exact .inl hnext
  below := by rintro _ rfl; omega
  apart := by rintro _ rfl _ rfl hlt; omega
  first := hprev
  back := by rintro _ rfl hne; omega

namespace Tiles

theorem next_le (h : Tiles width bound next prev blocks) (hb : b ∈ blocks) : next b ≤ bound :=
  (h.closed b hb).elim (fun heq => heq.le) fun hmem => (h.below _ hmem).le

theorem lt_next (h : Tiles width bound next prev blocks) (hwidth : 0 < width) (hb : b ∈ blocks) : b < next b :=
  lt_of_lt_of_le (Nat.lt_add_of_pos_right hwidth) (h.wide b hb)

theorem next_mem (h : Tiles width bound next prev blocks) (hb : b ∈ blocks) (hne : next b ≠ bound) : next b ∈ blocks :=
  (h.closed b hb).resolve_left hne

theorem next_inj (h : Tiles width bound next prev blocks) (hwidth : 0 < width) (hb : b ∈ blocks) (hc : c ∈ blocks)
    (heq : next b = next c) : b = c := by
  rcases lt_trichotomy b c with hlt | rfl | hlt
  · have hle := h.apart b hb c hc hlt
    have := h.lt_next hwidth hc
    omega
  · rfl
  · have hle := h.apart c hc b hb hlt
    have := h.lt_next hwidth hb
    omega

theorem prev_next (h : Tiles width bound next prev blocks) (hwidth : 0 < width) (hb : b ∈ blocks)
    (hne : next b ≠ bound) : prev (next b) = b := by
  have hpos : next b ≠ 0 := by
    have := h.lt_next hwidth hb
    omega
  obtain ⟨hmem, heq⟩ := h.back _ (h.next_mem hb hne) hpos
  exact h.next_inj hwidth hmem hb heq

theorem prev_mem (h : Tiles width bound next prev blocks) (hb : b ∈ blocks) : prev b ∈ blocks := by
  by_cases hzero : b = 0
  · subst hzero
    rw [h.first]
    exact h.start
  · exact (h.back b hb hzero).1

theorem split (h : Tiles width bound next prev blocks) (hwidth : 0 < width) (hb : b ∈ blocks) (hlow : b + width ≤ m)
    (hhigh : m + width ≤ next b) (hnext_b : next' b = m) (hnext_m : next' m = next b)
    (hnext : ∀ c ∈ blocks, c ≠ b → next' c = next c) (hprev_m : prev' m = b)
    (hprev_next : next b ≠ bound → prev' (next b) = m)
    (hprev : ∀ c ∈ blocks, c ≠ next b → prev' c = prev c) :
    Tiles width bound next' prev' (insert m blocks) := by
  have hle := h.next_le hb
  have hm : m ∉ blocks := fun hmem => by
    have := h.apart b hb m hmem (by omega)
    omega
  have hb_ne : next b ≠ 0 := by omega
  refine ⟨.inr h.start, ?_, ?_, ?_, ?_, ?_, ?_⟩
  · rintro c (rfl | hc)
    · rw [hnext_m]
      exact hhigh
    · by_cases hcb : c = b
      · rw [hcb, hnext_b]
        exact hlow
      · rw [hnext c hc hcb]
        exact h.wide c hc
  · rintro c (rfl | hc)
    · rw [hnext_m]
      exact (h.closed b hb).imp_right .inr
    · by_cases hcb : c = b
      · rw [hcb, hnext_b]
        exact .inr (.inl rfl)
      · rw [hnext c hc hcb]
        exact (h.closed c hc).imp_right .inr
  · rintro c (rfl | hc)
    · omega
    · exact h.below c hc
  · rintro c (rfl | hc) d (rfl | hd) hlt
    · omega
    · rw [hnext_m]
      exact h.apart b hb d hd (by omega)
    · by_cases hcb : c = b
      · rw [hcb, hnext_b]
      · rw [hnext c hc hcb]
        rcases Nat.lt_or_gt_of_ne hcb with hlt' | hgt
        · have := h.apart c hc b hb hlt'
          omega
        · have := h.apart b hb c hc hgt
          omega
    · by_cases hcb : c = b
      · have := h.apart b hb d hd (hcb ▸ hlt)
        rw [hcb, hnext_b]
        omega
      · rw [hnext c hc hcb]
        exact h.apart c hc d hd hlt
  · rw [hprev 0 h.start (Ne.symm hb_ne)]
    exact h.first
  · rintro c (rfl | hc) hzero
    · rw [hprev_m]
      exact ⟨.inr hb, hnext_b⟩
    · by_cases hcn : c = next b
      · subst hcn
        rw [hprev_next (h.below _ hc).ne]
        exact ⟨.inl rfl, hnext_m⟩
      · obtain ⟨hmem, heq⟩ := h.back c hc hzero
        have hpb : prev c ≠ b := fun hpb => hcn (by rw [← heq, hpb])
        rw [hprev c hc hcn, hnext _ hmem hpb]
        exact ⟨.inr hmem, heq⟩

theorem join (h : Tiles width bound next prev blocks) (hwidth : 0 < width) (hb : b ∈ blocks) (hn : next b ∈ blocks)
    (hnext_b : next' b = next (next b)) (hnext : ∀ c ∈ blocks, c ≠ b → next' c = next c)
    (hprev_next : next (next b) ≠ bound → prev' (next (next b)) = b)
    (hprev : ∀ c ∈ blocks, c ≠ next (next b) → prev' c = prev c) :
    Tiles width bound next' prev' (blocks \ {next b}) := by
  have hlt_b := h.lt_next hwidth hb
  have hlt_n := h.lt_next hwidth hn
  have hstay (c : Nat) (hc : c ∈ blocks) (hne : c ≠ b) : next c ≠ next b := fun heq => hne (h.next_inj hwidth hc hb heq)
  refine ⟨⟨h.start, ?_⟩, ?_, ?_, ?_, ?_, ?_, ?_⟩
  · rintro (hzero : 0 = next b)
    omega
  · rintro c ⟨hc, -⟩
    by_cases hcb : c = b
    · have := h.wide b hb
      rw [hcb, hnext_b]
      omega
    · rw [hnext c hc hcb]
      exact h.wide c hc
  · rintro c ⟨hc, -⟩
    by_cases hcb : c = b
    · rw [hcb, hnext_b]
      exact (h.closed _ hn).imp_right fun hmem => ⟨hmem, hlt_n.ne'⟩
    · rw [hnext c hc hcb]
      exact (h.closed c hc).imp_right fun hmem => ⟨hmem, hstay c hc hcb⟩
  · rintro c ⟨hc, -⟩
    exact h.below c hc
  · rintro c ⟨hc, hcn⟩ d ⟨hd, hdn⟩ hlt
    by_cases hcb : c = b
    · have hle := h.apart b hb d hd (hcb ▸ hlt)
      have hne : next b ≠ d := fun heq => hdn heq.symm
      rw [hcb, hnext_b]
      exact h.apart _ hn d hd (lt_of_le_of_ne hle hne)
    · rw [hnext c hc hcb]
      exact h.apart c hc d hd hlt
  · rw [hprev 0 h.start (by omega)]
    exact h.first
  · rintro c ⟨hc, hcn⟩ hzero
    by_cases hcnn : c = next (next b)
    · subst hcnn
      rw [hprev_next (h.below _ hc).ne]
      exact ⟨⟨hb, hlt_b.ne⟩, hnext_b⟩
    · obtain ⟨hmem, heq⟩ := h.back c hc hzero
      have hpb : prev c ≠ b := fun hpb => hcn (by rw [← heq, hpb]; rfl)
      have hpn : prev c ≠ next b := fun hpn => hcnn (by rw [← heq, hpn])
      rw [hprev c hc hcnn, hnext _ hmem hpb]
      exact ⟨⟨hmem, hpn⟩, heq⟩

end Tiles

/-- The blocks from `b` on, for at most the given number of blocks. -/
def chain (next : Nat → Nat) (bound : Nat) : Nat → Nat → List Nat
  | 0, _ => []
  | n + 1, b => if b = bound then [] else b :: chain next bound n (next b)

/-- Following the links visits the blocks in order, one ending where the next begins, up to the bound. -/
theorem Tiles.chain_links (h : Tiles width bound next prev blocks) (hwidth : 0 < width) {n : Nat} (hb : b ∈ blocks)
    (hn : bound - b < n) :
    ∃ rest, chain next bound n b = b :: rest ∧ (b :: rest).IsChain (fun c d => c ∈ blocks ∧ d ∈ blocks ∧ next c = d) ∧
      ∀ last ∈ (b :: rest).getLast?, last ∈ blocks ∧ next last = bound := by
  induction n generalizing b with
  | zero => omega
  | succ n ih =>
    have hlt := h.below b hb
    have hnext := h.lt_next hwidth hb
    rw [chain, if_neg hlt.ne]
    by_cases hend : next b = bound
    · refine ⟨[], ?_, List.isChain_singleton b, ?_⟩
      · cases n <;> simp [chain, hend]
      · intro last hlast
        obtain rfl : b = last := by simpa using hlast
        exact ⟨hb, hend⟩
    · obtain ⟨rest, heq, hchain, hlast⟩ := ih (h.next_mem hb hend) (by omega)
      refine ⟨next b :: rest, by rw [heq], List.isChain_cons_cons.2 ⟨⟨hb, h.next_mem hb hend, rfl⟩, hchain⟩, ?_⟩
      rwa [List.getLast?_cons_cons]

theorem Tiles.mem_chain (h : Tiles width bound next prev blocks) (hwidth : 0 < width) {n : Nat} (hb : b ∈ blocks)
    (hn : bound - b < n) (hc : c ∈ blocks) (hle : b ≤ c) : c ∈ chain next bound n b := by
  induction n generalizing b with
  | zero => omega
  | succ n ih =>
    have hlt := h.below b hb
    have hnext := h.lt_next hwidth hb
    rw [chain, if_neg hlt.ne]
    rcases hle.eq_or_lt with rfl | hbc
    · exact List.mem_cons_self
    · have hle' := h.apart b hb c hc hbc
      have hbelow := h.below c hc
      exact List.mem_cons_of_mem b (ih (h.next_mem hb (by omega)) (by omega) hle')

theorem Tiles.chain_sorted (h : Tiles width bound next prev blocks) (hwidth : 0 < width) {n : Nat} (hb : b ∈ blocks) :
    (chain next bound n b).Pairwise (· < ·) ∧ ∀ c ∈ chain next bound n b, c ∈ blocks ∧ b ≤ c := by
  induction n generalizing b with
  | zero => exact ⟨.nil, nofun⟩
  | succ n ih =>
    have hlt := h.lt_next hwidth hb
    rw [chain, if_neg (h.below b hb).ne]
    by_cases hend : next b = bound
    · have hnil : chain next bound n (next b) = [] := by cases n <;> simp [chain, hend]
      rw [hnil]
      exact ⟨List.pairwise_singleton .., fun c hc => by rw [List.mem_singleton.1 hc]; exact ⟨hb, Nat.le_refl b⟩⟩
    · obtain ⟨hsorted, hmem⟩ := ih (h.next_mem hb hend)
      refine ⟨List.pairwise_cons.2 ⟨fun c hc => lt_of_lt_of_le hlt (hmem c hc).2, hsorted⟩, fun c hc => ?_⟩
      rcases List.mem_cons.1 hc with rfl | hc
      · exact ⟨hb, Nat.le_refl c⟩
      · exact ⟨(hmem c hc).1, hlt.le.trans (hmem c hc).2⟩

theorem Tiles.mem_chain_iff (h : Tiles width bound next prev blocks) (hwidth : 0 < width) {n : Nat} (hb : b ∈ blocks)
    (hn : bound - b < n) : c ∈ chain next bound n b ↔ c ∈ blocks ∧ b ≤ c :=
  ⟨(h.chain_sorted hwidth hb).2 c, fun hc => h.mem_chain hwidth hb hn hc.1 hc.2⟩

theorem Tiles.sum_extents_le (h : Tiles width bound next prev blocks) {cells : Finset Nat} (hcells : ∀ b ∈ cells, b ∈ blocks) :
    ∑ b ∈ cells, (next b - b) ≤ bound := by
  have hapart : (cells : Set Nat).PairwiseDisjoint fun b => Finset.Ico b (next b) := by
    intro b hb c hc hne
    refine Finset.disjoint_left.2 fun x hx hx' => ?_
    rw [Finset.mem_Ico] at hx hx'
    rcases Nat.lt_or_gt_of_ne hne with hlt | hgt
    · have := h.apart b (hcells b hb) c (hcells c hc) hlt
      omega
    · have := h.apart c (hcells c hc) b (hcells b hb) hgt
      omega
  have hcover : (cells.biUnion fun b => Finset.Ico b (next b)) ⊆ Finset.range bound := by
    intro x hx
    obtain ⟨b, hb, hx⟩ := Finset.mem_biUnion.1 hx
    have hle := h.next_le (hcells b hb)
    rw [Finset.mem_Ico] at hx
    exact Finset.mem_range.2 (by omega)
  calc ∑ b ∈ cells, (next b - b) = ∑ b ∈ cells, (Finset.Ico b (next b)).card := by simp only [Nat.card_Ico]
    _ = (cells.biUnion fun b => Finset.Ico b (next b)).card := (Finset.card_biUnion hapart).symm
    _ ≤ (Finset.range bound).card := Finset.card_le_card hcover
    _ = bound := Finset.card_range bound

end Tiling
