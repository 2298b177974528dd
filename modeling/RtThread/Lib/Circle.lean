import Mathlib

/-!
# Doubly linked circles

A list with a header as it stands in memory: every cell holds a link in each direction, and the header closes the circle. A cell is linked in behind the header, and taken out wherever it is.
-/

variable {α : Type*} {next prev next' prev' : α → α} {a b c h n : α} {l l₁ l₂ : List α}

/-- The cells of `l`, in their order behind the header `h`. -/
structure CircularList (next prev : α → α) (h : α) (l : List α) : Prop where
  chain : (h :: (l ++ [h])).IsChain fun a b => next a = b ∧ prev b = a
  nodup : (h :: l).Nodup

namespace CircularList

theorem chain_congr (hl : (a :: l).IsChain fun a b => next a = b ∧ prev b = a)
    (hnext : ∀ b ∈ (a :: l).dropLast, next' b = next b) (hprev : ∀ b ∈ l, prev' b = prev b) :
    (a :: l).IsChain fun a b => next' a = b ∧ prev' b = a := by
  induction l generalizing a with
  | nil => exact List.isChain_singleton a
  | cons b l ih =>
    obtain ⟨⟨hab, hba⟩, hrest⟩ := List.isChain_cons_cons.1 hl
    rw [List.dropLast_cons_of_ne_nil (List.cons_ne_nil b l)] at hnext
    refine List.isChain_cons_cons.2 ⟨⟨?_, ?_⟩, ?_⟩
    · rw [hnext a List.mem_cons_self]
      exact hab
    · rw [hprev b List.mem_cons_self]
      exact hba
    · apply ih hrest
      · intro c hc
        exact hnext c (List.mem_cons_of_mem a hc)
      · intro c hc
        exact hprev c (List.mem_cons_of_mem b hc)

theorem congr (hl : CircularList next prev h l) (hnext : ∀ b ∈ h :: l, next' b = next b)
    (hprev : ∀ b ∈ h :: l, prev' b = prev b) : CircularList next' prev' h l := by
  refine ⟨chain_congr hl.chain (fun b hb => hnext b ?_) (fun b hb => hprev b ?_), hl.nodup⟩
  · rwa [← List.cons_append, List.dropLast_concat] at hb
  · rcases List.mem_append.1 hb with hb | hb
    · exact List.mem_cons_of_mem h hb
    · rw [List.mem_singleton.1 hb]
      exact List.mem_cons_self

theorem getLast_notMem_dropLast (hne : l ≠ []) (hl : l.Nodup) : l.getLast hne ∉ l.dropLast := by
  rw [← List.dropLast_append_getLast hne] at hl
  intro hmem
  exact (List.nodup_append.1 hl).2.2 _ hmem _ (List.mem_singleton_self _) rfl

theorem nil (hnext : next h = h) (hprev : prev h = h) : CircularList next prev h [] :=
  ⟨List.isChain_cons_cons.2 ⟨⟨hnext, hprev⟩, List.isChain_singleton h⟩, List.nodup_singleton h⟩

theorem next_header (hl : CircularList next prev h l) : next h = (l ++ [h]).head (by simp) := by
  have hchain := hl.chain
  cases l with
  | nil => exact (List.isChain_cons_cons.1 hchain).1.1
  | cons b l => exact (List.isChain_cons_cons.1 hchain).1.1

theorem next_header_mem (hl : CircularList next prev h l) : next h ∈ h :: l := by
  rw [hl.next_header]
  cases l with
  | nil => exact List.mem_cons_self
  | cons b l => exact List.mem_cons_of_mem h List.mem_cons_self

theorem split (hl : CircularList next prev h (l₁ ++ b :: l₂)) :
    (h :: l₁).IsChain (fun a b => next a = b ∧ prev b = a) ∧
      (l₂ ++ [h]).IsChain (fun a b => next a = b ∧ prev b = a) ∧
      prev b = (h :: l₁).getLast (List.cons_ne_nil h l₁) ∧ next b = (l₂ ++ [h]).head (by simp) ∧
      next (prev b) = b ∧ prev (next b) = b := by
  have hchain := hl.chain
  rw [List.append_assoc, ← List.cons_append, List.isChain_append] at hchain
  obtain ⟨hbefore, hrest, hjoin⟩ := hchain
  rw [List.cons_append] at hrest hjoin
  have hlast : (h :: l₁).getLast (List.cons_ne_nil h l₁) ∈ (h :: l₁).getLast? := by
    rw [List.getLast?_eq_some_getLast (List.cons_ne_nil h l₁)]
    rfl
  obtain ⟨hnext, hprev⟩ := hjoin _ hlast b rfl
  cases l₂ with
  | nil =>
    obtain ⟨⟨hnext', hprev'⟩, hafter⟩ := List.isChain_cons_cons.1 hrest
    exact ⟨hbefore, hafter, hprev, hnext', by rw [hprev, hnext], by rw [hnext', hprev']⟩
  | cons c l₂ =>
    obtain ⟨⟨hnext', hprev'⟩, hafter⟩ := List.isChain_cons_cons.1 hrest
    exact ⟨hbefore, hafter, hprev, hnext', by rw [hprev, hnext], by rw [hnext', hprev']⟩

theorem prev_mem (hl : CircularList next prev h (l₁ ++ b :: l₂)) : prev b ∈ h :: l₁ := by
  rw [hl.split.2.2.1]
  exact List.getLast_mem _

theorem next_mem (hl : CircularList next prev h (l₁ ++ b :: l₂)) : next b ∈ l₂ ++ [h] := by
  rw [hl.split.2.2.2.1]
  exact List.head_mem _

theorem next_ne (hl : CircularList next prev h (l₁ ++ b :: l₂)) : next b ≠ b := by
  intro heq
  have hmem := hl.next_mem
  have hnodup := hl.nodup
  rw [← List.cons_append, List.nodup_append] at hnodup
  obtain ⟨-, hnodup, hapart⟩ := hnodup
  rw [heq] at hmem
  rcases List.mem_append.1 hmem with hmem | hmem
  · exact (List.nodup_cons.1 hnodup).1 hmem
  · exact hapart h List.mem_cons_self b List.mem_cons_self (List.mem_singleton.1 hmem).symm

theorem push (hl : CircularList next prev h l) (hn : n ∉ h :: l) (hnext_h : next' h = n) (hnext_n : next' n = next h)
    (hnext : ∀ b ∈ l, next' b = next b) (hprev_n : prev' n = h) (hprev_next : prev' (next h) = n)
    (hprev : ∀ b ∈ h :: l, b ≠ next h → prev' b = prev b) : CircularList next' prev' h (n :: l) := by
  have hheader := hl.next_header
  have hnodup := hl.nodup
  refine ⟨List.isChain_cons_cons.2 ⟨⟨hnext_h, hprev_n⟩, ?_⟩, ?_⟩
  · cases l with
    | nil =>
      have hself : next h = h := hheader
      rw [hself] at hnext_n hprev_next
      exact List.isChain_cons_cons.2 ⟨⟨hnext_n, hprev_next⟩, List.isChain_singleton h⟩
    | cons b l =>
      have hfirst : next h = b := hheader
      rw [hfirst] at hnext_n hprev_next hprev
      refine List.isChain_cons_cons.2 ⟨⟨hnext_n, hprev_next⟩, ?_⟩
      obtain ⟨-, hrest⟩ := List.isChain_cons_cons.1 hl.chain
      refine chain_congr hrest (fun c hc => hnext c ?_) fun c hc => ?_
      · rwa [List.append_eq, ← List.cons_append, List.dropLast_concat] at hc
      · have hmem : c ∈ h :: l := by
          rcases List.mem_append.1 hc with hc | hc
          · exact List.mem_cons_of_mem h hc
          · rw [List.mem_singleton.1 hc]
            exact List.mem_cons_self
        obtain ⟨hnot, hrest⟩ := List.nodup_cons.1 hnodup
        have hne : c ≠ b := by
          rintro rfl
          rcases List.mem_cons.1 hmem with rfl | hc
          · exact hnot List.mem_cons_self
          · exact (List.nodup_cons.1 hrest).1 hc
        apply hprev c _ hne
        rcases List.mem_cons.1 hmem with rfl | hc
        · exact List.mem_cons_self
        · exact List.mem_cons_of_mem h (List.mem_cons_of_mem b hc)
  · obtain ⟨hnot, hrest⟩ := List.nodup_cons.1 hnodup
    obtain ⟨hnh, hnl⟩ := not_or.1 (mt List.mem_cons.2 hn)
    refine List.nodup_cons.2 ⟨?_, List.nodup_cons.2 ⟨hnl, hrest⟩⟩
    intro hmem
    rcases List.mem_cons.1 hmem with heq | hmem
    · exact hnh heq.symm
    · exact hnot hmem

theorem remove (hl : CircularList next prev h (l₁ ++ b :: l₂)) (hnext_prev : next' (prev b) = next b)
    (hnext : ∀ c ∈ h :: (l₁ ++ l₂), c ≠ prev b → next' c = next c) (hprev_next : prev' (next b) = prev b)
    (hprev : ∀ c ∈ h :: (l₁ ++ l₂), c ≠ next b → prev' c = prev c) : CircularList next' prev' h (l₁ ++ l₂) := by
  obtain ⟨hbefore, hafter, hlast, hhead, -, -⟩ := hl.split
  have hnodup := hl.nodup
  rw [← List.cons_append, List.nodup_append] at hnodup
  obtain ⟨hnodup₁, hnodup₂, hapart⟩ := hnodup
  have hnext_mem := hl.next_mem
  refine ⟨?_, ?_⟩
  · rw [List.append_assoc, ← List.cons_append, List.isChain_append]
    refine ⟨?_, ?_, ?_⟩
    · refine chain_congr hbefore (fun c hc => ?_) fun c hc => ?_
      · have hmem := List.mem_of_mem_dropLast hc
        rw [← List.cons_append] at hnext
        apply hnext c (List.mem_append_left l₂ hmem)
        rintro rfl
        rw [hlast] at hc
        exact getLast_notMem_dropLast _ hnodup₁ hc
      · apply hprev c (List.mem_cons_of_mem h (List.mem_append_left l₂ hc))
        rintro rfl
        rcases List.mem_append.1 hnext_mem with hmem | hmem
        · exact hapart _ (List.mem_cons_of_mem h hc) _ (List.mem_cons_of_mem b hmem) rfl
        · rw [List.mem_singleton.1 hmem] at hc
          exact (List.nodup_cons.1 hnodup₁).1 hc
    · cases l₂ with
      | nil => exact List.isChain_singleton h
      | cons d l₂ =>
        have hd : next b = d := hhead
        refine chain_congr hafter (fun c hc => ?_) fun c hc => ?_
        · rw [List.append_eq, ← List.cons_append, List.dropLast_concat] at hc
          apply hnext c (List.mem_cons_of_mem h (List.mem_append_right l₁ hc))
          rintro rfl
          exact hapart _ hl.prev_mem _ (List.mem_cons_of_mem b hc) rfl
        · rw [hd] at hprev
          obtain ⟨hnot, -⟩ := List.nodup_cons.1 (List.nodup_cons.1 hnodup₂).2
          rcases List.mem_append.1 hc with hc | hc
          · apply hprev c (List.mem_cons_of_mem h (List.mem_append_right l₁ (List.mem_cons_of_mem d hc)))
            rintro rfl
            exact hnot hc
          · rw [List.mem_singleton.1 hc]
            apply hprev h List.mem_cons_self
            rintro rfl
            exact hapart h List.mem_cons_self h (List.mem_cons_of_mem b List.mem_cons_self) rfl
    · intro c hc d hd
      rw [List.getLast?_eq_some_getLast (List.cons_ne_nil h l₁), Option.mem_some_iff, ← hlast] at hc
      rw [List.head?_eq_some_head (by simp), Option.mem_some_iff, ← hhead] at hd
      rw [← hc, ← hd]
      exact ⟨hnext_prev, hprev_next⟩
  · rw [← List.cons_append, List.nodup_append]
    refine ⟨hnodup₁, (List.nodup_cons.1 hnodup₂).2, fun c hc d hd => hapart c hc d (List.mem_cons_of_mem b hd)⟩

end CircularList
