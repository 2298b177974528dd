import RtThread.Lib.Tiling

/-!
# Regions cut into segments

A region of memory as a list of segments: each has a head of fixed width, with a link to the next segment, a link back and a tag, and behind it a payload. The places of the segments are not kept: they follow from the sizes of those before. An operation on the region replaces a stretch of segments by another of the same width.
-/

structure Seg (τ : Type*) where
  size : Nat
  tag : τ

namespace Seg

variable {τ : Type*} {head a b c e m : Nat} {next prev next' prev' : Nat → Nat} {tag tag' : Nat → τ} {s t : Seg τ}
  {l l₁ l₂ mid mid' : List (Seg τ)} {p : τ → Bool}

def width (head : Nat) (l : List (Seg τ)) : Nat := (l.map fun s => head + s.size).sum

@[simp] theorem width_nil : width head ([] : List (Seg τ)) = 0 := rfl

@[simp] theorem width_cons : width head (s :: l) = head + s.size + width head l := by simp [width]

@[simp] theorem width_append : width head (l₁ ++ l₂) = width head l₁ + width head l₂ := by simp [width]

/-- From `b` on the segments of `l` follow each other, and the last ends at `e`. -/
def Segments (head : Nat) (next prev : Nat → Nat) (tag : Nat → τ) : Nat → List (Seg τ) → Nat → Prop
  | b, [], e => b = e
  | b, s :: l, e => tag b = s.tag ∧ next b = b + (head + s.size) ∧ prev (b + (head + s.size)) = b ∧
      Segments head next prev tag (b + (head + s.size)) l e

namespace Segments

@[simp] theorem nil_iff : Segments head next prev tag b [] e ↔ b = e := Iff.rfl

@[simp] theorem cons_iff : Segments head next prev tag b (s :: l) e ↔ tag b = s.tag ∧ next b = b + (head + s.size) ∧
    prev (b + (head + s.size)) = b ∧ Segments head next prev tag (b + (head + s.size)) l e := Iff.rfl

theorem append_iff : Segments head next prev tag b (l₁ ++ l₂) e ↔
    Segments head next prev tag b l₁ (b + width head l₁) ∧ Segments head next prev tag (b + width head l₁) l₂ e := by
  induction l₁ generalizing b with
  | nil => simp
  | cons s l₁ ih =>
    rw [List.cons_append, cons_iff, cons_iff, ih, width_cons, and_assoc, and_assoc, and_assoc, Nat.add_assoc b]

theorem end_eq (h : Segments head next prev tag b l e) : e = b + width head l := by
  induction l generalizing b with
  | nil => exact h.symm
  | cons s l ih =>
    rw [ih h.2.2.2, width_cons]
    omega

theorem congr (hhead : 0 < head) (h : Segments head next prev tag b l e)
    (hnext : ∀ a, b ≤ a → a < e → next' a = next a) (htag : ∀ a, b ≤ a → a < e → tag' a = tag a)
    (hprev : ∀ a, b < a → a ≤ e → prev' a = prev a) : Segments head next' prev' tag' b l e := by
  induction l generalizing b with
  | nil => exact h
  | cons s l ih =>
    have hend := end_eq h
    rw [width_cons] at hend
    obtain ⟨htag_b, hnext_b, hprev_b, hrest⟩ := h
    refine ⟨?_, ?_, ?_, ih hrest ?_ ?_ ?_⟩
    · rw [htag b (Nat.le_refl b) (by omega)]
      exact htag_b
    · rw [hnext b (Nat.le_refl b) (by omega)]
      exact hnext_b
    · rw [hprev _ (by omega) (by omega)]
      exact hprev_b
    · intro a hba hae
      exact hnext a (by omega) hae
    · intro a hba hae
      exact htag a (by omega) hae
    · intro a hba hae
      exact hprev a (by omega) hae

theorem replace (hhead : 0 < head) (h : Segments head next prev tag b (l₁ ++ (mid ++ l₂)) e)
    (hm : m = b + width head l₁) (hc : c = m + width head mid) (hmid : Segments head next' prev' tag' m mid' c)
    (hnext : ∀ a, a < m ∨ c ≤ a → a < e → next' a = next a) (htag : ∀ a, a < m ∨ c ≤ a → a < e → tag' a = tag a)
    (hprev : ∀ a, a ≤ m ∨ c < a → b < a → a ≤ e → prev' a = prev a) :
    Segments head next' prev' tag' b (l₁ ++ (mid' ++ l₂)) e := by
  obtain ⟨hbefore, hrest⟩ := append_iff.1 h
  obtain ⟨hold, hafter⟩ := append_iff.1 hrest
  rw [← hm] at hbefore hold hafter
  rw [← hc] at hafter
  have hwidth : width head mid' = width head mid := by
    have := hmid.end_eq
    omega
  have hlast := hafter.end_eq
  refine append_iff.2 ⟨?_, append_iff.2 ⟨?_, ?_⟩⟩
  all_goals rw [← hm]
  · refine hbefore.congr hhead ?_ ?_ ?_
    · intro a hba ham
      exact hnext a (.inl ham) (by omega)
    · intro a hba ham
      exact htag a (.inl ham) (by omega)
    · intro a hba ham
      exact hprev a (.inl ham) hba (by omega)
  · rwa [hwidth, ← hc]
  · rw [hwidth, ← hc]
    refine hafter.congr hhead ?_ ?_ ?_
    · intro a hca hae
      exact hnext a (.inr hca) hae
    · intro a hca hae
      exact htag a (.inr hca) hae
    · intro a hca hae
      exact hprev a (.inr hca) (by omega) hae

theorem one_iff : Segments head next prev tag b [s] e ↔
    tag b = s.tag ∧ next b = e ∧ prev e = b ∧ e = b + (head + s.size) := by
  rw [cons_iff, nil_iff]
  constructor
  · rintro ⟨htag, hnext, hprev, rfl⟩
    exact ⟨htag, hnext, hprev, rfl⟩
  · rintro ⟨htag, hnext, hprev, rfl⟩
    exact ⟨htag, hnext, hprev, rfl⟩

theorem at_mid (h : Segments head next prev tag b (l₁ ++ s :: l₂) e) (hm : m = b + width head l₁) :
    tag m = s.tag ∧ next m = m + (head + s.size) ∧ prev (m + (head + s.size)) = m := by
  subst hm
  obtain ⟨htag, hnext, hprev, -⟩ := (append_iff.1 h).2
  exact ⟨htag, hnext, hprev⟩

end Segments

/-! ## Places -/

/-- Where the segments are whose tag meets `p`. -/
def addrs (head : Nat) (p : τ → Bool) : Nat → List (Seg τ) → List Nat
  | _, [] => []
  | b, s :: l => (if p s.tag then [b] else []) ++ addrs head p (b + (head + s.size)) l

@[simp] theorem addrs_nil : addrs head p b [] = [] := rfl

theorem addrs_cons : addrs head p b (s :: l) = (if p s.tag then [b] else []) ++ addrs head p (b + (head + s.size)) l := rfl

theorem addrs_append : addrs head p b (l₁ ++ l₂) = addrs head p b l₁ ++ addrs head p (b + width head l₁) l₂ := by
  induction l₁ generalizing b with
  | nil => simp
  | cons s l₁ ih =>
    rw [List.cons_append, addrs_cons, addrs_cons, ih, width_cons, List.append_assoc, Nat.add_assoc b]

theorem mem_addrs : a ∈ addrs head p b l ↔
    ∃ l₁ s l₂, l = l₁ ++ s :: l₂ ∧ p s.tag = true ∧ a = b + width head l₁ := by
  induction l generalizing b with
  | nil => simp
  | cons s l ih =>
    rw [addrs_cons, List.mem_append, ih]
    constructor
    · rintro (hmem | ⟨l₁, t, l₂, rfl, hp, rfl⟩)
      · split_ifs at hmem with hp
        · exact ⟨[], s, l, rfl, hp, by simpa using hmem⟩
        · cases hmem
      · exact ⟨s :: l₁, t, l₂, rfl, hp, by rw [width_cons]; omega⟩
    · rintro ⟨l₁, t, l₂, heq, hp, rfl⟩
      cases l₁ with
      | nil =>
        obtain ⟨rfl, rfl⟩ := List.cons.inj heq
        exact .inl (by simp [hp])
      | cons u l₁ =>
        obtain ⟨rfl, rfl⟩ := List.cons.inj heq
        exact .inr ⟨l₁, t, l₂, rfl, hp, by rw [width_cons]; omega⟩

theorem le_of_mem_addrs (h : a ∈ addrs head p b l) : b ≤ a ∧ a + head ≤ b + width head l := by
  obtain ⟨l₁, s, l₂, rfl, -, rfl⟩ := mem_addrs.1 h
  rw [width_append, width_cons]
  omega

theorem length_le_width (hhead : 0 < head) : l.length ≤ width head l := by
  induction l with
  | nil => exact Nat.le_refl 0
  | cons s l ih =>
    rw [List.length_cons, width_cons]
    omega

theorem length_addrs_le : (addrs head p b l).length ≤ l.length := by
  induction l generalizing b with
  | nil => exact Nat.le_refl 0
  | cons s l ih =>
    have hrest := ih (b := b + (head + s.size))
    rw [addrs_cons, List.length_append, List.length_cons]
    split_ifs
    · rw [List.length_singleton]
      omega
    · rw [List.length_nil]
      omega

theorem Segments.chain_eq (h : Segments head next prev tag b l e) (hhead : 0 < head) {n : Nat} (hn : l.length < n) :
    Tiling.chain next e n b = addrs head (fun _ => true) b l := by
  obtain ⟨n, rfl⟩ := Nat.exists_eq_add_one_of_ne_zero (Nat.ne_of_gt (Nat.zero_lt_of_lt hn))
  rw [Tiling.chain]
  induction l generalizing b n with
  | nil => exact if_pos h
  | cons s l ih =>
    have hend := h.end_eq
    obtain ⟨-, hnext, -, hrest⟩ := h
    rw [List.length_cons] at hn
    rw [width_cons] at hend
    rw [if_neg (by omega), addrs_cons, if_pos rfl, List.singleton_append, hnext]
    obtain ⟨n, rfl⟩ : ∃ k, n = k + 1 := ⟨n - 1, by omega⟩
    rw [Tiling.chain, ih hrest n (by omega)]

/-- Where sizes are known by the places, a segment that is found ends before the next one found begins. -/
theorem pairwise_addrs {size : Nat → Nat} (hsize : ∀ l₁ s l₂, l = l₁ ++ s :: l₂ → size (b + width head l₁) = s.size) :
    (addrs head p b l).Pairwise fun a c => a + (head + size a) ≤ c := by
  induction l generalizing b with
  | nil => exact List.Pairwise.nil
  | cons s l ih =>
    have hfirst : size b = s.size := hsize [] s l rfl
    have hrest : (addrs head p (b + (head + s.size)) l).Pairwise fun a c => a + (head + size a) ≤ c := by
      apply ih
      intro l₁ t l₂ heq
      have hat := hsize (s :: l₁) t l₂ (by rw [heq, List.cons_append])
      rwa [width_cons, ← Nat.add_assoc] at hat
    rw [addrs_cons]
    split_ifs
    · refine List.pairwise_cons.2 ⟨fun c hc => ?_, hrest⟩
      rw [hfirst]
      exact (le_of_mem_addrs hc).1
    · exact hrest

/-! ## Sizes -/

variable {size : Nat → Nat} {q : τ → Bool}

/-- From `b` on the sizes of the segments are known by their places. -/
def Sized (head : Nat) (size : Nat → Nat) : Nat → List (Seg τ) → Prop
  | _, [] => True
  | b, s :: l => size b = s.size ∧ Sized head size (b + (head + s.size)) l

namespace Sized

theorem append_iff : Sized head size b (l₁ ++ l₂) ↔ Sized head size b l₁ ∧ Sized head size (b + width head l₁) l₂ := by
  induction l₁ generalizing b with
  | nil => simp [Sized]
  | cons s l₁ ih => simp only [List.cons_append, Sized, ih, width_cons, and_assoc, Nat.add_assoc]

theorem congr {size' : Nat → Nat} (hhead : 0 < head) (h : Sized head size b l) (hsize : ∀ a, b ≤ a → a < b + width head l → size' a = size a) :
    Sized head size' b l := by
  induction l generalizing b with
  | nil => trivial
  | cons s l ih =>
    rw [width_cons] at hsize
    refine ⟨(hsize b (Nat.le_refl b) (by omega)).trans h.1, ih h.2 ?_⟩
    intro a hba hae
    exact hsize a (by omega) (by omega)

theorem pairwise (h : Sized head size b l) : (addrs head p b l).Pairwise fun a c => a + (head + size a) ≤ c := by
  apply pairwise_addrs
  rintro l₁ s l₂ rfl
  exact (append_iff.1 h).2.1

theorem end_le (h : Sized head size b l) (ha : a ∈ addrs head p b l) : a + (head + size a) ≤ b + width head l := by
  obtain ⟨l₁, s, l₂, rfl, -, rfl⟩ := mem_addrs.1 ha
  have hsize : size (b + width head l₁) = s.size := (append_iff.1 h).2.1
  rw [hsize, width_append, width_cons]
  omega

theorem end_le_of_lt (h : Sized head size b l) (ha : a ∈ addrs head p b l) (hc : c ∈ addrs head q b l) (hac : a < c) :
    a + (head + size a) ≤ c := by
  obtain ⟨l₁, s, l₂, rfl, -, rfl⟩ := mem_addrs.1 ha
  have hsize : size (b + width head l₁) = s.size := (append_iff.1 h).2.1
  rw [hsize]
  rw [addrs_append, List.mem_append, addrs_cons, List.mem_append] at hc
  rcases hc with hc | hc | hc
  · have := (le_of_mem_addrs hc).2
    omega
  · split_ifs at hc
    · have := List.mem_singleton.1 hc
      omega
    · cases hc
  · exact (le_of_mem_addrs hc).1

theorem exists_covering (h : Sized head size b l) (hba : b ≤ a) (hae : a < b + width head l) :
    ∃ l₁ s l₂, l = l₁ ++ s :: l₂ ∧ b + width head l₁ ≤ a ∧
      a < b + width head l₁ + (head + size (b + width head l₁)) := by
  induction l generalizing b with
  | nil => exact absurd hae (Nat.not_lt.2 hba)
  | cons s l ih =>
    rw [width_cons] at hae
    obtain ⟨hsize, hrest⟩ := h
    rcases Nat.lt_or_ge a (b + (head + s.size)) with hlt | hge
    · exact ⟨[], s, l, rfl, hba, by rw [width_nil, Nat.add_zero, hsize]; exact hlt⟩
    · obtain ⟨l₁, t, l₂, rfl, hle, hlt⟩ := ih hrest hge (by omega)
      refine ⟨s :: l₁, t, l₂, rfl, ?_, ?_⟩
      · rw [width_cons]
        omega
      · rw [width_cons, ← Nat.add_assoc b]
        exact hlt
end Sized

theorem disjoint_addrs (hhead : 0 < head) (hpq : ∀ t, p t = true → q t = false) :
    List.Disjoint (addrs head p b l) (addrs head q b l) := by
  induction l generalizing b with
  | nil => exact List.disjoint_nil_left _
  | cons s l ih =>
    intro a hap haq
    rw [addrs_cons, List.mem_append] at hap haq
    have hfirst : ∀ {r : τ → Bool}, a ∈ (if r s.tag = true then [b] else []) → r s.tag = true ∧ a = b := by
      intro r hmem
      split_ifs at hmem with hr
      · exact ⟨hr, by simpa using hmem⟩
      · cases hmem
    rcases hap with hap | hap <;> rcases haq with haq | haq
    · obtain ⟨hp, -⟩ := hfirst hap
      rw [hpq _ hp] at haq
      cases haq
    · have := (le_of_mem_addrs haq).1
      have := (hfirst hap).2
      omega
    · have := (le_of_mem_addrs hap).1
      have := (hfirst haq).2
      omega
    · exact ih hap haq

end Seg
