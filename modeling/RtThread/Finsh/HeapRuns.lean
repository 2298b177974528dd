import RtThread.Finsh.HeapBlocks

/-!
# Allocation in the shell's heap

Every request whose size does not wrap leaves the two lists sorted and apart, and the blocks cover the heap. A request of almost all of memory is rounded to nothing, and gets a block that is empty.
-/

namespace RtThread

open Function

variable {base n size header : Nat} {vars : FinshRoots} {heap : FinshHeap} {l l₁ l₂ : List (Seg Bool)}

/-! ## One block -/

theorem not_mem_of_inside {a : Nat} {s : Seg Bool} {p : Bool → Bool} (hfrom : blocksEnd base l₁ < a)
    (hto : a < blocksEnd base l₁ + (sizeofFinshBlockHeader + s.size)) :
    a ∉ Seg.addrs sizeofFinshBlockHeader p base (l₁ ++ s :: l₂) := by
  intro hmem
  rw [Seg.addrs_append, List.mem_append, Seg.addrs_cons, List.mem_append] at hmem
  rcases hmem with hmem | hmem | hmem
  · have := lt_blocksEnd hmem
    omega
  · split_ifs at hmem
    · have heq : a = blocksEnd base l₁ := List.mem_singleton.1 hmem
      omega
    · cases hmem
  · have hge : blocksEnd base l₁ + (sizeofFinshBlockHeader + s.size) ≤ a := le_of_mem_blocks hmem
    omega

theorem CutInto.split (h : CutInto base heap (l₁ ++ ⟨n, true⟩ :: l₂)) (hend : base + finshHeapMax < finshWord)
    (hsize : size + sizeofFinshBlockHeader ≤ n) :
    CutInto base (finshBlockSplit heap (blocksEnd base l₁) size)
        (l₁ ++ ⟨size, true⟩ :: ⟨n - (sizeofFinshBlockHeader + size), true⟩ :: l₂) ∧
      BlocksKept (allocatedBlocks base (l₁ ++ ⟨n, true⟩ :: l₂)) heap
        (finshBlockSplit heap (blocksEnd base l₁) size) := by
  have hle := h.end_le
  have hlength := h.length_eq
  obtain ⟨hbefore, -, hafter⟩ := Seg.Sized.append_iff.1 h.sized
  dsimp only at hle hlength hafter
  have hrest : (blocksEnd base l₁ + sizeofFinshBlockHeader + size) % finshWord =
      blocksEnd base l₁ + (sizeofFinshBlockHeader + size) := by
    rw [Nat.mod_eq_of_lt] <;> omega
  have hleft : (heap.length (blocksEnd base l₁) + 2 * finshWord - sizeofFinshBlockHeader - size) % finshWord =
      n - (sizeofFinshBlockHeader + size) := by
    rw [hlength]
    simp only [finshWord, finshHeapMax, sizeofFinshBlockHeader] at *
    omega
  have hplace : blocksEnd base l₁ + (sizeofFinshBlockHeader + size) +
      (sizeofFinshBlockHeader + (n - (sizeofFinshBlockHeader + size))) =
        blocksEnd base l₁ + (sizeofFinshBlockHeader + n) := by omega
  have hinside : ∀ p, blocksEnd base l₁ + (sizeofFinshBlockHeader + size) ∉
      Seg.addrs sizeofFinshBlockHeader p base (l₁ ++ ⟨n, true⟩ :: l₂) := by
    intro p
    apply not_mem_of_inside
    · simp only [sizeofFinshBlockHeader]
      omega
    · simp only [sizeofFinshBlockHeader] at hsize ⊢
      omega
  have hheader : blocksEnd base l₁ ∉ allocatedBlocks base (l₁ ++ ⟨n, true⟩ :: l₂) := by
    apply disjoint_blocks
    rw [freeBlocks_free]
    exact List.mem_append_right _ List.mem_cons_self
  unfold finshBlockSplit
  rw [hrest, hleft]
  refine ⟨⟨?_, ?_, ?_, ?_, ?_⟩, ?_, rfl⟩
  · have hwidth := h.width
    rw [Seg.width_append, Seg.width_cons] at hwidth ⊢
    rw [Seg.width_cons]
    dsimp only at hwidth ⊢
    omega
  · apply Seg.Sized.append_iff.2
    refine ⟨hbefore.congr (by decide) ?_, update_self .., ?_, ?_⟩
    · intro a _ ha
      have hne : a ≠ blocksEnd base l₁ := Nat.ne_of_lt ha
      have hne' : a ≠ blocksEnd base l₁ + (sizeofFinshBlockHeader + size) :=
        Nat.ne_of_lt (Nat.lt_of_lt_of_le ha (Nat.le_add_right ..))
      exact (update_of_ne hne ..).trans (update_of_ne hne' ..)
    · have hne : blocksEnd base l₁ + (sizeofFinshBlockHeader + size) ≠ blocksEnd base l₁ := by
        simp only [sizeofFinshBlockHeader]
        omega
      exact (update_of_ne hne ..).trans (update_self ..)
    · change Seg.Sized _ _ (blocksEnd base l₁ + _ + _) l₂
      rw [hplace]
      apply Seg.Sized.congr (by decide) hafter
      intro a ha _
      have hge : blocksEnd base l₁ + (sizeofFinshBlockHeader + n) ≤ a := ha
      have hne : a ≠ blocksEnd base l₁ := by
        simp only [sizeofFinshBlockHeader] at hge
        omega
      have hne' : a ≠ blocksEnd base l₁ + (sizeofFinshBlockHeader + size) := by
        simp only [sizeofFinshBlockHeader] at hge hsize ⊢
        omega
      exact (update_of_ne hne ..).trans (update_of_ne hne' ..)
  · have hfree := h.free
    have hnodup := h.nodup id
    have hnot := hinside id
    rw [← freeBlocks] at hnodup hnot
    rw [freeBlocks_free] at hfree hnodup hnot
    rw [freeBlocks_free, freeBlocks_cons_free, hplace]
    exact hfree.insertAfter hnodup hnot
  · have hallocated := h.allocated
    have hnot := hinside not
    rw [← allocatedBlocks] at hnot
    rw [allocatedBlocks_free] at hallocated hheader hnot
    rw [allocatedBlocks_free, allocatedBlocks_cons_free, hplace]
    exact (hallocated.update hnot).update hheader
  · obtain ⟨k, hlast⟩ := h.top
    rw [List.getLast?_append] at hlast ⊢
    rw [List.getLast?_cons_cons]
    cases l₂ with
    | nil => exact ⟨_, rfl⟩
    | cons s l₂ =>
      rw [List.getLast?_cons_cons] at hlast ⊢
      exact ⟨k, hlast⟩
  · intro a ha
    have hne : a ≠ blocksEnd base l₁ := by
      rintro rfl
      exact hheader ha
    have hne' : a ≠ blocksEnd base l₁ + (sizeofFinshBlockHeader + size) := by
      rintro rfl
      exact hinside not ha
    exact (update_of_ne hne ..).trans (update_of_ne hne' ..)

theorem CutInto.take {s : Seg Bool} (h : CutInto base heap (l₁ ++ ⟨n, true⟩ :: s :: l₂)) :
    ∃ removed inserted, finshBlockRemove heap.freeList heap.next (blocksEnd base l₁) = some removed ∧
      finshBlockInsert heap.allocateList (update removed.2 (blocksEnd base l₁) none) (blocksEnd base l₁) =
        some inserted ∧
      ∀ byte, CutInto base
        { heap with freeList := removed.1, allocateList := inserted.1, next := inserted.2, byte := byte }
        (l₁ ++ ⟨n, false⟩ :: s :: l₂) := by
  have hfree := h.free
  have hnodup := h.nodup id
  have hlen := h.length_le id
  rw [← freeBlocks, freeBlocks_free] at hnodup hlen
  rw [freeBlocks_free] at hfree
  rw [List.length_append, List.length_cons] at hlen
  obtain ⟨removed, hremoved, hlinked, hsame⟩ := finshBlockRemove_spec hfree hnodup (by omega)
  have hheader : blocksEnd base l₁ ∉ allocatedBlocks base (l₁ ++ ⟨n, true⟩ :: s :: l₂) := by
    apply disjoint_blocks
    rw [freeBlocks_free]
    exact List.mem_append_right _ List.mem_cons_self
  have hallocated : LinkedFrom (update removed.2 (blocksEnd base l₁) none) heap.allocateList
      (allocatedBlocks base (l₁ ++ ⟨n, true⟩ :: s :: l₂)) := by
    refine LinkedFrom.update (h.allocated.congr ?_) hheader
    intro a ha
    have hnot := fun hmem => disjoint_blocks hmem ha
    rw [freeBlocks_free, List.mem_append, List.mem_cons] at hnot
    apply hsame
    · exact fun hmem => hnot (.inl hmem)
    · exact fun heq => hnot (.inr (.inl heq))
  have hnodup' := h.nodup not
  have hlen' := h.length_le not
  rw [← allocatedBlocks, allocatedBlocks_free] at hnodup' hlen'
  rw [allocatedBlocks_free] at hallocated
  rw [List.length_append] at hlen'
  obtain ⟨inserted, hinserted, hlinked', hsame'⟩ := finshBlockInsert_spec (blocksEnd base l₁) hallocated hnodup'
    (fun a ha => lt_blocksEnd ha)
    (fun a ha => by
      have := le_of_mem_blocks ha
      simp only [sizeofFinshBlockHeader] at this
      omega)
    (fun _ => update_self ..) (by omega)
  refine ⟨removed, inserted, hremoved, hinserted, ?_⟩
  intro byte
  constructor
  · simpa using h.width
  · have hsized := Seg.Sized.append_iff.1 h.sized
    exact Seg.Sized.append_iff.2 ⟨hsized.1, hsized.2.1, hsized.2.2⟩
  · have hdisjoint : List.Disjoint (freeBlocks base (l₁ ++ ⟨n, false⟩ :: s :: l₂)) _ := disjoint_blocks
    rw [freeBlocks_allocated, allocatedBlocks_allocated] at hdisjoint
    rw [freeBlocks_allocated]
    apply hlinked.congr
    intro a ha
    have hnot := hdisjoint ha
    rw [List.mem_append, List.mem_cons] at hnot
    have hne : a ≠ blocksEnd base l₁ := fun heq => hnot (.inr (.inl heq))
    exact (hsame' a (fun hmem => hnot (.inl hmem)) hne).trans (update_of_ne hne ..)
  · rw [allocatedBlocks_allocated]
    exact hlinked'
  · obtain ⟨k, hlast⟩ := h.top
    rw [List.getLast?_append, List.getLast?_cons_cons] at hlast ⊢
    exact ⟨k, hlast⟩

theorem CutInto.takeBlock_spec (h : CutInto base heap (l₁ ++ ⟨n, true⟩ :: l₂)) (hend : base + finshHeapMax < finshWord)
    (hsize : size + sizeofFinshBlockHeader ≤ n) :
    ∃ heap', takeBlock heap (blocksEnd base l₁) size = some (some (finshBlockGetData (blocksEnd base l₁)), heap') ∧
      CutInto base heap' (l₁ ++ ⟨size, false⟩ :: ⟨n - (sizeofFinshBlockHeader + size), true⟩ :: l₂) ∧
      (∀ a ∈ allocatedBlocks base (l₁ ++ ⟨n, true⟩ :: l₂), heap'.length a = heap.length a) ∧
      heap'.byte = fun a => if finshBlockGetData (blocksEnd base l₁) ≤ a ∧
        a < finshBlockGetData (blocksEnd base l₁) + size then 0 else heap.byte a := by
  obtain ⟨hcut, hkept⟩ := h.split hend hsize
  obtain ⟨removed, inserted, hremoved, hinserted, htaken⟩ := hcut.take
  refine ⟨_, ?_, htaken fun a => if finshBlockGetData (blocksEnd base l₁) ≤ a ∧
    a < finshBlockGetData (blocksEnd base l₁) + size then 0 else heap.byte a, hkept.1, rfl⟩
  simp only [takeBlock, hremoved, Option.bind_some, hinserted, Option.map_some]
  rfl

/-! ## The collector -/

theorem CutInto.exists_block (h : CutInto base heap l) {p : Bool → Bool}
    (hmem : header ∈ Seg.addrs sizeofFinshBlockHeader p base l) :
    ∃ l₁ s l₂, l = l₁ ++ s :: l₂ ∧ p s.tag = true ∧ header = blocksEnd base l₁ ∧ heap.length header = s.size := by
  obtain ⟨l₁, s, l₂, rfl, hp, rfl⟩ := Seg.mem_addrs.1 hmem
  exact ⟨l₁, s, l₂, rfl, hp, rfl, h.length_eq⟩

theorem gcFrom_spec (vars : FinshRoots) (hend : base + finshHeapMax < finshWord) {rest : List Nat} : ∀ {n : Nat} {p : Option Nat}
    {before : List Nat} {heap : FinshHeap} {l : List (Seg Bool)}, CutInto base heap l →
    allocatedBlocks base l = before ++ rest → LinkedFrom heap.next p rest → rest.length ≤ n →
    ∃ heap' l', gcFrom vars n p heap = some heap' ∧ CutInto base heap' l' ∧
      allocatedBlocks base l' = before ++ rest.filter (fun header => vars.Keeps (finshBlockGetData header)) ∧
      BlocksKept (allocatedBlocks base l') heap heap' ∧
      (∀ a ∈ freeBlocks base l', a ∈ freeBlocks base l ∨ ¬ vars.Keeps (finshBlockGetData a)) ∧
      (FreeApart l → FreeApart l') := by
  induction rest with
  | nil =>
    intro n p before heap l h hlist hp _
    obtain rfl := LinkedFrom.nil_iff.1 hp
    refine ⟨heap, l, ?_, h, hlist, ⟨fun a _ => rfl, rfl⟩, fun _ ha => .inl ha, id⟩
    cases n <;> rfl
  | cons header rest ih =>
    intro n p before heap l h hlist hp hn
    obtain ⟨n, rfl⟩ := Nat.exists_eq_add_one_of_ne_zero (Nat.ne_of_gt (Nat.zero_lt_of_lt hn))
    obtain ⟨rfl, hrest⟩ := hp
    rw [List.length_cons] at hn
    rw [gcFrom]
    split_ifs with hkeeps
    · have hlist' : allocatedBlocks base l = (before ++ [header]) ++ rest := by rw [hlist]; simp
      obtain ⟨heap', l', hgc, hcut, hallocated, hothers⟩ := ih h hlist' hrest (Nat.le_of_succ_le_succ hn)
      refine ⟨heap', l', hgc, hcut, ?_, hothers⟩
      rw [hallocated, List.filter_cons_of_pos (by simpa using hkeeps), List.append_assoc]
      rfl
    · have hmem : header ∈ allocatedBlocks base l := by rw [hlist]; simp
      obtain ⟨l₁, ⟨size, isFree⟩, l₂, rfl, htag, rfl, -⟩ := h.exists_block hmem
      obtain rfl : isFree = false := by simpa using htag
      have hnodup := h.nodup not
      rw [← allocatedBlocks, hlist, List.nodup_middle, List.nodup_cons, List.mem_append, not_or] at hnodup
      obtain ⟨hsplit, -, hsplit'⟩ := (List.append_cons_inj_of_notMem hnodup.1.1 hnodup.1.2).1
        (hlist.symm.trans allocatedBlocks_allocated)
      obtain ⟨heap₁, l₃, hfreed, hcut₁, hallocated₁, hkept₁, hfree₁, hfreeApart₁⟩ := h.finshHeapFree_spec hend
      rw [← hsplit, ← hsplit'] at hallocated₁
      have hlinked := hcut₁.allocated
      rw [hallocated₁] at hlinked
      have hnext : heap.next (blocksEnd base l₁) = rest.head? := hrest.head?_eq.symm
      rw [hfreed, Option.bind_some, hnext]
      obtain ⟨heap', l', hgc, hcut, hallocated, hkept, hfree, hfreeApart⟩ := ih hcut₁ hallocated₁ hlinked.of_head?
        (Nat.le_of_succ_le_succ hn)
      refine ⟨heap', l', hgc, hcut, ?_, ⟨?_, hkept.2.trans hkept₁.2⟩, ?_, fun hbefore => hfreeApart (hfreeApart₁ hbefore)⟩
      · rw [hallocated, List.filter_cons_of_neg (by simpa using hkeeps)]
      · intro a ha
        refine (hkept.1 a ha).trans (hkept₁.1 a ?_)
        rw [hallocated₁]
        rw [hallocated, List.mem_append] at ha
        exact List.mem_append.2 (ha.imp_right List.mem_of_mem_filter)
      · intro a ha
        rcases hfree a ha with ha | ha
        · refine (hfree₁ a ha).imp_right ?_
          rintro rfl
          exact hkeeps
        · exact .inr ha

structure RootsKept (base : Nat) (vars : FinshRoots) (heap : FinshHeap) (l : List (Seg Bool)) (heap' : FinshHeap)
    (l' : List (Seg Bool)) : Prop where
  cut : CutInto base heap' l'
  allocated : allocatedBlocks base l' = (allocatedBlocks base l).filter fun header => vars.Keeps (finshBlockGetData header)
  kept : BlocksKept (allocatedBlocks base l') heap heap'
  free : ∀ a ∈ freeBlocks base l', a ∈ freeBlocks base l ∨ ¬ vars.Keeps (finshBlockGetData a)
  freeApart : FreeApart l → FreeApart l'

theorem CutInto.finshHeapGc_spec (vars : FinshRoots) (h : CutInto base heap l) (hend : base + finshHeapMax < finshWord) :
    ∃ heap' l', finshHeapGc vars heap = some heap' ∧ RootsKept base vars heap l heap' l' := by
  obtain ⟨heap', l', hgc, hcut, hallocated, hkept, hfree, hfreeApart⟩ :=
    gcFrom_spec vars hend h (List.nil_append _).symm h.allocated (h.length_le not)
  exact ⟨heap', l', hgc, hcut, hallocated, hkept, hfree, hfreeApart⟩

/-! ## Requests -/

theorem firstFit_spec (fits : Nat → Bool) {list : List Nat} : ∀ {n : Nat} {p : Option Nat},
    LinkedFrom heap.next p list → list.length ≤ n →
    ∃ found, firstFit heap fits n p = some found ∧
      (∀ header, found = some header → header ∈ list ∧ fits (heap.length header) = true) ∧
      (found = none → ∀ header ∈ list, fits (heap.length header) = false) := by
  induction list with
  | nil =>
    intro n p hp _
    obtain rfl := LinkedFrom.nil_iff.1 hp
    refine ⟨none, ?_, fun _ hfound => (nomatch hfound), fun _ _ hmem => (nomatch hmem)⟩
    cases n <;> rfl
  | cons first list ih =>
    intro n p hp hn
    obtain ⟨n, rfl⟩ := Nat.exists_eq_add_one_of_ne_zero (Nat.ne_of_gt (Nat.zero_lt_of_lt hn))
    obtain ⟨rfl, hrest⟩ := hp
    rw [firstFit]
    split_ifs with hfits
    · refine ⟨some first, rfl, ?_, fun hfound => nomatch hfound⟩
      intro header hfound
      obtain rfl := Option.some.inj hfound
      exact ⟨List.mem_cons_self, hfits⟩
    · rw [List.length_cons] at hn
      obtain ⟨found, hfound, hspec, hnone⟩ := ih hrest (Nat.le_of_succ_le_succ hn)
      refine ⟨found, hfound, ?_, ?_⟩
      · intro header heq
        exact (hspec header heq).imp_left (List.mem_cons_of_mem first)
      · intro heq header hmem
        rcases List.mem_cons.1 hmem with rfl | hmem
        · exact Bool.not_eq_true _ ▸ hfits
        · exact hnone heq header hmem

def NoWrap (size : Nat) : Prop := size + 12 ≤ finshWord

instance : Decidable (NoWrap size) := inferInstanceAs (Decidable (_ ≤ _))

theorem NoWrap.le_heapAlignSize (h : NoWrap size) : size ≤ heapAlignSize size := by
  simp only [NoWrap, heapAlignSize, finshWord] at h ⊢
  omega

theorem NoWrap.needed_eq (h : NoWrap size) :
    (heapAlignSize size + sizeofFinshBlockHeader) % finshWord = heapAlignSize size + sizeofFinshBlockHeader := by
  simp only [NoWrap, heapAlignSize, finshWord, sizeofFinshBlockHeader] at h ⊢
  omega

structure Granted (base header size : Nat) (heap : FinshHeap) (l : List (Seg Bool)) (heap' : FinshHeap)
    (l' : List (Seg Bool)) : Prop where
  cut : CutInto base heap' l'
  free : header ∈ freeBlocks base l
  mem_iff : ∀ a, a ∈ allocatedBlocks base l' ↔ a = header ∨ a ∈ allocatedBlocks base l
  length : heap'.length header = size
  lengths : ∀ a ∈ allocatedBlocks base l, heap'.length a = heap.length a
  byte : heap'.byte = fun a =>
    if finshBlockGetData header ≤ a ∧ a < finshBlockGetData header + size then 0 else heap.byte a
  freeApart : FreeApart l → FreeApart l'

theorem CutInto.takeBlock_of_free (h : CutInto base heap l) (hend : base + finshHeapMax < finshWord)
    (hmem : header ∈ freeBlocks base l) (hsize : size + sizeofFinshBlockHeader ≤ heap.length header) :
    ∃ heap' l', takeBlock heap header size = some (some (finshBlockGetData header), heap') ∧
      Granted base header size heap l heap' l' := by
  obtain ⟨l₁, ⟨n, isFree⟩, l₂, rfl, htag, rfl, hlength⟩ := h.exists_block hmem
  obtain rfl : isFree = true := htag
  rw [hlength] at hsize
  obtain ⟨heap', htake, hcut, hlengths, hbyte⟩ := h.takeBlock_spec hend hsize
  refine ⟨heap', _, htake, hcut, hmem, ?_, hcut.length_eq, hlengths, hbyte, ?_⟩
  · intro a
    have hplace : blocksEnd base l₁ + (sizeofFinshBlockHeader + size) +
        (sizeofFinshBlockHeader + (n - (sizeofFinshBlockHeader + size))) =
          blocksEnd base l₁ + (sizeofFinshBlockHeader + n) := by
      dsimp only at hsize
      omega
    rw [allocatedBlocks_allocated, allocatedBlocks_free, allocatedBlocks_cons_free, hplace, List.mem_append, List.mem_cons,
      List.mem_append]
    exact or_left_comm
  · intro hfreeApart
    obtain ⟨hfront, hback⟩ := freeApart_free.1 hfreeApart
    refine freeApart_allocated.2 ⟨hfront.1, ?_⟩
    rw [← List.nil_append (_ :: _), freeApart_free]
    exact ⟨⟨List.isChain_nil, fun _ hs => nomatch hs⟩, hback⟩

theorem CutInto.finshHeapAllocate_spec (vars : FinshRoots) (h : CutInto base heap l)
    (hend : base + finshHeapMax < finshWord) (hsize : NoWrap size) :
    ∃ r l', finshHeapAllocate heap vars size = some r ∧
      ((∃ header, r.1 = some (finshBlockGetData header) ∧ Granted base header (heapAlignSize size) heap l r.2 l') ∨
        (∀ header ∈ freeBlocks base l, heap.length header ≤ heapAlignSize size + sizeofFinshBlockHeader) ∧
          ∃ heap₀ l₀, RootsKept base vars heap l heap₀ l₀ ∧
            ((∃ header, r.1 = some (finshBlockGetData header) ∧
                Granted base header (heapAlignSize size) heap₀ l₀ r.2 l') ∨
              r = (none, heap₀) ∧ l' = l₀ ∧
                ∀ header ∈ freeBlocks base l₀, heap₀.length header < heapAlignSize size + sizeofFinshBlockHeader)) := by
  have hfirst := firstFit_spec (fun length => heapAlignSize size + sizeofFinshBlockHeader < length) h.free (h.length_le id)
  obtain ⟨found, hfound, hspec, hnone⟩ := hfirst
  dsimp only [finshHeapAllocate]
  rw [hsize.needed_eq, hfound, Option.bind_some]
  rcases found with _ | header
  · obtain ⟨heap₀, l₀, hgc, hcollected⟩ := h.finshHeapGc_spec vars hend
    have hsecond := firstFit_spec (fun length => heapAlignSize size + sizeofFinshBlockHeader ≤ length) hcollected.cut.free
      (hcollected.cut.length_le id)
    obtain ⟨found, hfound, hspec, hnone'⟩ := hsecond
    have htight : ∀ header ∈ freeBlocks base l, heap.length header ≤ heapAlignSize size + sizeofFinshBlockHeader := by
      intro header hmem
      simpa using hnone rfl header hmem
    dsimp only
    rw [hgc, Option.bind_some, hfound, Option.bind_some]
    rcases found with _ | header
    · refine ⟨_, l₀, rfl, .inr ⟨htight, heap₀, l₀, hcollected, .inr ⟨rfl, rfl, ?_⟩⟩⟩
      intro header hmem
      simpa using hnone' rfl header hmem
    · obtain ⟨hmem, hfits⟩ := hspec header rfl
      obtain ⟨heap', l', htake, hgranted⟩ := hcollected.cut.takeBlock_of_free hend hmem (decide_eq_true_iff.1 hfits)
      exact ⟨_, l', htake, .inr ⟨htight, heap₀, l₀, hcollected, .inl ⟨header, rfl, hgranted⟩⟩⟩
  · obtain ⟨hmem, hfits⟩ := hspec header rfl
    obtain ⟨heap', l', htake, hgranted⟩ := h.takeBlock_of_free hend hmem (Nat.le_of_lt (decide_eq_true_iff.1 hfits))
    exact ⟨_, l', htake, .inl ⟨header, rfl, hgranted⟩⟩

/-! ## Runs -/

def FinshHeap.SizesFit (_ : FinshHeap) : FinshHeapOp → Prop
  | .allocate size _ => NoWrap size
  | .write .. => True

/-- The blocks of the two lists cover the heap at `base`. -/
structure TiledBy (base : Nat) (heap : FinshHeap) (free allocated : List Nat) : Prop where
  free_linked : LinkedFrom heap.next heap.freeList free
  allocated_linked : LinkedFrom heap.next heap.allocateList allocated
  free_sorted : free.Pairwise (· < ·)
  allocated_sorted : allocated.Pairwise (· < ·)
  disjoint : List.Disjoint free allocated
  within : ∀ header ∈ free ++ allocated, base ≤ header ∧ finshBlockGetData header + heap.length header ≤ base + finshHeapMax
  covers : ∀ a, base ≤ a → a < base + finshHeapMax →
    ∃! header, header ∈ free ++ allocated ∧ header ≤ a ∧ a < finshBlockGetData header + heap.length header

/-- A request comes to an end, and where it gets memory this is a block of the allocated list, of the size at least, zeroed, and apart from all other blocks of the list. -/
def HeapAnswers (heap : FinshHeap) (vars : FinshRoots) (size : Nat) : Prop :=
  ∃ r, finshHeapAllocate heap vars size = some r ∧ ∀ data, r.1 = some data →
    ∃ allocated header, LinkedFrom r.2.next r.2.allocateList allocated ∧ header ∈ allocated ∧
      data = finshBlockGetData header ∧ size ≤ r.2.length header ∧
      (∀ a, data ≤ a → a < data + r.2.length header → r.2.byte a = 0) ∧
      ∀ other ∈ allocated, other ≠ header →
        finshBlockGetData other + r.2.length other ≤ header ∨ data + r.2.length header ≤ other

theorem CutInto.tiled (h : CutInto base heap l) : TiledBy base heap (freeBlocks base l) (allocatedBlocks base l) := by
  have hmem : ∀ {a}, a ∈ freeBlocks base l ++ allocatedBlocks base l →
      ∃ p : Bool → Bool, a ∈ Seg.addrs sizeofFinshBlockHeader p base l := by
    intro a ha
    rcases List.mem_append.1 ha with ha | ha
    · exact ⟨id, ha⟩
    · exact ⟨not, ha⟩
  refine ⟨h.free, h.allocated, h.sorted id, h.sorted not, disjoint_blocks, ?_, ?_⟩
  · intro header ha
    obtain ⟨p, hp⟩ := hmem ha
    have hle := h.sized.end_le hp
    rw [h.width] at hle
    refine ⟨le_of_mem_blocks hp, ?_⟩
    unfold finshBlockGetData
    omega
  · intro a hfrom hto
    rw [← h.width] at hto
    obtain ⟨l₁, s, l₂, hl, hle, hlt⟩ := h.sized.exists_covering hfrom hto
    refine ⟨blocksEnd base l₁, ⟨?_, hle, ?_⟩, ?_⟩
    · subst hl
      obtain ⟨n, isFree⟩ := s
      cases isFree <;> simp
    · unfold finshBlockGetData blocksEnd
      omega
    · rintro header ⟨ha, hfrom', hto'⟩
      obtain ⟨p, hp⟩ := hmem ha
      have hmid : blocksEnd base l₁ ∈ Seg.addrs sizeofFinshBlockHeader (fun _ => true) base l :=
        Seg.mem_addrs.2 ⟨l₁, s, l₂, hl, rfl, rfl⟩
      unfold finshBlockGetData at hto'
      rcases Nat.lt_trichotomy header (blocksEnd base l₁) with hlt' | heq | hgt
      · have := h.sized.end_le_of_lt hp hmid hlt'
        unfold blocksEnd at *
        omega
      · exact heq
      · have := h.sized.end_le_of_lt hmid hp hgt
        unfold blocksEnd at *
        omega

theorem Granted.answers {heap' : FinshHeap} {l' : List (Seg Bool)}
    (h : Granted base header (heapAlignSize size) heap l heap' l') (hsize : NoWrap size) :
    ∃ allocated header', LinkedFrom heap'.next heap'.allocateList allocated ∧ header' ∈ allocated ∧
      finshBlockGetData header = finshBlockGetData header' ∧ size ≤ heap'.length header' ∧
      (∀ a, finshBlockGetData header ≤ a → a < finshBlockGetData header + heap'.length header' → heap'.byte a = 0) ∧
      ∀ other ∈ allocated, other ≠ header' → finshBlockGetData other + heap'.length other ≤ header' ∨
        finshBlockGetData header + heap'.length header' ≤ other := by
  have hmem : header ∈ allocatedBlocks base l' := (h.mem_iff header).2 (.inl rfl)
  refine ⟨_, header, h.cut.allocated, hmem, rfl, ?_, ?_, ?_⟩
  · rw [h.length]
    exact hsize.le_heapAlignSize
  · intro a hfrom hto
    rw [h.length] at hto
    rw [h.byte]
    exact if_pos ⟨hfrom, hto⟩
  · intro other hother hne
    unfold finshBlockGetData
    rcases Nat.lt_or_gt_of_ne hne with hlt | hgt
    · have := h.cut.sized.end_le_of_lt hother hmem hlt
      omega
    · have := h.cut.sized.end_le_of_lt hmem hother hgt
      omega

theorem CutInto.heapAnswers (h : CutInto base heap l) (hend : base + finshHeapMax < finshWord) (hsize : NoWrap size) :
    HeapAnswers heap vars size := by
  obtain ⟨r, l', hr, hresult⟩ := h.finshHeapAllocate_spec vars hend hsize
  refine ⟨r, hr, ?_⟩
  intro data hdata
  rcases hresult with ⟨header, hsome, hgranted⟩ | ⟨-, heap₀, l₀, -, ⟨header, hsome, hgranted⟩ | ⟨rfl, -⟩⟩
  · obtain rfl := Option.some.inj (hsome.symm.trans hdata)
    exact hgranted.answers hsize
  · obtain rfl := Option.some.inj (hsome.symm.trans hdata)
    exact hgranted.answers hsize
  · cases hdata

theorem cutInto_init : CutInto base (finshHeapInit base) [⟨finshHeapMax - sizeofFinshBlockHeader, true⟩] where
  width := by decide
  sized := ⟨by simp [finshHeapInit], trivial⟩
  free := ⟨rfl, rfl⟩
  allocated := rfl
  top := ⟨_, rfl⟩

theorem CutInto.step (h : CutInto base heap l) (hfreeApart : FreeApart l) (hend : base + finshHeapMax < finshWord)
    {op : FinshHeapOp} {heap' : FinshHeap} {events : List (Option Nat)} (hok : heap.SizesFit op)
    (hs : heap.step op = some (heap', events)) : ∃ l', CutInto base heap' l' ∧ FreeApart l' := by
  cases op with
  | allocate size vars =>
    obtain ⟨r, l', hr, hresult⟩ := h.finshHeapAllocate_spec vars hend hok
    rw [FinshHeap.step, hr] at hs
    obtain ⟨rfl, -⟩ := Prod.mk.inj (Option.some.inj hs)
    rcases hresult with ⟨header, -, hgranted⟩ | ⟨-, heap₀, l₀, hcollected, ⟨header, -, hgranted⟩ | ⟨rfl, rfl, -⟩⟩
    · exact ⟨l', hgranted.cut, hgranted.freeApart hfreeApart⟩
    · exact ⟨l', hgranted.cut, hgranted.freeApart (hcollected.freeApart hfreeApart)⟩
    · exact ⟨l', hcollected.cut, hcollected.freeApart hfreeApart⟩
  | write a value =>
    rw [FinshHeap.step] at hs
    split_ifs at hs
    obtain ⟨rfl, -⟩ := Prod.mk.inj (Option.some.inj hs)
    exact ⟨l, ⟨h.width, h.sized, h.free, h.allocated, h.top⟩, hfreeApart⟩

theorem exists_cut_of_run (hend : base + finshHeapMax < finshWord) {events : List (Option Nat)}
    (hrun : Transition.Run FinshHeap.step FinshHeap.SizesFit (finshHeapInit base) events heap) :
    ∃ l, CutInto base heap l ∧ FreeApart l := by
  refine hrun.state_invariant (I := fun heap => ∃ l, CutInto base heap l ∧ FreeApart l)
    ⟨_, cutInto_init, List.isChain_singleton _⟩ ?_
  rintro heap op heap' events ⟨l, h, hfreeApart⟩ hok hs
  exact h.step hfreeApart hend hok hs

/-- In every run of requests that do not wrap the lists tile the heap in every state, and every next such request is answered well. -/
theorem finshHeap_of_run (hend : base + finshHeapMax < finshWord) {events : List (Option Nat)}
    (hrun : Transition.Run FinshHeap.step FinshHeap.SizesFit (finshHeapInit base) events heap) :
    (∃ free allocated, TiledBy base heap free allocated) ∧ ∀ vars size, NoWrap size → HeapAnswers heap vars size := by
  obtain ⟨l, h, -⟩ := exists_cut_of_run hend hrun
  exact ⟨⟨_, _, h.tiled⟩, fun vars size hsize => h.heapAnswers hend hsize⟩

def noRoots : FinshRoots := fun _ => ⟨false, 0⟩

/-- One variable is known, and it points to the first block. -/
def oneRoot : FinshRoots := fun i => ⟨i.val = 0, 0x20000008⟩

instance (heap : FinshHeap) (op : FinshHeapOp) : Decidable (heap.SizesFit op) := by
  induction op using FinshHeapOp.casesOn <;> dsimp only [FinshHeap.SizesFit] <;> infer_instance

/-- The last request finds the space only once the second one's block has been collected. -/
def collectingRequests : List FinshHeapOp :=
  [.allocate 20 noRoots, .write 0x20000008 5, .allocate 40 oneRoot, .allocate 40 oneRoot]

theorem finshHeap_of_requests : ∃ heap, Transition.Run FinshHeap.step FinshHeap.SizesFit (finshHeapInit 0x20000000)
      [some 0x20000008, some 0x20000024, some 0x20000024] heap ∧
    (∃ free allocated, TiledBy 0x20000000 heap free allocated) ∧ HeapAnswers heap oneRoot 30 := by
  have hexec : ((Transition.exec FinshHeap.step FinshHeap.SizesFit (finshHeapInit 0x20000000) collectingRequests).any fun r =>
      decide (r.1 = [some 0x20000008, some 0x20000024, some 0x20000024])) = true := by decide +kernel
  obtain ⟨events, heap, hrun, hfound⟩ := Transition.exists_run_of_exec _ (fun events _ => decide (events = _)) hexec
  obtain rfl := of_decide_eq_true hfound
  obtain ⟨htiled, hallocates⟩ := @finshHeap_of_run 0x20000000 heap (by decide) _ hrun
  exact ⟨heap, hrun, htiled, hallocates oneRoot 30 (by decide)⟩

/-- A request for all of memory but one byte gets an empty block. -/
theorem finshHeap_fails : ¬ ∀ events heap, Transition.Run FinshHeap.step (fun _ _ => True) (finshHeapInit 0x20000000) events heap →
    ∀ vars size, size < finshWord → HeapAnswers heap vars size := by
  intro hall
  obtain ⟨r, hr, hspec⟩ := hall _ _ .start noRoots (2 ^ 32 - 1) (by decide)
  have hfound : ((finshHeapAllocate (finshHeapInit 0x20000000) noRoots (2 ^ 32 - 1)).map fun r =>
      (r.1, r.2.length 0x20000000)) = some (some 0x20000008, 0) := by decide +kernel
  rw [hr] at hfound
  obtain ⟨hdata, hlength⟩ := Prod.mk.inj (Option.some.inj hfound)
  obtain ⟨allocated, header, -, -, hheader, hsize, -⟩ := hspec _ hdata
  obtain rfl : header = 0x20000000 := by
    unfold finshBlockGetData sizeofFinshBlockHeader at hheader
    omega
  rw [hlength] at hsize
  exact absurd hsize (by decide)

end RtThread
