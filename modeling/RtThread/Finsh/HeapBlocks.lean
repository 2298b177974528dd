import RtThread.Finsh.Heap
import RtThread.Lib.Linked
import RtThread.Lib.Segments

/-!
# The blocks of the shell's heap

The heap is cut into blocks, free or allocated. Each list has its blocks in the order of their places, and the block at the top is always free. The last is what a release rests on: a block that comes from the middle of a list keeps its old link, and would keep it at the end of another.
-/

namespace RtThread

open Function

variable {next : Nat → Option Nat} {list : Option Nat} {header : Nat} {xs ys : List Nat}

/-! ## Lists -/

theorem insertPoint_eq {n x last : Nat} (h : LinkedFrom next (some x) (xs ++ last :: ys))
    (hxs : ∀ a ∈ xs ++ [last], a < header) (hys : ∀ a ∈ ys, header < a) (hn : xs.length < n) :
    insertPoint next header n x = some last := by
  induction xs generalizing x n with
  | nil =>
    obtain ⟨n, rfl⟩ := Nat.exists_eq_add_one_of_ne_zero (Nat.ne_of_gt hn)
    obtain ⟨hx, hrest⟩ := h
    obtain rfl := Option.some.inj hx
    rw [insertPoint, ← hrest.head?_eq]
    cases ys with
    | nil => rfl
    | cons y ys => exact if_pos (hys y List.mem_cons_self)
  | cons b xs ih =>
    obtain ⟨n, rfl⟩ := Nat.exists_eq_add_one_of_ne_zero (Nat.ne_of_gt (Nat.zero_lt_of_lt hn))
    obtain ⟨hx, hrest⟩ := h
    obtain rfl := Option.some.inj hx
    obtain ⟨after, hafter⟩ : ∃ after, (xs ++ last :: ys).head? = some after := by cases xs <;> exact ⟨_, rfl⟩
    have hmem : after ∈ xs ++ [last] := by
      cases xs with
      | nil => simpa using hafter.symm
      | cons c xs => simp_all
    have hnext : next x = some after := hrest.head?_eq.symm.trans hafter
    rw [hnext] at hrest
    simp only [insertPoint, hnext]
    rw [if_neg (Nat.not_lt.2 (Nat.le_of_lt (hxs after (List.mem_cons_of_mem _ hmem))))]
    apply ih hrest
    · intro a ha
      exact hxs a (List.mem_cons_of_mem _ ha)
    · rw [List.length_cons] at hn
      omega

theorem finshBlockInsert_spec (header : Nat) (h : LinkedFrom next list (xs ++ ys)) (hnodup : (xs ++ ys).Nodup)
    (hxs : ∀ a ∈ xs, a < header) (hys : ∀ a ∈ ys, header < a) (hstale : ys = [] → next header = none)
    (hlen : xs.length ≤ finshHeapMax) :
    ∃ r, finshBlockInsert list next header = some r ∧ LinkedFrom r.2 r.1 (xs ++ header :: ys) ∧
      ∀ a ∉ xs, a ≠ header → r.2 a = next a := by
  have hheader : header ∉ xs ++ ys := by
    intro hmem
    rcases List.mem_append.1 hmem with hmem | hmem
    · exact Nat.lt_irrefl _ (hxs _ hmem)
    · exact Nat.lt_irrefl _ (hys _ hmem)
  rcases List.eq_nil_or_concat xs with rfl | ⟨before, last, rfl⟩
  · cases ys with
    | nil =>
      obtain rfl := LinkedFrom.nil_iff.1 h
      refine ⟨_, rfl, ⟨rfl, hstale rfl⟩, ?_⟩
      intro a _ _
      rfl
    | cons y ys =>
      obtain rfl := h.1
      refine ⟨_, if_pos (hys y List.mem_cons_self), h.push hheader, ?_⟩
      intro a _ hne
      exact update_of_ne hne ..
  · rw [List.concat_eq_append] at *
    rw [List.append_assoc, List.singleton_append] at *
    obtain ⟨first, rfl⟩ : ∃ first, list = some first := by
      rw [← h.head?_eq]
      cases before <;> exact ⟨_, rfl⟩
    have hfirst : first < header := by
      have hhead := h.head?_eq
      cases before with
      | nil =>
        obtain rfl : last = first := by simpa using hhead
        exact hxs last (by simp)
      | cons c before =>
        obtain rfl : c = first := by simpa using hhead
        exact hxs c (by simp)
    have hpoint : insertPoint next header finshHeapMax first = some last := by
      apply insertPoint_eq h hxs hys
      rw [List.length_append, List.length_singleton] at hlen
      omega
    have hlinked : (if next last = none then next else update next header (next last)) =
        update next header (next last) := by
      split_ifs with hnull
      · have hys : ys = [] := by
          rw [h.next_eq_head?] at hnull
          exact List.head?_eq_none_iff.1 hnull
        rw [hnull, ← hstale hys, update_eq_self]
      · rfl
    refine ⟨(some first, update (update next header (next last)) last (some header)), ?_, ?_, ?_⟩
    · simp only [finshBlockInsert, if_neg (Nat.not_lt.2 (Nat.le_of_lt hfirst)), hpoint, Option.map_some, hlinked]
    · exact h.insertAfter hnodup hheader
    · intro a ha hne
      have hlast : a ≠ last := by
        rintro rfl
        exact ha (List.mem_append_right before (List.mem_singleton_self a))
      exact (update_of_ne hlast ..).trans (update_of_ne hne ..)

theorem list_ne_some {last : Nat} (h : LinkedFrom next list (xs ++ last :: header :: ys))
    (hnodup : (xs ++ last :: header :: ys).Nodup) : list ≠ some header := by
  rw [← h.head?_eq]
  intro heq
  cases xs with
  | nil =>
    obtain rfl : last = header := by simpa using heq
    simp at hnodup
  | cons c xs =>
    obtain rfl : c = header := by simpa using heq
    simp at hnodup

theorem blockBefore_eq {n last : Nat} (h : LinkedFrom next list (xs ++ last :: header :: ys))
    (hnodup : (xs ++ last :: header :: ys).Nodup) (hn : xs.length < n) :
    blockBefore next header n list = some (some last) := by
  induction xs generalizing list n with
  | nil =>
    obtain ⟨n, rfl⟩ := Nat.exists_eq_add_one_of_ne_zero (Nat.ne_of_gt hn)
    obtain ⟨rfl, hnext, -⟩ := h
    exact if_pos hnext
  | cons b xs ih =>
    obtain ⟨n, rfl⟩ := Nat.exists_eq_add_one_of_ne_zero (Nat.ne_of_gt (Nat.zero_lt_of_lt hn))
    obtain ⟨rfl, hrest⟩ := h
    obtain ⟨hb, hnodup'⟩ := List.nodup_cons.1 hnodup
    rw [blockBefore, if_neg (list_ne_some hrest hnodup')]
    apply ih hrest hnodup'
    rw [List.length_cons] at hn
    omega

theorem finshBlockRemove_spec (h : LinkedFrom next list (xs ++ header :: ys)) (hnodup : (xs ++ header :: ys).Nodup)
    (hlen : xs.length ≤ finshHeapMax) :
    ∃ r, finshBlockRemove list next header = some r ∧ LinkedFrom r.2 r.1 (xs ++ ys) ∧
      ∀ a ∉ xs, a ≠ header → r.2 a = next a := by
  rcases List.eq_nil_or_concat xs with rfl | ⟨before, last, rfl⟩
  · obtain ⟨rfl, hrest⟩ := h
    refine ⟨_, if_pos rfl, hrest.update (List.nodup_cons.1 hnodup).1, ?_⟩
    intro a _ hne
    exact update_of_ne hne ..
  · rw [List.concat_eq_append] at *
    rw [List.append_assoc, List.singleton_append] at *
    have hlist := list_ne_some h hnodup
    have hbefore : blockBefore next header finshHeapMax list = some (some last) := by
      apply blockBefore_eq h hnodup
      rw [List.length_append, List.length_singleton] at hlen
      omega
    refine ⟨(list, update next last (next header)), ?_, ?_, ?_⟩
    · simp only [finshBlockRemove, if_neg hlist, hbefore, Option.map_some]
    · exact h.unlink hnodup
    · intro a ha _
      have hlast : a ≠ last := by
        rintro rfl
        exact ha (List.mem_append_right before (List.mem_singleton_self a))
      exact update_of_ne hlast ..

/-! ## The heap cut into blocks -/

def freeBlocks (base : Nat) (l : List (Seg Bool)) : List Nat := Seg.addrs sizeofFinshBlockHeader id base l

def allocatedBlocks (base : Nat) (l : List (Seg Bool)) : List Nat := Seg.addrs sizeofFinshBlockHeader not base l

/-- Where the blocks of `l` end. -/
def blocksEnd (base : Nat) (l : List (Seg Bool)) : Nat := base + Seg.width sizeofFinshBlockHeader l

/-- The heap at `base` is cut into the blocks of `l`; a block is tagged when it is free. -/
structure CutInto (base : Nat) (heap : FinshHeap) (l : List (Seg Bool)) : Prop where
  width : Seg.width sizeofFinshBlockHeader l = finshHeapMax
  sized : Seg.Sized sizeofFinshBlockHeader heap.length base l
  free : LinkedFrom heap.next heap.freeList (freeBlocks base l)
  allocated : LinkedFrom heap.next heap.allocateList (allocatedBlocks base l)
  top : ∃ n, l.getLast? = some ⟨n, true⟩

variable {base n : Nat} {heap : FinshHeap} {l l₁ l₂ : List (Seg Bool)}

@[simp] theorem freeBlocks_free : freeBlocks base (l₁ ++ ⟨n, true⟩ :: l₂) =
    freeBlocks base l₁ ++ blocksEnd base l₁ :: freeBlocks (blocksEnd base l₁ + (sizeofFinshBlockHeader + n)) l₂ := by
  simp [freeBlocks, blocksEnd, Seg.addrs_append, Seg.addrs_cons]

@[simp] theorem freeBlocks_allocated : freeBlocks base (l₁ ++ ⟨n, false⟩ :: l₂) =
    freeBlocks base l₁ ++ freeBlocks (blocksEnd base l₁ + (sizeofFinshBlockHeader + n)) l₂ := by
  simp [freeBlocks, blocksEnd, Seg.addrs_append, Seg.addrs_cons]

@[simp] theorem allocatedBlocks_free : allocatedBlocks base (l₁ ++ ⟨n, true⟩ :: l₂) =
    allocatedBlocks base l₁ ++ allocatedBlocks (blocksEnd base l₁ + (sizeofFinshBlockHeader + n)) l₂ := by
  simp [allocatedBlocks, blocksEnd, Seg.addrs_append, Seg.addrs_cons]

@[simp] theorem allocatedBlocks_allocated : allocatedBlocks base (l₁ ++ ⟨n, false⟩ :: l₂) =
    allocatedBlocks base l₁ ++
      blocksEnd base l₁ :: allocatedBlocks (blocksEnd base l₁ + (sizeofFinshBlockHeader + n)) l₂ := by
  simp [allocatedBlocks, blocksEnd, Seg.addrs_append, Seg.addrs_cons]

@[simp] theorem freeBlocks_nil : freeBlocks base [] = [] := rfl

@[simp] theorem blocksEnd_nil : blocksEnd base [] = base := rfl

@[simp] theorem freeBlocks_cons_free :
    freeBlocks base (⟨n, true⟩ :: l) = base :: freeBlocks (base + (sizeofFinshBlockHeader + n)) l := rfl

@[simp] theorem freeBlocks_cons_allocated :
    freeBlocks base (⟨n, false⟩ :: l) = freeBlocks (base + (sizeofFinshBlockHeader + n)) l := rfl

@[simp] theorem allocatedBlocks_cons_free :
    allocatedBlocks base (⟨n, true⟩ :: l) = allocatedBlocks (base + (sizeofFinshBlockHeader + n)) l := rfl

@[simp] theorem blocksEnd_append : blocksEnd base (l₁ ++ l₂) = blocksEnd (blocksEnd base l₁) l₂ := by
  simp [blocksEnd, Nat.add_assoc]

@[simp] theorem blocksEnd_cons {s : Seg Bool} :
    blocksEnd base (s :: l) = blocksEnd (base + (sizeofFinshBlockHeader + s.size)) l := by
  simp [blocksEnd, Nat.add_assoc]

theorem lt_blocksEnd {a : Nat} {p : Bool → Bool} (h : a ∈ Seg.addrs sizeofFinshBlockHeader p base l) :
    a < blocksEnd base l := by
  have hle := (Seg.le_of_mem_addrs h).2
  unfold blocksEnd
  simp only [sizeofFinshBlockHeader] at *
  omega

theorem le_of_mem_blocks {a : Nat} {p : Bool → Bool} (h : a ∈ Seg.addrs sizeofFinshBlockHeader p base l) : base ≤ a :=
  (Seg.le_of_mem_addrs h).1

theorem disjoint_blocks : List.Disjoint (freeBlocks base l) (allocatedBlocks base l) := by
  apply Seg.disjoint_addrs (by decide)
  intro t ht
  simpa using ht

namespace CutInto

theorem sorted (h : CutInto base heap l) (p : Bool → Bool) :
    (Seg.addrs sizeofFinshBlockHeader p base l).Pairwise (· < ·) := by
  apply h.sized.pairwise.imp
  intro a c hac
  simp only [sizeofFinshBlockHeader] at hac
  omega

theorem nodup (h : CutInto base heap l) (p : Bool → Bool) : (Seg.addrs sizeofFinshBlockHeader p base l).Nodup :=
  (h.sorted p).imp Nat.ne_of_lt

theorem length_le (h : CutInto base heap l) (p : Bool → Bool) :
    (Seg.addrs sizeofFinshBlockHeader p base l).length ≤ finshHeapMax :=
  Seg.length_addrs_le.trans ((Seg.length_le_width (by decide)).trans (Nat.le_of_eq h.width))

theorem length_eq {s : Seg Bool} (h : CutInto base heap (l₁ ++ s :: l₂)) : heap.length (blocksEnd base l₁) = s.size :=
  (Seg.Sized.append_iff.1 h.sized).2.1

theorem end_le {s : Seg Bool} (h : CutInto base heap (l₁ ++ s :: l₂)) :
    blocksEnd base l₁ + (sizeofFinshBlockHeader + s.size) ≤ base + finshHeapMax := by
  have hwidth := h.width
  rw [Seg.width_append, Seg.width_cons] at hwidth
  unfold blocksEnd
  omega

end CutInto

theorem CutInto.endOf_eq {s : Seg Bool} (h : CutInto base heap (l₁ ++ s :: l₂)) (hend : base + finshHeapMax < finshWord) :
    heap.endOf (blocksEnd base l₁) = blocksEnd base l₁ + (sizeofFinshBlockHeader + s.size) := by
  have hle := h.end_le
  rw [FinshHeap.endOf, h.length_eq, Nat.mod_eq_of_lt (by omega)]
  omega

/-! ## Neighbours -/

def FreeApart (l : List (Seg Bool)) : Prop := l.IsChain fun s t => s.tag = true → t.tag = false

theorem freeApart_free : FreeApart (l₁ ++ ⟨n, true⟩ :: l₂) ↔ (FreeApart l₁ ∧ ∀ s ∈ l₁.getLast?, s.tag = false) ∧
    FreeApart l₂ ∧ ∀ s ∈ l₂.head?, s.tag = false := by
  unfold FreeApart
  rw [List.isChain_append, List.isChain_cons]
  constructor
  · rintro ⟨hbefore, ⟨hhead, hafter⟩, hjoin⟩
    refine ⟨⟨hbefore, ?_⟩, hafter, fun s hs => hhead s hs rfl⟩
    intro s hs
    by_contra hfree
    exact Bool.noConfusion (hjoin s hs ⟨n, true⟩ rfl (Bool.not_eq_false _ ▸ hfree))
  · rintro ⟨⟨hbefore, hlast⟩, hafter, hhead⟩
    refine ⟨hbefore, ⟨fun s hs _ => hhead s hs, hafter⟩, ?_⟩
    intro s hs t _ hfree
    rw [hlast s hs] at hfree
    cases hfree

theorem freeApart_tail (h : FreeApart (⟨n, true⟩ :: l)) : FreeApart l ∧ ∀ s ∈ l.head?, s.tag = false := by
  rw [← List.nil_append (_ :: _), freeApart_free] at h
  exact h.2

theorem freeApart_allocated : FreeApart (l₁ ++ ⟨n, false⟩ :: l₂) ↔ FreeApart l₁ ∧ FreeApart l₂ := by
  unfold FreeApart
  rw [List.isChain_append, List.isChain_cons]
  constructor
  · rintro ⟨hbefore, ⟨-, hafter⟩, -⟩
    exact ⟨hbefore, hafter⟩
  · rintro ⟨hbefore, hafter⟩
    refine ⟨hbefore, ⟨fun _ _ hfree => (nomatch hfree), hafter⟩, ?_⟩
    intro s _ t ht _
    obtain rfl := Option.some.inj ht
    rfl

/-! ## Release -/

theorem CutInto.exists_above (h : CutInto base heap (l₁ ++ ⟨n, false⟩ :: l₂)) : ∃ l₃ k, l₂ = l₃ ++ [⟨k, true⟩] := by
  obtain ⟨k, hlast⟩ := h.top
  rcases List.eq_nil_or_concat l₂ with rfl | ⟨l₃, s, rfl⟩
  · simp at hlast
  · refine ⟨l₃, k, ?_⟩
    rw [List.concat_eq_append, ← List.cons_append, ← List.append_assoc, List.getLast?_concat] at hlast
    rw [Option.some.inj hlast, List.concat_eq_append]

theorem CutInto.release (h : CutInto base heap (l₁ ++ ⟨n, false⟩ :: l₂)) :
    ∃ removed inserted, finshBlockRemove heap.allocateList heap.next (blocksEnd base l₁) = some removed ∧
      finshBlockInsert heap.freeList removed.2 (blocksEnd base l₁) = some inserted ∧
      CutInto base { heap with allocateList := removed.1, freeList := inserted.1, next := inserted.2 }
        (l₁ ++ ⟨n, true⟩ :: l₂) := by
  obtain ⟨l₃, k, rfl⟩ := h.exists_above
  have hallocated := h.allocated
  have hnodup := h.nodup not
  have hlen := h.length_le not
  rw [← allocatedBlocks, allocatedBlocks_allocated] at hnodup hlen
  rw [allocatedBlocks_allocated] at hallocated
  rw [List.length_append, List.length_cons] at hlen
  obtain ⟨removed, hremoved, hlinked, hsame⟩ := finshBlockRemove_spec hallocated hnodup (by omega)
  have hfree : LinkedFrom removed.2 heap.freeList (freeBlocks base (l₁ ++ ⟨n, false⟩ :: (l₃ ++ [⟨k, true⟩]))) := by
    apply h.free.congr
    intro a ha
    have hnot := disjoint_blocks ha
    rw [allocatedBlocks_allocated, List.mem_append, List.mem_cons] at hnot
    apply hsame
    · exact fun hmem => hnot (.inl hmem)
    · exact fun heq => hnot (.inr (.inl heq))
  have hnodup' := h.nodup id
  have hlen' := h.length_le id
  rw [← freeBlocks, freeBlocks_allocated] at hnodup' hlen'
  rw [freeBlocks_allocated] at hfree
  rw [List.length_append] at hlen'
  obtain ⟨inserted, hinserted, hlinked', hsame'⟩ := finshBlockInsert_spec (blocksEnd base l₁) hfree hnodup'
    (fun a ha => lt_blocksEnd ha)
    (fun a ha => by
      have := le_of_mem_blocks ha
      simp only [sizeofFinshBlockHeader] at this
      omega)
    (by simp) (by omega)
  refine ⟨removed, inserted, hremoved, hinserted, ?_⟩
  constructor
  · simpa using h.width
  · have hsized := Seg.Sized.append_iff.1 h.sized
    exact Seg.Sized.append_iff.2 ⟨hsized.1, hsized.2.1, hsized.2.2⟩
  · rw [freeBlocks_free]
    exact hlinked'
  · have hdisjoint : List.Disjoint (freeBlocks base (l₁ ++ ⟨n, true⟩ :: (l₃ ++ [⟨k, true⟩]))) _ := disjoint_blocks
    rw [freeBlocks_free, allocatedBlocks_free] at hdisjoint
    rw [allocatedBlocks_free]
    apply hlinked.congr
    intro a ha
    have hnot := fun hmem => hdisjoint hmem ha
    rw [List.mem_append, List.mem_cons] at hnot
    apply hsame'
    · exact fun hmem => hnot (.inl hmem)
    · exact fun heq => hnot (.inr (.inl heq))
  · exact ⟨k, by simp [List.getLast?_append, List.getLast?_cons]⟩

def FinshHeap.join (heap : FinshHeap) (header nextNode : Nat) : FinshHeap :=
  (heap.lengthen header (heap.length nextNode + sizeofFinshBlockHeader)).setNext header (heap.next nextNode)

theorem CutInto.join {k : Nat} (h : CutInto base heap (l₁ ++ ⟨n, true⟩ :: ⟨k, true⟩ :: l₂))
    (hend : base + finshHeapMax < finshWord) :
    CutInto base (heap.join (blocksEnd base l₁) (blocksEnd base l₁ + (sizeofFinshBlockHeader + n)))
      (l₁ ++ ⟨n + (sizeofFinshBlockHeader + k), true⟩ :: l₂) := by
  obtain ⟨hsized, hlength, hlength', hrest⟩ := Seg.Sized.append_iff.1 h.sized
  have hwidth := h.width
  have hplace : blocksEnd base l₁ + (sizeofFinshBlockHeader + (n + (sizeofFinshBlockHeader + k))) =
      blocksEnd base l₁ + (sizeofFinshBlockHeader + n) + (sizeofFinshBlockHeader + k) := by omega
  constructor
  · rw [Seg.width_append, Seg.width_cons] at hwidth ⊢
    rw [Seg.width_cons] at hwidth
    dsimp only at hwidth ⊢
    omega
  · apply Seg.Sized.append_iff.2
    refine ⟨hsized.congr (by decide) ?_, ?_, ?_⟩
    · intro a _ ha
      exact update_of_ne (Nat.ne_of_lt ha) ..
    · have hle := (Nat.le_of_eq hwidth).trans' (Seg.width_append ▸ Nat.le_add_left ..)
      rw [Seg.width_cons, Seg.width_cons] at hle
      refine (update_self ..).trans ?_
      change (heap.length (base + _) + (heap.length (base + _ + _) + _)) % finshWord = _
      rw [hlength, hlength', Nat.mod_eq_of_lt]
      · dsimp only
        omega
      · dsimp only at hle ⊢
        omega
    · have hrest' : Seg.Sized sizeofFinshBlockHeader heap.length
          (blocksEnd base l₁ + (sizeofFinshBlockHeader + (n + (sizeofFinshBlockHeader + k)))) l₂ := hplace ▸ hrest
      apply hrest'.congr (by decide)
      intro a ha _
      apply update_of_ne
      simp only [sizeofFinshBlockHeader] at ha
      omega
  · have hfree := h.free
    have hnodup := h.nodup id
    rw [← freeBlocks] at hnodup
    rw [freeBlocks_free, freeBlocks_cons_free] at hfree hnodup
    rw [freeBlocks_free, hplace]
    exact hfree.unlink hnodup
  · have hdisjoint : List.Disjoint (freeBlocks base (l₁ ++ ⟨n, true⟩ :: ⟨k, true⟩ :: l₂)) _ := disjoint_blocks
    have hallocated := h.allocated
    rw [allocatedBlocks_free, allocatedBlocks_cons_free] at hallocated hdisjoint
    rw [allocatedBlocks_free, hplace]
    apply hallocated.update
    exact hdisjoint (by simp)
  · obtain ⟨m, hlast⟩ := h.top
    rw [List.getLast?_append, List.getLast?_cons_cons] at hlast
    rw [List.getLast?_append]
    cases l₂ with
    | nil => exact ⟨_, rfl⟩
    | cons s l₂ =>
      rw [List.getLast?_cons_cons] at hlast ⊢
      exact ⟨m, hlast⟩

def BlocksKept (blocks : List Nat) (heap heap' : FinshHeap) : Prop :=
  (∀ a ∈ blocks, heap'.length a = heap.length a) ∧ heap'.byte = heap.byte

theorem BlocksKept.trans {blocks : List Nat} {heap' heap'' : FinshHeap} (h : BlocksKept blocks heap heap')
    (h' : BlocksKept blocks heap' heap'') : BlocksKept blocks heap heap'' :=
  ⟨fun a ha => (h'.1 a ha).trans (h.1 a ha), h'.2.trans h.2⟩

theorem blocksKept_join {blocks : List Nat} {nextNode : Nat} (h : header ∉ blocks) :
    BlocksKept blocks heap (heap.join header nextNode) := by
  refine ⟨?_, rfl⟩
  intro a ha
  apply update_of_ne
  rintro rfl
  exact h ha

theorem CutInto.neighbour_before (h : CutInto base heap (l₁ ++ ⟨n, true⟩ :: l₂)) (hend : base + finshHeapMax < finshWord) :
    (((freeBlocks base l₁).getLast?.filter fun prevNode => heap.endOf prevNode = blocksEnd base l₁) = none ∧
        ∀ s ∈ l₁.getLast?, s.tag = false) ∨
      ∃ l₃ m, l₁ = l₃ ++ [⟨m, true⟩] ∧
        ((freeBlocks base l₁).getLast?.filter fun prevNode => heap.endOf prevNode = blocksEnd base l₁) =
          some (blocksEnd base l₃) := by
  rcases List.eq_nil_or_concat l₁ with rfl | ⟨l₃, ⟨m, isFree⟩, rfl⟩
  · exact .inl ⟨rfl, fun _ hs => nomatch hs⟩
  rw [List.concat_eq_append] at *
  rw [List.append_assoc, List.singleton_append] at h
  cases isFree with
  | true =>
    refine .inr ⟨l₃, m, rfl, ?_⟩
    have hlast : (freeBlocks base (l₃ ++ [⟨m, true⟩])).getLast? = some (blocksEnd base l₃) := by
      rw [freeBlocks_free]
      exact List.getLast?_concat
    rw [hlast]
    apply Option.filter_some_pos
    simpa using h.endOf_eq hend
  | false =>
    refine .inl ⟨?_, by simp⟩
    rw [freeBlocks_allocated, Option.filter_eq_none_iff]
    intro c hc
    have hmem : c ∈ freeBlocks base l₃ := by simpa using List.mem_of_getLast? hc
    have hsized := (Seg.Sized.append_iff.1 h.sized).1
    have hle := hsized.end_le hmem
    have hbound := h.end_le
    rw [decide_eq_true_iff, FinshHeap.endOf, Nat.mod_eq_of_lt]
    · simp [blocksEnd, sizeofFinshBlockHeader] at *
      omega
    · simp [blocksEnd, sizeofFinshBlockHeader] at *
      omega

theorem CutInto.neighbour_after (h : CutInto base heap (l₁ ++ ⟨n, true⟩ :: l₂)) (hend : base + finshHeapMax < finshWord) :
    (((heap.next (blocksEnd base l₁)).filter fun nextNode => heap.endOf (blocksEnd base l₁) = nextNode) = none ∧
        ∀ s ∈ l₂.head?, s.tag = false) ∨
      ∃ l₃ k, l₂ = ⟨k, true⟩ :: l₃ ∧
        ((heap.next (blocksEnd base l₁)).filter fun nextNode => heap.endOf (blocksEnd base l₁) = nextNode) =
          some (blocksEnd base l₁ + (sizeofFinshBlockHeader + n)) := by
  have hfree := h.free
  rw [freeBlocks_free] at hfree
  rw [hfree.next_eq_head?, h.endOf_eq hend]
  rcases l₂ with _ | ⟨⟨k, isFree⟩, l₃⟩
  · exact .inl ⟨rfl, fun _ hs => nomatch hs⟩
  cases isFree with
  | true =>
    refine .inr ⟨l₃, k, rfl, ?_⟩
    rw [freeBlocks_cons_free]
    exact Option.filter_some_pos (decide_eq_true rfl)
  | false =>
    refine .inl ⟨?_, by simp⟩
    rw [freeBlocks_cons_allocated, Option.filter_eq_none_iff]
    intro c hc
    have hge := le_of_mem_blocks (List.mem_of_head? hc)
    rw [decide_eq_true_iff]
    simp only [sizeofFinshBlockHeader] at hge ⊢
    omega

theorem CutInto.merge_eq (h : CutInto base heap (l₁ ++ ⟨n, true⟩ :: l₂)) :
    finshBlockMerge heap (blocksEnd base l₁) =
      some (mergeInto heap (blocksEnd base l₁) (freeBlocks base l₁).getLast?) := by
  have hfree := h.free
  have hnodup := h.nodup id
  have hlen := h.length_le id
  rw [← freeBlocks] at hnodup hlen
  rw [freeBlocks_free] at hfree hnodup hlen
  rcases List.eq_nil_or_concat (freeBlocks base l₁) with hnil | ⟨before, last, hconcat⟩
  · rw [hnil] at hfree ⊢
    exact if_pos hfree.1
  · rw [List.concat_eq_append] at hconcat
    rw [hconcat, List.append_assoc, List.singleton_append] at hfree hnodup hlen
    rw [hconcat]
    have hfirst := list_ne_some hfree hnodup
    have hbefore := blockBefore_eq (n := finshHeapMax) hfree hnodup (by
      rw [List.length_append, List.length_cons] at hlen
      omega)
    rw [finshBlockMerge, if_neg hfirst, hbefore, List.getLast?_concat]
    rfl

theorem join_join {prevNode nextNode : Nat} (h : nextNode ≠ prevNode) :
    (heap.join prevNode header).join prevNode nextNode = (heap.lengthen prevNode
      ((heap.length header + heap.length nextNode + 2 * sizeofFinshBlockHeader) % finshWord)).setNext prevNode
        (heap.next nextNode) := by
  have hlength : ((heap.length prevNode + (heap.length header + sizeofFinshBlockHeader)) % finshWord +
      (heap.length nextNode + sizeofFinshBlockHeader)) % finshWord = (heap.length prevNode +
        (heap.length header + heap.length nextNode + 2 * sizeofFinshBlockHeader) % finshWord) % finshWord := by
    simp only [finshWord, sizeofFinshBlockHeader]
    omega
  simp only [FinshHeap.join, FinshHeap.lengthen, FinshHeap.setNext, update_self, update_of_ne h,
    update_idem]
  rw [hlength]

structure Recut (base : Nat) (heap : FinshHeap) (l : List (Seg Bool)) (heap' : FinshHeap) (l' : List (Seg Bool)) : Prop where
  cut : CutInto base heap' l'
  allocated : allocatedBlocks base l' = allocatedBlocks base l
  kept : BlocksKept (allocatedBlocks base l) heap heap'
  free : freeBlocks base l' ⊆ freeBlocks base l

theorem Recut.trans {heap' heap'' : FinshHeap} {l' l'' : List (Seg Bool)} (h : Recut base heap l heap' l')
    (h' : Recut base heap' l' heap'' l'') : Recut base heap l heap'' l'' :=
  ⟨h'.cut, h'.allocated.trans h.allocated, h.kept.trans (h.allocated ▸ h'.kept), fun _ ha => h.free (h'.free ha)⟩

theorem CutInto.join_spec {k : Nat} (h : CutInto base heap (l₁ ++ ⟨n, true⟩ :: ⟨k, true⟩ :: l₂))
    (hend : base + finshHeapMax < finshWord) :
    Recut base heap (l₁ ++ ⟨n, true⟩ :: ⟨k, true⟩ :: l₂)
      (heap.join (blocksEnd base l₁) (blocksEnd base l₁ + (sizeofFinshBlockHeader + n)))
      (l₁ ++ ⟨n + (sizeofFinshBlockHeader + k), true⟩ :: l₂) := by
  have hplace : blocksEnd base l₁ + (sizeofFinshBlockHeader + (n + (sizeofFinshBlockHeader + k))) =
      blocksEnd base l₁ + (sizeofFinshBlockHeader + n) + (sizeofFinshBlockHeader + k) := by omega
  refine ⟨h.join hend, ?_, blocksKept_join ?_, ?_⟩
  · rw [allocatedBlocks_free, allocatedBlocks_free, allocatedBlocks_cons_free, hplace]
  · apply disjoint_blocks
    rw [freeBlocks_free]
    exact List.mem_append_right _ List.mem_cons_self
  · rw [freeBlocks_free, freeBlocks_free, freeBlocks_cons_free, hplace]
    intro a ha
    rw [List.mem_append, List.mem_cons] at ha ⊢
    exact ha.imp_right (Or.imp_right (List.mem_cons_of_mem _))

theorem CutInto.merge (h : CutInto base heap (l₁ ++ ⟨n, true⟩ :: l₂)) (hend : base + finshHeapMax < finshWord) :
    ∃ heap' l', finshBlockMerge heap (blocksEnd base l₁) = some heap' ∧
      Recut base heap (l₁ ++ ⟨n, true⟩ :: l₂) heap' l' ∧ (FreeApart l₁ → FreeApart l₂ → FreeApart l') := by
  have hbefore := h.neighbour_before hend
  have hafter := h.neighbour_after hend
  rw [h.merge_eq]
  rcases hbefore with ⟨hbefore, hlast⟩ | ⟨l₃, m, rfl, hbefore⟩
  · rcases hafter with ⟨hafter, hhead⟩ | ⟨l₄, k, rfl, hafter⟩
    · refine ⟨heap, _, ?_, ⟨h, rfl, ⟨fun a _ => rfl, rfl⟩, fun _ ha => ha⟩, ?_⟩
      · simp only [mergeInto, hbefore, hafter]
      · intro hbefore hafter
        exact freeApart_free.2 ⟨⟨hbefore, hlast⟩, hafter, hhead⟩
    · refine ⟨_, _, ?_, h.join_spec hend, ?_⟩
      · simp only [mergeInto, hbefore, hafter]
        rfl
      · intro hbefore hafter
        exact freeApart_free.2 ⟨⟨hbefore, hlast⟩, freeApart_tail hafter⟩
  · have hplace : blocksEnd base (l₃ ++ [⟨m, true⟩]) = blocksEnd base l₃ + (sizeofFinshBlockHeader + m) := by simp
    rw [List.append_assoc, List.singleton_append] at h ⊢
    rw [hplace] at hbefore hafter ⊢
    have hjoin := h.join_spec hend
    rcases hafter with ⟨hafter, hhead⟩ | ⟨l₄, k, rfl, hafter⟩
    · refine ⟨_, _, ?_, hjoin, ?_⟩
      · simp only [mergeInto, hbefore, hafter]
        rfl
      · intro hbefore hafter
        exact freeApart_free.2 ⟨(freeApart_free.1 hbefore).1, hafter, hhead⟩
    · refine ⟨_, _, ?_, hjoin.trans (hjoin.cut.join_spec hend), ?_⟩
      · have hnext : blocksEnd base l₃ + (sizeofFinshBlockHeader + m) + (sizeofFinshBlockHeader + n) =
            blocksEnd base l₃ + (sizeofFinshBlockHeader + (m + (sizeofFinshBlockHeader + n))) := by omega
        rw [hnext] at hafter
        simp only [mergeInto, hbefore, hafter]
        rw [join_join]
        simp only [sizeofFinshBlockHeader]
        omega
      · intro hbefore hafter
        exact freeApart_free.2 ⟨(freeApart_free.1 hbefore).1, freeApart_tail hafter⟩

theorem CutInto.finshHeapFree_spec (h : CutInto base heap (l₁ ++ ⟨n, false⟩ :: l₂)) (hend : base + finshHeapMax < finshWord) :
    ∃ heap' l', finshHeapFree heap (blocksEnd base l₁) = some heap' ∧ CutInto base heap' l' ∧
      allocatedBlocks base l' = allocatedBlocks base l₁ ++
        allocatedBlocks (blocksEnd base l₁ + (sizeofFinshBlockHeader + n)) l₂ ∧
      BlocksKept (allocatedBlocks base l') heap heap' ∧
      (∀ a ∈ freeBlocks base l', a ∈ freeBlocks base (l₁ ++ ⟨n, false⟩ :: l₂) ∨ a = blocksEnd base l₁) ∧
      (FreeApart (l₁ ++ ⟨n, false⟩ :: l₂) → FreeApart l') := by
  obtain ⟨removed, inserted, hremoved, hinserted, hcut⟩ := h.release
  obtain ⟨heap', l', hmerge, hrecut, hfreeApart⟩ := hcut.merge hend
  refine ⟨heap', l', ?_, hrecut.cut, ?_, ?_, ?_, ?_⟩
  · rw [finshHeapFree, hremoved, Option.bind_some, hinserted, Option.bind_some, hmerge]
  · rw [hrecut.allocated, allocatedBlocks_free]
  · rw [hrecut.allocated]
    exact hrecut.kept
  · intro a ha
    have hmem := hrecut.free ha
    rw [freeBlocks_free, List.mem_append, List.mem_cons] at hmem
    rw [freeBlocks_allocated, List.mem_append]
    rcases hmem with hmem | rfl | hmem
    · exact .inl (.inl hmem)
    · exact .inr rfl
    · exact .inl (.inr hmem)
  · intro hbefore
    obtain ⟨hfront, hback⟩ := freeApart_allocated.1 hbefore
    exact hfreeApart hfront hback

end RtThread
