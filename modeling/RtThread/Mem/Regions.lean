import RtThread.Mem.Requests

/-!
# Which regions make a heap

`rt_system_heap_init` tests that two headers fit between the aligned ends of the region. It does not test that a block of `MIN_SIZE_ALIGNED` bytes fits as well, to which `rt_malloc` raises the size after it has compared it with the heap: the bound of the search then wraps, and the search goes round at the end of the heap. And the test does not see that the begin of the region goes past the last word when it is aligned.
-/

namespace RtThread

open Tiling

variable {cfg : MemConfig} {heap heap' : Heap} {blocks : Set Nat} {p size : Nat} {s : HeapState} {trace : List HeapEvent}
  {mem : Nat → HeapMem} {byte : Nat → UInt8} {beginAddr endAddr : Nat}

/-- The pointer is that of a block in use, of which all bytes, its header included, are between the two addresses. -/
def InsideRegion (cfg : MemConfig) (heap : Heap) (beginAddr endAddr p : Nat) : Prop :=
  ∃ b ∈ heap.inUse, p = heap.pointer cfg b ∧ beginAddr ≤ heap.heapPtr + b ∧ heap.heapPtr + heap.next b ≤ endAddr

theorem rtSystemHeapInit_ends (hinit : rtSystemHeapInit cfg mem byte beginAddr endAddr = some heap) :
    heap.heapPtr = cfg.rtAlign beginAddr ∧
      heap.heapPtr + heap.heapEnd + cfg.sizeofStructMem = cfg.rtAlignDown endAddr := by
  unfold rtSystemHeapInit at hinit
  dsimp only at hinit
  split_ifs at hinit with haccept
  obtain rfl := Option.some.inj hinit
  refine ⟨rfl, ?_⟩
  dsimp only
  omega

theorem InOrder.insideRegion_iff (h : InOrder cfg heap blocks) (hbegin : beginAddr < cfg.word)
    (hlow : heap.heapPtr = cfg.rtAlign beginAddr) (hhigh : heap.heapPtr + heap.heapEnd ≤ endAddr)
    (hmalloc : rtMalloc cfg heap size = some (some p, heap')) :
    InsideRegion cfg heap' beginAddr endAddr p ↔ beginAddr + cfg.alignSize - 1 < cfg.word := by
  have hroom := h.room
  have halign := cfg.alignSize_le_sizeof
  rcases h.malloc_cases hmalloc with ⟨hnone, -⟩ | ⟨b, blocks', hsome, hgives⟩
  · cases hnone
  · obtain rfl := Option.some.inj hsome
    have hmem := hgives.order.mem_inUse.2 ((hgives.used b).2 (.inl rfl))
    have hptr := hgives.region.heapPtr
    constructor
    · rintro ⟨c, hc, -, hle, -⟩
      have hbelow := hgives.order.tiles.below c (hgives.order.mem_inUse.1 hc).1
      have hend := hgives.region.heapEnd
      omega
    · intro hfits
      have hle := MemConfig.le_rtAlign hfits
      have hnext := hgives.order.next_le (hgives.order.mem_inUse.1 hmem).1
      have hend := hgives.region.heapEnd
      exact ⟨b, hmem, by rw [Heap.pointer, hptr], by omega, by omega⟩

/-- `rt_malloc` returns, and what it gives is in the region, if and only if its early tests refuse the size, or a block fits between the headers and, where one is found, the begin of the region can be aligned. -/
theorem rtMalloc_inside_iff (hbegin : beginAddr < cfg.word) (hend : endAddr < cfg.word)
    (hinit : rtSystemHeapInit cfg mem byte beginAddr endAddr = some heap)
    (hrun : BlockRun cfg heap (fun _ _ => True) trace s) :
    (∃ r heap', rtMalloc cfg s.heap size = some (r, heap') ∧ ∀ p ∈ r, InsideRegion cfg heap' beginAddr endAddr p) ↔
      (size = 0 ∨ heap.memSizeAligned < cfg.rtAlign size) ∨ cfg.minSizeAligned ≤ heap.memSizeAligned ∧
        (MallocFinds cfg s.heap size → beginAddr + cfg.alignSize - 1 < cfg.word) := by
  obtain ⟨hregion, blocks, h⟩ := inOrder_of_run hend hinit hrun
  obtain ⟨hlow, hhigh⟩ := rtSystemHeapInit_ends hinit
  have hdown := cfg.rtAlignDown_le endAddr
  rw [← hregion.heapPtr] at hlow
  have hhigh : s.heap.heapPtr + s.heap.heapEnd ≤ endAddr := by
    rw [hregion.heapPtr, hregion.heapEnd]
    omega
  rw [← hregion.memSizeAligned]
  rcases Nat.lt_or_ge s.heap.memSizeAligned cfg.minSizeAligned with htiny | hone
  · have hmalloc := h.malloc_tiny htiny size
    constructor
    · rintro ⟨r, heap', heq, -⟩
      rw [hmalloc] at heq
      split_ifs at heq with hearly
      exact .inl hearly
    · rintro (hearly | ⟨hone, -⟩)
      · exact ⟨none, s.heap, by rw [hmalloc, if_pos hearly], nofun⟩
      · exact absurd hone (not_le.2 htiny)
  · obtain ⟨r, heap', hmalloc, hfinds, -, -⟩ := h.malloc hone size
    constructor
    · rintro ⟨r', heap'', heq, hinside⟩
      obtain ⟨rfl, rfl⟩ := Prod.mk.inj (Option.some.inj (hmalloc.symm.trans heq))
      refine .inr ⟨hone, fun hfound => ?_⟩
      obtain ⟨p, rfl⟩ := Option.ne_none_iff_exists'.1 (hfinds.2 hfound)
      exact (h.insideRegion_iff hbegin hlow hhigh hmalloc).1 (hinside p rfl)
    · intro hcond
      refine ⟨r, heap', hmalloc, fun p hp => ?_⟩
      obtain rfl : r = some p := hp
      have hfound := hfinds.1 (Option.some_ne_none p)
      refine (h.insideRegion_iff hbegin hlow hhigh hmalloc).2 ?_
      rcases hcond with (hzero | hlarge) | ⟨-, hfits⟩
      · exact absurd hzero hfound.1
      · exact absurd hfound.2.1 (not_le.2 hlarge)
      · exact hfits hfound

/-- The heap of 228 bytes, of which 60 are in use; 100 more are asked for. -/
theorem rtMalloc_inside_iff_small : ∃ trace s, BlockRun smallConfig smallHeap (fun _ _ => True) trace s ∧
    s.heap.inUse = {0} ∧ MallocFinds smallConfig s.heap 100 ∧
    ∃ r heap', rtMalloc smallConfig s.heap 100 = some (r, heap') ∧
      ∀ p ∈ r, InsideRegion smallConfig heap' 0x20000002 0x20000100 p := by
  obtain ⟨trace, s, hrun, hfound⟩ := exists_blockRun smallConfig smallHeap (fun _ _ => True) [.malloc 60]
    (fun _ s => decide (s.heap.inUse = {0} ∧ MallocFinds smallConfig s.heap 100)) (by decide +kernel)
  obtain ⟨hused, hfinds⟩ := of_decide_eq_true hfound
  refine ⟨trace, s, hrun, hused, hfinds, ?_⟩
  exact (rtMalloc_inside_iff (by decide) (by decide) smallHeap_init hrun).2 (.inr ⟨by decide +kernel, fun _ => by decide⟩)

/-- A region of 32 bytes is accepted; the heap has 8 bytes, and the search for a block for one byte goes on however many rounds it makes. A region that begins at the last address is accepted; the pointer that is given is not in it. -/
theorem rtMalloc_inside_fails :
    (∃ heap, rtSystemHeapInit smallConfig (fun _ => ⟨0, false, 0, 0⟩) (fun _ => 0) 0x20000000 0x20000020 = some heap ∧
      heap.memSizeAligned = 8 ∧ rtMalloc smallConfig heap 1 = none ∧
      ∀ n, rtMallocSearch smallConfig heap (smallConfig.blockSize 1) n heap.lfree = none) ∧
    ∃ heap, rtSystemHeapInit smallConfig (fun _ => ⟨0, false, 0, 0⟩) (fun _ => 0) 0xFFFFFFFF 0x1000 = some heap ∧
      (rtMalloc smallConfig heap 1).map Prod.fst = some (some 12) := by
  constructor
  · obtain ⟨heap, hinit, hfound⟩ := (Option.any_eq_true (fun heap : Heap => decide (heap.memSizeAligned = 8 ∧
      (rtMalloc smallConfig heap 1).isNone = true))
      (rtSystemHeapInit smallConfig (fun _ => ⟨0, false, 0, 0⟩) (fun _ => 0) 0x20000000 0x20000020)).1 (by decide +kernel)
    obtain ⟨hsize, hmalloc⟩ := of_decide_eq_true hfound
    have h : InOrder smallConfig heap {0} := rtSystemHeapInit_inOrder (by decide) hinit
    have hmin : smallConfig.minSizeAligned = 12 := by decide
    have htiny : heap.memSizeAligned < smallConfig.minSizeAligned := by rw [hsize, hmin]; decide
    obtain ⟨-, hloop⟩ := h.oneBlock.resolve_left (not_le.2 htiny)
    refine ⟨heap, hinit, hsize, Option.isNone_iff_eq_none.1 hmalloc, fun n => ?_⟩
    exact h.search_tiny (by rw [hsize]; decide) (by decide) hloop (h.lfree.imp_right And.left) n
  · obtain ⟨heap, hinit, hfound⟩ := (Option.any_eq_true (fun heap : Heap => decide ((rtMalloc smallConfig heap 1).map Prod.fst =
      some (some 12))) (rtSystemHeapInit smallConfig (fun _ => ⟨0, false, 0, 0⟩) (fun _ => 0) 0xFFFFFFFF 0x1000)).1
      (by decide +kernel)
    exact ⟨heap, hinit, of_decide_eq_true hfound⟩

end RtThread
