import RtThread.Mem.Effects

/-!
# The lowest free block

"pointer to the lowest free block" is what `mem.c` says of `lfree`, and the search of `rt_malloc` starts there. `rt_malloc`, `rt_free` and `plug_holes` see to it. `rt_realloc` does not when it gives the end of a block back: the free block that it makes is below `lfree` unless a lower one is free or it is joined with the one `lfree` points to.

The search has a bound of its own, which leaves out the block at the end of the heap that the request would fill exactly.
-/

namespace RtThread

open Tiling

variable {cfg : MemConfig} {heap heap' : Heap} {blocks blocks' : Set Nat} {b ptr size : Nat} {s s' : HeapState} {op : HeapOp}
  {events trace : List HeapEvent} {mem : Nat → HeapMem} {byte : Nat → UInt8} {beginAddr endAddr : Nat}

/-- The blocks that a search passes from `lfree` on. -/
def searchBlocks (heap : Heap) : List Nat := chain heap.next heap.heapEnd heap.rounds heap.lfree

/-- `lfree` is the lowest free block, or the end of the heap where there is none, so that a search from it passes every free block. -/
structure LfreeLowest (heap : Heap) : Prop where
  lfree : heap.lfree ∈ heapBlocks heap ∧ heap.used heap.lfree = false ∨
    heap.lfree = heap.heapEnd ∧ ∀ b ∈ heapBlocks heap, heap.used b = true
  lowest : ∀ b ∈ heapBlocks heap, heap.used b = false → heap.lfree ≤ b
  searched : ∀ b ∈ heapBlocks heap, heap.used b = false → b ∈ searchBlocks heap

/-- Where `rt_realloc` gives the end of a block back, a lower block is free, or the block behind is the one `lfree` points to. -/
def LfreeKept (cfg : MemConfig) (s : HeapState) : HeapOp → Prop
  | .realloc (some rmem) newsize =>
    let ptr := s.heap.header cfg rmem
    cfg.rtAlign newsize ≠ 0 →
      ptr + cfg.sizeofStructMem + cfg.rtAlign newsize + cfg.sizeofStructMem + cfg.minSize < s.heap.next ptr →
        s.heap.lfree < ptr ∨ s.heap.next ptr = s.heap.lfree ∧ s.heap.lfree ≠ s.heap.heapEnd
  | .realloc none _ => True
  | .malloc _ => True
  | .calloc _ _ => True
  | .free _ => True
  | .write _ _ => True

instance (cfg : MemConfig) (s : HeapState) (op : HeapOp) : Decidable (LfreeKept cfg s op) := by
  induction op using HeapOp.casesOn with
  | realloc rmem newsize => induction rmem using Option.casesOn <;> dsimp only [LfreeKept] <;> infer_instance
  | _ => dsimp only [LfreeKept]; infer_instance

theorem InOrder.lfreeLowest (h : InOrder cfg heap blocks) (hlow : Lowest heap blocks) : LfreeLowest heap := by
  refine ⟨?_, fun b hb hfree => hlow b (h.mem_heapBlocks.1 hb) hfree, fun b hb hfree => ?_⟩
  · refine h.lfree.symm.imp (fun hfree => ⟨h.mem_heapBlocks.2 hfree.1, hfree.2⟩) fun hend => ⟨hend, fun b hb => ?_⟩
    by_contra hused
    have hle := hlow b (h.mem_heapBlocks.1 hb) (Bool.eq_false_of_not_eq_true hused)
    have hlt := h.tiles.below b (h.mem_heapBlocks.1 hb)
    omega
  · have hb := h.mem_heapBlocks.1 hb
    have hle := hlow b hb hfree
    have hlt := h.tiles.below b hb
    have hlfree : heap.lfree ∈ blocks := (h.lfree.resolve_left (by omega)).1
    exact h.tiles.mem_chain cfg.sizeofStructMem_pos hlfree (heap.lt_rounds _) hb hle

theorem Heap.header_pointer (h : InOrder cfg heap blocks) (hb : b ∈ blocks) (hused : heap.used b = true) :
    heap.header cfg (heap.pointer cfg b) = b :=
  (h.payloadOf hb hused).2.header_eq h.toHeapBlocks

theorem CallEffect.lowest (heffect : CallEffect cfg s.heap blocks events heap' blocks') (h : InOrder cfg s.heap blocks)
    (hok : ∀ e ∈ events, LfreeKept cfg s e.op) (hlow : Lowest s.heap blocks) : Lowest heap' blocks' := by
  cases heffect with
  | quiet byte _ => exact hlow
  | gives byte _ hgives => exact hgives.lowest hlow
  | frees _ hfrees => exact hfrees.lowest hlow
  | trims hzero hroomy htrims =>
    have hkept := hok _ (List.mem_singleton_self _)
    dsimp only [LfreeKept] at hkept
    rw [Heap.header_pointer h htrims.mem htrims.inUse] at hkept
    exact htrims.lowest (hkept hzero hroomy) hlow
  | moves byte _ hgives hfrees _ => exact hfrees.lowest (hgives.lowest hlow)

theorem stepHeap_op (hs : stepHeap cfg s op = some (s', events)) : ∀ e ∈ events, e.op = op := by
  cases op with
  | write addr byte =>
    cases hs
    nofun
  | malloc size =>
    obtain ⟨r, -, heq⟩ := Option.map_eq_some_iff.1 hs
    cases heq
    exact fun e he => by rw [List.mem_singleton.1 he]
  | calloc count size =>
    obtain ⟨r, -, heq⟩ := Option.map_eq_some_iff.1 hs
    cases heq
    exact fun e he => by rw [List.mem_singleton.1 he]
  | realloc rmem newsize =>
    obtain ⟨r, -, heq⟩ := Option.map_eq_some_iff.1 hs
    cases heq
    exact fun e he => by rw [List.mem_singleton.1 he]
  | free rmem =>
    obtain ⟨r, -, heq⟩ := Option.map_eq_some_iff.1 hs
    cases heq
    exact fun e he => by rw [List.mem_singleton.1 he]

/-- In every run in which `rt_realloc` gives the end of a block back only where `lfree` need not be lowered, or is by `plug_holes`. -/
theorem lfreeLowest_of_run (hend : endAddr < cfg.word) (hinit : rtSystemHeapInit cfg mem byte beginAddr endAddr = some heap)
    (hrun : BlockRun cfg heap (LfreeKept cfg) trace s) : LfreeLowest s.heap := by
  have hinv : ∃ blocks, InOrder cfg s.heap blocks ∧ Lowest s.heap blocks := by
    refine hrun.state_invariant (I := fun s => ∃ blocks, InOrder cfg s.heap blocks ∧ Lowest s.heap blocks) ?_ ?_
    · refine ⟨{0}, rtSystemHeapInit_inOrder hend hinit, ?_⟩
      rintro b rfl _
      exact (rtSystemHeapInit_start hinit).2.1.le
    · rintro s op s' events ⟨blocks, h, hlow⟩ hok hs
      obtain ⟨blocks', heffect⟩ := h.callEffect hok.1 hs
      refine ⟨blocks', heffect.inOrder h, heffect.lowest h (fun e he => ?_) hlow⟩
      rw [stepHeap_op hs e he]
      exact hok.2
  obtain ⟨blocks, h, hlow⟩ := hinv
  exact h.lfreeLowest hlow

/-- The end of a block is given back below a free block that `lfree` points to; the rest is joined with it. -/
theorem lfreeLowest_of_run_trimmed : ∃ trace s, BlockRun smallConfig smallHeap (LfreeKept smallConfig) trace s ∧
    heapBlocks s.heap = [0, 72, 104] ∧ s.heap.inUse = {0, 72} ∧ s.heap.lfree = 104 ∧ LfreeLowest s.heap := by
  obtain ⟨trace, s, hrun, hfound⟩ := exists_blockRun smallConfig smallHeap (LfreeKept smallConfig)
    [.malloc 60, .malloc 60, .realloc (some 0x20000058) 20]
    (fun _ s => decide (heapBlocks s.heap = [0, 72, 104] ∧ s.heap.inUse = {0, 72} ∧ s.heap.lfree = 104)) (by decide +kernel)
  obtain ⟨hblocks, hused, hlfree⟩ := of_decide_eq_true hfound
  exact ⟨trace, s, hrun, hblocks, hused, hlfree, lfreeLowest_of_run (by decide) smallHeap_init hrun⟩

/-- With two blocks in use the first gives its end back: the free block there is below `lfree`. -/
theorem lfreeLowest_fails : ∃ trace s, BlockRun smallConfig smallHeap (fun _ _ => True) trace s ∧
    trace.map HeapEvent.op = [.malloc 60, .malloc 20, .realloc (some 0x20000010) 20] ∧
    heapBlocks s.heap = [0, 32, 72, 104] ∧ s.heap.used 32 = false ∧ s.heap.lfree = 104 ∧ 32 ∉ searchBlocks s.heap := by
  obtain ⟨trace, s, hrun, hfound⟩ := exists_blockRun smallConfig smallHeap (fun _ _ => True)
    [.malloc 60, .malloc 20, .realloc (some 0x20000010) 20]
    (fun trace s => decide (trace.map HeapEvent.op = [.malloc 60, .malloc 20, .realloc (some 0x20000010) 20] ∧
      heapBlocks s.heap = [0, 32, 72, 104] ∧ s.heap.used 32 = false ∧ s.heap.lfree = 104 ∧ 32 ∉ searchBlocks s.heap))
    (by decide +kernel)
  exact ⟨trace, s, hrun, of_decide_eq_true hfound⟩

/-! ## What rt_malloc finds -/

/-- The block is free and has room for a request of `size` bytes. -/
def HasRoom (cfg : MemConfig) (heap : Heap) (size b : Nat) : Prop :=
  heap.used b = false ∧ b + cfg.sizeofStructMem + cfg.blockSize size ≤ heap.next b

instance (cfg : MemConfig) (heap : Heap) (size b : Nat) : Decidable (HasRoom cfg heap size b) :=
  inferInstanceAs (Decidable (_ ∧ _))

def FillsEnd (cfg : MemConfig) (heap : Heap) (size b : Nat) : Prop :=
  heap.next b = heap.heapEnd ∧ b + cfg.sizeofStructMem + cfg.blockSize size = heap.next b

instance (cfg : MemConfig) (heap : Heap) (size b : Nat) : Decidable (FillsEnd cfg heap size b) :=
  inferInstanceAs (Decidable (_ ∧ _))

theorem HeapBlocks.findable_iff (h : HeapBlocks cfg heap blocks) (hb : b ∈ blocks) :
    Findable cfg heap (cfg.blockSize size) b ↔ HasRoom cfg heap size b ∧ ¬ FillsEnd cfg heap size b := by
  have hle := h.next_le hb
  have hend := h.end_eq
  unfold Findable HasRoom FillsEnd
  constructor
  · rintro ⟨hfree, hroom, hlt⟩
    exact ⟨⟨hfree, hroom⟩, by omega⟩
  · rintro ⟨⟨hfree, hroom⟩, hnot⟩
    exact ⟨hfree, hroom, by omega⟩

theorem HeapBlocks.blockSize_le (h : HeapBlocks cfg heap blocks) (hb : b ∈ blocks) (hroom : HasRoom cfg heap size b) :
    cfg.blockSize size ≤ heap.memSizeAligned := by
  have hle := h.next_le hb
  have hend := h.end_eq
  have hfits := hroom.2
  omega

/-- In every heap that calls bring about: `rt_malloc` returns `RT_NULL` only where no free block has room, if and only if one of those that have is at or above `lfree` and would not be filled at the end of the heap. -/
theorem rtMalloc_complete_iff (hend : endAddr < cfg.word) (hinit : rtSystemHeapInit cfg mem byte beginAddr endAddr = some heap)
    (hrun : BlockRun cfg heap (fun _ _ => True) trace s) (hsize : size ≠ 0) :
    (∀ heap', rtMalloc cfg s.heap size = some (none, heap') → ∀ b ∈ heapBlocks s.heap, ¬ HasRoom cfg s.heap size b) ↔
      ((∃ b ∈ heapBlocks s.heap, HasRoom cfg s.heap size b) →
        ∃ b ∈ heapBlocks s.heap, HasRoom cfg s.heap size b ∧ s.heap.lfree ≤ b ∧ ¬ FillsEnd cfg s.heap size b) := by
  obtain ⟨-, blocks, h⟩ := inOrder_of_run hend hinit hrun
  have hmin : cfg.minSizeAligned ≤ cfg.blockSize size := le_max_right ..
  constructor
  · rintro hcomplete ⟨b, hb, hroom⟩
    have hone := hmin.trans (h.blockSize_le (h.mem_heapBlocks.1 hb) hroom)
    obtain ⟨r, heap', hmalloc, hfinds, -, -⟩ := h.malloc hone size
    have hfound : r ≠ none := by
      rintro rfl
      exact hcomplete heap' hmalloc b hb hroom
    obtain ⟨-, -, c, hc, hreach, hc'⟩ := hfinds.1 hfound
    obtain ⟨hroom', hnot⟩ := (h.findable_iff (h.mem_heapBlocks.1 hc)).1 hc'
    exact ⟨c, hc, hroom', hreach, hnot⟩
  · intro hcond heap' hmalloc b hb hroom
    obtain ⟨c, hc, hroom', hreach, hnot⟩ := hcond ⟨b, hb, hroom⟩
    have hle := h.blockSize_le (h.mem_heapBlocks.1 hb) hroom
    obtain ⟨r, heap'', hmalloc', hfinds, -, -⟩ := h.malloc (hmin.trans hle) size
    obtain ⟨rfl, -⟩ := Prod.mk.inj (Option.some.inj (hmalloc'.symm.trans hmalloc))
    refine hfinds.2 ⟨hsize, (le_max_left ..).trans hle, c, hc, hreach, ?_⟩ rfl
    exact (h.findable_iff (h.mem_heapBlocks.1 hc)).2 ⟨hroom', hnot⟩

/-- After two allocations there is a free block at the end; a request for less than it has gets it. -/
theorem rtMalloc_complete_iff_end : ∃ trace s, BlockRun smallConfig smallHeap (fun _ _ => True) trace s ∧
    heapBlocks s.heap = [0, 72, 104] ∧ HasRoom smallConfig s.heap 100 104 ∧
      ∀ heap', rtMalloc smallConfig s.heap 100 = some (none, heap') → ∀ b ∈ heapBlocks s.heap, ¬ HasRoom smallConfig s.heap 100 b := by
  obtain ⟨trace, s, hrun, hfound⟩ := exists_blockRun smallConfig smallHeap (fun _ _ => True) [.malloc 60, .malloc 20]
    (fun _ s => decide (heapBlocks s.heap = [0, 72, 104] ∧ HasRoom smallConfig s.heap 100 104 ∧ s.heap.lfree ≤ 104 ∧
      ¬ FillsEnd smallConfig s.heap 100 104)) (by decide +kernel)
  obtain ⟨hblocks, hroom, hreach, hnot⟩ := of_decide_eq_true hfound
  refine ⟨trace, s, hrun, hblocks, hroom, ?_⟩
  exact (rtMalloc_complete_iff (by decide) smallHeap_init hrun (by decide)).2 fun _ =>
    ⟨104, by rw [hblocks]; decide, hroom, hreach, hnot⟩

/-- A request for all that the heap has is refused although the heap is one free block. And one that a block below `lfree` would hold is refused after the end of a block has been given back. -/
theorem rtMalloc_complete_fails :
    (rtMalloc smallConfig smallHeap 228).map Prod.fst = some none ∧ heapBlocks smallHeap = [0] ∧
      HasRoom smallConfig smallHeap 228 0 ∧
    ∃ trace s, BlockRun smallConfig smallHeap (fun _ _ => True) trace s ∧
      trace.map HeapEvent.op = [.malloc 100, .malloc 100, .realloc (some 0x20000010) 20] ∧
      (rtMalloc smallConfig s.heap 60).map Prod.fst = some none ∧ 32 ∈ heapBlocks s.heap ∧
        HasRoom smallConfig s.heap 60 32 := by
  refine ⟨by decide +kernel, by decide +kernel, by decide +kernel, ?_⟩
  obtain ⟨trace, s, hrun, hfound⟩ := exists_blockRun smallConfig smallHeap (fun _ _ => True)
    [.malloc 100, .malloc 100, .realloc (some 0x20000010) 20]
    (fun trace s => decide (trace.map HeapEvent.op = [.malloc 100, .malloc 100, .realloc (some 0x20000010) 20] ∧
      (rtMalloc smallConfig s.heap 60).map Prod.fst = some none ∧ 32 ∈ heapBlocks s.heap ∧ HasRoom smallConfig s.heap 60 32))
    (by decide +kernel)
  exact ⟨trace, s, hrun, of_decide_eq_true hfound⟩

end RtThread
