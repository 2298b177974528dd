import RtThread.Mem.Runs

/-!
# What the calls do to the blocks in use

For each call that comes back: which blocks are in use after it and where they end, what it does to the bytes, and what it makes of `lfree`, `used_mem` and `max_mem`. The runs here are freer than those of the application that keeps to its sizes: any size may be asked for, and a pointer may be passed as long as its block is in use.
-/

namespace RtThread

open Function Tiling

variable {cfg : MemConfig} {heap heap' heap'' : Heap} {blocks blocks' blocks'' : Set Nat} {b c m ptr size : Nat}

/-! ## The blocks as a list -/

theorem Heap.lt_rounds (heap : Heap) (b : Nat) : heap.heapEnd - b < heap.rounds := Nat.lt_succ_of_le (Nat.sub_le ..)

theorem HeapBlocks.mem_heapBlocks (h : HeapBlocks cfg heap blocks) : b ∈ heapBlocks heap ↔ b ∈ blocks := by
  rw [heapBlocks, h.tiles.mem_chain_iff cfg.sizeofStructMem_pos h.tiles.start (heap.lt_rounds 0)]
  exact and_iff_left (Nat.zero_le b)

theorem HeapBlocks.unique (h : HeapBlocks cfg heap blocks) (h' : HeapBlocks cfg heap blocks') : blocks = blocks' := by
  ext b
  rw [← h.mem_heapBlocks, h'.mem_heapBlocks]

def Heap.inUse (heap : Heap) : Finset Nat := ((heapBlocks heap).filter heap.used).toFinset

theorem HeapBlocks.mem_inUse (h : HeapBlocks cfg heap blocks) : b ∈ heap.inUse ↔ b ∈ blocks ∧ heap.used b = true := by
  rw [Heap.inUse, List.mem_toFinset, List.mem_filter, h.mem_heapBlocks]

/-- `lfree` is no higher than any free block. -/
def Lowest (heap : Heap) (blocks : Set Nat) : Prop := ∀ b ∈ blocks, heap.used b = false → heap.lfree ≤ b

structure InOrder (cfg : MemConfig) (heap : Heap) (blocks : Set Nat) : Prop extends HeapInv cfg heap blocks where
  payload : ∀ b ∈ blocks, heap.used b = true → b + cfg.sizeofStructMem < heap.next b
  /-- Nothing is allocated in a heap that is smaller than the smallest block, and its end is linked to itself. -/
  oneBlock : cfg.minSizeAligned ≤ heap.memSizeAligned ∨
    (∀ b ∈ blocks, heap.used b = false) ∧ heap.next heap.heapEnd = heap.heapEnd

/-! ## Combining free blocks -/

structure Joins (heap heap' : Heap) (blocks blocks' : Set Nat) : Prop where
  region : SameRegion heap heap'
  used : ∀ b, b ∈ blocks' ∧ heap'.used b = true ↔ b ∈ blocks ∧ heap.used b = true
  next : ∀ b ∈ blocks, heap.used b = true → heap'.next b = heap.next b
  usedMem : heap'.usedMem = heap.usedMem
  maxMem : heap'.maxMem = heap.maxMem
  byte : heap'.byte = heap.byte
  lowest : Lowest heap blocks → Lowest heap' blocks'

theorem Joins.refl (heap : Heap) (blocks : Set Nat) : Joins heap heap blocks blocks :=
  ⟨.refl heap, fun _ => Iff.rfl, fun _ _ _ => rfl, rfl, rfl, rfl, id⟩

theorem Joins.trans (h : Joins heap heap' blocks blocks') (h' : Joins heap' heap'' blocks' blocks'') :
    Joins heap heap'' blocks blocks'' where
  region := h.region.trans h'.region
  used b := (h'.used b).trans (h.used b)
  next b hb hused := by
    obtain ⟨hb', hused'⟩ := (h.used b).2 ⟨hb, hused⟩
    rw [h'.next b hb' hused', h.next b hb hused]
  usedMem := h'.usedMem.trans h.usedMem
  maxMem := h'.maxMem.trans h.maxMem
  byte := h'.byte.trans h.byte
  lowest hlow := h'.lowest (h.lowest hlow)

theorem HeapBlocks.combine_joins (h : HeapBlocks cfg heap blocks) (hb : b ∈ blocks) (hbfree : heap.used b = false)
    (hnfree : heap.used (heap.next b) = false) :
    Joins heap (combine heap b (heap.next b)) blocks (blocks \ {heap.next b}) := by
  have hlt := h.tiles.lt_next cfg.sizeofStructMem_pos hb
  refine ⟨combine_region .., fun c => ?_, fun c _ hcused => ?_, ?_, ?_, ?_, fun hlow c hc hcfree => ?_⟩
  · rw [combine_used]
    refine ⟨fun hc => ⟨hc.1.1, hc.2⟩, fun hc => ⟨⟨hc.1, ?_⟩, hc.2⟩⟩
    rintro rfl
    exact absurd (hnfree.symm.trans hc.2) (by decide)
  · rw [combine_next]
    refine update_of_ne ?_ ..
    rintro rfl
    exact absurd (hbfree.symm.trans hcused) (by decide)
  · unfold combine
    dsimp only
    split_ifs <;> rfl
  · unfold combine
    dsimp only
    split_ifs <;> rfl
  · unfold combine
    dsimp only
    split_ifs <;> rfl
  · rw [combine_used] at hcfree
    have hle := hlow c hc.1 hcfree
    rw [combine_lfree]
    split_ifs with heq
    · rw [heq] at hle
      omega
    · exact hle

theorem HeapBlocks.forward_joins (h : HeapBlocks cfg heap blocks) (hm : m ∈ blocks) (hfree : heap.used m = false) :
    ∃ blocks', HeapBlocks cfg (plugForward heap m) blocks' ∧ m ∈ blocks' ∧ (plugForward heap m).used m = false ∧
      Joins heap (plugForward heap m) blocks blocks' := by
  have hcases : plugForward heap m = if m ≠ heap.next m ∧ heap.used (heap.next m) = false ∧ heap.next m ≠ heap.heapEnd
      then combine heap m (heap.next m) else heap := rfl
  rw [hcases]
  split_ifs with hhole
  · have hn := h.tiles.next_mem hm hhole.2.2
    have hlt := h.tiles.lt_next cfg.sizeofStructMem_pos hm
    exact ⟨_, h.joined hm hn, ⟨hm, hlt.ne⟩, by rw [combine_used]; exact hfree, h.combine_joins hm hfree hhole.2.1⟩
  · exact ⟨blocks, h, hm, hfree, .refl heap blocks⟩

theorem HeapBlocks.backward_joins (h : HeapBlocks cfg heap blocks) (hm : m ∈ blocks) (hfree : heap.used m = false) :
    ∃ blocks', HeapBlocks cfg (plugBackward heap m) blocks' ∧ Joins heap (plugBackward heap m) blocks blocks' := by
  have hcases : plugBackward heap m = if heap.prev m ≠ m ∧ heap.used (heap.prev m) = false
      then combine heap (heap.prev m) m else heap := rfl
  rw [hcases]
  split_ifs with hhole
  · have hp := h.tiles.prev_mem hm
    have hpm : heap.next (heap.prev m) = m := by
      refine (h.tiles.back m hm ?_).2
      rintro rfl
      exact hhole.1 h.tiles.first
    have hjoined := h.joined hp (by rw [hpm]; exact hm)
    have hjoins := h.combine_joins hp hhole.2 (by rw [hpm]; exact hfree)
    rw [hpm] at hjoined hjoins
    exact ⟨_, hjoined, hjoins⟩
  · exact ⟨blocks, h, .refl heap blocks⟩

theorem HeapBlocks.plug_joins (h : HeapBlocks cfg heap blocks) (hm : m ∈ blocks) (hfree : heap.used m = false)
    (hplug : plugHoles heap m = some heap') : ∃ blocks', HeapBlocks cfg heap' blocks' ∧ Joins heap heap' blocks blocks' := by
  rw [plugHoles, if_pos ⟨h.tiles.below m hm, hfree⟩] at hplug
  obtain rfl := Option.some.inj hplug
  obtain ⟨blocks₁, h₁, hm₁, hfree₁, hjoins₁⟩ := h.forward_joins hm hfree
  obtain ⟨blocks₂, h₂, hjoins₂⟩ := h₁.backward_joins hm₁ hfree₁
  exact ⟨blocks₂, h₂, hjoins₁.trans hjoins₂⟩

/-! ## rt_malloc -/

/-- The bytes for which `rt_malloc` looks for a block. -/
def MemConfig.blockSize (cfg : MemConfig) (size : Nat) : Nat := max (cfg.rtAlign size) cfg.minSizeAligned

/-- What it does when it gives the block `ptr`. -/
structure Gives (cfg : MemConfig) (heap heap' : Heap) (blocks blocks' : Set Nat) (ptr size : Nat) : Prop where
  order : InOrder cfg heap' blocks'
  region : SameRegion heap heap'
  mem : ptr ∈ blocks
  free : heap.used ptr = false
  reach : heap.lfree ≤ ptr
  used : ∀ b, b ∈ blocks' ∧ heap'.used b = true ↔ b = ptr ∨ b ∈ blocks ∧ heap.used b = true
  next : ∀ b ∈ blocks, heap.used b = true → heap'.next b = heap.next b
  fits : ptr + cfg.sizeofStructMem + size ≤ heap'.next ptr
  usedMem : heap'.usedMem = cfg.add heap.usedMem (heap'.next ptr - ptr)
  maxMem : heap'.maxMem = max heap.maxMem heap'.usedMem
  byte : heap'.byte = heap.byte
  lowest : Lowest heap blocks → Lowest heap' blocks'

section

variable (cfg heap ptr) (extent : Nat)

theorem markUsed_used : (markUsed cfg heap ptr extent).used = update heap.used ptr true :=
  (Heap.setMem_used_same rfl).trans (Heap.setMem_used heap ptr fun m => { m with used := true })

theorem markUsed_next : (markUsed cfg heap ptr extent).next = heap.next :=
  (Heap.setMem_next_same rfl).trans (Heap.setMem_next_same (f := fun m => { m with used := true }) rfl)

theorem markUsed_prev : (markUsed cfg heap ptr extent).prev = heap.prev :=
  (Heap.setMem_prev_same rfl).trans (Heap.setMem_prev_same (f := fun m => { m with used := true }) rfl)

theorem markUsed_magic : (markUsed cfg heap ptr extent).magic = update heap.magic ptr heapMagic := by
  refine (Heap.setMem_magic ..).trans (congrArg (fun magic : Nat → Nat => update magic ptr heapMagic) ?_)
  exact Heap.setMem_magic_same (f := fun m => { m with used := true }) rfl

theorem markUsed_maxMem : (markUsed cfg heap ptr extent).maxMem = max heap.maxMem (cfg.add heap.usedMem extent) := by
  rw [max_def_lt]
  rfl

end

theorem splitBlock_mem (cfg : MemConfig) (heap : Heap) (ptr ptr2 : Nat) :
    ∃ mem, splitBlock cfg heap ptr ptr2 = { heap with mem } := by
  unfold splitBlock
  dsimp only
  split_ifs <;> exact ⟨_, rfl⟩

structure Uses (cfg : MemConfig) (heap heap' : Heap) (blocks blocks' : Set Nat) (ptr : Nat) : Prop where
  used : ∀ b, b ∈ blocks' ∧ heap'.used b = true ↔ b = ptr ∨ b ∈ blocks ∧ heap.used b = true
  free : ∀ b ∈ blocks', heap'.used b = false → ptr < b ∨ b ∈ blocks ∧ heap.used b = false
  usedMem : heap'.usedMem = cfg.add heap.usedMem (heap'.next ptr - ptr)
  maxMem : heap'.maxMem = max heap.maxMem heap'.usedMem
  byte : heap'.byte = heap.byte

theorem HeapBlocks.marked (h : HeapBlocks cfg heap blocks) (hptr : ptr ∈ blocks) (extent : Nat) :
    HeapBlocks cfg (markUsed cfg heap ptr extent) blocks := by
  refine h.of_tiles ⟨rfl, rfl, rfl⟩ ?_ h.aligned ?_ fun b hb => ?_
  · rw [markUsed_next, markUsed_prev]
    exact h.tiles
  · rw [markUsed_used, update_of_ne (h.not_end hptr).symm]
  · rw [markUsed_magic, update_apply]
    split_ifs
    · rfl
    · exact h.magic b hb

variable (cfg heap) in
theorem markUsed_uses (hptr : ptr ∈ blocks) :
    Uses cfg heap (markUsed cfg heap ptr (heap.next ptr - ptr)) blocks blocks ptr := by
  refine ⟨fun b => ?_, fun b hb hfree => ?_, ?_, ?_, rfl⟩
  · rw [markUsed_used]
    by_cases hb : b = ptr
    · simp [hb, hptr]
    · rw [update_of_ne hb]
      simp [hb]
  · rw [markUsed_used] at hfree
    have hne : b ≠ ptr := by
      rintro rfl
      rw [update_self] at hfree
      cases hfree
    rw [update_of_ne hne] at hfree
    exact .inr ⟨hb, hfree⟩
  · rw [markUsed_next]
    rfl
  · rw [markUsed_maxMem]
    rfl

theorem HeapInv.uses (h : HeapInv cfg heap blocks) (hptr : ptr ∈ blocks) (hfree : heap.used ptr = false)
    (hfits : ptr + cfg.sizeofStructMem + size ≤ heap.next ptr) (hdvd : cfg.alignSize ∣ size) :
    ∃ blocks', Taken cfg heap (rtMallocUse cfg heap ptr size) blocks blocks' ptr size ∧
      Uses cfg heap (rtMallocUse cfg heap ptr size) blocks blocks' ptr := by
  have hwidth := cfg.sizeofStructMem_pos
  obtain ⟨blocks', htaken⟩ := h.use hptr hfree hfits hdvd
  refine ⟨blocks', htaken, ?_⟩
  have hheaders := htaken.headers
  rcases h.rtMallocUse_cases hptr hfits with ⟨hroomy, heq⟩ | heq
  · have hdvd2 : cfg.alignSize ∣ ptr + cfg.sizeofStructMem + size :=
      (Nat.dvd_add_right ((Nat.dvd_add_right (h.aligned ptr hptr)).2 (cfg.rtAlign_dvd _))).2 hdvd
    have hcut := h.cut hptr (Nat.le_add_right ..) (by omega) hdvd2
    have hnext := hcut.next_first
    obtain ⟨mem, hmem⟩ := splitBlock_mem cfg heap ptr (ptr + cfg.sizeofStructMem + size)
    have hnew : ptr + cfg.sizeofStructMem + size ∉ blocks := fun hin => by
      have := h.tiles.apart ptr hptr _ hin (by omega)
      omega
    rw [heq] at hheaders ⊢
    obtain rfl := hheaders.unique (hcut.headers.marked (.inr hptr) _)
    have hextent : size + cfg.sizeofStructMem =
        (splitBlock cfg heap ptr (ptr + cfg.sizeofStructMem + size)).next ptr - ptr := by omega
    rw [hextent]
    have huses := markUsed_uses cfg (splitBlock cfg heap ptr (ptr + cfg.sizeofStructMem + size))
      (show ptr ∈ insert (ptr + cfg.sizeofStructMem + size) blocks from .inr hptr)
    have hstats : (splitBlock cfg heap ptr (ptr + cfg.sizeofStructMem + size)).usedMem = heap.usedMem ∧
        (splitBlock cfg heap ptr (ptr + cfg.sizeofStructMem + size)).maxMem = heap.maxMem ∧
        (splitBlock cfg heap ptr (ptr + cfg.sizeofStructMem + size)).byte = heap.byte := by
      rw [hmem]
      exact ⟨rfl, rfl, rfl⟩
    refine ⟨fun b => (huses.used b).trans (or_congr_right ⟨?_, ?_⟩), fun b hb hbfree => ?_, ?_, ?_, huses.byte.trans hstats.2.2⟩
    · rintro ⟨rfl | hb, hbused⟩
      · exact absurd (hcut.used_second.symm.trans hbused) (by decide)
      · exact ⟨hb, by rwa [hcut.used_others b fun hbn => hnew (hbn ▸ hb)] at hbused⟩
    · rintro ⟨hb, hbused⟩
      exact ⟨.inr hb, by rwa [hcut.used_others b fun hbn => hnew (hbn ▸ hb)]⟩
    · rcases huses.free b hb hbfree with hlt | ⟨rfl | hb, hbfree⟩
      · exact .inl hlt
      · exact .inl (by omega)
      · exact .inr ⟨hb, by rwa [hcut.used_others b fun hbn => hnew (hbn ▸ hb)] at hbfree⟩
    · rw [huses.usedMem, hstats.1]
    · rw [huses.maxMem, hstats.2.1]
  · rw [heq] at hheaders ⊢
    obtain rfl := hheaders.unique (h.toHeapBlocks.marked hptr _)
    exact markUsed_uses cfg heap hptr

theorem rtMallocTake_eq {r : Option Nat} (htake : rtMallocTake cfg heap ptr size = some (r, heap')) :
    ∃ l, heap' = { rtMallocUse cfg heap ptr size with lfree := l } ∧
      (if ptr = (rtMallocUse cfg heap ptr size).lfree then
        nextFree (rtMallocUse cfg heap ptr size) (rtMallocUse cfg heap ptr size).rounds (rtMallocUse cfg heap ptr size).lfree
      else some (rtMallocUse cfg heap ptr size).lfree) = some l := by
  unfold rtMallocTake at htake
  generalize rtMallocUse cfg heap ptr size = heap₁ at htake ⊢
  dsimp only at htake
  generalize (if ptr = heap₁.lfree then nextFree heap₁ heap₁.rounds heap₁.lfree else some heap₁.lfree) = found at htake ⊢
  cases found with
  | none => cases htake
  | some l =>
    dsimp only at htake
    split_ifs at htake
    cases htake
    exact ⟨l, rfl, rfl⟩

theorem InOrder.gives (h : InOrder cfg heap blocks) (hone : cfg.minSizeAligned ≤ heap.memSizeAligned) (hptr : ptr ∈ blocks)
    (hreach : heap.lfree ≤ ptr) (hfree : heap.used ptr = false) (hfits : ptr + cfg.sizeofStructMem + size ≤ heap.next ptr)
    (hdvd : cfg.alignSize ∣ size) (hsize : 0 < size) {r : Option Nat}
    (htake : rtMallocTake cfg heap ptr size = some (r, heap')) :
    r = some (heap.heapPtr + ptr + cfg.sizeofStructMem) ∧ ∃ blocks', Gives cfg heap heap' blocks blocks' ptr size := by
  obtain ⟨rmem, heap₂, blocks₂, heq, hinv, hkeeps, hpayload⟩ := h.take hptr hfree hfits hdvd
  obtain ⟨rfl, rfl⟩ := Prod.mk.inj (Option.some.inj (heq.symm.trans htake))
  obtain ⟨blocks', htaken, huses⟩ := h.uses hptr hfree hfits hdvd
  obtain ⟨l, heq', hl⟩ := rtMallocTake_eq htake
  generalize rtMallocUse cfg heap ptr size = heap₁ at htaken huses heq' hl
  have hblocks : HeapBlocks cfg heap₂ blocks' :=
    heq' ▸ htaken.headers.of_tiles ⟨rfl, rfl, rfl⟩ htaken.headers.tiles htaken.headers.aligned rfl htaken.headers.magic
  obtain rfl := hblocks.unique hinv.toHeapBlocks
  have hused : ∀ b, b ∈ blocks' ∧ heap₂.used b = true ↔ b = ptr ∨ b ∈ blocks ∧ heap.used b = true := by
    rw [heq']
    exact huses.used
  have hnext (b : Nat) (hb : b ∈ blocks) (hbused : heap.used b = true) : heap₂.next b = heap.next b :=
    (hkeeps.inUse b hb (Set.notMem_empty b) hbused).2.2
  refine ⟨by rw [hpayload.address, hkeeps.region.heapPtr], blocks', ⟨hinv, fun b hb hbused => ?_, .inl ?_⟩, hkeeps.region,
    hptr, hfree, hreach, hused, hnext, hpayload.fits, ?_, ?_, ?_, fun hlow b hb hbfree => ?_⟩
  · rcases (hused b).1 ⟨hb, hbused⟩ with rfl | ⟨hb, hbused⟩
    · have hfits' := hpayload.fits
      omega
    · rw [hnext b hb hbused]
      exact h.payload b hb hbused
  · rw [hkeeps.region.memSizeAligned]
    exact hone
  · rw [heq']
    exact huses.usedMem
  · rw [heq']
    exact huses.maxMem
  · rw [heq']
    exact huses.byte
  · -- the lowest free block has been taken and the search goes on from it, or it is still there
    rw [heq'] at hbfree ⊢
    change l ≤ b
    have hlfree := htaken.lfree
    have hcases := huses.free b hb hbfree
    split_ifs at hl with hfirst
    · obtain ⟨l', hl', -, hleast⟩ := htaken.headers.nextFree_spec (.inr (hfirst ▸ htaken.mem))
        (heap₁.lt_rounds _)
      obtain rfl := Option.some.inj (hl'.symm.trans hl)
      refine hleast b hb ?_ hbfree
      rw [hlfree]
      exact hcases.elim (fun hlt => hreach.trans hlt.le) fun hold => hlow b hold.1 hold.2
    · obtain rfl := Option.some.inj hl
      rw [hlfree]
      exact hcases.elim (fun hlt => hreach.trans hlt.le) fun hold => hlow b hold.1 hold.2

def MallocFinds (cfg : MemConfig) (heap : Heap) (size : Nat) : Prop :=
  size ≠ 0 ∧ cfg.rtAlign size ≤ heap.memSizeAligned ∧
    ∃ b ∈ heapBlocks heap, heap.lfree ≤ b ∧ Findable cfg heap (cfg.blockSize size) b

instance (cfg : MemConfig) (heap : Heap) (size : Nat) : Decidable (MallocFinds cfg heap size) :=
  inferInstanceAs (Decidable (_ ∧ _ ∧ ∃ _ ∈ _, _))

theorem MemConfig.blockSize_dvd (cfg : MemConfig) (size : Nat) : cfg.alignSize ∣ cfg.blockSize size := by
  unfold blockSize
  rcases max_choice (cfg.rtAlign size) cfg.minSizeAligned with heq | heq
  · rw [heq]
    exact cfg.rtAlign_dvd size
  · rw [heq]
    exact cfg.rtAlign_dvd _

theorem MemConfig.blockSize_pos (cfg : MemConfig) (size : Nat) : 0 < cfg.blockSize size := by
  have hmin := cfg.minSize_le
  have hbounds := cfg.sizeofHeapMem_bounds
  unfold blockSize
  omega

theorem rtMalloc_eq (cfg : MemConfig) (heap : Heap) (size : Nat) : rtMalloc cfg heap size =
    if size = 0 ∨ heap.memSizeAligned < cfg.rtAlign size then some (none, heap)
    else match rtMallocSearch cfg heap (cfg.blockSize size) heap.rounds heap.lfree with
      | none => none
      | some none => some (none, heap)
      | some (some ptr) => rtMallocTake cfg heap ptr (cfg.blockSize size) := by
  have hsize : (if cfg.rtAlign size < cfg.minSizeAligned then cfg.minSizeAligned else cfg.rtAlign size) =
      cfg.blockSize size := by
    rw [MemConfig.blockSize, max_def_lt]
  unfold rtMalloc
  dsimp only
  rw [hsize]
  by_cases hzero : size = 0
  · rw [if_pos hzero, if_pos (.inl hzero)]
  · by_cases hlarge : heap.memSizeAligned < cfg.rtAlign size
    · rw [if_neg hzero, if_pos hlarge, if_pos (.inr hlarge)]
    · exact ((if_neg hzero).trans (if_neg hlarge)).trans (if_neg (not_or.2 ⟨hzero, hlarge⟩)).symm

theorem InOrder.malloc (h : InOrder cfg heap blocks) (hone : cfg.minSizeAligned ≤ heap.memSizeAligned) (size : Nat) :
    ∃ r heap', rtMalloc cfg heap size = some (r, heap') ∧ (r ≠ none ↔ MallocFinds cfg heap size) ∧
      (r = none → heap' = heap) ∧ ∀ p ∈ r, ∃ ptr blocks', p = heap.heapPtr + ptr + cfg.sizeofStructMem ∧
        Gives cfg heap heap' blocks blocks' ptr (cfg.blockSize size) := by
  rw [rtMalloc_eq]
  split_ifs with hearly
  · refine ⟨none, heap, rfl, iff_of_false (not_not.2 rfl) fun hfinds => ?_, fun _ => rfl, nofun⟩
    exact hearly.elim hfinds.1 fun hlarge => absurd hfinds.2.1 (not_le.2 hlarge)
  · rw [not_or, not_lt] at hearly
    have hsize : cfg.blockSize size ≤ heap.memSizeAligned := max_le hearly.2 hone
    rcases h.search_spec hsize (h.lfree.imp_right And.left) (heap.lt_rounds _) with
      ⟨hnone, hall⟩ | ⟨ptr, hptr, hsome, hreach, hfound⟩
    · rw [hnone]
      refine ⟨none, heap, rfl, iff_of_false (not_not.2 rfl) ?_, fun _ => rfl, nofun⟩
      rintro ⟨-, -, b, hb, hreach, hfound⟩
      exact hall b (h.mem_heapBlocks.1 hb) hreach hfound
    · rw [hsome]
      obtain ⟨rmem, heap', -, htake, -⟩ := h.take hptr hfound.1 hfound.2.1 (cfg.blockSize_dvd size)
      obtain ⟨hr, blocks', hgives⟩ :=
        h.gives hone hptr hreach hfound.1 hfound.2.1 (cfg.blockSize_dvd size) (cfg.blockSize_pos size) htake
      refine ⟨some rmem, heap', htake, iff_of_true (Option.some_ne_none rmem) ?_, nofun, fun p hp => ?_⟩
      · exact ⟨hearly.1, hearly.2, ptr, h.mem_heapBlocks.2 hptr, hreach, hfound⟩
      · obtain rfl := Option.some.inj hp
        exact ⟨ptr, blocks', Option.some.inj hr, hgives⟩

theorem InOrder.search_tiny (h : InOrder cfg heap blocks) (htiny : heap.memSizeAligned < size)
    (hsize : size ≤ cfg.sizeofStructMem) (hend : heap.next heap.heapEnd = heap.heapEnd)
    (hptr : ptr = heap.heapEnd ∨ ptr ∈ blocks) (n : Nat) : rtMallocSearch cfg heap size n ptr = none := by
  have hroom := h.room
  have hend_eq := h.end_eq
  induction n generalizing ptr with
  | zero => rfl
  | succ n ih =>
    have hbound : cfg.sub heap.memSizeAligned size = heap.memSizeAligned + cfg.word - size := by
      unfold MemConfig.sub
      exact Nat.mod_eq_of_lt (by omega)
    have hle : ptr ≤ heap.heapEnd := hptr.elim le_of_eq fun hb => (h.tiles.below ptr hb).le
    rw [rtMallocSearch, hbound, if_pos (by omega)]
    dsimp only
    rw [if_neg, show (heap.mem ptr).next = heap.next ptr from rfl]
    · refine ih ?_
      rcases hptr with rfl | hb
      · exact .inl hend
      · exact h.tiles.closed ptr hb
    · rintro ⟨hfree, hfits⟩
      rcases hptr with rfl | hb
      · exact absurd (h.end_used.symm.trans hfree) (by decide)
      · have hwide := h.wide hb
        have hnext := h.next_le hb
        change size ≤ cfg.sub (heap.next ptr) _ at hfits
        rw [MemConfig.add_eq (by omega), MemConfig.sub_eq hwide (by omega)] at hfits
        omega

theorem InOrder.malloc_tiny (h : InOrder cfg heap blocks) (htiny : heap.memSizeAligned < cfg.minSizeAligned)
    (size : Nat) : rtMalloc cfg heap size =
      if size = 0 ∨ heap.memSizeAligned < cfg.rtAlign size then some (none, heap) else none := by
  obtain ⟨-, hend⟩ := h.oneBlock.resolve_left (not_le.2 htiny)
  rw [rtMalloc_eq]
  split_ifs with hearly
  · rfl
  · rw [not_or, not_lt] at hearly
    have hsize : cfg.blockSize size = cfg.minSizeAligned := max_eq_right (hearly.2.trans htiny.le)
    rw [hsize, h.search_tiny htiny cfg.minSizeAligned_le hend (h.lfree.imp_right And.left)]

theorem InOrder.malloc_cases (h : InOrder cfg heap blocks) {r : Option Nat}
    (hmalloc : rtMalloc cfg heap size = some (r, heap')) : r = none ∧ heap' = heap ∨
      ∃ ptr blocks', r = some (heap.heapPtr + ptr + cfg.sizeofStructMem) ∧
        Gives cfg heap heap' blocks blocks' ptr (cfg.blockSize size) := by
  rcases Nat.lt_or_ge heap.memSizeAligned cfg.minSizeAligned with htiny | hone
  · rw [h.malloc_tiny htiny] at hmalloc
    split_ifs at hmalloc
    cases hmalloc
    exact .inl ⟨rfl, rfl⟩
  · obtain ⟨r', heap'', heq, -, hnone, hsome⟩ := h.malloc hone size
    obtain ⟨rfl, rfl⟩ := Prod.mk.inj (Option.some.inj (heq.symm.trans hmalloc))
    cases r' with
    | none => exact .inl ⟨rfl, hnone rfl⟩
    | some p =>
      obtain ⟨ptr, blocks', rfl, hgives⟩ := hsome p rfl
      exact .inr ⟨ptr, blocks', rfl, hgives⟩

/-! ## rt_free -/

/-- What `rt_free` of the block `ptr` does. -/
structure Frees (cfg : MemConfig) (heap heap' : Heap) (blocks blocks' : Set Nat) (ptr : Nat) : Prop where
  order : InOrder cfg heap' blocks'
  region : SameRegion heap heap'
  mem : ptr ∈ blocks
  inUse : heap.used ptr = true
  used : ∀ b, b ∈ blocks' ∧ heap'.used b = true ↔ b ≠ ptr ∧ b ∈ blocks ∧ heap.used b = true
  next : ∀ b ∈ blocks, b ≠ ptr → heap.used b = true → heap'.next b = heap.next b
  usedMem : heap'.usedMem = cfg.sub heap.usedMem (heap.next ptr - ptr)
  maxMem : heap'.maxMem = heap.maxMem
  byte : heap'.byte = heap.byte
  lowest : Lowest heap blocks → Lowest heap' blocks'

theorem InOrder.payloadOf (h : InOrder cfg heap blocks) (hptr : ptr ∈ blocks) (hused : heap.used ptr = true) :
    0 < heap.next ptr - (ptr + cfg.sizeofStructMem) ∧
      Payload cfg heap blocks (heap.heapPtr + ptr + cfg.sizeofStructMem) ptr (heap.next ptr - (ptr + cfg.sizeofStructMem)) := by
  have hlt := h.payload ptr hptr hused
  exact ⟨by omega, hptr, hused, rfl, by omega⟩

theorem InOrder.room_of_used (h : InOrder cfg heap blocks) (hptr : ptr ∈ blocks) (hused : heap.used ptr = true) :
    cfg.minSizeAligned ≤ heap.memSizeAligned := by
  refine h.oneBlock.resolve_right fun htiny => ?_
  exact absurd ((htiny.1 ptr hptr).symm.trans hused) (by decide)

theorem InOrder.free (h : InOrder cfg heap blocks) (hptr : ptr ∈ blocks) (hused : heap.used ptr = true) :
    ∃ heap' blocks', rtFree cfg heap (some (heap.heapPtr + ptr + cfg.sizeofStructMem)) = some heap' ∧
      Frees cfg heap heap' blocks blocks' ptr := by
  have hroom := h.room
  have hle := h.next_le hptr
  obtain ⟨hpos, hp⟩ := h.payloadOf hptr hused
  have hextent : cfg.sub (heap.next ptr) ptr = heap.next ptr - ptr := MemConfig.sub_eq (by omega) (by omega)
  obtain ⟨hholes, hkeeps⟩ := h.unmark hptr (cfg.sub heap.usedMem (heap.next ptr - ptr))
  obtain ⟨heap', blocks', hplug, hinv, hkeeps'⟩ := hholes.plug
  obtain ⟨blocks'', hblocks, hjoins⟩ := hholes.toHeapBlocks.plug_joins hptr hholes.free hplug
  obtain rfl := hblocks.unique hinv.toHeapBlocks
  have hmarked : ∀ b, (heap.setMem ptr fun m => { m with used := false, magic := heapMagic }).used b =
      if b = ptr then false else heap.used b := fun b => by
    rw [Heap.setMem_used, update_apply]
  have hnext : (heap.setMem ptr fun m => { m with used := false, magic := heapMagic }).next = heap.next :=
    Heap.setMem_next_same rfl
  have husedIff : ∀ b, b ∈ blocks'' ∧ heap'.used b = true ↔ b ≠ ptr ∧ b ∈ blocks ∧ heap.used b = true := by
    intro b
    rw [hjoins.used b]
    change b ∈ blocks ∧ (heap.setMem ptr fun m => { m with used := false, magic := heapMagic }).used b = true ↔ _
    rw [hmarked b]
    by_cases hb : b = ptr <;> simp [hb]
  have hnext' : ∀ b ∈ blocks, b ≠ ptr → heap.used b = true → heap'.next b = heap.next b := by
    intro b hb hne hbused
    rw [hjoins.next b hb (show (heap.setMem ptr _).used b = true by rw [hmarked b, if_neg hne, hbused])]
    exact congrFun hnext b
  have hregion : SameRegion heap heap' := ⟨hjoins.region.heapPtr, hjoins.region.heapEnd, hjoins.region.memSizeAligned⟩
  refine ⟨heap', blocks'', ?_, ⟨hinv, fun b hb hbused => ?_, .inl ?_⟩, hregion, hptr, hused, husedIff, hnext',
    hjoins.usedMem, hjoins.maxMem, hjoins.byte, fun hlow => hjoins.lowest fun b hb hbfree => ?_⟩
  · rw [hp.rtFree_eq h.toHeapBlocks hpos, hextent]
    exact hplug
  · obtain ⟨hne, hb, hbused⟩ := (husedIff b).1 ⟨hb, hbused⟩
    rw [hnext' b hb hne hbused]
    exact h.payload b hb hbused
  · rw [hregion.memSizeAligned]
    exact h.room_of_used hptr hused
  · change (if ptr < heap.lfree then ptr else heap.lfree) ≤ b
    change (heap.setMem ptr fun m => { m with used := false, magic := heapMagic }).used b = false at hbfree
    rw [hmarked b] at hbfree
    by_cases hbp : b = ptr
    · rw [hbp]
      split_ifs <;> omega
    · rw [if_neg hbp] at hbfree
      have hle' := hlow b hb hbfree
      split_ifs <;> omega

/-! ## rt_realloc -/

/-- What `rt_realloc` does when it gives the end of the block `ptr` back: the block ends at `fin`. -/
structure Trims (cfg : MemConfig) (heap heap' : Heap) (blocks blocks' : Set Nat) (ptr fin : Nat) : Prop where
  order : InOrder cfg heap' blocks'
  region : SameRegion heap heap'
  mem : ptr ∈ blocks
  inUse : heap.used ptr = true
  used : ∀ b, b ∈ blocks' ∧ heap'.used b = true ↔ b ∈ blocks ∧ heap.used b = true
  next : ∀ b ∈ blocks, b ≠ ptr → heap.used b = true → heap'.next b = heap.next b
  stops : heap'.next ptr = fin
  inside : ptr + cfg.sizeofStructMem < fin ∧ fin ≤ heap.next ptr
  usedMem : heap'.usedMem = cfg.sub heap.usedMem (heap.next ptr - fin)
  maxMem : heap'.maxMem = heap.maxMem
  byte : heap'.byte = heap.byte
  /-- The rest of the block is free and is not entered in `lfree`, unless it is joined with the block there. -/
  lowest : heap.lfree < ptr ∨ heap.next ptr = heap.lfree ∧ heap.lfree ≠ heap.heapEnd → Lowest heap blocks →
    Lowest heap' blocks'

theorem InOrder.trim {fin : Nat} (h : InOrder cfg heap blocks) (hptr : ptr ∈ blocks) (hused : heap.used ptr = true)
    (hlow : ptr + cfg.sizeofStructMem < fin) (hhigh : fin + cfg.sizeofStructMem ≤ heap.next ptr)
    (hdvd : cfg.alignSize ∣ fin) : ∃ heap' blocks', plugHoles (splitBlock cfg
      { heap with usedMem := cfg.sub heap.usedMem (heap.next ptr - fin) } ptr fin) fin = some heap' ∧
        Trims cfg heap heap' blocks blocks' ptr fin := by
  have hwidth := cfg.sizeofStructMem_pos
  obtain ⟨heap', blocks', hplug, hinv, hkeeps, hmem', hused', hnext'⟩ :=
    (h.setUsedMem (cfg.sub heap.usedMem (heap.next ptr - fin))).shrink hptr hused hlow.le hhigh hdvd
  have hcut := (h.setUsedMem (cfg.sub heap.usedMem (heap.next ptr - fin))).cut hptr hlow.le hhigh hdvd
  obtain ⟨mem, hmem⟩ := splitBlock_mem cfg { heap with usedMem := cfg.sub heap.usedMem (heap.next ptr - fin) } ptr fin
  have hlfree := splitBlock_lfree cfg { heap with usedMem := cfg.sub heap.usedMem (heap.next ptr - fin) } ptr fin
  have hend := (splitBlock_region cfg { heap with usedMem := cfg.sub heap.usedMem (heap.next ptr - fin) } ptr fin).heapEnd
  have hstats : ∃ split, splitBlock cfg { heap with usedMem := cfg.sub heap.usedMem (heap.next ptr - fin) } ptr fin = split ∧
      split.usedMem = cfg.sub heap.usedMem (heap.next ptr - fin) ∧ split.maxMem = heap.maxMem ∧ split.byte = heap.byte :=
    ⟨_, hmem, rfl, rfl, rfl⟩
  obtain ⟨split, hsplit, husedMem, hmaxMem, hbyte⟩ := hstats
  refine ⟨heap', blocks', hplug, ?_⟩
  rw [hsplit] at hplug hcut hlfree hend
  obtain ⟨blocks'', hblocks, hjoins⟩ := hcut.headers.plug_joins (.inl rfl) hcut.used_second hplug
  obtain rfl := hblocks.unique hinv.toHeapBlocks
  have hnew (b : Nat) (hb : b ∈ blocks) : b ≠ fin := by
    rintro rfl
    have := h.tiles.apart ptr hptr b hb (by omega)
    omega
  have husedIff : ∀ b, b ∈ blocks'' ∧ heap'.used b = true ↔ b ∈ blocks ∧ heap.used b = true := by
    intro b
    rw [hjoins.used b]
    constructor
    · rintro ⟨rfl | hb, hbused⟩
      · exact absurd (hcut.used_second.symm.trans hbused) (by decide)
      · exact ⟨hb, (hcut.used_others b (hnew b hb)).symm.trans hbused⟩
    · rintro ⟨hb, hbused⟩
      exact ⟨.inr hb, (hcut.used_others b (hnew b hb)).trans hbused⟩
  have hnextAll : ∀ b ∈ blocks, b ≠ ptr → heap.used b = true → heap'.next b = heap.next b := fun b hb hne hbused =>
    (hkeeps.inUse b hb hne hbused).2.2
  have hregion : SameRegion heap heap' := ⟨hkeeps.region.heapPtr, hkeeps.region.heapEnd, hkeeps.region.memSizeAligned⟩
  refine ⟨⟨hinv, fun b hb hbused => ?_, .inl ?_⟩, hregion, hptr, hused, husedIff, hnextAll, hnext', ⟨hlow, by omega⟩,
    hjoins.usedMem.trans husedMem, hjoins.maxMem.trans hmaxMem, hjoins.byte.trans hbyte, ?_⟩
  · obtain ⟨hb, hbused⟩ := (husedIff b).1 ⟨hb, hbused⟩
    by_cases hne : b = ptr
    · rw [hne, hnext']
      exact hlow
    · rw [hnextAll b hb hne hbused]
      exact h.payload b hb hbused
  · rw [hregion.memSizeAligned]
    exact h.room_of_used hptr hused
  · have hfree (b : Nat) (hb : b ∈ blocks) (hbfree : split.used b = false) : heap.used b = false :=
      (hcut.used_others b (hnew b hb)).symm.trans hbfree
    rintro (hbelow | ⟨hjoin, hne⟩) hlowest
    · refine hjoins.lowest ?_
      rintro b (rfl | hb) hbfree
      · rw [hlfree]
        exact (hbelow.trans (by omega)).le
      · rw [hlfree]
        exact hlowest b hb (hfree b hb hbfree)
    · -- the rest is joined with the block behind it, which `lfree` has pointed to
      obtain ⟨hn, hnfree⟩ := h.lfree.resolve_left hne
      have hnext : split.next fin = heap.lfree := hcut.next_second.trans hjoin
      have hnsplit : split.used heap.lfree = false := (hcut.used_others _ (hnew _ hn)).trans hnfree
      have hforward : plugForward split fin = combine split fin heap.lfree := by
        have hcases : plugForward split fin = if fin ≠ split.next fin ∧ split.used (split.next fin) = false ∧
            split.next fin ≠ split.heapEnd then combine split fin (split.next fin) else split := rfl
        rw [hcases, hnext, if_pos ⟨by omega, hnsplit, by rw [hend]; exact hne⟩]
      obtain ⟨blocks₁, h₁, hfin₁, hfree₁, -⟩ := hcut.headers.forward_joins (.inl rfl) hcut.used_second
      have hjoined := hcut.headers.joined (.inl rfl) (by rw [hnext]; exact .inr hn)
      rw [hnext, ← hforward] at hjoined
      obtain rfl := h₁.unique hjoined
      have hlowest₁ : Lowest (plugForward split fin) (insert fin blocks \ {heap.lfree}) := by
        intro b hb hbfree
        rw [hforward, combine_lfree, hlfree, if_pos rfl]
        rw [hforward, combine_used] at hbfree
        rcases hb with ⟨rfl | hb, -⟩
        · exact Nat.le_refl b
        · have hle := hlowest b hb (hfree b hb hbfree)
          omega
      obtain ⟨blocks₂, h₂, hjoins₂⟩ := h₁.backward_joins hfin₁ hfree₁
      rw [plugHoles, if_pos ⟨hcut.headers.tiles.below fin (.inl rfl), hcut.used_second⟩] at hplug
      obtain rfl := Option.some.inj hplug
      obtain rfl := h₂.unique hinv.toHeapBlocks
      exact hjoins₂.lowest hlowest₁

theorem InOrder.setByte (h : InOrder cfg heap blocks) (byte : Nat → UInt8) : InOrder cfg { heap with byte } blocks :=
  ⟨h.toHeapInv.setByte byte, h.payload, h.oneBlock⟩

/-- What `rt_realloc` of the block `ptr` has done when it has returned. -/
inductive ReallocEffect (cfg : MemConfig) (heap : Heap) (blocks : Set Nat) (ptr newsize : Nat) :
    Option Nat → Heap → Set Nat → Prop
  | refused (hlarge : heap.memSizeAligned < cfg.rtAlign newsize) : ReallocEffect cfg heap blocks ptr newsize none heap blocks
  | freed {heap' : Heap} {blocks' : Set Nat} (hzero : cfg.rtAlign newsize = 0) (h : Frees cfg heap heap' blocks blocks' ptr) :
      ReallocEffect cfg heap blocks ptr newsize none heap' blocks'
  /-- "the size is the same as" -/
  | same (hzero : cfg.rtAlign newsize ≠ 0) (hsame : heap.next ptr = ptr + cfg.sizeofStructMem + cfg.rtAlign newsize) :
      ReallocEffect cfg heap blocks ptr newsize (some (heap.heapPtr + ptr + cfg.sizeofStructMem)) heap blocks
  /-- "split memory block" -/
  | trimmed {heap' : Heap} {blocks' : Set Nat} (hzero : cfg.rtAlign newsize ≠ 0)
      (hroomy : ptr + cfg.sizeofStructMem + cfg.rtAlign newsize + cfg.sizeofStructMem + cfg.minSize < heap.next ptr)
      (h : Trims cfg heap heap' blocks blocks' ptr (ptr + cfg.sizeofStructMem + cfg.rtAlign newsize)) :
      ReallocEffect cfg heap blocks ptr newsize (some (heap.heapPtr + ptr + cfg.sizeofStructMem)) heap' blocks'
  /-- No block is found for "expand memory". -/
  | failed (hzero : cfg.rtAlign newsize ≠ 0) (hle : cfg.rtAlign newsize ≤ heap.memSizeAligned)
      (hother : heap.next ptr ≠ ptr + cfg.sizeofStructMem + cfg.rtAlign newsize)
      (htight : heap.next ptr ≤ ptr + cfg.sizeofStructMem + cfg.rtAlign newsize + cfg.sizeofStructMem + cfg.minSize)
      (hnot : ¬ MallocFinds cfg heap (cfg.rtAlign newsize)) : ReallocEffect cfg heap blocks ptr newsize none heap blocks
  /-- "expand memory" -/
  | moved {heap₁ heap' : Heap} {blocks₁ blocks' : Set Nat} {ptr' : Nat} (hzero : cfg.rtAlign newsize ≠ 0)
      (hle : cfg.rtAlign newsize ≤ heap.memSizeAligned)
      (hother : heap.next ptr ≠ ptr + cfg.sizeofStructMem + cfg.rtAlign newsize)
      (htight : heap.next ptr ≤ ptr + cfg.sizeofStructMem + cfg.rtAlign newsize + cfg.sizeofStructMem + cfg.minSize)
      (hmalloc : rtMalloc cfg heap (cfg.rtAlign newsize) = some (some (heap.heapPtr + ptr' + cfg.sizeofStructMem), heap₁))
      (hgives : Gives cfg heap heap₁ blocks blocks₁ ptr' (cfg.blockSize newsize))
      (hfrees : Frees cfg (rtMemcpy heap₁ (heap.heapPtr + ptr' + cfg.sizeofStructMem)
        (heap.heapPtr + ptr + cfg.sizeofStructMem)
        (min (heap.next ptr - (ptr + cfg.sizeofStructMem)) (cfg.rtAlign newsize))) heap' blocks₁ blocks' ptr) :
      ReallocEffect cfg heap blocks ptr newsize (some (heap.heapPtr + ptr' + cfg.sizeofStructMem)) heap' blocks'

theorem InOrder.realloc (h : InOrder cfg heap blocks) (hptr : ptr ∈ blocks) (hused : heap.used ptr = true) (newsize : Nat) :
    ∃ r heap' blocks', rtRealloc cfg heap (some (heap.heapPtr + ptr + cfg.sizeofStructMem)) newsize = some (r, heap') ∧
      ReallocEffect cfg heap blocks ptr newsize r heap' blocks' := by
  have hroom := h.room
  have hend := h.end_eq
  have halign := cfg.alignSize_le_sizeof
  have hdvd := cfg.rtAlign_dvd newsize
  have hone := h.room_of_used hptr hused
  obtain ⟨hpos, hp⟩ := h.payloadOf hptr hused
  rcases hp.rtRealloc_cases h.toHeapBlocks hpos newsize with ⟨hlarge, heq⟩ | ⟨hle, ⟨hzero, heq⟩ | ⟨hzero, ⟨hsame, heq⟩ |
    ⟨hsplit, heq⟩ | ⟨hother, htight, heq⟩⟩⟩
  · exact ⟨_, _, _, heq, .refused hlarge⟩
  · obtain ⟨heap', blocks', hfree, hfrees⟩ := h.free hptr hused
    exact ⟨_, _, _, by rw [heq, hfree]; rfl, .freed hzero hfrees⟩
  · exact ⟨_, _, _, heq, .same hzero hsame⟩
  · have hcut : cfg.alignSize ∣ ptr + cfg.sizeofStructMem + cfg.rtAlign newsize :=
      (Nat.dvd_add_right ((Nat.dvd_add_right (h.aligned ptr hptr)).2 (cfg.rtAlign_dvd _))).2 hdvd
    obtain ⟨heap', blocks', hplug, htrims⟩ := h.trim hptr hused (by omega) (by omega) hcut
    exact ⟨_, _, _, by rw [heq, hplug]; rfl, .trimmed hzero hsplit htrims⟩
  · have hagain : cfg.rtAlign (cfg.rtAlign newsize) = cfg.rtAlign newsize := MemConfig.rtAlign_of_dvd hdvd (by omega)
    obtain ⟨r, heap₁, hmalloc, hfinds, hnone, hsome⟩ := h.malloc hone (cfg.rtAlign newsize)
    cases r with
    | none =>
      obtain rfl := hnone rfl
      have hmove : rtReallocMove cfg heap₁ (heap₁.heapPtr + ptr + cfg.sizeofStructMem)
          (heap₁.next ptr - (ptr + cfg.sizeofStructMem)) (cfg.rtAlign newsize) = some (none, heap₁) := by
        rw [rtReallocMove, hmalloc]
      exact ⟨_, _, _, heq.trans hmove, .failed hzero hle hother htight fun hfound => hfinds.2 hfound rfl⟩
    | some q =>
      obtain ⟨ptr', blocks₁, rfl, hgives⟩ := hsome q rfl
      rw [MemConfig.blockSize, hagain] at hgives
      have hstill := (hgives.used ptr).2 (.inr ⟨hptr, hused⟩)
      have hcount : (if heap.next ptr - (ptr + cfg.sizeofStructMem) < cfg.rtAlign newsize then
          heap.next ptr - (ptr + cfg.sizeofStructMem) else cfg.rtAlign newsize) =
          min (heap.next ptr - (ptr + cfg.sizeofStructMem)) (cfg.rtAlign newsize) := by
        rw [min_def_lt]
      obtain ⟨heap₂, hcopy⟩ : ∃ heap₂, rtMemcpy heap₁ (heap.heapPtr + ptr' + cfg.sizeofStructMem)
          (heap.heapPtr + ptr + cfg.sizeofStructMem)
          (min (heap.next ptr - (ptr + cfg.sizeofStructMem)) (cfg.rtAlign newsize)) = heap₂ := ⟨_, rfl⟩
      have hinv₂ : InOrder cfg heap₂ blocks₁ := hcopy ▸ hgives.order.setByte _
      have hstill₂ : heap₂.used ptr = true := hcopy ▸ hstill.2
      have hptr₂ : heap₂.heapPtr = heap.heapPtr := hcopy ▸ hgives.region.heapPtr
      obtain ⟨heap', blocks', hfree, hfrees⟩ := hinv₂.free hstill.1 hstill₂
      rw [hptr₂] at hfree
      have hmove : rtReallocMove cfg heap (heap.heapPtr + ptr + cfg.sizeofStructMem)
          (heap.next ptr - (ptr + cfg.sizeofStructMem)) (cfg.rtAlign newsize) =
            some (some (heap.heapPtr + ptr' + cfg.sizeofStructMem), heap') := by
        rw [rtReallocMove, hmalloc]
        dsimp only
        rw [hcount, hcopy, hfree]
        rfl
      rw [← hcopy] at hfrees
      exact ⟨_, _, _, heq.trans hmove, .moved hzero hle hother htight hmalloc hgives hfrees⟩

/-! ## Every call -/

def Heap.pointer (cfg : MemConfig) (heap : Heap) (b : Nat) : Nat := heap.heapPtr + b + cfg.sizeofStructMem

/-- The application passes pointers to blocks in use, or `RT_NULL`, and writes into such blocks. A block that `rt_calloc` gets for a product that rounds to 0 is smaller than the product: `rt_memset` would go round the whole address space, and no call comes after that one. -/
def PassesBlocks (cfg : MemConfig) (s : HeapState) : HeapOp → Prop
  | .malloc _ => True
  | .calloc count size => MallocFinds cfg s.heap (cfg.mul count size) → cfg.mul count size + cfg.alignSize - 1 < cfg.word
  | .realloc rmem _ => ∀ p ∈ rmem, ∃ b ∈ s.heap.inUse, p = s.heap.pointer cfg b
  | .free rmem => ∀ p ∈ rmem, ∃ b ∈ s.heap.inUse, p = s.heap.pointer cfg b
  | .write addr _ => ∃ b ∈ s.heap.inUse, s.heap.pointer cfg b ≤ addr ∧ addr < s.heap.heapPtr + s.heap.next b

instance (cfg : MemConfig) (s : HeapState) (op : HeapOp) : Decidable (PassesBlocks cfg s op) := by
  induction op using HeapOp.casesOn <;> dsimp only [PassesBlocks] <;> infer_instance

/-- No `rt_realloc` has moved a block. -/
def Unmoved (events : List HeapEvent) : Prop :=
  ∀ e ∈ events, ∀ p newsize, e.op = .realloc (some p) newsize → e.result = none ∨ e.result = some p

inductive CallEffect (cfg : MemConfig) (heap : Heap) (blocks : Set Nat) : List HeapEvent → Heap → Set Nat → Prop
  | quiet {events : List HeapEvent} (byte : Nat → UInt8) (hplain : Unmoved events) :
      CallEffect cfg heap blocks events { heap with byte } blocks
  | gives {events : List HeapEvent} {heap₁ : Heap} {blocks' : Set Nat} {ptr size : Nat} (byte : Nat → UInt8)
      (hplain : Unmoved events) (h : Gives cfg heap heap₁ blocks blocks' ptr size) :
      CallEffect cfg heap blocks events { heap₁ with byte } blocks'
  | frees {events : List HeapEvent} {heap' : Heap} {blocks' : Set Nat} {ptr : Nat} (hplain : Unmoved events)
      (h : Frees cfg heap heap' blocks blocks' ptr) : CallEffect cfg heap blocks events heap' blocks'
  | trims {heap' : Heap} {blocks' : Set Nat} {ptr newsize : Nat} (hzero : cfg.rtAlign newsize ≠ 0)
      (hroomy : ptr + cfg.sizeofStructMem + cfg.rtAlign newsize + cfg.sizeofStructMem + cfg.minSize < heap.next ptr)
      (h : Trims cfg heap heap' blocks blocks' ptr (ptr + cfg.sizeofStructMem + cfg.rtAlign newsize)) :
      CallEffect cfg heap blocks [⟨.realloc (some (heap.pointer cfg ptr)) newsize, some (heap.pointer cfg ptr)⟩] heap' blocks'
  | moves {heap₁ heap' : Heap} {blocks₁ blocks' : Set Nat} {ptr ptr' size newsize : Nat} (byte : Nat → UInt8)
      (hmalloc : rtMalloc cfg heap (cfg.rtAlign newsize) = some (some (heap.pointer cfg ptr'), heap₁))
      (hgives : Gives cfg heap heap₁ blocks blocks₁ ptr' size)
      (hfrees : Frees cfg { heap₁ with byte } heap' blocks₁ blocks' ptr) (hne : ptr' ≠ ptr) :
      CallEffect cfg heap blocks [⟨.realloc (some (heap.pointer cfg ptr)) newsize, some (heap.pointer cfg ptr')⟩] heap' blocks'

variable {s s' : HeapState} {op : HeapOp} {events : List HeapEvent} {trace : List HeapEvent}

theorem unmoved_of_op (hop : ∀ p newsize, op ≠ .realloc (some p) newsize) (r : Option Nat) : Unmoved [⟨op, r⟩] := by
  intro e he p newsize heq
  rw [List.mem_singleton.1 he] at heq
  exact absurd heq (hop p newsize)

theorem InOrder.callEffect_malloc (h : InOrder cfg heap blocks) {r : Option Nat}
    (hmalloc : rtMalloc cfg heap size = some (r, heap')) (hplain : Unmoved events) (byte : Nat → UInt8) :
    ∃ blocks', CallEffect cfg heap blocks events { heap' with byte } blocks' := by
  rcases h.malloc_cases hmalloc with ⟨-, rfl⟩ | ⟨ptr, blocks', -, hgives⟩
  · exact ⟨blocks, .quiet byte hplain⟩
  · exact ⟨blocks', .gives byte hplain hgives⟩

theorem InOrder.callEffect (h : InOrder cfg s.heap blocks) (hok : PassesBlocks cfg s op)
    (hs : stepHeap cfg s op = some (s', events)) : ∃ blocks', CallEffect cfg s.heap blocks events s'.heap blocks' := by
  cases op with
  | malloc size =>
    obtain ⟨⟨r, heap'⟩, hmalloc, heq⟩ := Option.map_eq_some_iff.1 hs
    cases heq
    exact h.callEffect_malloc hmalloc (unmoved_of_op (by simp) r) heap'.byte
  | calloc count size =>
    obtain ⟨⟨r, heap'⟩, hcalloc, heq⟩ := Option.map_eq_some_iff.1 hs
    cases heq
    obtain ⟨⟨r', heap₁⟩, hmalloc, heq⟩ := Option.map_eq_some_iff.1 hcalloc
    cases r' with
    | none =>
      cases heq
      exact h.callEffect_malloc hmalloc (unmoved_of_op (by simp) none) heap'.byte
    | some p =>
      cases heq
      exact h.callEffect_malloc hmalloc (unmoved_of_op (by simp) (some p)) (rtMemset heap₁ p 0 (cfg.mul count size)).byte
  | free rmem =>
    obtain ⟨heap', hfree, heq⟩ := Option.map_eq_some_iff.1 hs
    cases heq
    cases rmem with
    | none =>
      cases hfree
      exact ⟨blocks, .quiet s.heap.byte (unmoved_of_op (by simp) none)⟩
    | some p =>
      obtain ⟨b, hb, rfl⟩ := hok p rfl
      obtain ⟨hb, hused⟩ := h.mem_inUse.1 hb
      obtain ⟨heap'', blocks', hfree', hfrees⟩ := h.free hb hused
      obtain rfl := Option.some.inj (hfree'.symm.trans hfree)
      exact ⟨blocks', .frees (unmoved_of_op (by simp) none) hfrees⟩
  | write addr byte =>
    cases hs
    exact ⟨blocks, .quiet _ nofun⟩
  | realloc rmem newsize =>
    obtain ⟨⟨r, heap'⟩, hrealloc, heq⟩ := Option.map_eq_some_iff.1 hs
    cases heq
    cases rmem with
    | none =>
      have hplain : Unmoved [⟨.realloc none newsize, r⟩] := unmoved_of_op (by simp) r
      unfold rtRealloc at hrealloc
      dsimp only at hrealloc
      split_ifs at hrealloc
      · cases hrealloc
        exact ⟨blocks, .quiet s.heap.byte hplain⟩
      · cases hrealloc
        exact ⟨blocks, .quiet s.heap.byte hplain⟩
      · exact h.callEffect_malloc hrealloc hplain heap'.byte
    | some p =>
      obtain ⟨b, hb, rfl⟩ := hok p rfl
      obtain ⟨hb, hused⟩ := h.mem_inUse.1 hb
      obtain ⟨r', heap'', blocks', heq, heffect⟩ := h.realloc hb hused newsize
      obtain ⟨rfl, rfl⟩ := Prod.mk.inj (Option.some.inj (heq.symm.trans hrealloc))
      have hnone : Unmoved [⟨.realloc (some (s.heap.pointer cfg b)) newsize, none⟩] := fun e he p n _ => by
        rw [List.mem_singleton.1 he]
        exact .inl rfl
      cases heffect with
      | refused => exact ⟨blocks, .quiet s.heap.byte hnone⟩
      | freed _ hfrees => exact ⟨blocks', .frees hnone hfrees⟩
      | same =>
        refine ⟨blocks, .quiet s.heap.byte fun e he p n hop => ?_⟩
        rw [List.mem_singleton.1 he] at hop ⊢
        cases hop
        exact .inr rfl
      | trimmed hzero hroomy htrims => exact ⟨blocks', .trims hzero hroomy htrims⟩
      | failed => exact ⟨blocks, .quiet s.heap.byte hnone⟩
      | moved _ _ _ _ hmalloc hgives hfrees =>
        refine ⟨blocks', .moves _ hmalloc hgives hfrees ?_⟩
        rintro rfl
        exact absurd (hgives.free.symm.trans hused) (by decide)

theorem CallEffect.inOrder (heffect : CallEffect cfg heap blocks events heap' blocks') (h : InOrder cfg heap blocks) :
    InOrder cfg heap' blocks' := by
  cases heffect with
  | quiet byte _ => exact h.setByte byte
  | gives byte _ hgives => exact hgives.order.setByte byte
  | frees _ hfrees => exact hfrees.order
  | trims _ _ htrims => exact htrims.order
  | moves _ _ _ hfrees _ => exact hfrees.order

theorem rtSystemHeapInit_start {mem : Nat → HeapMem} {byte : Nat → UInt8} {beginAddr endAddr : Nat}
    (hinit : rtSystemHeapInit cfg mem byte beginAddr endAddr = some heap) :
    (heap.used 0 = false ∧ heap.next heap.heapEnd = heap.heapEnd) ∧ heap.lfree = 0 ∧ heap.usedMem = 0 ∧ heap.maxMem = 0 := by
  have hwidth := cfg.sizeofStructMem_pos
  unfold rtSystemHeapInit at hinit
  dsimp only at hinit
  split_ifs at hinit with haccept
  obtain rfl := Option.some.inj hinit
  have hne : (0 : Nat) ≠ cfg.rtAlignDown endAddr - cfg.rtAlign beginAddr - 2 * cfg.sizeofStructMem + cfg.sizeofStructMem := by
    omega
  refine ⟨⟨?_, ?_⟩, rfl, rfl, rfl⟩
  · simp [Heap.used, hne]
  · simp [Heap.next]

theorem rtSystemHeapInit_inOrder {mem : Nat → HeapMem} {byte : Nat → UInt8} {beginAddr endAddr : Nat}
    (hend : endAddr < cfg.word) (hinit : rtSystemHeapInit cfg mem byte beginAddr endAddr = some heap) :
    InOrder cfg heap {0} := by
  have hinv := rtSystemHeapInit_inv hend hinit
  obtain ⟨⟨hfree, hloop⟩, -⟩ := rtSystemHeapInit_start hinit
  have hnone : ∀ b ∈ ({0} : Set Nat), heap.used b = false := by
    rintro b rfl
    exact hfree
  exact ⟨hinv, fun b hb hused => absurd ((hnone b hb).symm.trans hused) (by decide), .inr ⟨hnone, hloop⟩⟩

/-- The runs from an initialized heap in which pointers to blocks in use are passed, and each step meets `ok`. -/
abbrev BlockRun (cfg : MemConfig) (heap : Heap) (ok : HeapState → HeapOp → Prop) : List HeapEvent → HeapState → Prop :=
  Transition.Run (stepHeap cfg) (fun s op => PassesBlocks cfg s op ∧ ok s op) ⟨heap, []⟩

theorem CallEffect.region (heffect : CallEffect cfg heap blocks events heap' blocks') : SameRegion heap heap' := by
  cases heffect with
  | quiet byte _ => exact ⟨rfl, rfl, rfl⟩
  | gives byte _ hgives => exact hgives.region.trans ⟨rfl, rfl, rfl⟩
  | frees _ hfrees => exact hfrees.region
  | trims _ _ htrims => exact htrims.region
  | moves byte _ hgives hfrees _ =>
    have hfreed := hfrees.region
    exact hgives.region.trans ⟨hfreed.heapPtr, hfreed.heapEnd, hfreed.memSizeAligned⟩

theorem inOrder_of_run {mem : Nat → HeapMem} {byte : Nat → UInt8} {beginAddr endAddr : Nat} (hend : endAddr < cfg.word)
    (hinit : rtSystemHeapInit cfg mem byte beginAddr endAddr = some heap) {ok : HeapState → HeapOp → Prop}
    (hrun : BlockRun cfg heap ok trace s) : SameRegion heap s.heap ∧ ∃ blocks, InOrder cfg s.heap blocks := by
  refine hrun.state_invariant (I := fun s => SameRegion heap s.heap ∧ ∃ blocks, InOrder cfg s.heap blocks) ?_ ?_
  · exact ⟨.refl heap, {0}, rtSystemHeapInit_inOrder hend hinit⟩
  · rintro s op s' events ⟨hregion, blocks, h⟩ hok hs
    obtain ⟨blocks', heffect⟩ := h.callEffect hok.1 hs
    exact ⟨hregion.trans heffect.region, blocks', heffect.inOrder h⟩

theorem exists_blockRun (cfg : MemConfig) (heap : Heap) (ok : HeapState → HeapOp → Prop) [∀ s op, Decidable (ok s op)]
    (ops : List HeapOp) (found : List HeapEvent → HeapState → Bool)
    (h : ((Transition.exec (stepHeap cfg) (fun s op => PassesBlocks cfg s op ∧ ok s op) ⟨heap, []⟩ ops).any
      fun r => found r.1 r.2) = true) :
    ∃ trace s, BlockRun cfg heap ok trace s ∧ found trace s = true :=
  Transition.exists_run_of_exec ops found h

def smallConfig : MemConfig := ⟨false, false, 2, wordShift_lt⟩

def smallHeap : Heap :=
  (rtSystemHeapInit smallConfig (fun _ => ⟨0, false, 0, 0⟩) (fun _ => 0) 0x20000002 0x20000100).get (by decide +kernel)

theorem smallHeap_init :
    rtSystemHeapInit smallConfig (fun _ => ⟨0, false, 0, 0⟩) (fun _ => 0) 0x20000002 0x20000100 = some smallHeap :=
  (Option.some_get _).symm

end RtThread
