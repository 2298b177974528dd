import RtThread.Mem.MemheapRealloc

/-!
# Runs of a memory heap

From `rt_memheap_init` on, for as long as no size given to `rt_memheap_realloc` makes the sum wrap that decides whether the next block is taken: the blocks cut the pool, the free list has the free ones, and a request is refused for want of a block, except for one that asks for all that is free.
-/

namespace RtThread

open Function Seg

variable {cfg : MemheapConfig} {pool : MemheapPool cfg} {item : Nat → MemheapItem} {byte : Nat → UInt8}
  {trace : List MemheapEvent} {s s' : MemheapState} {op : MemheapOp} {events : List MemheapEvent} {size b : Nat}
  {segs l₁ l₂ : List (Seg MemheapTag)} {free : List Nat}

/-! ## The first block -/

theorem freeList_first {heap : Memheap} {m c : Nat} {header first tail : MemheapItem} (hnext : header.nextFree = heap.freeList)
    (hprev : header.prevFree = heap.freeList) (hm : m ≠ heap.freeList) (hc : c ∉ [heap.freeList, m]) :
    FreeList ((((heap.setItem heap.freeList fun _ => header).setItem m fun _ => first).insertFree m).setItem c fun _ => tail)
      [m] := by
  have hempty : FreeList (heap.setItem heap.freeList fun _ => header) [] := by
    unfold FreeList
    rw [Memheap.setItem_freeList, Memheap.setItem_nextFree, Memheap.setItem_prevFree, hnext, hprev]
    exact CircularList.nil (update_self ..) (update_self ..)
  have hset : FreeList ((heap.setItem heap.freeList fun _ => header).setItem m fun _ => first) [] := by
    apply CircularList.congr hempty
    · intro b hb
      rw [List.mem_singleton.1 hb, Memheap.setItem_nextFree, Memheap.setItem_freeList, update_of_ne hm.symm]
    · intro b hb
      rw [List.mem_singleton.1 hb, Memheap.setItem_prevFree, Memheap.setItem_freeList, update_of_ne hm.symm]
  have hentered := FreeList.insertFree hset (b := m) (by rw [Memheap.setItem_freeList, Memheap.setItem_freeList]; simpa using hm)
  generalize hheap : ((heap.setItem heap.freeList fun _ => header).setItem m fun _ => first).insertFree m = heap₁ at *
  have hheader : heap₁.freeList = heap.freeList := by
    rw [← hheap, Memheap.insertFree_freeList, Memheap.setItem_freeList, Memheap.setItem_freeList]
  have hother (b : Nat) (hb : b ∈ heap₁.freeList :: [m]) : b ≠ c := fun heq => hc (by rwa [hheader, heq] at hb)
  apply CircularList.congr hentered
  · intro b hb
    rw [Memheap.setItem_nextFree, update_of_ne (hother b hb)]
  · intro b hb
    rw [Memheap.setItem_prevFree, update_of_ne (hother b hb)]

theorem memheapTiled_first {heap : Memheap} {n : Nat} (hend : pool.tailer = pool.startAddr + (cfg.headSize + n)) :
    MemheapTiled pool (((heap.setItem pool.startAddr fun _ =>
        ⟨memheapMagic, false, pool.self, pool.tailer, pool.tailer, pool.startAddr, pool.startAddr⟩).insertFree
          pool.startAddr).setItem pool.tailer fun _ => ⟨memheapMagic, true, pool.self, pool.startAddr, pool.startAddr, 0, 0⟩)
      [⟨n, pool.tag false⟩] := by
  have hpos := cfg.headSize_pos
  have hne : pool.startAddr ≠ pool.tailer := by omega
  have hsame : SameBlockLinks (heap.setItem pool.startAddr fun _ =>
      ⟨memheapMagic, false, pool.self, pool.tailer, pool.tailer, pool.startAddr, pool.startAddr⟩)
    ((heap.setItem pool.startAddr fun _ =>
      ⟨memheapMagic, false, pool.self, pool.tailer, pool.tailer, pool.startAddr, pool.startAddr⟩).insertFree
        pool.startAddr) := sameBlockLinks_insertFree
  refine ⟨Segments.one_iff.2 ⟨?_, ?_, ?_, hend⟩, fun t ht => ?_, ?_, ?_, ?_⟩
  · rw [Memheap.setItem_tag, update_of_ne hne, hsame.tag, Memheap.setItem_tag, update_self]
    rfl
  · rw [Memheap.setItem_next, update_of_ne hne, hsame.next, Memheap.setItem_next, update_self]
  · rw [Memheap.setItem_prev, update_self]
  · rw [List.mem_singleton.1 ht]
    rfl
  · rw [Memheap.setItem_tag, update_self]
    rfl
  · rw [Memheap.setItem_next, update_self]
  · rw [Memheap.setItem_prev, update_of_ne hne, hsame.prev, Memheap.setItem_prev, update_self]

theorem memheapInv_init (pool : MemheapPool cfg) (item : Nat → MemheapItem) (byte : Nat → UInt8) :
    MemheapInv pool (MemheapState.init cfg pool item byte).heap [⟨pool.poolSize - 2 * cfg.headSize, pool.tag false⟩]
      [pool.startAddr] := by
  have hpos := cfg.headSize_pos
  have hadd := pool.tailer_add
  have hlt := pool.tailer_lt
  have hheads : 2 * cfg.headSize ≤ pool.poolSize := pool.heads
  have hfits : pool.startAddr + pool.poolSize ≤ 2 ^ 32 := pool.fits
  have hout : pool.freeHeader < pool.startAddr ∨ pool.startAddr + pool.poolSize ≤ pool.freeHeader := pool.outside
  have hsize : pool.poolSize < 2 ^ 32 := (cfg.toMem.rtAlignDown_le pool.size).trans_lt pool.size_lt
  have hfree : sub32 pool.poolSize (2 * cfg.headSize) = pool.poolSize - 2 * cfg.headSize := sub32_eq hheads hsize
  have htailer : add32 (add32 pool.startAddr (pool.poolSize - 2 * cfg.headSize)) cfg.headSize = pool.tailer := by
    rw [add32_eq (by omega : pool.startAddr + (pool.poolSize - 2 * cfg.headSize) < 2 ^ 32), add32_eq (by omega)]
    omega
  show MemheapInv pool (rtMemheapInit cfg pool.self pool.freeHeader pool.startAddr pool.size item byte) _ _
  unfold rtMemheapInit
  dsimp only
  rw [show cfg.toMem.rtAlignDown pool.size = pool.poolSize from rfl, hfree, htailer]
  generalize hheap : Memheap.mk pool.self pool.startAddr pool.poolSize (pool.poolSize - 2 * cfg.headSize)
    (sub32 pool.poolSize (pool.poolSize - 2 * cfg.headSize)) pool.startAddr pool.freeHeader item byte = heap
  have hfixed : MemheapFixed pool heap := by
    subst hheap
    exact ⟨rfl, rfl, rfl⟩
  have havailable : heap.availableSize = pool.poolSize - 2 * cfg.headSize := by rw [← hheap]
  clear hheap
  refine ⟨hfixed.setItem.setItem.insertFree.setItem, memheapTiled_first (by omega), List.isChain_singleton _, ?_, ?_, ?_⟩
  · rw [← hfixed.freeList]
    apply freeList_first rfl rfl
    · rw [hfixed.freeList]
      omega
    · rw [hfixed.freeList, List.mem_pair]
      omega
  · rw [freeAddrs_cons]
    exact List.Perm.refl _
  · rw [Memheap.setItem_availableSize, Memheap.insertFree_availableSize, Memheap.setItem_availableSize,
      Memheap.setItem_availableSize, havailable]
    simp [MemheapPool.tag]

/-! ## Runs -/

def PassesLive (s : MemheapState) : MemheapOp → Prop
  | .alloc _ => True
  | .realloc ptr _ => ∀ p ∈ ptr, p ∈ s.live
  | .free ptr => ∀ p ∈ ptr, p ∈ s.live

/-- No change of size is asked for that `rt_memheap_realloc` takes for a small one. -/
def OpFits (cfg : MemheapConfig) (s : MemheapState) : MemheapOp → Prop
  | .realloc ptr newsize => GrowFits cfg s.heap ptr newsize
  | _ => True

instance : (op : MemheapOp) → Decidable (PassesLive s op)
  | .alloc _ => inferInstanceAs (Decidable True)
  | .realloc ptr _ => inferInstanceAs (Decidable (∀ p ∈ ptr, p ∈ s.live))
  | .free ptr => inferInstanceAs (Decidable (∀ p ∈ ptr, p ∈ s.live))

instance : (op : MemheapOp) → Decidable (OpFits cfg s op)
  | .alloc _ => inferInstanceAs (Decidable True)
  | .realloc ptr newsize => inferInstanceAs (Decidable (∀ p ∈ ptr, newsize ≠ 0 →
      (s.heap.item (s.heap.item (sub32 p cfg.headSize)).next).used = false → cfg.itemSize newsize + 12 < 2 ^ 32))
  | .free _ => inferInstanceAs (Decidable True)

/-- The runs from `rt_memheap_init` on in which each step meets `ok`. -/
abbrev MemheapRun (pool : MemheapPool cfg) (item : Nat → MemheapItem) (byte : Nat → UInt8)
    (ok : MemheapState → MemheapOp → Prop) : List MemheapEvent → MemheapState → Prop :=
  Transition.Run (stepMemheap cfg) (fun s op => PassesLive s op ∧ ok s op) (MemheapState.init cfg pool item byte)

def MemheapKept (pool : MemheapPool cfg) (s : MemheapState) : Prop :=
  ∃ segs free, MemheapInv pool s.heap segs free ∧ s.live.Perm (payloads cfg pool.startAddr segs)

theorem MemheapKept.step (h : MemheapKept pool s) (hlive : PassesLive s op) (hfits : OpFits cfg s op)
    (hs : stepMemheap cfg s op = some (s', events)) : MemheapKept pool s' := by
  obtain ⟨segs, free, h, hheld⟩ := h
  cases op with
  | alloc size =>
    rw [stepMemheap] at hs
    split_ifs at hs
    rcases h.alloc size with ⟨halloc, -⟩ | ⟨heap', ptr, segs', free', halloc, hinv, hpay, -⟩
    · rw [halloc] at hs
      cases hs
      exact ⟨segs, free, h, hheld⟩
    · rw [halloc] at hs
      cases hs
      exact ⟨segs', free', hinv, (hheld.cons ptr).trans hpay.symm⟩
  | realloc ptr newsize =>
    rw [stepMemheap] at hs
    split_ifs at hs
    obtain ⟨heap', result, segs', free', hrealloc, hinv, hpay⟩ := h.realloc hheld hlive hfits
    rw [hrealloc] at hs
    cases hs
    exact ⟨segs', free', hinv, hpay⟩
  | free ptr =>
    rw [stepMemheap] at hs
    obtain ⟨heap', segs', free', hfree, hinv, hpay⟩ := h.free_held hheld hlive
    rw [hfree] at hs
    cases hs
    exact ⟨segs', free', hinv, hpay⟩

theorem memheapKept_of_run (hrun : MemheapRun pool item byte (OpFits cfg) trace s) : MemheapKept pool s := by
  refine hrun.state_invariant (I := MemheapKept pool) ?_ fun s op s' events h hok hs => h.step hok.1 hok.2 hs
  refine ⟨_, _, memheapInv_init pool item byte, ?_⟩
  rw [payloads_cons]
  exact List.Perm.refl _

theorem MemheapTiled.payloads_apart {heap : Memheap} (h : MemheapTiled pool heap segs) :
    (payloads cfg pool.startAddr segs).Pairwise fun p q => p + memitemSize cfg heap (sub32 p cfg.headSize) ≤ q := by
  have hapart : (addrs cfg.headSize (fun t => t.used) pool.startAddr segs).Pairwise
      fun a c => a + (cfg.headSize + memitemSize cfg heap a) ≤ c := by
    apply pairwise_addrs
    rintro l₁ s l₂ rfl
    exact h.memitemSize_eq rfl
  refine List.pairwise_map.2 (hapart.imp_of_mem fun {a c} ha _ hac => ?_)
  have hle := (le_of_mem_addrs ha).2
  have heq := h.tailer_eq
  have hlt := pool.tailer_lt
  have hback : sub32 (a + cfg.headSize) cfg.headSize = a := by
    rw [sub32_eq (by omega) (by omega)]
    omega
  rw [hback]
  omega

/-- In every run the blocks cut the pool in the order of their addresses, no two free ones are neighbours, the free list has the free ones and no other, `available_size` is what they hold, and what the callers have been given are the other blocks, which do not overlap. -/
theorem memheapTiled_of_run (hrun : MemheapRun pool item byte (OpFits cfg) trace s) :
    ∃ segs free, MemheapTiled pool s.heap segs ∧ Coalesced segs ∧ FreeList s.heap free ∧
      free.Perm (freeAddrs cfg pool.startAddr segs) ∧ s.heap.availableSize = freeBytes segs ∧
      s.live.Perm (payloads cfg pool.startAddr segs) ∧
      s.live.Pairwise fun p q => p + memitemSize cfg s.heap (sub32 p cfg.headSize) ≤ q ∨
        q + memitemSize cfg s.heap (sub32 q cfg.headSize) ≤ p := by
  obtain ⟨segs, free, h, hheld⟩ := memheapKept_of_run hrun
  refine ⟨segs, free, h.tiled, h.coalesced, h.list, h.perm, h.available, hheld, ?_⟩
  refine (List.Perm.pairwise_iff (fun hpq => Or.symm hpq) hheld).2 ?_
  exact h.tiled.payloads_apart.imp fun hpq => .inl hpq

theorem exists_memheapRun (pool : MemheapPool cfg) (item : Nat → MemheapItem) (byte : Nat → UInt8)
    (ok : MemheapState → MemheapOp → Prop) [∀ s op, Decidable (ok s op)] (ops : List MemheapOp)
    (found : List MemheapEvent → MemheapState → Bool)
    (h : ((Transition.exec (stepMemheap cfg) (fun s op => PassesLive s op ∧ ok s op) (MemheapState.init cfg pool item byte)
      ops).any fun r => found r.1 r.2) = true) :
    ∃ trace s, MemheapRun pool item byte ok trace s ∧ found trace s = true :=
  Transition.exists_run_of_exec ops found h

/-- `RT_ALIGN_SIZE` 4. -/
def wordConfig : MemheapConfig := ⟨2, wordShift_lt⟩

def kilobytePool : MemheapPool wordConfig where
  self := 0x20001000
  freeHeader := 0x20001020
  startAddr := 0x20000000
  size := 1024
  size_lt := by decide
  fits := by decide
  heads := by decide
  outside := by decide

def blankItem (_ : Nat) : MemheapItem := ⟨0, false, 0, 0, 0, 0, 0⟩

/-- The second of three blocks is released, the first takes what it needs of it, gives it back, and is moved. -/
theorem memheapTiled_of_run_moved : ∃ trace s, MemheapRun kilobytePool blankItem (fun _ => 0) (OpFits wordConfig) trace s ∧
    s.live = [0x200000F4, 0x200000BC] ∧ s.heap.availableSize = 672 ∧
    ∃ segs free, MemheapTiled kilobytePool s.heap segs ∧ Coalesced segs ∧ FreeList s.heap free ∧
      free.Perm (freeAddrs wordConfig kilobytePool.startAddr segs) ∧ s.heap.availableSize = freeBytes segs ∧
      s.live.Perm (payloads wordConfig kilobytePool.startAddr segs) ∧
      s.live.Pairwise fun p q => p + memitemSize wordConfig s.heap (sub32 p 24) ≤ q ∨
        q + memitemSize wordConfig s.heap (sub32 q 24) ≤ p := by
  obtain ⟨trace, s, hrun, hfound⟩ := exists_memheapRun kilobytePool blankItem (fun _ => 0) (OpFits wordConfig)
    [.alloc 16, .alloc 100, .alloc 30, .free (some 0x20000040), .realloc (some 0x20000018) 60, .realloc (some 0x20000018) 16,
      .realloc (some 0x20000018) 200]
    (fun _ s => decide (s.live = [0x200000F4, 0x200000BC] ∧ s.heap.availableSize = 672)) (by decide +kernel)
  obtain ⟨hlive, havailable⟩ := of_decide_eq_true hfound
  exact ⟨trace, s, hrun, hlive, havailable, memheapTiled_of_run hrun⟩

/-- The sum wraps for the largest sizes, and the block is made to end before it begins. -/
theorem memheapTiled_fails : ∃ trace s, MemheapRun kilobytePool blankItem (fun _ => 0) (fun _ _ => True) trace s ∧
    trace = [.alloc 16 (some 0x20000018), .realloc (some 0x20000018) 0xFFFFFFF4 (some 0x20000018)] ∧
      ¬ ∃ segs, MemheapTiled kilobytePool s.heap segs := by
  obtain ⟨trace, s, hrun, hfound⟩ := exists_memheapRun kilobytePool blankItem (fun _ => 0) (fun _ _ => True)
    [.alloc 16, .realloc (some 0x20000018) 0xFFFFFFF4]
    (fun trace s => decide (trace = [.alloc 16 (some 0x20000018), .realloc (some 0x20000018) 0xFFFFFFF4 (some 0x20000018)] ∧
      s.heap.next 0x20000000 = 0x2000000C)) (by decide +kernel)
  obtain ⟨htrace, hnext⟩ := of_decide_eq_true hfound
  refine ⟨trace, s, hrun, htrace, ?_⟩
  rintro ⟨segs, h⟩
  have hsegments := h.segments
  cases segs with
  | nil =>
    have hstart : kilobytePool.startAddr = kilobytePool.tailer := hsegments
    exact absurd hstart (by decide)
  | cons t l =>
    have hend : s.heap.next 0x20000000 = 0x20000000 + (24 + t.size) := hsegments.2.1
    omega

/-! ## Requests that are refused -/

def memheapBlocks (pool : MemheapPool cfg) (heap : Memheap) : List Nat :=
  Tiling.chain heap.next pool.tailer pool.poolSize pool.startAddr

theorem MemheapTiled.mem_memheapBlocks {heap : Memheap} (h : MemheapTiled pool heap segs) : b ∈ memheapBlocks pool heap ↔
    ∃ l₁ s l₂, segs = l₁ ++ s :: l₂ ∧ b = pool.startAddr + width cfg.headSize l₁ := by
  have hpos := cfg.headSize_pos
  have hle : segs.length ≤ width cfg.headSize segs := length_le_width hpos
  have heq := h.tailer_eq
  have hadd := pool.tailer_add
  rw [memheapBlocks, h.segments.chain_eq hpos (by omega), mem_addrs]
  simp only [true_and]

def FreeBlock (pool : MemheapPool cfg) (heap : Memheap) (b : Nat) : Prop :=
  b ∈ memheapBlocks pool heap ∧ (heap.item b).used = false

theorem MemheapTiled.freeBlock_iff {heap : Memheap} (h : MemheapTiled pool heap segs) : FreeBlock pool heap b ↔
    ∃ l₁ s l₂, segs = l₁ ++ s :: l₂ ∧ s.tag.used = false ∧ b = pool.startAddr + width cfg.headSize l₁ := by
  unfold FreeBlock
  rw [h.mem_memheapBlocks]
  constructor
  · rintro ⟨⟨l₁, s, l₂, rfl, rfl⟩, hb⟩
    exact ⟨l₁, s, l₂, rfl, (congrArg MemheapTag.used (h.tag_eq rfl)).symm.trans hb, rfl⟩
  · rintro ⟨l₁, s, l₂, rfl, hs, rfl⟩
    exact ⟨⟨l₁, s, l₂, rfl, rfl⟩, (congrArg MemheapTag.used (h.tag_eq rfl)).trans hs⟩

theorem MemheapInv.memitemSize_le {heap : Memheap} (h : MemheapInv pool heap segs free) (hb : FreeBlock pool heap b) :
    memitemSize cfg heap b ≤ heap.availableSize := by
  obtain ⟨l₁, s, l₂, rfl, hs, rfl⟩ := h.tiled.freeBlock_iff.1 hb
  rw [h.tiled.memitemSize_eq rfl, h.available, freeBytes_append, freeBytes_cons, hs, if_neg Bool.false_ne_true]
  omega

/-- In every run and for every size: `rt_memheap_alloc` returns, and gives `RT_NULL` only where no free block is large enough, unless a free block is all that is free and just as large as the request. -/
theorem rtMemheapAlloc_complete_iff (hrun : MemheapRun pool item byte (OpFits cfg) trace s) (size : Nat) :
    (∃ heap' result, rtMemheapAlloc cfg s.heap size = some (heap', result) ∧
      (result = none → ∀ b, FreeBlock pool s.heap b → memitemSize cfg s.heap b < cfg.itemSize size)) ↔
    ¬ ∃ b, FreeBlock pool s.heap b ∧ memitemSize cfg s.heap b = cfg.itemSize size ∧
      s.heap.availableSize = cfg.itemSize size := by
  obtain ⟨segs, free, h, -⟩ := memheapKept_of_run hrun
  rcases h.alloc size with ⟨halloc, hwhy⟩ | ⟨heap', ptr, -, -, halloc, -, -, hless, -⟩
  · rw [halloc]
    constructor
    · rintro ⟨heap', result, heq, hsmall⟩ ⟨b, hb, hsize, -⟩
      obtain ⟨rfl, rfl⟩ := Prod.mk.inj (Option.some.inj heq)
      exact absurd hsize (hsmall rfl b hb).ne
    · intro hother
      refine ⟨s.heap, none, rfl, fun _ b hb => ?_⟩
      rcases hwhy with hall | hall
      · have hle := h.memitemSize_le hb
        by_contra hlarge
        exact hother ⟨b, hb, by omega, by omega⟩
      · obtain ⟨l₁, t, l₂, rfl, ht, rfl⟩ := h.tiled.freeBlock_iff.1 hb
        rw [h.tiled.memitemSize_eq rfl]
        exact hall l₁ t l₂ rfl ht
  · rw [halloc]
    constructor
    · rintro - ⟨b, -, -, heq⟩
      omega
    · exact fun _ => ⟨heap', some ptr, rfl, nofun⟩

/-- After an allocation, for a size that just leaves something. -/
theorem rtMemheapAlloc_complete_iff_less : ∃ trace s, MemheapRun kilobytePool blankItem (fun _ => 0) (OpFits wordConfig) trace s ∧
    s.heap.availableSize = 936 ∧
    ((∃ heap' result, rtMemheapAlloc wordConfig s.heap 932 = some (heap', result) ∧
      (result = none → ∀ b, FreeBlock kilobytePool s.heap b → memitemSize wordConfig s.heap b < wordConfig.itemSize 932)) ↔
    ¬ ∃ b, FreeBlock kilobytePool s.heap b ∧ memitemSize wordConfig s.heap b = wordConfig.itemSize 932 ∧
      s.heap.availableSize = wordConfig.itemSize 932) := by
  obtain ⟨trace, s, hrun, hfound⟩ := exists_memheapRun kilobytePool blankItem (fun _ => 0) (OpFits wordConfig) [.alloc 16]
    (fun _ s => decide (s.heap.availableSize = 936)) (by decide +kernel)
  exact ⟨trace, s, hrun, of_decide_eq_true hfound, rtMemheapAlloc_complete_iff hrun 932⟩

/-- The heap is fresh, and all of it is asked for. -/
theorem rtMemheapAlloc_complete_fails : ∃ trace s, MemheapRun kilobytePool blankItem (fun _ => 0) (fun _ _ => True) trace s ∧
    (rtMemheapAlloc wordConfig s.heap 976).map Prod.snd = some none ∧ FreeBlock kilobytePool s.heap 0x20000000 ∧
      memitemSize wordConfig s.heap 0x20000000 = 976 ∧ wordConfig.itemSize 976 = 976 := by
  refine ⟨[], _, .start, ?_⟩
  unfold FreeBlock
  decide +kernel

end RtThread
