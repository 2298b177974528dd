import RtThread.Mem.Effects

/-!
# What is asked for and what is given

Sizes are rounded up in words before they are compared with the heap, and `rt_calloc` multiplies in words. A size that rounds up past the last word becomes 0, and then `rt_malloc` gives the smallest block and `rt_realloc` takes the block for one to be released.
-/

namespace RtThread

open Tiling

variable {cfg : MemConfig} {heap heap' : Heap} {blocks : Set Nat} {b c p m count size : Nat} {rmem : Option Nat}
  {s : HeapState} {trace : List HeapEvent} {mem : Nat → HeapMem} {byte : Nat → UInt8} {beginAddr endAddr : Nat}

theorem MemConfig.rtAlign_wraps (hsize : size < cfg.word) (hwraps : cfg.word ≤ size + cfg.alignSize - 1) :
    cfg.rtAlign size = 0 := by
  have hpos := cfg.alignSize_pos
  have hmod : (size + cfg.alignSize - 1) % cfg.word < cfg.alignSize := by
    have hword := cfg.le_word
    have halign := cfg.alignSize_le
    rw [Nat.mod_eq_sub_mod hwraps, Nat.mod_eq_of_lt (by omega)]
    omega
  rw [rtAlign, rtAlignDown, Nat.div_eq_of_lt hmod, Nat.zero_mul]

theorem MemConfig.rtAlign_ne_zero (hsize : size < cfg.word) (hzero : cfg.rtAlign size ≠ 0) :
    size + cfg.alignSize - 1 < cfg.word := by
  by_contra hwraps
  exact hzero (rtAlign_wraps hsize (not_lt.1 hwraps))

/-- The `size` bytes at `p` belong to a block in use, behind its header. -/
def Usable (cfg : MemConfig) (heap : Heap) (p size : Nat) : Prop :=
  ∃ b ∈ heap.inUse, p = heap.pointer cfg b ∧ p + size ≤ heap.heapPtr + heap.next b

theorem Usable.lt_word (hp : Usable cfg heap p size) (h : HeapBlocks cfg heap blocks) :
    size + cfg.alignSize - 1 < cfg.word := by
  obtain ⟨b, hb, rfl, hfits⟩ := hp
  have hle := h.next_le (h.mem_inUse.1 hb).1
  have hroom := h.room
  have halign := cfg.alignSize_le_sizeof
  omega

theorem Usable.mono (hp : Usable cfg heap p size) (hle : m ≤ size) : Usable cfg heap p m := by
  obtain ⟨b, hb, heq, hfits⟩ := hp
  exact ⟨b, hb, heq, by omega⟩

theorem Gives.usable {blocks' : Set Nat} (h : Gives cfg heap heap' blocks blocks' b size) :
    Usable cfg heap' (heap.pointer cfg b) size := by
  have hfits := h.fits
  refine ⟨b, h.order.mem_inUse.2 ((h.used b).2 (.inl rfl)), ?_, ?_⟩
  · rw [Heap.pointer, Heap.pointer, h.region.heapPtr]
  · rw [h.region.heapPtr, Heap.pointer]
    omega

theorem InOrder.malloc_some_iff (h : InOrder cfg heap blocks) :
    (∃ p heap', rtMalloc cfg heap size = some (some p, heap')) ↔ MallocFinds cfg heap size := by
  rcases Nat.lt_or_ge heap.memSizeAligned cfg.minSizeAligned with htiny | hone
  · refine iff_of_false ?_ ?_
    · rintro ⟨p, heap', hmalloc⟩
      rw [h.malloc_tiny htiny] at hmalloc
      split_ifs at hmalloc
      cases hmalloc
    · rintro ⟨-, -, b, -, -, -, -, hlt⟩
      have hmin : cfg.minSizeAligned ≤ cfg.blockSize size := le_max_right ..
      omega
  · obtain ⟨r, heap', hmalloc, hfinds, -, -⟩ := h.malloc hone size
    rw [← hfinds]
    constructor
    · rintro ⟨p, heap'', heq⟩
      obtain ⟨rfl, -⟩ := Prod.mk.inj (Option.some.inj (hmalloc.symm.trans heq))
      exact Option.some_ne_none p
    · intro hsome
      obtain ⟨p, rfl⟩ := Option.ne_none_iff_exists'.1 hsome
      exact ⟨p, heap', hmalloc⟩

theorem InOrder.malloc_usable (h : InOrder cfg heap blocks) (hmalloc : rtMalloc cfg heap size = some (some p, heap'))
    (hfits : size + cfg.alignSize - 1 < cfg.word) : Usable cfg heap' p size := by
  rcases h.malloc_cases hmalloc with ⟨hnone, -⟩ | ⟨ptr, blocks', hsome, hgives⟩
  · cases hnone
  · obtain rfl := Option.some.inj hsome
    exact hgives.usable.mono ((MemConfig.le_rtAlign hfits).trans (le_max_left ..))

theorem InOrder.malloc_blocks (h : InOrder cfg heap blocks) {r : Option Nat}
    (hmalloc : rtMalloc cfg heap size = some (r, heap')) : ∃ blocks', InOrder cfg heap' blocks' := by
  rcases h.malloc_cases hmalloc with ⟨-, rfl⟩ | ⟨ptr, blocks', -, hgives⟩
  · exact ⟨blocks, h⟩
  · exact ⟨blocks', hgives.order⟩

theorem ReallocEffect.usable {blocks' : Set Nat} (heffect : ReallocEffect cfg heap blocks b m (some p) heap' blocks')
    (h : InOrder cfg heap blocks) (hb : b ∈ blocks) (hused : heap.used b = true) (hm : m < cfg.word) :
    Usable cfg heap' p m := by
  cases heffect with
  | same hzero hsame =>
    have hle := MemConfig.le_rtAlign (MemConfig.rtAlign_ne_zero hm hzero)
    exact ⟨b, h.mem_inUse.2 ⟨hb, hused⟩, rfl, by omega⟩
  | trimmed hzero hroomy htrims =>
    have hle := MemConfig.le_rtAlign (MemConfig.rtAlign_ne_zero hm hzero)
    refine ⟨b, htrims.order.mem_inUse.2 ((htrims.used b).2 ⟨hb, hused⟩), ?_, ?_⟩
    · rw [Heap.pointer, htrims.region.heapPtr]
    · rw [htrims.region.heapPtr, htrims.stops]
      omega
  | @moved heap₁ _ blocks₁ _ b' hzero _ _ _ _ hgives hfrees =>
    have hle := MemConfig.le_rtAlign (MemConfig.rtAlign_ne_zero hm hzero)
    have hmin : cfg.rtAlign m ≤ cfg.blockSize m := le_max_left ..
    have hne : b' ≠ b := by
      rintro rfl
      exact absurd (hgives.free.symm.trans hused) (by decide)
    have hnew := (hgives.used b').2 (.inl rfl)
    have hptr : heap'.heapPtr = heap.heapPtr := hfrees.region.heapPtr.trans hgives.region.heapPtr
    have hnext : heap'.next b' = heap₁.next b' := hfrees.next b' hnew.1 hne hnew.2
    have hfits := hgives.fits
    refine ⟨b', hfrees.order.mem_inUse.2 ((hfrees.used b').2 ⟨hne, hnew⟩), ?_, ?_⟩
    · rw [Heap.pointer, hptr]
    · rw [hptr, hnext]
      omega

theorem InOrder.realloc_usable (h : InOrder cfg heap blocks) (hrmem : ∀ p ∈ rmem, ∃ b ∈ heap.inUse, p = heap.pointer cfg b)
    (hm : m < cfg.word) (hrealloc : rtRealloc cfg heap rmem m = some (some p, heap')) : Usable cfg heap' p m := by
  cases rmem with
  | none =>
    unfold rtRealloc at hrealloc
    dsimp only at hrealloc
    split_ifs at hrealloc with hlarge hzero
    · cases hrealloc
    · cases hrealloc
    · have hfits := MemConfig.rtAlign_ne_zero hm hzero
      have hroom := h.room
      have hend := h.end_eq
      have halign := cfg.alignSize_le_sizeof
      exact (h.malloc_usable hrealloc (by omega)).mono (MemConfig.le_rtAlign hfits)
  | some q =>
    obtain ⟨b, hb, rfl⟩ := hrmem q rfl
    obtain ⟨hb, hused⟩ := h.mem_inUse.1 hb
    obtain ⟨r, heap'', blocks', heq, heffect⟩ := h.realloc hb hused m
    obtain ⟨rfl, rfl⟩ := Prod.mk.inj (Option.some.inj (heq.symm.trans hrealloc))
    exact heffect.usable h hb hused hm

/-- A result that is not `RT_NULL` has room for what was asked for; the bytes of `rt_calloc` are zero. -/
structure RequestsMet (cfg : MemConfig) (heap : Heap) (rmem : Option Nat) (count size : Nat) : Prop where
  malloc : ∀ p heap', rtMalloc cfg heap size = some (some p, heap') → Usable cfg heap' p size
  realloc : ∀ p heap', rtRealloc cfg heap rmem size = some (some p, heap') → Usable cfg heap' p size
  calloc : ∀ p heap', rtCalloc cfg heap count size = some (some p, heap') →
    Usable cfg heap' p (count * size) ∧ ∀ a, p ≤ a → a < p + count * size → heap'.byte a = 0

theorem rtCalloc_some_iff : rtCalloc cfg heap count size = some (some p, heap') ↔
    ∃ heap₁, rtMalloc cfg heap (cfg.mul count size) = some (some p, heap₁) ∧ heap' = rtMemset heap₁ p 0 (cfg.mul count size) := by
  unfold rtCalloc
  constructor
  · intro hcalloc
    obtain ⟨⟨r, heap₁⟩, hmalloc, heq⟩ := Option.map_eq_some_iff.1 hcalloc
    cases r with
    | none => cases heq
    | some q =>
      cases heq
      exact ⟨heap₁, hmalloc, rfl⟩
  · rintro ⟨heap₁, hmalloc, rfl⟩
    rw [hmalloc, Option.map_some]

/-- In every heap that calls bring about: the requests are met if and only if no size rounds up past the last word, and no product is larger than a word, where a block is found. -/
theorem requestsMet_iff (hend : endAddr < cfg.word) (hinit : rtSystemHeapInit cfg mem byte beginAddr endAddr = some heap)
    (hrun : BlockRun cfg heap (fun _ _ => True) trace s) (hrmem : ∀ p ∈ rmem, ∃ b ∈ s.heap.inUse, p = s.heap.pointer cfg b)
    (hsize : size < cfg.word) :
    RequestsMet cfg s.heap rmem count size ↔
      (MallocFinds cfg s.heap size → size + cfg.alignSize - 1 < cfg.word) ∧
        (MallocFinds cfg s.heap (cfg.mul count size) → count * size + cfg.alignSize - 1 < cfg.word) := by
  obtain ⟨-, blocks, h⟩ := inOrder_of_run hend hinit hrun
  constructor
  · intro hmet
    constructor
    · intro hfinds
      obtain ⟨p, heap', hmalloc⟩ := h.malloc_some_iff.2 hfinds
      obtain ⟨blocks', h'⟩ := h.malloc_blocks hmalloc
      exact (hmet.malloc p heap' hmalloc).lt_word h'.toHeapBlocks
    · intro hfinds
      obtain ⟨p, heap', hmalloc⟩ := h.malloc_some_iff.2 hfinds
      obtain ⟨blocks', h'⟩ := h.malloc_blocks hmalloc
      obtain ⟨husable, -⟩ := hmet.calloc p _ (rtCalloc_some_iff.2 ⟨heap', hmalloc, rfl⟩)
      exact husable.lt_word (h'.setByte _).toHeapBlocks
  · rintro ⟨hplain, hproduct⟩
    refine ⟨fun p heap' hmalloc => ?_, fun p heap' hrealloc => ?_, fun p heap' hcalloc => ?_⟩
    · exact h.malloc_usable hmalloc (hplain (h.malloc_some_iff.1 ⟨p, heap', hmalloc⟩))
    · exact h.realloc_usable hrmem hsize hrealloc
    · obtain ⟨heap₁, hmalloc, rfl⟩ := rtCalloc_some_iff.1 hcalloc
      have hfits := hproduct (h.malloc_some_iff.1 ⟨p, heap₁, hmalloc⟩)
      have halign := cfg.alignSize_pos
      have hmul : cfg.mul count size = count * size := Nat.mod_eq_of_lt (by omega)
      rw [hmul] at hmalloc ⊢
      have husable : Usable cfg heap₁ p (count * size) := h.malloc_usable hmalloc hfits
      exact ⟨husable, fun a hlow hhigh => if_pos ⟨hlow, hhigh⟩⟩

/-- A block is in use; 13 bytes are asked for, in all three ways. -/
theorem requestsMet_iff_thirteen : ∃ trace s, BlockRun smallConfig smallHeap (fun _ _ => True) trace s ∧
    s.heap.inUse = {0} ∧ MallocFinds smallConfig s.heap 13 ∧ MallocFinds smallConfig s.heap (5 * 13) ∧
      RequestsMet smallConfig s.heap (some 0x20000010) 5 13 := by
  obtain ⟨trace, s, hrun, hfound⟩ := exists_blockRun smallConfig smallHeap (fun _ _ => True) [.malloc 60]
    (fun _ s => decide (s.heap.inUse = {0} ∧ s.heap.pointer smallConfig 0 = 0x20000010 ∧ MallocFinds smallConfig s.heap 13 ∧
      MallocFinds smallConfig s.heap (5 * 13))) (by decide +kernel)
  obtain ⟨hused, hptr, hfinds, hproduct⟩ := of_decide_eq_true hfound
  refine ⟨trace, s, hrun, hused, hfinds, hproduct, ?_⟩
  refine (requestsMet_iff (by decide) smallHeap_init hrun ?_ (by decide)).2 ⟨fun _ => by decide, fun _ => by decide⟩
  intro p hp
  obtain rfl := Option.some.inj hp
  exact ⟨0, by rw [hused]; decide, hptr.symm⟩

/-- Almost all of the address space is asked for and 12 bytes are given; so are 4 bytes more than it has, as a product. -/
theorem requestsMet_fails :
    (∃ heap', rtMalloc smallConfig smallHeap 0xFFFFFFFF = some (some 0x20000010, heap') ∧
      heap'.pointer smallConfig 0 = 0x20000010 ∧ heap'.heapPtr + heap'.next 0 = 0x2000001C) ∧
    ∃ heap', rtCalloc smallConfig smallHeap 0x40000001 4 = some (some 0x20000010, heap') ∧
      heap'.pointer smallConfig 0 = 0x20000010 ∧ heap'.heapPtr + heap'.next 0 = 0x2000001C := by
  constructor
  · obtain ⟨⟨r, heap'⟩, heq, hfound⟩ := (Option.any_eq_true (fun r : Option Nat × Heap => decide (r.1 = some 0x20000010 ∧
      r.2.pointer smallConfig 0 = 0x20000010 ∧ r.2.heapPtr + r.2.next 0 = 0x2000001C))
      (rtMalloc smallConfig smallHeap 0xFFFFFFFF)).1 (by decide +kernel)
    obtain ⟨rfl, hptr, hnext⟩ := of_decide_eq_true hfound
    exact ⟨heap', heq, hptr, hnext⟩
  · obtain ⟨⟨r, heap'⟩, heq, hfound⟩ := (Option.any_eq_true (fun r : Option Nat × Heap => decide (r.1 = some 0x20000010 ∧
      r.2.pointer smallConfig 0 = 0x20000010 ∧ r.2.heapPtr + r.2.next 0 = 0x2000001C))
      (rtCalloc smallConfig smallHeap 0x40000001 4)).1 (by decide +kernel)
    obtain ⟨rfl, hptr, hnext⟩ := of_decide_eq_true hfound
    exact ⟨heap', heq, hptr, hnext⟩

/-! ## The contents of a block that changes size -/

def Heap.payloadSize (cfg : MemConfig) (heap : Heap) (b : Nat) : Nat := heap.next b - (b + cfg.sizeofStructMem)

/-- What `rt_realloc` of the block `b` has to leave, by its result. -/
structure ContentsKept (cfg : MemConfig) (heap heap' : Heap) (b m : Nat) (r : Option Nat) : Prop where
  copied : ∀ q ∈ r, Usable cfg heap' q m ∧
    ∀ i < min (heap.payloadSize cfg b) m, heap'.byte (q + i) = heap.byte (heap.pointer cfg b + i)
  untouched : r = none → b ∈ heap'.inUse ∧ heap'.pointer cfg b = heap.pointer cfg b ∧ heap'.next b = heap.next b ∧
    ∀ i < heap.payloadSize cfg b, heap'.byte (heap.pointer cfg b + i) = heap.byte (heap.pointer cfg b + i)
  granted : m ≤ heap.payloadSize cfg b → r ≠ none

theorem HeapBlocks.payloadSize_dvd (h : HeapBlocks cfg heap blocks) (hb : b ∈ blocks) : cfg.alignSize ∣ heap.payloadSize cfg b := by
  have hnext : cfg.alignSize ∣ heap.next b := by
    by_cases heq : heap.next b = heap.heapEnd
    · rw [heq, h.end_eq]
      exact Nat.dvd_add h.size_aligned (cfg.rtAlign_dvd _)
    · exact h.aligned _ (h.tiles.next_mem hb heq)
  exact Nat.dvd_sub hnext (Nat.dvd_add (h.aligned b hb) (cfg.rtAlign_dvd _))

theorem MemConfig.rtAlign_le (hdvd : cfg.alignSize ∣ size) (hle : m ≤ size) (hsize : size + cfg.alignSize - 1 < cfg.word) :
    cfg.rtAlign m ≤ size := by
  calc cfg.rtAlign m ≤ cfg.rtAlign size := rtAlign_mono hle hsize
    _ = size := rtAlign_of_dvd hdvd hsize

theorem rtMemcpy_byte {dst src i : Nat} : (rtMemcpy heap dst src count).byte (dst + i) =
    if i < count % 4294967296 then heap.byte (src + i) else heap.byte (dst + i) := by
  show (if dst ≤ dst + i ∧ dst + i < dst + count % 4294967296 then heap.byte (src + (dst + i - dst)) else heap.byte (dst + i)) = _
  rw [Nat.add_sub_cancel_left]
  exact if_congr (by omega) rfl rfl

theorem HeapBlocks.payloadSize_le (h : HeapBlocks cfg heap blocks) (hb : b ∈ blocks) :
    heap.payloadSize cfg b ≤ heap.memSizeAligned := by
  have hle := h.next_le hb
  have hend := h.end_eq
  unfold Heap.payloadSize
  omega

theorem HeapBlocks.rtAlign_le_payload (h : HeapBlocks cfg heap blocks) (hb : b ∈ blocks) (hle : m ≤ heap.payloadSize cfg b) :
    cfg.rtAlign m ≤ heap.payloadSize cfg b := by
  have hroom := h.room
  have hend := h.end_eq
  have halign := cfg.alignSize_le_sizeof
  have hpayload := h.payloadSize_le hb
  exact MemConfig.rtAlign_le (h.payloadSize_dvd hb) hle (by omega)

def MovesInto (cfg : MemConfig) (heap : Heap) (b m : Nat) : Prop :=
  cfg.rtAlign m < heap.payloadSize cfg b → heap.payloadSize cfg b ≤ cfg.rtAlign m + cfg.sizeofStructMem + cfg.minSize →
    MallocFinds cfg heap (cfg.rtAlign m)

instance (cfg : MemConfig) (heap : Heap) (b m : Nat) : Decidable (MovesInto cfg heap b m) := by
  unfold MovesInto
  infer_instance

/-- "expand memory" is reached, and finds a block. -/
def MovesBlock (cfg : MemConfig) (heap : Heap) (b m : Nat) : Prop :=
  cfg.rtAlign m ≤ heap.memSizeAligned ∧ heap.payloadSize cfg b ≠ cfg.rtAlign m ∧
    heap.payloadSize cfg b ≤ cfg.rtAlign m + cfg.sizeofStructMem + cfg.minSize ∧ MallocFinds cfg heap (cfg.rtAlign m)

/-- What is copied is no more than an `int` counts. -/
def CopyFits (cfg : MemConfig) (heap : Heap) (b m : Nat) : Prop :=
  MovesBlock cfg heap b m → min (heap.payloadSize cfg b) (cfg.rtAlign m) < 4294967296

instance (cfg : MemConfig) (heap : Heap) (b m : Nat) : Decidable (CopyFits cfg heap b m) := by
  unfold CopyFits MovesBlock
  infer_instance

theorem MemConfig.rtAlign_lt (cfg : MemConfig) (m : Nat) : cfg.rtAlign m < m + cfg.alignSize := by
  have hpos := cfg.alignSize_pos
  have hdown : cfg.rtAlign m ≤ (m + cfg.alignSize - 1) % cfg.word := Nat.div_mul_le_self _ _
  have hmod := Nat.mod_le (m + cfg.alignSize - 1) cfg.word
  omega

/-- A copy that is too long leaves its end as it was, which shows where the memory holds something else. -/
theorem InOrder.truncates (h : InOrder cfg heap blocks) (hb : b ∈ blocks) (hused : heap.used b = true)
    (hmoves : MovesBlock cfg heap b m) (hlong : 4294967296 ≤ min (heap.payloadSize cfg b) (cfg.rtAlign m)) :
    ∃ byte, ∀ r heap', rtRealloc cfg { heap with byte } (some (heap.pointer cfg b)) m = some (r, heap') →
      ¬ ContentsKept cfg { heap with byte } heap' b m r := by
  obtain ⟨count, hcount⟩ : ∃ count, count = min (heap.payloadSize cfg b) (cfg.rtAlign m) := ⟨_, rfl⟩
  have hround := cfg.rtAlign_lt m
  have halign := cfg.alignSize_le
  have hlast : count % 4294967296 < min (heap.payloadSize cfg b) m := by omega
  refine ⟨fun a => if a = heap.pointer cfg b + count % 4294967296 then 1 else 0, fun r heap' hrealloc hkept => ?_⟩
  have hfree := h.setByte fun a => if a = heap.pointer cfg b + count % 4294967296 then 1 else 0
  obtain ⟨r', heap'', blocks', heq, heffect⟩ := hfree.realloc hb hused m
  obtain ⟨rfl, rfl⟩ := Prod.mk.inj (Option.some.inj (heq.symm.trans hrealloc))
  obtain ⟨hle, hother, htight, hfinds⟩ := hmoves
  have hpayload := h.payload b hb hused
  unfold Heap.payloadSize at hother htight hlong hlast hcount
  cases heffect with
  | refused hlarge => exact absurd hle (Nat.not_le_of_lt hlarge)
  | freed hzero => exact hfinds.1 hzero
  | same _ hsame =>
    change heap.next b = _ at hsame
    omega
  | trimmed _ hroomy =>
    change _ < heap.next b at hroomy
    omega
  | failed _ _ _ _ hnot => exact hnot hfinds
  | @moved heap₁ _ blocks₁ _ b' _ _ _ _ _ hgives hfrees =>
    have hne : b' ≠ b := by
      rintro rfl
      exact absurd (hgives.free.symm.trans hused) (by decide)
    have hcopied := (hkept.copied _ rfl).2 (count % 4294967296) hlast
    rw [hfrees.byte] at hcopied
    change (rtMemcpy heap₁ (heap.heapPtr + b' + cfg.sizeofStructMem) (heap.heapPtr + b + cfg.sizeofStructMem)
      (min (heap.next b - (b + cfg.sizeofStructMem)) (cfg.rtAlign m))).byte _ = _ at hcopied
    rw [← hcount, rtMemcpy_byte, if_neg (Nat.lt_irrefl _), hgives.byte] at hcopied
    dsimp only at hcopied
    rw [if_neg (by unfold Heap.pointer; omega)] at hcopied
    exact absurd (hcopied.trans (if_pos rfl)) (by decide)

theorem ReallocEffect.contentsKept {blocks' : Set Nat} {r : Option Nat} (heffect : ReallocEffect cfg heap blocks b m r heap' blocks')
    (h : InOrder cfg heap blocks) (hb : b ∈ blocks) (hused : heap.used b = true) (hpos : 0 < m)
    (hfits : m + cfg.alignSize - 1 < cfg.word) (hmoves : MovesInto cfg heap b m) (hcopy : CopyFits cfg heap b m) :
    ContentsKept cfg heap heap' b m r := by
  have hround := MemConfig.le_rtAlign hfits
  have halign := cfg.alignSize_pos
  refine ⟨fun q hq => ?_, fun hnone => ?_, fun hle hnone => ?_⟩
  · obtain rfl : r = some q := hq
    refine ⟨heffect.usable h hb hused (by omega), fun i hi => ?_⟩
    cases heffect with
    | same => rfl
    | trimmed _ _ htrims => rw [htrims.byte, Heap.pointer]
    | moved _ hle hother htight hmalloc hgives hfrees =>
      have hcommon : i < min (heap.next b - (b + cfg.sizeofStructMem)) (cfg.rtAlign m) := by
        unfold Heap.payloadSize at hi
        omega
      have hlong : min (heap.next b - (b + cfg.sizeofStructMem)) (cfg.rtAlign m) < 4294967296 :=
        hcopy ⟨hle, by unfold Heap.payloadSize; omega, by unfold Heap.payloadSize; omega, h.malloc_some_iff.1 ⟨_, _, hmalloc⟩⟩
      rw [hfrees.byte, rtMemcpy_byte, Nat.mod_eq_of_lt hlong, if_pos hcommon, hgives.byte, Heap.pointer]
  · cases heffect with
    | refused => exact ⟨h.mem_inUse.2 ⟨hb, hused⟩, rfl, rfl, fun _ _ => rfl⟩
    | freed hzero => omega
    | failed => exact ⟨h.mem_inUse.2 ⟨hb, hused⟩, rfl, rfl, fun _ _ => rfl⟩
    | same => cases hnone
    | trimmed => cases hnone
    | moved => cases hnone
  · have hle := h.rtAlign_le_payload hb hle
    have hpayload := h.payloadSize_le hb
    cases heffect with
    | refused hlarge => omega
    | freed hzero => omega
    | failed _ _ hother htight hnot =>
      unfold MovesInto Heap.payloadSize at hmoves
      unfold Heap.payloadSize at hle
      exact hnot (hmoves (by omega) (by omega))
    | same => cases hnone
    | trimmed => cases hnone
    | moved => cases hnone

/-- In every heap that calls bring about, for a block in use and a size that is not 0: `rt_realloc` does what it should, whatever the memory holds, if and only if the size does not round up past the last word, where the block is only a little too large there is a free block to move it to, and an `int` counts what is copied. -/
theorem contentsKept_iff (hend : endAddr < cfg.word) (hinit : rtSystemHeapInit cfg mem byte beginAddr endAddr = some heap)
    (hrun : BlockRun cfg heap (fun _ _ => True) trace s) (hb : b ∈ s.heap.inUse) (hpos : 0 < m) (hm : m < cfg.word) :
    (∀ byte, ∃ r heap', rtRealloc cfg { s.heap with byte } (some (s.heap.pointer cfg b)) m = some (r, heap') ∧
        ContentsKept cfg { s.heap with byte } heap' b m r) ↔
      m + cfg.alignSize - 1 < cfg.word ∧ MovesInto cfg s.heap b m ∧ CopyFits cfg s.heap b m := by
  obtain ⟨-, blocks, h⟩ := inOrder_of_run hend hinit hrun
  obtain ⟨hb, hused⟩ := h.mem_inUse.1 hb
  constructor
  · intro hall
    obtain ⟨r, heap', blocks', hrealloc, heffect⟩ := h.realloc hb hused m
    obtain ⟨r', heap'', heq, hkept⟩ : ∃ r heap', rtRealloc cfg s.heap (some (s.heap.pointer cfg b)) m = some (r, heap') ∧
      ContentsKept cfg s.heap heap' b m r := hall s.heap.byte
    obtain ⟨rfl, rfl⟩ := Prod.mk.inj (Option.some.inj (hrealloc.symm.trans heq))
    have hfits : m + cfg.alignSize - 1 < cfg.word := by
      by_contra hwraps
      have hround := MemConfig.rtAlign_wraps hm (not_lt.1 hwraps)
      cases heffect with
      | refused hlarge => omega
      | freed _ hfrees => exact ((hfrees.used b).1 (hfrees.order.mem_inUse.1 (hkept.untouched rfl).1)).1 rfl
      | same hzero => exact hzero hround
      | trimmed hzero => exact hzero hround
      | failed hzero => exact hzero hround
      | moved hzero => exact hzero hround
    have hround := MemConfig.le_rtAlign hfits
    have hpayload := h.payloadSize_le hb
    refine ⟨hfits, fun hless htight => ?_, fun hmoves => ?_⟩
    swap
    · by_contra hlong
      obtain ⟨byte, hlost⟩ := h.truncates hb hused hmoves (Nat.le_of_not_lt hlong)
      obtain ⟨r, heap', hrealloc, hkept⟩ := hall byte
      exact hlost r heap' hrealloc hkept
    cases heffect with
    | refused hlarge => omega
    | freed hzero => omega
    | same _ hsame =>
      unfold Heap.payloadSize at hless
      omega
    | trimmed _ hroomy =>
      unfold Heap.payloadSize at htight
      omega
    | failed => exact absurd rfl (hkept.granted (by omega))
    | moved _ _ _ _ hmalloc => exact h.malloc_some_iff.1 ⟨_, _, hmalloc⟩
  · rintro ⟨hfits, hmoves, hcopy⟩ byte
    obtain ⟨r, heap', blocks', hrealloc, heffect⟩ := (h.setByte byte).realloc hb hused m
    exact ⟨r, heap', hrealloc, heffect.contentsKept (h.setByte byte) hb hused hpos hfits hmoves hcopy⟩

/-- A block of 60 bytes is shortened to 52 bytes: it moves to the free block behind the one after it. -/
theorem contentsKept_iff_moved : ∃ trace s, BlockRun smallConfig smallHeap (fun _ _ => True) trace s ∧ s.heap.inUse = {0, 72} ∧
    s.heap.payloadSize smallConfig 0 = 60 ∧ s.heap.byte 0x20000010 = 7 ∧
    ∃ r heap', rtRealloc smallConfig s.heap (some (s.heap.pointer smallConfig 0)) 52 = some (r, heap') ∧
      ContentsKept smallConfig s.heap heap' 0 52 r := by
  obtain ⟨trace, s, hrun, hfound⟩ := exists_blockRun smallConfig smallHeap (fun _ _ => True)
    [.malloc 60, .malloc 20, .write 0x20000010 7]
    (fun _ s => decide (s.heap.inUse = {0, 72} ∧ s.heap.payloadSize smallConfig 0 = 60 ∧ s.heap.byte 0x20000010 = 7 ∧
      MovesInto smallConfig s.heap 0 52 ∧ CopyFits smallConfig s.heap 0 52)) (by decide +kernel)
  obtain ⟨hused, hsize, hbyte, hmoves, hcopy⟩ := of_decide_eq_true hfound
  refine ⟨trace, s, hrun, hused, hsize, hbyte, ?_⟩
  exact (contentsKept_iff (by decide) smallHeap_init hrun (by rw [hused]; decide) (by decide) (by decide)).2 ⟨by decide, hmoves, hcopy⟩ s.heap.byte

/-- With no free block left 52 of 60 bytes are refused; almost all of the address space is asked for and the block is released. -/
theorem contentsKept_fails : ∃ trace s, BlockRun smallConfig smallHeap (fun _ _ => True) trace s ∧
    s.heap.inUse = {0, 72} ∧ s.heap.payloadSize smallConfig 0 = 60 ∧ s.heap.pointer smallConfig 0 = 0x20000010 ∧
    (rtRealloc smallConfig s.heap (some 0x20000010) 52).map Prod.fst = some none ∧
    (rtRealloc smallConfig s.heap (some 0x20000010) 0xFFFFFFFF).map (fun r => (r.1, r.2.inUse)) = some (none, {72}) := by
  obtain ⟨trace, s, hrun, hfound⟩ := exists_blockRun smallConfig smallHeap (fun _ _ => True) [.malloc 60, .malloc 140]
    (fun _ s => decide (s.heap.inUse = {0, 72} ∧ s.heap.payloadSize smallConfig 0 = 60 ∧
      s.heap.pointer smallConfig 0 = 0x20000010 ∧ (rtRealloc smallConfig s.heap (some 0x20000010) 52).map Prod.fst = some none ∧
      (rtRealloc smallConfig s.heap (some 0x20000010) 0xFFFFFFFF).map (fun r => (r.1, r.2.inUse)) = some (none, {72})))
    (by decide +kernel)
  exact ⟨trace, s, hrun, of_decide_eq_true hfound⟩

end RtThread
