import RtThread.Mem.Blocks

/-!
# What every call keeps

In every heap the application can bring about, the headers tile the region, no two free blocks are adjacent, and `lfree` is a free block or the end. One lemma for each function of `mem.c`: it runs to its end without a failed assertion, keeps this, and leaves the blocks in use alone, apart from the one it is about.
-/

namespace RtThread

open Function Tiling

variable {cfg : MemConfig} {heap heap' heap'' : Heap} {blocks blocks' blocks'' : Set Nat} {b c m n ptr size : Nat}

/-- Where `lfree` may point. -/
def FreeOrEnd (heap : Heap) (blocks : Set Nat) (b : Nat) : Prop :=
  b = heap.heapEnd ∨ b ∈ blocks ∧ heap.used b = false

structure HeapInv (cfg : MemConfig) (heap : Heap) (blocks : Set Nat) : Prop extends HeapBlocks cfg heap blocks where
  lfree : FreeOrEnd heap blocks heap.lfree
  plugged : ∀ b ∈ blocks, heap.used b = false → heap.used (heap.next b) = true

structure Keeps (but : Set Nat) (heap heap' : Heap) (blocks blocks' : Set Nat) : Prop where
  region : SameRegion heap heap'
  inUse : ∀ b ∈ blocks, b ∉ but → heap.used b = true → b ∈ blocks' ∧ heap'.used b = true ∧ heap'.next b = heap.next b

theorem Keeps.refl (heap : Heap) (blocks : Set Nat) : Keeps ∅ heap heap blocks blocks :=
  ⟨.refl heap, fun _ hb _ hused => ⟨hb, hused, rfl⟩⟩

theorem Keeps.mono {but but' : Set Nat} (h : Keeps but heap heap' blocks blocks') (hsub : but ⊆ but') :
    Keeps but' heap heap' blocks blocks' :=
  ⟨h.region, fun b hb hnot => h.inUse b hb fun hmem => hnot (hsub hmem)⟩

theorem Keeps.of_free (h : Keeps {ptr} heap heap' blocks blocks') (hfree : heap.used ptr = false) :
    Keeps ∅ heap heap' blocks blocks' := by
  refine ⟨h.region, fun b hb _ hused => h.inUse b hb ?_ hused⟩
  rintro rfl
  rw [hfree] at hused
  cases hused

theorem Keeps.trans {but : Set Nat} (h : Keeps but heap heap' blocks blocks')
    (h' : Keeps but heap' heap'' blocks' blocks'') : Keeps but heap heap'' blocks blocks'' := by
  refine ⟨h.region.trans h'.region, fun b hb hnot hused => ?_⟩
  obtain ⟨hb', hused', hnext'⟩ := h.inUse b hb hnot hused
  obtain ⟨hb'', hused'', hnext''⟩ := h'.inUse b hb' hnot hused'
  exact ⟨hb'', hused'', hnext''.trans hnext'⟩

/-! ## plug_holes -/

theorem HeapBlocks.join_free (h : HeapBlocks cfg heap blocks) (hb : b ∈ blocks) (hn : heap.next b ∈ blocks)
    (hbfree : heap.used b = false) (hnfree : heap.used (heap.next b) = false)
    (hlfree : FreeOrEnd heap blocks heap.lfree) :
    let heap' := combine heap b (heap.next b)
    let blocks' := blocks \ {heap.next b}
    HeapBlocks cfg heap' blocks' ∧ FreeOrEnd heap' blocks' heap'.lfree ∧ Keeps ∅ heap heap' blocks blocks' := by
  have hlt := h.tiles.lt_next cfg.sizeofStructMem_pos hb
  refine ⟨h.joined hb hn, ?_, combine_region .., fun c hc _ hused => ⟨⟨hc, ?_⟩, ?_, ?_⟩⟩
  · unfold FreeOrEnd
    rw [combine_lfree, combine_used, (combine_region heap b (heap.next b)).heapEnd]
    split_ifs with heq
    · exact .inr ⟨⟨hb, hlt.ne⟩, hbfree⟩
    · exact hlfree.imp_right fun hfree => ⟨⟨hfree.1, heq⟩, hfree.2⟩
  · rintro rfl
    rw [hnfree] at hused
    cases hused
  · rw [combine_used]
    exact hused
  · rw [combine_next]
    refine update_of_ne ?_ ..
    rintro rfl
    rw [hbfree] at hused
    cases hused

/-- The free block `m` may have free neighbours; there are no others that are adjacent. -/
structure Holes (cfg : MemConfig) (heap : Heap) (blocks : Set Nat) (m : Nat) : Prop extends HeapBlocks cfg heap blocks where
  lfree : FreeOrEnd heap blocks heap.lfree
  mem : m ∈ blocks
  free : heap.used m = false
  adjacent : ∀ b ∈ blocks, heap.used b = false → heap.used (heap.next b) = false → b = m ∨ heap.next b = m

theorem Holes.forward (h : Holes cfg heap blocks m) : ∃ blocks', Holes cfg (plugForward heap m) blocks' m ∧
    (plugForward heap m).used ((plugForward heap m).next m) = true ∧ Keeps ∅ heap (plugForward heap m) blocks blocks' := by
  have hwidth := cfg.sizeofStructMem_pos
  have hlt := h.tiles.lt_next hwidth h.mem
  have hcases : plugForward heap m = if m ≠ heap.next m ∧ heap.used (heap.next m) = false ∧ heap.next m ≠ heap.heapEnd
      then combine heap m (heap.next m) else heap := rfl
  rw [hcases]
  split_ifs with hhole
  · have hn := h.tiles.next_mem h.mem hhole.2.2
    have hlt_n := h.tiles.lt_next hwidth hn
    obtain ⟨hblocks, hlfree, hkeeps⟩ := h.toHeapBlocks.join_free h.mem hn h.free hhole.2.1 h.lfree
    refine ⟨_, ⟨hblocks, hlfree, ⟨h.mem, hlt.ne⟩, by rw [combine_used]; exact h.free, ?_⟩, ?_, hkeeps⟩
    · rintro b ⟨hb, -⟩ hbfree hnfree
      rw [combine_used] at hbfree
      rw [combine_used, combine_next] at hnfree
      rw [combine_next]
      by_cases hbm : b = m
      · exact .inl hbm
      · rw [update_of_ne hbm] at hnfree ⊢
        exact h.adjacent b hb hbfree hnfree
    · rw [combine_used, combine_next, update_self]
      -- the block behind the two is not free as well
      by_contra hnfree
      rcases h.adjacent _ hn hhole.2.1 (Bool.eq_false_of_not_eq_true hnfree) with heq | heq <;> omega
  · refine ⟨blocks, h, ?_, .refl heap blocks⟩
    by_contra hnfree
    have hnfree := Bool.eq_false_of_not_eq_true hnfree
    refine hhole ⟨hlt.ne, hnfree, fun hend => ?_⟩
    rw [hend, h.end_used] at hnfree
    cases hnfree

theorem Holes.backward (h : Holes cfg heap blocks m) (hbehind : heap.used (heap.next m) = true) :
    ∃ blocks', HeapInv cfg (plugBackward heap m) blocks' ∧ Keeps ∅ heap (plugBackward heap m) blocks blocks' := by
  have hwidth := cfg.sizeofStructMem_pos
  have hcases : plugBackward heap m = if heap.prev m ≠ m ∧ heap.used (heap.prev m) = false
      then combine heap (heap.prev m) m else heap := rfl
  have hfirst (b : Nat) (hb : b ∈ blocks) (hbfree : heap.used b = false) (hnfree : heap.used (heap.next b) = false) :
      heap.next b = m := by
    refine (h.adjacent b hb hbfree hnfree).resolve_left ?_
    rintro rfl
    rw [hbehind] at hnfree
    cases hnfree
  rw [hcases]
  split_ifs with hhole
  · have hp := h.tiles.prev_mem h.mem
    have hpm : heap.next (heap.prev m) = m := by
      refine (h.tiles.back m h.mem ?_).2
      rintro rfl
      exact hhole.1 h.tiles.first
    obtain ⟨hblocks, hlfree, hkeeps⟩ := h.toHeapBlocks.join_free hp (by rw [hpm]; exact h.mem) hhole.2
      (by rw [hpm]; exact h.free) h.lfree
    rw [hpm] at hblocks hlfree hkeeps
    refine ⟨_, ⟨hblocks, hlfree, ?_⟩, hkeeps⟩
    rintro b ⟨hb, -⟩ hbfree
    rw [combine_used] at hbfree
    rw [combine_used, combine_next]
    by_cases hbp : b = heap.prev m
    · rw [hbp, update_self]
      exact hbehind
    · rw [update_of_ne hbp]
      by_contra hnfree
      have hbm := hfirst b hb hbfree (Bool.eq_false_of_not_eq_true hnfree)
      exact hbp (h.tiles.next_inj hwidth hb hp (hbm.trans hpm.symm))
  · refine ⟨blocks, ⟨h.toHeapBlocks, h.lfree, fun b hb hbfree => ?_⟩, .refl heap blocks⟩
    by_contra hnfree
    have hbm := hfirst b hb hbfree (Bool.eq_false_of_not_eq_true hnfree)
    have hlt := h.tiles.lt_next hwidth hb
    obtain ⟨hp, hpm⟩ := h.tiles.back m h.mem (by omega)
    have hpb := h.tiles.next_inj hwidth hp hb (hpm.trans hbm.symm)
    exact hhole ⟨by omega, by rw [hpb]; exact hbfree⟩

theorem Holes.plug (h : Holes cfg heap blocks m) :
    ∃ heap' blocks', plugHoles heap m = some heap' ∧ HeapInv cfg heap' blocks' ∧ Keeps ∅ heap heap' blocks blocks' := by
  obtain ⟨blocks₁, h₁, hbehind, hkeeps₁⟩ := h.forward
  obtain ⟨blocks₂, h₂, hkeeps₂⟩ := h₁.backward hbehind
  exact ⟨_, blocks₂, if_pos ⟨h.tiles.below m h.mem, h.free⟩, h₂, hkeeps₁.trans hkeeps₂⟩

/-! ## rt_malloc -/

/-- The search of `rt_malloc` for `size` bytes can stop at the block: it is free and has room, but is not the rest of the heap exactly. -/
def Findable (cfg : MemConfig) (heap : Heap) (size p : Nat) : Prop :=
  heap.used p = false ∧ p + cfg.sizeofStructMem + size ≤ heap.next p ∧ p + size < heap.memSizeAligned

instance (cfg : MemConfig) (heap : Heap) (size p : Nat) : Decidable (Findable cfg heap size p) :=
  inferInstanceAs (Decidable (_ ∧ _))

theorem HeapBlocks.search_spec (h : HeapBlocks cfg heap blocks) (hsize : size ≤ heap.memSizeAligned)
    (hptr : ptr = heap.heapEnd ∨ ptr ∈ blocks) (hn : heap.heapEnd - ptr < n) :
    rtMallocSearch cfg heap size n ptr = some none ∧ (∀ p ∈ blocks, ptr ≤ p → ¬ Findable cfg heap size p) ∨
      ∃ p ∈ blocks, rtMallocSearch cfg heap size n ptr = some (some p) ∧ ptr ≤ p ∧ Findable cfg heap size p := by
  have hroom := h.room
  have hend := h.end_eq
  induction n generalizing ptr with
  | zero => omega
  | succ n ih =>
    rw [rtMallocSearch, MemConfig.sub_eq hsize (by omega)]
    dsimp only
    split_ifs with hlt hfits
    · have hb : ptr ∈ blocks := hptr.resolve_left (by omega)
      have hwide := h.wide hb
      have hle := h.next_le hb
      change _ ∧ size ≤ cfg.sub (heap.next ptr) _ at hfits
      rw [MemConfig.add_eq (by omega), MemConfig.sub_eq hwide (by omega)] at hfits
      exact .inr ⟨ptr, hb, rfl, Nat.le_refl ptr, hfits.1, by omega, by omega⟩
    · have hb : ptr ∈ blocks := hptr.resolve_left (by omega)
      have hwide := h.wide hb
      have hlt' := h.tiles.lt_next cfg.sizeofStructMem_pos hb
      have hle := h.next_le hb
      have hbelow := h.tiles.below ptr hb
      have hnot : ¬ Findable cfg heap size ptr := by
        rintro ⟨hfree, hroom', -⟩
        refine hfits ⟨hfree, ?_⟩
        change size ≤ cfg.sub (heap.next ptr) _
        rw [MemConfig.add_eq (by omega), MemConfig.sub_eq hwide (by omega)]
        omega
      rcases ih (h.tiles.closed ptr hb) (show heap.heapEnd - heap.next ptr < n by omega) with ⟨hnone, hall⟩ |
        ⟨p, hp, hsome, hle', hfound⟩
      · refine .inl ⟨hnone, fun p hp hle' => ?_⟩
        rcases hle'.eq_or_lt with rfl | hlt''
        · exact hnot
        · exact hall p hp (h.tiles.apart ptr hb p hp hlt'')
      · exact .inr ⟨p, hp, hsome, hlt'.le.trans hle', hfound⟩
    · exact .inl ⟨rfl, fun p _ hle' hfound => hlt (by have := hfound.2.2; omega)⟩

theorem HeapBlocks.nextFree_spec (h : HeapBlocks cfg heap blocks) (hptr : ptr = heap.heapEnd ∨ ptr ∈ blocks)
    (hn : heap.heapEnd - ptr < n) : ∃ l, nextFree heap n ptr = some l ∧ FreeOrEnd heap blocks l ∧
      ∀ c ∈ blocks, ptr ≤ c → heap.used c = false → l ≤ c := by
  induction n generalizing ptr with
  | zero => omega
  | succ n ih =>
    rw [RtThread.nextFree]
    split_ifs with hused
    · have hb := hptr.resolve_left hused.2
      have hlt := h.tiles.lt_next cfg.sizeofStructMem_pos hb
      have hbelow := h.tiles.below ptr hb
      obtain ⟨l, heq, hl, hleast⟩ := ih (h.tiles.closed ptr hb) (show heap.heapEnd - heap.next ptr < n by omega)
      refine ⟨l, heq, hl, fun c hc hle hfree => ?_⟩
      rcases hle.eq_or_lt with rfl | hlt'
      · exact absurd (hused.1.symm.trans hfree) (by decide)
      · exact hleast c hc (h.tiles.apart ptr hb c hc hlt') hfree
    · rw [not_and_or, not_not, Bool.not_eq_true] at hused
      refine ⟨ptr, rfl, ?_, fun c _ hle _ => hle⟩
      rcases hptr with hend | hb
      · exact .inl hend
      · exact hused.symm.imp_right fun hfree => ⟨hb, hfree⟩

structure Taken (cfg : MemConfig) (heap heap' : Heap) (blocks blocks' : Set Nat) (ptr size : Nat) : Prop where
  headers : HeapBlocks cfg heap' blocks'
  plugged : ∀ b ∈ blocks', heap'.used b = false → heap'.used (heap'.next b) = true
  keeps : Keeps ∅ heap heap' blocks blocks'
  lfree : heap'.lfree = heap.lfree
  others : ∀ c, c ≠ ptr → FreeOrEnd heap blocks c → FreeOrEnd heap' blocks' c
  mem : ptr ∈ blocks'
  used : heap'.used ptr = true
  fits : ptr + cfg.sizeofStructMem + size ≤ heap'.next ptr

theorem HeapBlocks.mark (h : HeapBlocks cfg heap blocks) (hptr : ptr ∈ blocks)
    (hplugged : ∀ b ∈ blocks, b ≠ ptr → heap.used b = false → heap.used (heap.next b) = true)
    (hfits : ptr + cfg.sizeofStructMem + size ≤ heap.next ptr) (extent : Nat) :
    Taken cfg heap ((((heap.setMem ptr fun m => { m with used := true }).addUsed cfg extent).setMem ptr
      fun m => { m with magic := heapMagic })) blocks blocks ptr size := by
  generalize hheap' : (((heap.setMem ptr fun m => { m with used := true }).addUsed cfg extent).setMem ptr
    fun m => { m with magic := heapMagic }) = heap'
  have hused : heap'.used = update heap.used ptr true := by
    rw [← hheap']
    exact (Heap.setMem_used_same rfl).trans (Heap.setMem_used heap ptr fun m => { m with used := true })
  have hnext : heap'.next = heap.next := by
    rw [← hheap']
    exact (Heap.setMem_next_same rfl).trans (Heap.setMem_next_same (f := fun m => { m with used := true }) rfl)
  have hprev : heap'.prev = heap.prev := by
    rw [← hheap']
    exact (Heap.setMem_prev_same rfl).trans (Heap.setMem_prev_same (f := fun m => { m with used := true }) rfl)
  have hmagic : heap'.magic = update heap.magic ptr heapMagic := by
    rw [← hheap']
    refine (Heap.setMem_magic ..).trans (congrArg (fun magic : Nat → Nat => update magic ptr heapMagic) ?_)
    exact Heap.setMem_magic_same (f := fun m => { m with used := true }) rfl
  have hregion : SameRegion heap heap' := by
    rw [← hheap']
    exact ⟨rfl, rfl, rfl⟩
  have hkept (b : Nat) (hb : heap.used b = true) : heap'.used b = true := by
    rw [hused, update_apply]
    split_ifs
    · rfl
    · exact hb
  refine ⟨h.of_tiles hregion (by rw [hnext, hprev]; exact h.tiles) h.aligned ?_ fun b hb => ?_, fun b hb hbfree => ?_,
    ⟨hregion, fun b hb _ hbused => ⟨hb, hkept b hbused, by rw [hnext]⟩⟩, by rw [← hheap']; rfl, fun c hc hfree => ?_,
    hptr, by rw [hused, update_self], by rw [hnext]; exact hfits⟩
  · rw [hused, update_of_ne (h.not_end hptr).symm]
  · rw [hmagic, update_apply]
    split_ifs
    · rfl
    · exact h.magic b hb
  · rw [hused] at hbfree
    have hne : b ≠ ptr := by
      rintro rfl
      rw [update_self] at hbfree
      cases hbfree
    rw [update_of_ne hne] at hbfree
    rw [hnext]
    exact hkept _ (hplugged b hb hne hbfree)
  · unfold FreeOrEnd
    rw [hregion.heapEnd, hused, update_of_ne hc]
    exact hfree

structure Cut (cfg : MemConfig) (heap heap' : Heap) (blocks : Set Nat) (ptr ptr2 : Nat) : Prop where
  headers : HeapBlocks cfg heap' (insert ptr2 blocks)
  keeps : Keeps {ptr} heap heap' blocks (insert ptr2 blocks)
  freeOrEnd : ∀ c, FreeOrEnd heap blocks c → FreeOrEnd heap' (insert ptr2 blocks) c
  plugged : ∀ b ∈ blocks, b ≠ ptr → heap'.used b = false → heap'.used (heap'.next b) = true
  next_first : heap'.next ptr = ptr2
  next_second : heap'.next ptr2 = heap.next ptr
  used_second : heap'.used ptr2 = false
  used_others : ∀ c, c ≠ ptr2 → heap'.used c = heap.used c

theorem HeapInv.cut (h : HeapInv cfg heap blocks) {ptr2 : Nat} (hptr : ptr ∈ blocks)
    (hlow : ptr + cfg.sizeofStructMem ≤ ptr2) (hhigh : ptr2 + cfg.sizeofStructMem ≤ heap.next ptr)
    (hdvd : cfg.alignSize ∣ ptr2) : Cut cfg heap (splitBlock cfg heap ptr ptr2) blocks ptr ptr2 := by
  have hwidth := cfg.sizeofStructMem_pos
  have hle := h.next_le hptr
  have hnew (b : Nat) (hb : b ∈ blocks) : b ≠ ptr2 := by
    rintro rfl
    have := h.tiles.apart ptr hptr b hb (by omega)
    omega
  have hbefore (b : Nat) (hb : b ∈ blocks) : heap.next b ≠ ptr2 :=
    (h.tiles.closed b hb).elim (fun hend => by omega) (hnew _)
  have hused (c : Nat) (hc : c ≠ ptr2) : (splitBlock cfg heap ptr ptr2).used c = heap.used c := by
    rw [splitBlock_used, update_of_ne hc]
  have hnext (b : Nat) (hb : b ∈ blocks) (hne : b ≠ ptr) : (splitBlock cfg heap ptr ptr2).next b = heap.next b := by
    rw [splitBlock_next, update_of_ne hne, update_of_ne (hnew b hb)]
  refine ⟨h.toHeapBlocks.split hptr hlow hhigh hdvd, ⟨splitBlock_region .., fun b hb hne hbused => ?_⟩, fun c hc => ?_,
    fun b hb hne hbfree => ?_, ?_, ?_, ?_, hused⟩
  · exact ⟨.inr hb, (hused b (hnew b hb)).trans hbused, hnext b hb hne⟩
  · refine hc.imp (fun hend => hend.trans (splitBlock_region ..).heapEnd.symm) fun hmem => ⟨.inr hmem.1, ?_⟩
    rw [hused c (hnew c hmem.1)]
    exact hmem.2
  · rw [hused b (hnew b hb)] at hbfree
    rw [hnext b hb hne, hused _ (hbefore b hb)]
    exact h.plugged b hb hbfree
  · rw [splitBlock_next, update_self]
  · rw [splitBlock_next, update_of_ne (by omega), update_self]
  · rw [splitBlock_used, update_self]

def markUsed (cfg : MemConfig) (heap : Heap) (ptr extent : Nat) : Heap :=
  ((heap.setMem ptr fun m => { m with used := true }).addUsed cfg extent).setMem ptr fun m => { m with magic := heapMagic }

theorem HeapBlocks.rtMallocUse_cases (h : HeapBlocks cfg heap blocks) (hptr : ptr ∈ blocks)
    (hfits : ptr + cfg.sizeofStructMem + size ≤ heap.next ptr) :
    ptr + cfg.sizeofStructMem + size + (cfg.sizeofStructMem + cfg.minSizeAligned) ≤ heap.next ptr ∧
        rtMallocUse cfg heap ptr size =
          markUsed cfg (splitBlock cfg heap ptr (ptr + cfg.sizeofStructMem + size)) ptr (size + cfg.sizeofStructMem) ∨
      rtMallocUse cfg heap ptr size = markUsed cfg heap ptr (heap.next ptr - ptr) := by
  have hle := h.next_le hptr
  have hroom := h.room
  have hmin := cfg.minSizeAligned_le
  have hheader : cfg.add ptr cfg.sizeofStructMem = ptr + cfg.sizeofStructMem := MemConfig.add_eq (by omega)
  have hcut : cfg.add (ptr + cfg.sizeofStructMem) size = ptr + cfg.sizeofStructMem + size := MemConfig.add_eq (by omega)
  have hextent : cfg.add size cfg.sizeofStructMem = size + cfg.sizeofStructMem := MemConfig.add_eq (by omega)
  have hneed : cfg.add (size + cfg.sizeofStructMem) cfg.minSizeAligned =
      size + cfg.sizeofStructMem + cfg.minSizeAligned := MemConfig.add_eq (by omega)
  have hpayload : cfg.sub (heap.next ptr) (ptr + cfg.sizeofStructMem) = heap.next ptr - (ptr + cfg.sizeofStructMem) :=
    MemConfig.sub_eq (by omega) (by omega)
  have hwhole : cfg.sub ((heap.setMem ptr fun m => { m with used := true }).mem ptr).next ptr = heap.next ptr - ptr := by
    have hnext : (heap.setMem ptr fun m => { m with used := true }).next ptr = heap.next ptr :=
      congrFun (Heap.setMem_next_same rfl) ptr
    change cfg.sub ((heap.setMem ptr fun m => { m with used := true }).next ptr) ptr = heap.next ptr - ptr
    rw [hnext, MemConfig.sub_eq (by omega) (by omega)]
  unfold rtMallocUse
  dsimp only
  rw [show (heap.mem ptr).next = heap.next ptr from rfl, hheader, hcut, hextent, hneed, hpayload, hwhole]
  split_ifs with hroomy
  · exact .inl ⟨by omega, rfl⟩
  · exact .inr rfl

theorem HeapInv.use (h : HeapInv cfg heap blocks) (hptr : ptr ∈ blocks) (hfree : heap.used ptr = false)
    (hfits : ptr + cfg.sizeofStructMem + size ≤ heap.next ptr) (hdvd : cfg.alignSize ∣ size) :
    ∃ blocks', Taken cfg heap (rtMallocUse cfg heap ptr size) blocks blocks' ptr size := by
  have hwidth := cfg.sizeofStructMem_pos
  rcases h.rtMallocUse_cases hptr hfits with ⟨hroomy, heq⟩ | heq
  · rw [heq]
    have hdvd2 : cfg.alignSize ∣ ptr + cfg.sizeofStructMem + size :=
      (Nat.dvd_add_right ((Nat.dvd_add_right (h.aligned ptr hptr)).2 (cfg.rtAlign_dvd _))).2 hdvd
    have hcut := h.cut hptr (Nat.le_add_right ..) (by omega) hdvd2
    have hmarked := hcut.headers.mark (.inr hptr) (fun b hb hne hbfree => ?_) hcut.next_first.ge
      (size + cfg.sizeofStructMem)
    · exact ⟨_, hmarked.headers, hmarked.plugged, (hcut.keeps.of_free hfree).trans hmarked.keeps,
        hmarked.lfree.trans (splitBlock_lfree ..), fun c hc hfree => hmarked.others c hc (hcut.freeOrEnd c hfree),
        hmarked.mem, hmarked.used, hmarked.fits⟩
    · -- the second part is followed by what followed the free block
      rcases hb with rfl | hb
      · rw [hcut.next_second, hcut.used_others _ (by omega)]
        exact h.plugged ptr hptr hfree
      · exact hcut.plugged b hb hne hbfree
  · rw [heq]
    exact ⟨blocks, h.toHeapBlocks.mark hptr (fun b hb _ => h.plugged b hb) hfits _⟩

/-- What a call that gives a block returns: the address of the block's payload, which has room for the size. -/
structure Payload (cfg : MemConfig) (heap : Heap) (blocks : Set Nat) (rmem ptr size : Nat) : Prop where
  mem : ptr ∈ blocks
  used : heap.used ptr = true
  address : rmem = heap.heapPtr + ptr + cfg.sizeofStructMem
  fits : ptr + cfg.sizeofStructMem + size ≤ heap.next ptr

theorem HeapInv.take (h : HeapInv cfg heap blocks) (hptr : ptr ∈ blocks) (hfree : heap.used ptr = false)
    (hfits : ptr + cfg.sizeofStructMem + size ≤ heap.next ptr) (hdvd : cfg.alignSize ∣ size) :
    ∃ rmem heap' blocks', rtMallocTake cfg heap ptr size = some (some rmem, heap') ∧ HeapInv cfg heap' blocks' ∧
      Keeps ∅ heap heap' blocks blocks' ∧ Payload cfg heap' blocks' rmem ptr size := by
  obtain ⟨blocks₁, htaken⟩ := h.use hptr hfree hfits hdvd
  unfold rtMallocTake
  generalize rtMallocUse cfg heap ptr size = heap₁ at htaken
  dsimp only
  have hbelow := htaken.headers.tiles.below ptr htaken.mem
  obtain ⟨lfree, hlfree, hend⟩ : ∃ lfree, (if ptr = heap₁.lfree then nextFree heap₁ heap₁.rounds heap₁.lfree
      else some heap₁.lfree) = some lfree ∧ FreeOrEnd heap₁ blocks₁ lfree := by
    split_ifs with heq
    · obtain ⟨l, hl, hend, -⟩ := htaken.headers.nextFree_spec (.inr (heq ▸ htaken.mem))
        (Nat.lt_succ_of_le (Nat.sub_le ..) : _ < heap₁.rounds)
      exact ⟨l, hl, hend⟩
    · refine ⟨_, rfl, ?_⟩
      rw [htaken.lfree] at heq ⊢
      exact htaken.others _ (Ne.symm heq) h.lfree
  have hroom := htaken.headers.room
  have hfit := htaken.fits
  have hle := htaken.headers.next_le htaken.mem
  have hwidth := cfg.sizeofStructMem_pos
  have haddress : cfg.add heap₁.heapPtr ptr = heap₁.heapPtr + ptr := MemConfig.add_eq (by omega)
  have hrmem : cfg.add (heap₁.heapPtr + ptr) cfg.sizeofStructMem = heap₁.heapPtr + ptr + cfg.sizeofStructMem :=
    MemConfig.add_eq (by omega)
  have hfin : cfg.add (heap₁.heapPtr + ptr + cfg.sizeofStructMem) size =
      heap₁.heapPtr + ptr + cfg.sizeofStructMem + size := MemConfig.add_eq (by omega)
  rw [hlfree]
  dsimp only
  rw [haddress, hrmem, hfin, MemConfig.add_eq (by omega : heap₁.heapPtr + heap₁.heapEnd < cfg.word), if_pos]
  · refine ⟨_, _, blocks₁, rfl, ⟨?_, ?_, ?_⟩, ?_, ?_⟩
    · exact htaken.headers.of_tiles ⟨rfl, rfl, rfl⟩ htaken.headers.tiles htaken.headers.aligned rfl htaken.headers.magic
    · exact hend
    · exact htaken.plugged
    · exact ⟨htaken.keeps.region.trans ⟨rfl, rfl, rfl⟩, htaken.keeps.inUse⟩
    · exact ⟨htaken.mem, htaken.used, rfl, htaken.fits⟩
  · have hdvd : cfg.alignSize ∣ heap₁.heapPtr + ptr :=
      (Nat.dvd_add_right htaken.headers.ptr_aligned).2 (htaken.headers.aligned ptr htaken.mem)
    refine ⟨by omega, Nat.mod_eq_zero_of_dvd ?_, Nat.mod_eq_zero_of_dvd hdvd⟩
    exact (Nat.dvd_add_right hdvd).2 (cfg.rtAlign_dvd _)

/-- What an allocation returns: `RT_NULL`, or the payload of a block that was free. -/
structure Allocated (cfg : MemConfig) (heap heap' : Heap) (blocks blocks' : Set Nat) (size : Nat) (r : Option Nat) :
    Prop where
  inv : HeapInv cfg heap' blocks'
  keeps : Keeps ∅ heap heap' blocks blocks'
  result : ∀ rmem ∈ r, ∃ ptr ∈ blocks, heap.used ptr = false ∧ Payload cfg heap' blocks' rmem ptr size

theorem HeapInv.allocated_none (h : HeapInv cfg heap blocks) (size : Nat) :
    Allocated cfg heap heap blocks blocks size none :=
  ⟨h, .refl heap blocks, by simp⟩

theorem HeapInv.searchAndTake (h : HeapInv cfg heap blocks) (hsize : size ≤ heap.memSizeAligned)
    (hdvd : cfg.alignSize ∣ size) :
    ∃ r heap' blocks', (match rtMallocSearch cfg heap size heap.rounds heap.lfree with
      | none => none
      | some none => some (none, heap)
      | some (some ptr) => rtMallocTake cfg heap ptr size) = some (r, heap') ∧
      Allocated cfg heap heap' blocks blocks' size r := by
  rcases h.search_spec hsize (h.lfree.imp_right And.left) (Nat.lt_succ_of_le (Nat.sub_le ..)) with ⟨hnone, -⟩ |
    ⟨ptr, hptr, hsome, -, hfree, hfits, -⟩
  · refine ⟨none, heap, blocks, ?_, h.allocated_none size⟩
    rw [Heap.rounds, hnone]
  · obtain ⟨rmem, heap', blocks', htake, hinv, hkeeps, hpayload⟩ := h.take hptr hfree hfits hdvd
    refine ⟨some rmem, heap', blocks', ?_, hinv, hkeeps, fun p hp => ?_⟩
    · rw [Heap.rounds, hsome]
      exact htake
    · obtain rfl := Option.some.inj hp
      exact ⟨ptr, hptr, hfree, hpayload⟩

theorem HeapInv.malloc (h : HeapInv cfg heap blocks) (hmin : cfg.minSizeAligned ≤ heap.memSizeAligned) (size : Nat) :
    ∃ r heap' blocks', rtMalloc cfg heap size = some (r, heap') ∧
      Allocated cfg heap heap' blocks blocks' (cfg.rtAlign size) r ∧ (r ≠ none → size ≠ 0) := by
  unfold rtMalloc
  dsimp only
  split_ifs with hzero hlarge hsmall
  · exact ⟨none, heap, blocks, rfl, h.allocated_none _, by simp⟩
  · exact ⟨none, heap, blocks, rfl, h.allocated_none _, by simp⟩
  · obtain ⟨r, heap', blocks', heq, hinv, hkeeps, hresult⟩ := h.searchAndTake hmin (cfg.rtAlign_dvd _)
    refine ⟨r, heap', blocks', heq, ⟨hinv, hkeeps, fun rmem hrmem => ?_⟩, fun _ => hzero⟩
    obtain ⟨ptr, hptr, hfree, hmem, hused, haddress, hfits⟩ := hresult rmem hrmem
    exact ⟨ptr, hptr, hfree, hmem, hused, haddress, by omega⟩
  · obtain ⟨r, heap', blocks', heq, hallocated⟩ := h.searchAndTake (not_lt.1 hlarge) (cfg.rtAlign_dvd size)
    exact ⟨r, heap', blocks', heq, hallocated, fun _ => hzero⟩

/-! ## rt_free -/

theorem Payload.header_eq {rmem : Nat} (hp : Payload cfg heap blocks rmem ptr size) (h : HeapBlocks cfg heap blocks) :
    heap.header cfg rmem = ptr := by
  have hroom := h.room
  have hbelow := h.tiles.below ptr hp.mem
  have hsub : cfg.sub (heap.heapPtr + ptr + cfg.sizeofStructMem) cfg.sizeofStructMem = heap.heapPtr + ptr := by
    rw [MemConfig.sub_eq (by omega) (by omega)]
    omega
  unfold Heap.header
  rw [hp.address, hsub, MemConfig.sub_eq (by omega) (by omega)]
  omega

theorem Payload.bounds {rmem : Nat} (hp : Payload cfg heap blocks rmem ptr size) (h : HeapBlocks cfg heap blocks)
    (hsize : 0 < size) :
    rmem % cfg.alignSize = 0 ∧ heap.heapPtr ≤ rmem ∧ rmem < cfg.add heap.heapPtr heap.heapEnd := by
  have hroom := h.room
  have hle := h.next_le hp.mem
  have hfits := hp.fits
  have hdvd : cfg.alignSize ∣ rmem := by
    rw [hp.address]
    exact (Nat.dvd_add_right ((Nat.dvd_add_right h.ptr_aligned).2 (h.aligned ptr hp.mem))).2 (cfg.rtAlign_dvd _)
  have haddress := hp.address
  refine ⟨Nat.mod_eq_zero_of_dvd hdvd, by omega, ?_⟩
  rw [MemConfig.add_eq (by omega)]
  omega

theorem HeapInv.unmark (h : HeapInv cfg heap blocks) (hptr : ptr ∈ blocks) (usedMem : Nat) :
    let heap' : Heap := { heap.setMem ptr (fun m => { m with used := false, magic := heapMagic }) with
      lfree := if ptr < heap.lfree then ptr else heap.lfree
      usedMem := usedMem }
    Holes cfg heap' blocks ptr ∧ Keeps {ptr} heap heap' blocks blocks := by
  intro heap'
  have hused : heap'.used = update heap.used ptr false :=
    Heap.setMem_used heap ptr fun m => { m with used := false, magic := heapMagic }
  have hnext : heap'.next = heap.next :=
    Heap.setMem_next_same (b := ptr) (f := fun m => { m with used := false, magic := heapMagic }) rfl
  have hprev : heap'.prev = heap.prev :=
    Heap.setMem_prev_same (b := ptr) (f := fun m => { m with used := false, magic := heapMagic }) rfl
  have hmagic : heap'.magic = update heap.magic ptr heapMagic :=
    Heap.setMem_magic heap ptr fun m => { m with used := false, magic := heapMagic }
  have hkept (b : Nat) (hb : b ≠ ptr) : heap'.used b = heap.used b := by rw [hused, update_of_ne hb]
  refine ⟨⟨h.of_tiles ⟨rfl, rfl, rfl⟩ (by rw [hnext, hprev]; exact h.tiles) h.aligned (hkept _ (h.not_end hptr).symm)
    fun b hb => ?_, ?_, hptr, by rw [hused, update_self], fun b hb hbfree hnfree => ?_⟩,
    ⟨rfl, rfl, rfl⟩, fun b hb hne hbused => ⟨hb, (hkept b hne).trans hbused, by rw [hnext]⟩⟩
  · rw [hmagic, update_apply]
    split_ifs
    · rfl
    · exact h.magic b hb
  · have hself : FreeOrEnd heap' blocks ptr := .inr ⟨hptr, by rw [hused, update_self]⟩
    change FreeOrEnd heap' blocks (if ptr < heap.lfree then ptr else heap.lfree)
    split_ifs
    · exact hself
    · by_cases heq : heap.lfree = ptr
      · rw [heq]
        exact hself
      · refine h.lfree.imp_right fun hfree => ⟨hfree.1, ?_⟩
        rw [hkept _ heq]
        exact hfree.2
  · by_contra hnot
    rw [not_or] at hnot
    rw [hnext] at hnfree hnot
    rw [hkept b hnot.1] at hbfree
    rw [hkept _ hnot.2, h.plugged b hb hbfree] at hnfree
    cases hnfree

theorem Payload.rtFree_eq {rmem : Nat} (hp : Payload cfg heap blocks rmem ptr size) (h : HeapBlocks cfg heap blocks)
    (hsize : 0 < size) : rtFree cfg heap (some rmem) =
      plugHoles { heap.setMem ptr (fun m => { m with used := false, magic := heapMagic }) with
        lfree := if ptr < heap.lfree then ptr else heap.lfree
        usedMem := cfg.sub heap.usedMem (cfg.sub (heap.next ptr) ptr) } ptr := by
  unfold rtFree
  dsimp only
  rw [if_pos (hp.bounds h hsize), hp.header_eq h, if_pos ⟨hp.used, h.magic ptr hp.mem⟩]
  have hnext : (heap.setMem ptr fun m => { m with used := false, magic := heapMagic }).next ptr = heap.next ptr :=
    congrFun (Heap.setMem_next_same rfl) ptr
  rw [show (heap.setMem ptr _).lfree = heap.lfree from rfl, ← hnext]
  split_ifs <;> rfl

theorem HeapInv.free (h : HeapInv cfg heap blocks) {rmem : Nat} (hp : Payload cfg heap blocks rmem ptr size)
    (hsize : 0 < size) :
    ∃ heap' blocks', rtFree cfg heap (some rmem) = some heap' ∧ HeapInv cfg heap' blocks' ∧
      Keeps {ptr} heap heap' blocks blocks' := by
  obtain ⟨hholes, hkeeps⟩ := h.unmark hp.mem (cfg.sub heap.usedMem (cfg.sub (heap.next ptr) ptr))
  obtain ⟨heap', blocks', hplug, hinv, hkeeps'⟩ := hholes.plug
  exact ⟨heap', blocks', (hp.rtFree_eq h.toHeapBlocks hsize).trans hplug, hinv,
    hkeeps.trans (hkeeps'.mono (Set.empty_subset _))⟩

/-! ## rt_realloc and rt_calloc -/

theorem Payload.keep {but : Set Nat} {rmem : Nat} (hp : Payload cfg heap blocks rmem ptr size)
    (h : Keeps but heap heap' blocks blocks') (hnot : ptr ∉ but) : Payload cfg heap' blocks' rmem ptr size := by
  obtain ⟨hmem, hused, hnext⟩ := h.inUse ptr hp.mem hnot hp.used
  exact ⟨hmem, hused, by rw [h.region.heapPtr]; exact hp.address, by rw [hnext]; exact hp.fits⟩

theorem HeapInv.setByte (h : HeapInv cfg heap blocks) (byte : Nat → UInt8) :
    HeapInv cfg { heap with byte := byte } blocks :=
  ⟨h.of_tiles ⟨rfl, rfl, rfl⟩ h.tiles h.aligned rfl h.magic, h.lfree, h.plugged⟩

theorem Keeps.setByte (heap : Heap) (blocks : Set Nat) (byte : Nat → UInt8) :
    Keeps ∅ heap { heap with byte := byte } blocks blocks :=
  ⟨⟨rfl, rfl, rfl⟩, fun _ hb _ hused => ⟨hb, hused, rfl⟩⟩

theorem HeapInv.setUsedMem (h : HeapInv cfg heap blocks) (usedMem : Nat) :
    HeapInv cfg { heap with usedMem := usedMem } blocks :=
  ⟨h.of_tiles ⟨rfl, rfl, rfl⟩ h.tiles h.aligned rfl h.magic, h.lfree, h.plugged⟩

theorem HeapInv.shrink (h : HeapInv cfg heap blocks) {ptr2 : Nat} (hptr : ptr ∈ blocks) (hused : heap.used ptr = true)
    (hlow : ptr + cfg.sizeofStructMem ≤ ptr2) (hhigh : ptr2 + cfg.sizeofStructMem ≤ heap.next ptr)
    (hdvd : cfg.alignSize ∣ ptr2) :
    ∃ heap' blocks', plugHoles (splitBlock cfg heap ptr ptr2) ptr2 = some heap' ∧ HeapInv cfg heap' blocks' ∧
      Keeps {ptr} heap heap' blocks blocks' ∧ ptr ∈ blocks' ∧ heap'.used ptr = true ∧ heap'.next ptr = ptr2 := by
  have hwidth := cfg.sizeofStructMem_pos
  have hcut := h.cut hptr hlow hhigh hdvd
  have hstill : (splitBlock cfg heap ptr ptr2).used ptr = true := (hcut.used_others ptr (by omega)).trans hused
  have hholes : Holes cfg (splitBlock cfg heap ptr ptr2) (insert ptr2 blocks) ptr2 := by
    refine ⟨hcut.headers, ?_, .inl rfl, hcut.used_second, ?_⟩
    · rw [splitBlock_lfree]
      exact hcut.freeOrEnd _ h.lfree
    · rintro b (rfl | hb) hbfree hnfree
      · exact .inl rfl
      · by_cases hne : b = ptr
        · rw [hne, hstill] at hbfree
          cases hbfree
        · rw [hcut.plugged b hb hne hbfree] at hnfree
          cases hnfree
  obtain ⟨heap', blocks', hplug, hinv, hkeeps⟩ := hholes.plug
  obtain ⟨hmem, hused', hnext'⟩ := hkeeps.inUse ptr (.inr hptr) (Set.notMem_empty ptr) hstill
  exact ⟨heap', blocks', hplug, hinv, hcut.keeps.trans (hkeeps.mono (Set.empty_subset _)), hmem, hused',
    hnext'.trans hcut.next_first⟩

/-- What `rt_realloc` of the block `ptr` returns: `RT_NULL`, with the block released if the new size is zero and kept otherwise, or the payload of that block or of one that was free. -/
structure Reallocated (cfg : MemConfig) (heap heap' : Heap) (blocks blocks' : Set Nat) (ptr newsize : Nat)
    (r : Option Nat) : Prop where
  inv : HeapInv cfg heap' blocks'
  keeps : Keeps {ptr} heap heap' blocks blocks'
  failed : r = none → newsize ≠ 0 → Keeps ∅ heap heap' blocks blocks'
  nonzero : r ≠ none → newsize ≠ 0
  result : ∀ q ∈ r, ∃ ptr', (ptr' = ptr ∨ ptr' ∈ blocks ∧ heap.used ptr' = false) ∧
    Payload cfg heap' blocks' q ptr' newsize

theorem HeapInv.move (h : HeapInv cfg heap blocks) (hmin : cfg.minSizeAligned ≤ heap.memSizeAligned) {rmem : Nat}
    {newsize oldsize : Nat} (hp : Payload cfg heap blocks rmem ptr size) (hsize : 0 < size)
    (haligned : cfg.rtAlign newsize = newsize) (hzero : newsize ≠ 0) :
    ∃ r heap' blocks', rtReallocMove cfg heap rmem oldsize newsize = some (r, heap') ∧
      Reallocated cfg heap heap' blocks blocks' ptr newsize r := by
  obtain ⟨r, heap₁, blocks₁, hmalloc, ⟨hinv₁, hkeeps₁, hresult⟩, -⟩ := h.malloc hmin newsize
  rw [haligned] at hresult
  unfold rtReallocMove
  rw [hmalloc]
  cases r with
  | none =>
    exact ⟨none, heap₁, blocks₁, rfl, hinv₁, hkeeps₁.mono (Set.empty_subset _), fun _ _ => hkeeps₁, by simp,
      by simp⟩
  | some q =>
    obtain ⟨ptr', hptr', hfree', hpayload⟩ := hresult q rfl
    have hne : ptr' ≠ ptr := by
      rintro rfl
      rw [hp.used] at hfree'
      cases hfree'
    dsimp only
    generalize hcopy : rtMemcpy heap₁ q rmem _ = heap₂
    have hinv₂ : HeapInv cfg heap₂ blocks₁ := by
      rw [← hcopy]
      exact hinv₁.setByte _
    have hkeeps₂ : Keeps ∅ heap₁ heap₂ blocks₁ blocks₁ := by
      rw [← hcopy]
      exact .setByte heap₁ blocks₁ _
    have hp₂ := (hp.keep hkeeps₁ (Set.notMem_empty ptr)).keep hkeeps₂ (Set.notMem_empty ptr)
    obtain ⟨heap₃, blocks₃, hfree₃, hinv₃, hkeeps₃⟩ := hinv₂.free hp₂ hsize
    have hpayload₃ := (hpayload.keep hkeeps₂ (Set.notMem_empty ptr')).keep hkeeps₃ hne
    refine ⟨some q, heap₃, blocks₃, by rw [hfree₃]; rfl, hinv₃, ?_, by simp, fun _ => hzero, ?_⟩
    · exact ((hkeeps₁.trans hkeeps₂).mono (Set.empty_subset _)).trans hkeeps₃
    · intro p hp'
      obtain rfl := Option.some.inj hp'
      exact ⟨ptr', .inr ⟨hptr', hfree'⟩, hpayload₃⟩

theorem Payload.rtRealloc_cases {rmem : Nat} (hp : Payload cfg heap blocks rmem ptr size) (h : HeapBlocks cfg heap blocks)
    (hsize : 0 < size) (newsize : Nat) :
    let fin := ptr + cfg.sizeofStructMem + cfg.rtAlign newsize
    (heap.memSizeAligned < cfg.rtAlign newsize ∧ rtRealloc cfg heap (some rmem) newsize = some (none, heap)) ∨
    cfg.rtAlign newsize ≤ heap.memSizeAligned ∧
      ((cfg.rtAlign newsize = 0 ∧
          rtRealloc cfg heap (some rmem) newsize = (rtFree cfg heap (some rmem)).map fun heap => (none, heap)) ∨
        cfg.rtAlign newsize ≠ 0 ∧
          ((heap.next ptr = fin ∧ rtRealloc cfg heap (some rmem) newsize = some (some rmem, heap)) ∨
            (fin + cfg.sizeofStructMem + cfg.minSize < heap.next ptr ∧ rtRealloc cfg heap (some rmem) newsize =
              (plugHoles (splitBlock cfg { heap with usedMem := cfg.sub heap.usedMem (heap.next ptr - fin) } ptr fin)
                fin).map fun heap => (some rmem, heap)) ∨
            (heap.next ptr ≠ fin ∧ heap.next ptr ≤ fin + cfg.sizeofStructMem + cfg.minSize ∧
              rtRealloc cfg heap (some rmem) newsize =
                rtReallocMove cfg heap rmem (heap.next ptr - (ptr + cfg.sizeofStructMem)) (cfg.rtAlign newsize)))) := by
  have hroom := h.room
  have hend := h.end_eq
  have hwide := h.wide hp.mem
  have hle := h.next_le hp.mem
  have hbounds := hp.bounds h hsize
  have hmin_le := cfg.minSize_le.trans cfg.minSizeAligned_le
  unfold rtRealloc
  dsimp only
  generalize cfg.rtAlign newsize = newsize
  have hextent : cfg.sub (cfg.sub (heap.next ptr) ptr) cfg.sizeofStructMem = heap.next ptr - (ptr + cfg.sizeofStructMem) := by
    rw [MemConfig.sub_eq (by omega : ptr ≤ heap.next ptr) (by omega), MemConfig.sub_eq (by omega) (by omega)]
    omega
  rw [hp.header_eq h, show (heap.mem ptr).next = heap.next ptr from rfl, hextent]
  by_cases hlarge : heap.memSizeAligned < newsize
  · exact .inl ⟨hlarge, if_pos hlarge⟩
  · have hfirst : cfg.add newsize cfg.sizeofStructMem = newsize + cfg.sizeofStructMem := MemConfig.add_eq (by omega)
    have hneed : cfg.add (newsize + cfg.sizeofStructMem) cfg.minSize = newsize + cfg.sizeofStructMem + cfg.minSize :=
      MemConfig.add_eq (by omega)
    rw [if_neg hlarge, hfirst, hneed]
    refine .inr ⟨by omega, ?_⟩
    split_ifs with hzero hout hsame hsplit
    · exact .inl ⟨hzero, rfl⟩
    · exact absurd hout (not_or.2 ⟨by omega, by omega⟩)
    · exact .inr ⟨hzero, .inl ⟨by omega, rfl⟩⟩
    · have hcut : cfg.add (cfg.add ptr cfg.sizeofStructMem) newsize = ptr + cfg.sizeofStructMem + newsize := by
        rw [MemConfig.add_eq (by omega : ptr + cfg.sizeofStructMem < cfg.word), MemConfig.add_eq (by omega)]
      have hless : cfg.sub (heap.next ptr - (ptr + cfg.sizeofStructMem)) newsize =
          heap.next ptr - (ptr + cfg.sizeofStructMem + newsize) := by
        rw [MemConfig.sub_eq (by omega) (by omega)]
        omega
      rw [hcut, hless]
      exact .inr ⟨hzero, .inr (.inl ⟨by omega, rfl⟩)⟩
    · exact .inr ⟨hzero, .inr (.inr ⟨by omega, by omega, rfl⟩)⟩

theorem HeapInv.realloc (h : HeapInv cfg heap blocks) (hmin : cfg.minSizeAligned ≤ heap.memSizeAligned) {rmem : Nat}
    (hp : Payload cfg heap blocks rmem ptr size) (hsize : 0 < size) (newsize : Nat) :
    ∃ r heap' blocks', rtRealloc cfg heap (some rmem) newsize = some (r, heap') ∧
      Reallocated cfg heap heap' blocks blocks' ptr (cfg.rtAlign newsize) r := by
  have hroom := h.room
  have hend := h.end_eq
  have hdvd := cfg.rtAlign_dvd newsize
  rcases hp.rtRealloc_cases h.toHeapBlocks hsize newsize with ⟨-, heq⟩ | ⟨hle, ⟨hzero, heq⟩ | ⟨hzero, ⟨hsame, heq⟩ |
    ⟨hsplit, heq⟩ | ⟨-, -, heq⟩⟩⟩
  · exact ⟨none, heap, blocks, heq, h, (Keeps.refl heap blocks).mono (Set.empty_subset _), fun _ _ => .refl heap blocks,
      by simp, by simp⟩
  · obtain ⟨heap', blocks', hfree, hinv, hkeeps⟩ := h.free hp hsize
    exact ⟨none, heap', blocks', by rw [heq, hfree]; rfl, hinv, hkeeps, fun _ hne => absurd hzero hne, by simp, by simp⟩
  · refine ⟨some rmem, heap, blocks, heq, h, (Keeps.refl heap blocks).mono (Set.empty_subset _), by simp, fun _ => hzero,
      fun q hq => ?_⟩
    obtain rfl := Option.some.inj hq
    exact ⟨ptr, .inl rfl, hp.mem, hp.used, hp.address, hsame.ge⟩
  · have hcut_dvd : cfg.alignSize ∣ ptr + cfg.sizeofStructMem + cfg.rtAlign newsize :=
      (Nat.dvd_add_right ((Nat.dvd_add_right (h.aligned ptr hp.mem)).2 (cfg.rtAlign_dvd _))).2 hdvd
    obtain ⟨heap', blocks', hplug, hinv, hkeeps, hmem, hused, hnext⟩ :=
      (h.setUsedMem (cfg.sub heap.usedMem (heap.next ptr - (ptr + cfg.sizeofStructMem + cfg.rtAlign newsize)))).shrink
        hp.mem hp.used (Nat.le_add_right ..) (show _ ≤ heap.next ptr by omega) hcut_dvd
    have hregion := hkeeps.region
    refine ⟨some rmem, heap', blocks', by rw [heq, hplug]; rfl, hinv,
      ⟨⟨hregion.heapPtr, hregion.heapEnd, hregion.memSizeAligned⟩, hkeeps.inUse⟩, by simp, fun _ => hzero,
      fun q hq => ?_⟩
    obtain rfl := Option.some.inj hq
    exact ⟨ptr, .inl rfl, hmem, hused, hp.address.trans (by rw [hregion.heapPtr]), hnext.ge⟩
  · have halign := cfg.alignSize_le_sizeof
    obtain ⟨r, heap', blocks', hmove, hrealloc⟩ :=
      h.move hmin hp hsize (MemConfig.rtAlign_of_dvd hdvd (by omega)) hzero
    exact ⟨r, heap', blocks', heq.trans hmove, hrealloc⟩

theorem HeapInv.calloc (h : HeapInv cfg heap blocks) (hmin : cfg.minSizeAligned ≤ heap.memSizeAligned)
    (count size : Nat) :
    ∃ r heap' blocks', rtCalloc cfg heap count size = some (r, heap') ∧
      Allocated cfg heap heap' blocks blocks' (cfg.rtAlign (cfg.mul count size)) r ∧
      (r ≠ none → cfg.mul count size ≠ 0) := by
  obtain ⟨r, heap', blocks', hmalloc, ⟨hinv, hkeeps, hresult⟩, hzero⟩ := h.malloc hmin (cfg.mul count size)
  unfold rtCalloc
  rw [hmalloc]
  cases r with
  | none => exact ⟨none, heap', blocks', rfl, ⟨hinv, hkeeps, hresult⟩, hzero⟩
  | some p =>
    refine ⟨some p, _, blocks', rfl, ⟨hinv.setByte _, hkeeps.trans (.setByte heap' blocks' _), fun q hq => ?_⟩, hzero⟩
    obtain ⟨ptr, hptr, hfree, hpayload⟩ := hresult q hq
    exact ⟨ptr, hptr, hfree, hpayload.keep (.setByte heap' blocks' _) (Set.notMem_empty ptr)⟩

/-! ## rt_system_heap_init -/

theorem rtSystemHeapInit_inv {mem : Nat → HeapMem} {byte : Nat → UInt8} {beginAddr endAddr : Nat}
    (hend : endAddr < cfg.word) (h : rtSystemHeapInit cfg mem byte beginAddr endAddr = some heap) :
    HeapInv cfg heap {0} := by
  have hwidth := cfg.sizeofStructMem_pos
  have hdown := cfg.rtAlignDown_le endAddr
  unfold rtSystemHeapInit at h
  dsimp only at h
  split_ifs at h with haccept
  obtain rfl := Option.some.inj h
  generalize hbegin : cfg.rtAlign beginAddr = beginAlign at haccept ⊢
  generalize hendAlign : cfg.rtAlignDown endAddr = endAlign at haccept hdown ⊢
  have hbegin_dvd : cfg.alignSize ∣ beginAlign := hbegin ▸ cfg.rtAlign_dvd _
  have hend_dvd : cfg.alignSize ∣ endAlign := hendAlign ▸ cfg.rtAlignDown_dvd _
  have hwidth_dvd : cfg.alignSize ∣ 2 * cfg.sizeofStructMem :=
    Nat.dvd_mul_left_of_dvd (cfg.rtAlign_dvd _) 2
  have hne : (0 : Nat) ≠ endAlign - beginAlign - 2 * cfg.sizeofStructMem + cfg.sizeofStructMem := by omega
  refine ⟨⟨hbegin_dvd, Nat.dvd_sub (Nat.dvd_sub hend_dvd hbegin_dvd) hwidth_dvd, rfl, by dsimp only; omega,
    .one hwidth (by dsimp only; omega) ?_ ?_, ?_, ?_, ?_⟩, .inr ⟨rfl, ?_⟩, ?_⟩
  · simp [Heap.next, hne]
  · simp [Heap.prev, hne]
  · rintro b rfl
    exact Nat.dvd_zero _
  · simp [Heap.used]
  · rintro b rfl
    simp [Heap.magic, hne]
  · simp [Heap.used, hne]
  · rintro b rfl _
    simp [Heap.used, Heap.next, hne]

end RtThread
