import RtThread.Mem.Heap
import RtThread.Lib.Tiling

/-!
# The blocks of the heap

The headers tile the heap. What splitting and combining do to the tiling, and `plug_holes`.
-/

namespace RtThread

open Function Tiling

/-! ## Machine words -/

namespace MemConfig

variable {cfg : MemConfig} {a b x : Nat}

theorem add_eq (h : a + b < cfg.word) : cfg.add a b = a + b := Nat.mod_eq_of_lt h

theorem sub_eq (hle : b ≤ a) (ha : a < cfg.word) : cfg.sub a b = a - b := by
  unfold sub
  rw [Nat.sub_add_comm hle, Nat.add_mod_right, Nat.mod_eq_of_lt (by omega)]

theorem alignSize_pos (cfg : MemConfig) : 0 < cfg.alignSize := Nat.pow_pos (by decide)

theorem alignSize_le (cfg : MemConfig) : cfg.alignSize ≤ 2 ^ 30 :=
  Nat.pow_le_pow_right (by decide) (Nat.le_of_lt_succ cfg.alignShift_lt)

theorem le_word (cfg : MemConfig) : 2 ^ 32 ≤ cfg.word := by
  unfold word
  split_ifs <;> decide

theorem rtAlignDown_dvd (cfg : MemConfig) (x : Nat) : cfg.alignSize ∣ cfg.rtAlignDown x := Nat.dvd_mul_left ..

theorem rtAlignDown_le (cfg : MemConfig) (x : Nat) : cfg.rtAlignDown x ≤ x := Nat.div_mul_le_self ..

theorem rtAlignDown_mono (h : a ≤ b) : cfg.rtAlignDown a ≤ cfg.rtAlignDown b :=
  Nat.mul_le_mul_right _ (Nat.div_le_div_right h)

theorem rtAlign_dvd (cfg : MemConfig) (x : Nat) : cfg.alignSize ∣ cfg.rtAlign x := cfg.rtAlignDown_dvd _

theorem le_rtAlign (h : x + cfg.alignSize - 1 < cfg.word) : x ≤ cfg.rtAlign x := by
  have hpos := cfg.alignSize_pos
  have hmod := Nat.mod_lt (x + cfg.alignSize - 1) hpos
  have hdiv := Nat.div_add_mod' (x + cfg.alignSize - 1) cfg.alignSize
  unfold rtAlign rtAlignDown
  rw [Nat.mod_eq_of_lt h]
  omega

theorem rtAlign_of_dvd (hdvd : cfg.alignSize ∣ x) (h : x + cfg.alignSize - 1 < cfg.word) : cfg.rtAlign x = x := by
  have hpos := cfg.alignSize_pos
  obtain ⟨k, rfl⟩ := hdvd
  unfold rtAlign rtAlignDown
  rw [Nat.mod_eq_of_lt h, Nat.add_sub_assoc hpos, Nat.mul_add_div hpos, Nat.div_eq_of_lt (by omega), Nat.add_zero,
    Nat.mul_comm]

theorem rtAlign_mono (h : a ≤ b) (hb : b + cfg.alignSize - 1 < cfg.word) : cfg.rtAlign a ≤ cfg.rtAlign b := by
  unfold rtAlign
  rw [Nat.mod_eq_of_lt hb, Nat.mod_eq_of_lt (by omega)]
  exact rtAlignDown_mono (by omega)

theorem sizeofHeapMem_bounds (cfg : MemConfig) : cfg.minSize ≤ cfg.sizeofHeapMem ∧ 12 ≤ cfg.minSize ∧
    cfg.sizeofHeapMem + cfg.alignSize - 1 < cfg.word := by
  have halign := cfg.alignSize_le
  have hword := cfg.le_word
  unfold minSize sizeofHeapMem
  split_ifs <;> omega

theorem minSizeAligned_le (cfg : MemConfig) : cfg.minSizeAligned ≤ cfg.sizeofStructMem :=
  rtAlign_mono cfg.sizeofHeapMem_bounds.1 cfg.sizeofHeapMem_bounds.2.2

theorem minSize_le (cfg : MemConfig) : cfg.minSize ≤ cfg.minSizeAligned := by
  obtain ⟨hle, -, hlt⟩ := cfg.sizeofHeapMem_bounds
  exact le_rtAlign (by omega)

theorem sizeofStructMem_pos (cfg : MemConfig) : 0 < cfg.sizeofStructMem := by
  have hmin := cfg.minSize_le
  have hle := cfg.minSizeAligned_le
  have := cfg.sizeofHeapMem_bounds
  omega

theorem alignSize_le_sizeof (cfg : MemConfig) : cfg.alignSize ≤ cfg.sizeofStructMem :=
  Nat.le_of_dvd cfg.sizeofStructMem_pos (cfg.rtAlign_dvd _)

end MemConfig

/-! ## Headers -/

variable {cfg : MemConfig} {heap heap' : Heap} {blocks : Set Nat} {b c m n : Nat}

namespace Heap

def next (heap : Heap) (b : Nat) : Nat := (heap.mem b).next

def prev (heap : Heap) (b : Nat) : Nat := (heap.mem b).prev

def used (heap : Heap) (b : Nat) : Bool := (heap.mem b).used

def magic (heap : Heap) (b : Nat) : Nat := (heap.mem b).magic

theorem setMem_mem (heap : Heap) (b c : Nat) (f : HeapMem → HeapMem) :
    (heap.setMem b f).mem c = if c = b then f (heap.mem b) else heap.mem c := update_apply ..

theorem setMem_field {α : Type} (field : HeapMem → α) (heap : Heap) (b : Nat) (f : HeapMem → HeapMem) :
    (fun c => field ((heap.setMem b f).mem c)) = update (fun c => field (heap.mem c)) b (field (f (heap.mem b))) := by
  funext c
  rw [setMem_mem, update_apply]
  exact apply_ite field ..

theorem setMem_next (heap : Heap) (b : Nat) (f : HeapMem → HeapMem) :
    (heap.setMem b f).next = update heap.next b (f (heap.mem b)).next :=
  setMem_field HeapMem.next heap b f

theorem setMem_prev (heap : Heap) (b : Nat) (f : HeapMem → HeapMem) :
    (heap.setMem b f).prev = update heap.prev b (f (heap.mem b)).prev :=
  setMem_field HeapMem.prev heap b f

theorem setMem_used (heap : Heap) (b : Nat) (f : HeapMem → HeapMem) :
    (heap.setMem b f).used = update heap.used b (f (heap.mem b)).used :=
  setMem_field HeapMem.used heap b f

theorem setMem_magic (heap : Heap) (b : Nat) (f : HeapMem → HeapMem) :
    (heap.setMem b f).magic = update heap.magic b (f (heap.mem b)).magic :=
  setMem_field HeapMem.magic heap b f

theorem setMem_next_same {f : HeapMem → HeapMem} (h : (f (heap.mem b)).next = heap.next b) :
    (heap.setMem b f).next = heap.next := by
  rw [setMem_next, h, update_eq_self]

theorem setMem_prev_same {f : HeapMem → HeapMem} (h : (f (heap.mem b)).prev = heap.prev b) :
    (heap.setMem b f).prev = heap.prev := by
  rw [setMem_prev, h, update_eq_self]

theorem setMem_used_same {f : HeapMem → HeapMem} (h : (f (heap.mem b)).used = heap.used b) :
    (heap.setMem b f).used = heap.used := by
  rw [setMem_used, h, update_eq_self]

theorem setMem_magic_same {f : HeapMem → HeapMem} (h : (f (heap.mem b)).magic = heap.magic b) :
    (heap.setMem b f).magic = heap.magic := by
  rw [setMem_magic, h, update_eq_self]

end Heap

/-- The headers at the offsets `blocks` tile a region of memory. -/
structure HeapBlocks (cfg : MemConfig) (heap : Heap) (blocks : Set Nat) : Prop where
  ptr_aligned : cfg.alignSize ∣ heap.heapPtr
  size_aligned : cfg.alignSize ∣ heap.memSizeAligned
  end_eq : heap.heapEnd = heap.memSizeAligned + cfg.sizeofStructMem
  room : heap.heapPtr + heap.heapEnd + cfg.sizeofStructMem < cfg.word
  tiles : Tiles cfg.sizeofStructMem heap.heapEnd heap.next heap.prev blocks
  aligned : ∀ b ∈ blocks, cfg.alignSize ∣ b
  end_used : heap.used heap.heapEnd = true
  magic : ∀ b ∈ blocks, heap.magic b = heapMagic

structure SameRegion (heap heap' : Heap) : Prop where
  heapPtr : heap'.heapPtr = heap.heapPtr
  heapEnd : heap'.heapEnd = heap.heapEnd
  memSizeAligned : heap'.memSizeAligned = heap.memSizeAligned

theorem SameRegion.refl (heap : Heap) : SameRegion heap heap := ⟨rfl, rfl, rfl⟩

theorem SameRegion.trans {heap'' : Heap} (h : SameRegion heap heap') (h' : SameRegion heap' heap'') :
    SameRegion heap heap'' :=
  ⟨h'.heapPtr.trans h.heapPtr, h'.heapEnd.trans h.heapEnd, h'.memSizeAligned.trans h.memSizeAligned⟩

theorem HeapBlocks.of_tiles {blocks' : Set Nat} (h : HeapBlocks cfg heap blocks) (hsame : SameRegion heap heap')
    (htiles : Tiles cfg.sizeofStructMem heap.heapEnd heap'.next heap'.prev blocks')
    (haligned : ∀ b ∈ blocks', cfg.alignSize ∣ b) (hend : heap'.used heap.heapEnd = heap.used heap.heapEnd)
    (hmagic : ∀ b ∈ blocks', heap'.magic b = heapMagic) : HeapBlocks cfg heap' blocks' where
  ptr_aligned := by rw [hsame.heapPtr]; exact h.ptr_aligned
  size_aligned := by rw [hsame.memSizeAligned]; exact h.size_aligned
  end_eq := by rw [hsame.heapEnd, hsame.memSizeAligned]; exact h.end_eq
  room := by rw [hsame.heapPtr, hsame.heapEnd]; exact h.room
  tiles := by rw [hsame.heapEnd]; exact htiles
  aligned := haligned
  end_used := by rw [hsame.heapEnd, hend]; exact h.end_used
  magic := hmagic

namespace HeapBlocks

theorem not_end (h : HeapBlocks cfg heap blocks) (hb : b ∈ blocks) : b ≠ heap.heapEnd := (h.tiles.below b hb).ne

theorem next_le (h : HeapBlocks cfg heap blocks) (hb : b ∈ blocks) : heap.next b ≤ heap.heapEnd := h.tiles.next_le hb

theorem wide (h : HeapBlocks cfg heap blocks) (hb : b ∈ blocks) : b + cfg.sizeofStructMem ≤ heap.next b :=
  h.tiles.wide b hb

end HeapBlocks

/-! ## Splitting -/

section Split

variable {ptr ptr2 : Nat}

theorem splitBlock_region (cfg : MemConfig) (heap : Heap) (ptr ptr2 : Nat) :
    SameRegion heap (splitBlock cfg heap ptr ptr2) := by
  unfold splitBlock
  dsimp only
  split_ifs <;> exact ⟨rfl, rfl, rfl⟩

theorem splitBlock_lfree (cfg : MemConfig) (heap : Heap) (ptr ptr2 : Nat) :
    (splitBlock cfg heap ptr ptr2).lfree = heap.lfree := by
  unfold splitBlock
  dsimp only
  split_ifs <;> rfl

theorem splitBlock_next (cfg : MemConfig) (heap : Heap) (ptr ptr2 : Nat) : (splitBlock cfg heap ptr ptr2).next =
    update (update heap.next ptr2 (heap.next ptr)) ptr ptr2 := by
  have hboth := Heap.setMem_next (heap.setMem ptr2 fun _ =>
    { magic := heapMagic, used := false, next := heap.next ptr, prev := ptr }) ptr fun m => { m with next := ptr2 }
  rw [Heap.setMem_next heap] at hboth
  unfold splitBlock
  dsimp only
  split_ifs
  · exact (Heap.setMem_next_same rfl).trans hboth
  · exact hboth

theorem splitBlock_used (cfg : MemConfig) (heap : Heap) (ptr ptr2 : Nat) :
    (splitBlock cfg heap ptr ptr2).used = update heap.used ptr2 false := by
  have hboth := (Heap.setMem_used_same (b := ptr) (f := fun m => { m with next := ptr2 }) rfl).trans
    (Heap.setMem_used heap ptr2 fun _ => { magic := heapMagic, used := false, next := heap.next ptr, prev := ptr })
  unfold splitBlock
  dsimp only
  split_ifs
  · exact (Heap.setMem_used_same rfl).trans hboth
  · exact hboth

theorem splitBlock_magic (cfg : MemConfig) (heap : Heap) (ptr ptr2 : Nat) :
    (splitBlock cfg heap ptr ptr2).magic = update heap.magic ptr2 heapMagic := by
  have hboth := (Heap.setMem_magic_same (b := ptr) (f := fun m => { m with next := ptr2 }) rfl).trans
    (Heap.setMem_magic heap ptr2 fun _ => { magic := heapMagic, used := false, next := heap.next ptr, prev := ptr })
  unfold splitBlock
  dsimp only
  split_ifs
  · exact (Heap.setMem_magic_same rfl).trans hboth
  · exact hboth

theorem splitBlock_prev (h : HeapBlocks cfg heap blocks) (ptr ptr2 : Nat) : (splitBlock cfg heap ptr ptr2).prev =
    if heap.next ptr = heap.heapEnd then update heap.prev ptr2 ptr
    else update (update heap.prev ptr2 ptr) (heap.next ptr) ptr2 := by
  have hboth := (Heap.setMem_prev_same (b := ptr) (f := fun m => { m with next := ptr2 }) rfl).trans
    (Heap.setMem_prev heap ptr2 fun _ => { magic := heapMagic, used := false, next := heap.next ptr, prev := ptr })
  have hend : cfg.add heap.memSizeAligned cfg.sizeofStructMem = heap.heapEnd := by
    have hroom := h.room
    have heq := h.end_eq
    rw [MemConfig.add_eq (by omega), heq]
  unfold splitBlock
  dsimp only
  rw [show ((heap.setMem ptr2 _).setMem ptr _).memSizeAligned = heap.memSizeAligned from rfl, hend]
  by_cases hlast : (heap.mem ptr).next = heap.heapEnd
  · rw [if_pos (show heap.next ptr = _ from hlast), if_neg (not_not.2 hlast)]
    exact hboth
  · rw [if_neg (show ¬ heap.next ptr = _ from hlast), if_pos hlast]
    exact (Heap.setMem_prev ..).trans (congrArg (fun prev : Nat → Nat => update prev (heap.next ptr) ptr2) hboth)

theorem HeapBlocks.split (h : HeapBlocks cfg heap blocks) (hb : ptr ∈ blocks) (hlow : ptr + cfg.sizeofStructMem ≤ ptr2)
    (hhigh : ptr2 + cfg.sizeofStructMem ≤ heap.next ptr) (hdvd : cfg.alignSize ∣ ptr2) :
    HeapBlocks cfg (splitBlock cfg heap ptr ptr2) (insert ptr2 blocks) := by
  have hwidth := cfg.sizeofStructMem_pos
  have hle := h.next_le hb
  have hne : ptr2 ≠ ptr := by omega
  have hnew : ∀ c ∈ blocks, c ≠ ptr2 := by
    rintro c hc rfl
    have := h.tiles.apart ptr hb c hc (by omega)
    omega
  refine h.of_tiles (splitBlock_region ..) ?_ ?_ ?_ ?_
  · refine h.tiles.split hwidth hb hlow hhigh ?_ ?_ ?_ ?_ ?_ ?_ <;> try rw [splitBlock_next]
    · exact update_self ..
    · rw [update_of_ne hne, update_self]
    · intro c hc hcb
      rw [update_of_ne hcb, update_of_ne (hnew c hc)]
    · rw [splitBlock_prev h]
      split_ifs
      · exact update_self ..
      · rw [update_of_ne (by omega), update_self]
    · intro hend
      rw [splitBlock_prev h, if_neg hend, update_self]
    · intro c hc hcn
      rw [splitBlock_prev h]
      split_ifs
      · exact update_of_ne (hnew c hc) ..
      · rw [update_of_ne hcn, update_of_ne (hnew c hc)]
  · rintro c (rfl | hc)
    · exact hdvd
    · exact h.aligned c hc
  · rw [splitBlock_used, update_of_ne (by omega)]
  · rintro c hc
    rw [splitBlock_magic, update_apply]
    split_ifs with hcm
    · rfl
    · exact h.magic c (hc.resolve_left hcm)

end Split

/-! ## Combining -/

theorem combine_region (heap : Heap) (b n : Nat) : SameRegion heap (combine heap b n) := by
  unfold combine
  dsimp only
  split_ifs <;> exact ⟨rfl, rfl, rfl⟩

theorem combine_lfree (heap : Heap) (b n : Nat) :
    (combine heap b n).lfree = if heap.lfree = n then b else heap.lfree := by
  unfold combine
  dsimp only
  split_ifs <;> rfl

theorem combine_mem (heap : Heap) (b n : Nat) : (combine heap b n).mem =
    ((heap.setMem b fun m => { m with next := heap.next n }).setMem (heap.next n) fun m => { m with prev := b }).mem := by
  unfold combine
  dsimp only
  split_ifs <;> rfl

theorem combine_next (heap : Heap) (b n : Nat) :
    (combine heap b n).next = update heap.next b (heap.next n) := by
  have hmem := combine_mem heap b n
  unfold Heap.next at hmem ⊢
  rw [hmem]
  exact (Heap.setMem_next_same rfl).trans (Heap.setMem_next heap b _)

theorem combine_prev (heap : Heap) (b n : Nat) :
    (combine heap b n).prev = update heap.prev (heap.next n) b := by
  have hmem := combine_mem heap b n
  unfold Heap.prev at hmem ⊢
  rw [hmem]
  refine (Heap.setMem_prev ..).trans ?_
  rw [Heap.setMem_prev_same rfl]
  rfl

theorem combine_used (heap : Heap) (b n : Nat) : (combine heap b n).used = heap.used := by
  have hmem := combine_mem heap b n
  unfold Heap.used at hmem ⊢
  rw [hmem]
  exact (Heap.setMem_used_same rfl).trans (Heap.setMem_used_same rfl)

theorem combine_magic (heap : Heap) (b n : Nat) : (combine heap b n).magic = heap.magic := by
  have hmem := combine_mem heap b n
  unfold Heap.magic at hmem ⊢
  rw [hmem]
  exact (Heap.setMem_magic_same rfl).trans (Heap.setMem_magic_same rfl)

theorem HeapBlocks.joined (h : HeapBlocks cfg heap blocks) (hb : b ∈ blocks) (hn : heap.next b ∈ blocks) :
    HeapBlocks cfg (combine heap b (heap.next b)) (blocks \ {heap.next b}) := by
  refine h.of_tiles (combine_region ..) ?_ (fun c hc => h.aligned c hc.1) ?_ fun c hc => ?_
  · refine h.tiles.join cfg.sizeofStructMem_pos hb hn ?_ ?_ ?_ ?_
    · rw [combine_next, update_self]
    · intro c _ hcb
      rw [combine_next, update_of_ne hcb]
    · intro _
      rw [combine_prev, update_self]
    · intro c _ hcn
      rw [combine_prev, update_of_ne hcn]
  · rw [combine_used]
  · rw [combine_magic]
    exact h.magic c hc.1

end RtThread
