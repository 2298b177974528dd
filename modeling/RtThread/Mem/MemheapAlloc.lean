import RtThread.Mem.MemheapCalls

/-!
# Allocation from a memory heap

`rt_memheap_alloc` takes the first block of the free list that is large enough and cuts off what it does not need. What the callers hold is the list of payloads.
-/

namespace RtThread

open Seg

variable {cfg : MemheapConfig} {pool : MemheapPool cfg} {heap heap' : Memheap} {a b c m n ptr size fuel freeSize : Nat}
  {segs l₁ l₂ : List (Seg MemheapTag)} {s t u : Seg MemheapTag} {free F F₁ F₂ : List Nat} {used : Bool}

/-! ## The search -/

variable (cfg) in
theorem memheapSearch_spec (hchain : (F ++ [heap.freeList]).IsChain fun a b => heap.nextFree a = b ∧ heap.prevFree b = a)
    (hheader : ∀ b ∈ F, b ≠ heap.freeList) (hfuel : F.length + 1 < fuel) (hsmall : freeSize < size) :
    (∃ x < size, memheapSearch cfg heap size fuel ((F ++ [heap.freeList]).head (by simp)) freeSize = some (heap.freeList, x) ∧
      ∀ b ∈ F, memitemSize cfg heap b < size) ∨
    ∃ F₁ b F₂, F = F₁ ++ b :: F₂ ∧ size ≤ memitemSize cfg heap b ∧
      memheapSearch cfg heap size fuel ((F ++ [heap.freeList]).head (by simp)) freeSize = some (b, memitemSize cfg heap b) := by
  induction F generalizing fuel freeSize with
  | nil =>
    obtain ⟨fuel, rfl⟩ := Nat.exists_eq_add_one_of_ne_zero (Nat.ne_of_gt (Nat.zero_lt_of_lt hfuel))
    refine .inl ⟨freeSize, hsmall, ?_, by nofun⟩
    rw [memheapSearch, if_neg]
    · rfl
    · exact fun hmore => hmore.1 rfl
  | cons b F ih =>
    obtain ⟨fuel, rfl⟩ := Nat.exists_eq_add_one_of_ne_zero (Nat.ne_of_gt (Nat.zero_lt_of_lt hfuel))
    obtain ⟨fuel, rfl⟩ : ∃ k, fuel = k + 1 := ⟨fuel - 1, by simp at hfuel; omega⟩
    have hb := hheader b List.mem_cons_self
    obtain ⟨hnext, hrest⟩ : heap.nextFree b = (F ++ [heap.freeList]).head (by simp) ∧
        (F ++ [heap.freeList]).IsChain fun a b => heap.nextFree a = b ∧ heap.prevFree b = a := by
      cases F with
      | nil => exact ⟨(List.isChain_cons_cons.1 hchain).1.1, (List.isChain_cons_cons.1 hchain).2⟩
      | cons c F => exact ⟨(List.isChain_cons_cons.1 hchain).1.1, (List.isChain_cons_cons.1 hchain).2⟩
    have hfirst : memheapSearch cfg heap size (fuel + 1 + 1) b freeSize =
        memheapSearch cfg heap size (fuel + 1)
          (if memitemSize cfg heap b < size then heap.nextFree b else b) (memitemSize cfg heap b) := by
      rw [memheapSearch, if_pos ⟨hb, hsmall⟩]
      rfl
    have hhead : (b :: F ++ [heap.freeList]).head (by simp) = b := rfl
    rw [hhead, hfirst]
    by_cases hless : memitemSize cfg heap b < size
    · rw [if_pos hless, hnext]
      have hfuel' : F.length + 1 < fuel + 1 := by simp at hfuel; omega
      rcases ih hrest (fun c hc => hheader c (List.mem_cons_of_mem b hc)) hfuel' hless with
        ⟨x, hx, hfound, hall⟩ | ⟨F₁, c, F₂, rfl, hc, hfound⟩
      · refine .inl ⟨x, hx, hfound, fun c hc => ?_⟩
        rcases List.mem_cons.1 hc with rfl | hc
        · exact hless
        · exact hall c hc
      · exact .inr ⟨b :: F₁, c, F₂, rfl, hc, hfound⟩
    · rw [if_neg hless]
      refine .inr ⟨[], b, F, rfl, not_lt.1 hless, ?_⟩
      rw [memheapSearch, if_neg fun hmore => hless hmore.2]

theorem MemheapInv.search (h : MemheapInv pool heap segs free) (hsize : 0 < size) :
    (∃ x < size, memheapSearch cfg heap size (heap.poolSize + 2) (heap.nextFree heap.freeList) 0 = some (heap.freeList, x) ∧
      ∀ l₁ s l₂, segs = l₁ ++ s :: l₂ → s.tag.used = false → s.size < size) ∨
    ∃ l₁ s l₂ F₁ F₂, segs = l₁ ++ s :: l₂ ∧ s.tag.used = false ∧ size ≤ s.size ∧
      free = F₁ ++ (pool.startAddr + width cfg.headSize l₁) :: F₂ ∧
      memheapSearch cfg heap size (heap.poolSize + 2) (heap.nextFree heap.freeList) 0 =
        some (pool.startAddr + width cfg.headSize l₁, s.size) := by
  have hchain : (free ++ [heap.freeList]).IsChain fun a b => heap.nextFree a = b ∧ heap.prevFree b = a := by
    have hchain := h.list.chain
    cases free with
    | nil => exact (List.isChain_cons_cons.1 hchain).2
    | cons c F => exact (List.isChain_cons_cons.1 hchain).2
  have hheader : ∀ b ∈ free, b ≠ heap.freeList := fun b hb heq => (List.nodup_cons.1 h.list.nodup).1 (heq ▸ hb)
  have hlength : free.length + 1 < heap.poolSize + 2 := by
    have hle : segs.length ≤ width cfg.headSize segs := length_le_width cfg.headSize_pos
    have hle' : (freeAddrs cfg pool.startAddr segs).length ≤ segs.length := length_addrs_le
    have heq := h.tiled.tailer_eq
    have hadd := pool.tailer_add
    rw [h.perm.length_eq, h.fixed.poolSize]
    omega
  rw [h.list.next_header]
  rcases memheapSearch_spec cfg hchain hheader hlength hsize with ⟨x, hx, hfound, hall⟩ | ⟨F₁, b, F₂, rfl, hb, hfound⟩
  · refine .inl ⟨x, hx, hfound, fun l₁ s l₂ heq hs => ?_⟩
    have hmem : pool.startAddr + width cfg.headSize l₁ ∈ free :=
      h.perm.mem_iff.2 (mem_freeAddrs.2 ⟨l₁, s, l₂, heq, hs, rfl⟩)
    have hless := hall _ hmem
    have htiled := h.tiled
    rw [heq] at htiled
    rwa [htiled.memitemSize_eq rfl] at hless
  · obtain ⟨l₁, s, l₂, rfl, hs, rfl⟩ := mem_freeAddrs.1 (h.perm.mem_iff.1 (List.mem_append_right F₁ List.mem_cons_self))
    rw [h.tiled.memitemSize_eq rfl] at hb hfound
    exact .inr ⟨l₁, s, l₂, F₁, F₂, rfl, hs, hb, rfl, hfound⟩

/-! ## Taking a block -/

section

variable (h : MemheapInv pool heap (l₁ ++ s :: l₂) (F₁ ++ m :: F₂)) (hs : s.tag.used = false)
  (hm : m = pool.startAddr + width cfg.headSize l₁)

include h hs hm

theorem MemheapInv.perm_rest :
    (F₁ ++ F₂).Perm (freeAddrs cfg pool.startAddr l₁ ++ freeAddrs cfg (m + (cfg.headSize + s.size)) l₂) := by
  have hperm := h.perm
  rw [freeAddrs_mid, hs, ← hm, if_neg Bool.false_ne_true, List.singleton_append] at hperm
  exact (List.perm_middle.symm.trans (hperm.trans List.perm_middle)).cons_inv

theorem MemheapInv.notMem_rest (hlow : m ≤ a) (hhigh : a < m + (cfg.headSize + s.size)) :
    a ∉ heap.freeList :: (F₁ ++ F₂) := by
  have hpos := cfg.headSize_pos
  have hle := h.tiled.le_tailer hm
  have hadd := pool.tailer_add
  have hout := pool.outside
  rw [h.fixed.freeList]
  intro hmem
  rcases List.mem_cons.1 hmem with heq | hmem
  · unfold MemheapPool.poolSize at hadd
    omega
  · rcases List.mem_append.1 ((h.perm_rest hs hm).mem_iff.1 hmem) with hmem | hmem
    · have := le_of_mem_addrs hmem
      omega
    · have := le_of_mem_addrs hmem
      omega

theorem MemheapInv.allocSplit (hroom : size + cfg.headSize ≤ s.size) :
    MemheapInv pool ((memheapAllocSplit cfg heap m size).setItem m fun i => { i with used := true })
      (l₁ ++ ⟨size, pool.tag true⟩ :: ⟨s.size - size - cfg.headSize, pool.tag false⟩ :: l₂)
      ((m + (cfg.headSize + size)) :: (F₁ ++ F₂)) := by
  have hpos := cfg.headSize_pos
  have hle := h.tiled.le_tailer hm
  have hlt := pool.tailer_lt
  have hnew : add32 (add32 m size) cfg.headSize = m + (cfg.headSize + size) := by
    rw [add32_eq (by omega : m + size < 2 ^ 32), add32_eq (by omega)]
    omega
  obtain ⟨hleft, hright, hlast⟩ := coalesced_mid.1 h.coalesced
  obtain ⟨hright, hhead⟩ := coalesced_cons.1 hright
  have hnone : ¬ s.tag.used = true := by rw [hs]; exact Bool.false_ne_true
  have hbytes : heap.availableSize = freeBytes l₁ + (s.size + freeBytes l₂) := by
    rw [h.available, freeBytes_append, freeBytes_cons, if_neg hnone]
  have hbound := h.tiled.freeBytes_lt
  rw [← h.available] at hbound
  unfold memheapAllocSplit
  dsimp only
  rw [hnew]
  have htiled := h.tiled.insertBlock h.fixed.self hm hroom rfl
  have hlist : FreeList ((heap.newItem (m + (cfg.headSize + size))).insertBlock m (m + (cfg.headSize + size))) (F₁ ++ m :: F₂) :=
    h.list.congr (sameFreeLinks_newItem.trans sameFreeLinks_insertBlock) rfl
  have hfixed : MemheapFixed pool ((heap.newItem (m + (cfg.headSize + size))).insertBlock m (m + (cfg.headSize + size))) :=
    h.fixed.newItem.insertBlock
  have havailable : ((heap.newItem (m + (cfg.headSize + size))).insertBlock m (m + (cfg.headSize + size))).availableSize =
      heap.availableSize := rfl
  generalize (heap.newItem (m + (cfg.headSize + size))).insertBlock m (m + (cfg.headSize + size)) = heap₁ at *
  have hheader : heap₁.freeList = heap.freeList := hfixed.freeList.trans h.fixed.freeList.symm
  have hout : m ∉ heap₁.freeList :: (F₁ ++ F₂) := by
    rw [hheader]
    exact h.notMem_rest hs hm (Nat.le_refl m) (by omega)
  have hout' : m + (cfg.headSize + size) ∉ heap₁.freeList :: (F₁ ++ F₂) := by
    rw [hheader]
    exact h.notMem_rest hs hm (by omega) (by omega)
  have hlist' := FreeList.insertFree (FreeList.clearFree (FreeList.removeFree hlist) hout) hout'
  have hsame : SameBlockLinks heap₁ (((heap₁.removeFree m).clearFree m).insertFree (m + (cfg.headSize + size))) :=
    (sameBlockLinks_removeFree.trans sameBlockLinks_clearFree).trans sameBlockLinks_insertFree
  refine ⟨hfixed.removeFree.clearFree.insertFree.setAvailable.setItem, ((htiled.congr hsame).congr sameBlockLinks_setAvailable).mark hm true, ?_, ?_, ?_, ?_⟩
  · refine coalesced_mid.2 ⟨hleft, coalesced_cons.2 ⟨coalesced_cons.2 ⟨hright, .inr ?_⟩, .inl rfl⟩, .inl rfl⟩
    exact hhead.resolve_left hnone
  · exact FreeList.congr (FreeList.congr hlist' sameFreeLinks_setAvailable Memheap.setAvailable_freeList)
      (.setItem .refl fun _ => ⟨rfl, rfl⟩) Memheap.setItem_freeList
  · rw [freeAddrs_mid, freeAddrs_cons, ← hm]
    dsimp only
    have hend : m + (cfg.headSize + size) + (cfg.headSize + (s.size - size - cfg.headSize)) = m + (cfg.headSize + s.size) := by
      omega
    rw [hend]
    refine ((h.perm_rest hs hm).cons (m + (cfg.headSize + size))).trans ?_
    exact List.perm_middle.symm
  · rw [Memheap.setItem_availableSize, Memheap.setAvailable_availableSize, Memheap.insertFree_availableSize,
      Memheap.clearFree_availableSize, Memheap.removeFree_availableSize, havailable]
    simp only [freeBytes_append, freeBytes_cons, MemheapPool.tag, Bool.false_eq_true, if_true, if_false]
    rw [sub32_eq (by omega : size ≤ heap.availableSize) hbound, sub32_eq (by omega) (by omega)]
    omega

theorem MemheapInv.allocWhole :
    MemheapInv pool ((memheapAllocWhole heap m s.size).setItem m fun i => { i with used := true })
      (l₁ ++ ⟨s.size, pool.tag true⟩ :: l₂) (F₁ ++ F₂) := by
  have hpos := cfg.headSize_pos
  obtain ⟨hleft, hright, -⟩ := coalesced_mid.1 h.coalesced
  obtain ⟨hright, -⟩ := coalesced_cons.1 hright
  have hnone : ¬ s.tag.used = true := by rw [hs]; exact Bool.false_ne_true
  have hbytes : heap.availableSize = freeBytes l₁ + (s.size + freeBytes l₂) := by
    rw [h.available, freeBytes_append, freeBytes_cons, if_neg hnone]
  have hbound := h.tiled.freeBytes_lt
  rw [← h.available] at hbound
  have hout := h.notMem_rest hs hm (Nat.le_refl m) (by omega)
  have hlist : FreeList (heap.setAvailable (sub32 heap.availableSize s.size)) (F₁ ++ m :: F₂) :=
    h.list.congr sameFreeLinks_setAvailable Memheap.setAvailable_freeList
  have hsame : SameBlockLinks heap (memheapAllocWhole heap m s.size) :=
    (sameBlockLinks_setAvailable.trans sameBlockLinks_removeFree).trans sameBlockLinks_clearFree
  have hlist' : FreeList (memheapAllocWhole heap m s.size) (F₁ ++ F₂) := by
    refine FreeList.clearFree (FreeList.removeFree hlist) ?_
    rwa [Memheap.removeFree_freeList, Memheap.setAvailable_freeList]
  refine ⟨h.fixed.setAvailable.removeFree.clearFree.setItem, (h.tiled.congr hsame).mark hm true, ?_, ?_, ?_, ?_⟩
  · exact coalesced_mid.2 ⟨hleft, coalesced_cons.2 ⟨hright, .inl rfl⟩, .inl rfl⟩
  · exact FreeList.congr hlist' (.setItem .refl fun _ => ⟨rfl, rfl⟩) Memheap.setItem_freeList
  · rw [freeAddrs_mid, ← hm]
    exact h.perm_rest hs hm
  · rw [memheapAllocWhole, Memheap.setItem_availableSize, Memheap.clearFree_availableSize, Memheap.removeFree_availableSize,
      Memheap.setAvailable_availableSize]
    simp only [freeBytes_append, freeBytes_cons, MemheapPool.tag, if_true]
    rw [sub32_eq (by omega) hbound]
    omega

end

theorem MemheapInv.alloc (h : MemheapInv pool heap segs free) (size : Nat) :
    (rtMemheapAlloc cfg heap size = some (heap, none) ∧ (heap.availableSize ≤ cfg.itemSize size ∨
      ∀ l₁ s l₂, segs = l₁ ++ s :: l₂ → s.tag.used = false → s.size < cfg.itemSize size)) ∨
    ∃ heap' ptr segs' free', rtMemheapAlloc cfg heap size = some (heap', some ptr) ∧ MemheapInv pool heap' segs' free' ∧
      (payloads cfg pool.startAddr segs').Perm (ptr :: payloads cfg pool.startAddr segs) ∧
      cfg.itemSize size < heap.availableSize ∧
      ∃ l₁ s l₂, segs = l₁ ++ s :: l₂ ∧ s.tag.used = false ∧ cfg.itemSize size ≤ s.size := by
  have hmin := cfg.le_itemSize size
  unfold rtMemheapAlloc
  dsimp only
  generalize cfg.itemSize size = size at *
  by_cases hless : size < heap.availableSize
  · rw [if_pos hless, show (heap.item heap.freeList).nextFree = heap.nextFree heap.freeList from rfl]
    have hsize : 0 < size := by omega
    rcases h.search hsize with ⟨x, hx, hfound, hall⟩ | ⟨l₁, s, l₂, F₁, F₂, rfl, hs, hfits, rfl, hfound⟩
    · rw [hfound]
      exact .inl ⟨if_neg (by omega), .inr hall⟩
    · rw [hfound]
      dsimp only
      have hle := h.tiled.le_tailer rfl
      have hlt := pool.tailer_lt
      have hptr : add32 (pool.startAddr + width cfg.headSize l₁) cfg.headSize =
          pool.startAddr + width cfg.headSize l₁ + cfg.headSize := add32_eq (by omega)
      have hheld : payloads cfg pool.startAddr (l₁ ++ s :: l₂) = payloads cfg pool.startAddr l₁ ++
          payloads cfg (pool.startAddr + width cfg.headSize l₁ + (cfg.headSize + s.size)) l₂ := by
        rw [payloads_mid, hs, if_neg Bool.false_ne_true, List.nil_append]
      have hneed : add32 (add32 size cfg.headSize) 12 = size + cfg.headSize + 12 := by
        have hadd := pool.tailer_add
        have hfit := pool.fits
        have hhead := cfg.le_headSize
        unfold MemheapPool.poolSize at hadd
        rw [add32_eq (by omega : size + cfg.headSize < 2 ^ 32), add32_eq (by omega)]
      rw [if_pos hfits, hneed, hptr, hheld]
      split_ifs with hsplit
      · refine .inr ⟨_, _, _, _, rfl, h.allocSplit hs rfl (by omega), ?_, hless, l₁, s, l₂, rfl, hs, hfits⟩
        have hend : pool.startAddr + width cfg.headSize l₁ + (cfg.headSize + size) +
            (cfg.headSize + (s.size - size - cfg.headSize)) =
              pool.startAddr + width cfg.headSize l₁ + (cfg.headSize + s.size) := by omega
        rw [payloads_mid, payloads_cons]
        dsimp only
        rw [hend]
        exact List.perm_middle
      · refine .inr ⟨_, _, _, _, rfl, h.allocWhole hs rfl, ?_, hless, l₁, s, l₂, rfl, hs, hfits⟩
        rw [payloads_mid]
        exact List.perm_middle
  · rw [if_neg hless]
    exact .inl ⟨rfl, .inl (not_lt.1 hless)⟩

end RtThread
