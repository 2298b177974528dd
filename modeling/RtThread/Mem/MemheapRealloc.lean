import RtThread.Mem.MemheapAlloc

/-!
# Release to a memory heap, and change of size

`rt_memheap_realloc` takes what it needs from the free block behind, or cuts off what is no longer needed, or moves the contents to another block.
-/

namespace RtThread

open Seg

variable {cfg : MemheapConfig} {pool : MemheapPool cfg} {heap heap' : Memheap} {a b c m n ptr size newsize : Nat}
  {segs l₁ l₂ : List (Seg MemheapTag)} {s t u : Seg MemheapTag} {free F₁ F₂ : List Nat} {live : List Nat} {held : Option Nat}

/-! ## Release -/

theorem rtMemheapFree_eq (cfg : MemheapConfig) (heap : Memheap) (ptr : Nat) : rtMemheapFree cfg heap (some ptr) =
    if (heap.item (sub32 ptr cfg.headSize)).magic = memheapMagic ∧ (heap.item (sub32 ptr cfg.headSize)).used = true ∧
        (heap.item (heap.item (sub32 ptr cfg.headSize)).next).magic = memheapMagic ∧
        (heap.item (sub32 ptr cfg.headSize)).poolPtr = heap.self then
      some (memheapRelease cfg (memheapMarkFree cfg heap (sub32 ptr cfg.headSize)) (sub32 ptr cfg.headSize))
    else none := by
  rw [rtMemheapFree]
  generalize sub32 ptr cfg.headSize = m
  refine if_congr Iff.rfl ?_ rfl
  unfold memheapMarkFree
  extract_lets heap₁ heap₂
  clear_value heap₁
  have hheap₂ : heap₂ = { heap₁ with availableSize := add32 heap₁.availableSize (memitemSize cfg heap₁ m) } := rfl
  rw [← hheap₂]
  clear_value heap₂
  unfold memheapRelease
  generalize memheapMergeLeft cfg heap₂ m = r
  obtain ⟨heap₃, header, merged⟩ := r
  rfl

theorem MemheapInv.release (h : MemheapInv pool heap segs free) (hptr : ptr ∈ payloads cfg pool.startAddr segs) :
    ∃ heap' segs' free', rtMemheapFree cfg heap (some ptr) = some heap' ∧ MemheapInv pool heap' segs' free' ∧
      (payloads cfg pool.startAddr segs).Perm (ptr :: payloads cfg pool.startAddr segs') := by
  obtain ⟨l₁, s, l₂, rfl, hs, hheader, hsum⟩ := h.place hptr
  have htag := h.tiled.tag_eq hheader
  have hnext := h.tiled.tag_next hheader
  obtain ⟨hopen, havailable⟩ := memheapMarkFree_open h hs hheader
  obtain ⟨k₁, x, k₂, free', hinv, hpay⟩ := memheapRelease_spec hopen havailable
  have hused : (heap.item (sub32 ptr cfg.headSize)).used = true := (congrArg MemheapTag.used htag).trans hs
  refine ⟨_, _, free', ?_, hinv, ?_⟩
  · rw [rtMemheapFree_eq]
    refine if_pos ⟨congrArg MemheapTag.magic htag, hused, congrArg MemheapTag.magic hnext, ?_⟩
    exact (congrArg MemheapTag.poolPtr htag).trans h.fixed.self.symm
  · rw [hpay, payloads_mid, hs, if_pos rfl, ← hheader, ← hsum]
    exact List.perm_middle

theorem MemheapInv.free_held (h : MemheapInv pool heap segs free) (hlive : live.Perm (payloads cfg pool.startAddr segs))
    (hheld : ∀ p ∈ held, p ∈ live) :
    ∃ heap' segs' free', rtMemheapFree cfg heap held = some heap' ∧ MemheapInv pool heap' segs' free' ∧
      (held.elim live live.erase).Perm (payloads cfg pool.startAddr segs') := by
  cases held with
  | none => exact ⟨heap, segs, free, rfl, h, hlive⟩
  | some ptr =>
    have hmem := hheld ptr rfl
    obtain ⟨heap', segs', free', hfree, hinv, hpay⟩ := h.release (hlive.mem_iff.1 hmem)
    refine ⟨heap', segs', free', hfree, hinv, ?_⟩
    have hall := (List.perm_cons_erase hmem).symm.trans (hlive.trans hpay)
    exact hall.cons_inv

/-! ## Growing into the next block -/

def unlinkBlock (heap : Memheap) (next : Nat) : Memheap :=
  let heap := heap.setItem (heap.item next).next fun i => { i with prev := (heap.item next).prev }
  heap.setItem (heap.item next).prev fun i => { i with next := (heap.item next).next }

theorem sameFreeLinks_unlinkBlock : SameFreeLinks heap (unlinkBlock heap n) := by
  dsimp only [unlinkBlock]
  refine .setItem (.setItem .refl ?_) ?_
  all_goals exact fun _ => ⟨rfl, rfl⟩

theorem MemheapFixed.unlinkBlock (h : MemheapFixed pool heap) : MemheapFixed pool (unlinkBlock heap n) :=
  ⟨h.self, h.poolSize, h.freeList⟩

theorem unlinkBlock_availableSize : (unlinkBlock heap n).availableSize = heap.availableSize := rfl

theorem MemheapTiled.unlinkBlock (h : MemheapTiled pool heap (l₁ ++ s :: t :: l₂))
    (hm : m = pool.startAddr + width cfg.headSize l₁) :
    MemheapTiled pool (unlinkBlock heap (m + (cfg.headSize + s.size))) (l₁ ++ ⟨s.size + cfg.headSize + t.size, s.tag⟩ :: l₂) := by
  have hpos := cfg.headSize_pos
  have hnext := h.next_eq hm
  have hprev : (heap.item (m + (cfg.headSize + s.size))).prev = m := h.prev_eq hm
  have hsecond : MemheapTiled pool heap ((l₁ ++ [s]) ++ t :: l₂) := by rwa [List.append_assoc]
  have hm' : m + (cfg.headSize + s.size) = pool.startAddr + width cfg.headSize (l₁ ++ [s]) := by
    rw [width_append, width_cons, width_nil]
    omega
  have hnext' : (heap.item (m + (cfg.headSize + s.size))).next = m + (cfg.headSize + s.size) + (cfg.headSize + t.size) :=
    hsecond.next_eq hm'
  have hne : m + (cfg.headSize + s.size) ≠ m + (cfg.headSize + s.size) + (cfg.headSize + t.size) := by omega
  have hkept : ((heap.setItem (m + (cfg.headSize + s.size) + (cfg.headSize + t.size)) fun i => { i with prev := m }).item
      (m + (cfg.headSize + s.size))) = heap.item (m + (cfg.headSize + s.size)) := Function.update_of_ne hne ..
  have hend : heap.next (heap.next m) = m + (cfg.headSize + s.size) + (cfg.headSize + t.size) := by
    rw [hnext]
    exact hnext'
  unfold RtThread.unlinkBlock
  dsimp only
  rw [hnext', hprev, hkept, hprev, hnext']
  refine h.join hm ?_ ?_ ?_
  · rw [Memheap.setItem_next, Memheap.setItem_next_same rfl, hend]
  · rw [Memheap.setItem_prev_same rfl, Memheap.setItem_prev, hend]
  · rw [Memheap.setItem_tag_same rfl rfl rfl, Memheap.setItem_tag_same rfl rfl rfl]

theorem memheapGrow_eq : memheapGrow heap ptr m size newsize =
    (((unlinkBlock ((heap.setAvailable (sub32 heap.availableSize (sub32 newsize size))).removeFree (heap.item m).next)
      (heap.item m).next).newItem (add32 ptr newsize)).insertBlock m (add32 ptr newsize)).insertFree (add32 ptr newsize) := by
  unfold memheapGrow
  rfl

theorem MemheapInv.grow (h : MemheapInv pool heap (l₁ ++ s :: t :: l₂) (F₁ ++ (m + (cfg.headSize + s.size)) :: F₂))
    (hs : s.tag.used = true) (ht : t.tag.used = false) (hm : m = pool.startAddr + width cfg.headSize l₁)
    (hmore : s.size < newsize) (hfits : newsize + 12 < t.size + s.size) :
    MemheapInv pool (memheapGrow heap (m + cfg.headSize) m s.size newsize)
      (l₁ ++ ⟨newsize, s.tag⟩ :: ⟨s.size + cfg.headSize + t.size - newsize - cfg.headSize, pool.tag false⟩ :: l₂)
      ((m + (cfg.headSize + newsize)) :: (F₁ ++ F₂)) := by
  have hpos := cfg.headSize_pos
  have hlt := pool.tailer_lt
  have hsecond : MemheapInv pool heap ((l₁ ++ [s]) ++ t :: l₂) (F₁ ++ (m + (cfg.headSize + s.size)) :: F₂) := by
    rwa [List.append_assoc]
  have hm' : m + (cfg.headSize + s.size) = pool.startAddr + width cfg.headSize (l₁ ++ [s]) := by
    rw [width_append, width_cons, width_nil]
    omega
  have hle := hsecond.tiled.le_tailer hm'
  have hperm := hsecond.perm_rest ht hm'
  have hout := hsecond.notMem_rest ht hm' (a := m + (cfg.headSize + newsize)) (by omega) (by omega)
  have hnew : add32 (m + cfg.headSize) newsize = m + (cfg.headSize + newsize) := by
    rw [add32_eq (by omega)]
    omega
  obtain ⟨hleft, hright, -⟩ := coalesced_mid.1 h.coalesced
  obtain ⟨hright, hhead⟩ := coalesced_cons.1 (coalesced_cons.1 hright).1
  have hbytes : heap.availableSize = freeBytes l₁ + (t.size + freeBytes l₂) := by
    rw [h.available, freeBytes_append, freeBytes_cons, freeBytes_cons, hs, ht, if_pos rfl, if_neg Bool.false_ne_true, Nat.zero_add]
  have hbound := h.tiled.freeBytes_lt
  rw [← h.available] at hbound
  have hnext : (heap.item m).next = m + (cfg.headSize + s.size) := h.tiled.next_eq hm
  rw [memheapGrow_eq, hnext, hnew]
  generalize hnewsize : sub32 heap.availableSize (sub32 newsize s.size) = available
  have hlist : FreeList (heap.setAvailable available) (F₁ ++ (m + (cfg.headSize + s.size)) :: F₂) :=
    h.list.congr sameFreeLinks_setAvailable Memheap.setAvailable_freeList
  have htiled := (h.tiled.congr (sameBlockLinks_setAvailable (n := available))).congr
    (sameBlockLinks_removeFree (b := m + (cfg.headSize + s.size)))
  have hfixed : MemheapFixed pool ((heap.setAvailable available).removeFree (m + (cfg.headSize + s.size))) :=
    h.fixed.setAvailable.removeFree
  have havailable : ((heap.setAvailable available).removeFree (m + (cfg.headSize + s.size))).availableSize = available := by
    rw [Memheap.removeFree_availableSize, Memheap.setAvailable_availableSize]
  have hlist := FreeList.removeFree hlist
  have hheader := hfixed.freeList.trans h.fixed.freeList.symm
  generalize (heap.setAvailable available).removeFree (m + (cfg.headSize + s.size)) = heap₁ at *
  have hunlink := htiled.unlinkBlock hm
  have hfixed' : MemheapFixed pool (unlinkBlock heap₁ (m + (cfg.headSize + s.size))) := hfixed.unlinkBlock
  have hlist' : FreeList (unlinkBlock heap₁ (m + (cfg.headSize + s.size))) (F₁ ++ F₂) :=
    FreeList.congr hlist sameFreeLinks_unlinkBlock (hfixed'.freeList.trans hfixed.freeList.symm)
  have havailable' : (unlinkBlock heap₁ (m + (cfg.headSize + s.size))).availableSize = available :=
    unlinkBlock_availableSize.trans havailable
  have hheader' := hfixed'.freeList.trans h.fixed.freeList.symm
  generalize unlinkBlock heap₁ (m + (cfg.headSize + s.size)) = heap₂ at *
  have hroom : newsize + cfg.headSize ≤ s.size + cfg.headSize + t.size := by omega
  have hcut := hunlink.insertBlock hfixed'.self hm hroom rfl
  have hlist₃ : FreeList ((heap₂.newItem (m + (cfg.headSize + newsize))).insertBlock m (m + (cfg.headSize + newsize))) (F₁ ++ F₂) :=
    FreeList.congr hlist' (sameFreeLinks_newItem.trans sameFreeLinks_insertBlock)
      (Memheap.insertBlock_freeList.trans Memheap.newItem_freeList)
  refine ⟨hfixed'.newItem.insertBlock.insertFree, hcut.congr sameBlockLinks_insertFree, ?_, FreeList.insertFree hlist₃ ?_, ?_, ?_⟩
  · exact coalesced_mid.2 ⟨hleft, coalesced_cons.2 ⟨coalesced_cons.2 ⟨hright, .inr (hhead.resolve_left (by rw [ht]; exact Bool.false_ne_true))⟩, .inl hs⟩, .inl hs⟩
  · rw [Memheap.insertBlock_freeList, Memheap.newItem_freeList, hheader']
    exact hout
  · rw [freeAddrs_mid, freeAddrs_cons, ← hm, hs]
    dsimp only
    have hend : m + (cfg.headSize + newsize) + (cfg.headSize + (s.size + cfg.headSize + t.size - newsize - cfg.headSize)) =
        m + (cfg.headSize + s.size) + (cfg.headSize + t.size) := by omega
    rw [hend]
    rw [freeAddrs_mid, hs, freeAddrs_nil, if_pos rfl, List.append_nil, List.append_nil] at hperm
    refine (hperm.cons (m + (cfg.headSize + newsize))).trans ?_
    exact List.perm_middle.symm
  · rw [Memheap.insertFree_availableSize, Memheap.insertBlock_availableSize, Memheap.newItem_availableSize, havailable', ← hnewsize]
    simp only [freeBytes_append, freeBytes_cons, hs, MemheapPool.tag, Bool.false_eq_true, if_true, if_false]
    rw [sub32_eq (by omega : s.size ≤ newsize) (by omega), sub32_eq (by omega) hbound]
    omega

/-! ## Cutting off the rest -/

theorem memheapShrinkMerge_spec (h : MemheapOpen pool heap l₁ s l₂ m false free)
    (havailable : heap.availableSize + s.size = freeBytes (l₁ ++ s :: l₂)) :
    ∃ x k₂ free', MemheapOpen pool (memheapShrinkMerge cfg heap m) l₁ x k₂ m false free' ∧ HeadUsed k₂ ∧
      (memheapShrinkMerge cfg heap m).availableSize + x.size = freeBytes (l₁ ++ x :: k₂) ∧
      payloads cfg (m + (cfg.headSize + x.size)) k₂ = payloads cfg (m + (cfg.headSize + s.size)) l₂ := by
  have htag := h.tiled.tag_next h.place
  have hused : (heap.item (heap.item m).next).used = l₂.head?.elim true fun t => t.tag.used :=
    congrArg MemheapTag.used htag
  unfold memheapShrinkMerge
  dsimp only
  rw [hused]
  cases l₂ with
  | nil => exact ⟨s, [], free, by rw [if_neg (by simp)]; exact ⟨h, by simp [HeadUsed], havailable, rfl⟩⟩
  | cons t l₂ =>
    rw [List.head?_cons, Option.elim_some]
    by_cases ht : t.tag.used = false
    · rw [if_pos ht]
      have hsecond : MemheapTiled pool heap ((l₁ ++ [s]) ++ t :: l₂) := by
        rw [List.append_assoc]
        exact h.tiled
      have hm : (heap.item m).next = pool.startAddr + width cfg.headSize (l₁ ++ [s]) := by
        have hnext : (heap.item m).next = m + (cfg.headSize + s.size) := h.tiled.next_eq h.place
        rw [hnext, h.place, width_append, width_cons, width_nil]
        omega
      rw [hsecond.memitemSize_eq hm]
      obtain ⟨free', hopen, hhead⟩ := (h.withAvailable (sub32 heap.availableSize t.size)).absorbNext ht
      refine ⟨⟨s.size + cfg.headSize + t.size, s.tag⟩, l₂, free', hopen, hhead, ?_, ?_⟩
      · have hbound := h.tiled.freeBytes_lt
        simp only [freeBytes_append, freeBytes_cons, ht, h.unused, Bool.false_eq_true, if_false] at havailable hbound ⊢
        have hsub : sub32 heap.availableSize t.size = heap.availableSize - t.size := sub32_eq (by omega) (by omega)
        show sub32 heap.availableSize t.size + (s.size + cfg.headSize + t.size) = _
        omega
      · rw [payloads_cons, ht, if_neg Bool.false_ne_true, List.nil_append]
        dsimp only
        congr 1
        omega
    · rw [if_neg ht]
      rw [Bool.not_eq_false] at ht
      exact ⟨s, _, free, h, headUsed_cons.2 ht, havailable, rfl⟩

theorem MemheapInv.shrink (h : MemheapInv pool heap (l₁ ++ s :: l₂) free) (hs : s.tag.used = true)
    (hm : m = pool.startAddr + width cfg.headSize l₁) (hless : newsize + cfg.headSize ≤ s.size) :
    ∃ segs' free', MemheapInv pool (memheapShrink cfg heap m newsize) segs' free' ∧
      payloads cfg pool.startAddr segs' = payloads cfg pool.startAddr (l₁ ++ s :: l₂) := by
  have hpos := cfg.headSize_pos
  have hle := h.tiled.le_tailer hm
  have hlt := pool.tailer_lt
  have hnew : add32 (add32 m newsize) cfg.headSize = m + (cfg.headSize + newsize) := by
    rw [add32_eq (by omega : m + newsize < 2 ^ 32), add32_eq (by omega)]
    omega
  unfold memheapShrink
  dsimp only
  rw [hnew]
  have hcut := h.tiled.insertBlock h.fixed.self hm hless rfl
  have hlist : FreeList ((heap.newItem (m + (cfg.headSize + newsize))).insertBlock m (m + (cfg.headSize + newsize))) free :=
    h.list.congr (sameFreeLinks_newItem.trans sameFreeLinks_insertBlock)
      (Memheap.insertBlock_freeList.trans Memheap.newItem_freeList)
  have hfixed : MemheapFixed pool ((heap.newItem (m + (cfg.headSize + newsize))).insertBlock m (m + (cfg.headSize + newsize))) :=
    h.fixed.newItem.insertBlock
  have havailable : ((heap.newItem (m + (cfg.headSize + newsize))).insertBlock m (m + (cfg.headSize + newsize))).availableSize =
      heap.availableSize := Memheap.insertBlock_availableSize.trans Memheap.newItem_availableSize
  generalize (heap.newItem (m + (cfg.headSize + newsize))).insertBlock m (m + (cfg.headSize + newsize)) = heap₁ at *
  obtain ⟨hleft, hright, -⟩ := coalesced_mid.1 h.coalesced
  obtain ⟨hright, -⟩ := coalesced_cons.1 hright
  have hplace : m + (cfg.headSize + newsize) = pool.startAddr + width cfg.headSize (l₁ ++ [⟨newsize, s.tag⟩]) := by
    rw [width_append, width_cons, width_nil, hm]
    dsimp only
    omega
  have hend : m + (cfg.headSize + newsize) + (cfg.headSize + (s.size - newsize - cfg.headSize)) = m + (cfg.headSize + s.size) := by
    omega
  have hopen : MemheapOpen pool heap₁ (l₁ ++ [⟨newsize, s.tag⟩]) ⟨s.size - newsize - cfg.headSize, pool.tag false⟩ l₂
      (m + (cfg.headSize + newsize)) false free := by
    refine ⟨hfixed, ?_, hplace, rfl, hlist, ?_, coalesced_mid.2 ⟨hleft, List.isChain_singleton _, .inl hs⟩, hright⟩
    · rw [List.append_assoc]
      exact hcut
    · have hperm := h.perm
      rw [freeAddrs_mid, hs, if_pos rfl, List.nil_append, ← hm] at hperm
      rw [freeAddrs_mid, hs, if_pos rfl, freeAddrs_nil, List.append_nil, List.append_nil]
      dsimp only
      rw [hend]
      exact hperm
  have hbytes : heap₁.availableSize + (s.size - newsize - cfg.headSize) =
      freeBytes ((l₁ ++ [⟨newsize, s.tag⟩]) ++ ⟨s.size - newsize - cfg.headSize, pool.tag false⟩ :: l₂) := by
    rw [havailable, h.available]
    simp only [freeBytes_append, freeBytes_cons, freeBytes_nil, hs, MemheapPool.tag, Bool.false_eq_true, if_true, if_false]
    omega
  obtain ⟨x, k₂, free', hmerged, hhead, hbytes', hpay⟩ := memheapShrinkMerge_spec hopen hbytes
  have hentered := hmerged.insertFree
  have hsize := hentered.tiled.memitemSize_eq hentered.place
  have hbound := hentered.tiled.freeBytes_lt
  refine ⟨_, _, (hentered.withAvailable _).close (lastUsed_concat.2 hs) hhead ?_, ?_⟩
  · rw [hsize]
    show add32 (memheapShrinkMerge cfg heap₁ (m + (cfg.headSize + newsize))).availableSize x.size = _
    rw [add32_eq (by omega), hbytes']
  · rw [payloads_mid, payloads_mid, payloads_mid, hs, hmerged.unused, if_pos rfl, if_neg Bool.false_ne_true, List.nil_append, ← hmerged.place, hpay,
      payloads_nil, List.append_nil, ← hm]
    dsimp only
    rw [hend, List.append_assoc]

/-! ## Change of size -/

theorem MemheapInv.copy (h : MemheapInv pool heap segs free) : MemheapInv pool (heap.copy a b n) segs free where
  fixed := ⟨h.fixed.self, h.fixed.poolSize, h.fixed.freeList⟩
  tiled := h.tiled.congr ⟨rfl, rfl, rfl⟩
  coalesced := h.coalesced
  list := h.list.congr ⟨rfl, rfl⟩ rfl
  perm := h.perm
  available := h.available

theorem MemheapInv.move (h : MemheapInv pool heap segs free) (hptr : ptr ∈ payloads cfg pool.startAddr segs)
    (oldsize newsize : Nat) : memheapMove cfg heap ptr oldsize newsize = some (heap, none) ∨
    ∃ heap' new segs' free', memheapMove cfg heap ptr oldsize newsize = some (heap', some new) ∧
      MemheapInv pool heap' segs' free' ∧
      (new :: payloads cfg pool.startAddr segs).Perm (ptr :: payloads cfg pool.startAddr segs') := by
  unfold memheapMove
  rcases h.alloc newsize with ⟨halloc, -⟩ | ⟨heap', new, segs', free', halloc, hinv, hpay, -⟩
  · rw [halloc]
    exact .inl rfl
  · rw [halloc]
    have hheld : ptr ∈ payloads cfg pool.startAddr segs' := hpay.mem_iff.2 (List.mem_cons_of_mem new hptr)
    obtain ⟨heap'', segs'', free'', hfree, hinv', hpay'⟩ :=
      (hinv.copy (a := new) (b := ptr) (n := if oldsize < newsize then oldsize else newsize)).release hheld
    dsimp only
    rw [hfree]
    exact .inr ⟨heap'', new, segs'', free'', rfl, hinv', hpay.symm.trans hpay'⟩

def GrowFits (cfg : MemheapConfig) (heap : Memheap) (ptr : Option Nat) (newsize : Nat) : Prop :=
  ∀ p ∈ ptr, newsize ≠ 0 → (heap.item (heap.item (sub32 p cfg.headSize)).next).used = false → cfg.itemSize newsize + 12 < 2 ^ 32

theorem MemheapInv.grow_next (h : MemheapInv pool heap (l₁ ++ s :: t :: l₂) free) (hs : s.tag.used = true)
    (ht : t.tag.used = false) (hm : m = pool.startAddr + width cfg.headSize l₁) (hmore : s.size < newsize)
    (hfits : newsize + 12 < t.size + s.size) :
    ∃ segs' free', MemheapInv pool (memheapGrow heap (m + cfg.headSize) m s.size newsize) segs' free' ∧
      payloads cfg pool.startAddr segs' = payloads cfg pool.startAddr (l₁ ++ s :: t :: l₂) := by
  have hm' : m + (cfg.headSize + s.size) = pool.startAddr + width cfg.headSize (l₁ ++ [s]) := by
    rw [width_append, width_cons, width_nil]
    omega
  have hmem : m + (cfg.headSize + s.size) ∈ free :=
    h.perm.mem_iff.2 (mem_freeAddrs.2 ⟨l₁ ++ [s], t, l₂, by rw [List.append_assoc, List.singleton_append], ht, hm'⟩)
  obtain ⟨F₁, F₂, rfl⟩ := List.append_of_mem hmem
  refine ⟨_, _, h.grow hs ht hm hmore hfits, ?_⟩
  have hend : m + (cfg.headSize + newsize) + (cfg.headSize + (s.size + cfg.headSize + t.size - newsize - cfg.headSize)) =
      m + (cfg.headSize + s.size) + (cfg.headSize + t.size) := by omega
  rw [payloads_mid, payloads_mid, payloads_cons, payloads_cons, ← hm]
  simp only [hend, ht, MemheapPool.tag, Bool.false_eq_true, if_false]

theorem perm_kept (hmem : ptr ∈ live) : (ptr :: live.erase ptr).Perm live := (List.perm_cons_erase hmem).symm

theorem perm_moved {new : Nat} {held held' : List Nat} (hlive : live.Perm held) (hmem : ptr ∈ live)
    (hmoved : (new :: held).Perm (ptr :: held')) : (new :: live.erase ptr).Perm held' := by
  have hall : (ptr :: new :: live.erase ptr).Perm (ptr :: held') :=
    (List.Perm.swap new ptr _).trans (((perm_kept hmem).trans hlive).cons new |>.trans hmoved)
  exact hall.cons_inv

theorem MemheapInv.realloc_block (h : MemheapInv pool heap segs free) (hlive : live.Perm (payloads cfg pool.startAddr segs))
    (hmem : ptr ∈ live) (hsize : newsize ≠ 0) (hfits : GrowFits cfg heap (some ptr) newsize) :
    ∃ heap' result segs' free', rtMemheapRealloc cfg heap (some ptr) newsize = some (heap', result) ∧
      MemheapInv pool heap' segs' free' ∧
      (liveRealloc live (some ptr) newsize result).Perm (payloads cfg pool.startAddr segs') := by
  have hptr := hlive.mem_iff.1 hmem
  have hwrap := hfits ptr rfl hsize
  obtain ⟨l₁, s, l₂, rfl, hs, hm, hsum⟩ := h.place hptr
  have hpos := cfg.headSize_pos
  have hle := h.tiled.le_tailer hm
  have hadd := pool.tailer_add
  have hpool := pool.fits
  have hnext : (heap.item (sub32 ptr cfg.headSize)).next = sub32 ptr cfg.headSize + (cfg.headSize + s.size) := h.tiled.next_eq hm
  have hused : (heap.item (heap.item (sub32 ptr cfg.headSize)).next).used = l₂.head?.elim true fun t => t.tag.used :=
    congrArg MemheapTag.used (h.tiled.tag_next hm)
  have hmin := cfg.le_itemSize newsize
  unfold MemheapPool.poolSize at hadd
  rw [rtMemheapRealloc, if_neg hsize]
  dsimp only
  rw [h.tiled.memitemSize_eq hm]
  generalize cfg.itemSize newsize = n at *
  by_cases hmore : s.size < n
  · rw [if_pos hmore, if_pos (by omega)]
    by_cases hgrow : (heap.item (heap.item (sub32 ptr cfg.headSize)).next).used = false ∧
        add32 n 12 < add32 (memitemSize cfg heap (heap.item (sub32 ptr cfg.headSize)).next) s.size
    · rw [if_pos hgrow]
      obtain ⟨hfree, hroom⟩ := hgrow
      have hwrap := hwrap hfree
      cases l₂ with
      | nil => exact absurd (hused.symm.trans hfree) (by simp)
      | cons t l₂ =>
        have ht : t.tag.used = false := hused.symm.trans hfree
        have hsecond : MemheapTiled pool heap ((l₁ ++ [s]) ++ t :: l₂) := by
          rw [List.append_assoc]
          exact h.tiled
        have hm' : (heap.item (sub32 ptr cfg.headSize)).next = pool.startAddr + width cfg.headSize (l₁ ++ [s]) := by
          rw [hnext, hm, width_append, width_cons, width_nil]
          omega
        have hle' := hsecond.le_tailer hm'
        rw [hsecond.memitemSize_eq hm', add32_eq hwrap, add32_eq (by omega)] at hroom
        obtain ⟨segs', free', hinv, hpay⟩ := h.grow_next hs ht hm hmore hroom
        rw [← hsum] at hinv
        refine ⟨_, some ptr, segs', free', rfl, hinv, ?_⟩
        rw [hpay]
        exact (perm_kept hmem).trans hlive
    · rw [if_neg hgrow]
      rcases h.move hptr s.size n with hmove | ⟨heap', new, segs', free', hmove, hinv, hpay⟩
      · refine ⟨heap, none, _, free, hmove, h, ?_⟩
        rw [liveRealloc, if_neg hsize]
        exact hlive
      · exact ⟨heap', some new, segs', free', hmove, hinv, perm_moved hlive hmem hpay⟩
  · rw [if_neg hmore]
    by_cases hsame : s.size ≤ add32 (add32 n cfg.headSize) 12
    · rw [if_pos hsame]
      exact ⟨heap, some ptr, _, free, rfl, h, (perm_kept hmem).trans hlive⟩
    · rw [if_neg hsame]
      have hhead := cfg.le_headSize
      rw [add32_eq (by omega : n + cfg.headSize < 2 ^ 32), add32_eq (by omega)] at hsame
      obtain ⟨segs', free', hinv, hpay⟩ := h.shrink hs hm (by omega : n + cfg.headSize ≤ s.size)
      refine ⟨_, some ptr, segs', free', rfl, hinv, ?_⟩
      rw [hpay]
      exact (perm_kept hmem).trans hlive

theorem MemheapInv.realloc (h : MemheapInv pool heap segs free) (hlive : live.Perm (payloads cfg pool.startAddr segs))
    (hheld : ∀ p ∈ held, p ∈ live) (hfits : GrowFits cfg heap held newsize) :
    ∃ heap' result segs' free', rtMemheapRealloc cfg heap held newsize = some (heap', result) ∧
      MemheapInv pool heap' segs' free' ∧
      (liveRealloc live held newsize result).Perm (payloads cfg pool.startAddr segs') := by
  by_cases hsize : newsize = 0
  · obtain ⟨heap', segs', free', hfree, hinv, hpay⟩ := h.free_held hlive hheld
    refine ⟨heap', none, segs', free', ?_, hinv, ?_⟩
    · rw [rtMemheapRealloc, if_pos hsize, hfree]
      rfl
    · cases held with
      | none => exact hpay
      | some ptr =>
        rw [liveRealloc, if_pos hsize]
        exact hpay
  · cases held with
    | some ptr => exact h.realloc_block hlive (hheld ptr rfl) hsize hfits
    | none =>
      rw [rtMemheapRealloc, if_neg hsize]
      dsimp only
      rcases h.alloc (cfg.itemSize newsize) with ⟨halloc, -⟩ | ⟨heap', new, segs', free', halloc, hinv, hpay, -⟩
      · exact ⟨heap, none, segs, free, halloc, h, hlive⟩
      · exact ⟨heap', some new, segs', free', halloc, hinv, (hlive.cons new).trans hpay.symm⟩

end RtThread
