import RtThread.Mem.MemheapBlocks

/-!
# The calls of a memory heap

What each call does to the list of blocks and to the free list, with the bytes it accounts for.
-/

namespace RtThread

open Seg

variable {cfg : MemheapConfig} {pool : MemheapPool cfg} {heap heap' : Memheap} {a b c m n ptr size : Nat}
  {segs l₁ l₂ : List (Seg MemheapTag)} {s t u : Seg MemheapTag} {free F₁ F₂ : List Nat} {used : Bool}

/-! ## Lists of blocks -/

def Coalesced (segs : List (Seg MemheapTag)) : Prop := segs.IsChain fun s t => s.tag.used = true ∨ t.tag.used = true

def LastUsed (segs : List (Seg MemheapTag)) : Prop := ∀ s ∈ segs.getLast?, s.tag.used = true

def HeadUsed (segs : List (Seg MemheapTag)) : Prop := ∀ s ∈ segs.head?, s.tag.used = true

theorem coalesced_cons : Coalesced (s :: l₂) ↔ Coalesced l₂ ∧ (s.tag.used = true ∨ HeadUsed l₂) := by
  unfold Coalesced HeadUsed
  rw [List.isChain_cons]
  constructor
  · rintro ⟨hhead, hrest⟩
    refine ⟨hrest, ?_⟩
    by_cases hs : s.tag.used = true
    · exact .inl hs
    · exact .inr fun t ht => (hhead t ht).resolve_left hs
  · rintro ⟨hrest, hs⟩
    exact ⟨fun t ht => hs.imp_right fun hall => hall t ht, hrest⟩

theorem coalesced_mid : Coalesced (l₁ ++ s :: l₂) ↔
    Coalesced l₁ ∧ Coalesced (s :: l₂) ∧ (s.tag.used = true ∨ LastUsed l₁) := by
  unfold Coalesced LastUsed
  rw [List.isChain_append]
  constructor
  · rintro ⟨hleft, hright, hjoin⟩
    refine ⟨hleft, hright, ?_⟩
    by_cases hs : s.tag.used = true
    · exact .inl hs
    · exact .inr fun t ht => (hjoin t ht s rfl).resolve_right hs
  · rintro ⟨hleft, hright, hs⟩
    refine ⟨hleft, hright, fun t ht u hu => ?_⟩
    obtain rfl := Option.some.inj hu
    rcases hs with hs | hs
    · exact .inr hs
    · exact .inl (hs t ht)

theorem lastUsed_concat : LastUsed (l₁ ++ [s]) ↔ s.tag.used = true := by simp [LastUsed]

theorem headUsed_cons : HeadUsed (s :: l₂) ↔ s.tag.used = true := by simp [HeadUsed]

/-- What `available_size` counts. -/
def freeBytes (segs : List (Seg MemheapTag)) : Nat := (segs.map fun s => if s.tag.used then 0 else s.size).sum

@[simp] theorem freeBytes_nil : freeBytes [] = 0 := rfl

@[simp] theorem freeBytes_cons : freeBytes (s :: l₂) = (if s.tag.used then 0 else s.size) + freeBytes l₂ := by
  simp [freeBytes]

@[simp] theorem freeBytes_append : freeBytes (l₁ ++ l₂) = freeBytes l₁ + freeBytes l₂ := by simp [freeBytes]

theorem freeBytes_le (head : Nat) : freeBytes segs ≤ width head segs := by
  induction segs with
  | nil => exact Nat.le_refl 0
  | cons s segs ih =>
    rw [freeBytes_cons, width_cons]
    split_ifs <;> omega

abbrev freeAddrs (cfg : MemheapConfig) (b : Nat) (segs : List (Seg MemheapTag)) : List Nat :=
  addrs cfg.headSize (fun t => !t.used) b segs

abbrev payloads (cfg : MemheapConfig) (b : Nat) (segs : List (Seg MemheapTag)) : List Nat :=
  (addrs cfg.headSize (fun t => t.used) b segs).map (· + cfg.headSize)

@[simp] theorem freeAddrs_nil : freeAddrs cfg b [] = [] := rfl

@[simp] theorem payloads_nil : payloads cfg b [] = [] := rfl

theorem freeAddrs_cons : freeAddrs cfg b (s :: l₂) =
    (if s.tag.used then [] else [b]) ++ freeAddrs cfg (b + (cfg.headSize + s.size)) l₂ := by
  rw [freeAddrs, addrs_cons]
  cases s.tag.used <;> rfl

theorem payloads_cons : payloads cfg b (s :: l₂) =
    (if s.tag.used then [b + cfg.headSize] else []) ++ payloads cfg (b + (cfg.headSize + s.size)) l₂ := by
  rw [payloads, addrs_cons, List.map_append]
  cases s.tag.used <;> rfl

theorem freeAddrs_mid : freeAddrs cfg b (l₁ ++ s :: l₂) = freeAddrs cfg b l₁ ++
    ((if s.tag.used then [] else [b + width cfg.headSize l₁]) ++
      freeAddrs cfg (b + width cfg.headSize l₁ + (cfg.headSize + s.size)) l₂) := by
  rw [← freeAddrs_cons]
  exact addrs_append

theorem payloads_mid : payloads cfg b (l₁ ++ s :: l₂) = payloads cfg b l₁ ++
    ((if s.tag.used then [b + width cfg.headSize l₁ + cfg.headSize] else []) ++
      payloads cfg (b + width cfg.headSize l₁ + (cfg.headSize + s.size)) l₂) := by
  rw [← payloads_cons, payloads, addrs_append, List.map_append]

/-! ## The invariant -/

structure MemheapFixed (pool : MemheapPool cfg) (heap : Memheap) : Prop where
  self : heap.self = pool.self
  poolSize : heap.poolSize = pool.poolSize
  freeList : heap.freeList = pool.freeHeader

/-- The blocks tile the pool, no two free ones are neighbours, and the free list has all free blocks and no other. -/
structure MemheapInv (pool : MemheapPool cfg) (heap : Memheap) (segs : List (Seg MemheapTag)) (free : List Nat) : Prop where
  fixed : MemheapFixed pool heap
  tiled : MemheapTiled pool heap segs
  coalesced : Coalesced segs
  list : FreeList heap free
  perm : free.Perm (freeAddrs cfg pool.startAddr segs)
  available : heap.availableSize = freeBytes segs

theorem MemheapTiled.ne_freeHeader (h : MemheapTiled pool heap (l₁ ++ s :: l₂))
    (hm : m = pool.startAddr + width cfg.headSize l₁) : m ≠ pool.freeHeader := by
  have hle := h.le_tailer hm
  have hadd := pool.tailer_add
  have hpos := cfg.headSize_pos
  have hout := pool.outside
  unfold MemheapPool.poolSize at hadd
  omega

theorem mem_freeAddrs : a ∈ freeAddrs cfg b segs ↔
    ∃ l₁ s l₂, segs = l₁ ++ s :: l₂ ∧ s.tag.used = false ∧ a = b + width cfg.headSize l₁ := by
  rw [freeAddrs, mem_addrs]
  simp only [Bool.not_eq_true']

theorem mem_payloads : a ∈ payloads cfg b segs ↔
    ∃ l₁ s l₂, segs = l₁ ++ s :: l₂ ∧ s.tag.used = true ∧ a = b + width cfg.headSize l₁ + cfg.headSize := by
  rw [payloads, List.mem_map]
  constructor
  · rintro ⟨x, hx, rfl⟩
    obtain ⟨l₁, s, l₂, heq, hused, rfl⟩ := mem_addrs.1 hx
    exact ⟨l₁, s, l₂, heq, hused, rfl⟩
  · rintro ⟨l₁, s, l₂, heq, hused, rfl⟩
    exact ⟨_, mem_addrs.2 ⟨l₁, s, l₂, heq, hused, rfl⟩, rfl⟩

theorem MemheapTiled.freeBytes_lt (h : MemheapTiled pool heap segs) : freeBytes segs < 2 ^ 32 := by
  have hle : freeBytes segs ≤ width cfg.headSize segs := freeBytes_le _
  have heq := h.tailer_eq
  have hlt := pool.tailer_lt
  omega

/-! ## A block that is being freed -/

/-- The block at `m` is free, whatever its neighbours, and in the free list if `listed`. -/
structure MemheapOpen (pool : MemheapPool cfg) (heap : Memheap) (l₁ : List (Seg MemheapTag)) (s : Seg MemheapTag)
    (l₂ : List (Seg MemheapTag)) (m : Nat) (listed : Bool) (free : List Nat) : Prop where
  fixed : MemheapFixed pool heap
  tiled : MemheapTiled pool heap (l₁ ++ s :: l₂)
  place : m = pool.startAddr + width cfg.headSize l₁
  unused : s.tag.used = false
  list : FreeList heap free
  perm : free.Perm (freeAddrs cfg pool.startAddr l₁ ++
    ((if listed then [m] else []) ++ freeAddrs cfg (m + (cfg.headSize + s.size)) l₂))
  left : Coalesced l₁
  right : Coalesced l₂

namespace MemheapOpen

variable {listed : Bool}

theorem congr (h : MemheapOpen pool heap l₁ s l₂ m listed free) (hfixed : MemheapFixed pool heap')
    (hblocks : SameBlockLinks heap heap') (hfree : SameFreeLinks heap heap') : MemheapOpen pool heap' l₁ s l₂ m listed free where
  fixed := hfixed
  tiled := h.tiled.congr hblocks
  place := h.place
  unused := h.unused
  list := h.list.congr hfree (hfixed.freeList.trans h.fixed.freeList.symm)
  perm := h.perm
  left := h.left
  right := h.right

theorem notMem (h : MemheapOpen pool heap l₁ s l₂ m false free) : m ∉ heap.freeList :: free := by
  rw [h.fixed.freeList]
  intro hmem
  rcases List.mem_cons.1 hmem with heq | hmem
  · exact h.tiled.ne_freeHeader h.place heq
  · have hmem' := h.perm.mem_iff.1 hmem
    have hpos := cfg.headSize_pos
    have hplace := h.place
    rcases List.mem_append.1 hmem' with hmem' | hmem'
    · have hle := le_of_mem_addrs hmem'
      omega
    · have hle := le_of_mem_addrs hmem'
      omega

theorem insertFree (h : MemheapOpen pool heap l₁ s l₂ m false free) :
    MemheapOpen pool (heap.insertFree m) l₁ s l₂ m true (m :: free) where
  fixed := ⟨h.fixed.self, h.fixed.poolSize, h.fixed.freeList⟩
  tiled := h.tiled.congr sameBlockLinks_insertFree
  place := h.place
  unused := h.unused
  list := FreeList.insertFree h.list h.notMem
  perm := by
    refine (h.perm.cons m).trans ?_
    exact List.perm_middle.symm
  left := h.left
  right := h.right

theorem close (h : MemheapOpen pool heap l₁ s l₂ m true free) (hlast : LastUsed l₁) (hhead : HeadUsed l₂)
    (havailable : heap.availableSize = freeBytes (l₁ ++ s :: l₂)) : MemheapInv pool heap (l₁ ++ s :: l₂) free where
  fixed := h.fixed
  tiled := h.tiled
  coalesced := coalesced_mid.2 ⟨h.left, coalesced_cons.2 ⟨h.right, .inr hhead⟩, .inr hlast⟩
  list := h.list
  perm := by
    rw [freeAddrs_mid, h.unused, ← h.place]
    exact h.perm
  available := havailable

theorem absorb (h : MemheapOpen pool heap l₁ s (t :: l₂) m listed free) (ht : t.tag.used = false)
    (hfixed : MemheapFixed pool heap') (hfree : SameFreeLinks heap heap')
    (hnext : heap'.next = Function.update heap.next m (heap.next (heap.next m)))
    (hprev : heap'.prev = Function.update heap.prev (heap.next (heap.next m)) m) (htag : heap'.tag = heap.tag) :
    ∃ free', MemheapOpen pool (heap'.removeFree (heap.next m)) l₁ ⟨s.size + cfg.headSize + t.size, s.tag⟩ l₂ m listed free' ∧
      HeadUsed l₂ := by
  have hnext_m : heap.next m = m + (cfg.headSize + s.size) := h.tiled.next_eq h.place
  have hperm := h.perm
  have hcons : freeAddrs cfg (m + (cfg.headSize + s.size)) (t :: l₂) =
      heap.next m :: freeAddrs cfg (heap.next m + (cfg.headSize + t.size)) l₂ := by
    rw [freeAddrs_cons, ht, ← hnext_m]
    rfl
  rw [hcons, ← List.append_assoc] at hperm
  have hmem : heap.next m ∈ free := hperm.mem_iff.2 (List.mem_append_right _ List.mem_cons_self)
  obtain ⟨F₁, F₂, rfl⟩ := List.append_of_mem hmem
  have hlist : FreeList heap' (F₁ ++ heap.next m :: F₂) :=
    h.list.congr hfree (hfixed.freeList.trans h.fixed.freeList.symm)
  obtain ⟨hright, hhead⟩ := coalesced_cons.1 h.right
  refine ⟨F₁ ++ F₂, ⟨⟨hfixed.self, hfixed.poolSize, hfixed.freeList⟩, ?_, h.place, h.unused, FreeList.removeFree hlist, ?_,
    h.left, hright⟩, hhead.resolve_left (by rw [ht]; exact Bool.false_ne_true)⟩
  · exact (h.tiled.join h.place hnext hprev htag).congr sameBlockLinks_removeFree
  · have hrest := (List.perm_middle.symm.trans (hperm.trans List.perm_middle)).cons_inv
    rw [List.append_assoc, hnext_m] at hrest
    dsimp only
    rw [show m + (cfg.headSize + (s.size + cfg.headSize + t.size)) =
      m + (cfg.headSize + s.size) + (cfg.headSize + t.size) by omega]
    exact hrest

end MemheapOpen

def absorbNext (heap : Memheap) (m : Nat) : Memheap :=
  let new := (heap.item m).next
  let heap := heap.setItem (heap.item new).next fun i => { i with prev := m }
  let heap := heap.setItem m fun i => { i with next := (heap.item new).next }
  heap.removeFree new

theorem MemheapOpen.absorbNext {listed : Bool} (h : MemheapOpen pool heap l₁ s (t :: l₂) m listed free)
    (ht : t.tag.used = false) :
    ∃ free', MemheapOpen pool (absorbNext heap m) l₁ ⟨s.size + cfg.headSize + t.size, s.tag⟩ l₂ m listed free' ∧
      HeadUsed l₂ := by
  have hlink : ((heap.setItem (heap.item (heap.item m).next).next fun i => { i with prev := m }).item
      (heap.item m).next).next = heap.next (heap.next m) := congrFun (Memheap.setItem_next_same rfl) _
  refine h.absorb ht ⟨h.fixed.self, h.fixed.poolSize, h.fixed.freeList⟩ (.setItem (.setItem .refl ?_) ?_) ?_ ?_ ?_
  · exact fun _ => ⟨rfl, rfl⟩
  · exact fun _ => ⟨rfl, rfl⟩
  · rw [Memheap.setItem_next, hlink, Memheap.setItem_next_same rfl]
  · rw [Memheap.setItem_prev_same rfl, Memheap.setItem_prev]
    rfl
  · rw [Memheap.setItem_tag_same rfl rfl rfl, Memheap.setItem_tag_same rfl rfl rfl]

theorem MemheapFixed.congr (h : MemheapFixed pool heap) (hself : heap'.self = heap.self) (hsize : heap'.poolSize = heap.poolSize)
    (hlist : heap'.freeList = heap.freeList) : MemheapFixed pool heap' :=
  ⟨hself.trans h.self, hsize.trans h.poolSize, hlist.trans h.freeList⟩

namespace MemheapFixed

theorem setItem (h : MemheapFixed pool heap) {f : MemheapItem → MemheapItem} : MemheapFixed pool (heap.setItem b f) :=
  ⟨h.self, h.poolSize, h.freeList⟩

theorem newItem (h : MemheapFixed pool heap) : MemheapFixed pool (heap.newItem b) := h.setItem

theorem insertBlock (h : MemheapFixed pool heap) : MemheapFixed pool (heap.insertBlock b c) :=
  ⟨h.self, h.poolSize, h.freeList⟩

theorem insertFree (h : MemheapFixed pool heap) : MemheapFixed pool (heap.insertFree b) := ⟨h.self, h.poolSize, h.freeList⟩

theorem removeFree (h : MemheapFixed pool heap) : MemheapFixed pool (heap.removeFree b) := ⟨h.self, h.poolSize, h.freeList⟩

theorem clearFree (h : MemheapFixed pool heap) : MemheapFixed pool (heap.clearFree b) := h.setItem

theorem setAvailable (h : MemheapFixed pool heap) : MemheapFixed pool (heap.setAvailable n) := ⟨h.self, h.poolSize, h.freeList⟩

end MemheapFixed

namespace Memheap

@[simp] theorem setItem_availableSize {f : MemheapItem → MemheapItem} : (heap.setItem b f).availableSize = heap.availableSize :=
  rfl

@[simp] theorem newItem_availableSize : (heap.newItem b).availableSize = heap.availableSize := rfl

@[simp] theorem insertBlock_availableSize : (heap.insertBlock b c).availableSize = heap.availableSize := rfl

@[simp] theorem insertFree_availableSize : (heap.insertFree b).availableSize = heap.availableSize := rfl

@[simp] theorem removeFree_availableSize : (heap.removeFree b).availableSize = heap.availableSize := rfl

@[simp] theorem clearFree_availableSize : (heap.clearFree b).availableSize = heap.availableSize := rfl

@[simp] theorem newItem_freeList : (heap.newItem b).freeList = heap.freeList := rfl

@[simp] theorem insertBlock_freeList : (heap.insertBlock b c).freeList = heap.freeList := rfl

@[simp] theorem insertFree_freeList : (heap.insertFree b).freeList = heap.freeList := rfl

@[simp] theorem removeFree_freeList : (heap.removeFree b).freeList = heap.freeList := rfl

@[simp] theorem clearFree_freeList : (heap.clearFree b).freeList = heap.freeList := rfl

@[simp] theorem setAvailable_freeList : (heap.setAvailable n).freeList = heap.freeList := rfl

@[simp] theorem setAvailable_availableSize : (heap.setAvailable n).availableSize = n := rfl

end Memheap

/-! ## `rt_memheap_free` -/

theorem memheapMergeLeft_spec (h : MemheapOpen pool heap l₁ s l₂ m false free)
    (havailable : heap.availableSize = freeBytes (l₁ ++ s :: l₂)) :
    ∃ heap' k₁ x c listed, memheapMergeLeft cfg heap m = (heap', c, listed) ∧ MemheapOpen pool heap' k₁ x l₂ c listed free ∧
      LastUsed k₁ ∧ heap'.availableSize = freeBytes (k₁ ++ x :: l₂) ∧
      payloads cfg pool.startAddr k₁ = payloads cfg pool.startAddr l₁ ∧
      c + (cfg.headSize + x.size) = m + (cfg.headSize + s.size) := by
  have htag := h.tiled.tag_prev h.place
  have hused : (heap.item (heap.item m).prev).used = l₁.getLast?.elim true fun t => t.tag.used :=
    congrArg MemheapTag.used htag
  unfold memheapMergeLeft
  dsimp only
  rw [hused]
  rcases List.eq_nil_or_concat' l₁ with rfl | ⟨k₁, p, rfl⟩
  · rw [if_neg (by simp)]
    exact ⟨heap, [], s, m, false, rfl, h, by simp [LastUsed], havailable, rfl, rfl⟩
  rw [List.getLast?_concat, Option.elim_some]
  by_cases hp : p.tag.used = false
  · rw [if_pos hp]
    have htiled := h.tiled
    rw [List.append_assoc, List.singleton_append] at htiled
    have hm : m = pool.startAddr + width cfg.headSize k₁ + (cfg.headSize + p.size) := by
      rw [h.place, width_append, width_cons, width_nil]
      omega
    have hpos := cfg.headSize_pos
    have hprev : (heap.item m).prev = pool.startAddr + width cfg.headSize k₁ := by
      rw [hm]
      exact htiled.prev_eq rfl
    rw [hprev]
    generalize hc : pool.startAddr + width cfg.headSize k₁ = c at hm hprev ⊢
    have hnext : heap.next c = m := (htiled.next_eq hc.symm).trans hm.symm
    have hne : m ≠ c := by omega
    have hlink : (({ heap with availableSize := add32 heap.availableSize cfg.headSize }.setItem c fun i =>
        { i with next := (heap.item m).next }).item m).next = heap.next m :=
      congrArg MemheapItem.next (Function.update_of_ne hne ..)
    obtain ⟨hleft, hp', hlast⟩ := coalesced_mid.1 h.left
    refine ⟨_, k₁, ⟨p.size + cfg.headSize + s.size, p.tag⟩, c, true, rfl, ⟨?_, ?_, hc.symm, hp, ?_, ?_, hleft, h.right⟩,
      hlast.resolve_left (by rw [hp]; exact Bool.false_ne_true), ?_, ?_, ?_⟩
    · exact h.fixed.congr rfl rfl rfl
    · refine htiled.join hc.symm ?_ ?_ ?_
      · rw [Memheap.setItem_next_same rfl, Memheap.setItem_next, hnext]
        rfl
      · rw [Memheap.setItem_prev, hlink, Memheap.setItem_prev_same rfl, hnext]
        rfl
      · rw [Memheap.setItem_tag_same rfl rfl rfl, Memheap.setItem_tag_same rfl rfl rfl]
        rfl
    · refine FreeList.congr h.list (.setItem (.setItem ⟨rfl, rfl⟩ ?_) ?_) rfl
      · exact fun _ => ⟨rfl, rfl⟩
      · exact fun _ => ⟨rfl, rfl⟩
    · have hperm := h.perm
      rw [freeAddrs_mid, hp, hc, freeAddrs_nil, List.append_nil, List.append_assoc] at hperm
      dsimp only
      rw [show c + (cfg.headSize + (p.size + cfg.headSize + s.size)) = m + (cfg.headSize + s.size) by omega]
      exact hperm
    · have hbytes : freeBytes (k₁ ++ ⟨p.size + cfg.headSize + s.size, p.tag⟩ :: l₂) =
          heap.availableSize + cfg.headSize := by
        rw [havailable]
        simp only [freeBytes_append, freeBytes_cons, freeBytes_nil, hp, h.unused, Bool.false_eq_true, if_false]
        omega
      have htail := htiled.tailer_eq
      have hlt := pool.tailer_lt
      have hle₁ : freeBytes k₁ ≤ width cfg.headSize k₁ := freeBytes_le _
      have hle₂ : freeBytes l₂ ≤ width cfg.headSize l₂ := freeBytes_le _
      rw [width_append, width_cons, width_cons] at htail
      rw [hbytes]
      rw [freeBytes_append, freeBytes_cons, hp, if_neg Bool.false_ne_true] at hbytes
      dsimp only at hbytes
      exact add32_eq (by omega)
    · rw [payloads_mid, hp, payloads_nil, if_neg Bool.false_ne_true, List.append_nil, List.append_nil]
    · dsimp only
      omega
  · rw [if_neg hp]
    rw [Bool.not_eq_false] at hp
    exact ⟨heap, _, s, m, false, rfl, h, lastUsed_concat.2 hp, havailable, rfl, rfl⟩

theorem memheapMergeRight_spec {listed : Bool} (h : MemheapOpen pool heap l₁ s l₂ m listed free)
    (havailable : heap.availableSize = freeBytes (l₁ ++ s :: l₂)) :
    ∃ x k₂ free', MemheapOpen pool (memheapMergeRight cfg heap m) l₁ x k₂ m listed free' ∧ HeadUsed k₂ ∧
      (memheapMergeRight cfg heap m).availableSize = freeBytes (l₁ ++ x :: k₂) ∧
      payloads cfg (m + (cfg.headSize + x.size)) k₂ = payloads cfg (m + (cfg.headSize + s.size)) l₂ := by
  have htag := h.tiled.tag_next h.place
  have hused : (heap.item (heap.item m).next).used = l₂.head?.elim true fun t => t.tag.used :=
    congrArg MemheapTag.used htag
  unfold memheapMergeRight
  dsimp only
  rw [hused]
  cases l₂ with
  | nil => exact ⟨s, [], free, by rw [if_neg (by simp)]; exact ⟨h, by simp [HeadUsed], havailable, rfl⟩⟩
  | cons t l₂ =>
    rw [List.head?_cons, Option.elim_some]
    by_cases ht : t.tag.used = false
    · rw [if_pos ht]
      have hcounted : MemheapOpen pool { heap with availableSize := add32 heap.availableSize cfg.headSize } l₁ s (t :: l₂) m
          listed free := h.congr ⟨h.fixed.self, h.fixed.poolSize, h.fixed.freeList⟩ ⟨rfl, rfl, rfl⟩ ⟨rfl, rfl⟩
      obtain ⟨free', hopen, hhead⟩ := hcounted.absorbNext ht
      refine ⟨⟨s.size + cfg.headSize + t.size, s.tag⟩, l₂, free', hopen, hhead, ?_, ?_⟩
      · have hlt := hopen.tiled.freeBytes_lt
        have hbytes : freeBytes (l₁ ++ ⟨s.size + cfg.headSize + t.size, s.tag⟩ :: l₂) =
            heap.availableSize + cfg.headSize := by
          rw [havailable]
          simp only [freeBytes_append, freeBytes_cons, ht, h.unused, Bool.false_eq_true, if_false]
          omega
        rw [hbytes] at hlt ⊢
        exact add32_eq hlt
      · rw [← List.nil_append (t :: l₂), payloads_mid, ht, width_nil, payloads_nil, if_neg Bool.false_ne_true]
        dsimp only
        rw [List.nil_append, List.nil_append]
        congr 1
        omega
    · rw [if_neg ht]
      rw [Bool.not_eq_false] at ht
      exact ⟨s, _, free, h, headUsed_cons.2 ht, havailable, rfl⟩

theorem MemheapInv.place (h : MemheapInv pool heap segs free) (hptr : ptr ∈ payloads cfg pool.startAddr segs) :
    ∃ l₁ s l₂, segs = l₁ ++ s :: l₂ ∧ s.tag.used = true ∧
      sub32 ptr cfg.headSize = pool.startAddr + width cfg.headSize l₁ ∧
      ptr = sub32 ptr cfg.headSize + cfg.headSize := by
  obtain ⟨l₁, s, l₂, rfl, hs, rfl⟩ := mem_payloads.1 hptr
  have hle := h.tiled.le_tailer rfl
  have hlt := pool.tailer_lt
  have hsub : sub32 (pool.startAddr + width cfg.headSize l₁ + cfg.headSize) cfg.headSize =
      pool.startAddr + width cfg.headSize l₁ := by
    rw [sub32_eq (by omega) (by omega)]
    omega
  exact ⟨l₁, s, l₂, rfl, hs, hsub, by rw [hsub]⟩

def memheapMarkFree (cfg : MemheapConfig) (heap : Memheap) (m : Nat) : Memheap :=
  let heap := heap.setItem m fun i => { i with used := false }
  { heap with availableSize := add32 heap.availableSize (memitemSize cfg heap m) }

/-- The rest of `rt_memheap_free`. -/
def memheapRelease (cfg : MemheapConfig) (heap : Memheap) (m : Nat) : Memheap :=
  if (memheapMergeLeft cfg heap m).2.2 then memheapMergeRight cfg (memheapMergeLeft cfg heap m).1 (memheapMergeLeft cfg heap m).2.1
  else
    (memheapMergeRight cfg (memheapMergeLeft cfg heap m).1 (memheapMergeLeft cfg heap m).2.1).insertFree
      (memheapMergeLeft cfg heap m).2.1

theorem MemheapOpen.withAvailable {listed : Bool} (h : MemheapOpen pool heap l₁ s l₂ m listed free) (x : Nat) :
    MemheapOpen pool { heap with availableSize := x } l₁ s l₂ m listed free :=
  h.congr ⟨h.fixed.self, h.fixed.poolSize, h.fixed.freeList⟩ ⟨rfl, rfl, rfl⟩ ⟨rfl, rfl⟩

theorem MemheapTiled.mark (h : MemheapTiled pool heap (l₁ ++ s :: l₂)) (hm : m = pool.startAddr + width cfg.headSize l₁)
    (used : Bool) : MemheapTiled pool (heap.setItem m fun i => { i with used }) (l₁ ++ ⟨s.size, pool.tag used⟩ :: l₂) := by
  have htag := h.tag_eq hm
  refine h.retag hm (Memheap.setItem_next_same rfl) (Memheap.setItem_prev_same rfl) ?_
  have hmagic : (heap.item m).magic = memheapMagic := congrArg MemheapTag.magic htag
  have hpool : (heap.item m).poolPtr = pool.self := congrArg MemheapTag.poolPtr htag
  rw [Memheap.setItem_tag, hmagic, hpool]
  rfl

theorem memheapMarkFree_open (h : MemheapInv pool heap (l₁ ++ s :: l₂) free) (hs : s.tag.used = true)
    (hm : m = pool.startAddr + width cfg.headSize l₁) :
    MemheapOpen pool (memheapMarkFree cfg heap m) l₁ ⟨s.size, pool.tag false⟩ l₂ m false free ∧
      (memheapMarkFree cfg heap m).availableSize = freeBytes (l₁ ++ ⟨s.size, pool.tag false⟩ :: l₂) := by
  have htiled : MemheapTiled pool (heap.setItem m fun i => { i with used := false })
      (l₁ ++ ⟨s.size, pool.tag false⟩ :: l₂) := h.tiled.mark hm false
  obtain ⟨hleft, hright, -⟩ := coalesced_mid.1 h.coalesced
  have hopen : MemheapOpen pool (heap.setItem m fun i => { i with used := false }) l₁ ⟨s.size, pool.tag false⟩ l₂ m false
      free := by
    refine ⟨⟨h.fixed.self, h.fixed.poolSize, h.fixed.freeList⟩, htiled, hm, rfl, ?_, ?_, hleft,
      (coalesced_cons.1 hright).1⟩
    · exact FreeList.congr h.list (.setItem .refl fun _ => ⟨rfl, rfl⟩) rfl
    · have hperm := h.perm
      rw [freeAddrs_mid, hs, ← hm] at hperm
      exact hperm
  have hlt := htiled.freeBytes_lt
  have hbytes : freeBytes (l₁ ++ ⟨s.size, pool.tag false⟩ :: l₂) = heap.availableSize + s.size := by
    rw [h.available]
    simp only [freeBytes_append, freeBytes_cons, hs, MemheapPool.tag, Bool.false_eq_true, if_true, if_false]
    omega
  rw [hbytes] at hlt ⊢
  refine ⟨hopen.withAvailable _, ?_⟩
  unfold memheapMarkFree
  dsimp only
  rw [htiled.memitemSize_eq hm]
  exact add32_eq hlt

theorem memheapRelease_spec (h : MemheapOpen pool heap l₁ s l₂ m false free)
    (havailable : heap.availableSize = freeBytes (l₁ ++ s :: l₂)) :
    ∃ k₁ x k₂ free', MemheapInv pool (memheapRelease cfg heap m) (k₁ ++ x :: k₂) free' ∧
      payloads cfg pool.startAddr (k₁ ++ x :: k₂) =
        payloads cfg pool.startAddr l₁ ++ payloads cfg (m + (cfg.headSize + s.size)) l₂ := by
  obtain ⟨heap₁, k₁, x, c, listed, hleft_eq, hopen₁, hlast, havailable₁, hpay₁, hend₁⟩ :=
    memheapMergeLeft_spec h havailable
  obtain ⟨y, k₂, free', hopen₂, hhead, havailable₂, hpay₂⟩ := memheapMergeRight_spec hopen₁ havailable₁
  have hpay : payloads cfg pool.startAddr (k₁ ++ y :: k₂) =
      payloads cfg pool.startAddr l₁ ++ payloads cfg (m + (cfg.headSize + s.size)) l₂ := by
    rw [payloads_mid, hopen₂.unused, ← hopen₂.place, hpay₁, hpay₂, hend₁, if_neg Bool.false_ne_true, List.nil_append]
  rw [memheapRelease, hleft_eq]
  cases listed with
  | false => exact ⟨k₁, y, k₂, _, hopen₂.insertFree.close hlast hhead havailable₂, hpay⟩
  | true => exact ⟨k₁, y, k₂, _, hopen₂.close hlast hhead havailable₂, hpay⟩

end RtThread
