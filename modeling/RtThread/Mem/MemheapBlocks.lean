import RtThread.Mem.Memheap
import RtThread.Mem.Blocks
import RtThread.Lib.Circle
import RtThread.Lib.Segments

/-!
# The blocks and the free list of a memory heap

The links between blocks and the links between free blocks are kept in different fields, so what the fragments of the calls do to the one circle and what they do to the other is shown apart.
-/

namespace RtThread

open Function Seg

/-! ## Addresses of 32 bits -/

variable {cfg : MemheapConfig} {a b c m n x y size : Nat}

theorem add32_eq (h : a + b < 2 ^ 32) : add32 a b = a + b := Nat.mod_eq_of_lt h

theorem sub32_eq (hle : b ≤ a) (ha : a < 2 ^ 32) : sub32 a b = a - b := by
  unfold sub32
  rw [Nat.sub_add_comm hle, Nat.add_mod_right, Nat.mod_eq_of_lt (by omega)]

theorem MemheapConfig.le_headSize (cfg : MemheapConfig) : 24 ≤ cfg.headSize := by
  have halign := cfg.toMem.alignSize_le
  have hword := cfg.toMem.le_word
  exact MemConfig.le_rtAlign (by omega)

theorem MemheapConfig.headSize_pos (cfg : MemheapConfig) : 0 < cfg.headSize := by
  have := cfg.le_headSize
  omega

theorem MemheapConfig.le_itemSize (cfg : MemheapConfig) (size : Nat) : 12 ≤ cfg.itemSize size := by
  unfold MemheapConfig.itemSize
  dsimp only
  split_ifs <;> omega

/-! ## The fields of the headers -/

structure MemheapTag where
  used : Bool
  magic : Nat
  poolPtr : Nat
  deriving DecidableEq

variable {heap heap' : Memheap} {f : MemheapItem → MemheapItem} {pool : MemheapPool cfg}
  {segs l₁ l₂ : List (Seg MemheapTag)} {s t u : Seg MemheapTag} {free F₁ F₂ : List Nat}

namespace Memheap

def next (heap : Memheap) (b : Nat) : Nat := (heap.item b).next

def prev (heap : Memheap) (b : Nat) : Nat := (heap.item b).prev

def nextFree (heap : Memheap) (b : Nat) : Nat := (heap.item b).nextFree

def prevFree (heap : Memheap) (b : Nat) : Nat := (heap.item b).prevFree

def tag (heap : Memheap) (b : Nat) : MemheapTag := ⟨(heap.item b).used, (heap.item b).magic, (heap.item b).poolPtr⟩

theorem setItem_field {α : Type} (field : MemheapItem → α) (heap : Memheap) (b : Nat) (f : MemheapItem → MemheapItem) :
    (fun c => field ((heap.setItem b f).item c)) = update (fun c => field (heap.item c)) b (field (f (heap.item b))) := by
  funext c
  change field (update heap.item b (f (heap.item b)) c) = _
  rw [update_apply, update_apply]
  exact apply_ite field ..

theorem setItem_next : (heap.setItem b f).next = update heap.next b (f (heap.item b)).next :=
  setItem_field MemheapItem.next heap b f

theorem setItem_prev : (heap.setItem b f).prev = update heap.prev b (f (heap.item b)).prev :=
  setItem_field MemheapItem.prev heap b f

theorem setItem_nextFree : (heap.setItem b f).nextFree = update heap.nextFree b (f (heap.item b)).nextFree :=
  setItem_field MemheapItem.nextFree heap b f

theorem setItem_prevFree : (heap.setItem b f).prevFree = update heap.prevFree b (f (heap.item b)).prevFree :=
  setItem_field MemheapItem.prevFree heap b f

theorem setItem_tag : (heap.setItem b f).tag =
    update heap.tag b ⟨(f (heap.item b)).used, (f (heap.item b)).magic, (f (heap.item b)).poolPtr⟩ :=
  setItem_field (fun i => (⟨i.used, i.magic, i.poolPtr⟩ : MemheapTag)) heap b f

@[simp] theorem setItem_freeList : (heap.setItem b f).freeList = heap.freeList := rfl

theorem setItem_next_same (h : (f (heap.item b)).next = heap.next b) : (heap.setItem b f).next = heap.next := by
  rw [setItem_next, h, update_eq_self]

theorem setItem_prev_same (h : (f (heap.item b)).prev = heap.prev b) : (heap.setItem b f).prev = heap.prev := by
  rw [setItem_prev, h, update_eq_self]

theorem setItem_nextFree_same (h : (f (heap.item b)).nextFree = heap.nextFree b) :
    (heap.setItem b f).nextFree = heap.nextFree := by
  rw [setItem_nextFree, h, update_eq_self]

theorem setItem_prevFree_same (h : (f (heap.item b)).prevFree = heap.prevFree b) :
    (heap.setItem b f).prevFree = heap.prevFree := by
  rw [setItem_prevFree, h, update_eq_self]

theorem setItem_tag_same (hused : (f (heap.item b)).used = (heap.item b).used)
    (hmagic : (f (heap.item b)).magic = (heap.item b).magic) (hpool : (f (heap.item b)).poolPtr = (heap.item b).poolPtr) :
    (heap.setItem b f).tag = heap.tag := by
  rw [setItem_tag, hused, hmagic, hpool]
  exact update_eq_self ..

end Memheap

structure SameBlockLinks (heap heap' : Memheap) : Prop where
  next : heap'.next = heap.next
  prev : heap'.prev = heap.prev
  tag : heap'.tag = heap.tag

structure SameFreeLinks (heap heap' : Memheap) : Prop where
  nextFree : heap'.nextFree = heap.nextFree
  prevFree : heap'.prevFree = heap.prevFree

theorem SameBlockLinks.refl : SameBlockLinks heap heap := ⟨rfl, rfl, rfl⟩

theorem SameFreeLinks.refl : SameFreeLinks heap heap := ⟨rfl, rfl⟩

theorem SameBlockLinks.trans {heap'' : Memheap} (h : SameBlockLinks heap heap') (h' : SameBlockLinks heap' heap'') :
    SameBlockLinks heap heap'' := ⟨h'.next.trans h.next, h'.prev.trans h.prev, h'.tag.trans h.tag⟩

theorem SameFreeLinks.trans {heap'' : Memheap} (h : SameFreeLinks heap heap') (h' : SameFreeLinks heap' heap'') :
    SameFreeLinks heap heap'' := ⟨h'.nextFree.trans h.nextFree, h'.prevFree.trans h.prevFree⟩

theorem SameBlockLinks.setItem (h : SameBlockLinks heap heap') (hf : ∀ i, (f i).next = i.next ∧ (f i).prev = i.prev ∧
    (f i).used = i.used ∧ (f i).magic = i.magic ∧ (f i).poolPtr = i.poolPtr) : SameBlockLinks heap (heap'.setItem b f) := by
  obtain ⟨hnext, hprev, hused, hmagic, hpool⟩ := hf (heap'.item b)
  exact h.trans
    ⟨Memheap.setItem_next_same hnext, Memheap.setItem_prev_same hprev, Memheap.setItem_tag_same hused hmagic hpool⟩

theorem SameFreeLinks.setItem (h : SameFreeLinks heap heap')
    (hf : ∀ i, (f i).nextFree = i.nextFree ∧ (f i).prevFree = i.prevFree) : SameFreeLinks heap (heap'.setItem b f) := by
  obtain ⟨hnext, hprev⟩ := hf (heap'.item b)
  exact h.trans ⟨Memheap.setItem_nextFree_same hnext, Memheap.setItem_prevFree_same hprev⟩

theorem sameBlockLinks_insertFree : SameBlockLinks heap (heap.insertFree b) := by
  dsimp only [Memheap.insertFree]
  refine .setItem (.setItem (.setItem .refl ?_) ?_) ?_
  all_goals exact fun _ => ⟨rfl, rfl, rfl, rfl, rfl⟩

theorem sameBlockLinks_removeFree : SameBlockLinks heap (heap.removeFree b) := by
  dsimp only [Memheap.removeFree]
  refine .setItem (.setItem .refl ?_) ?_
  all_goals exact fun _ => ⟨rfl, rfl, rfl, rfl, rfl⟩

theorem sameBlockLinks_clearFree : SameBlockLinks heap (heap.clearFree b) := .setItem .refl fun _ => ⟨rfl, rfl, rfl, rfl, rfl⟩

theorem sameBlockLinks_setAvailable : SameBlockLinks heap (heap.setAvailable n) := ⟨rfl, rfl, rfl⟩

theorem sameFreeLinks_newItem : SameFreeLinks heap (heap.newItem b) := .setItem .refl fun _ => ⟨rfl, rfl⟩

theorem sameFreeLinks_insertBlock : SameFreeLinks heap (heap.insertBlock b c) := by
  dsimp only [Memheap.insertBlock]
  refine .setItem (.setItem (.setItem .refl ?_) ?_) ?_
  all_goals exact fun _ => ⟨rfl, rfl⟩

theorem sameFreeLinks_setAvailable : SameFreeLinks heap (heap.setAvailable n) := ⟨rfl, rfl⟩

/-! ## The free list -/

abbrev FreeList (heap : Memheap) (free : List Nat) : Prop := CircularList heap.nextFree heap.prevFree heap.freeList free

theorem FreeList.congr (h : FreeList heap free) (hsame : SameFreeLinks heap heap') (hlist : heap'.freeList = heap.freeList) :
    FreeList heap' free := by
  unfold FreeList
  rw [hsame.nextFree, hsame.prevFree, hlist]
  exact h

theorem FreeList.insertFree (h : FreeList heap free) (hb : b ∉ heap.freeList :: free) :
    FreeList (heap.insertFree b) (b :: free) := by
  obtain ⟨hne, -⟩ := not_or.1 (mt List.mem_cons.2 hb)
  have hfirst_mem := h.next_header_mem
  have hfirst : heap.nextFree heap.freeList ≠ b := fun heq => hb (heq ▸ hfirst_mem)
  have hlist : ((heap.setItem b fun i =>
      { i with nextFree := (heap.item heap.freeList).nextFree, prevFree := heap.freeList }).item heap.freeList).nextFree =
      heap.nextFree heap.freeList :=
    congrArg MemheapItem.nextFree (update_of_ne (Ne.symm hne) ..)
  have hnext : (heap.insertFree b).nextFree =
      update (update heap.nextFree b (heap.nextFree heap.freeList)) heap.freeList b := by
    simp only [Memheap.insertFree]
    rw [Memheap.setItem_nextFree, Memheap.setItem_nextFree_same rfl, Memheap.setItem_nextFree]
    rfl
  have hprev : (heap.insertFree b).prevFree =
      update (update heap.prevFree b heap.freeList) (heap.nextFree heap.freeList) b := by
    simp only [Memheap.insertFree]
    rw [Memheap.setItem_prevFree_same rfl, Memheap.setItem_prevFree, Memheap.setItem_prevFree, Memheap.setItem_freeList, hlist]
  refine h.push hb ?_ ?_ ?_ ?_ ?_ ?_
  · rw [hnext, update_self]
  · rw [hnext, update_of_ne hne, update_self]
  · intro c hc
    have hcl : c ≠ heap.freeList := fun heq => (List.nodup_cons.1 h.nodup).1 (heq ▸ hc)
    have hcb : c ≠ b := fun heq => hb (heq ▸ List.mem_cons_of_mem _ hc)
    rw [hnext, update_of_ne hcl, update_of_ne hcb]
  · rw [hprev, update_of_ne hfirst.symm, update_self]
  · rw [hprev, update_self]
  · intro c hc hcf
    have hcb : c ≠ b := fun heq => hb (heq ▸ hc)
    rw [hprev, update_of_ne hcf, update_of_ne hcb]

theorem FreeList.removeFree (h : FreeList heap (F₁ ++ b :: F₂)) : FreeList (heap.removeFree b) (F₁ ++ F₂) := by
  have hne : heap.nextFree b ≠ b := h.next_ne
  have hnext : (heap.removeFree b).nextFree = update heap.nextFree (heap.prevFree b) (heap.nextFree b) := by
    simp only [Memheap.removeFree]
    have hprev : ((heap.setItem (heap.item b).nextFree fun i => { i with prevFree := (heap.item b).prevFree }).item b).prevFree =
        heap.prevFree b := congrArg MemheapItem.prevFree (update_of_ne (Ne.symm hne) ..)
    have hnext : ((heap.setItem (heap.item b).nextFree fun i => { i with prevFree := (heap.item b).prevFree }).item b).nextFree =
        heap.nextFree b := congrArg MemheapItem.nextFree (update_of_ne (Ne.symm hne) ..)
    rw [Memheap.setItem_nextFree, Memheap.setItem_nextFree_same rfl, hprev, hnext]
  have hprev : (heap.removeFree b).prevFree = update heap.prevFree (heap.nextFree b) (heap.prevFree b) := by
    simp only [Memheap.removeFree]
    rw [Memheap.setItem_prevFree_same rfl, Memheap.setItem_prevFree]
    rfl
  refine h.remove ?_ ?_ ?_ ?_
  · rw [hnext, update_self]
  · intro c _ hc
    rw [hnext, update_of_ne hc]
  · rw [hprev, update_self]
  · intro c _ hc
    rw [hprev, update_of_ne hc]

theorem FreeList.clearFree (h : FreeList heap free) (hb : b ∉ heap.freeList :: free) : FreeList (heap.clearFree b) free := by
  have hne (c : Nat) (hc : c ∈ heap.freeList :: free) : c ≠ b := fun heq => hb (heq ▸ hc)
  apply CircularList.congr h
  · intro c hc
    rw [Memheap.clearFree, Memheap.setItem_nextFree, update_of_ne (hne c hc)]
  · intro c hc
    rw [Memheap.clearFree, Memheap.setItem_prevFree, update_of_ne (hne c hc)]

/-! ## The blocks -/

namespace MemheapPool

def poolSize (pool : MemheapPool cfg) : Nat := cfg.toMem.rtAlignDown pool.size

/-- "Used Memory Block Tailer" -/
def tailer (pool : MemheapPool cfg) : Nat := pool.startAddr + pool.poolSize - cfg.headSize

theorem tailer_add (pool : MemheapPool cfg) : pool.tailer + cfg.headSize = pool.startAddr + pool.poolSize := by
  have := pool.heads
  unfold tailer poolSize
  omega

theorem tailer_lt (pool : MemheapPool cfg) : pool.tailer < 2 ^ 32 := by
  have hadd := pool.tailer_add
  have hfits := pool.fits
  have hpos := cfg.headSize_pos
  unfold poolSize at hadd
  omega

end MemheapPool

def MemheapPool.tag (pool : MemheapPool cfg) (used : Bool) : MemheapTag := ⟨used, memheapMagic, pool.self⟩

/-- The blocks of the heap, in the order of their addresses, cut the pool up to the tailer, and the circle is closed there. -/
structure MemheapTiled (pool : MemheapPool cfg) (heap : Memheap) (segs : List (Seg MemheapTag)) : Prop where
  segments : Segments cfg.headSize heap.next heap.prev heap.tag pool.startAddr segs pool.tailer
  tags : ∀ s ∈ segs, s.tag = pool.tag s.tag.used
  tail : heap.tag pool.tailer = pool.tag true
  tail_next : heap.next pool.tailer = pool.startAddr
  first : heap.prev pool.startAddr = pool.tailer

namespace MemheapTiled

theorem congr (h : MemheapTiled pool heap segs) (hsame : SameBlockLinks heap heap') : MemheapTiled pool heap' segs where
  segments := by rw [hsame.next, hsame.prev, hsame.tag]; exact h.segments
  tags := h.tags
  tail := by rw [hsame.tag]; exact h.tail
  tail_next := by rw [hsame.next]; exact h.tail_next
  first := by rw [hsame.prev]; exact h.first

theorem tailer_eq (h : MemheapTiled pool heap segs) : pool.tailer = pool.startAddr + width cfg.headSize segs :=
  h.segments.end_eq

theorem le_tailer (h : MemheapTiled pool heap (l₁ ++ s :: l₂)) (hm : m = pool.startAddr + width cfg.headSize l₁) :
    m + (cfg.headSize + s.size) ≤ pool.tailer := by
  have heq := h.tailer_eq
  rw [width_append, width_cons] at heq
  omega

theorem next_eq (h : MemheapTiled pool heap (l₁ ++ s :: l₂)) (hm : m = pool.startAddr + width cfg.headSize l₁) :
    heap.next m = m + (cfg.headSize + s.size) := (h.segments.at_mid hm).2.1

theorem tag_eq (h : MemheapTiled pool heap (l₁ ++ s :: l₂)) (hm : m = pool.startAddr + width cfg.headSize l₁) :
    heap.tag m = pool.tag s.tag.used := by
  rw [(h.segments.at_mid hm).1]
  exact h.tags s (List.mem_append_right l₁ List.mem_cons_self)

theorem memitemSize_eq (h : MemheapTiled pool heap (l₁ ++ s :: l₂)) (hm : m = pool.startAddr + width cfg.headSize l₁) :
    memitemSize cfg heap m = s.size := by
  have hnext : (heap.item m).next = m + (cfg.headSize + s.size) := h.next_eq hm
  have hle := h.le_tailer hm
  have hlt := pool.tailer_lt
  have hdiff : sub32 (m + (cfg.headSize + s.size)) m = cfg.headSize + s.size := by
    rw [sub32_eq (by omega) (by omega)]
    omega
  rw [memitemSize, hnext, hdiff, sub32_eq (by omega) (by omega)]
  omega

theorem replace (mid mid' : List (Seg MemheapTag)) (h : MemheapTiled pool heap (l₁ ++ (mid ++ l₂)))
    (hm : m = pool.startAddr + width cfg.headSize l₁) (hc : c = m + width cfg.headSize mid)
    (hmid : Segments cfg.headSize heap'.next heap'.prev heap'.tag m mid' c) (htags : ∀ s ∈ mid', s.tag = pool.tag s.tag.used)
    (hnext : ∀ a, a < m ∨ c ≤ a → heap'.next a = heap.next a) (htag : ∀ a, a < m ∨ c ≤ a → heap'.tag a = heap.tag a)
    (hprev : ∀ a, a ≤ m ∨ c < a → heap'.prev a = heap.prev a) : MemheapTiled pool heap' (l₁ ++ (mid' ++ l₂)) := by
  have heq := h.tailer_eq
  rw [width_append, width_append] at heq
  refine ⟨?_, ?_, ?_, ?_, ?_⟩
  · exact h.segments.replace cfg.headSize_pos hm hc hmid (fun a ha _ => hnext a ha) (fun a ha _ => htag a ha)
      fun a ha _ _ => hprev a ha
  · intro s hs
    rcases List.mem_append.1 hs with hs | hs
    · exact h.tags s (List.mem_append_left _ hs)
    · rcases List.mem_append.1 hs with hs | hs
      · exact htags s hs
      · exact h.tags s (List.mem_append_right l₁ (List.mem_append_right mid hs))
  · rw [htag _ (.inr (by omega))]
    exact h.tail
  · rw [hnext _ (.inr (by omega))]
    exact h.tail_next
  · rw [hprev _ (.inl (by omega))]
    exact h.first

theorem retag {used : Bool} (h : MemheapTiled pool heap (l₁ ++ s :: l₂))
    (hm : m = pool.startAddr + width cfg.headSize l₁) (hnext : heap'.next = heap.next) (hprev : heap'.prev = heap.prev)
    (htag : heap'.tag = update heap.tag m (pool.tag used)) :
    MemheapTiled pool heap' (l₁ ++ ⟨s.size, pool.tag used⟩ :: l₂) := by
  have hpos := cfg.headSize_pos
  have hat := h.segments.at_mid hm
  have hc : m + (cfg.headSize + s.size) = m + width cfg.headSize [s] := by rw [width_cons, width_nil, Nat.add_zero]
  refine replace [s] [⟨s.size, pool.tag used⟩] h hm hc ?_ ?_ ?_ ?_ ?_
  · rw [Segments.one_iff, htag, hnext, hprev, update_self]
    exact ⟨rfl, hat.2.1, hat.2.2, rfl⟩
  · intro t ht
    rw [List.mem_singleton.1 ht]
    rfl
  · intro a _
    rw [hnext]
  · intro a ha
    rw [htag, update_of_ne (by omega)]
  · intro a _
    rw [hprev]

theorem cut {new : Nat} (h : MemheapTiled pool heap (l₁ ++ s :: l₂)) (hm : m = pool.startAddr + width cfg.headSize l₁)
    (hroom : n + cfg.headSize ≤ s.size) (hnew : new = m + (cfg.headSize + n))
    (hnext : heap'.next = update (update heap.next new (heap.next m)) m new)
    (hprev : heap'.prev = update (update heap.prev new m) (heap.next m) new)
    (htag : heap'.tag = update heap.tag new (pool.tag false)) :
    MemheapTiled pool heap' (l₁ ++ ⟨n, s.tag⟩ :: ⟨s.size - n - cfg.headSize, pool.tag false⟩ :: l₂) := by
  have hpos := cfg.headSize_pos
  obtain ⟨hs, hend, -⟩ := h.segments.at_mid hm
  rw [hend] at hnext hprev
  have hc : m + (cfg.headSize + s.size) = m + width cfg.headSize [s] := by rw [width_cons, width_nil, Nat.add_zero]
  refine replace [s] [⟨n, s.tag⟩, ⟨s.size - n - cfg.headSize, pool.tag false⟩] h hm hc ?_ ?_ ?_ ?_ ?_
  · rw [Segments.cons_iff, Segments.one_iff, ← hnew]
    refine ⟨?_, ?_, ?_, ?_, ?_, ?_, ?_⟩
    · rw [htag, update_of_ne (by omega)]
      exact hs
    · rw [hnext, update_self]
    · rw [hprev, update_of_ne (by omega), update_self]
    · rw [htag, update_self]
    · rw [hnext, update_of_ne (by omega), update_self]
    · rw [hprev, update_self]
    · dsimp only
      omega
  · intro t ht
    rcases List.mem_cons.1 ht with rfl | ht
    · exact h.tags s (List.mem_append_right l₁ List.mem_cons_self)
    · rw [List.mem_singleton.1 ht]
      rfl
  · intro a ha
    rw [hnext, update_of_ne (by omega), update_of_ne (by omega)]
  · intro a ha
    rw [htag, update_of_ne (by omega)]
  · intro a ha
    rw [hprev, update_of_ne (by omega), update_of_ne (by omega)]

theorem join (h : MemheapTiled pool heap (l₁ ++ s :: t :: l₂)) (hm : m = pool.startAddr + width cfg.headSize l₁)
    (hnext : heap'.next = update heap.next m (heap.next (heap.next m)))
    (hprev : heap'.prev = update heap.prev (heap.next (heap.next m)) m) (htag : heap'.tag = heap.tag) :
    MemheapTiled pool heap' (l₁ ++ ⟨s.size + cfg.headSize + t.size, s.tag⟩ :: l₂) := by
  have hpos := cfg.headSize_pos
  obtain ⟨hs, hend, -⟩ := h.segments.at_mid hm
  have hsecond : MemheapTiled pool heap ((l₁ ++ [s]) ++ t :: l₂) := by rwa [List.append_assoc]
  have hm' : m + (cfg.headSize + s.size) = pool.startAddr + width cfg.headSize (l₁ ++ [s]) := by
    rw [width_append, width_cons, width_nil]
    omega
  have hend' := hsecond.next_eq hm'
  rw [hend, hend'] at hnext hprev
  have hc : m + (cfg.headSize + s.size) + (cfg.headSize + t.size) = m + width cfg.headSize [s, t] := by
    rw [width_cons, width_cons, width_nil]
    omega
  refine replace [s, t] [⟨s.size + cfg.headSize + t.size, s.tag⟩] h hm hc ?_ ?_ ?_ ?_ ?_
  · rw [Segments.one_iff, htag]
    refine ⟨hs, ?_, ?_, ?_⟩
    · rw [hnext, update_self]
    · rw [hprev, update_self]
    · dsimp only
      omega
  · intro u hu
    rw [List.mem_singleton.1 hu]
    exact h.tags s (List.mem_append_right l₁ List.mem_cons_self)
  · intro a ha
    rw [hnext, update_of_ne (by omega)]
  · intro a _
    rw [htag]
  · intro a ha
    rw [hprev, update_of_ne (by omega)]

theorem insertBlock {new : Nat} (h : MemheapTiled pool heap (l₁ ++ s :: l₂)) (hself : heap.self = pool.self)
    (hm : m = pool.startAddr + width cfg.headSize l₁) (hroom : n + cfg.headSize ≤ s.size)
    (hnew : new = m + (cfg.headSize + n)) :
    MemheapTiled pool ((heap.newItem new).insertBlock m new)
      (l₁ ++ ⟨n, s.tag⟩ :: ⟨s.size - n - cfg.headSize, pool.tag false⟩ :: l₂) := by
  have hpos := cfg.headSize_pos
  have hne : m ≠ new := by omega
  have hnext₀ : (heap.newItem new).next = heap.next := Memheap.setItem_next_same rfl
  have hprev₀ : (heap.newItem new).prev = heap.prev := Memheap.setItem_prev_same rfl
  have htag₀ : (heap.newItem new).tag = update heap.tag new (pool.tag false) := by
    rw [Memheap.newItem, Memheap.setItem_tag, MemheapPool.tag, hself]
  have hlink : (((heap.newItem new).setItem new fun i =>
      { i with prev := m, next := ((heap.newItem new).item m).next }).item m).next = heap.next m := by
    rw [← hnext₀]
    exact congrArg MemheapItem.next (update_of_ne hne ..)
  refine h.cut hm hroom hnew ?_ ?_ ?_
  · simp only [Memheap.insertBlock]
    rw [Memheap.setItem_next, Memheap.setItem_next_same rfl, Memheap.setItem_next, hnext₀, ← hnext₀]
    rfl
  · simp only [Memheap.insertBlock]
    rw [Memheap.setItem_prev_same rfl, Memheap.setItem_prev, Memheap.setItem_prev, hprev₀, hlink]
  · simp only [Memheap.insertBlock]
    rw [Memheap.setItem_tag_same rfl rfl rfl, Memheap.setItem_tag_same rfl rfl rfl, Memheap.setItem_tag_same rfl rfl rfl,
      htag₀]

theorem prev_eq (h : MemheapTiled pool heap (l₁ ++ s :: t :: l₂)) (hm : m = pool.startAddr + width cfg.headSize l₁) :
    heap.prev (m + (cfg.headSize + s.size)) = m := (h.segments.at_mid hm).2.2

theorem tag_next (h : MemheapTiled pool heap (l₁ ++ s :: l₂)) (hm : m = pool.startAddr + width cfg.headSize l₁) :
    heap.tag (heap.next m) = pool.tag (l₂.head?.elim true fun t => t.tag.used) := by
  rw [h.next_eq hm]
  cases l₂ with
  | nil =>
    have htail : m + (cfg.headSize + s.size) = pool.tailer := by
      rw [h.tailer_eq, width_append, width_cons, width_nil]
      omega
    rw [htail]
    exact h.tail
  | cons t l₂ =>
    have hsecond : MemheapTiled pool heap ((l₁ ++ [s]) ++ t :: l₂) := by rwa [List.append_assoc]
    have hm' : m + (cfg.headSize + s.size) = pool.startAddr + width cfg.headSize (l₁ ++ [s]) := by
      rw [width_append, width_cons, width_nil]
      omega
    exact hsecond.tag_eq hm'

theorem tag_prev (h : MemheapTiled pool heap (l₁ ++ s :: l₂)) (hm : m = pool.startAddr + width cfg.headSize l₁) :
    heap.tag (heap.prev m) = pool.tag (l₁.getLast?.elim true fun t => t.tag.used) := by
  rcases List.eq_nil_or_concat' l₁ with rfl | ⟨k₁, t, rfl⟩
  · rw [width_nil, Nat.add_zero] at hm
    rw [hm, h.first]
    exact h.tail
  · rw [List.append_assoc] at h
    have hm' : m = pool.startAddr + width cfg.headSize k₁ + (cfg.headSize + t.size) := by
      rw [hm, width_append, width_cons, width_nil]
      omega
    have hprev := h.prev_eq rfl
    rw [← hm'] at hprev
    rw [hprev, List.getLast?_concat]
    exact h.tag_eq rfl

end MemheapTiled

end RtThread
