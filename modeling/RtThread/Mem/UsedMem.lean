import RtThread.Mem.Effects

/-!
# The statistics

`RT_MEM_STATS`. Each call changes `used_mem` by the length of a block or of a part of it, and only `rt_malloc` raises `max_mem`. Where `rt_realloc` moves a block, both blocks are in use for a while.
-/

namespace RtThread

open Tiling

variable {cfg : MemConfig} {heap heap' : Heap} {blocks blocks' : Set Nat} {b ptr size : Nat} {s s' : HeapState} {op : HeapOp}
  {events : List HeapEvent} {trace : List Nat} {mem : Nat → HeapMem} {byte : Nat → UInt8} {beginAddr endAddr : Nat}

def Heap.extents (heap : Heap) : Nat := ∑ b ∈ heap.inUse, (heap.next b - b)

/-- What `rt_malloc` has made of `used_mem` within a call that moves a block. -/
def HeapEvent.innerUsed (cfg : MemConfig) (heap : Heap) : HeapEvent → List Nat
  | ⟨.realloc (some p) newsize, some q⟩ =>
    if q = p then [] else ((rtMalloc cfg heap (cfg.rtAlign newsize)).map fun r => r.2.usedMem).toList
  | _ => []

/-- A call, with the values it gives to `used_mem`. -/
def stepUsed (cfg : MemConfig) (s : HeapState) (op : HeapOp) : Option (HeapState × List Nat) :=
  (stepHeap cfg s op).map fun r => (r.1, r.2.flatMap (HeapEvent.innerUsed cfg s.heap) ++ [r.1.heap.usedMem])

/-- The runs from an initialized heap in which pointers to blocks in use are passed. -/
abbrev UsedRun (cfg : MemConfig) (heap : Heap) : List Nat → HeapState → Prop :=
  Transition.Run (stepUsed cfg) (PassesBlocks cfg) ⟨heap, []⟩

theorem InOrder.extents_lt (h : InOrder cfg heap blocks) : heap.extents < cfg.word := by
  have hle := h.tiles.sum_extents_le fun b hb => (h.mem_inUse.1 hb).1
  have hroom := h.room
  change heap.extents ≤ heap.heapEnd at hle
  omega

theorem Gives.extents (hgives : Gives cfg heap heap' blocks blocks' ptr size) (h : InOrder cfg heap blocks) :
    heap'.extents = heap.extents + (heap'.next ptr - ptr) := by
  have hnew : ptr ∉ heap.inUse := fun hin =>
    absurd (hgives.free.symm.trans (h.mem_inUse.1 hin).2) (by decide)
  have hinUse : heap'.inUse = insert ptr heap.inUse := by
    ext b
    rw [hgives.order.mem_inUse, hgives.used, Finset.mem_insert, h.mem_inUse]
  have hsame : ∑ b ∈ heap.inUse, (heap'.next b - b) = heap.extents := by
    refine Finset.sum_congr rfl fun b hb => ?_
    obtain ⟨hb, hused⟩ := h.mem_inUse.1 hb
    rw [hgives.next b hb hused]
  rw [Heap.extents, hinUse, Finset.sum_insert hnew, hsame, Nat.add_comm]

theorem Frees.extents (hfrees : Frees cfg heap heap' blocks blocks' ptr) (h : InOrder cfg heap blocks) :
    heap.extents = heap'.extents + (heap.next ptr - ptr) := by
  have hin := h.mem_inUse.2 ⟨hfrees.mem, hfrees.inUse⟩
  have hinUse : heap'.inUse = heap.inUse.erase ptr := by
    ext b
    rw [hfrees.order.mem_inUse, hfrees.used, Finset.mem_erase, h.mem_inUse]
  have hsame : ∑ b ∈ heap.inUse.erase ptr, (heap'.next b - b) = ∑ b ∈ heap.inUse.erase ptr, (heap.next b - b) := by
    refine Finset.sum_congr rfl fun b hb => ?_
    obtain ⟨hne, hb⟩ := Finset.mem_erase.1 hb
    obtain ⟨hb, hused⟩ := h.mem_inUse.1 hb
    rw [hfrees.next b hb hne hused]
  rw [Heap.extents, Heap.extents, hinUse, hsame]
  exact (Finset.sum_erase_add _ _ hin).symm

theorem Trims.extents {fin : Nat} (htrims : Trims cfg heap heap' blocks blocks' ptr fin) (h : InOrder cfg heap blocks) :
    heap.extents = heap'.extents + (heap.next ptr - fin) := by
  have hin := h.mem_inUse.2 ⟨htrims.mem, htrims.inUse⟩
  have hinUse : heap'.inUse = heap.inUse := by
    ext b
    rw [htrims.order.mem_inUse, htrims.used, h.mem_inUse]
  have hsame : ∑ b ∈ heap.inUse.erase ptr, (heap'.next b - b) = ∑ b ∈ heap.inUse.erase ptr, (heap.next b - b) := by
    refine Finset.sum_congr rfl fun b hb => ?_
    obtain ⟨hne, hb⟩ := Finset.mem_erase.1 hb
    obtain ⟨hb, hused⟩ := h.mem_inUse.1 hb
    rw [htrims.next b hb hne hused]
  obtain ⟨hlow, hhigh⟩ := htrims.inside
  have hstops := htrims.stops
  rw [Heap.extents, Heap.extents, hinUse, ← Finset.sum_erase_add _ _ hin, ← Finset.sum_erase_add heap.inUse _ hin, hsame]
  omega

/-- The statistics are right: `used_mem` is the length of the blocks in use, and the largest of its values is `max_mem`. -/
structure Counted (heap : Heap) (values : List Nat) : Prop where
  usedMem : heap.usedMem = heap.extents
  le_max : heap.usedMem ≤ heap.maxMem
  maxMem : IsGreatest {v | v ∈ 0 :: values} heap.maxMem

variable {values : List Nat}

theorem isGreatest_concat_of_le {u m : Nat} (h : IsGreatest {v | v ∈ 0 :: values} m) (hle : u ≤ m) :
    IsGreatest {v | v ∈ 0 :: (values ++ [u])} m := by
  have hmem : ∀ x, x ∈ 0 :: (values ++ [u]) ↔ x ∈ 0 :: values ∨ x = u := fun x => by
    simp only [List.mem_cons, List.mem_append, List.not_mem_nil, or_false, or_assoc]
  refine ⟨(hmem m).2 (.inl h.1), fun x hx => ?_⟩
  rcases (hmem x).1 hx with hx | rfl
  · exact h.2 hx
  · exact hle

theorem isGreatest_concat {u m : Nat} (h : IsGreatest {v | v ∈ 0 :: values} m) :
    IsGreatest {v | v ∈ 0 :: (values ++ [u])} (max m u) := by
  rcases Nat.le_total u m with hle | hle
  · rw [max_eq_left hle]
    exact isGreatest_concat_of_le h hle
  · rw [max_eq_right hle]
    refine ⟨by simp, fun x hx => ?_⟩
    rcases List.mem_cons.1 hx with rfl | hx
    · exact Nat.zero_le u
    · rcases List.mem_append.1 hx with hx | hx
      · exact (h.2 (List.mem_cons_of_mem 0 hx)).trans hle
      · exact (List.mem_singleton.1 hx).le

theorem Gives.counted (hgives : Gives cfg heap heap' blocks blocks' ptr size) (h : InOrder cfg heap blocks)
    (hcount : Counted heap values) : Counted heap' (values ++ [heap'.usedMem]) := by
  have hext := hgives.extents h
  have hlt := hgives.order.extents_lt
  have hused : heap'.usedMem = heap'.extents := by
    rw [hgives.usedMem, hcount.usedMem, hext]
    exact MemConfig.add_eq (by omega)
  refine ⟨hused, ?_, ?_⟩
  · rw [hgives.maxMem]
    exact le_max_right ..
  · rw [hgives.maxMem]
    exact isGreatest_concat hcount.maxMem

theorem Counted.less (hcount : Counted heap values) {n : Nat} (hext : heap.extents = heap'.extents + n)
    (hlt : heap.extents < cfg.word) (hused : heap'.usedMem = cfg.sub heap.usedMem n) (hmax : heap'.maxMem = heap.maxMem) :
    Counted heap' (values ++ [heap'.usedMem]) := by
  have hsub : heap'.usedMem = heap'.extents := by
    rw [hused, hcount.usedMem, MemConfig.sub_eq (by omega) hlt]
    omega
  have hle := hcount.le_max
  have heq := hcount.usedMem
  have hle' : heap'.usedMem ≤ heap'.maxMem := by omega
  refine ⟨hsub, hle', ?_⟩
  rw [hmax] at hle' ⊢
  exact isGreatest_concat_of_le hcount.maxMem hle'

theorem Frees.counted (hfrees : Frees cfg heap heap' blocks blocks' ptr) (h : InOrder cfg heap blocks)
    (hcount : Counted heap values) : Counted heap' (values ++ [heap'.usedMem]) :=
  hcount.less (hfrees.extents h) h.extents_lt hfrees.usedMem hfrees.maxMem

theorem Unmoved.innerUsed (hplain : Unmoved events) : events.flatMap (HeapEvent.innerUsed cfg heap) = [] := by
  refine List.flatMap_eq_nil_iff.2 fun e he => ?_
  unfold HeapEvent.innerUsed
  split
  · next p newsize q =>
    rcases hplain _ he p newsize rfl with hnone | hsame
    · cases hnone
    · rw [if_pos (Option.some.inj hsame)]
  · rfl

theorem CallEffect.counted (heffect : CallEffect cfg heap blocks events heap' blocks') (h : InOrder cfg heap blocks)
    (hcount : Counted heap values) :
    Counted heap' (values ++ (events.flatMap (HeapEvent.innerUsed cfg heap) ++ [heap'.usedMem])) := by
  cases heffect with
  | quiet byte hplain =>
    rw [hplain.innerUsed]
    exact ⟨hcount.usedMem, hcount.le_max, isGreatest_concat_of_le hcount.maxMem hcount.le_max⟩
  | gives byte hplain hgives =>
    rw [hplain.innerUsed]
    obtain ⟨hused, hle, hmax⟩ := hgives.counted h hcount
    exact ⟨hused, hle, hmax⟩
  | frees hplain hfrees =>
    rw [hplain.innerUsed]
    exact hfrees.counted h hcount
  | trims _ _ htrims =>
    rw [List.flatMap_singleton, HeapEvent.innerUsed, if_pos rfl]
    exact hcount.less (htrims.extents h) h.extents_lt htrims.usedMem htrims.maxMem
  | @moves heap₁ _ blocks₁ _ ptr ptr' _ _ byte hmalloc hgives hfrees hne =>
    have hmoved : heap.pointer cfg ptr' ≠ heap.pointer cfg ptr := by
      unfold Heap.pointer
      omega
    rw [List.flatMap_singleton, HeapEvent.innerUsed, if_neg hmoved, hmalloc, Option.map_some, Option.toList_some,
      ← List.append_assoc]
    obtain ⟨hused, hle, hmax⟩ := hgives.counted h hcount
    exact hfrees.counted (hgives.order.setByte byte) ⟨hused, hle, hmax⟩

/-- In every run `used_mem` is the length of the blocks in use, headers included, and `max_mem` is the largest value it has had. -/
theorem usedMem_of_run (hend : endAddr < cfg.word) (hinit : rtSystemHeapInit cfg mem byte beginAddr endAddr = some heap)
    (hrun : UsedRun cfg heap trace s) :
    s.heap.usedMem = ∑ b ∈ s.heap.inUse, (s.heap.next b - b) ∧ IsGreatest {v | v ∈ 0 :: trace} s.heap.maxMem := by
  have hinv : (∃ blocks, InOrder cfg s.heap blocks) ∧ Counted s.heap trace := by
    refine hrun.invariant (I := fun trace s => (∃ blocks, InOrder cfg s.heap blocks) ∧ Counted s.heap trace) ?_ ?_
    · have h := rtSystemHeapInit_inOrder hend hinit
      obtain ⟨⟨hfree, -⟩, -, hused, hmax⟩ := rtSystemHeapInit_start hinit
      have hnone : heap.inUse = ∅ := by
        refine Finset.eq_empty_of_forall_notMem fun b hb => ?_
        obtain ⟨rfl, hb⟩ := h.mem_inUse.1 hb
        exact absurd (hfree.symm.trans hb) (by decide)
      refine ⟨⟨{0}, h⟩, ⟨?_, ?_, ?_⟩⟩
      · show heap.usedMem = heap.extents
        rw [hused, Heap.extents, hnone, Finset.sum_empty]
      · exact (hused.trans hmax.symm).le
      · show IsGreatest {v | v ∈ [0]} heap.maxMem
        rw [hmax]
        exact ⟨List.mem_singleton_self 0, fun u hu => (List.mem_singleton.1 hu).le⟩
    · rintro trace s op s' values ⟨⟨blocks, h⟩, hcount⟩ hok hs
      obtain ⟨⟨s'', events⟩, hstep, heq⟩ := Option.map_eq_some_iff.1 hs
      cases heq
      obtain ⟨blocks', heffect⟩ := h.callEffect hok hstep
      exact ⟨⟨blocks', heffect.inOrder h⟩, heffect.counted h hcount⟩
  exact ⟨hinv.2.usedMem, hinv.2.maxMem⟩

/-- A block is moved and the other one is released: for a while all three were in use. -/
theorem usedMem_of_run_moved : ∃ trace s, UsedRun smallConfig smallHeap trace s ∧ trace = [72, 104, 180, 108, 76] ∧
    s.heap.inUse = {104} ∧ s.heap.usedMem = ∑ b ∈ s.heap.inUse, (s.heap.next b - b) ∧
      IsGreatest {v | v ∈ 0 :: trace} s.heap.maxMem := by
  obtain ⟨trace, s, hrun, hfound⟩ := @Transition.exists_run_of_exec _ _ _ (stepUsed smallConfig) (PassesBlocks smallConfig) ⟨smallHeap, []⟩ _
    [.malloc 60, .malloc 20, .realloc (some 0x20000010) 64, .free (some 0x20000058)]
    (fun trace s => decide (trace = [72, 104, 180, 108, 76] ∧ s.heap.inUse = {104})) (by decide +kernel)
  obtain ⟨htrace, hused⟩ := of_decide_eq_true hfound
  exact ⟨trace, s, hrun, htrace, hused, usedMem_of_run (by decide) smallHeap_init hrun⟩

end RtThread
