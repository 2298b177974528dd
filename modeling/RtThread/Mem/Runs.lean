import RtThread.Mem.Invariant

/-!
# Every run of the heap

The application allocates, releases and writes. Beside the heap the runs keep the allocations that are live: the pointers the heap has returned and not taken back, with the sizes asked for.
-/

namespace RtThread

open Tiling

inductive HeapOp
  | malloc (size : Nat)
  | realloc (rmem : Option Nat) (newsize : Nat)
  | calloc (count size : Nat)
  | free (rmem : Option Nat)
  /-- The application writes to memory it has been given. -/
  | write (addr : Nat) (byte : UInt8)
  deriving DecidableEq

structure HeapEvent where
  op : HeapOp
  result : Option Nat
  deriving DecidableEq

structure HeapState where
  heap : Heap
  live : List (Nat × Nat)

namespace HeapState

/-- What an allocation of `size` bytes adds. -/
def give (live : List (Nat × Nat)) (size : Nat) : Option Nat → List (Nat × Nat)
  | none => live
  | some p => (p, size) :: live

def drop (live : List (Nat × Nat)) (rmem : Option Nat) : List (Nat × Nat) :=
  live.filter fun x => some x.1 ≠ rmem

end HeapState

/-- The application passes live pointers and `RT_NULL`, and no size wraps when it is aligned. -/
def HeapUse (cfg : MemConfig) (s : HeapState) : HeapOp → Prop
  | .malloc size => size + cfg.alignSize - 1 < cfg.word
  | .realloc rmem newsize => (∀ p ∈ rmem, p ∈ s.live.map Prod.fst) ∧ newsize + cfg.alignSize - 1 < cfg.word
  | .calloc count size => count * size + cfg.alignSize - 1 < cfg.word
  | .free rmem => ∀ p ∈ rmem, p ∈ s.live.map Prod.fst
  | .write addr _ => ∃ x ∈ s.live, x.1 ≤ addr ∧ addr < x.1 + x.2

instance (cfg : MemConfig) (s : HeapState) (op : HeapOp) : Decidable (HeapUse cfg s op) := by
  cases op <;> unfold HeapUse <;> infer_instance

def stepHeap (cfg : MemConfig) (s : HeapState) (op : HeapOp) : Option (HeapState × List HeapEvent) :=
  match op with
  | .malloc size =>
    (rtMalloc cfg s.heap size).map fun r => (⟨r.2, HeapState.give s.live size r.1⟩, [⟨op, r.1⟩])
  | .realloc rmem newsize =>
    (rtRealloc cfg s.heap rmem newsize).map fun r =>
      -- a failed call keeps the block, unless it asked for nothing
      let live := if r.1 = none ∧ newsize ≠ 0 then s.live else HeapState.drop s.live rmem
      (⟨r.2, HeapState.give live newsize r.1⟩, [⟨op, r.1⟩])
  | .calloc count size =>
    (rtCalloc cfg s.heap count size).map fun r => (⟨r.2, HeapState.give s.live (count * size) r.1⟩, [⟨op, r.1⟩])
  | .free rmem => (rtFree cfg s.heap rmem).map fun heap => (⟨heap, HeapState.drop s.live rmem⟩, [⟨op, none⟩])
  | .write addr byte => some (⟨{ s.heap with byte := Function.update s.heap.byte addr byte }, s.live⟩, [])

abbrev HeapRun (cfg : MemConfig) (heap : Heap) : List HeapEvent → HeapState → Prop :=
  Transition.Run (stepHeap cfg) (HeapUse cfg) ⟨heap, []⟩

variable {cfg : MemConfig} {heap heap' : Heap} {blocks blocks' : Set Nat} {live : List (Nat × Nat)} {size ptr : Nat}

structure LiveInv (cfg : MemConfig) (heap : Heap) (blocks : Set Nat) (live : List (Nat × Nat)) : Prop where
  payload : ∀ x ∈ live, 0 < x.2 ∧ ∃ ptr, Payload cfg heap blocks x.1 ptr x.2
  nodup : (live.map Prod.fst).Nodup

theorem Payload.inj {p q m n : Nat} {ptr' : Nat} (hp : Payload cfg heap blocks p ptr m)
    (hq : Payload cfg heap blocks q ptr' n) : p = q ↔ ptr = ptr' := by
  rw [hp.address, hq.address]
  omega

theorem Payload.mono {p n : Nat} (hp : Payload cfg heap blocks p ptr size) (hle : n ≤ size) :
    Payload cfg heap blocks p ptr n :=
  ⟨hp.mem, hp.used, hp.address, (Nat.add_le_add_left hle _).trans hp.fits⟩

theorem LiveInv.keep (h : LiveInv cfg heap blocks live) (hkeeps : Keeps ∅ heap heap' blocks blocks') :
    LiveInv cfg heap' blocks' live := by
  refine ⟨fun x hx => ?_, h.nodup⟩
  obtain ⟨hpos, ptr, hp⟩ := h.payload x hx
  exact ⟨hpos, ptr, hp.keep hkeeps (Set.notMem_empty ptr)⟩

theorem drop_none (live : List (Nat × Nat)) : HeapState.drop live none = live :=
  List.filter_eq_self.2 fun _ _ => by simp

theorem LiveInv.drop {p : Nat} (h : LiveInv cfg heap blocks live) (hkeeps : Keeps {ptr} heap heap' blocks blocks')
    (hp : Payload cfg heap blocks p ptr size) : LiveInv cfg heap' blocks' (HeapState.drop live (some p)) := by
  refine ⟨fun x hx => ?_, h.nodup.sublist (List.filter_sublist.map Prod.fst)⟩
  obtain ⟨hx, hne⟩ := List.mem_filter.1 hx
  obtain ⟨hpos, ptr', hp'⟩ := h.payload x hx
  refine ⟨hpos, ptr', hp'.keep hkeeps fun heq => ?_⟩
  have hsame : x.1 = p := (hp'.inj hp).2 heq
  simp [hsame] at hne

theorem LiveInv.give {p : Nat} (h : LiveInv cfg heap blocks live) (hp : Payload cfg heap blocks p ptr size)
    (hpos : 0 < size) (hfresh : p ∉ live.map Prod.fst) : LiveInv cfg heap blocks ((p, size) :: live) := by
  refine ⟨fun x hx => ?_, List.nodup_cons.2 ⟨hfresh, h.nodup⟩⟩
  rcases List.mem_cons.1 hx with rfl | hx
  · exact ⟨hpos, ptr, hp⟩
  · exact h.payload x hx

theorem LiveInv.fresh {p : Nat} (h : LiveInv cfg heap blocks live) (hfree : heap.used ptr = false)
    (hregion : SameRegion heap heap') (hp : Payload cfg heap' blocks' p ptr size) : p ∉ live.map Prod.fst := by
  intro hmem
  obtain ⟨x, hx, heq⟩ := List.mem_map.1 hmem
  obtain ⟨-, ptr', hp'⟩ := h.payload x hx
  have haddress := hp'.address
  rw [heq, hp.address, hregion.heapPtr] at haddress
  have hsame : ptr' = ptr := by omega
  rw [← hsame, hp'.used] at hfree
  cases hfree

structure HeapStateInv (cfg : MemConfig) (s : HeapState) : Prop where
  blocks : ∃ blocks, HeapInv cfg s.heap blocks ∧ LiveInv cfg s.heap blocks s.live
  oneBlock : cfg.minSizeAligned ≤ s.heap.memSizeAligned

theorem LiveInv.allocate {n : Nat} {r : Option Nat} (h : LiveInv cfg heap blocks live)
    (halloc : Allocated cfg heap heap' blocks blocks' (cfg.rtAlign n) r) (hpos : r ≠ none → n ≠ 0)
    (hn : n + cfg.alignSize - 1 < cfg.word) : LiveInv cfg heap' blocks' (HeapState.give live n r) := by
  have hkept := h.keep halloc.keeps
  cases r with
  | none => exact hkept
  | some p =>
    obtain ⟨ptr, -, hfree, hp⟩ := halloc.result p rfl
    refine hkept.give (hp.mono (MemConfig.le_rtAlign hn)) (Nat.pos_of_ne_zero (hpos (Option.some_ne_none p))) ?_
    exact h.fresh hfree halloc.keeps.region hp

theorem LiveInv.reallocate {p n : Nat} {r : Option Nat} (h : LiveInv cfg heap blocks live)
    (hp : Payload cfg heap blocks p ptr size) (hrealloc : Reallocated cfg heap heap' blocks blocks' ptr (cfg.rtAlign n) r)
    (hn : n + cfg.alignSize - 1 < cfg.word) :
    LiveInv cfg heap' blocks' (HeapState.give (if r = none ∧ n ≠ 0 then live else HeapState.drop live (some p)) n r) := by
  have hle := MemConfig.le_rtAlign hn
  have hdropped := h.drop hrealloc.keeps hp
  cases r with
  | none =>
    split_ifs with hfailed
    · exact h.keep (hrealloc.failed rfl (by omega))
    · exact hdropped
  | some q =>
    obtain ⟨ptr', hptr', hq⟩ := hrealloc.result q rfl
    have hpos : 0 < n := by
      have hzero := hrealloc.nonzero (Option.some_ne_none q)
      by_contra hnot
      obtain rfl : n = 0 := by omega
      refine hzero (MemConfig.rtAlign_of_dvd (Nat.dvd_zero _) hn)
    rw [if_neg (by simp)]
    refine hdropped.give (hq.mono hle) hpos fun hmem => ?_
    obtain ⟨x, hx, heq⟩ := List.mem_map.1 hmem
    obtain ⟨hx, hne⟩ := List.mem_filter.1 hx
    rcases hptr' with rfl | ⟨-, hfree⟩
    · have hqp : q = p := by rw [hq.address, hp.address, hrealloc.keeps.region.heapPtr]
      simp [heq, hqp] at hne
    · exact h.fresh hfree hrealloc.keeps.region hq (List.mem_map.2 ⟨x, hx, heq⟩)

theorem LiveInv.payload_of_mem {p : Nat} (h : LiveInv cfg heap blocks live) (hmem : p ∈ live.map Prod.fst) :
    ∃ ptr size, 0 < size ∧ Payload cfg heap blocks p ptr size := by
  obtain ⟨x, hx, rfl⟩ := List.mem_map.1 hmem
  obtain ⟨hpos, ptr, hp⟩ := h.payload x hx
  exact ⟨ptr, x.2, hpos, hp⟩

variable {s : HeapState}

theorem HeapStateInv.realloc (h : HeapStateInv cfg s) {rmem : Option Nat} {newsize : Nat}
    (hlive : ∀ p ∈ rmem, p ∈ s.live.map Prod.fst) (hsize : newsize + cfg.alignSize - 1 < cfg.word) :
    ∃ r heap', rtRealloc cfg s.heap rmem newsize = some (r, heap') ∧ HeapStateInv cfg ⟨heap', HeapState.give
      (if r = none ∧ newsize ≠ 0 then s.live else HeapState.drop s.live rmem) newsize r⟩ := by
  obtain ⟨⟨blocks, hinv, hlist⟩, hone⟩ := h
  cases rmem with
  | some p =>
    obtain ⟨ptr, size, hpos, hp⟩ := hlist.payload_of_mem (hlive p rfl)
    obtain ⟨r, heap', blocks', heq, hrealloc⟩ := hinv.realloc hone hp hpos newsize
    refine ⟨r, heap', heq, ⟨blocks', hrealloc.inv, hlist.reallocate hp hrealloc hsize⟩, ?_⟩
    rw [hrealloc.keeps.region.memSizeAligned]
    exact hone
  | none =>
    simp only [drop_none, ite_self]
    unfold rtRealloc
    dsimp only
    have hroom := hinv.room
    have hend := hinv.end_eq
    have halign := cfg.alignSize_le_sizeof
    split_ifs with hlarge hzero
    · exact ⟨none, s.heap, rfl, ⟨blocks, hinv, hlist⟩, hone⟩
    · exact ⟨none, s.heap, rfl, ⟨blocks, hinv, hlist⟩, hone⟩
    · obtain ⟨r, heap', blocks', heq, halloc, -⟩ := hinv.malloc hone (cfg.rtAlign newsize)
      rw [MemConfig.rtAlign_of_dvd (cfg.rtAlign_dvd newsize) (by omega)] at halloc
      refine ⟨r, heap', heq, ⟨blocks', halloc.inv, hlist.allocate halloc (fun _ hnil => hzero ?_) hsize⟩, ?_⟩
      · rw [hnil] at hsize ⊢
        exact MemConfig.rtAlign_of_dvd (Nat.dvd_zero _) hsize
      · rw [halloc.keeps.region.memSizeAligned]
        exact hone

theorem HeapStateInv.step (h : HeapStateInv cfg s) {op : HeapOp} (hok : HeapUse cfg s op) :
    ∃ s' events, stepHeap cfg s op = some (s', events) ∧ HeapStateInv cfg s' := by
  obtain ⟨⟨blocks, hinv, hlist⟩, hone⟩ := id h
  cases op with
  | malloc size =>
    obtain ⟨r, heap', blocks', heq, halloc, hzero⟩ := hinv.malloc hone size
    refine ⟨_, _, by rw [stepHeap, heq]; rfl, ⟨blocks', halloc.inv, hlist.allocate halloc hzero hok⟩, ?_⟩
    exact halloc.keeps.region.memSizeAligned ▸ hone
  | realloc rmem newsize =>
    obtain ⟨r, heap', heq, hnext⟩ := h.realloc hok.1 hok.2
    exact ⟨_, _, by rw [stepHeap, heq]; rfl, hnext⟩
  | calloc count size =>
    have hok : count * size + cfg.alignSize - 1 < cfg.word := hok
    have hpos := cfg.alignSize_pos
    have hmul : cfg.mul count size = count * size := Nat.mod_eq_of_lt (by omega)
    obtain ⟨r, heap', blocks', heq, halloc, hzero⟩ := hinv.calloc hone count size
    rw [hmul] at halloc hzero
    refine ⟨_, _, by rw [stepHeap, heq]; rfl, ⟨blocks', halloc.inv, hlist.allocate halloc hzero hok⟩, ?_⟩
    exact halloc.keeps.region.memSizeAligned ▸ hone
  | free rmem =>
    cases rmem with
    | none => exact ⟨_, _, rfl, ⟨blocks, hinv, (drop_none s.live).symm ▸ hlist⟩, hone⟩
    | some p =>
      obtain ⟨ptr, size, hpos, hp⟩ := hlist.payload_of_mem (hok p rfl)
      obtain ⟨heap', blocks', heq, hinv', hkeeps⟩ := hinv.free hp hpos
      refine ⟨_, _, by rw [stepHeap, heq]; rfl, ⟨blocks', hinv', hlist.drop hkeeps hp⟩, ?_⟩
      exact hkeeps.region.memSizeAligned ▸ hone
  | write addr byte =>
    exact ⟨_, _, rfl, ⟨blocks, hinv.setByte _, hlist.keep (.setByte s.heap blocks _)⟩, hone⟩

/-! ## The structure of the heap -/

/-- The headers reached from `heap_ptr` by following `next`. -/
def heapBlocks (heap : Heap) : List Nat := Tiling.chain heap.next heap.heapEnd heap.rounds 0

/-- The blocks tile the heap and are linked both ways, without adjacent free blocks; the live allocations are payloads of different blocks. -/
structure HeapStructure (cfg : MemConfig) (s : HeapState) : Prop where
  first : (heapBlocks s.heap).head? = some 0
  /-- A block ends where the next one begins, and has room for its header. -/
  linked : (heapBlocks s.heap).IsChain fun b c => b + cfg.sizeofStructMem ≤ c ∧ (s.heap.mem b).next = c ∧
    (s.heap.mem c).prev = b ∧ ((s.heap.mem b).used = true ∨ (s.heap.mem c).used = true)
  last : ∀ b ∈ (heapBlocks s.heap).getLast?, b + cfg.sizeofStructMem ≤ s.heap.heapEnd ∧
    (s.heap.mem b).next = s.heap.heapEnd
  /-- A live allocation is the payload of a block in use. -/
  payload : ∀ x ∈ s.live, ∃ b ∈ heapBlocks s.heap, (s.heap.mem b).used = true ∧
    x.1 = s.heap.heapPtr + b + cfg.sizeofStructMem ∧ x.1 + x.2 ≤ s.heap.heapPtr + (s.heap.mem b).next
  aligned : ∀ x ∈ s.live, x.1 % cfg.alignSize = 0
  inside : ∀ x ∈ s.live, s.heap.heapPtr ≤ x.1 ∧ x.1 + x.2 ≤ s.heap.heapPtr + s.heap.heapEnd
  disjoint : s.live.Pairwise fun x y => x.1 + x.2 ≤ y.1 ∨ y.1 + y.2 ≤ x.1
  returns : ∀ op, HeapUse cfg s op → (stepHeap cfg s op).isSome

theorem HeapStateInv.heapStructure (h : HeapStateInv cfg s) : HeapStructure cfg s := by
  obtain ⟨⟨blocks, hinv, hlist⟩, hone⟩ := id h
  obtain ⟨rest, hchain, hlinks, hlast⟩ := hinv.tiles.chain_links cfg.sizeofStructMem_pos hinv.tiles.start
    (show s.heap.heapEnd - 0 < s.heap.rounds from Nat.lt_succ_of_le (Nat.sub_le ..))
  have hblocks : heapBlocks s.heap = 0 :: rest := hchain
  have hmem (b : Nat) (hb : b ∈ blocks) : b ∈ heapBlocks s.heap :=
    hinv.tiles.mem_chain cfg.sizeofStructMem_pos hinv.tiles.start (Nat.lt_succ_of_le (Nat.sub_le ..)) hb (Nat.zero_le b)
  rw [← hblocks] at hlinks hlast
  refine ⟨by rw [hblocks]; rfl, hlinks.imp fun b c hbc => ?_, fun b hb => ?_, fun x hx => ?_, fun x hx => ?_,
    fun x hx => ?_, ?_, fun op hok => ?_⟩
  · obtain ⟨hb, hc, rfl⟩ := hbc
    refine ⟨hinv.wide hb, rfl, hinv.tiles.prev_next cfg.sizeofStructMem_pos hb (hinv.not_end hc), ?_⟩
    cases hused : (s.heap.mem b).used with
    | true => exact .inl rfl
    | false => exact .inr (hinv.plugged b hb hused)
  · obtain ⟨hb, hnext⟩ := hlast b hb
    exact ⟨hnext ▸ hinv.wide hb, hnext⟩
  · obtain ⟨-, b, hp⟩ := hlist.payload x hx
    have hfits := hp.fits
    have haddress := hp.address
    refine ⟨b, hmem b hp.mem, hp.used, haddress, ?_⟩
    change _ ≤ s.heap.heapPtr + s.heap.next b
    omega
  · obtain ⟨hpos, b, hp⟩ := hlist.payload x hx
    exact (hp.bounds hinv.toHeapBlocks hpos).1
  · obtain ⟨-, b, hp⟩ := hlist.payload x hx
    have hfits := hp.fits
    have haddress := hp.address
    have hle := hinv.next_le hp.mem
    omega
  · have hnodup : s.live.Pairwise fun x y => x.1 ≠ y.1 := List.pairwise_map.1 hlist.nodup
    refine hnodup.imp_of_mem fun {x y} hx hy hne => ?_
    obtain ⟨-, b, hpx⟩ := hlist.payload x hx
    obtain ⟨-, c, hpy⟩ := hlist.payload y hy
    have hbc : b ≠ c := fun heq => hne ((hpx.inj hpy).2 heq)
    have hx_address := hpx.address
    have hy_address := hpy.address
    have hx_fits := hpx.fits
    have hy_fits := hpy.fits
    rcases Nat.lt_or_gt_of_ne hbc with hlt | hlt
    · have := hinv.tiles.apart b hpx.mem c hpy.mem hlt
      omega
    · have := hinv.tiles.apart c hpy.mem b hpx.mem hlt
      omega
  · obtain ⟨s', events, heq, -⟩ := h.step hok
    rw [heq]
    rfl

variable {mem : Nat → HeapMem} {byte : Nat → UInt8} {beginAddr endAddr : Nat} {trace : List HeapEvent}

/-- In every state of every run the heap is in order. -/
theorem heapStructure_of_run (hend : endAddr < cfg.word)
    (hinit : rtSystemHeapInit cfg mem byte beginAddr endAddr = some heap)
    (hone : cfg.minSizeAligned ≤ heap.memSizeAligned) (hrun : HeapRun cfg heap trace s) : HeapStructure cfg s := by
  refine HeapStateInv.heapStructure (hrun.state_invariant (I := HeapStateInv cfg) ?_ ?_)
  · exact ⟨⟨{0}, rtSystemHeapInit_inv hend hinit, by simp, List.nodup_nil⟩, hone⟩
  · intro s op s' events hinv hok hstep
    obtain ⟨s'', events', heq, hnext⟩ := hinv.step hok
    obtain ⟨rfl, -⟩ := Prod.mk.inj (Option.some.inj (heq.symm.trans hstep))
    exact hnext

/-- A 32-bit heap of 256 bytes: of three allocations the second is released, the first moves there, the third gets smaller, and a fourth takes the place of the first. -/
theorem heapStructure_of_run_moved : ∃ cfg heap trace s,
    rtSystemHeapInit cfg (fun _ => ⟨0, false, 0, 0⟩) (fun _ => 0) 0x20000002 0x20000100 = some heap ∧
      HeapRun cfg heap trace s ∧ s.live = [(0x20000010, 12), (0x20000048, 4), (0x20000028, 16)] ∧
      heapBlocks s.heap = [0, 24, 56, 72] ∧ HeapStructure cfg s := by
  let cfg : MemConfig := ⟨false, false, 2, by decide⟩
  let heap := (rtSystemHeapInit cfg (fun _ => ⟨0, false, 0, 0⟩) (fun _ => 0) 0x20000002 0x20000100).get
    (by decide +kernel)
  have hinit : rtSystemHeapInit cfg (fun _ => ⟨0, false, 0, 0⟩) (fun _ => 0) 0x20000002 0x20000100 = some heap :=
    (Option.some_get _).symm
  obtain ⟨trace, s, hrun, hfound⟩ := @Transition.exists_run_of_exec _ _ _ (stepHeap cfg) (HeapUse cfg) ⟨heap, []⟩ _
    [.malloc 10, .malloc 20, .malloc 40, .free (some 0x20000028), .realloc (some 0x20000010) 16,
      .realloc (some 0x20000048) 4, .calloc 2 6, .write 0x20000010 7]
    (fun _ s => decide (s.live = [(0x20000010, 12), (0x20000048, 4), (0x20000028, 16)] ∧
      heapBlocks s.heap = [0, 24, 56, 72])) (by decide +kernel)
  obtain ⟨hlive, hblocks⟩ := of_decide_eq_true hfound
  exact ⟨cfg, heap, trace, s, hinit, hrun, hlive, hblocks,
    heapStructure_of_run (by decide) hinit (by decide +kernel) hrun⟩

end RtThread
