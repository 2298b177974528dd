import RtThread.Mem.Heap

/-!
# Memory heaps

`memheap.c`. The headers of a pool are linked in two circles, one of all blocks in the order of their addresses and one of the free blocks behind the header in the `struct rt_memheap`. Addresses and sizes have 32 bits, so sums and differences wrap. `RT_NULL` among the links is zero, and `none` where it is given to a function or returned by one. A function whose `RT_ASSERT` fails, or whose loop does not come to an end, gives `none`. Every call holds the lock of the heap while it uses the headers, so calls do not overlap.
-/

namespace RtThread

def add32 (a b : Nat) : Nat := (a + b) % 2 ^ 32

def sub32 (a b : Nat) : Nat := (a + 2 ^ 32 - b) % 2 ^ 32

/-- `RT_ALIGN_SIZE`, a power of two. -/
structure MemheapConfig where
  alignShift : Nat
  alignShift_lt : alignShift < 31

namespace MemheapConfig

/-- For `RT_ALIGN` in 32 bits. -/
def toMem (cfg : MemheapConfig) : MemConfig := ⟨false, false, cfg.alignShift, cfg.alignShift_lt⟩

/-- `RT_MEMHEAP_SIZE`: the item has six words. -/
def headSize (cfg : MemheapConfig) : Nat := cfg.toMem.rtAlign 24

/-- A requested size is aligned, and at least `RT_MEMHEAP_MINIALLOC`. -/
def itemSize (cfg : MemheapConfig) (size : Nat) : Nat :=
  let size := cfg.toMem.rtAlign size
  if size < 12 then 12 else size

end MemheapConfig

def memheapMagic : Nat := 0x1ea01ea0

/-- `struct rt_memheap_item`. The lowest bit of `magic` is kept apart, in `used`. -/
structure MemheapItem where
  magic : Nat
  used : Bool
  poolPtr : Nat
  next : Nat
  prev : Nat
  nextFree : Nat
  prevFree : Nat
  deriving DecidableEq

structure Memheap where
  /-- Where the `struct rt_memheap` is. -/
  self : Nat
  startAddr : Nat
  poolSize : Nat
  availableSize : Nat
  maxUsedSize : Nat
  blockList : Nat
  /-- The address of `free_header`. -/
  freeList : Nat
  item : Nat → MemheapItem
  byte : Nat → UInt8

namespace Memheap

def setItem (heap : Memheap) (ptr : Nat) (f : MemheapItem → MemheapItem) : Memheap :=
  { heap with item := Function.update heap.item ptr (f (heap.item ptr)) }

/-- "mark the new block as a memory block and freed" -/
def newItem (heap : Memheap) (ptr : Nat) : Memheap :=
  heap.setItem ptr fun i => { i with magic := memheapMagic, used := false, poolPtr := heap.self }

/-- "break down the block list": `new` comes behind `header`. -/
def insertBlock (heap : Memheap) (header new : Nat) : Memheap :=
  let heap := heap.setItem new fun i => { i with prev := header, next := (heap.item header).next }
  let heap := heap.setItem (heap.item header).next fun i => { i with prev := new }
  heap.setItem header fun i => { i with next := new }

/-- "insert to free list", behind the header of the list. -/
def insertFree (heap : Memheap) (ptr : Nat) : Memheap :=
  let heap := heap.setItem ptr fun i =>
    { i with nextFree := (heap.item heap.freeList).nextFree, prevFree := heap.freeList }
  let heap := heap.setItem (heap.item heap.freeList).nextFree fun i => { i with prevFree := ptr }
  heap.setItem heap.freeList fun i => { i with nextFree := ptr }

/-- "remove from free list" -/
def removeFree (heap : Memheap) (ptr : Nat) : Memheap :=
  let heap := heap.setItem (heap.item ptr).nextFree fun i => { i with prevFree := (heap.item ptr).prevFree }
  heap.setItem (heap.item ptr).prevFree fun i => { i with nextFree := (heap.item ptr).nextFree }

def clearFree (heap : Memheap) (ptr : Nat) : Memheap := heap.setItem ptr fun i => { i with nextFree := 0, prevFree := 0 }

/-- `available_size` is set, and `max_used_size` follows. -/
def setAvailable (heap : Memheap) (size : Nat) : Memheap :=
  { heap with
    availableSize := size
    maxUsedSize := if heap.maxUsedSize < sub32 heap.poolSize size then sub32 heap.poolSize size else heap.maxUsedSize }

/-- `rt_memcpy`, where the areas do not overlap. -/
def copy (heap : Memheap) (dst src count : Nat) : Memheap :=
  { heap with byte := ByteMemory.copy heap.byte dst src (count % 4294967296) }

end Memheap

variable (cfg : MemheapConfig)

def memitemSize (heap : Memheap) (item : Nat) : Nat := sub32 (sub32 (heap.item item).next item) cfg.headSize

/-- `rt_memheap_init` at address `self`, with `free_header` at `freeHeader`, on memory with the given contents. -/
def rtMemheapInit (self freeHeader startAddr size : Nat) (item : Nat → MemheapItem) (byte : Nat → UInt8) : Memheap :=
  let poolSize := cfg.toMem.rtAlignDown size
  let availableSize := sub32 poolSize (2 * cfg.headSize)
  let tailer := add32 (add32 startAddr availableSize) cfg.headSize
  let heap : Memheap := {
    self, startAddr, poolSize, availableSize
    maxUsedSize := sub32 poolSize availableSize
    blockList := startAddr
    freeList := freeHeader
    item, byte }
  let heap := heap.setItem freeHeader fun _ => ⟨memheapMagic, false, self, 0, 0, freeHeader, freeHeader⟩
  let heap := heap.setItem startAddr fun _ => ⟨memheapMagic, false, self, tailer, tailer, startAddr, startAddr⟩
  let heap := heap.insertFree startAddr
  heap.setItem tailer fun _ => ⟨memheapMagic, true, self, startAddr, startAddr, 0, 0⟩

/-- The search of `rt_memheap_alloc` on the free list, with the size it has found last. -/
def memheapSearch (heap : Memheap) (size : Nat) : Nat → Nat → Nat → Option (Nat × Nat)
  | 0, _, _ => none
  | fuel + 1, header, freeSize =>
    if header ≠ heap.freeList ∧ freeSize < size then
      let freeSize := memitemSize cfg heap header
      memheapSearch heap size fuel (if freeSize < size then (heap.item header).nextFree else header) freeSize
    else some (header, freeSize)

/-- "split the block" of `rt_memheap_alloc` -/
def memheapAllocSplit (heap : Memheap) (header size : Nat) : Memheap :=
  let new := add32 (add32 header size) cfg.headSize
  let heap := (heap.newItem new).insertBlock header new
  let heap := ((heap.removeFree header).clearFree header).insertFree new
  heap.setAvailable (sub32 (sub32 heap.availableSize size) cfg.headSize)

/-- "decrement the entire free size from the available bytes count" -/
def memheapAllocWhole (heap : Memheap) (header freeSize : Nat) : Memheap :=
  ((heap.setAvailable (sub32 heap.availableSize freeSize)).removeFree header).clearFree header

/-- `rt_memheap_alloc`. The pool cannot have more blocks than bytes, which bounds the search. -/
def rtMemheapAlloc (heap : Memheap) (size : Nat) : Option (Memheap × Option Nat) :=
  let size := cfg.itemSize size
  if size < heap.availableSize then
    match memheapSearch cfg heap size (heap.poolSize + 2) (heap.item heap.freeList).nextFree 0 with
    | none => none
    | some (header, freeSize) =>
      if size ≤ freeSize then
        let heap :=
          if add32 (add32 size cfg.headSize) 12 ≤ freeSize then memheapAllocSplit cfg heap header size
          else memheapAllocWhole heap header freeSize
        some (heap.setItem header fun i => { i with used := true }, some (add32 header cfg.headSize))
      else some (heap, none)
  else some (heap, none)

/-- "Determine if the block can be merged with the previous neighbor", with the header of the block from then on, and whether that is in the free list. -/
def memheapMergeLeft (heap : Memheap) (header : Nat) : Memheap × Nat × Bool :=
  let prev := (heap.item header).prev
  if (heap.item prev).used = false then
    let heap := { heap with availableSize := add32 heap.availableSize cfg.headSize }
    let heap := heap.setItem prev fun i => { i with next := (heap.item header).next }
    let heap := heap.setItem (heap.item header).next fun i => { i with prev := prev }
    (heap, prev, true)
  else (heap, header, false)

/-- "determine if the block can be merged with the next neighbor" -/
def memheapMergeRight (heap : Memheap) (header : Nat) : Memheap :=
  let new := (heap.item header).next
  if (heap.item new).used = false then
    let heap := { heap with availableSize := add32 heap.availableSize cfg.headSize }
    let heap := heap.setItem (heap.item new).next fun i => { i with prev := header }
    let heap := heap.setItem header fun i => { i with next := (heap.item new).next }
    heap.removeFree new
  else heap

/-- `rt_memheap_free` of a pointer into this heap. -/
def rtMemheapFree (heap : Memheap) (ptr : Option Nat) : Option Memheap :=
  match ptr with
  | none => some heap
  | some ptr =>
    let header := sub32 ptr cfg.headSize
    if (heap.item header).magic = memheapMagic ∧ (heap.item header).used = true ∧
        (heap.item (heap.item header).next).magic = memheapMagic ∧ (heap.item header).poolPtr = heap.self then
      let heap := heap.setItem header fun i => { i with used := false }
      let heap := { heap with availableSize := add32 heap.availableSize (memitemSize cfg heap header) }
      let (heap, header, merged) := memheapMergeLeft cfg heap header
      let heap := memheapMergeRight cfg heap header
      some (if merged then heap else heap.insertFree header)
    else none

/-- The branch of `rt_memheap_realloc` that makes use of the next free block. -/
def memheapGrow (heap : Memheap) (ptr header oldsize newsize : Nat) : Memheap :=
  let next := (heap.item header).next
  let heap := heap.setAvailable (sub32 heap.availableSize (sub32 newsize oldsize))
  let heap := heap.removeFree next
  let heap := heap.setItem (heap.item next).next fun i => { i with prev := (heap.item next).prev }
  let heap := heap.setItem (heap.item next).prev fun i => { i with next := (heap.item next).next }
  -- "build a new one on the right place"
  let next := add32 ptr newsize
  ((heap.newItem next).insertBlock header next).insertFree next

/-- "merge block with next neighbor" of `rt_memheap_realloc` -/
def memheapShrinkMerge (heap : Memheap) (new : Nat) : Memheap :=
  let free := (heap.item new).next
  if (heap.item free).used = false then
    let heap := { heap with availableSize := sub32 heap.availableSize (memitemSize cfg heap free) }
    let heap := heap.setItem (heap.item free).next fun i => { i with prev := new }
    let heap := heap.setItem new fun i => { i with next := (heap.item free).next }
    heap.removeFree free
  else heap

/-- "split the block" of `rt_memheap_realloc` -/
def memheapShrink (heap : Memheap) (header newsize : Nat) : Memheap :=
  let new := add32 (add32 header newsize) cfg.headSize
  let heap := (heap.newItem new).insertBlock header new
  let heap := (memheapShrinkMerge cfg heap new).insertFree new
  { heap with availableSize := add32 heap.availableSize (memitemSize cfg heap new) }

/-- "re-allocate a memory block" -/
def memheapMove (heap : Memheap) (ptr oldsize newsize : Nat) : Option (Memheap × Option Nat) :=
  match rtMemheapAlloc cfg heap newsize with
  | none => none
  | some (heap, none) => some (heap, none)
  | some (heap, some new) =>
    (rtMemheapFree cfg (heap.copy new ptr (if oldsize < newsize then oldsize else newsize)) (some ptr)).map fun heap =>
      (heap, some new)

def rtMemheapRealloc (heap : Memheap) (ptr : Option Nat) (newsize : Nat) : Option (Memheap × Option Nat) :=
  if newsize = 0 then (rtMemheapFree cfg heap ptr).map fun heap => (heap, none)
  else
    let newsize := cfg.itemSize newsize
    match ptr with
    | none => rtMemheapAlloc cfg heap newsize
    | some ptr =>
      let header := sub32 ptr cfg.headSize
      let oldsize := memitemSize cfg heap header
      if oldsize < newsize then
        let next := (heap.item header).next
        -- "header_ptr should not be the tail"
        if header < next then
          if (heap.item next).used = false ∧
              add32 newsize 12 < add32 (memitemSize cfg heap next) oldsize then
            some (memheapGrow heap ptr header oldsize newsize, some ptr)
          else memheapMove cfg heap ptr oldsize newsize
        else none
      else if oldsize ≤ add32 (add32 newsize cfg.headSize) 12 then some (heap, some ptr)
      else some (memheapShrink cfg heap header newsize, some ptr)

/-! ## The heap as a state machine -/

structure MemheapState where
  heap : Memheap
  /-- The pointers that the callers hold. Nothing in the heap reads it. -/
  live : List Nat

inductive MemheapOp
  | alloc (size : Nat)
  | realloc (ptr : Option Nat) (newsize : Nat)
  | free (ptr : Option Nat)
  deriving DecidableEq

inductive MemheapEvent
  | alloc (size : Nat) (result : Option Nat)
  | realloc (ptr : Option Nat) (newsize : Nat) (result : Option Nat)
  | free (ptr : Option Nat)
  deriving DecidableEq

/-- What the callers hold after `rt_memheap_realloc`: where it returns `RT_NULL` for want of memory, the old pointer. -/
def liveRealloc (live : List Nat) (ptr : Option Nat) (newsize : Nat) (result : Option Nat) : List Nat :=
  match ptr, result with
  | ptr, some new => new :: (ptr.elim live live.erase)
  | some ptr, none => if newsize = 0 then live.erase ptr else live
  | none, none => live

def stepMemheap (s : MemheapState) : MemheapOp → Option (MemheapState × List MemheapEvent)
  | .alloc size =>
    if size < 2 ^ 32 then
      (rtMemheapAlloc cfg s.heap size).map fun r => (⟨r.1, r.2.toList ++ s.live⟩, [.alloc size r.2])
    else none
  | .realloc ptr newsize =>
    if newsize < 2 ^ 32 then
      (rtMemheapRealloc cfg s.heap ptr newsize).map fun r =>
        (⟨r.1, liveRealloc s.live ptr newsize r.2⟩, [.realloc ptr newsize r.2])
    else none
  | .free ptr => (rtMemheapFree cfg s.heap ptr).map fun heap => (⟨heap, ptr.elim s.live s.live.erase⟩, [.free ptr])

/-- What `rt_memheap_init` is given: the pool has room for two headers, and the `struct rt_memheap` is elsewhere. -/
structure MemheapPool where
  self : Nat
  freeHeader : Nat
  startAddr : Nat
  size : Nat
  size_lt : size < 2 ^ 32
  fits : startAddr + cfg.toMem.rtAlignDown size ≤ 2 ^ 32
  heads : 2 * cfg.headSize ≤ cfg.toMem.rtAlignDown size
  outside : freeHeader < startAddr ∨ startAddr + cfg.toMem.rtAlignDown size ≤ freeHeader

def MemheapState.init (pool : MemheapPool cfg) (item : Nat → MemheapItem) (byte : Nat → UInt8) : MemheapState :=
  ⟨rtMemheapInit cfg pool.self pool.freeHeader pool.startAddr pool.size item byte, []⟩

end RtThread
