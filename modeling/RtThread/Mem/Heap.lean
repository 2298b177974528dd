import RtThread.Lib.ByteMemory
import RtThread.Lib.Transition

/-!
# The small-memory heap

`mem.c`. A header is addressed by its offset from `heap_ptr`, as its `next` and `prev` fields are; a pointer the application holds is an address, and `RT_NULL` is `none`. Sizes and offsets are machine words, so sums and differences wrap. A function whose `RT_ASSERT` fails, or whose loop does not come to an end, gives `none`. Every call holds `heap_sem` while it uses the headers, so calls do not overlap.
-/

namespace RtThread

/-- The build: `ARCH_CPU_64BIT`, `RT_USING_MEMTRACE`, and the power of two that is `RT_ALIGN_SIZE`. -/
structure MemConfig where
  arch64 : Bool
  memtrace : Bool
  alignShift : Nat
  alignShift_lt : alignShift < 31

/-- `RT_ALIGN_SIZE` may be 4. -/
theorem wordShift_lt : 2 < 31 := by decide

namespace MemConfig

variable (cfg : MemConfig)

/-- One more than the largest `rt_size_t`. -/
def word : Nat := if cfg.arch64 then 2 ^ 64 else 2 ^ 32

def alignSize : Nat := 2 ^ cfg.alignShift

def add (a b : Nat) : Nat := (a + b) % cfg.word

def sub (a b : Nat) : Nat := (a + cfg.word - b) % cfg.word

def mul (a b : Nat) : Nat := a * b % cfg.word

/-- `RT_ALIGN_DOWN`: the low bits are cleared. -/
def rtAlignDown (size : Nat) : Nat := size / cfg.alignSize * cfg.alignSize

def rtAlign (size : Nat) : Nat := cfg.rtAlignDown ((size + cfg.alignSize - 1) % cfg.word)

/-- `sizeof(struct heap_mem)` -/
def sizeofHeapMem : Nat :=
  if cfg.arch64 then (if cfg.memtrace then 32 else 24) else (if cfg.memtrace then 16 else 12)

def minSize : Nat := if cfg.arch64 then 24 else 12

def minSizeAligned : Nat := cfg.rtAlign cfg.minSize

def sizeofStructMem : Nat := cfg.rtAlign cfg.sizeofHeapMem

end MemConfig

def heapMagic : Nat := 0x1ea0

structure HeapMem where
  magic : Nat
  used : Bool
  next : Nat
  prev : Nat
  deriving DecidableEq

structure Heap where
  /-- `heap_ptr`, an address. -/
  heapPtr : Nat
  heapEnd : Nat
  lfree : Nat
  memSizeAligned : Nat
  usedMem : Nat
  maxMem : Nat
  mem : Nat → HeapMem
  byte : Nat → UInt8

namespace Heap

def setMem (heap : Heap) (ptr : Nat) (f : HeapMem → HeapMem) : Heap :=
  { heap with mem := Function.update heap.mem ptr (f (heap.mem ptr)) }

/-- `used_mem += size` under `RT_MEM_STATS`. -/
def addUsed (cfg : MemConfig) (heap : Heap) (size : Nat) : Heap :=
  let usedMem := cfg.add heap.usedMem size
  { heap with usedMem := usedMem, maxMem := if heap.maxMem < usedMem then usedMem else heap.maxMem }

end Heap

def rtMemset (heap : Heap) (s : Nat) (c : UInt8) (count : Nat) : Heap :=
  { heap with byte := fun a => if s ≤ a ∧ a < s + count then c else heap.byte a }

/-- `rt_memcpy`, where the areas do not overlap. It counts in an `int`, which takes the low half of a long `count`. -/
def rtMemcpy (heap : Heap) (dst src count : Nat) : Heap :=
  { heap with byte := ByteMemory.copy heap.byte dst src (count % 4294967296) }

/-- The two ways of `plug_holes` to combine a block with the one after it. -/
def combine (heap : Heap) (mem nmem : Nat) : Heap :=
  let heap := if heap.lfree = nmem then { heap with lfree := mem } else heap
  let next := (heap.mem nmem).next
  let heap := heap.setMem mem fun m => { m with next := next }
  heap.setMem next fun m => { m with prev := mem }

/-- "plug hole forward" -/
def plugForward (heap : Heap) (mem : Nat) : Heap :=
  let nmem := (heap.mem mem).next
  if mem ≠ nmem ∧ (heap.mem nmem).used = false ∧ nmem ≠ heap.heapEnd then combine heap mem nmem else heap

/-- "plug hole backward" -/
def plugBackward (heap : Heap) (mem : Nat) : Heap :=
  let pmem := (heap.mem mem).prev
  if pmem ≠ mem ∧ (heap.mem pmem).used = false then combine heap pmem mem else heap

def plugHoles (heap : Heap) (mem : Nat) : Option Heap :=
  if mem < heap.heapEnd ∧ (heap.mem mem).used = false then some (plugBackward (plugForward heap mem) mem) else none

/-- `rt_system_heap_init` on memory with the given contents; a region it does not accept gives `none`. The test makes the differences exact. -/
def rtSystemHeapInit (cfg : MemConfig) (mem : Nat → HeapMem) (byte : Nat → UInt8) (beginAddr endAddr : Nat) :
    Option Heap :=
  let beginAlign := cfg.rtAlign beginAddr
  let endAlign := cfg.rtAlignDown endAddr
  if 2 * cfg.sizeofStructMem < endAlign ∧ beginAlign ≤ endAlign - 2 * cfg.sizeofStructMem then
    let memSizeAligned := endAlign - beginAlign - 2 * cfg.sizeofStructMem
    let heapEnd := memSizeAligned + cfg.sizeofStructMem
    let mem := Function.update mem 0 ⟨heapMagic, false, heapEnd, 0⟩
    let mem := Function.update mem heapEnd ⟨heapMagic, true, heapEnd, heapEnd⟩
    some {
      heapPtr := beginAlign
      heapEnd := heapEnd
      lfree := 0
      memSizeAligned := memSizeAligned
      usedMem := 0
      maxMem := 0
      mem := mem
      byte := byte }
  else none

/-! ## Allocation -/

/-- The loop of `rt_malloc` from `ptr` on: the first block that fits. -/
def rtMallocSearch (cfg : MemConfig) (heap : Heap) (size : Nat) : Nat → Nat → Option (Option Nat)
  | 0, _ => none
  | n + 1, ptr =>
    if ptr < cfg.sub heap.memSizeAligned size then
      let mem := heap.mem ptr
      if mem.used = false ∧ size ≤ cfg.sub mem.next (cfg.add ptr cfg.sizeofStructMem) then some (some ptr)
      else rtMallocSearch cfg heap size n mem.next
    else some none

/-- A block is cut in two at `ptr2`; the second part is free. -/
def splitBlock (cfg : MemConfig) (heap : Heap) (ptr ptr2 : Nat) : Heap :=
  let next := (heap.mem ptr).next
  let heap := heap.setMem ptr2 fun _ => { magic := heapMagic, used := false, next := next, prev := ptr }
  let heap := heap.setMem ptr fun m => { m with next := ptr2 }
  if next ≠ cfg.add heap.memSizeAligned cfg.sizeofStructMem then heap.setMem next fun m => { m with prev := ptr2 }
  else heap

/-- `while (lfree->used && lfree != heap_end) lfree = lfree->next` -/
def nextFree (heap : Heap) : Nat → Nat → Option Nat
  | 0, _ => none
  | n + 1, lfree =>
    if (heap.mem lfree).used ∧ lfree ≠ heap.heapEnd then nextFree heap n (heap.mem lfree).next else some lfree

def Heap.rounds (heap : Heap) : Nat := heap.heapEnd + 1

/-- The loop body of `rt_malloc` for a block that fits, up to "set memory block magic". -/
def rtMallocUse (cfg : MemConfig) (heap : Heap) (ptr size : Nat) : Heap :=
  let sizeofStructMem := cfg.sizeofStructMem
  let heap :=
    if cfg.add (cfg.add size sizeofStructMem) cfg.minSizeAligned ≤
        cfg.sub (heap.mem ptr).next (cfg.add ptr sizeofStructMem) then
      let heap := splitBlock cfg heap ptr (cfg.add (cfg.add ptr sizeofStructMem) size)
      let heap := heap.setMem ptr fun m => { m with used := true }
      heap.addUsed cfg (cfg.add size sizeofStructMem)
    else
      let heap := heap.setMem ptr fun m => { m with used := true }
      heap.addUsed cfg (cfg.sub (heap.mem ptr).next ptr)
  heap.setMem ptr fun m => { m with magic := heapMagic }

/-- The rest of it: `lfree`, the assertions, and the result. -/
def rtMallocTake (cfg : MemConfig) (heap : Heap) (ptr size : Nat) : Option (Option Nat × Heap) :=
  let heap := rtMallocUse cfg heap ptr size
  -- "Find next free block after mem and update lowest free pointer"; the assertion there is the loop's exit
  match if ptr = heap.lfree then nextFree heap heap.rounds heap.lfree else some heap.lfree with
  | none => none
  | some lfree =>
    let heap := { heap with lfree := lfree }
    let rmem := cfg.add (cfg.add heap.heapPtr ptr) cfg.sizeofStructMem
    if cfg.add rmem size ≤ cfg.add heap.heapPtr heap.heapEnd ∧ rmem % cfg.alignSize = 0 ∧
        cfg.add heap.heapPtr ptr % cfg.alignSize = 0 then
      some (some rmem, heap)
    else none

def rtMalloc (cfg : MemConfig) (heap : Heap) (size : Nat) : Option (Option Nat × Heap) :=
  if size = 0 then some (none, heap)
  else
    let size := cfg.rtAlign size
    if heap.memSizeAligned < size then some (none, heap)
    else
      let size := if size < cfg.minSizeAligned then cfg.minSizeAligned else size
      match rtMallocSearch cfg heap size heap.rounds heap.lfree with
      | none => none
      | some none => some (none, heap)
      | some (some ptr) => rtMallocTake cfg heap ptr size

/-! ## Release -/

/-- The header of the block at the address `rmem`. -/
def Heap.header (cfg : MemConfig) (heap : Heap) (rmem : Nat) : Nat :=
  cfg.sub (cfg.sub rmem cfg.sizeofStructMem) heap.heapPtr

def rtFree (cfg : MemConfig) (heap : Heap) : Option Nat → Option Heap
  | none => some heap
  | some rmem =>
    if rmem % cfg.alignSize = 0 ∧ heap.heapPtr ≤ rmem ∧ rmem < cfg.add heap.heapPtr heap.heapEnd then
      let mem := heap.header cfg rmem
      if (heap.mem mem).used ∧ (heap.mem mem).magic = heapMagic then
        let heap := heap.setMem mem fun m => { m with used := false, magic := heapMagic }
        let heap := if mem < heap.lfree then { heap with lfree := mem } else heap
        let heap := { heap with usedMem := cfg.sub heap.usedMem (cfg.sub (heap.mem mem).next mem) }
        plugHoles heap mem
      else none
    else none

/-! ## Change of size -/

/-- The end of `rt_realloc`: "expand memory". -/
def rtReallocMove (cfg : MemConfig) (heap : Heap) (rmem size newsize : Nat) : Option (Option Nat × Heap) :=
  match rtMalloc cfg heap newsize with
  | none => none
  | some (none, heap) => some (none, heap)
  | some (some nmem, heap) =>
    let heap := rtMemcpy heap nmem rmem (if size < newsize then size else newsize)
    (rtFree cfg heap (some rmem)).map fun heap => (some nmem, heap)

def rtRealloc (cfg : MemConfig) (heap : Heap) (rmem : Option Nat) (newsize : Nat) : Option (Option Nat × Heap) :=
  let newsize := cfg.rtAlign newsize
  if heap.memSizeAligned < newsize then some (none, heap)
  else if newsize = 0 then (rtFree cfg heap rmem).map fun heap => (none, heap)
  else
    match rmem with
    | none => rtMalloc cfg heap newsize
    | some rmem =>
      if rmem < heap.heapPtr ∨ cfg.add heap.heapPtr heap.heapEnd ≤ rmem then some (some rmem, heap)
      else
        let ptr := heap.header cfg rmem
        let size := cfg.sub (cfg.sub (heap.mem ptr).next ptr) cfg.sizeofStructMem
        if size = newsize then some (some rmem, heap)
        else if cfg.add (cfg.add newsize cfg.sizeofStructMem) cfg.minSize < size then
          let heap := { heap with usedMem := cfg.sub heap.usedMem (cfg.sub size newsize) }
          let ptr2 := cfg.add (cfg.add ptr cfg.sizeofStructMem) newsize
          (plugHoles (splitBlock cfg heap ptr ptr2) ptr2).map fun heap => (some rmem, heap)
        else rtReallocMove cfg heap rmem size newsize

def rtCalloc (cfg : MemConfig) (heap : Heap) (count size : Nat) : Option (Option Nat × Heap) :=
  (rtMalloc cfg heap (cfg.mul count size)).map fun
    | (none, heap) => (none, heap)
    | (some p, heap) => (some p, rtMemset heap p 0 (cfg.mul count size))

end RtThread
