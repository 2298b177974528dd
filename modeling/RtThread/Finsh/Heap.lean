import RtThread.Lib.Transition

/-!
# The heap of the shell

`finsh_heap.c`, in the build for a machine of 32 bits, which the shell's compiler is for. A block is named by the address of its header, and its data is behind the header. A walk along a list that has not come to its end after as many blocks as the heap has bytes gives `none`: it goes round for ever. The headers and the bytes of the data are kept apart, as no block's data covers a header.
-/

namespace RtThread

open Function

def finshHeapMax : Nat := 128

def finshVariableMax : Nat := 8

/-- `sizeof(struct finsh_block_header)` -/
def sizeofFinshBlockHeader : Nat := 8

/-- One more than the largest `size_t`. -/
def finshWord : Nat := 2 ^ 32

/-- `HEAP_ALIGN_SIZE`, for a `HEAP_ALIGNMENT` of four. -/
def heapAlignSize (size : Nat) : Nat := (size + 3) % finshWord / 4 * 4

structure FinshHeap where
  freeList : Option Nat
  allocateList : Option Nat
  length : Nat → Nat
  next : Nat → Option Nat
  byte : Nat → UInt8

/-- What the collector reads of a `global_variable`. -/
structure FinshRoot where
  /-- `type != finsh_type_unknown` -/
  known : Bool
  /-- `value.ptr` -/
  ptr : Nat

abbrev FinshRoots := Fin finshVariableMax → FinshRoot

def FinshRoots.Keeps (vars : FinshRoots) (data : Nat) : Prop := ∃ i, (vars i).known = true ∧ (vars i).ptr = data

instance (vars : FinshRoots) (data : Nat) : Decidable (vars.Keeps data) :=
  inferInstanceAs (Decidable (∃ i, (vars i).known = true ∧ (vars i).ptr = data))

def finshBlockGetData (header : Nat) : Nat := header + sizeofFinshBlockHeader

/-- `finsh_heap_init` of the heap at `base`. -/
def finshHeapInit (base : Nat) : FinshHeap where
  freeList := some base
  allocateList := none
  length := update (fun _ => 0) base (finshHeapMax - sizeofFinshBlockHeader)
  next := fun _ => none
  byte := fun _ => 0

/-! ## Lists of blocks -/

/-- The loop of `finsh_block_insert`: the block that the new one is put behind. -/
def insertPoint (next : Nat → Option Nat) (header : Nat) : Nat → Nat → Option Nat
  | 0, _ => none
  | n + 1, node =>
    match next node with
    | none => some node
    | some after => if header < after then some node else insertPoint next header n after

def finshBlockInsert (list : Option Nat) (next : Nat → Option Nat) (header : Nat) :
    Option (Option Nat × (Nat → Option Nat)) :=
  match list with
  | none => some (some header, next)
  | some first =>
    if header < first then some (some header, update next header (some first))
    else (insertPoint next header finshHeapMax first).map fun node =>
      let linked := if next node = none then next else update next header (next node)
      (list, update linked node (some header))

/-- The block whose link is to `header`; there may be none. -/
def blockBefore (next : Nat → Option Nat) (header : Nat) : Nat → Option Nat → Option (Option Nat)
  | _, none => some none
  | 0, some _ => none
  | n + 1, some node => if next node = some header then some (some node) else blockBefore next header n (next node)

def finshBlockRemove (list : Option Nat) (next : Nat → Option Nat) (header : Nat) :
    Option (Option Nat × (Nat → Option Nat)) :=
  if list = some header then some (next header, update next header none)
  else (blockBefore next header finshHeapMax list).map fun
    | none => (list, next)
    | some node => (list, update next node (next header))

namespace FinshHeap

def endOf (heap : FinshHeap) (header : Nat) : Nat := (header + heap.length header + sizeofFinshBlockHeader) % finshWord

/-- `header->length += more` -/
def lengthen (heap : FinshHeap) (header more : Nat) : FinshHeap :=
  { heap with length := update heap.length header ((heap.length header + more) % finshWord) }

def setNext (heap : FinshHeap) (header : Nat) (next : Option Nat) : FinshHeap :=
  { heap with next := update heap.next header next }

end FinshHeap

def finshBlockSplit (heap : FinshHeap) (header size : Nat) : FinshHeap :=
  let rest := (header + sizeofFinshBlockHeader + size) % finshWord
  let left := (heap.length header + 2 * finshWord - sizeofFinshBlockHeader - size) % finshWord
  let heap := { heap with length := update (update heap.length rest left) header size }
  (heap.setNext rest (heap.next header)).setNext header (some rest)

/-- `finsh_block_merge`, once the block before is found. -/
def mergeInto (heap : FinshHeap) (header : Nat) (prevNode : Option Nat) : FinshHeap :=
  let nextNode := (heap.next header).filter fun nextNode => heap.endOf header = nextNode
  match prevNode.filter fun prevNode => heap.endOf prevNode = header, nextNode with
  | some prevNode, some nextNode =>
    let more := (heap.length header + heap.length nextNode + 2 * sizeofFinshBlockHeader) % finshWord
    (heap.lengthen prevNode more).setNext prevNode (heap.next nextNode)
  | some prevNode, none =>
    (heap.lengthen prevNode (heap.length header + sizeofFinshBlockHeader)).setNext prevNode (heap.next header)
  | none, some nextNode =>
    (heap.lengthen header (heap.length nextNode + sizeofFinshBlockHeader)).setNext header (heap.next nextNode)
  | none, none => heap

def finshBlockMerge (heap : FinshHeap) (header : Nat) : Option FinshHeap :=
  if heap.freeList = some header then some (mergeInto heap header none)
  else (blockBefore heap.next header finshHeapMax heap.freeList).map (mergeInto heap header)

/-! ## Allocation -/

/-- `finsh_heap_free`, of the block with this header. -/
def finshHeapFree (heap : FinshHeap) (header : Nat) : Option FinshHeap :=
  (finshBlockRemove heap.allocateList heap.next header).bind fun removed =>
    (finshBlockInsert heap.freeList removed.2 header).bind fun inserted =>
      finshBlockMerge { heap with allocateList := removed.1, freeList := inserted.1, next := inserted.2 } header

/-- The loop of `finsh_heap_gc`. The link is read before the block is released. -/
def gcFrom (vars : FinshRoots) : Nat → Option Nat → FinshHeap → Option FinshHeap
  | _, none, heap => some heap
  | 0, some _, _ => none
  | n + 1, some header, heap =>
    if vars.Keeps (finshBlockGetData header) then gcFrom vars n (heap.next header) heap
    else (finshHeapFree heap header).bind (gcFrom vars n (heap.next header))

def finshHeapGc (vars : FinshRoots) (heap : FinshHeap) : Option FinshHeap :=
  gcFrom vars finshHeapMax heap.allocateList heap

/-- "find the first fit block" -/
def firstFit (heap : FinshHeap) (fits : Nat → Bool) : Nat → Option Nat → Option (Option Nat)
  | _, none => some none
  | 0, some _ => none
  | n + 1, some header =>
    if fits (heap.length header) = true then some (some header) else firstFit heap fits n (heap.next header)

/-- What `finsh_heap_allocate` does with the block it has found, for a size that is aligned. -/
def takeBlock (heap : FinshHeap) (header size : Nat) : Option (Option Nat × FinshHeap) :=
  let heap := finshBlockSplit heap header size
  (finshBlockRemove heap.freeList heap.next header).bind fun removed =>
    (finshBlockInsert heap.allocateList (update removed.2 header none) header).map fun inserted =>
      let data := finshBlockGetData header
      (some data, { heap with
        freeList := removed.1
        allocateList := inserted.1
        next := inserted.2
        byte := fun a => if data ≤ a ∧ a < data + size then 0 else heap.byte a })

/-- The data of the new block. The collector runs where no block has space to spare. -/
def finshHeapAllocate (heap : FinshHeap) (vars : FinshRoots) (size : Nat) : Option (Option Nat × FinshHeap) :=
  let size := heapAlignSize size
  let needed := (size + sizeofFinshBlockHeader) % finshWord
  (firstFit heap (fun length => needed < length) finshHeapMax heap.freeList).bind fun
    | some header => takeBlock heap header size
    | none =>
      (finshHeapGc vars heap).bind fun heap =>
        (firstFit heap (fun length => needed ≤ length) finshHeapMax heap.freeList).bind fun
          | none => some (none, heap)
          | some header => takeBlock heap header size

/-! ## Runs -/

inductive FinshHeapOp where
  | allocate (size : Nat) (vars : FinshRoots)
  | write (a : Nat) (value : UInt8)

def FinshHeap.Owned (heap : FinshHeap) : Nat → Nat → Option Nat → Bool
  | _, _, none => false
  | 0, _, some _ => false
  | n + 1, a, some header =>
    (finshBlockGetData header ≤ a && a < finshBlockGetData header + heap.length header) ||
      heap.Owned n a (heap.next header)

def FinshHeap.step (heap : FinshHeap) : FinshHeapOp → Option (FinshHeap × List (Option Nat))
  | .allocate size vars => (finshHeapAllocate heap vars size).map fun r => (r.2, [r.1])
  | .write a value =>
    if heap.Owned finshHeapMax a heap.allocateList = true then
      some ({ heap with byte := update heap.byte a value }, [])
    else none

end RtThread
