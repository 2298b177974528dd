import RtThread.Lib.Rounds
import RtThread.Lib.Transition

/-!
# Ring block buffers

`ringblk_buf.c`. Blocks are cut out of a buffer one behind the other, round the buffer. Where there is room is read off the first and the last block of `blk_list`. A caller allocates a block and puts it; another gets it, singly or with others in a block queue, and frees it.
-/

namespace RtThread

inductive RbbStatus
  | unused | inited | put | get
  deriving DecidableEq

/-- `struct rt_rbb_blk`; `buf` is the distance from the start of the buffer. -/
structure RbbBlk where
  status : RbbStatus
  size : Nat
  buf : Nat
  deriving DecidableEq

/-- `struct rt_rbb`; a block is named by its place in `blk_set`. -/
structure Rbb where
  bufSize : Nat
  blkSet : Nat → RbbBlk
  blkMaxNum : Nat
  blkList : List Nat

def wordSub (a b : Nat) : Nat := (((a : Int) - (b : Int)) % 4294967296).toNat

namespace Rbb

def setStatus (rbb : Rbb) (block : Nat) (status : RbbStatus) : Rbb :=
  { rbb with blkSet := Function.update rbb.blkSet block { rbb.blkSet block with status } }

def append (rbb : Rbb) (new buf size : Nat) : Rbb :=
  { rbb with
    blkList := rbb.blkList ++ [new]
    blkSet := Function.update rbb.blkSet new ⟨.inited, size, buf⟩ }

def remove (rbb : Rbb) (block : Nat) : Rbb := { rbb with blkList := rbb.blkList.erase block }

end Rbb

def findEmptyBlkInSet (rbb : Rbb) : Option Nat :=
  (List.range rbb.blkMaxNum).find? fun i => (rbb.blkSet i).status = .unused

def rtRbbBlkAlloc (rbb : Rbb) (blkSize : Nat) : Option (Option Nat × Rbb) :=
  if 16777216 ≤ blkSize then none
  else
    match findEmptyBlkInSet rbb with
    | none => some (none, rbb)
    | some new =>
      if rbb.blkList.length < rbb.blkMaxNum then
        match rbb.blkList.head?, rbb.blkList.getLast? with
        | some first, some last =>
          let head := rbb.blkSet first
          let tail := rbb.blkSet last
          if head.buf ≤ tail.buf then
            let empty1 := wordSub rbb.bufSize (tail.buf + tail.size)
            let empty2 := head.buf
            if blkSize ≤ empty1 then some (some new, rbb.append new (tail.buf + tail.size) blkSize)
            else if blkSize ≤ empty2 then some (some new, rbb.append new 0 blkSize)
            else some (none, rbb)
          else
            let empty1 := wordSub head.buf (tail.buf + tail.size)
            if blkSize ≤ empty1 then some (some new, rbb.append new (tail.buf + tail.size) blkSize)
            else some (none, rbb)
        | _, _ => some (some new, rbb.append new 0 blkSize) -- "the list is empty"
      else some (none, rbb)

def rtRbbBlkPut (rbb : Rbb) (block : Nat) : Option Rbb :=
  if (rbb.blkSet block).status = .inited then some (rbb.setStatus block .put) else none

def rtRbbBlkGet (rbb : Rbb) : Option Nat × Rbb :=
  match rbb.blkList.find? fun block => (rbb.blkSet block).status = .put with
  | none => (none, rbb)
  | some block => (some block, rbb.setStatus block .get)

def rtRbbBlkFree (rbb : Rbb) (block : Nat) : Option Rbb :=
  if (rbb.blkSet block).status = .unused then none else some ((rbb.remove block).setStatus block .unused)

/-- The loop of `rt_rbb_blk_queue_get` over the rest of the list, from the last block and the total size on, with the blocks it takes. -/
def queueGetLoop (queueDataLen : Nat) : Rbb → List Nat → Option Nat → Nat → List Nat × Nat × Rbb
  | rbb, [], _, total => ([], total, rbb)
  | rbb, block :: nodes, none, total =>
    -- "the first block must be put status"
    if (rbb.blkSet block).status ≠ .put then queueGetLoop queueDataLen rbb nodes none total
    else
      let rest := queueGetLoop queueDataLen ((rbb.remove block).setStatus block .get) nodes (some block)
        ((total + (rbb.blkSet block).size) % 4294967296)
      (block :: rest.1, rest.2)
  | rbb, block :: nodes, some last, total =>
    if (rbb.blkSet block).status ≠ .put ∨ (rbb.blkSet block).buf < (rbb.blkSet last).buf ∨
        queueDataLen < (total + (rbb.blkSet block).size) % 4294967296 then ([], total, rbb)
    else
      let rest := queueGetLoop queueDataLen ((rbb.remove block).setStatus block .get) nodes (some block)
        ((total + (rbb.blkSet block).size) % 4294967296)
      (block :: rest.1, rest.2)

/-- `rt_rbb_blk_queue_get`: the blocks of the queue, their total size, and the buffer. Of the blocks `struct rt_rbb_blk_queue` stores the first and the number. -/
def rtRbbBlkQueueGet (rbb : Rbb) (queueDataLen : Nat) : List Nat × Nat × Rbb :=
  queueGetLoop queueDataLen rbb rbb.blkList none 0

/-- `rt_rbb_blk_queue_free`: the blocks that follow the first in the set, as many as `blkNum`. -/
def rtRbbBlkQueueFree (rbb : Rbb) (blocks blkNum : Nat) : Option Rbb :=
  (List.range blkNum).foldlM (fun rbb i => if blocks + i < rbb.blkMaxNum then rtRbbBlkFree rbb (blocks + i) else none) rbb

/-! ## The block buffer as a state machine -/

/-- The buffer with what callers hold: the blocks that have been allocated and not freed, from the oldest on, and the block queues that have been got and not freed. -/
structure RbbState where
  rbb : Rbb
  live : List Nat
  queues : List (List Nat)

inductive RbbOp
  | alloc (blkSize : Nat)
  | put (block : Nat)
  | get
  | free (block : Nat)
  | queueGet (queueDataLen : Nat)
  | queueFree (queue : List Nat)
  deriving DecidableEq

inductive RbbEvent
  | alloc (blkSize : Nat) (block : Option Nat)
  | get (block : Option Nat)
  | queueGet (blocks : List Nat) (size : Nat)
  deriving DecidableEq

def RbbState.Holds (s : RbbState) (block : Nat) : Prop := block ∈ s.live ∧ block ∉ s.queues.flatten

instance RbbState.decidableHolds (s : RbbState) (block : Nat) : Decidable (s.Holds block) := inferInstanceAs (Decidable (_ ∧ _))

def stepRbb (s : RbbState) : RbbOp → Option (RbbState × List RbbEvent)
  | .alloc blkSize =>
    (rtRbbBlkAlloc s.rbb blkSize).map fun r =>
      ({ s with rbb := r.2, live := s.live ++ r.1.toList }, [.alloc blkSize r.1])
  | .put block => if s.Holds block then (rtRbbBlkPut s.rbb block).map fun rbb => ({ s with rbb }, []) else none
  | .get => some ({ s with rbb := (rtRbbBlkGet s.rbb).2 }, [.get (rtRbbBlkGet s.rbb).1])
  | .free block =>
    if s.Holds block then
      (rtRbbBlkFree s.rbb block).map fun rbb => ({ s with rbb, live := s.live.erase block }, [])
    else none
  | .queueGet queueDataLen =>
    let r := rtRbbBlkQueueGet s.rbb queueDataLen
    some ({ s with rbb := r.2.2, queues := if r.1 = [] then s.queues else r.1 :: s.queues }, [.queueGet r.1 r.2.1])
  | .queueFree queue =>
    if queue ∈ s.queues then
      (rtRbbBlkQueueFree s.rbb (queue.headD 0) queue.length).map fun rbb =>
        ({ rbb, live := s.live.filter (· ∉ queue), queues := s.queues.erase queue }, [])
    else none

/-- `rt_rbb_init`: sizes and addresses are words. -/
def RbbState.init (bufSize blkMaxNum : Nat) : RbbState where
  rbb := ⟨bufSize % 4294967296, fun _ => ⟨.unused, 0, 0⟩, blkMaxNum, []⟩
  live := []
  queues := []

abbrev RbbRun (ok : RbbState → RbbOp → Prop) (bufSize blkMaxNum : Nat) : List RbbEvent → RbbState → Prop :=
  Transition.Run stepRbb ok (.init bufSize blkMaxNum)

theorem exists_rbbRun (ok : RbbState → RbbOp → Prop) [∀ s op, Decidable (ok s op)] (bufSize blkMaxNum : Nat)
    (ops : List RbbOp) (found : List RbbEvent → RbbState → Bool)
    (h : ((Transition.exec stepRbb ok (.init bufSize blkMaxNum) ops).any fun r => found r.1 r.2) = true) :
    ∃ trace s, RbbRun ok bufSize blkMaxNum trace s ∧ found trace s = true :=
  Transition.exists_run_of_exec ops found h

end RtThread
