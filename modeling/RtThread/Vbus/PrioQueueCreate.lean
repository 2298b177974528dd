import RtThread.Mem.Blocks
import RtThread.Mem.PoolBlocks
import RtThread.Vbus.PrioQueue

/-!
# The size of a priority queue

`rt_prio_queue_create`. The buffer is as long as so many items with the two pointers before each of them; `rt_mp_init` rounds the length down and the size of a block up, so how many blocks there are depends on the alignment of both.
-/

namespace RtThread

open Function Transition

namespace MemConfig

/-- `sizeof(void*)` -/
def sizeofPtr (cfg : MemConfig) : Nat := if cfg.arch64 then 8 else 4

end MemConfig

/-- `block_size` and `block_total_count` of `rt_mp_init`. -/
def rtMpInit (cfg : MemConfig) (size blockSize : Nat) : Nat × Nat :=
  let size := cfg.rtAlignDown size
  let blockSize := cfg.rtAlign blockSize
  (blockSize, size / cfg.add blockSize cfg.sizeofPtr)

/-- A queue that `rt_prio_queue_create` has made, with the number of bytes it has from `rt_malloc`. -/
structure MadeQueue where
  allocated : Nat
  blockSize : Nat
  queue : PqState

/-- "RT_ASSERT(item_nr)"; `malloc` tells whether there is memory. -/
def rtPrioQueueCreate (cfg : MemConfig) (sizeofQueue : Nat) (malloc : Bool) (word : Nat → BlockWord) (data : Nat → List UInt8)
    (priority : ThreadId → Nat) (itemNr itemSz : Nat) : Option MadeQueue :=
  if itemNr = 0 ∨ malloc = false then none
  else
    let bufsz := cfg.mul itemNr (cfg.add (cfg.add cfg.sizeofPtr itemSz) cfg.sizeofPtr)
    let pool := rtMpInit cfg bufsz (cfg.add cfg.sizeofPtr itemSz)
    some ⟨cfg.add sizeofQueue bufsz, pool.1, .init word data pool.2 itemSz priority⟩

/-! ## Pushes before any pop -/

def PqOp.Fills : PqOp → Prop
  | .push _ prio _ _ => prio < rtPrioQueuePrioMax
  | .pop _ _ => False
  | .resume _ | .timeout _ | .tick => True

def PqOp.isPush : PqOp → Bool
  | .push _ _ _ _ => true
  | _ => false

/-- Before any pop, each of the first `n` pushes gets a block at once and returns `RT_EOK`, and so many blocks have room for the items and lie in the queue. -/
structure MadeQueue.Accepts (cfg : MemConfig) (sizeofQueue itemSz n : Nat) (made : MadeQueue) : Prop where
  begun : ∀ ops trace s, exec stepPq (fun _ _ => True) made.queue ops = some (trace, s) → (∀ op ∈ ops, op.Fills) →
    ops.countP PqOp.isPush < n → ∀ c prio data timeout, s.call c = none → prio < rtPrioQueuePrioMax → data.length = itemSz →
    ∃ item s', stepPq s (.push c prio data timeout) = some (s', []) ∧ s'.call c = some (.allocated prio item data)
  returned : ∀ ops trace s, exec stepPq (fun _ _ => True) made.queue ops = some (trace, s) → (∀ op ∈ ops, op.Fills) →
    ops.countP PqOp.isPush ≤ n → ∀ c, s.call c ≠ none → ∃ s' events, stepPq s (.resume c) = some (s', events) ∧
    (s'.call c = none → ∃ prio data, events = [.pushed c prio data])
  room : cfg.sizeofPtr + itemSz ≤ made.blockSize
  inside : sizeofQueue + n * (made.blockSize + cfg.sizeofPtr) ≤ made.allocated

variable {cfg : MemConfig} {s s' : PqState} {free : List Nat} {c : Caller} {op : PqOp} {ops : List PqOp} {trace events : List PqEvent}
  {b k prio itemNr itemSz n sizeofQueue total : Nat} {timeout : Int} {word : Nat → BlockWord} {data : List UInt8}
  {contents : Nat → List UInt8} {priority : ThreadId → Nat}

inductive PqCall.Filling : PqCall → Prop
  | allocated {prio item : Nat} {data : List UInt8} : Filling (.allocated prio item data)
  | filled {prio item : Nat} {data : List UInt8} : Filling (.filled prio item data)

/-- After `k` pushes nobody waits, and the other blocks of the pool are free. -/
structure PushesBegun (total k : Nat) (s : PqState) : Prop where
  pool : ∃ free, PoolBlocks s.pool free ∧ free.length + k = total
  waits : s.pool.suspendThread = []
  pops : s.suspendedPopList = []
  calls : ∀ c call, s.call c = some call → call.Filling
  tails : ∀ prio, s.queue.head prio ≠ none → s.queue.tail prio ≠ none

namespace PushesBegun

theorem not_waiting (h : PushesBegun total k s) (c : Caller) : ¬ s.Waiting c := by
  cases c with
  | thread t =>
    show ¬ (t ∈ s.suspendedPopList ∨ t ∈ s.pool.suspendThread)
    rw [h.waits, h.pops]
    exact fun hmem => hmem.elim List.not_mem_nil List.not_mem_nil
  | interrupt i => exact id

theorem calls_setCall (h : PushesBegun total k s) {call : Option PqCall} (hcall : ∀ new, call = some new → new.Filling) :
    ∀ c' old, update s.call c call c' = some old → old.Filling := by
  intro c' old hold
  by_cases hc : c' = c
  · rw [hc, update_self] at hold
    exact hcall old hold
  · rw [update_of_ne hc] at hold
    exact h.calls c' old hold

theorem push (h : PushesBegun total k s) (hlt : k < total) (hprio : prio < rtPrioQueuePrioMax) (hcall : s.call c = none)
    (hdata : data.length = s.itemSz) (timeout : Int) :
    ∃ item s', stepPq s (.push c prio data timeout) = some (s', []) ∧ s'.call = update s.call c (some (.allocated prio item data)) ∧
      s'.itemSz = s.itemSz ∧ PushesBegun total (k + 1) s' := by
  obtain ⟨free, hpool, hlength⟩ := h.pool
  obtain ⟨b, rest, rfl⟩ : ∃ b rest, free = b :: rest := by
    cases free with
    | nil =>
      rw [List.length_nil] at hlength
      omega
    | cons b rest => exact ⟨b, rest, rfl⟩
  have hcount : s.pool.blockFreeCount ≠ 0 := by
    rw [← hpool.count, List.length_cons]
    exact Nat.succ_ne_zero _
  have hlist : s.pool.blockList = some b := hpool.linked.1
  rcases hword : s.pool.word b with next | _
  · obtain ⟨rest', heq, hrest⟩ := hpool.take hlist hword
    obtain rfl := (List.cons.inj heq).2
    have halloc : rtMpAlloc s.pool c timeout = some (.block b, s.pool.take b next) := by
      rw [rtMpAlloc.eq_def, if_neg hcount, hlist]
      dsimp only
      rw [hword]
    refine ⟨b, { s with pool := s.pool.take b next }.setCall c (some (.allocated prio b data)), ?_, rfl, rfl, ?_⟩
    · show (if s.call c = none ∧ data.length = s.itemSz then rtPrioQueuePush s c prio data timeout else none) = _
      rw [if_pos ⟨hcall, hdata⟩, rtPrioQueuePush, if_neg (Nat.not_le.mpr hprio), halloc]
      rfl
    · rw [List.length_cons] at hlength
      refine ⟨⟨rest, hrest, by omega⟩, h.waits, h.pops, ?_, h.tails⟩
      exact h.calls_setCall fun new hnew => Option.some.inj hnew ▸ .allocated
  · exact absurd List.mem_cons_self ((hpool.word b (hpool.lt b List.mem_cons_self)).mp hword)

theorem doPush_some {que : PrioQueue} (item : Nat) (htails : ∀ prio, que.head prio ≠ none → que.tail prio ≠ none) :
    ∃ que', que.doPush prio item = some que' ∧ ∀ prio, que'.head prio ≠ none → que'.tail prio ≠ none := by
  have hupdate : ∀ other, update que.tail prio (some item) other = none → other ≠ prio ∧ que.tail other = none := by
    intro other hnone
    by_cases hother : other = prio
    · rw [hother, update_self] at hnone
      cases hnone
    · rw [update_of_ne hother] at hnone
      exact ⟨hother, hnone⟩
  unfold PrioQueue.doPush
  split
  · refine ⟨_, rfl, fun other hne hnone => ?_⟩
    obtain ⟨hother, htail⟩ := hupdate other hnone
    have hhead : update que.head prio (some item) other ≠ none := hne
    rw [update_of_ne hother] at hhead
    exact htails other hhead htail
  · rename_i first hhead
    split
    · rename_i htail
      exact absurd htail (htails prio (hhead ▸ Option.some_ne_none first))
    · exact ⟨_, rfl, fun other hne hnone => htails other hne (hupdate other hnone).2⟩

theorem resume (h : PushesBegun total k s) (hcall : s.call c ≠ none) :
    ∃ s' events, stepPq s (.resume c) = some (s', events) ∧ (s'.call c = none → ∃ prio data, events = [.pushed c prio data]) ∧
      s'.itemSz = s.itemSz ∧ PushesBegun total k s' := by
  obtain ⟨call, hcall⟩ := Option.ne_none_iff_exists'.mp hcall
  have hstep : stepPq s (.resume c) = resumeCall s c call := by
    show (if s.Waiting c then none else (s.call c).bind (resumeCall s c)) = _
    rw [if_neg (h.not_waiting c), hcall, Option.bind_some]
  rw [hstep]
  cases h.calls c call hcall with
  | @allocated prio item data =>
    refine ⟨_, [], rfl, fun hnone => ?_, rfl, h.pool, h.waits, h.pops, ?_, h.tails⟩
    · have hsome : update s.call c (some (.filled prio item data)) c = none := hnone
      rw [update_self] at hsome
      cases hsome
    · exact h.calls_setCall fun new hnew => Option.some.inj hnew ▸ .filled
  | @filled prio item data =>
    obtain ⟨queue, hqueue, htails⟩ := doPush_some item h.tails
    have hresume : PqState.resumePop { s with queue } = { s with queue } := by
      unfold PqState.resumePop
      dsimp only
      rw [h.pops]
    refine ⟨{ s with queue }.setCall c none, [.pushed c prio data], ?_, fun _ => ⟨prio, data, rfl⟩, rfl, ?_⟩
    · rw [resumeCall, pushLink, hqueue, Option.map_some, hresume]
    · refine ⟨h.pool, h.waits, h.pops, ?_, htails⟩
      exact h.calls_setCall fun new hnew => by cases hnew

theorem step (h : PushesBegun total k s) (hop : op.Fills) (hle : k + [op].countP PqOp.isPush ≤ total) (hs : stepPq s op = some (s', events)) :
    s'.itemSz = s.itemSz ∧ PushesBegun total (k + [op].countP PqOp.isPush) s' := by
  cases op with
  | push c prio data timeout =>
    by_cases hready : s.call c = none ∧ data.length = s.itemSz
    · obtain ⟨item, s₁, hstep, -, hsz, hnext⟩ := h.push (Nat.lt_of_succ_le hle) hop hready.1 hready.2 timeout
      rw [hstep] at hs
      cases hs
      exact ⟨hsz, hnext⟩
    · rw [stepPq, if_neg hready] at hs
      cases hs
  | pop c timeout => exact absurd hop id
  | resume c =>
    have hcall : s.call c ≠ none := by
      intro hnone
      rw [stepPq, hnone, Option.bind_none, ite_self] at hs
      cases hs
    obtain ⟨s₁, first, hstep, -, hsz, hnext⟩ := h.resume hcall
    rw [hstep] at hs
    cases hs
    exact ⟨hsz, hnext⟩
  | timeout t =>
    have hnone : s.pool.threadTimeout t = none := by
      rw [MemPool.threadTimeout, if_neg]
      intro hwait
      rw [h.waits] at hwait
      exact List.not_mem_nil hwait.1
    rw [stepPq, if_neg (h.pops ▸ List.not_mem_nil), hnone] at hs
    cases hs
  | tick =>
    cases hs
    obtain ⟨free, hpool, hlength⟩ := h.pool
    exact ⟨rfl, ⟨free, hpool.same ⟨rfl, rfl, rfl, rfl⟩, hlength⟩, h.waits, h.pops, h.calls, h.tails⟩

theorem exec (h : PushesBegun total k s) (hops : ∀ op ∈ ops, op.Fills) (hle : k + ops.countP PqOp.isPush ≤ total)
    (hexec : exec stepPq (fun _ _ => True) s ops = some (trace, s')) :
    s'.itemSz = s.itemSz ∧ PushesBegun total (k + ops.countP PqOp.isPush) s' := by
  induction ops generalizing s k trace with
  | nil =>
    cases hexec
    exact ⟨rfl, h⟩
  | cons op rest ih =>
    rw [Transition.exec, if_pos trivial] at hexec
    rw [← List.singleton_append, List.countP_append, ← Nat.add_assoc] at hle ⊢
    split at hexec
    · cases hexec
    · rename_i s₁ first hs
      obtain ⟨⟨later, s₂⟩, hrest, heq⟩ := Option.map_eq_some_iff.mp hexec
      obtain ⟨-, rfl⟩ := Prod.mk.inj heq
      obtain ⟨hsz, hnext⟩ := h.step (hops op List.mem_cons_self) (by omega) hs
      obtain ⟨hsz', hend⟩ := ih hnext (fun op hop => hops op (List.mem_cons_of_mem _ hop)) hle hrest
      exact ⟨hsz'.trans hsz, hend⟩

theorem interrupts (h : PushesBegun total k s) (hle : k + n ≤ total) (i : Nat) (hcalls : ∀ j, i ≤ j → s.call (.interrupt j) = none) :
    ∃ s', Transition.exec stepPq (fun _ _ => True) s ((List.range' i n).map fun j => .push (.interrupt j) 0 (List.replicate s.itemSz 0) 0) =
      some ([], s') ∧ s'.itemSz = s.itemSz ∧ PushesBegun total (k + n) s' ∧ ∀ j, i + n ≤ j → s'.call (.interrupt j) = none := by
  induction n generalizing s k i with
  | zero => exact ⟨s, rfl, rfl, h, hcalls⟩
  | succ n ih =>
    obtain ⟨item, s₁, hstep, hcall, hsz, hnext⟩ :=
      h.push (by omega) (show 0 < rtPrioQueuePrioMax by decide) (hcalls i le_rfl) List.length_replicate 0
    have hcalls₁ : ∀ j, i + 1 ≤ j → s₁.call (.interrupt j) = none := by
      intro j hj
      have hne : Caller.interrupt j ≠ Caller.interrupt i := by
        intro heq
        cases heq
        omega
      rw [hcall, update_of_ne hne]
      exact hcalls j (by omega)
    obtain ⟨s₂, hexec, hsz₂, hend, hcalls₂⟩ := ih hnext (by omega) (i + 1) hcalls₁
    refine ⟨s₂, ?_, hsz₂.trans hsz, ?_, ?_⟩
    · rw [List.range'_succ, List.map_cons, Transition.exec, if_pos trivial, hstep]
      dsimp only
      rw [← hsz, hexec]
      rfl
    · rwa [Nat.add_assoc, Nat.add_comm 1 n] at hend
    · intro j hj
      exact hcalls₂ j (by omega)

end PushesBegun

theorem pushesBegun_init (hpos : 0 < total) : PushesBegun total 0 (.init word contents total itemSz priority) where
  pool := ⟨List.range total, poolBlocks_init hpos, List.length_range⟩
  waits := rfl
  pops := rfl
  calls _ _ hcall := nomatch hcall
  tails _ hhead := absurd rfl hhead

/-! ## How many blocks there are -/

theorem pushes_iff :
    (∀ ops trace s, exec stepPq (fun _ _ => True) (.init word contents total itemSz priority) ops = some (trace, s) → (∀ op ∈ ops, op.Fills) →
      ops.countP PqOp.isPush < n → ∀ c prio data timeout, s.call c = none → prio < rtPrioQueuePrioMax → data.length = itemSz →
      ∃ item s', stepPq s (.push c prio data timeout) = some (s', []) ∧ s'.call c = some (.allocated prio item data)) ↔ n ≤ total := by
  constructor
  · intro hall
    by_contra hlt
    obtain ⟨s, hexec, hsz, hcount, hcalls⟩ : ∃ s, exec stepPq (fun _ _ => True) (.init word contents total itemSz priority)
        ((List.range' 0 total).map fun j => .push (.interrupt j) 0 (List.replicate itemSz 0) 0) = some ([], s) ∧
        s.itemSz = itemSz ∧ s.pool.blockFreeCount = 0 ∧ ∀ j, 0 + total ≤ j → s.call (.interrupt j) = none := by
      rcases Nat.eq_zero_or_pos total with rfl | htotal
      · exact ⟨_, rfl, rfl, rfl, fun _ _ => rfl⟩
      · have hinit : PushesBegun total 0 (.init word contents total itemSz priority) := pushesBegun_init htotal
        obtain ⟨s, hexec, hsz, hend, hcalls⟩ := hinit.interrupts (n := total) (by omega) 0 fun _ _ => rfl
        obtain ⟨free, hpool, hlength⟩ := hend.pool
        refine ⟨s, hexec, hsz, ?_, hcalls⟩
        rw [← hpool.count]
        omega
    have hfills : ∀ op ∈ (List.range' 0 total).map fun j => PqOp.push (.interrupt j) 0 (List.replicate itemSz 0) 0, op.Fills := by
      intro op hop
      obtain ⟨j, -, rfl⟩ := List.mem_map.mp hop
      exact (by decide : 0 < rtPrioQueuePrioMax)
    have hpushes : ((List.range' 0 total).map fun j => PqOp.push (.interrupt j) 0 (List.replicate itemSz 0) 0).countP PqOp.isPush < n := by
      refine lt_of_le_of_lt List.countP_le_length ?_
      rw [List.length_map, List.length_range']
      exact Nat.lt_of_not_le hlt
    have hnone : s.call (.interrupt total) = none := hcalls total (Nat.zero_add total).le
    obtain ⟨item, s', hstep, -⟩ := hall _ _ s hexec hfills hpushes (.interrupt total) 0 (List.replicate itemSz 0) 0 hnone
      (by decide) List.length_replicate
    rw [stepPq, if_pos ⟨hnone, hsz ▸ List.length_replicate⟩, rtPrioQueuePush, if_neg (by decide), rtMpAlloc, if_pos hcount,
      if_pos rfl] at hstep
    cases hstep
  · intro hle ops trace s hexec hfills hlt c prio data timeout hcall hprio hdata
    obtain ⟨hsz, hend⟩ := (pushesBegun_init (by omega)).exec hfills (by omega) hexec
    obtain ⟨item, s', hstep, hcall', -⟩ := hend.push (by omega) hprio hcall (hdata.trans hsz.symm) timeout
    refine ⟨item, s', hstep, ?_⟩
    rw [hcall', update_self]

namespace MemConfig

theorem sizeofPtr_pos (cfg : MemConfig) : 0 < cfg.sizeofPtr := by
  unfold sizeofPtr
  split <;> decide

theorem alignSize_dvd_word (cfg : MemConfig) : cfg.alignSize ∣ cfg.word := by
  have hshift := cfg.alignShift_lt
  unfold word alignSize
  split <;> exact Nat.pow_dvd_pow 2 (by omega)

end MemConfig

variable {malloc : Bool} {made : MadeQueue}

theorem rtPrioQueueCreate_cases (hmade : rtPrioQueueCreate cfg sizeofQueue malloc word contents priority itemNr itemSz = some made) :
    0 < itemNr ∧ made.allocated = cfg.add sizeofQueue (cfg.mul itemNr (cfg.add (cfg.add cfg.sizeofPtr itemSz) cfg.sizeofPtr)) ∧
      made.blockSize = cfg.rtAlign (cfg.add cfg.sizeofPtr itemSz) ∧
      made.queue = .init word contents (cfg.rtAlignDown (cfg.mul itemNr (cfg.add (cfg.add cfg.sizeofPtr itemSz) cfg.sizeofPtr)) /
        cfg.add made.blockSize cfg.sizeofPtr) itemSz priority := by
  unfold rtPrioQueueCreate at hmade
  split at hmade
  · cases hmade
  · rename_i hnone
    cases hmade
    exact ⟨Nat.pos_of_ne_zero fun hzero => hnone (.inl hzero), rfl, rfl, rfl⟩

theorem MadeQueue.Accepts.sizes (hmade : rtPrioQueueCreate cfg sizeofQueue malloc word contents priority itemNr itemSz = some made)
    (h : made.Accepts cfg sizeofQueue itemSz itemNr) :
    sizeofQueue + itemNr * (made.blockSize + cfg.sizeofPtr) < cfg.word ∧ cfg.add cfg.sizeofPtr itemSz = cfg.sizeofPtr + itemSz ∧
      cfg.mul itemNr (cfg.add (cfg.add cfg.sizeofPtr itemSz) cfg.sizeofPtr) = itemNr * (2 * cfg.sizeofPtr + itemSz) ∧
      cfg.add made.blockSize cfg.sizeofPtr = made.blockSize + cfg.sizeofPtr := by
  obtain ⟨hpos, hallocated, -, -⟩ := rtPrioQueueCreate_cases hmade
  have hroom := h.room
  have hword : made.allocated < cfg.word := by
    rw [hallocated]
    exact Nat.mod_lt _ (lt_of_lt_of_le (by decide) cfg.le_word)
  have hall : sizeofQueue + itemNr * (made.blockSize + cfg.sizeofPtr) < cfg.word := lt_of_le_of_lt h.inside hword
  have hone : made.blockSize + cfg.sizeofPtr ≤ itemNr * (made.blockSize + cfg.sizeofPtr) := Nat.le_mul_of_pos_left _ hpos
  have hfirst : cfg.add cfg.sizeofPtr itemSz = cfg.sizeofPtr + itemSz := cfg.add_eq (by omega)
  have hitem : cfg.add (cfg.sizeofPtr + itemSz) cfg.sizeofPtr = 2 * cfg.sizeofPtr + itemSz := by
    rw [cfg.add_eq (by omega)]
    omega
  have hitems : itemNr * (2 * cfg.sizeofPtr + itemSz) ≤ itemNr * (made.blockSize + cfg.sizeofPtr) :=
    Nat.mul_le_mul_left itemNr (by omega)
  refine ⟨hall, hfirst, ?_, cfg.add_eq (by omega)⟩
  rw [hfirst, hitem]
  exact Nat.mod_eq_of_lt (by omega)

/-- A queue accepts as many pushes as it has been made for when the rounding loses nothing. -/
theorem rtPrioQueueCreate_accepts_iff
    (hmade : rtPrioQueueCreate cfg sizeofQueue malloc word contents priority itemNr itemSz = some made) :
    made.Accepts cfg sizeofQueue itemSz itemNr ↔ cfg.alignSize ∣ cfg.sizeofPtr + itemSz ∧
      cfg.alignSize ∣ itemNr * (2 * cfg.sizeofPtr + itemSz) ∧ sizeofQueue + itemNr * (2 * cfg.sizeofPtr + itemSz) < cfg.word := by
  obtain ⟨hpos, hallocated, hblock, hqueue⟩ := rtPrioQueueCreate_cases hmade
  have hptr := cfg.sizeofPtr_pos
  constructor
  · intro h
    obtain ⟨hword, hfirst, hitems, hstride⟩ := h.sizes hmade
    have hroom := h.room
    have hcount := pushes_iff.mp (hqueue ▸ h.begun)
    rw [hitems, hstride, Nat.le_div_iff_mul_le (by omega)] at hcount
    -- so many blocks of the rounded size are not longer than so many items
    have hdown := cfg.rtAlignDown_le (itemNr * (2 * cfg.sizeofPtr + itemSz))
    have hle : made.blockSize + cfg.sizeofPtr ≤ 2 * cfg.sizeofPtr + itemSz :=
      Nat.le_of_mul_le_mul_left (hcount.trans hdown) hpos
    have hsame : made.blockSize = cfg.sizeofPtr + itemSz := by omega
    have hstrides : made.blockSize + cfg.sizeofPtr = 2 * cfg.sizeofPtr + itemSz := by omega
    rw [hstrides] at hcount hword
    refine ⟨?_, ?_, hword⟩
    · rw [← hsame, hblock]
      exact cfg.rtAlign_dvd _
    · rw [← Nat.le_antisymm hdown hcount]
      exact cfg.rtAlignDown_dvd _
  · rintro ⟨hitem, htotal, hword⟩
    have hone : 2 * cfg.sizeofPtr + itemSz ≤ itemNr * (2 * cfg.sizeofPtr + itemSz) := Nat.le_mul_of_pos_left _ hpos
    have hfirst : cfg.add cfg.sizeofPtr itemSz = cfg.sizeofPtr + itemSz := cfg.add_eq (by omega)
    have hround : cfg.alignSize ≤ cfg.word - (cfg.sizeofPtr + itemSz) :=
      Nat.le_of_dvd (by omega) (Nat.dvd_sub cfg.alignSize_dvd_word hitem)
    have hsame : made.blockSize = cfg.sizeofPtr + itemSz := by
      rw [hblock, hfirst]
      exact cfg.rtAlign_of_dvd hitem (by omega)
    have hstride : cfg.add (cfg.sizeofPtr + itemSz) cfg.sizeofPtr = 2 * cfg.sizeofPtr + itemSz := by
      rw [cfg.add_eq (by omega)]
      omega
    have hitems : cfg.mul itemNr (2 * cfg.sizeofPtr + itemSz) = itemNr * (2 * cfg.sizeofPtr + itemSz) :=
      Nat.mod_eq_of_lt (by omega)
    rw [hsame, hfirst, hstride, hitems, MemConfig.rtAlignDown, Nat.div_mul_cancel htotal,
      Nat.mul_div_cancel _ (by omega : 0 < 2 * cfg.sizeofPtr + itemSz)] at hqueue
    constructor
    · rw [hqueue]
      exact pushes_iff.mpr le_rfl
    · rw [hqueue]
      intro ops trace s hexec hfills hle c hcall
      obtain ⟨-, hend⟩ := (pushesBegun_init hpos).exec hfills (by omega) hexec
      obtain ⟨s', events, hstep, hreturn, -⟩ := hend.resume hcall
      exact ⟨s', events, hstep, hreturn⟩
    · exact hsame.ge
    · rw [hsame, hallocated, hfirst, hstride, hitems, cfg.add_eq hword]
      have hsum : cfg.sizeofPtr + itemSz + cfg.sizeofPtr = 2 * cfg.sizeofPtr + itemSz := by omega
      rw [hsum]

def wordQueue : MadeQueue :=
  (rtPrioQueueCreate ⟨false, false, 2, wordShift_lt⟩ 100 true (fun _ => .pool) (fun _ => []) (fun _ => 0) 1 4).get (by decide)

theorem wordQueue_accepts : wordQueue.Accepts ⟨false, false, 2, by decide⟩ 100 4 1 :=
  (rtPrioQueueCreate_accepts_iff (Option.some_get _).symm).mpr (by decide)

/-- A queue for one byte has no block at all. -/
theorem byteQueue_fails : ∃ made,
    rtPrioQueueCreate ⟨false, false, 2, by decide⟩ 100 true (fun _ => .pool) (fun _ => []) (fun _ => 0) 1 1 = some made ∧
    (∃ s, stepPq made.queue (.push (.thread 0) 0 [7] 0) = some (s, [.noMemory (.thread 0)])) ∧
    ¬ made.Accepts ⟨false, false, 2, by decide⟩ 100 1 1 := by
  refine ⟨_, rfl, ⟨_, rfl⟩, fun h => ?_⟩
  obtain ⟨item, s, hstep, -⟩ := h.begun [] [] _ rfl (fun op hop => absurd hop List.not_mem_nil) Nat.zero_lt_one (.thread 0) 0 [7] 0
    rfl (by decide) rfl
  cases hstep

end RtThread
