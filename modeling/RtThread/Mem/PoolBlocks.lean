import RtThread.Mem.MemPool

/-!
# The blocks of a memory pool

Every block is in the free list or points to the pool. Taking the first block of the list and putting a block back in front keep this, and nothing else that a call does concerns the blocks. So a block that has been handed out stays out of the list until it is given back.
-/

namespace RtThread

open Function

variable {s s' : MemPool} {free : List Nat} {block : Nat} {next : Option Nat} {c : Caller} {t : ThreadId} {time : Int}
  {beforeSleep : BitVec 32} {word : Nat → BlockWord} {total : Nat} {priority : ThreadId → Nat} {code : IpcErr}
  {result : MpResult} {m m' : MpState} {op : MpOp} {trace events : List MpEvent} {e : MpEvent}

/-! ## The free list -/

def BlockWord.link : BlockWord → Option Nat
  | .next block => block
  | .pool => none

/-- The free list of the pool: so many different blocks of the pool as the pool counts. -/
structure FreeBlocks (s : MemPool) (free : List Nat) : Prop where
  linked : LinkedFrom (fun block => (s.word block).link) s.blockList free
  nodup : free.Nodup
  lt : ∀ block ∈ free, block < s.blockTotalCount
  count : free.length = s.blockFreeCount

structure PoolBlocks (s : MemPool) (free : List Nat) : Prop extends FreeBlocks s free where
  word : ∀ block < s.blockTotalCount, s.word block = .pool ↔ block ∉ free

structure SameBlocks (s s' : MemPool) : Prop where
  word : s'.word = s.word
  blockList : s'.blockList = s.blockList
  total : s'.blockTotalCount = s.blockTotalCount
  count : s'.blockFreeCount = s.blockFreeCount

theorem SameBlocks.refl (s : MemPool) : SameBlocks s s := ⟨rfl, rfl, rfl, rfl⟩

theorem PoolBlocks.same (h : PoolBlocks s free) (hsame : SameBlocks s s') : PoolBlocks s' free := by
  obtain ⟨hword, hlist, htotal, hcount⟩ := hsame
  refine ⟨⟨?_, h.nodup, ?_, h.count.trans hcount.symm⟩, ?_⟩
  · rw [hword, hlist]
    exact h.linked
  · rw [htotal]
    exact h.lt
  · rw [htotal, hword]
    exact h.word

theorem link_update (word : Nat → BlockWord) (block : Nat) (value : BlockWord) :
    (fun other => (update word block value other).link) =
      update (fun other => (word other).link) block value.link := by
  ext1 other
  by_cases hother : other = block
  · subst hother
    simp
  · simp [hother]

theorem PoolBlocks.take (h : PoolBlocks s free) (hlist : s.blockList = some block) (hword : s.word block = .next next) :
    ∃ rest, free = block :: rest ∧ PoolBlocks (s.take block next) rest := by
  obtain ⟨rest, rfl, hrest⟩ := (hlist ▸ h.linked).exists_of_some
  obtain ⟨hblock, hnodup⟩ := List.nodup_cons.1 h.nodup
  have hlink : LinkedFrom (fun other => (s.word other).link) next rest := by
    simpa only [hword, BlockWord.link] using hrest
  refine ⟨rest, rfl, ⟨?_, hnodup, fun other hother => h.lt other (List.mem_cons_of_mem block hother), ?_⟩, ?_⟩
  · simp only [MemPool.take, link_update]
    exact hlink.update hblock
  · have hcount := h.count
    rw [List.length_cons] at hcount
    simp only [MemPool.take]
    omega
  · intro other hother
    by_cases heq : other = block
    · subst heq
      simp [MemPool.take, hblock]
    · have hold := h.word other hother
      simp only [MemPool.take, update_of_ne heq]
      simpa [heq] using hold

theorem PoolBlocks.put (h : PoolBlocks s free) (hlt : block < s.blockTotalCount) (hword : s.word block = .pool) :
    PoolBlocks (s.put block) (block :: free) := by
  have hblock : block ∉ free := (h.word block hlt).1 hword
  refine ⟨⟨?_, List.nodup_cons.2 ⟨hblock, h.nodup⟩, ?_, ?_⟩, ?_⟩
  · simp only [MemPool.put, link_update]
    exact h.linked.push hblock
  · intro other hother
    rcases List.mem_cons.1 hother with rfl | hmem
    · exact hlt
    · exact h.lt other hmem
  · have hcount := h.count
    simp only [MemPool.put, List.length_cons]
    omega
  · intro other hother
    by_cases heq : other = block
    · subst heq
      simp [MemPool.put]
    · have hold := h.word other hother
      simp only [MemPool.put, update_of_ne heq]
      simpa [heq] using hold

/-! ## What the calls do to the blocks -/

theorem MemPool.sameBlocks_setThread (f : Waiter → Waiter) : SameBlocks s (s.setThread t f) := ⟨rfl, rfl, rfl, rfl⟩

theorem MemPool.sameBlocks_suspend {timer : Bool} : SameBlocks s (s.suspend t timer) := ⟨rfl, rfl, rfl, rfl⟩

theorem MemPool.resumeFirst_cases (hs : s.resumeFirst code = some s') :
    ∃ t rest, s.suspendThread = t :: rest ∧ s' = { s with
      suspendThread := rest
      suspendThreadCount := s.suspendThreadCount - 1 }.setThread t fun thread => { thread with error := code, timer := false } := by
  unfold MemPool.resumeFirst at hs
  split at hs
  · cases hs
  · rename_i t rest hlist
    exact ⟨t, rest, hlist, (Option.some.inj hs).symm⟩

theorem MemPool.sameBlocks_resumeFirst (hs : s.resumeFirst code = some s') : SameBlocks s s' := by
  obtain ⟨t, rest, -, rfl⟩ := MemPool.resumeFirst_cases hs
  exact ⟨rfl, rfl, rfl, rfl⟩

theorem MemPool.threadTimeout_cases (hs : s.threadTimeout t = some s') :
    t ∈ s.suspendThread ∧ s' = { s with suspendThread := s.suspendThread.erase t }.setThread t fun thread =>
      { thread with error := .etimeout, timer := false } := by
  unfold MemPool.threadTimeout at hs
  split at hs
  · rename_i hwait
    exact ⟨hwait.1, (Option.some.inj hs).symm⟩
  · cases hs

/-- The three ways in which a critical section of `rt_mp_alloc` ends. -/
inductive AllocEffect (s : MemPool) (c : Caller) : MpResult → MemPool → Prop
  | block {block : Nat} {next : Option Nat} (hcount : s.blockFreeCount ≠ 0) (hlist : s.blockList = some block)
      (hword : s.word block = .next next) : AllocEffect s c (.block block) (s.take block next)
  | null {s' : MemPool} (hsame : SameBlocks s s') (hlist : s'.suspendThread = s.suspendThread)
      (hcount : s'.suspendThreadCount = s.suspendThreadCount) : AllocEffect s c .null s'
  | wait {t : ThreadId} {time : Int} {timer : Bool} (hc : c = .thread t) (hempty : s.blockFreeCount = 0) :
      AllocEffect s c (.wait time s.tick) (s.suspend t timer)

theorem rtMpAlloc_effect (hs : rtMpAlloc s c time = some (result, s')) : AllocEffect s c result s' := by
  unfold rtMpAlloc at hs
  by_cases hempty : s.blockFreeCount = 0
  · rw [if_pos hempty] at hs
    cases c with
    | interrupt n =>
      dsimp only at hs
      split at hs
      · cases hs
        exact .null (.refl s) rfl rfl
      · cases hs
    | thread t =>
      dsimp only at hs
      split at hs
      · cases hs
        exact .null (MemPool.sameBlocks_setThread _) rfl rfl
      · obtain ⟨timer, -, heq⟩ := Option.map_eq_some_iff.1 hs
        cases heq
        exact .wait rfl hempty
  · rw [if_neg hempty] at hs
    split at hs
    · cases hs
    · rename_i block hlist
      split at hs
      · cases hs
      · rename_i next hword
        cases hs
        exact .block hempty hlist hword

theorem rtMpAllocResume_effect (hs : rtMpAllocResume s t time beforeSleep = some (result, s')) :
    AllocEffect s (.thread t) result s' := by
  unfold rtMpAllocResume at hs
  split at hs
  · cases hs
    exact .null (.refl s) rfl rfl
  · exact rtMpAlloc_effect hs

theorem rtMpFree_cases (hs : rtMpFree s block = some s') :
    s.word block = .pool ∧
      (s.suspendThreadCount = 0 ∧ s' = s.put block ∨ 0 < s.suspendThreadCount ∧ (s.put block).resumeFirst .eok = some s') := by
  unfold rtMpFree at hs
  split at hs
  · rename_i hword
    refine ⟨hword, ?_⟩
    by_cases hcount : 0 < (s.put block).suspendThreadCount
    · rw [if_pos hcount] at hs
      exact .inr ⟨hcount, hs⟩
    · rw [if_neg hcount] at hs
      exact .inl ⟨Nat.eq_zero_of_not_pos hcount, (Option.some.inj hs).symm⟩
  · cases hs

/-! ## A new pool -/

theorem initBlockList_link (word : Nat → BlockWord) (total block : Nat) :
    MemPool.initBlockList word total block = if block < total then .next (some (block + 1)) else word block := by
  induction total with
  | zero => rfl
  | succ total ih =>
    have hstep : MemPool.initBlockList word (total + 1) =
        update (MemPool.initBlockList word total) total (.next (some (total + 1))) := by
      unfold MemPool.initBlockList
      rw [List.range_succ, List.foldl_append]
      rfl
    rw [hstep]
    by_cases heq : block = total
    · subst heq
      rw [update_self, if_pos (Nat.lt_succ_self block)]
    · rw [update_of_ne heq, ih]
      by_cases hlt : block < total
      · rw [if_pos hlt, if_pos (Nat.lt_succ_of_lt hlt)]
      · rw [if_neg hlt, if_neg (by omega)]

theorem init_word (hlt : block < total) :
    (MemPool.init word total priority).word block = .next (if block + 1 < total then some (block + 1) else none) := by
  have hpos : total ≠ 0 := by omega
  simp only [MemPool.init, if_neg hpos]
  by_cases heq : block = total - 1
  · subst heq
    rw [update_self, if_neg (by omega)]
  · rw [update_of_ne heq, initBlockList_link, if_pos hlt, if_pos (by omega)]

theorem poolBlocks_init (hpos : 0 < total) : PoolBlocks (.init word total priority) (List.range total) := by
  have hlinked : ∀ n start, start + n = total →
      LinkedFrom (fun block => ((MemPool.init word total priority).word block).link) (if start < total then some start else none)
        (List.range' start n) := by
    intro n
    induction n with
    | zero =>
      intro start hstart
      rw [if_neg (by omega)]
      rfl
    | succ n ih =>
      intro start hstart
      rw [if_pos (by omega)]
      refine ⟨rfl, ?_⟩
      simp only [init_word (show start < total by omega), BlockWord.link]
      exact ih (start + 1) (by omega)
  have hfirst := hlinked total 0 (by omega)
  rw [if_pos hpos, ← List.range_eq_range'] at hfirst
  refine ⟨⟨hfirst, List.nodup_range, fun block hblock => List.mem_range.1 hblock, List.length_range⟩, ?_⟩
  intro block hblock
  have hlt : block < total := hblock
  rw [init_word hlt, List.mem_range]
  simpa using hlt

/-! ## Blocks that have been handed out -/

def heldAfter (held : List Nat) : MpEvent → List Nat
  | .allocated _ block => block :: held
  | .freed block => held.erase block
  | _ => held

def heldBlocks (trace : List MpEvent) : List Nat := trace.foldl heldAfter []

def HandedOutOnce (trace : List MpEvent) : Prop :=
  ∀ before c block, before ++ [MpEvent.allocated c block] <+: trace → block ∉ heldBlocks before

theorem handedOutOnce_append (h : HandedOutOnce trace)
    (he : ∀ c block, e = .allocated c block → block ∉ heldBlocks trace) : HandedOutOnce (trace ++ [e]) := by
  intro before c block hprefix
  rcases List.prefix_concat_iff.1 hprefix with heq | hprefix
  · obtain ⟨rfl, hlast⟩ := List.append_inj' heq rfl
    exact he c block (List.cons.inj hlast).1.symm
  · exact h before c block hprefix

@[simp] theorem heldBlocks_append : heldBlocks (trace ++ [e]) = heldAfter (heldBlocks trace) e := by
  rw [heldBlocks, List.foldl_append]
  rfl

inductive BlockEffect (s s' : MemPool) : List MpEvent → Prop
  | take {c : Caller} {block : Nat} {next : Option Nat} (hlist : s.blockList = some block)
      (hword : s.word block = .next next) (hsame : SameBlocks (s.take block next) s') :
      BlockEffect s s' [.allocated c block]
  | put {block : Nat} (hlt : block < s.blockTotalCount) (hword : s.word block = .pool)
      (hsame : SameBlocks (s.put block) s') : BlockEffect s s' [.freed block]
  | other {e : MpEvent} (hsame : SameBlocks s s') (hheld : ∀ held, heldAfter held e = held)
      (he : ∀ c block, e ≠ .allocated c block) : BlockEffect s s' [e]
  | silent (hsame : SameBlocks s s') : BlockEffect s s' []

theorem AllocEffect.blocks (h : AllocEffect m.pool c result s') :
    BlockEffect m.pool (m.allocates c (result, s')).1.pool (m.allocates c (result, s')).2 := by
  cases h with
  | block _ hlist hword => exact .take hlist hword (.refl _)
  | null hsame _ _ => exact .other hsame (fun _ => rfl) fun _ _ => MpEvent.noConfusion
  | wait _ _ => exact .silent MemPool.sameBlocks_suspend

theorem stepMp_blocks (hs : stepMp m op = some (m', events)) : BlockEffect m.pool m'.pool events := by
  cases op with
  | alloc c time =>
    simp only [stepMp] at hs
    split at hs
    · obtain ⟨⟨result, pool⟩, halloc, heq⟩ := Option.map_eq_some_iff.1 hs
      have heffect := (rtMpAlloc_effect halloc).blocks (m := m)
      rwa [heq] at heffect
    · cases hs
  | free block =>
    simp only [stepMp] at hs
    split at hs
    · rename_i hguard
      obtain ⟨pool, hfree, heq⟩ := Option.map_eq_some_iff.1 hs
      cases heq
      obtain ⟨hword, ⟨-, rfl⟩ | ⟨-, hresume⟩⟩ := rtMpFree_cases hfree
      · exact .put hguard.2 hword (.refl _)
      · exact .put hguard.2 hword (MemPool.sameBlocks_resumeFirst hresume)
    · cases hs
  | delete t =>
    simp only [stepMp] at hs
    split at hs
    · cases hs
      exact .silent (.refl _)
    · cases hs
  | resume c =>
    simp only [stepMp] at hs
    split at hs
    · cases hs
    · split at hs
      · split at hs
        · obtain ⟨⟨result, pool⟩, halloc, heq⟩ := Option.map_eq_some_iff.1 hs
          have heffect := (rtMpAllocResume_effect halloc).blocks (m := m)
          rwa [heq] at heffect
        · cases hs
      · split at hs
        · cases hs
        · split at hs
          · cases hs
            exact .other (.refl _) (fun _ => rfl) fun _ _ => MpEvent.noConfusion
          · cases hs
            exact .silent (.refl _)
      · split at hs
        · cases hs
        · obtain ⟨pool, hresume, heq⟩ := Option.map_eq_some_iff.1 hs
          cases heq
          exact .silent (MemPool.sameBlocks_resumeFirst hresume)
      · cases hs
  | timeout t =>
    obtain ⟨pool, htimeout, heq⟩ := Option.map_eq_some_iff.1 hs
    cases heq
    obtain ⟨-, rfl⟩ := MemPool.threadTimeout_cases htimeout
    exact .other ⟨rfl, rfl, rfl, rfl⟩ (fun _ => rfl) fun _ _ => MpEvent.noConfusion
  | tick =>
    cases hs
    exact .silent ⟨rfl, rfl, rfl, rfl⟩

structure HeldInv (trace : List MpEvent) (s : MemPool) (free : List Nat) : Prop where
  blocks : PoolBlocks s free
  held : ∀ block, block ∈ heldBlocks trace ↔ block < s.blockTotalCount ∧ block ∉ free
  nodup : (heldBlocks trace).Nodup
  once : HandedOutOnce trace

theorem HeldInv.step (h : HeldInv trace s free) (heffect : BlockEffect s s' events) :
    ∃ free', HeldInv (trace ++ events) s' free' := by
  cases heffect with
  | @take c block next hlist hword hsame =>
    obtain ⟨rest, rfl, hblocks⟩ := h.blocks.take hlist hword
    have hfree : block ∉ heldBlocks trace := fun hheld => ((h.held block).1 hheld).2 (List.mem_cons_self ..)
    refine ⟨rest, hblocks.same hsame, ?_, ?_, handedOutOnce_append h.once ?_⟩
    · intro other
      have hold := h.held other
      have hlt := h.blocks.lt block (List.mem_cons_self ..)
      have hnot := (List.nodup_cons.1 h.blocks.nodup).1
      rw [heldBlocks_append, hsame.total]
      simp only [heldAfter, List.mem_cons, MemPool.take] at hold ⊢
      by_cases heq : other = block
      · subst heq
        simp [hlt, hnot]
      · simpa [heq] using hold
    · rw [heldBlocks_append]
      exact List.nodup_cons.2 ⟨hfree, h.nodup⟩
    · intro c' block' heq
      cases heq
      exact hfree
  | @put block hlt hword hsame =>
    refine ⟨block :: free, (h.blocks.put hlt hword).same hsame, ?_, ?_,
      handedOutOnce_append h.once fun _ _ => MpEvent.noConfusion⟩
    · intro other
      rw [heldBlocks_append, hsame.total]
      simp only [heldAfter, h.nodup.mem_erase_iff, h.held other, List.mem_cons, MemPool.put]
      tauto
    · rw [heldBlocks_append]
      exact h.nodup.erase block
  | other hsame hheld he =>
    refine ⟨free, h.blocks.same hsame, ?_, ?_, handedOutOnce_append h.once fun c block heq => absurd heq (he c block)⟩
    · rw [heldBlocks_append, hheld, hsame.total]
      exact h.held
    · rw [heldBlocks_append, hheld]
      exact h.nodup
  | silent hsame =>
    rw [List.append_nil]
    exact ⟨free, h.blocks.same hsame, by rw [hsame.total]; exact h.held, h.nodup, h.once⟩

theorem heldInv_of_run (hpos : 0 < total) (hrun : MpRun word total priority trace m) :
    ∃ free, HeldInv trace m.pool free := by
  refine hrun.invariant (I := fun trace m => ∃ free, HeldInv trace m.pool free) ⟨List.range total, ?_⟩ ?_
  · refine ⟨poolBlocks_init hpos, ?_, List.nodup_nil, fun before c block hprefix => ?_⟩
    · intro block
      simp [heldBlocks, MpState.init, MemPool.init]
    · simp at hprefix
  · intro trace m op m' events ⟨free, h⟩ _ hs
    exact h.step (stepMp_blocks hs)

theorem not_freeBlocks_init : ¬ FreeBlocks (.init word 0 priority) free := by
  intro h
  obtain rfl : free = [] := List.length_eq_zero_iff.1 h.count
  exact Option.some_ne_none 0 h.linked

/-- The pool keeps its blocks in every run, if it has any at all. -/
theorem poolBlocks_of_run_iff (word : Nat → BlockWord) (total : Nat) (priority : ThreadId → Nat) :
    (∀ trace m, MpRun word total priority trace m → (∃ free, FreeBlocks m.pool free) ∧ HandedOutOnce trace) ↔ 0 < total := by
  constructor
  · intro hall
    by_contra hzero
    obtain rfl : total = 0 := by omega
    obtain ⟨⟨free, hfree⟩, -⟩ := hall [] _ .start
    exact not_freeBlocks_init hfree
  · intro hpos trace m hrun
    obtain ⟨free, h⟩ := heldInv_of_run hpos hrun
    exact ⟨⟨free, h.blocks.toFreeBlocks⟩, h.once⟩

/-- A pool whose memory is smaller than one block. -/
theorem poolBlocks_fails : ¬ ∀ word total priority trace m, MpRun word total priority trace m →
    (∃ free, FreeBlocks m.pool free) ∧ HandedOutOnce trace := by
  intro hall
  obtain ⟨⟨free, hfree⟩, -⟩ := hall (fun _ => .pool) 0 (fun _ => 0) [] _ .start
  exact not_freeBlocks_init hfree

end RtThread
