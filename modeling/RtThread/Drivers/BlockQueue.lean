import RtThread.Drivers.BlockPlacement

/-!
# Block queues

A queue is found by a walk along the list and is used as a run of the block set: `struct rt_rbb_blk_queue` stores its first block and the number of its blocks. The walk asks of a block only that it does not start before the block in front of it, and of the first block it does not ask the size.
-/

namespace RtThread

variable {rbb rbb₀ rbb' : Rbb} {s s' : RbbState} {op : RbbOp} {trace events : List RbbEvent}
  {queueDataLen sum size block last first bufSize blkMaxNum : Nat} {status : RbbStatus}
  {blocks nodes taken freed queue pre post : List Nat}

def rtRbbBlkQueueLen (rbb : Rbb) (blocks blkNum : Nat) : Nat :=
  (List.range blkNum).foldl (fun dataTotalSize i => (dataTotalSize + (rbb.blkSet (blocks + i)).size) % 4294967296) 0

namespace Rbb

def IsPut (rbb : Rbb) (block : Nat) : Prop := (rbb.blkSet block).status = .put

instance decidableIsPut (rbb : Rbb) (block : Nat) : Decidable (rbb.IsPut block) := inferInstanceAs (Decidable (_ = _))

def total (rbb : Rbb) (blocks : List Nat) : Nat := (blocks.map fun block => (rbb.blkSet block).size).sum

def Rises (rbb : Rbb) (blocks : List Nat) : Prop := blocks.IsChain fun a b => rbb.start a ≤ rbb.start b

instance decidableRises (rbb : Rbb) (blocks : List Nat) : Decidable (rbb.Rises blocks) :=
  inferInstanceAs (Decidable (List.IsChain _ _))

def Contiguous (rbb : Rbb) (blocks : List Nat) : Prop := blocks.IsChain fun a b => rbb.stop a = rbb.start b

def putRun (rbb : Rbb) : List Nat := (rbb.blkList.dropWhile fun block => ¬ rbb.IsPut block).takeWhile fun block => rbb.IsPut block

def reach (rbb : Rbb) (queueDataLen : Nat) : List Nat :=
  rbb.putRun.take (Nat.findGreatest
    (fun n => rbb.Rises (rbb.putRun.take n) ∧ rbb.total (rbb.putRun.take n) ≤ queueDataLen) rbb.putRun.length)

def takeOff (rbb : Rbb) (status : RbbStatus) (blocks : List Nat) : Rbb :=
  blocks.foldl (fun rbb block => (rbb.remove block).setStatus block status) rbb

structure Well (rbb : Rbb) : Prop where
  nodup : rbb.blkList.Nodup
  used : ∀ block ∈ rbb.blkList, block < rbb.blkMaxNum ∧ (rbb.blkSet block).status ≠ .unused
  size : ∀ block, (rbb.blkSet block).size < 16777216

end Rbb

/-- What a call of `rt_rbb_blk_queue_get` is to do: the queue is a run of blocks that are put, one behind the other in memory, and not longer than asked for; its length is the length of these blocks, and freeing it frees them and no other. -/
structure QueueCovers (rbb : Rbb) (queueDataLen : Nat) (queue : List Nat) (size : Nat) (rbb' : Rbb) : Prop where
  run : queue <:+: rbb.blkList
  put : ∀ block ∈ queue, rbb.IsPut block
  contiguous : rbb.Contiguous queue
  size : size = rbb.total queue
  fits : rbb.total queue ≤ queueDataLen
  len : ∀ first ∈ queue.head?, rtRbbBlkQueueLen rbb' first queue.length = rbb.total queue
  free : ∀ first ∈ queue.head?, ∃ rbb'', rtRbbBlkQueueFree rbb' first queue.length = some rbb'' ∧
    rbb''.blkList = rbb'.blkList ∧ ∀ block,
      rbb''.blkSet block = if block ∈ queue then { rbb'.blkSet block with status := .unused } else rbb'.blkSet block

/-- The first block that is put is not too long; the blocks in reach lie one behind the other, in the slots of the block set that follow the first one's; and the next block does not take the total past the end of a word. -/
structure QueueFits (rbb : Rbb) (queueDataLen : Nat) : Prop where
  first : ∀ first ∈ rbb.putRun.head?, (rbb.blkSet first).size ≤ queueDataLen
  contiguous : rbb.Contiguous (rbb.reach queueDataLen)
  slots : ∀ first ∈ rbb.putRun.head?, ∀ block ∈ rbb.reach queueDataLen,
    first ≤ block ∧ block < first + (rbb.reach queueDataLen).length
  word : ∀ block, rbb.reach queueDataLen ++ [block] <+: rbb.putRun → rbb.Rises (rbb.reach queueDataLen ++ [block]) →
    rbb.total (rbb.reach queueDataLen ++ [block]) < 4294967296

/-! ## Totals and reach -/

namespace Rbb

@[simp] theorem total_nil (rbb : Rbb) : rbb.total [] = 0 := rfl

@[simp] theorem total_cons (rbb : Rbb) (block : Nat) (blocks : List Nat) :
    rbb.total (block :: blocks) = (rbb.blkSet block).size + rbb.total blocks := by
  simp [total]

@[simp] theorem total_append (rbb : Rbb) (pre post : List Nat) : rbb.total (pre ++ post) = rbb.total pre + rbb.total post := by
  simp [total]

theorem total_le_of_prefix (hhead : pre <+: blocks) : rbb.total pre ≤ rbb.total blocks := by
  obtain ⟨post, rfl⟩ := hhead
  rw [total_append]
  omega

theorem Rises.left (h : rbb.Rises blocks) (hhead : pre <+: blocks) : rbb.Rises pre := by
  obtain ⟨post, rfl⟩ := hhead
  exact List.IsChain.left_of_append h

theorem reach_head (rbb : Rbb) (queueDataLen : Nat) : rbb.reach queueDataLen <+: rbb.putRun := List.take_prefix ..

theorem reach_spec (rbb : Rbb) (queueDataLen : Nat) :
    rbb.Rises (rbb.reach queueDataLen) ∧ rbb.total (rbb.reach queueDataLen) ≤ queueDataLen := by
  refine Nat.findGreatest_spec (P := fun n => rbb.Rises (rbb.putRun.take n) ∧ rbb.total (rbb.putRun.take n) ≤ queueDataLen)
    (Nat.zero_le _) ?_
  rw [List.take_zero]
  exact ⟨List.IsChain.nil, Nat.zero_le _⟩

theorem le_reach (hhead : blocks <+: rbb.putRun) (hrises : rbb.Rises blocks) (hfits : rbb.total blocks ≤ queueDataLen) :
    blocks <+: rbb.reach queueDataLen := by
  have htake := List.prefix_iff_eq_take.1 hhead
  have hle : blocks.length ≤ Nat.findGreatest
      (fun n => rbb.Rises (rbb.putRun.take n) ∧ rbb.total (rbb.putRun.take n) ≤ queueDataLen) rbb.putRun.length := by
    refine Nat.le_findGreatest hhead.length_le ?_
    rw [← htake]
    exact ⟨hrises, hfits⟩
  rw [reach, htake]
  exact List.take_prefix_take_left hle

theorem putRun_of_split (hlist : rbb.blkList = pre ++ (queue ++ post)) (hpre : ∀ block ∈ pre, ¬ rbb.IsPut block)
    (hput : ∀ block ∈ queue, rbb.IsPut block) (hne : queue ≠ []) :
    rbb.putRun = queue ++ post.takeWhile fun block => rbb.IsPut block := by
  obtain ⟨first, rest, rfl⟩ := List.exists_cons_of_ne_nil hne
  rw [putRun, hlist, List.dropWhile_append_of_pos fun block hblock => decide_eq_true (hpre block hblock), List.cons_append,
    List.dropWhile_cons_of_neg (by simpa using hput first List.mem_cons_self), ← List.cons_append,
    List.takeWhile_append_of_pos fun block hblock => decide_eq_true (hput block hblock)]

/-! ## Blocks that are taken off -/

@[simp] theorem takeOff_blkMaxNum (rbb : Rbb) (status : RbbStatus) (blocks : List Nat) :
    (rbb.takeOff status blocks).blkMaxNum = rbb.blkMaxNum := by
  induction blocks generalizing rbb with
  | nil => rfl
  | cons block blocks ih => exact ih _

theorem takeOff_blkSet (rbb : Rbb) (status : RbbStatus) (blocks : List Nat) (block : Nat) :
    (rbb.takeOff status blocks).blkSet block =
      if block ∈ blocks then { rbb.blkSet block with status } else rbb.blkSet block := by
  induction blocks generalizing rbb with
  | nil => rfl
  | cons a blocks ih =>
    refine (ih _).trans ?_
    by_cases heq : block = a <;> by_cases hmem : block ∈ blocks <;> simp [heq, hmem, setStatus, remove]

theorem takeOff_blkList (status : RbbStatus) (blocks : List Nat) (hnodup : rbb.blkList.Nodup) :
    (rbb.takeOff status blocks).blkList = rbb.blkList.filter (· ∉ blocks) := by
  induction blocks generalizing rbb with
  | nil => simp [takeOff]
  | cons a blocks ih =>
    have herase : ((rbb.remove a).setStatus a status).blkList = rbb.blkList.filter (· != a) := hnodup.erase_eq_filter a
    refine (ih (herase ▸ hnodup.filter _)).trans ?_
    rw [herase, List.filter_filter]
    refine List.filter_congr fun block _ => ?_
    by_cases heq : block = a <;> simp [heq]

end Rbb

/-! ## The walk -/

structure Walk (rbb : Rbb) (queueDataLen last sum : Nat) (taken post : List Nat) : Prop where
  put : ∀ block ∈ taken, rbb.IsPut block
  rises : rbb.Rises (last :: taken)
  accepts : ∀ pre block rest, taken = pre ++ block :: rest →
    (sum + rbb.total (pre ++ [block])) % 4294967296 ≤ queueDataLen
  stops : ∀ block rest, post = block :: rest → rbb.IsPut block → rbb.Rises (last :: (taken ++ [block])) →
    queueDataLen < (sum + rbb.total (taken ++ [block])) % 4294967296

theorem Walk.cons (hput : rbb.IsPut block) (hrises : rbb.start last ≤ rbb.start block)
    (hfits : (sum + (rbb.blkSet block).size) % 4294967296 ≤ queueDataLen)
    (h : Walk rbb queueDataLen block ((sum + (rbb.blkSet block).size) % 4294967296) taken post) :
    Walk rbb queueDataLen last sum (block :: taken) post := by
  refine ⟨List.forall_mem_cons.2 ⟨hput, h.put⟩, List.isChain_cons_cons.2 ⟨hrises, h.rises⟩, fun pre a rest heq => ?_,
    fun a rest heq hputa hrisesa => ?_⟩
  · cases pre with
    | nil =>
      obtain ⟨rfl, -⟩ := List.cons.inj heq
      simpa using hfits
    | cons c pre =>
      obtain ⟨rfl, htaken⟩ := List.cons.inj heq
      have := h.accepts pre a rest htaken
      rwa [Nat.mod_add_mod, Nat.add_assoc, ← Rbb.total_cons, ← List.cons_append] at this
  · have := h.stops a rest heq hputa (List.isChain_cons_cons.1 hrisesa).2
    rwa [Nat.mod_add_mod, Nat.add_assoc, ← Rbb.total_cons, ← List.cons_append] at this

variable (queueDataLen) in
theorem walk_queueGetLoop (hnodup : nodes.Nodup) (hsum : sum < 4294967296)
    (hsame : ∀ block ∈ nodes, rbb.blkSet block = rbb₀.blkSet block) (hlast : rbb.start last = rbb₀.start last) :
    ∃ taken post, nodes = taken ++ post ∧ Walk rbb₀ queueDataLen last sum taken post ∧
      queueGetLoop queueDataLen rbb nodes (some last) sum =
        (taken, (sum + rbb₀.total taken) % 4294967296, rbb.takeOff .get taken) := by
  induction nodes generalizing rbb last sum with
  | nil =>
    refine ⟨[], [], rfl, ⟨by simp, List.IsChain.singleton _, by simp, by simp⟩, ?_⟩
    rw [queueGetLoop, Rbb.total_nil, Nat.add_zero, Nat.mod_eq_of_lt hsum]
    rfl
  | cons block nodes ih =>
    obtain ⟨hblock, hnodup⟩ := List.nodup_cons.1 hnodup
    obtain ⟨hsameblock, hsame⟩ := List.forall_mem_cons.1 hsame
    have hstart : rbb.start block = rbb₀.start block := congrArg RbbBlk.buf hsameblock
    by_cases hstop : (rbb.blkSet block).status ≠ .put ∨ (rbb.blkSet block).buf < (rbb.blkSet last).buf ∨
        queueDataLen < (sum + (rbb.blkSet block).size) % 4294967296
    · refine ⟨[], block :: nodes, rfl, ⟨by simp, List.IsChain.singleton _, by simp, fun a rest heq hput hrises => ?_⟩, ?_⟩
      · obtain ⟨rfl, -⟩ := List.cons.inj heq
        have hle : rbb.start last ≤ rbb.start block := by
          rw [hlast, hstart]
          exact (List.isChain_cons_cons.1 hrises).1
        rcases hstop with hstatus | hbefore | hlong
        · exact absurd (hsameblock ▸ hput) hstatus
        · exact absurd hbefore (Nat.not_lt.2 hle)
        · simpa [← hsameblock] using hlong
      · rw [queueGetLoop, if_pos hstop, Rbb.total_nil, Nat.add_zero, Nat.mod_eq_of_lt hsum]
        rfl
    · rw [queueGetLoop, if_neg hstop]
      obtain ⟨hput, hbefore, hlong⟩ : (rbb.blkSet block).status = .put ∧ rbb.start last ≤ rbb.start block ∧
          (sum + (rbb.blkSet block).size) % 4294967296 ≤ queueDataLen := by
        simpa [not_or, Rbb.start] using hstop
      have hkept : ∀ a, a ≠ block → (rbb.takeOff .get [block]).blkSet a = rbb.blkSet a := fun a hne => by
        rw [Rbb.takeOff_blkSet, if_neg (by simpa using hne)]
      have hrest : ∀ a ∈ nodes, (rbb.takeOff .get [block]).blkSet a = rbb₀.blkSet a := fun a ha =>
        (hkept a fun heq => hblock (heq ▸ ha)).trans (hsame a ha)
      have hlater : (rbb.takeOff .get [block]).start block = rbb₀.start block := by
        rw [← hstart, Rbb.start, Rbb.takeOff_blkSet]
        split_ifs <;> rfl
      obtain ⟨taken, post, heq, hwalk, hloop⟩ := ih hnodup (Nat.mod_lt (sum + (rbb.blkSet block).size) (by decide)) hrest hlater
      refine ⟨block :: taken, post, by rw [heq, List.cons_append], ?_, ?_⟩
      · rw [hsameblock] at hwalk hlong hput
        exact .cons hput (by rwa [← hlast, ← hstart]) hlong hwalk
      · refine (congrArg (fun r : List Nat × Nat × Rbb => (block :: r.1, r.2)) hloop).trans ?_
        rw [hsameblock, Nat.mod_add_mod, Nat.add_assoc, ← Rbb.total_cons]
        rfl

variable (queueDataLen) in
theorem Rbb.Well.queueGet (hwell : rbb.Well) :
    ((∀ block ∈ rbb.blkList, ¬ rbb.IsPut block) ∧ rtRbbBlkQueueGet rbb queueDataLen = ([], 0, rbb)) ∨
      ∃ pre first taken post, rbb.blkList = pre ++ (first :: taken ++ post) ∧ (∀ block ∈ pre, ¬ rbb.IsPut block) ∧
        rbb.IsPut first ∧ Walk rbb queueDataLen first (rbb.blkSet first).size taken post ∧
        rtRbbBlkQueueGet rbb queueDataLen =
          (first :: taken, rbb.total (first :: taken) % 4294967296, rbb.takeOff .get (first :: taken)) := by
  have hloop : ∀ nodes : List Nat, nodes.Nodup → ((∀ block ∈ nodes, ¬ rbb.IsPut block) ∧
      queueGetLoop queueDataLen rbb nodes none 0 = ([], 0, rbb)) ∨
      ∃ pre first taken post, nodes = pre ++ (first :: taken ++ post) ∧ (∀ block ∈ pre, ¬ rbb.IsPut block) ∧
        rbb.IsPut first ∧ Walk rbb queueDataLen first (rbb.blkSet first).size taken post ∧
        queueGetLoop queueDataLen rbb nodes none 0 =
          (first :: taken, rbb.total (first :: taken) % 4294967296, rbb.takeOff .get (first :: taken)) := by
    intro nodes hnodup
    induction nodes with
    | nil => exact .inl ⟨by simp, rfl⟩
    | cons block nodes ih =>
      obtain ⟨hblock, hnodup⟩ := List.nodup_cons.1 hnodup
      by_cases hput : rbb.IsPut block
      · have hword : (rbb.blkSet block).size < 4294967296 := Nat.lt_trans (hwell.size block) (by decide)
        have hkept : ∀ a, a ≠ block → (rbb.takeOff .get [block]).blkSet a = rbb.blkSet a := fun a hne => by
          rw [Rbb.takeOff_blkSet, if_neg (by simpa using hne)]
        have hrest : ∀ a ∈ nodes, (rbb.takeOff .get [block]).blkSet a = rbb.blkSet a := fun a ha =>
          hkept a fun heq => hblock (heq ▸ ha)
        have hlater : (rbb.takeOff .get [block]).start block = rbb.start block := by
          rw [Rbb.start, Rbb.takeOff_blkSet]
          split_ifs <;> rfl
        obtain ⟨taken, post, heq, hwalk, htaken⟩ := walk_queueGetLoop queueDataLen hnodup hword hrest hlater
        refine .inr ⟨[], block, taken, post, by rw [heq]; rfl, by simp, hput, hwalk, ?_⟩
        rw [queueGetLoop, if_neg (show ¬ (rbb.blkSet block).status ≠ .put from not_not.2 hput), Nat.zero_add, Nat.mod_eq_of_lt hword]
        refine (congrArg (fun r : List Nat × Nat × Rbb => (block :: r.1, r.2)) htaken).trans ?_
        rw [Rbb.total_cons]
        rfl
      · rw [queueGetLoop, if_pos (show (rbb.blkSet block).status ≠ .put from hput)]
        rcases ih hnodup with ⟨hnone, hrest⟩ | ⟨pre, first, taken, post, heq, hpre, hrest⟩
        · exact .inl ⟨List.forall_mem_cons.2 ⟨hput, hnone⟩, hrest⟩
        · exact .inr ⟨block :: pre, first, taken, post, by rw [heq]; rfl,
            List.forall_mem_cons.2 ⟨hput, hpre⟩, hrest⟩
  exact hloop rbb.blkList hwell.nodup

/-! ## The queue and the blocks in reach -/

section queue

variable (hlist : rbb.blkList = pre ++ (first :: taken ++ post)) (hpre : ∀ block ∈ pre, ¬ rbb.IsPut block)
  (hput : rbb.IsPut first) (hwalk : Walk rbb queueDataLen first (rbb.blkSet first).size taken post)

include hlist hpre hput hwalk

theorem Walk.putRun : rbb.putRun = first :: taken ++ post.takeWhile fun block => rbb.IsPut block :=
  Rbb.putRun_of_split hlist hpre (List.forall_mem_cons.2 ⟨hput, hwalk.put⟩) (List.cons_ne_nil _ _)

theorem Walk.stops_putRun (hhead : first :: taken ++ [block] <+: rbb.putRun) (hrises : rbb.Rises (first :: taken ++ [block])) :
    queueDataLen < rbb.total (first :: taken ++ [block]) % 4294967296 := by
  rw [hwalk.putRun hlist hpre hput, List.prefix_append_right_inj] at hhead
  obtain ⟨rest, hrest⟩ := hhead
  cases hpost : post with
  | nil => simp [hpost] at hrest
  | cons a post' =>
    by_cases hputa : rbb.IsPut a
    · rw [hpost, List.takeWhile_cons_of_pos (by simpa using hputa)] at hrest
      obtain ⟨rfl, -⟩ := List.cons.inj hrest
      have := hwalk.stops block post' hpost hputa hrises
      rwa [← Rbb.total_cons] at this
    · rw [hpost, List.takeWhile_cons_of_neg (by simpa using hputa)] at hrest
      cases hrest

theorem Walk.reach_eq (hfits : rbb.total (first :: taken) ≤ queueDataLen) :
    rbb.reach queueDataLen = first :: taken := by
  have hputRun := hwalk.putRun hlist hpre hput
  have hhead : first :: taken <+: rbb.putRun := hputRun ▸ List.prefix_append ..
  obtain ⟨more, hmore⟩ := Rbb.le_reach hhead hwalk.rises hfits
  obtain ⟨hrises, hreach⟩ := rbb.reach_spec queueDataLen
  cases more with
  | nil => rw [← hmore, List.append_nil]
  | cons block more =>
    have hnext : first :: taken ++ [block] <+: rbb.reach queueDataLen := ⟨more, by rw [← hmore]; simp⟩
    have hstops := hwalk.stops_putRun hlist hpre hput (hnext.trans (rbb.reach_head queueDataLen)) (hrises.left hnext)
    have hle : rbb.total (first :: taken ++ [block]) ≤ rbb.total (rbb.reach queueDataLen) := Rbb.total_le_of_prefix hnext
    omega

theorem Walk.word (hwell : rbb.Well) (hfits : rbb.total (first :: taken) ≤ queueDataLen)
    (hhead : first :: taken ++ [block] <+: rbb.putRun) (hrises : rbb.Rises (first :: taken ++ [block])) :
    rbb.total (first :: taken ++ [block]) < 4294967296 := by
  have hstops := hwalk.stops_putRun hlist hpre hput hhead hrises
  have hsize := hwell.size block
  rw [Rbb.total_append, Rbb.total_cons rbb block, Rbb.total_nil] at hstops ⊢
  omega

theorem Walk.fits (hqueue : QueueFits rbb queueDataLen) :
    rbb.total (first :: taken) ≤ queueDataLen := by
  have hputRun := hwalk.putRun hlist hpre hput
  have hhead : first :: taken <+: rbb.putRun := hputRun ▸ List.prefix_append ..
  obtain ⟨-, hreach⟩ := rbb.reach_spec queueDataLen
  rcases List.prefix_or_prefix_of_prefix hhead (rbb.reach_head queueDataLen) with hle | ⟨more, hmore⟩
  · exact Nat.le_trans (Rbb.total_le_of_prefix hle) hreach
  · have hfirst : [first] <+: rbb.reach queueDataLen := by
      refine Rbb.le_reach (.trans ⟨taken, rfl⟩ hhead) (List.IsChain.singleton _) ?_
      have := hqueue.first first (by rw [hputRun]; rfl)
      simpa using this
    cases more with
    | nil => rwa [← hmore, List.append_nil]
    | cons block more =>
      obtain ⟨reached, hreached⟩ := hfirst
      have hnext : rbb.reach queueDataLen ++ [block] <+: first :: taken := ⟨more, by rw [← hmore]; simp⟩
      have hrises : rbb.Rises (rbb.reach queueDataLen ++ [block]) := Rbb.Rises.left hwalk.rises hnext
      have hword := hqueue.word block (hnext.trans hhead) hrises
      have haccepts := hwalk.accepts reached block more (by
        rw [← hreached] at hmore
        exact (List.cons.inj hmore).2.symm)
      rw [Nat.add_comm, ← Nat.add_comm (rbb.blkSet first).size, ← Rbb.total_cons, ← List.cons_append,
        show first :: reached = rbb.reach queueDataLen from hreached, Nat.mod_eq_of_lt hword] at haccepts
      have := (Rbb.le_reach (hnext.trans hhead) hrises haccepts).length_le
      rw [List.length_append] at this
      exact absurd this (by simp)

end queue

/-! ## The slots of a queue -/

theorem perm_range' (hnodup : blocks.Nodup) (hslots : ∀ block ∈ blocks, first ≤ block ∧ block < first + blocks.length) :
    List.Perm blocks (List.range' first blocks.length) := by
  have hsub : blocks ⊆ List.range' first blocks.length := fun block hblock => List.mem_range'_1.2 (hslots block hblock)
  exact (hnodup.subperm hsub).perm_of_length_le (by rw [List.length_range'])

theorem rtRbbBlkQueueLen_eq (rbb : Rbb) (first num : Nat) :
    rtRbbBlkQueueLen rbb first num = rbb.total (List.range' first num) % 4294967296 := by
  induction num with
  | zero => rfl
  | succ num ih =>
    rw [rtRbbBlkQueueLen, List.range_succ, List.foldl_append, ← rtRbbBlkQueueLen, ih, List.range'_concat, Nat.one_mul,
      Rbb.total_append, Rbb.total_cons, Rbb.total_nil]
    exact Nat.mod_add_mod ..

theorem rtRbbBlkQueueFree_eq {num : Nat}
    (hused : ∀ block, first ≤ block → block < first + num → block < rbb.blkMaxNum ∧ (rbb.blkSet block).status ≠ .unused) :
    rtRbbBlkQueueFree rbb first num = some (rbb.takeOff .unused (List.range' first num)) := by
  induction num with
  | zero => rfl
  | succ num ih =>
    obtain ⟨hmax, hstatus⟩ := hused (first + num) (by omega) (by omega)
    have hkept : (rbb.takeOff .unused (List.range' first num)).blkSet (first + num) = rbb.blkSet (first + num) := by
      rw [Rbb.takeOff_blkSet, if_neg fun hmem => by have := List.mem_range'_1.1 hmem; omega]
    have ih := ih fun block hfirst hlast => hused block hfirst (by omega)
    rw [rtRbbBlkQueueFree] at ih ⊢
    rw [List.range_succ, List.foldlM_append, ih, List.range'_concat, Nat.one_mul, Option.bind_eq_bind, Option.bind_some,
      List.foldlM_cons, if_pos (by simpa using hmax), rtRbbBlkFree, if_neg (by rwa [hkept]), Rbb.takeOff, Rbb.takeOff,
      List.foldl_append]
    rfl

/-! ## When a queue covers what it is to cover -/

section slots

variable (hwell : rbb.Well) (hqueue : queue.Sublist rbb.blkList)

include hwell hqueue

theorem Rbb.Well.queue_len (hslots : ∀ block ∈ queue, first ≤ block ∧ block < first + queue.length)
    (hword : rbb.total queue < 4294967296) :
    rtRbbBlkQueueLen (rbb.takeOff .get queue) first queue.length = rbb.total queue := by
  have hperm := perm_range' (hqueue.nodup hwell.nodup) hslots
  have hsize : ∀ block, ((rbb.takeOff .get queue).blkSet block).size = (rbb.blkSet block).size := fun block => by
    rw [takeOff_blkSet]
    split_ifs <;> rfl
  have htotal : (rbb.takeOff .get queue).total (List.range' first queue.length) = rbb.total queue := by
    rw [total, total, ← (hperm.map fun block => ((rbb.takeOff .get queue).blkSet block).size).sum_nat]
    simp only [hsize]
  rw [rtRbbBlkQueueLen_eq, htotal, Nat.mod_eq_of_lt hword]

theorem Rbb.Well.queue_free (hslots : ∀ block ∈ queue, first ≤ block ∧ block < first + queue.length) :
    ∃ rbb'', rtRbbBlkQueueFree (rbb.takeOff .get queue) first queue.length = some rbb'' ∧
      rbb''.blkList = (rbb.takeOff .get queue).blkList ∧ ∀ block, rbb''.blkSet block =
        if block ∈ queue then { (rbb.takeOff .get queue).blkSet block with status := .unused }
        else (rbb.takeOff .get queue).blkSet block := by
  have hperm := perm_range' (hqueue.nodup hwell.nodup) hslots
  have hmem : ∀ block, block ∈ List.range' first queue.length ↔ block ∈ queue := fun block => hperm.mem_iff.symm
  have hlist := takeOff_blkList .get queue hwell.nodup
  refine ⟨_, rtRbbBlkQueueFree_eq fun block hfirst hlast => ?_, ?_, fun block => ?_⟩
  · have hblock : block ∈ queue := (hmem block).1 (List.mem_range'_1.2 ⟨hfirst, hlast⟩)
    rw [takeOff_blkMaxNum, takeOff_blkSet, if_pos hblock]
    exact ⟨(hwell.used block (hqueue.subset hblock)).1, nofun⟩
  · rw [takeOff_blkList _ _ (hlist ▸ hwell.nodup.filter _), hlist, List.filter_filter]
    refine List.filter_congr fun block _ => ?_
    rw [Bool.eq_iff_iff]
    simp [hmem block]
  · rw [takeOff_blkSet, if_congr (hmem block) rfl rfl]

omit hqueue in
theorem Rbb.Well.queue_slots {rbb'' : Rbb}
    (hfree : rtRbbBlkQueueFree (rbb.takeOff .get queue) first queue.length = some rbb'')
    (hset : ∀ block ∈ queue, (rbb''.blkSet block).status = .unused) :
    ∀ block ∈ queue, first ≤ block ∧ block < first + queue.length := by
  intro block hblock
  have hlist := takeOff_blkList .get queue hwell.nodup
  have hedits := edits_queueFree (hlist ▸ hwell.nodup.filter _) hfree
  have hused : ((rbb.takeOff .get queue).blkSet block).status ≠ .unused := by
    rw [takeOff_blkSet, if_pos hblock]
    exact nofun
  by_contra hout
  exact ((hedits.used block).2 ⟨hused, fun hmem => hout (List.mem_range'_1.1 hmem)⟩) (hset block hblock)

end slots

theorem queueCovers_iff (hwell : rbb.Well) (hlen : queueDataLen < 4294967296) :
    QueueCovers rbb queueDataLen (rtRbbBlkQueueGet rbb queueDataLen).1 (rtRbbBlkQueueGet rbb queueDataLen).2.1
      (rtRbbBlkQueueGet rbb queueDataLen).2.2 ↔ QueueFits rbb queueDataLen := by
  rcases hwell.queueGet queueDataLen with ⟨hnone, hget⟩ | ⟨pre, first, taken, post, hlist, hpre, hput, hwalk, hget⟩
  · have hputRun : rbb.putRun = [] := by
      rw [Rbb.putRun, List.dropWhile_eq_nil_iff.2 fun block hblock => decide_eq_true (hnone block hblock), List.takeWhile_nil]
    have hreach : rbb.reach queueDataLen = [] := List.prefix_nil.1 (hputRun ▸ rbb.reach_head queueDataLen)
    rw [hget]
    refine ⟨fun _ => ⟨by simp [hputRun], ?_, by simp [hputRun], fun block hhead => ?_⟩, fun _ => ?_⟩
    · rw [hreach]
      exact List.IsChain.nil
    · rw [hputRun] at hhead
      exact absurd (List.prefix_nil.1 hhead) (by simp)
    · exact ⟨List.nil_infix, by simp, List.IsChain.nil, rfl, Nat.zero_le _, by simp, by simp⟩
  · have hputRun := hwalk.putRun hlist hpre hput
    have hhead : rbb.putRun.head? = some first := by
      rw [hputRun]
      rfl
    have hrun' : first :: taken <:+: rbb.blkList := ⟨pre, post, by rw [hlist, List.append_assoc]⟩
    rw [hget]
    refine ⟨fun hcovers => ?_, fun hfits => ?_⟩
    · have hreach := hwalk.reach_eq hlist hpre hput hcovers.fits
      obtain ⟨rbb'', hfree, -, hset⟩ := hcovers.free first rfl
      refine ⟨fun a ha => ?_, hreach ▸ hcovers.contiguous, fun a ha => ?_, fun block => ?_⟩
      · obtain rfl := Option.some.inj (hhead.symm.trans ha)
        exact Nat.le_trans (Nat.le_add_right _ _) (Rbb.total_cons rbb first taken ▸ hcovers.fits)
      · obtain rfl := Option.some.inj (hhead.symm.trans ha)
        rw [hreach]
        exact hwell.queue_slots hfree fun block hblock => by rw [hset, if_pos hblock]
      · rw [hreach]
        exact hwalk.word hlist hpre hput hwell hcovers.fits
    · have htotal := hwalk.fits hlist hpre hput hfits
      have hreach := hwalk.reach_eq hlist hpre hput htotal
      have hword : rbb.total (first :: taken) < 4294967296 := Nat.lt_of_le_of_lt htotal hlen
      have hslots := hfits.slots first hhead
      rw [hreach] at hslots
      refine ⟨hrun', List.forall_mem_cons.2 ⟨hput, hwalk.put⟩, hreach ▸ hfits.contiguous, Nat.mod_eq_of_lt hword, htotal,
        fun a ha => ?_, fun a ha => ?_⟩
      · obtain rfl := Option.some.inj ha
        exact hwell.queue_len hrun'.sublist hslots hword
      · obtain rfl := Option.some.inj ha
        exact hwell.queue_free hrun'.sublist hslots

/-! ## Every run -/

theorem Rbb.Well.edit (h : rbb.Well) (hedits : Edits rbb rbb' taken freed) (hfreed : freed ⊆ taken) : rbb'.Well := by
  have hsize : ∀ block, (rbb'.blkSet block).size = (rbb.blkSet block).size := fun block => by
    have hstart : (rbb'.blkSet block).buf = (rbb.blkSet block).buf := congrFun hedits.start block
    have hstop : (rbb'.blkSet block).buf + (rbb'.blkSet block).size = (rbb.blkSet block).buf + (rbb.blkSet block).size :=
      congrFun hedits.stop block
    omega
  refine ⟨hedits.nodup h.nodup, fun block hblock => ?_, fun block => by rw [hsize]; exact h.size block⟩
  rw [hedits.list, List.mem_filter, decide_eq_true_iff] at hblock
  rw [hedits.used, hedits.blkMaxNum]
  obtain ⟨hmax, hused⟩ := h.used block hblock.1
  exact ⟨hmax, hused, fun hmem => hblock.2 (hfreed hmem)⟩

theorem rtRbbBlkAlloc_cases {r : Option Nat × Rbb} (hr : rtRbbBlkAlloc rbb size = some r) :
    r = (none, rbb) ∨ ∃ new buf, findEmptyBlkInSet rbb = some new ∧ size < 16777216 ∧ r = (some new, rbb.append new buf size) := by
  unfold rtRbbBlkAlloc at hr
  by_cases hbig : 16777216 ≤ size
  · rw [if_pos hbig] at hr
    cases hr
  rw [if_neg hbig] at hr
  split at hr
  · cases hr
    exact .inl rfl
  rename_i new hnew
  split_ifs at hr
  swap
  · cases hr
    exact .inl rfl
  split at hr
  · simp only at hr
    split_ifs at hr <;> cases hr
    all_goals first | exact .inl rfl | exact .inr ⟨new, _, hnew, Nat.lt_of_not_le hbig, rfl⟩
  · cases hr
    exact .inr ⟨new, 0, hnew, Nat.lt_of_not_le hbig, rfl⟩

theorem Rbb.Well.alloc {r : Option Nat × Rbb} (h : rbb.Well) (hr : rtRbbBlkAlloc rbb size = some r) : r.2.Well := by
  rcases rtRbbBlkAlloc_cases hr with rfl | ⟨new, buf, hnew, hsize, rfl⟩
  · exact h
  · have hunused : (rbb.blkSet new).status = .unused := by simpa using List.find?_some hnew
    have hout : new ∉ rbb.blkList := fun hmem => (h.used new hmem).2 hunused
    have hold : ∀ block, block ≠ new → (rbb.append new buf size).blkSet block = rbb.blkSet block := fun block hne =>
      Function.update_of_ne hne ..
    have hself : (rbb.append new buf size).blkSet new = ⟨.inited, size, buf⟩ := Function.update_self ..
    refine ⟨?_, fun block hblock => ?_, fun block => ?_⟩
    · refine List.nodup_append.2 ⟨h.nodup, List.pairwise_singleton _ new, fun a ha b hb => ?_⟩
      rw [List.mem_singleton.1 hb]
      exact fun heq => hout (heq ▸ ha)
    · rcases List.mem_append.1 hblock with hblock | hblock
      · rw [hold block fun heq => hout (heq ▸ hblock)]
        exact h.used block hblock
      · rw [List.mem_singleton.1 hblock, hself]
        exact ⟨List.mem_range.1 (List.mem_of_find?_eq_some hnew), nofun⟩
    · by_cases heq : block = new
      · rw [heq, hself]
        exact hsize
      · rw [hold block heq]
        exact h.size block

theorem Rbb.Well.step (h : s.rbb.Well) (hstep : stepRbb s op = some (s', events)) : s'.rbb.Well := by
  cases op with
  | alloc blkSize =>
    obtain ⟨r, hr, heq⟩ := Option.map_eq_some_iff.1 hstep
    cases heq
    exact h.alloc hr
  | put block =>
    rw [stepRbb] at hstep
    split_ifs at hstep
    obtain ⟨rbb', hput, heq⟩ := Option.map_eq_some_iff.1 hstep
    cases heq
    exact h.edit (edits_put hput) (List.Subset.refl _)
  | get =>
    cases hstep
    exact h.edit (edits_get s.rbb) (List.Subset.refl _)
  | free block =>
    rw [stepRbb] at hstep
    split_ifs at hstep
    obtain ⟨rbb', hfree, heq⟩ := Option.map_eq_some_iff.1 hstep
    cases heq
    exact h.edit (edits_free h.nodup hfree) (List.Subset.refl _)
  | queueGet queueDataLen =>
    cases hstep
    exact h.edit (edits_queueGetLoop queueDataLen s.rbb.blkList none 0 h.nodup).2 (List.nil_subset _)
  | queueFree queue =>
    rw [stepRbb] at hstep
    split_ifs at hstep
    obtain ⟨rbb', hfree, heq⟩ := Option.map_eq_some_iff.1 hstep
    cases heq
    exact h.edit (edits_queueFree h.nodup hfree) (List.Subset.refl _)

theorem well_of_run (hrun : RbbRun (fun _ _ => True) bufSize blkMaxNum trace s) : s.rbb.Well := by
  have hinit : (RbbState.init bufSize blkMaxNum).rbb.Well :=
    ⟨List.nodup_nil, fun block hblock => (List.not_mem_nil hblock).elim, fun _ => Nat.zero_lt_succ _⟩
  exact hrun.state_invariant (I := fun s : RbbState => s.rbb.Well) hinit fun _ _ _ _ hwell _ hstep => hwell.step hstep

/-- In every state that calls reach, and for every length asked for. -/
theorem queueCovers_of_run (hrun : RbbRun (fun _ _ => True) bufSize blkMaxNum trace s) (hlen : queueDataLen < 4294967296) :
    QueueCovers s.rbb queueDataLen (rtRbbBlkQueueGet s.rbb queueDataLen).1 (rtRbbBlkQueueGet s.rbb queueDataLen).2.1
      (rtRbbBlkQueueGet s.rbb queueDataLen).2.2 ↔ QueueFits s.rbb queueDataLen :=
  queueCovers_iff (well_of_run hrun) hlen

theorem queueCovers_of_run_two :
    ∃ trace s, RbbRun (fun _ _ => True) 10 4 trace s ∧ (rtRbbBlkQueueGet s.rbb 8).1 = [1, 2] ∧
      (QueueCovers s.rbb 8 (rtRbbBlkQueueGet s.rbb 8).1 (rtRbbBlkQueueGet s.rbb 8).2.1 (rtRbbBlkQueueGet s.rbb 8).2.2 ↔
        QueueFits s.rbb 8) := by
  obtain ⟨trace, s, hrun, hfound⟩ := exists_rbbRun (fun _ _ => True) 10 4
    [.alloc 2, .alloc 3, .alloc 4, .put 1, .put 2] (fun _ s => decide ((rtRbbBlkQueueGet s.rbb 8).1 = [1, 2])) (by decide +kernel)
  exact ⟨trace, s, hrun, of_decide_eq_true hfound, queueCovers_of_run hrun (by decide)⟩

/-- A first block of 4 bytes is handed out where 2 are asked for. Of three blocks of 2 bytes the middle one is freed: the two that are left are handed out as one queue, with a gap. Two blocks that have the slots 1 and 0 are freed as the slots 1 and 2. -/
theorem queueCovers_fails :
    (∃ trace s, RbbRun (fun _ _ => True) 10 4 trace s ∧ (rtRbbBlkQueueGet s.rbb 2).2.1 = 4 ∧
      ¬ QueueCovers s.rbb 2 (rtRbbBlkQueueGet s.rbb 2).1 (rtRbbBlkQueueGet s.rbb 2).2.1 (rtRbbBlkQueueGet s.rbb 2).2.2) ∧
    (∃ trace s, RbbRun (fun _ _ => True) 10 4 trace s ∧ (rtRbbBlkQueueGet s.rbb 9).1 = [0, 2] ∧
      ¬ QueueCovers s.rbb 9 (rtRbbBlkQueueGet s.rbb 9).1 (rtRbbBlkQueueGet s.rbb 9).2.1 (rtRbbBlkQueueGet s.rbb 9).2.2) ∧
    ∃ trace s, RbbRun (fun _ _ => True) 10 4 trace s ∧ (rtRbbBlkQueueGet s.rbb 9).1 = [1, 0] ∧
      ¬ QueueCovers s.rbb 9 (rtRbbBlkQueueGet s.rbb 9).1 (rtRbbBlkQueueGet s.rbb 9).2.1 (rtRbbBlkQueueGet s.rbb 9).2.2 := by
  refine ⟨?_, ?_, ?_⟩
  · obtain ⟨trace, s, hrun, hfound⟩ := exists_rbbRun (fun _ _ => True) 10 4 [.alloc 4, .put 0]
      (fun _ s => decide ((rtRbbBlkQueueGet s.rbb 2).2.1 = 4)) (by decide +kernel)
    have hsize := of_decide_eq_true hfound
    refine ⟨trace, s, hrun, hsize, fun hcovers => ?_⟩
    have hfits := hcovers.fits
    rw [← hcovers.size, hsize] at hfits
    exact absurd hfits (by decide)
  · obtain ⟨trace, s, hrun, hfound⟩ := exists_rbbRun (fun _ _ => True) 10 4
      [.alloc 2, .alloc 2, .alloc 2, .put 0, .put 2, .free 1]
      (fun _ s => decide ((rtRbbBlkQueueGet s.rbb 9).1 = [0, 2] ∧ s.rbb.stop 0 ≠ s.rbb.start 2)) (by decide +kernel)
    obtain ⟨hqueue, hgap⟩ := of_decide_eq_true hfound
    refine ⟨trace, s, hrun, hqueue, fun hcovers => ?_⟩
    have hcontiguous := hcovers.contiguous
    rw [hqueue] at hcontiguous
    exact hgap (List.isChain_cons_cons.1 hcontiguous).1
  · obtain ⟨trace, s, hrun, hfound⟩ := exists_rbbRun (fun _ _ => True) 10 4
      [.alloc 2, .alloc 2, .free 0, .alloc 2, .put 1, .put 0]
      (fun _ s => decide ((rtRbbBlkQueueGet s.rbb 9).1 = [1, 0] ∧
        (rtRbbBlkQueueFree (rtRbbBlkQueueGet s.rbb 9).2.2 1 2).isNone)) (by decide +kernel)
    obtain ⟨hqueue, hnone⟩ := of_decide_eq_true hfound
    refine ⟨trace, s, hrun, hqueue, fun hcovers => ?_⟩
    have hfree := hcovers.free
    rw [hqueue] at hfree
    obtain ⟨rbb'', hsome, -⟩ := hfree 1 rfl
    rw [List.length_cons, List.length_singleton] at hsome
    rw [hsome] at hnone
    cases hnone

end RtThread
