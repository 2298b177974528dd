import RtThread.Drivers.BlockBuffer

/-!
# Where the blocks of a ring block buffer lie

From the oldest to the newest, the blocks in use go round the buffer. An allocation sees that from the first and the last block of the list. It is misled in three ways: the first block of all is not compared with the size of the buffer; the blocks of a queue are in use but not in the list; and an empty block at the very start of the oldest looks as if the blocks had not wrapped. Moreover a queue is freed as a run of the block set, which its blocks need not be.
-/

namespace RtThread

open Rounds

variable {rbb rbb' : Rbb} {s s' : RbbState} {op : RbbOp} {trace events : List RbbEvent} {block new buf size : Nat}
  {queue : List Nat} {bufSize blkMaxNum : Nat}

def Rbb.start (rbb : Rbb) (block : Nat) : Nat := (rbb.blkSet block).buf

def Rbb.stop (rbb : Rbb) (block : Nat) : Nat := (rbb.blkSet block).buf + (rbb.blkSet block).size

theorem Rbb.start_le_stop (rbb : Rbb) (block : Nat) : rbb.start block ≤ rbb.stop block := Nat.le_add_right ..

def Rbb.Overlap (rbb : Rbb) (a b : Nat) : Prop := max (rbb.start a) (rbb.start b) < min (rbb.stop a) (rbb.stop b)

structure BlocksApart (s : RbbState) : Prop where
  inside : ∀ block ∈ s.live, s.rbb.stop block ≤ s.rbb.bufSize
  apart : s.live.Pairwise fun a b => ¬ s.rbb.Overlap a b

/-- An allocation is not misled: the first block of all fits, the oldest and the newest block in use are the first and the last of the list, and if they start at the same byte then the blocks have not wrapped. -/
structure AllocatesWell (s : RbbState) (blkSize : Nat) : Prop where
  empty : s.live = [] → blkSize ≤ s.rbb.bufSize
  first : s.rbb.blkList.head? = s.live.head?
  last : s.rbb.blkList.getLast? = s.live.getLast?
  wrapped : s.live.head?.map s.rbb.start = s.live.getLast?.map s.rbb.start → Ascends s.rbb.start s.rbb.stop s.live

def UsesWell (s : RbbState) : RbbOp → Prop
  | .alloc blkSize => (findEmptyBlkInSet s.rbb).isSome → AllocatesWell s blkSize
  | .queueFree queue => queue = List.range' (queue.headD 0) queue.length
  | _ => True

instance AllocatesWell.decidable (s : RbbState) (blkSize : Nat) : Decidable (AllocatesWell s blkSize) :=
  have : Decidable (Ascends s.rbb.start s.rbb.stop s.live) := inferInstanceAs (Decidable (List.Pairwise _ _))
  decidable_of_iff ((s.live = [] → blkSize ≤ s.rbb.bufSize) ∧ s.rbb.blkList.head? = s.live.head? ∧
    s.rbb.blkList.getLast? = s.live.getLast? ∧
    (s.live.head?.map s.rbb.start = s.live.getLast?.map s.rbb.start → Ascends s.rbb.start s.rbb.stop s.live))
    ⟨fun h => ⟨h.1, h.2.1, h.2.2.1, h.2.2.2⟩, fun h => ⟨h.empty, h.first, h.last, h.wrapped⟩⟩

instance UsesWell.decidable (s : RbbState) (op : RbbOp) : Decidable (UsesWell s op) := by
  unfold UsesWell
  split <;> infer_instance

instance Rbb.decidableOverlap (rbb : Rbb) (a b : Nat) : Decidable (rbb.Overlap a b) := inferInstanceAs (Decidable (_ < _))

instance BlocksApart.decidable (s : RbbState) : Decidable (BlocksApart s) :=
  decidable_of_iff ((∀ block ∈ s.live, s.rbb.stop block ≤ s.rbb.bufSize) ∧ s.live.Pairwise fun a b => ¬ s.rbb.Overlap a b)
    ⟨fun h => ⟨h.1, h.2⟩, fun h => ⟨h.inside, h.apart⟩⟩

structure RbbInv (s : RbbState) : Prop where
  word : s.rbb.bufSize < 4294967296
  nodup : s.live.Nodup
  live : ∀ block, block ∈ s.live ↔ block < s.rbb.blkMaxNum ∧ (s.rbb.blkSet block).status ≠ .unused
  list : s.rbb.blkList = s.live.filter (· ∉ s.queues.flatten)
  queues_nodup : s.queues.flatten.Nodup
  queues : ∀ block ∈ s.queues.flatten, block ∈ s.live
  round : GoesRound s.rbb.start s.rbb.stop s.live
  inside : ∀ block ∈ s.live, s.rbb.stop block ≤ s.rbb.bufSize

theorem RbbInv.blocksApart (h : RbbInv s) : BlocksApart s := by
  refine ⟨h.inside, h.round.apart.imp fun {a b} hab hoverlap => ?_⟩
  unfold Rbb.Overlap at hoverlap
  omega

/-! ## Allocating -/

theorem wordSub_of_le {a b : Nat} (ha : a < 4294967296) (hb : b ≤ a) : wordSub a b = a - b := by
  unfold wordSub
  omega

theorem RbbInv.findEmpty (h : RbbInv s) (hnew : findEmptyBlkInSet s.rbb = some new) :
    new < s.rbb.blkMaxNum ∧ new ∉ s.live := by
  have hmem := List.mem_of_find?_eq_some hnew
  have hunused := List.find?_some hnew
  refine ⟨List.mem_range.1 hmem, fun hlive => ((h.live new).1 hlive).2 ?_⟩
  simpa using hunused

theorem Rbb.append_of_ne (hne : block ≠ new) : (rbb.append new buf size).start block = rbb.start block ∧
    (rbb.append new buf size).stop block = rbb.stop block := by
  have hsame : (rbb.append new buf size).blkSet block = rbb.blkSet block := Function.update_of_ne hne ..
  rw [Rbb.start, Rbb.stop, hsame]
  exact ⟨rfl, rfl⟩

theorem Rbb.append_new (rbb : Rbb) (new buf size : Nat) : (rbb.append new buf size).start new = buf ∧ (rbb.append new buf size).stop new = buf + size := by
  have hnew : (rbb.append new buf size).blkSet new = ⟨.inited, size, buf⟩ := Function.update_self ..
  rw [Rbb.start, Rbb.stop, hnew]
  exact ⟨rfl, rfl⟩

/-- A block is placed: in an empty buffer, behind the newest, at the start in front of the oldest, or between the newest and the oldest. -/
inductive Placed (s : RbbState) (buf size : Nat) : Prop
  | only (hlive : s.live = []) (hbuf : buf = 0) (hsize : size ≤ s.rbb.bufSize)
  | behind {last : Nat} (hasc : Ascends s.rbb.start s.rbb.stop s.live) (hlast : s.live.getLast? = some last)
      (hbuf : buf = s.rbb.stop last) (hsize : buf + size ≤ s.rbb.bufSize)
  | front {first : Nat} (hasc : Ascends s.rbb.start s.rbb.stop s.live) (hfirst : s.live.head? = some first)
      (hbuf : buf = 0) (hsize : size ≤ s.rbb.start first)
  | between {first last : Nat} (hfirst : s.live.head? = some first) (hlast : s.live.getLast? = some last)
      (hwrapped : s.rbb.start last < s.rbb.start first) (hbuf : buf = s.rbb.stop last)
      (hsize : buf + size ≤ s.rbb.start first)

theorem RbbInv.alloc {r : Option Nat × Rbb} (h : RbbInv s)
    (hwell : (findEmptyBlkInSet s.rbb).isSome → AllocatesWell s size) (hs : rtRbbBlkAlloc s.rbb size = some r) :
    r = (none, s.rbb) ∨ ∃ new buf, findEmptyBlkInSet s.rbb = some new ∧ r = (some new, s.rbb.append new buf size) ∧
      Placed s buf size := by
  unfold rtRbbBlkAlloc at hs
  by_cases hbig : 16777216 ≤ size
  · rw [if_pos hbig] at hs
    cases hs
  rw [if_neg hbig] at hs
  split at hs
  · cases hs
    exact .inl rfl
  rename_i new hnew
  have hwell := hwell (by rw [hnew]; rfl)
  by_cases hnum : s.rbb.blkList.length < s.rbb.blkMaxNum
  swap
  · rw [if_neg hnum] at hs
    cases hs
    exact .inl rfl
  rw [if_pos hnum, hwell.first, hwell.last] at hs
  cases hlast : s.live.getLast? with
  | none =>
    have hlive : s.live = [] := List.getLast?_eq_none_iff.1 hlast
    rw [hlive] at hs
    cases hs
    exact .inr ⟨new, 0, hnew, rfl, .only hlive rfl (hwell.empty hlive)⟩
  | some last =>
    have hlastmem : last ∈ s.live := List.mem_of_getLast? hlast
    obtain ⟨first, hfirst⟩ : ∃ first, s.live.head? = some first := by
      cases hlist : s.live with
      | nil => simp [hlist] at hlast
      | cons a l => exact ⟨a, rfl⟩
    have hfirstmem : first ∈ s.live := List.mem_of_head? hfirst
    rw [hlast, hfirst] at hs
    have hfirst_le := Nat.le_trans (s.rbb.start_le_stop first) (h.inside first hfirstmem)
    have hlast_le := h.inside last hlastmem
    have hword := h.word
    have hround := h.round.ascends_or hfirst hlast
    by_cases horder : s.rbb.start first ≤ s.rbb.start last
    · have hasc : Ascends s.rbb.start s.rbb.stop s.live := by
        rcases hround with hasc | hbelow
        · exact hasc
        · refine hwell.wrapped ?_
          have := s.rbb.start_le_stop last
          rw [hfirst, hlast, Option.map_some, Option.map_some, Nat.le_antisymm horder (Nat.le_trans this hbelow)]
      simp only at hs
      rw [if_pos (show (s.rbb.blkSet first).buf ≤ (s.rbb.blkSet last).buf from horder)] at hs
      rw [show (s.rbb.blkSet last).buf + (s.rbb.blkSet last).size = s.rbb.stop last from rfl,
        wordSub_of_le hword hlast_le] at hs
      split_ifs at hs with hempty1 hempty2
      · cases hs
        exact .inr ⟨new, _, hnew, rfl, .behind hasc hlast rfl (by omega)⟩
      · cases hs
        exact .inr ⟨new, 0, hnew, rfl, .front hasc hfirst rfl hempty2⟩
      · cases hs
        exact .inl rfl
    · have hbelow : s.rbb.stop last ≤ s.rbb.start first := by
        rcases hround with hasc | hbelow
        · exact absurd (hasc.head_le s.rbb.start_le_stop hfirst hlastmem) horder
        · exact hbelow
      simp only at hs
      rw [if_neg (show ¬ (s.rbb.blkSet first).buf ≤ (s.rbb.blkSet last).buf from horder)] at hs
      rw [show (s.rbb.blkSet last).buf + (s.rbb.blkSet last).size = s.rbb.stop last from rfl,
        show (s.rbb.blkSet first).buf = s.rbb.start first from rfl, wordSub_of_le (by omega) hbelow] at hs
      split_ifs at hs with hempty1
      · cases hs
        exact .inr ⟨new, _, hnew, rfl, .between hfirst hlast (Nat.lt_of_not_le horder) rfl (by omega)⟩
      · cases hs
        exact .inl rfl

theorem RbbInv.append (h : RbbInv s) (hmax : new < s.rbb.blkMaxNum) (hnew : new ∉ s.live) (hplaced : Placed s buf size) :
    RbbInv { s with rbb := s.rbb.append new buf size, live := s.live ++ [new] } := by
  have hne : ∀ block ∈ s.live, block ≠ new := fun block hblock heq => hnew (heq ▸ hblock)
  have hstart : ∀ block ∈ s.live, (s.rbb.append new buf size).start block = s.rbb.start block := fun block hblock =>
    (Rbb.append_of_ne (hne block hblock)).1
  have hstop : ∀ block ∈ s.live, (s.rbb.append new buf size).stop block = s.rbb.stop block := fun block hblock =>
    (Rbb.append_of_ne (hne block hblock)).2
  have hle := (s.rbb.append new buf size).start_le_stop
  obtain ⟨hbuf, hend⟩ := s.rbb.append_new new buf size
  have hfirst_mem : ∀ {first}, s.live.head? = some first → first ∈ s.live := List.mem_of_head?
  have hlast_mem : ∀ {last}, s.live.getLast? = some last → last ∈ s.live := List.mem_of_getLast?
  have hinside : buf + size ≤ s.rbb.bufSize := by
    cases hplaced with
    | only _ hzero hsize => omega
    | behind _ _ _ hsize => exact hsize
    | front _ hfirst hzero hsize =>
      have := h.inside _ (hfirst_mem hfirst)
      have := s.rbb.start_le_stop
      grind
    | between hfirst _ _ _ hsize =>
      have := h.inside _ (hfirst_mem hfirst)
      have := s.rbb.start_le_stop
      grind
  refine ⟨h.word, ?_, fun block => ?_, ?_, h.queues_nodup, fun block hblock => ?_, ?_, fun block hblock => ?_⟩
  · exact List.nodup_append.2 ⟨h.nodup, List.pairwise_singleton _ new, fun a ha b hb => by
      rw [List.mem_singleton.1 hb]
      exact hne a ha⟩
  · by_cases heq : block = new
    · rw [heq]
      simp [Rbb.append, hmax]
    · simp [Rbb.append, heq, h.live]
  · have hqueues : new ∉ s.queues.flatten := fun hmem => hnew (h.queues new hmem)
    rw [List.filter_append, ← h.list, List.filter_cons_of_pos (by simpa using hqueues), List.filter_nil]
    rfl
  · exact List.mem_append_left _ (h.queues block hblock)
  · cases hplaced with
    | only hlive =>
      rw [hlive]
      exact Ascends.goesRound (List.pairwise_singleton _ new)
    | behind hasc hlast hstarts =>
      refine ((hasc.congr hstart hstop).push hle hlast ?_).goesRound
      exact Nat.le_of_eq (by rw [hbuf, hstop _ (hlast_mem hlast), hstarts])
    | front hasc hfirst hzero hsize =>
      refine (hasc.congr hstart hstop).wrap hle hfirst ?_
      rw [hend, hstart _ (hfirst_mem hfirst), hzero, Nat.zero_add]
      exact hsize
    | between hfirst hlast hwrapped hstarts hsize =>
      refine (h.round.congr hstart hstop).push hle hfirst hlast ?_ ?_ ?_
      · rwa [hstart _ (hlast_mem hlast), hstart _ (hfirst_mem hfirst)]
      · exact Nat.le_of_eq (by rw [hbuf, hstop _ (hlast_mem hlast), hstarts])
      · rwa [hend, hstart _ (hfirst_mem hfirst)]
  · rcases List.mem_append.1 hblock with hblock | hblock
    · rw [hstop block hblock]
      exact h.inside block hblock
    · rw [List.mem_singleton.1 hblock, hend]
      exact hinside

/-! ## Every other call -/

structure Edits (rbb rbb' : Rbb) (taken freed : List Nat) : Prop where
  bufSize : rbb'.bufSize = rbb.bufSize
  blkMaxNum : rbb'.blkMaxNum = rbb.blkMaxNum
  start : rbb'.start = rbb.start
  stop : rbb'.stop = rbb.stop
  used : ∀ block, (rbb'.blkSet block).status ≠ .unused ↔ (rbb.blkSet block).status ≠ .unused ∧ block ∉ freed
  list : rbb'.blkList = rbb.blkList.filter (· ∉ taken)

namespace Edits

variable {rbb₁ rbb₂ rbb₃ : Rbb} {taken taken' freed freed' : List Nat} {status : RbbStatus}

theorem refl (rbb : Rbb) : Edits rbb rbb [] [] := by
  refine ⟨rfl, rfl, rfl, rfl, fun block => ?_, ?_⟩ <;> simp

theorem trans (h : Edits rbb₁ rbb₂ taken freed) (h' : Edits rbb₂ rbb₃ taken' freed') :
    Edits rbb₁ rbb₃ (taken ++ taken') (freed ++ freed') := by
  refine ⟨h'.bufSize.trans h.bufSize, h'.blkMaxNum.trans h.blkMaxNum, h'.start.trans h.start, h'.stop.trans h.stop,
    fun block => ?_, ?_⟩
  · rw [h'.used, h.used, List.mem_append, not_or, and_assoc]
  · rw [h'.list, h.list, List.filter_filter]
    refine List.filter_congr fun block _ => ?_
    simp [Bool.and_comm]

theorem setStatus (hused : (rbb.blkSet block).status ≠ .unused) (hstatus : status ≠ .unused) :
    Edits rbb (rbb.setStatus block status) [] [] := by
  refine ⟨rfl, rfl, funext fun a => ?_, funext fun a => ?_, fun a => ?_, ?_⟩
  · by_cases heq : a = block <;> simp [Rbb.setStatus, Rbb.start, heq]
  · by_cases heq : a = block <;> simp [Rbb.setStatus, Rbb.stop, heq]
  · by_cases heq : a = block <;> simp [Rbb.setStatus, heq, hused, hstatus]
  · simp [Rbb.setStatus]

theorem setUnused : Edits rbb (rbb.setStatus block .unused) [] [block] := by
  refine ⟨rfl, rfl, funext fun a => ?_, funext fun a => ?_, fun a => ?_, ?_⟩
  · by_cases heq : a = block <;> simp [Rbb.setStatus, Rbb.start, heq]
  · by_cases heq : a = block <;> simp [Rbb.setStatus, Rbb.stop, heq]
  · by_cases heq : a = block <;> simp [Rbb.setStatus, heq]
  · simp [Rbb.setStatus]

theorem remove (hnodup : rbb.blkList.Nodup) : Edits rbb (rbb.remove block) [block] [] := by
  refine ⟨rfl, rfl, rfl, rfl, fun a => ?_, ?_⟩
  · simp [Rbb.remove]
  · rw [Rbb.remove, hnodup.erase_eq_filter]
    refine List.filter_congr fun a _ => ?_
    rw [bne, beq_eq_decide]
    simp

theorem nodup (h : Edits rbb rbb' taken freed) (hnodup : rbb.blkList.Nodup) : rbb'.blkList.Nodup :=
  h.list ▸ hnodup.filter _

end Edits

theorem RbbInv.list_nodup (h : RbbInv s) : s.rbb.blkList.Nodup := h.list ▸ h.nodup.filter _

theorem RbbInv.edit {taken freed : List Nat} (h : RbbInv s) (queues : List (List Nat)) (hedits : Edits s.rbb rbb' taken freed)
    (hlist : ∀ block ∈ s.live, (block ∉ freed ∧ block ∉ queues.flatten) ↔ (block ∉ s.queues.flatten ∧ block ∉ taken))
    (hnodup : queues.flatten.Nodup) (hqueues : ∀ block ∈ queues.flatten, block ∈ s.live ∧ block ∉ freed) :
    RbbInv ⟨rbb', s.live.filter (· ∉ freed), queues⟩ := by
  refine ⟨?_, h.nodup.filter _, fun block => ?_, ?_, hnodup, fun block hblock => ?_, ?_, fun block hblock => ?_⟩
  · exact hedits.bufSize ▸ h.word
  · rw [hedits.used, hedits.blkMaxNum, List.mem_filter, h.live, decide_eq_true_iff, and_assoc]
  · rw [hedits.list, h.list, List.filter_filter, List.filter_filter]
    refine List.filter_congr fun block hblock => ?_
    rw [Bool.eq_iff_iff, Bool.and_eq_true, Bool.and_eq_true, decide_eq_true_iff, decide_eq_true_iff, decide_eq_true_iff,
      decide_eq_true_iff, and_comm, ← hlist block hblock, and_comm]
  · exact List.mem_filter.2 ⟨(hqueues block hblock).1, decide_eq_true (hqueues block hblock).2⟩
  · rw [hedits.start, hedits.stop]
    exact h.round.sublist List.filter_sublist
  · rw [hedits.stop, hedits.bufSize]
    exact h.inside block (List.mem_of_mem_filter hblock)

theorem RbbInv.edit_nil (h : RbbInv s) (hedits : Edits s.rbb rbb' [] []) : RbbInv { s with rbb := rbb' } := by
  have hkept := h.edit s.queues hedits (fun block _ => by simp) h.queues_nodup
    fun block hblock => ⟨h.queues block hblock, List.not_mem_nil⟩
  rwa [List.filter_eq_self.2 fun block _ => by simp] at hkept

theorem edits_put (hput : rtRbbBlkPut rbb block = some rbb') : Edits rbb rbb' [] [] := by
  unfold rtRbbBlkPut at hput
  split_ifs at hput with hstatus
  cases hput
  exact .setStatus (by rw [hstatus]; decide) (by decide)

theorem edits_get (rbb : Rbb) : Edits rbb (rtRbbBlkGet rbb).2 [] [] := by
  unfold rtRbbBlkGet
  split
  · exact .refl rbb
  · rename_i block hfound
    have hstatus := List.find?_some hfound
    exact .setStatus (by rw [of_decide_eq_true hstatus]; decide) (by decide)

theorem edits_free (hnodup : rbb.blkList.Nodup) (hfree : rtRbbBlkFree rbb block = some rbb') :
    Edits rbb rbb' [block] [block] := by
  unfold rtRbbBlkFree at hfree
  split_ifs at hfree with hstatus
  cases hfree
  exact (Edits.remove hnodup).trans .setUnused

theorem edits_queueGetLoop (queueDataLen : Nat) (nodes : List Nat) (last : Option Nat) (total : Nat)
    (hnodup : rbb.blkList.Nodup) :
    (queueGetLoop queueDataLen rbb nodes last total).1.Sublist nodes ∧
      Edits rbb (queueGetLoop queueDataLen rbb nodes last total).2.2 (queueGetLoop queueDataLen rbb nodes last total).1 [] := by
  induction nodes generalizing rbb last total with
  | nil => cases last <;> exact ⟨List.Sublist.slnil, .refl rbb⟩
  | cons block nodes ih =>
    have htake (hput : (rbb.blkSet block).status = .put) :
        Edits rbb ((rbb.remove block).setStatus block .get) [block] [] :=
      (Edits.remove hnodup).trans (.setStatus (by rw [show (rbb.remove block).blkSet = rbb.blkSet from rfl, hput]; decide)
        (by decide))
    cases last with
    | none =>
      rw [queueGetLoop]
      split_ifs with hput
      · exact ⟨(ih _ _ hnodup).1.cons block, (ih _ _ hnodup).2⟩
      · have hedits := htake (not_not.1 hput)
        exact ⟨(ih _ _ (hedits.nodup hnodup)).1.cons_cons block, hedits.trans (ih _ _ (hedits.nodup hnodup)).2⟩
    | some last =>
      rw [queueGetLoop]
      split_ifs with hstop
      · exact ⟨List.nil_sublist _, .refl rbb⟩
      · have hedits := htake (not_not.1 (not_or.1 hstop).1)
        exact ⟨(ih _ _ (hedits.nodup hnodup)).1.cons_cons block, hedits.trans (ih _ _ (hedits.nodup hnodup)).2⟩

theorem edits_queueFree {first num : Nat} (hnodup : rbb.blkList.Nodup) (hfree : rtRbbBlkQueueFree rbb first num = some rbb') :
    Edits rbb rbb' (List.range' first num) (List.range' first num) := by
  induction num generalizing rbb' with
  | zero =>
    cases hfree
    exact .refl rbb
  | succ num ih =>
    rw [rtRbbBlkQueueFree, List.range_succ, List.foldlM_append] at hfree
    obtain ⟨rbb₁, hfree, hlast⟩ := Option.bind_eq_some_iff.1 hfree
    have hedits := ih hfree
    rw [List.foldlM_cons] at hlast
    obtain ⟨rbb₂, hlast, heq⟩ := Option.bind_eq_some_iff.1 hlast
    cases heq
    split_ifs at hlast with hmax
    rw [List.range'_concat, Nat.one_mul]
    exact hedits.trans (edits_free (hedits.nodup hnodup) hlast)

/-! ## Runs -/

theorem RbbInv.step (h : RbbInv s) (hwell : UsesWell s op) (hstep : stepRbb s op = some (s', events)) : RbbInv s' := by
  cases op with
  | alloc blkSize =>
    obtain ⟨r, hr, heq⟩ := Option.map_eq_some_iff.1 hstep
    cases heq
    rcases h.alloc hwell hr with rfl | ⟨new, buf, hnew, rfl, hplaced⟩
    · rw [show s.live ++ (none : Option Nat).toList = s.live from List.append_nil _]
      exact h
    · exact h.append (h.findEmpty hnew).1 (h.findEmpty hnew).2 hplaced
  | put block =>
    rw [stepRbb] at hstep
    split_ifs at hstep
    obtain ⟨rbb', hput, heq⟩ := Option.map_eq_some_iff.1 hstep
    cases heq
    exact h.edit_nil (edits_put hput)
  | get =>
    cases hstep
    exact h.edit_nil (edits_get s.rbb)
  | free block =>
    rw [stepRbb] at hstep
    split_ifs at hstep with hholds
    obtain ⟨rbb', hfree, heq⟩ := Option.map_eq_some_iff.1 hstep
    cases heq
    have hkept := h.edit s.queues (edits_free h.list_nodup hfree) (fun a _ => and_comm) h.queues_nodup
      fun a ha => ⟨h.queues a ha, fun hblock => hholds.2 (List.mem_singleton.1 hblock ▸ ha)⟩
    rw [h.nodup.erase_eq_filter, List.filter_congr fun a _ => ?_]
    · exact hkept
    · rw [bne, beq_eq_decide]
      simp
  | queueGet queueDataLen =>
    cases hstep
    obtain ⟨hsub, hedits⟩ := edits_queueGetLoop queueDataLen s.rbb.blkList none 0 h.list_nodup
    rw [← rtRbbBlkQueueGet] at hsub hedits
    generalize rtRbbBlkQueueGet s.rbb queueDataLen = r at hsub hedits
    split_ifs with hnone
    · rw [hnone] at hedits
      exact h.edit_nil hedits
    · have htaken : ∀ block ∈ r.1, block ∈ s.live ∧ block ∉ s.queues.flatten := fun block hblock => by
        have hlist := hsub.subset hblock
        rw [h.list, List.mem_filter] at hlist
        exact ⟨hlist.1, of_decide_eq_true hlist.2⟩
      have hkept := h.edit (r.1 :: s.queues) hedits (fun block _ => ?_) ?_ fun block hblock => ?_
      · rwa [List.filter_eq_self.2 fun block _ => by simp] at hkept
      · rw [List.flatten_cons, List.mem_append, not_or]
        simp [and_comm]
      · refine List.nodup_append.2 ⟨hsub.nodup h.list_nodup, h.queues_nodup, fun a ha b hb hab => ?_⟩
        exact (htaken a ha).2 (hab ▸ hb)
      · rcases List.mem_append.1 (List.flatten_cons ▸ hblock) with hblock | hblock
        · exact ⟨(htaken block hblock).1, List.not_mem_nil⟩
        · exact ⟨h.queues block hblock, List.not_mem_nil⟩
  | queueFree queue =>
    rw [stepRbb] at hstep
    split_ifs at hstep with hqueue
    obtain ⟨rbb', hfree, heq⟩ := Option.map_eq_some_iff.1 hstep
    cases heq
    have hedits := edits_queueFree h.list_nodup hfree
    rw [← hwell] at hedits
    have hperm := (List.perm_cons_erase hqueue).flatten
    rw [List.flatten_cons] at hperm
    have hnodup := (hperm.nodup_iff.1 h.queues_nodup)
    obtain ⟨_, hrest, hdisjoint⟩ := List.nodup_append.1 hnodup
    refine h.edit _ hedits (fun block _ => ?_) hrest fun block hblock => ⟨?_, fun hmem => ?_⟩
    · rw [hperm.mem_iff, List.mem_append, not_or]
      exact ⟨fun h => ⟨h, h.1⟩, fun h => h.1⟩
    · exact h.queues block (hperm.mem_iff.2 (List.mem_append_right _ hblock))
    · exact hdisjoint block hmem block hblock rfl

theorem RbbInv.init (bufSize blkMaxNum : Nat) : RbbInv (.init bufSize blkMaxNum) := by
  refine ⟨Nat.mod_lt _ (by decide), List.nodup_nil, fun block => ?_, rfl, List.nodup_nil, fun block hblock => ?_,
    Ascends.goesRound List.Pairwise.nil, fun block hblock => ?_⟩
  · simp [RbbState.init]
  · cases hblock
  · cases hblock

theorem rbbInv_of_run (hrun : RbbRun UsesWell bufSize blkMaxNum trace s) : RbbInv s :=
  hrun.state_invariant (.init bufSize blkMaxNum) fun _ _ _ _ hinv hwell hstep => hinv.step hwell hstep

/-- Every block that is allocated lies in the buffer, apart from the others that have not been freed. -/
theorem blocksApart_of_run (hrun : RbbRun UsesWell bufSize blkMaxNum trace s) : BlocksApart s :=
  (rbbInv_of_run hrun).blocksApart

theorem blocksApart_of_run_wrapped :
    ∃ trace s, RbbRun UsesWell 10 4 trace s ∧ s.live = [3, 0, 1] ∧ s.queues = [[3]] ∧ BlocksApart s := by
  obtain ⟨trace, s, hrun, hfound⟩ := exists_rbbRun UsesWell 10 4
    [.alloc 4, .put 0, .alloc 3, .put 1, .alloc 1, .put 2, .alloc 2, .put 3, .queueGet 8, .queueFree [0, 1, 2],
      .alloc 7, .put 0, .alloc 1, .put 1, .queueGet 2] (fun _ s => decide (s.live = [3, 0, 1] ∧ s.queues = [[3]])) (by decide +kernel)
  obtain ⟨hlive, hqueues⟩ := of_decide_eq_true hfound
  exact ⟨trace, s, hrun, hlive, hqueues, blocksApart_of_run hrun⟩

/-- The first block is larger than the buffer. The room of the oldest blocks in a queue is given away; a queue of the blocks 1 and 0 is freed as the blocks 1 and 2; an empty oldest block hides that the blocks have wrapped. -/
theorem blocksApart_fails :
    (∃ trace s, RbbRun (fun _ _ => True) 10 4 trace s ∧ s.live = [0] ∧ s.rbb.stop 0 = 11 ∧ ¬ BlocksApart s) ∧
    (∃ trace s, RbbRun (fun _ _ => True) 10 4 trace s ∧ s.live = [0, 1] ∧ s.queues = [[0]] ∧ s.rbb.Overlap 0 1 ∧
      ¬ BlocksApart s) ∧
    (∃ trace s, RbbRun (fun _ _ => True) 10 4 trace s ∧ s.rbb.Overlap 2 1 ∧ ¬ BlocksApart s) ∧
    ∃ trace s, RbbRun (fun _ _ => True) 8 4 trace s ∧ s.queues = [] ∧ s.rbb.Overlap 1 3 ∧ ¬ BlocksApart s := by
  refine ⟨?_, ?_, ?_, ?_⟩
  · obtain ⟨trace, s, hrun, hfound⟩ := exists_rbbRun (fun _ _ => True) 10 4 [.alloc 11]
      (fun _ s => decide (s.live = [0] ∧ s.rbb.stop 0 = 11 ∧ ¬ BlocksApart s)) (by decide +kernel)
    exact ⟨trace, s, hrun, of_decide_eq_true hfound⟩
  · obtain ⟨trace, s, hrun, hfound⟩ := exists_rbbRun (fun _ _ => True) 10 4 [.alloc 4, .put 0, .queueGet 10, .alloc 4]
      (fun _ s => decide (s.live = [0, 1] ∧ s.queues = [[0]] ∧ s.rbb.Overlap 0 1 ∧ ¬ BlocksApart s)) (by decide +kernel)
    exact ⟨trace, s, hrun, of_decide_eq_true hfound⟩
  · obtain ⟨trace, s, hrun, hfound⟩ := exists_rbbRun (fun _ _ => True) 10 4
      [.alloc 2, .alloc 2, .free 0, .alloc 2, .alloc 2, .put 1, .put 0, .queueGet 10, .queueFree [1, 0], .alloc 8]
      (fun _ s => decide (s.rbb.Overlap 2 1 ∧ ¬ BlocksApart s)) (by decide +kernel)
    exact ⟨trace, s, hrun, of_decide_eq_true hfound⟩
  · obtain ⟨trace, s, hrun, hfound⟩ := exists_rbbRun (fun _ _ => True) 8 4
      [.alloc 4, .alloc 4, .free 0, .alloc 4, .alloc 0, .alloc 4]
      (fun _ s => decide (s.queues = [] ∧ s.rbb.Overlap 1 3 ∧ ¬ BlocksApart s)) (by decide +kernel)
    exact ⟨trace, s, hrun, of_decide_eq_true hfound⟩

end RtThread
