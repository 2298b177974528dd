import RtThread.Drivers.BlockQueue
import RtThread.Lib.Traces

/-!
# Blocks that are got singly

`rt_rbb_blk_get` takes the first block of the list that is put, and the list keeps the order of allocation. The slots of the block set are used again and again: what is put, got and freed is told by numbers, a new one for each allocation.
-/

namespace RtThread

open Function

inductive RbbTold
  | alloc (n : Nat)
  | put (n : Nat)
  | got (n : Option Nat)
  | freed (n : Nat)
  deriving DecidableEq

structure RbbNumbered where
  base : RbbState
  number : Nat → Nat
  next : Nat

namespace RbbNumbered

def count (s : RbbNumbered) (base : RbbState) : List RbbEvent → RbbNumbered
  | [.alloc _ (some block)] => ⟨base, update s.number block s.next, s.next + 1⟩
  | _ => { s with base := base }

def tell (s : RbbNumbered) : RbbOp → List RbbEvent → List RbbTold
  | .alloc _, [.alloc _ (some _)] => [.alloc s.next]
  | .put block, _ => [.put (s.number block)]
  | .get, [.get block] => [.got (block.map s.number)]
  | .free block, _ => [.freed (s.number block)]
  | _, _ => []

end RbbNumbered

def stepRbbNumbered (s : RbbNumbered) (op : RbbOp) : Option (RbbNumbered × List RbbTold) :=
  (stepRbb s.base op).map fun r => (s.count r.1 r.2, s.tell op r.2)

def Single (_ : RbbNumbered) : RbbOp → Prop
  | .queueGet _ | .queueFree _ => False
  | _ => True

instance (s : RbbNumbered) (op : RbbOp) : Decidable (Single s op) := by
  induction op using RbbOp.casesOn <;> dsimp only [Single] <;> infer_instance

abbrev SingleRun (bufSize blkMaxNum : Nat) : List RbbTold → RbbNumbered → Prop :=
  Transition.Run stepRbbNumbered Single ⟨.init bufSize blkMaxNum, fun _ => 0, 0⟩

def PutWaiting (trace : List RbbTold) (n : Nat) : Prop := .put n ∈ trace ∧ .got (some n) ∉ trace ∧ .freed n ∉ trace

def GetsNext (before : List RbbTold) : RbbTold → List RbbTold → Prop
  | .got (some n), _ => PutWaiting before n ∧ ∀ m, PutWaiting before m → n ≤ m
  | .got none, _ => ∀ m, ¬PutWaiting before m
  | _, _ => True

theorem GetsNext.mono {before after events : List RbbTold} {e : RbbTold} (h : GetsNext before e after) :
    GetsNext before e (after ++ events) := by
  match e with
  | .got (some _) | .got none | .alloc _ | .put _ | .freed _ => exact h

theorem count_concat_of_ne {trace : List RbbTold} {e e' : RbbTold} (hne : e ≠ e') : (trace ++ [e']).count e = trace.count e := by
  rw [List.count_append, List.count_eq_zero.mpr fun hmem => hne (List.mem_singleton.mp hmem), Nat.add_zero]

theorem Rbb.setStatus_self (rbb : Rbb) (block : Nat) (status : RbbStatus) : ((rbb.setStatus block status).blkSet block).status = status := by
  have hupdate : (rbb.setStatus block status).blkSet block = { rbb.blkSet block with status } := update_self ..
  rw [hupdate]

/-! ## What a step does -/

variable {s s' : RbbNumbered} {op : RbbOp} {trace events : List RbbTold} {bufSize blkMaxNum block : Nat}

theorem stepRbbNumbered_cases (hsingle : Single s op) (hs : stepRbbNumbered s op = some (s', events)) :
    (s'.base.rbb = s.base.rbb ∧ s'.number = s.number ∧ s'.next = s.next ∧ events = []) ∨
    (∃ new buf size, (s.base.rbb.blkSet new).status = .unused ∧ size < 16777216 ∧ new < s.base.rbb.blkMaxNum ∧
      s'.base.rbb = s.base.rbb.append new buf size ∧
      s'.number = update s.number new s.next ∧ s'.next = s.next + 1 ∧ events = [.alloc s.next]) ∨
    (∃ block, (s.base.rbb.blkSet block).status = .inited ∧ s'.base.rbb = s.base.rbb.setStatus block .put ∧
      s'.number = s.number ∧ s'.next = s.next ∧ events = [.put (s.number block)]) ∨
    (s'.base.rbb = (rtRbbBlkGet s.base.rbb).2 ∧ s'.number = s.number ∧ s'.next = s.next ∧
      events = [.got ((rtRbbBlkGet s.base.rbb).1.map s.number)]) ∨
    (∃ block, (s.base.rbb.blkSet block).status ≠ .unused ∧
      s'.base.rbb = (s.base.rbb.remove block).setStatus block .unused ∧
      s'.number = s.number ∧ s'.next = s.next ∧ events = [.freed (s.number block)]) := by
  obtain ⟨r, hr, heq⟩ := Option.map_eq_some_iff.mp hs
  obtain ⟨rfl, rfl⟩ := Prod.mk.inj heq
  cases op with
  | alloc blkSize =>
    obtain ⟨r', hr', rfl⟩ := Option.map_eq_some_iff.mp hr
    rcases rtRbbBlkAlloc_cases hr' with rfl | ⟨new, buf, hnew, hsize, rfl⟩
    · exact Or.inl ⟨rfl, rfl, rfl, rfl⟩
    · have hunused : (s.base.rbb.blkSet new).status = .unused := by simpa using List.find?_some hnew
      exact Or.inr (Or.inl ⟨new, buf, blkSize, hunused, hsize, List.mem_range.mp (List.mem_of_find?_eq_some hnew), rfl, rfl, rfl, rfl⟩)
  | put block =>
    rw [stepRbb] at hr
    by_cases hholds : s.base.Holds block
    · rw [if_pos hholds] at hr
      obtain ⟨rbb, hput, rfl⟩ := Option.map_eq_some_iff.mp hr
      rw [rtRbbBlkPut] at hput
      by_cases hinited : (s.base.rbb.blkSet block).status = .inited
      · rw [if_pos hinited] at hput
        exact Or.inr (Or.inr (Or.inl ⟨block, hinited, (Option.some.inj hput).symm, rfl, rfl, rfl⟩))
      · rw [if_neg hinited] at hput
        cases hput
    · rw [if_neg hholds] at hr
      cases hr
  | get =>
    obtain rfl := Option.some.inj hr
    exact Or.inr (Or.inr (Or.inr (Or.inl ⟨rfl, rfl, rfl, rfl⟩)))
  | free block =>
    rw [stepRbb] at hr
    by_cases hholds : s.base.Holds block
    · rw [if_pos hholds] at hr
      obtain ⟨rbb, hfree, rfl⟩ := Option.map_eq_some_iff.mp hr
      rw [rtRbbBlkFree] at hfree
      by_cases hunused : (s.base.rbb.blkSet block).status = .unused
      · rw [if_pos hunused] at hfree
        cases hfree
      · rw [if_neg hunused] at hfree
        exact Or.inr (Or.inr (Or.inr (Or.inr ⟨block, hunused, (Option.some.inj hfree).symm, rfl, rfl, rfl⟩)))
    · rw [if_neg hholds] at hr
      cases hr
  | queueGet queueDataLen => exact hsingle.elim
  | queueFree queue => exact hsingle.elim

/-- The blocks of the list stand in the order of their numbers, and what has been told of a number agrees with the status of its block. -/
structure Numbers (trace : List RbbTold) (rbb : Rbb) (number : Nat → Nat) (next : Nat) : Prop where
  nodup : rbb.blkList.Nodup
  used : ∀ block, block ∈ rbb.blkList ↔ (rbb.blkSet block).status ≠ .unused
  sorted : rbb.blkList.Pairwise fun a b => number a < number b
  lt : ∀ block ∈ rbb.blkList, number block < next
  put : ∀ block ∈ rbb.blkList, .put (number block) ∈ trace ↔ (rbb.blkSet block).status ≠ .inited
  got : ∀ block ∈ rbb.blkList, .got (some (number block)) ∈ trace ↔ (rbb.blkSet block).status = .get
  kept : ∀ block ∈ rbb.blkList, .freed (number block) ∉ trace
  told : ∀ n, .put n ∈ trace ∨ .got (some n) ∈ trace ∨ .freed n ∈ trace → n < next
  gone : ∀ n, .put n ∈ trace → (∃ block ∈ rbb.blkList, number block = n) ∨ .freed n ∈ trace
  once : ∀ n, trace.count (.got (some n)) ≤ 1
  gets : EachEvent GetsNext trace

namespace Numbers

variable {rbb : Rbb} {number : Nat → Nat} {next : Nat}

theorem number_inj (h : Numbers trace rbb number next) {a b : Nat} (ha : a ∈ rbb.blkList) (hb : b ∈ rbb.blkList)
    (heq : number a = number b) : a = b := by
  have hne : (rbb.blkList.map number).Nodup := List.pairwise_map.mpr (h.sorted.imp fun hlt => Nat.ne_of_lt hlt)
  exact List.inj_on_of_nodup_map hne ha hb heq

theorem waiting_iff (h : Numbers trace rbb number next) {n : Nat} :
    PutWaiting trace n ↔ ∃ block ∈ rbb.blkList, rbb.IsPut block ∧ number block = n := by
  constructor
  · rintro ⟨hput, hgot, hfreed⟩
    obtain ⟨block, hmem, rfl⟩ := (h.gone n hput).resolve_right hfreed
    have hunused := (h.used block).mp hmem
    have hinited := (h.put block hmem).mp hput
    have hget := mt (h.got block hmem).mpr hgot
    refine ⟨block, hmem, ?_, rfl⟩
    rw [Rbb.IsPut]
    cases hstatus : (rbb.blkSet block).status with
    | unused => exact absurd hstatus hunused
    | inited => exact absurd hstatus hinited
    | put => rfl
    | get => exact absurd hstatus hget
  · rintro ⟨block, hmem, hput, rfl⟩
    have hstatus : (rbb.blkSet block).status = .put := hput
    refine ⟨(h.put block hmem).mpr ?_, mt (h.got block hmem).mp ?_, h.kept block hmem⟩
    · rw [hstatus]
      exact nofun
    · rw [hstatus]
      exact nofun

theorem init (bufSize blkMaxNum : Nat) : Numbers [] (RbbState.init bufSize blkMaxNum).rbb (fun _ => 0) 0 where
  nodup := List.nodup_nil
  used := fun block => ⟨fun hmem => absurd hmem List.not_mem_nil, fun hne => absurd rfl hne⟩
  sorted := List.Pairwise.nil
  lt := fun block hmem => absurd hmem List.not_mem_nil
  put := fun block hmem => absurd hmem List.not_mem_nil
  got := fun block hmem => absurd hmem List.not_mem_nil
  kept := fun block hmem => absurd hmem List.not_mem_nil
  told := fun n htold => by simp at htold
  gone := fun n hput => absurd hput List.not_mem_nil
  once := fun n => Nat.zero_le 1
  gets := EachEvent.nil

theorem alloc (h : Numbers trace rbb number next) {new buf size : Nat} (hnew : (rbb.blkSet new).status = .unused) :
    Numbers (trace ++ [.alloc next]) (rbb.append new buf size) (update number new next) (next + 1) := by
  have hout : new ∉ rbb.blkList := fun hmem => (h.used new).mp hmem hnew
  have hne : ∀ block ∈ rbb.blkList, block ≠ new := by
    rintro block hmem rfl
    exact hout hmem
  have hnumber : ∀ block ∈ rbb.blkList, update number new next block = number block := fun block hmem =>
    update_of_ne (hne block hmem) _ _
  have hself : update number new next new = next := update_self ..
  have hset : ∀ block, block ≠ new → (rbb.append new buf size).blkSet block = rbb.blkSet block := fun block hne =>
    update_of_ne hne _ _
  have hnewSet : (rbb.append new buf size).blkSet new = ⟨.inited, size, buf⟩ := update_self ..
  have hold : ∀ block ∈ rbb.blkList, (rbb.append new buf size).blkSet block = rbb.blkSet block := fun block hmem =>
    hset block (hne block hmem)
  have hlist : ∀ block, block ∈ (rbb.append new buf size).blkList ↔ block ∈ rbb.blkList ∨ block = new := by
    intro block
    rw [Rbb.append, List.mem_append, List.mem_singleton]
  have hfresh : .put next ∉ trace ∧ .got (some next) ∉ trace ∧ .freed next ∉ trace :=
    ⟨fun hmem => Nat.lt_irrefl _ (h.told next (Or.inl hmem)), fun hmem => Nat.lt_irrefl _ (h.told next (Or.inr (Or.inl hmem))),
      fun hmem => Nat.lt_irrefl _ (h.told next (Or.inr (Or.inr hmem)))⟩
  refine ⟨?_, ?_, ?_, ?_, ?_, ?_, ?_, ?_, ?_, ?_, ?_⟩
  · refine List.nodup_append.mpr ⟨h.nodup, List.pairwise_singleton _ new, fun a ha b hb heq => hout ?_⟩
    rwa [← List.mem_singleton.mp hb, ← heq]
  · intro block
    rw [hlist]
    by_cases heq : block = new
    · rw [heq, hnewSet]
      exact iff_of_true (Or.inr rfl) (fun hno => by cases hno)
    · rw [hset block heq, ← h.used block]
      exact or_iff_left heq
  · refine List.pairwise_append.mpr ⟨?_, List.pairwise_singleton _ _, ?_⟩
    · exact h.sorted.imp_of_mem fun ha hb hlt => by rwa [hnumber _ ha, hnumber _ hb]
    · intro a ha b hb
      rw [List.mem_singleton.mp hb, hnumber a ha, hself]
      exact h.lt a ha
  · intro block hmem
    rcases (hlist block).mp hmem with hmem | rfl
    · rw [hnumber block hmem]
      exact Nat.lt_succ_of_lt (h.lt block hmem)
    · rw [hself]
      exact Nat.lt_succ_self next
  · intro block hmem
    rcases (hlist block).mp hmem with hmem | rfl
    · simp only [hnumber block hmem, hold block hmem, List.mem_append, List.mem_singleton, reduceCtorEq, or_false]
      exact h.put block hmem
    · simp only [hself, hnewSet, List.mem_append, List.mem_singleton, reduceCtorEq, or_false]
      exact iff_of_false hfresh.1 fun hne => hne rfl
  · intro block hmem
    rcases (hlist block).mp hmem with hmem | rfl
    · simp only [hnumber block hmem, hold block hmem, List.mem_append, List.mem_singleton, reduceCtorEq, or_false]
      exact h.got block hmem
    · simp only [hself, hnewSet, List.mem_append, List.mem_singleton, reduceCtorEq, or_false]
      exact iff_of_false hfresh.2.1 (fun hno => by cases hno)
  · intro block hmem
    rcases (hlist block).mp hmem with hmem | rfl
    · simp only [hnumber block hmem, List.mem_append, List.mem_singleton, reduceCtorEq, or_false]
      exact h.kept block hmem
    · simp only [hself, List.mem_append, List.mem_singleton, reduceCtorEq, or_false]
      exact hfresh.2.2
  · intro n hn
    simp only [List.mem_append, List.mem_singleton, reduceCtorEq, or_false] at hn
    exact Nat.lt_succ_of_lt (h.told n hn)
  · intro n hn
    simp only [List.mem_append, List.mem_singleton, reduceCtorEq, or_false] at hn ⊢
    refine (h.gone n hn).imp_left ?_
    rintro ⟨block, hmem, rfl⟩
    exact ⟨block, (hlist block).mpr (Or.inl hmem), hnumber block hmem⟩
  · intro n
    refine le_of_eq_of_le (count_concat_of_ne ?_) (h.once n)
    intro hno
    cases hno
  · exact h.gets.concat (fun _ _ _ => GetsNext.mono) trivial

theorem putBlock (h : Numbers trace rbb number next) (hinited : (rbb.blkSet block).status = .inited) :
    Numbers (trace ++ [.put (number block)]) (rbb.setStatus block .put) number next := by
  have hblock : block ∈ rbb.blkList := (h.used block).mpr (by rw [hinited]; exact nofun)
  have hself : ((rbb.setStatus block .put).blkSet block).status = .put := Rbb.setStatus_self ..
  have hset : ∀ b, b ≠ block → (rbb.setStatus block .put).blkSet b = rbb.blkSet b := fun b hne => update_of_ne hne _ _
  refine ⟨h.nodup, ?_, h.sorted, h.lt, ?_, ?_, ?_, ?_, ?_, ?_, ?_⟩
  · intro b
    by_cases heq : b = block
    · rw [heq, hself]
      exact iff_of_true hblock nofun
    · rw [hset b heq]
      exact h.used b
  · intro b hmem
    by_cases heq : b = block
    · rw [heq, hself]
      exact iff_of_true (List.mem_append_right _ (List.mem_singleton_self _)) nofun
    · have hne : number b ≠ number block := fun hnumber => heq (h.number_inj hmem hblock hnumber)
      simp only [List.mem_append, List.mem_singleton, RbbTold.put.injEq, hne, or_false, hset b heq]
      exact h.put b hmem
  · intro b hmem
    simp only [List.mem_append, List.mem_singleton, reduceCtorEq, or_false]
    by_cases heq : b = block
    · rw [heq, hself, h.got block hblock, hinited]
      exact iff_of_false nofun nofun
    · rw [hset b heq]
      exact h.got b hmem
  · intro b hmem
    simp only [List.mem_append, List.mem_singleton, reduceCtorEq, or_false]
    exact h.kept b hmem
  · intro n hn
    simp only [List.mem_append, List.mem_singleton, RbbTold.put.injEq, reduceCtorEq, or_false] at hn
    rcases hn with (hn | rfl) | hn
    · exact h.told n (Or.inl hn)
    · exact h.lt block hblock
    · exact h.told n (Or.inr hn)
  · intro n hn
    simp only [List.mem_append, List.mem_singleton, RbbTold.put.injEq, reduceCtorEq, or_false] at hn ⊢
    rcases hn with hn | rfl
    · exact h.gone n hn
    · exact Or.inl ⟨block, hblock, rfl⟩
  · intro n
    refine le_of_eq_of_le (count_concat_of_ne ?_) (h.once n)
    exact nofun
  · exact h.gets.concat (fun _ _ _ => GetsNext.mono) trivial

theorem getBlock (h : Numbers trace rbb number next) {pre post : List Nat} (hlist : rbb.blkList = pre ++ block :: post)
    (hpre : ∀ b ∈ pre, ¬rbb.IsPut b) (hput : rbb.IsPut block) :
    Numbers (trace ++ [.got (some (number block))]) (rbb.setStatus block .get) number next := by
  have hstatus : (rbb.blkSet block).status = .put := hput
  have hblock : block ∈ rbb.blkList := hlist ▸ List.mem_append_right _ List.mem_cons_self
  have hself : ((rbb.setStatus block .get).blkSet block).status = .get := Rbb.setStatus_self ..
  have hset : ∀ b, b ≠ block → (rbb.setStatus block .get).blkSet b = rbb.blkSet b := fun b hne => update_of_ne hne _ _
  have hnot : .got (some (number block)) ∉ trace := by
    rw [h.got block hblock, hstatus]
    exact nofun
  refine ⟨h.nodup, ?_, h.sorted, h.lt, ?_, ?_, ?_, ?_, ?_, ?_, ?_⟩
  · intro b
    by_cases heq : b = block
    · rw [heq, hself]
      exact iff_of_true hblock nofun
    · rw [hset b heq]
      exact h.used b
  · intro b hmem
    simp only [List.mem_append, List.mem_singleton, reduceCtorEq, or_false]
    by_cases heq : b = block
    · rw [heq, hself, h.put block hblock, hstatus]
      exact iff_of_true nofun nofun
    · rw [hset b heq]
      exact h.put b hmem
  · intro b hmem
    by_cases heq : b = block
    · rw [heq, hself]
      exact iff_of_true (List.mem_append_right _ (List.mem_singleton_self _)) rfl
    · have hne : number b ≠ number block := fun hnumber => heq (h.number_inj hmem hblock hnumber)
      simp only [List.mem_append, List.mem_singleton, RbbTold.got.injEq, Option.some.injEq, hne, or_false, hset b heq]
      exact h.got b hmem
  · intro b hmem
    simp only [List.mem_append, List.mem_singleton, reduceCtorEq, or_false]
    exact h.kept b hmem
  · intro n hn
    simp only [List.mem_append, List.mem_singleton, RbbTold.got.injEq, Option.some.injEq, reduceCtorEq, or_false] at hn
    rcases hn with hn | (hn | rfl) | hn
    · exact h.told n (Or.inl hn)
    · exact h.told n (Or.inr (Or.inl hn))
    · exact h.lt block hblock
    · exact h.told n (Or.inr (Or.inr hn))
  · intro n hn
    simp only [List.mem_append, List.mem_singleton, reduceCtorEq, or_false] at hn ⊢
    exact h.gone n hn
  · intro n
    by_cases heq : n = number block
    · rw [heq, List.count_append, List.count_eq_zero.mpr hnot, List.count_singleton_self]
    · rw [count_concat_of_ne fun hgot => heq (Option.some.inj (RbbTold.got.inj hgot))]
      exact h.once n
  · refine h.gets.concat (fun _ _ _ => GetsNext.mono) ⟨h.waiting_iff.mpr ⟨block, hblock, hput, rfl⟩, ?_⟩
    intro m hm
    obtain ⟨b, hmem, hputb, rfl⟩ := h.waiting_iff.mp hm
    have hsorted := h.sorted
    rw [hlist] at hmem hsorted
    rcases List.mem_append.mp hmem with hmem | hmem
    · exact absurd hputb (hpre b hmem)
    · rcases List.mem_cons.mp hmem with rfl | hmem
      · exact Nat.le_refl _
      · exact Nat.le_of_lt ((List.pairwise_cons.mp (List.pairwise_append.mp hsorted).2.1).1 b hmem)

theorem getNone (h : Numbers trace rbb number next) (hnone : ∀ b ∈ rbb.blkList, ¬rbb.IsPut b) :
    Numbers (trace ++ [.got none]) rbb number next where
  nodup := h.nodup
  used := h.used
  sorted := h.sorted
  lt := h.lt
  put := fun b hmem => by
    simp only [List.mem_append, List.mem_singleton, reduceCtorEq, or_false]
    exact h.put b hmem
  got := fun b hmem => by
    simp only [List.mem_append, List.mem_singleton, RbbTold.got.injEq, reduceCtorEq, or_false]
    exact h.got b hmem
  kept := fun b hmem => by
    simp only [List.mem_append, List.mem_singleton, reduceCtorEq, or_false]
    exact h.kept b hmem
  told := fun n hn => by
    simp only [List.mem_append, List.mem_singleton, RbbTold.got.injEq, reduceCtorEq, or_false] at hn
    exact h.told n hn
  gone := fun n hn => by
    simp only [List.mem_append, List.mem_singleton, reduceCtorEq, or_false] at hn ⊢
    exact h.gone n hn
  once := fun n => by
    refine le_of_eq_of_le (count_concat_of_ne ?_) (h.once n)
    exact nofun
  gets := by
    refine h.gets.concat (fun _ _ _ => GetsNext.mono) fun m hm => ?_
    obtain ⟨b, hmem, hput, -⟩ := h.waiting_iff.mp hm
    exact hnone b hmem hput

theorem freeBlock (h : Numbers trace rbb number next) (hused : (rbb.blkSet block).status ≠ .unused) :
    Numbers (trace ++ [.freed (number block)]) ((rbb.remove block).setStatus block .unused) number next := by
  have hblock : block ∈ rbb.blkList := (h.used block).mpr hused
  have hself : (((rbb.remove block).setStatus block .unused).blkSet block).status = .unused := Rbb.setStatus_self ..
  have hset : ∀ b, b ≠ block → ((rbb.remove block).setStatus block .unused).blkSet b = rbb.blkSet b := fun b hne =>
    update_of_ne hne _ _
  have hlist : ∀ b, b ∈ ((rbb.remove block).setStatus block .unused).blkList ↔ b ≠ block ∧ b ∈ rbb.blkList := fun b => h.nodup.mem_erase_iff
  have hsub : (((rbb.remove block).setStatus block .unused).blkList).Sublist rbb.blkList := List.erase_sublist
  refine ⟨h.nodup.sublist hsub, ?_, h.sorted.sublist hsub, fun b hmem => h.lt b ((hlist b).mp hmem).2, ?_, ?_, ?_, ?_, ?_, ?_, ?_⟩
  · intro b
    rw [hlist]
    by_cases heq : b = block
    · rw [heq, hself]
      exact iff_of_false (fun hand => hand.1 rfl) fun hne => hne rfl
    · rw [hset b heq, ← h.used b]
      exact and_iff_right heq
  · intro b hmem
    obtain ⟨hne, hmem⟩ := (hlist b).mp hmem
    simp only [List.mem_append, List.mem_singleton, reduceCtorEq, or_false, hset b hne]
    exact h.put b hmem
  · intro b hmem
    obtain ⟨hne, hmem⟩ := (hlist b).mp hmem
    simp only [List.mem_append, List.mem_singleton, reduceCtorEq, or_false, hset b hne]
    exact h.got b hmem
  · intro b hmem
    obtain ⟨hne, hmem⟩ := (hlist b).mp hmem
    have hnumber : number b ≠ number block := fun heq => hne (h.number_inj hmem hblock heq)
    simp only [List.mem_append, List.mem_singleton, RbbTold.freed.injEq, hnumber, or_false]
    exact h.kept b hmem
  · intro n hn
    simp only [List.mem_append, List.mem_singleton, RbbTold.freed.injEq, reduceCtorEq, or_false] at hn
    rcases hn with hn | hn | hn | rfl
    · exact h.told n (Or.inl hn)
    · exact h.told n (Or.inr (Or.inl hn))
    · exact h.told n (Or.inr (Or.inr hn))
    · exact h.lt block hblock
  · intro n hn
    simp only [List.mem_append, List.mem_singleton, RbbTold.freed.injEq, reduceCtorEq, or_false] at hn ⊢
    rcases h.gone n hn with ⟨b, hmem, rfl⟩ | hfreed
    · by_cases heq : b = block
      · exact Or.inr (Or.inr (by rw [heq]))
      · exact Or.inl ⟨b, (hlist b).mpr ⟨heq, hmem⟩, rfl⟩
    · exact Or.inr (Or.inl hfreed)
  · intro n
    refine le_of_eq_of_le (count_concat_of_ne ?_) (h.once n)
    exact nofun
  · exact h.gets.concat (fun _ _ _ => GetsNext.mono) trivial

theorem get (h : Numbers trace rbb number next) :
    Numbers (trace ++ [.got ((rtRbbBlkGet rbb).1.map number)]) (rtRbbBlkGet rbb).2 number next := by
  rw [rtRbbBlkGet]
  cases hfind : rbb.blkList.find? fun b => (rbb.blkSet b).status = .put with
  | none =>
    exact h.getNone fun b hmem hput => List.find?_eq_none.mp hfind b hmem (decide_eq_true hput)
  | some block =>
    obtain ⟨hput, pre, post, hlist, hpre⟩ := List.find?_eq_some_iff_append.mp hfind
    refine h.getBlock hlist (fun b hmem hputb => ?_) (of_decide_eq_true hput)
    have hstatus : (rbb.blkSet b).status = .put := hputb
    have hfalse := hpre b hmem
    rw [hstatus] at hfalse
    exact absurd hfalse (by decide)

theorem step (h : Numbers trace s.base.rbb s.number s.next) (hsingle : Single s op) (hs : stepRbbNumbered s op = some (s', events)) :
    Numbers (trace ++ events) s'.base.rbb s'.number s'.next := by
  rcases stepRbbNumbered_cases hsingle hs with ⟨hrbb, hnumber, hnext, rfl⟩ | ⟨new, buf, size, hnew, -, -, hrbb, hnumber, hnext, rfl⟩ |
    ⟨block, hinited, hrbb, hnumber, hnext, rfl⟩ | ⟨hrbb, hnumber, hnext, rfl⟩ | ⟨block, hused, hrbb, hnumber, hnext, rfl⟩
  · rw [hrbb, hnumber, hnext, List.append_nil]
    exact h
  · rw [hrbb, hnumber, hnext]
    exact h.alloc hnew
  · rw [hrbb, hnumber, hnext]
    exact h.putBlock hinited
  · rw [hrbb, hnumber, hnext]
    exact h.get
  · rw [hrbb, hnumber, hnext]
    exact h.freeBlock hused

end Numbers

theorem numbers_of_run (hrun : SingleRun bufSize blkMaxNum trace s) : Numbers trace s.base.rbb s.number s.next :=
  hrun.invariant (I := fun trace s => Numbers trace s.base.rbb s.number s.next) (.init bufSize blkMaxNum)
    fun _ _ _ _ _ h hsingle hs => h.step hsingle hs

/-! ## Every block that is put -/

theorem rtRbbBlkGet_eq {rbb : Rbb} {pre post : List Nat} (hlist : rbb.blkList = pre ++ block :: post)
    (hpre : ∀ b ∈ pre, ¬rbb.IsPut b) (hput : rbb.IsPut block) : rtRbbBlkGet rbb = (some block, rbb.setStatus block .get) := by
  have hfind : rbb.blkList.find? (fun b => (rbb.blkSet b).status = .put) = some block := by
    refine List.find?_eq_some_iff_append.mpr ⟨decide_eq_true hput, pre, post, hlist, fun a ha => ?_⟩
    have hfalse : decide ((rbb.blkSet a).status = .put) = false := decide_eq_false (hpre a ha)
    rw [hfalse]
    rfl
  rw [rtRbbBlkGet, hfind]

theorem stepRbbNumbered_get (s : RbbNumbered) :
    stepRbbNumbered s .get = some ({ s with base := { s.base with rbb := (rtRbbBlkGet s.base.rbb).2 } },
      [.got ((rtRbbBlkGet s.base.rbb).1.map s.number)]) := rfl

theorem Numbers.getsAll {post : List Nat} : ∀ {trace : List RbbTold} {s : RbbNumbered} (pre : List Nat),
    Numbers trace s.base.rbb s.number s.next → s.base.rbb.blkList = pre ++ post → (∀ b ∈ pre, ¬s.base.rbb.IsPut b) →
    ∃ (ns : List Nat) (s' : RbbNumbered), Transition.Run stepRbbNumbered Single s (ns.map fun n => .got (some n)) s' ∧
      ns.Pairwise (· < ·) ∧ ∀ n, n ∈ ns ↔ PutWaiting trace n := by
  induction post with
  | nil =>
    intro trace s pre h hlist hpre
    refine ⟨[], s, .start, List.Pairwise.nil, fun n => iff_of_false List.not_mem_nil fun hwaits => ?_⟩
    obtain ⟨b, hmem, hput, -⟩ := h.waiting_iff.mp hwaits
    rw [hlist, List.append_nil] at hmem
    exact hpre b hmem hput
  | cons b post ih =>
    intro trace s pre h hlist hpre
    by_cases hput : s.base.rbb.IsPut b
    · -- the block is got, and those behind it wait on
      have hget := rtRbbBlkGet_eq hlist hpre hput
      have hstep := stepRbbNumbered_get s
      have hnext := h.getBlock hlist hpre hput
      rw [hget] at hstep
      have hnodup := h.nodup
      rw [hlist] at hnodup
      have hpre' : ∀ a ∈ pre ++ [b], ¬(s.base.rbb.setStatus b .get).IsPut a := by
        intro a ha
        by_cases heq : a = b
        · rw [heq, Rbb.IsPut, Rbb.setStatus_self]
          exact nofun
        · have hset : (s.base.rbb.setStatus b .get).blkSet a = s.base.rbb.blkSet a := update_of_ne heq _ _
          rw [Rbb.IsPut, hset]
          exact hpre a ((List.mem_append.mp ha).resolve_right fun hlast => heq (List.mem_singleton.mp hlast))
      obtain ⟨ns, s', hrun, hsorted, hns⟩ := ih (s := { s with base := { s.base with rbb := s.base.rbb.setStatus b .get } }) (pre ++ [b]) hnext
        (by rw [List.append_assoc]; exact hlist) hpre'
      have hothers : ∀ m, PutWaiting (trace ++ [.got (some (s.number b))]) m ↔ PutWaiting trace m ∧ m ≠ s.number b := by
        intro m
        simp only [PutWaiting, List.mem_append, List.mem_singleton, reduceCtorEq, or_false, RbbTold.got.injEq, Option.some.injEq, not_or]
        tauto
      have hfirst := (h.getBlock hlist hpre hput).gets trace (.got (some (s.number b))) [] rfl
      refine ⟨s.number b :: ns, s', (Transition.Run.start.next (a := .get) trivial hstep).trans hrun, ?_, fun n => ?_⟩
      · refine List.pairwise_cons.mpr ⟨fun m hm => ?_, hsorted⟩
        obtain ⟨hwaits, hne⟩ := (hothers m).mp ((hns m).mp hm)
        exact Nat.lt_of_le_of_ne (hfirst.2 m hwaits) hne.symm
      · rw [List.mem_cons, hns, hothers]
        by_cases heq : n = s.number b
        · exact iff_of_true (Or.inl heq) (heq ▸ hfirst.1)
        · simp only [heq, false_or, ne_eq, not_false_iff, and_true]
    · have hbehind : s.base.rbb.blkList = pre ++ [b] ++ post := by rw [hlist, List.append_assoc, List.singleton_append]
      refine ih (pre ++ [b]) h hbehind fun a ha => ?_
      rcases List.mem_append.mp ha with ha | ha
      · exact hpre a ha
      · rwa [List.mem_singleton.mp ha]

/-- What is got is the oldest block that waits, and every block that is put and not freed before it is got is got once, after as many further calls as there are blocks that wait. -/
theorem rtRbbBlkGet_once (hrun : SingleRun bufSize blkMaxNum trace s) :
    EachEvent GetsNext trace ∧ (∀ n, trace.count (.got (some n)) ≤ 1) ∧
      ∃ (ns : List Nat) (s' : RbbNumbered), SingleRun bufSize blkMaxNum (trace ++ ns.map fun n => .got (some n)) s' ∧
        ∀ n, .put n ∈ trace → .freed n ∉ trace ∨ .got (some n) ∈ trace →
          (trace ++ ns.map fun n => RbbTold.got (some n)).count (RbbTold.got (some n)) = 1 := by
  have h := numbers_of_run hrun
  obtain ⟨ns, s', hgets, -, hns⟩ := h.getsAll [] rfl fun b hb => absurd hb List.not_mem_nil
  have hall := hrun.trans hgets
  refine ⟨h.gets, h.once, ns, s', hall, fun n hput hkept => ?_⟩
  have hmem : RbbTold.got (some n) ∈ trace ++ ns.map fun n => RbbTold.got (some n) := by
    by_cases hgot : RbbTold.got (some n) ∈ trace
    · exact List.mem_append_left _ hgot
    · have hwaits : PutWaiting trace n := ⟨hput, hgot, hkept.resolve_right hgot⟩
      exact List.mem_append_right _ (List.mem_map.mpr ⟨n, (hns n).mpr hwaits, rfl⟩)
  exact Nat.le_antisymm ((numbers_of_run hall).once n) (List.one_le_count_iff.mpr hmem)

theorem exists_singleRun (bufSize blkMaxNum : Nat) (ops : List RbbOp) (found : List RbbTold → RbbNumbered → Bool)
    (h : ((Transition.exec stepRbbNumbered Single ⟨.init bufSize blkMaxNum, fun _ => 0, 0⟩ ops).any fun r => found r.1 r.2) = true) :
    ∃ trace s, SingleRun bufSize blkMaxNum trace s ∧ found trace s = true :=
  Transition.exists_run_of_exec ops found h

/-- Two blocks are put in the other order, and got in the order in which they were allocated. -/
theorem rtRbbBlkGet_once_two : ∃ trace s, SingleRun 10 4 trace s ∧
    trace = [.alloc 0, .alloc 1, .put 1, .put 0, .got (some 0), .got (some 1)] ∧ EachEvent GetsNext trace := by
  obtain ⟨trace, s, hrun, hfound⟩ := exists_singleRun 10 4 [.alloc 2, .alloc 2, .put 1, .put 0, .get, .get]
    (fun trace _ => decide (trace = [.alloc 0, .alloc 1, .put 1, .put 0, .got (some 0), .got (some 1)])) (by decide +kernel)
  exact ⟨trace, s, hrun, of_decide_eq_true hfound, (rtRbbBlkGet_once hrun).1⟩

/-- A block that is put is freed before it is got: it is never got, whatever is done. -/
theorem rtRbbBlkGet_once_fails : ∃ trace s, SingleRun 10 4 trace s ∧ .put 0 ∈ trace ∧
    ∀ trace' s', Transition.Run stepRbbNumbered Single s trace' s' → .got (some 0) ∉ trace ++ trace' := by
  obtain ⟨trace, s, hrun, hfound⟩ := exists_singleRun 10 4 [.alloc 2, .put 0, .free 0]
    (fun trace _ => decide (trace = [.alloc 0, .put 0, .freed 0])) (by decide +kernel)
  obtain rfl := of_decide_eq_true hfound
  refine ⟨_, s, hrun, by decide, fun trace' s' hnext hgot => ?_⟩
  have hgets := (numbers_of_run (hrun.trans hnext)).gets
  have hlater : RbbTold.got (some 0) ∈ trace' := (List.mem_append.mp hgot).resolve_left (by decide)
  obtain ⟨before, after, rfl⟩ := List.append_of_mem hlater
  have hwaits := hgets ([.alloc 0, .put 0, .freed 0] ++ before) (.got (some 0)) after (by rw [List.append_assoc])
  exact hwaits.1.2.2 (List.mem_append_left _ (by decide))

end RtThread
