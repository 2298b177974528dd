import RtThread.Kernel.ReadyQueue
import RtThread.Mem.PoolWaiters
import RtThread.Vbus.PrioQueue

/-!
# What a priority queue delivers

The abstract queue numbers the items in the order of their pushes, and a pop takes the oldest of those with the lowest priority number. A pop fails when there is no item, or when it has gone to sleep on an empty queue and its time has passed. The items of one priority, in the order in which they arrived, are the list of that priority. Each block that is in use is in one place: in one list, or in the hands of one call.
-/

namespace RtThread

open Function Bitmap

variable {que que' : PrioQueue} {s s' : PqState} {op : PqOp} {trace events : List PqEvent} {c c' : Caller}
  {lists lists' : Nat → List Nat} {prio item : Nat} {data : List UInt8} {timeout : Int} {t : ThreadId}

/-! ## The abstract queue -/

structure PqItem where
  no : Nat
  prio : Nat
  data : List UInt8
  deriving DecidableEq

inductive PopWait
  | awake
  /-- The pop has found no item, and sleeps. -/
  | asleep
  /-- Its time has passed in its sleep. -/
  | late
  deriving DecidableEq

/-- `waiting` has the items in the order of their pushes; `taken` are those of pops that have not returned. -/
structure AbstractPq where
  count : Nat
  waiting : List PqItem
  taken : List (Caller × PqItem)
  returned : List PqItem
  pop : Caller → PopWait

def AbstractPq.empty : AbstractPq := ⟨0, [], [], [], fun _ => .awake⟩

inductive AbstractPqOp
  | push (c : Caller) (prio : Nat) (data : List UInt8)
  /-- The item leaves; `older` and `younger` are those before and behind it. -/
  | take (c : Caller) (older : List PqItem) (item : PqItem) (younger : List PqItem)
  | give (c : Caller) (item : PqItem)
  | sleep (c : Caller)
  | late (t : ThreadId)
  | fail (c : Caller)
  | other (events : List PqEvent)

/-- Every event but a push that fails. -/
def PqEvent.ofQueue : PqEvent → Bool
  | .refused _ | .noMemory _ | .expired _ => false
  | _ => true

def stepAbstractPq (a : AbstractPq) : AbstractPqOp → Option (AbstractPq × List PqEvent)
  | .push c prio data =>
    some ({ a with count := a.count + 1, waiting := a.waiting ++ [⟨a.count, prio, data⟩] }, [.pushed c prio data])
  | .take c older item younger =>
    if a.waiting = older ++ item :: younger ∧ (∀ o ∈ older, item.prio < o.prio) ∧ (∀ y ∈ younger, item.prio ≤ y.prio) then
      some ({ a with waiting := older ++ younger, taken := (c, item) :: a.taken, pop := update a.pop c .awake }, [.unlinked c])
    else none
  | .give c item =>
    if (c, item) ∈ a.taken then
      some ({ a with taken := a.taken.erase (c, item), returned := a.returned ++ [item] }, [.popped c item.data])
    else none
  | .sleep c => if a.waiting = [] then some ({ a with pop := update a.pop c .asleep }, []) else none
  | .late t =>
    if a.pop (.thread t) = .asleep then some ({ a with pop := update a.pop (.thread t) .late }, [.late t]) else none
  | .fail c =>
    if a.waiting = [] ∨ a.pop c = .late then some ({ a with pop := update a.pop c .awake }, [.failed c .etimeout]) else none
  | .other events => if ∀ e ∈ events, e.ofQueue = false then some (a, events) else none

abbrev AbstractPqRun : List PqEvent → AbstractPq → Prop := Transition.Run stepAbstractPq (fun _ _ => True) .empty

/-- Every item that has been pushed waits, is taken, or has been returned, and only one of these, once. -/
def AbstractPq.EachOnce (a : AbstractPq) : Prop :=
  ((a.waiting ++ a.taken.map Prod.snd ++ a.returned).map PqItem.no).Perm (List.range a.count)

theorem eachOnce_of_run {a : AbstractPq} (hrun : AbstractPqRun trace a) : a.EachOnce := by
  refine hrun.state_invariant (I := AbstractPq.EachOnce)
    (show AbstractPq.EachOnce .empty from List.Perm.refl []) ?_
  intro a op a' events h _ hs
  rw [AbstractPq.EachOnce] at h ⊢
  cases op with
  | push c prio data =>
    cases hs
    have hmove : (a.waiting ++ [PqItem.mk a.count prio data] ++ a.taken.map Prod.snd ++ a.returned).Perm
        (PqItem.mk a.count prio data :: (a.waiting ++ a.taken.map Prod.snd ++ a.returned)) := by
      simp only [List.append_assoc, List.singleton_append]
      exact List.perm_middle
    rw [List.range_succ]
    exact ((hmove.map PqItem.no).trans (h.cons a.count)).trans (List.perm_append_singleton ..).symm
  | take c older item younger =>
    simp only [stepAbstractPq] at hs
    split at hs
    · rename_i hwaiting
      cases hs
      rw [hwaiting.1] at h
      have hmove : (older ++ younger ++ item :: a.taken.map Prod.snd ++ a.returned).Perm
          (older ++ item :: younger ++ a.taken.map Prod.snd ++ a.returned) := by
        refine List.Perm.append_right _ ?_
        have hback : (older ++ item :: (younger ++ a.taken.map Prod.snd)).Perm
            (item :: (older ++ (younger ++ a.taken.map Prod.snd))) := List.perm_middle
        refine List.perm_middle.trans ?_
        simpa only [List.append_assoc, List.cons_append] using hback.symm
      exact (hmove.map PqItem.no).trans h
    · cases hs
  | give c item =>
    simp only [stepAbstractPq] at hs
    split at hs
    · rename_i htaken
      cases hs
      have htake : (a.taken.map Prod.snd).Perm (item :: (a.taken.erase (c, item)).map Prod.snd) :=
        (List.perm_cons_erase htaken).map Prod.snd
      have hmove : (a.waiting ++ (a.taken.erase (c, item)).map Prod.snd ++ (a.returned ++ [item])).Perm
          (a.waiting ++ a.taken.map Prod.snd ++ a.returned) := by
        refine List.Perm.trans ?_ ((htake.symm.append_left a.waiting).append_right a.returned)
        rw [← List.append_assoc]
        refine (List.perm_append_singleton ..).trans ?_
        simp only [List.append_assoc, List.cons_append]
        exact List.perm_middle.symm
      exact (hmove.map PqItem.no).trans h
    · cases hs
  | sleep c | late t | fail c | other events =>
    simp only [stepAbstractPq] at hs
    split at hs <;> cases hs
    exact h

/-! ## The lists and the bitmap -/

/-- The items of priority `p` are linked from `head p` to `tail p`, and bit `p` is set if there are any. -/
structure PrioLists (que : PrioQueue) (lists : Nat → List Nat) : Prop where
  linked : ∀ p, LinkedFrom que.next (que.head p) (lists p)
  tail : ∀ p, lists p ≠ [] → que.tail p = (lists p).getLast?
  bitmap : Flat que.bitmap {p | lists p ≠ []}

theorem PrioLists.fill (h : PrioLists que lists) (hitem : ∀ p, item ∉ lists p) : PrioLists (que.fill item data) lists :=
  ⟨fun p => (h.linked p).update (hitem p), h.tail, h.bitmap⟩

theorem PrioLists.doPush (h : PrioLists que lists) (hprio : prio < 32) (hnodup : (lists prio).Nodup)
    (hitem : ∀ p, item ∉ lists p) (hdisjoint : ∀ p ≠ prio, ∀ b ∈ lists p, b ∉ lists prio) (hend : que.next item = none) :
    ∃ que', que.doPush prio item = some que' ∧
      PrioLists que' (update lists prio (lists prio ++ [item])) ∧ que'.data = que.data ∧
      ∀ b, b ∉ lists prio → que'.next b = que.next b := by
  have hset : {p | update lists prio (lists prio ++ [item]) p ≠ []} = insert prio {p | lists p ≠ []} := by
    ext p
    by_cases hp : p = prio
    · subst hp
      simp
    · simp [hp]
  cases hhead : que.head prio with
  | none =>
    have hnil : lists prio = [] := (h.linked prio).eq_none_iff.1 hhead
    refine ⟨{ que with
      head := update que.head prio (some item)
      bitmap := que.bitmap ||| 1#32 <<< prio
      tail := update que.tail prio (some item) }, by rw [PrioQueue.doPush, hhead], ⟨?_, ?_, ?_⟩, rfl, fun _ _ => rfl⟩
    · intro p
      by_cases hp : p = prio
      · subst hp
        simp [hnil, hend]
      · simpa [hp] using h.linked p
    · intro p hne
      by_cases hp : p = prio
      · subst hp
        simp [hnil]
      · simp only [update_of_ne hp] at hne ⊢
        exact h.tail p hne
    · rw [hset]
      exact h.bitmap.insert hprio
  | some first =>
    have hne : lists prio ≠ [] := by
      intro hnil
      have hnone := (h.linked prio).eq_none_iff.2 hnil
      rw [hhead] at hnone
      exact Option.some_ne_none first hnone
    have htail := h.tail prio hne
    obtain ⟨last, hlast⟩ : ∃ last, (lists prio).getLast? = some last := ⟨_, List.getLast?_eq_some_getLast hne⟩
    have hmem : last ∈ lists prio := List.mem_of_getLast? hlast
    refine ⟨{ que with
      next := update que.next last (some item)
      tail := update que.tail prio (some item) }, ?_, ⟨?_, ?_, ?_⟩, rfl, ?_⟩
    · simp only [PrioQueue.doPush, hhead, htail, hlast]
    · intro p
      by_cases hp : p = prio
      · subst hp
        rw [update_self]
        exact (h.linked p).append hnodup hlast (hitem p) hend
      · rw [update_of_ne hp]
        exact (h.linked p).update fun hmem' => hdisjoint p hp last hmem' hmem
    · intro p hne'
      by_cases hp : p = prio
      · subst hp
        simp
      · simp only [update_of_ne hp] at hne' ⊢
        exact h.tail p hne'
    · rw [hset, Set.insert_eq_of_mem (show prio ∈ {p | lists p ≠ []} from hne)]
      exact h.bitmap
    · intro b hb
      exact update_of_ne (fun heq : b = last => hb (heq ▸ hmem)) ..

theorem PrioLists.doPop (h : PrioLists que lists) :
    (que.doPop = some (none, que) ∧ ∀ p, lists p = []) ∨
      ∃ p item rest que', lists p = item :: rest ∧ (∀ q < p, lists q = []) ∧ que.doPop = some (some item, que') ∧
        PrioLists que' (update lists p rest) ∧ que'.data = que.data ∧ que'.next = que.next := by
  by_cases hzero : que.bitmap = 0
  · left
    have hempty := h.bitmap.eq_zero_iff.1 hzero
    refine ⟨?_, fun p => ?_⟩
    · have hffs : rtFfs que.bitmap = 0 := by rw [rtFfs, if_pos hzero]
      rw [PrioQueue.doPop, if_pos hffs]
    · by_contra hne
      have hmem : p ∈ {p | lists p ≠ []} := hne
      rw [hempty] at hmem
      exact hmem
  · right
    have hleast := h.bitmap.isLeast (rtFfs_isLowest hzero)
    have hffs : rtFfs que.bitmap ≠ 0 := Nat.ne_of_gt (rtFfs_pos hzero)
    generalize hp : rtFfs que.bitmap - 1 = p at hleast
    obtain ⟨item, rest, hlist⟩ := List.exists_cons_of_ne_nil (show lists p ≠ [] from hleast.1)
    have hlinked := h.linked p
    rw [hlist] at hlinked
    have hlow : ∀ q < p, lists q = [] := by
      intro q hq
      by_contra hne
      exact absurd (hleast.2 hne) (Nat.not_le.2 hq)
    refine ⟨p, item, rest, { que with
      head := update que.head p (que.next item)
      bitmap := if que.next item = none then que.bitmap &&& ~~~(1#32 <<< p) else que.bitmap },
      hlist, hlow, ?_, ⟨?_, ?_, ?_⟩, rfl, rfl⟩
    · simp only [PrioQueue.doPop, if_neg hffs, hp, hlinked.1]
    · intro q
      by_cases hq : q = p
      · subst hq
        simpa using hlinked.2
      · simpa [hq] using h.linked q
    · intro q hne
      by_cases hq : q = p
      · subst hq
        rw [update_self] at hne ⊢
        have htail := h.tail q (by rw [hlist]; exact List.cons_ne_nil item rest)
        rw [hlist, List.getLast?_cons_of_ne_nil hne] at htail
        exact htail
      · rw [update_of_ne hq] at hne ⊢
        exact h.tail q hne
    · have hset : que.next item = none ↔ rest = [] := hlinked.2.eq_none_iff
      by_cases hend : que.next item = none
      · have hrest := hset.1 hend
        subst hrest
        have heq : {q | update lists p [] q ≠ []} = {q | lists q ≠ []} \ {p} := by
          ext q
          by_cases hq : q = p
          · subst hq
            simp
          · simp [hq]
        simp only [if_pos hend, heq]
        exact h.bitmap.erase p
      · have hrest : rest ≠ [] := fun hnil => hend (hset.2 hnil)
        have heq : {q | update lists p rest q ≠ []} = {q | lists q ≠ []} := by
          ext q
          by_cases hq : q = p
          · subst hq
            simp [hrest, hlist]
          · simp [hq]
        simp only [if_neg hend, heq]
        exact h.bitmap

theorem exists_oldest {l tail : List PqItem} {m : PqItem} (hfilter : l.filter (fun i => i.prio = prio) = m :: tail)
    (hlow : ∀ q < prio, l.filter (fun i => i.prio = q) = []) :
    ∃ older younger, l = older ++ m :: younger ∧ (∀ o ∈ older, m.prio < o.prio) ∧ (∀ y ∈ younger, m.prio ≤ y.prio) ∧
      m.prio = prio ∧ (older ++ younger).filter (fun i => i.prio = prio) = tail ∧
      ∀ q ≠ prio, (older ++ younger).filter (fun i => i.prio = q) = l.filter fun i => i.prio = q := by
  obtain ⟨older, younger, rfl, holder, hm, htail⟩ := List.filter_eq_cons_iff.1 hfilter
  have hprio : m.prio = prio := of_decide_eq_true hm
  have hge : ∀ i ∈ older ++ m :: younger, prio ≤ i.prio := by
    intro i hi
    by_contra hlt
    have hmem : i ∈ (older ++ m :: younger).filter fun j => j.prio = i.prio := by simpa using hi
    rw [hlow i.prio (Nat.lt_of_not_le hlt)] at hmem
    exact List.not_mem_nil hmem
  refine ⟨older, younger, rfl, ?_, ?_, hprio, ?_, ?_⟩
  · intro o ho
    have hne : o.prio ≠ prio := by simpa using holder o ho
    have hle := hge o (List.mem_append_left _ ho)
    omega
  · intro y hy
    rw [hprio]
    exact hge y (List.mem_append_right _ (List.mem_cons_of_mem m hy))
  · have hnone : older.filter (fun i => i.prio = prio) = [] := List.filter_eq_nil_iff.2 holder
    rw [List.filter_append, hnone, List.nil_append, htail]
  · intro q hq
    have hne : ¬ m.prio = q := by
      rw [hprio]
      exact hq.symm
    simp [List.filter_append, hne]

/-! ## Places -/

def PqCall.heldItem : PqCall → Option Nat
  | .allocated _ item _ => some item
  | .filled _ item _ => some item
  | .unlinked item => some item
  | .copied item _ => some item
  | .alloc .. => none
  | .wait _ => none

def PqCall.priority : PqCall → Option Nat
  | .alloc prio .. => some prio
  | .allocated prio .. => some prio
  | .filled prio .. => some prio
  | .wait _ => none
  | .unlinked _ => none
  | .copied .. => none

inductive Place
  | queued (prio : Nat)
  | held (c : Caller)
  deriving DecidableEq

/-- A pop that has unlinked an item has taken just one, with the data that it will return; no other call has taken any. -/
def Takes (que : PrioQueue) (taken : List (Caller × PqItem)) (c : Caller) : Option PqCall → Prop
  | some (.unlinked item) => ∃ m, (∀ m', (c, m') ∈ taken ↔ m' = m) ∧ que.data item = m.data
  | some (.copied _ data) => ∃ m, (∀ m', (c, m') ∈ taken ↔ m' = m) ∧ data = m.data
  | _ => ∀ m, (c, m) ∉ taken

structure CallFits (que : PrioQueue) (place : Nat → Option Place) (taken : List (Caller × PqItem)) (c : Caller)
    (call : Option PqCall) : Prop where
  held : ∀ b, call.bind PqCall.heldItem = some b → place b = some (.held c)
  prio : ∀ p, call.bind PqCall.priority = some p → p < 32
  filled : ∀ prio item data, call = some (.filled prio item data) → que.next item = none ∧ que.data item = data
  takes : Takes que taken c call

theorem CallFits.congr {place place' : Nat → Option Place} {taken taken' : List (Caller × PqItem)} {call : Option PqCall}
    (h : CallFits que place taken c call)
    (hitem : ∀ b, place b = some (.held c) → place' b = some (.held c) ∧ que'.next b = que.next b ∧ que'.data b = que.data b)
    (htaken : ∀ m, (c, m) ∈ taken' ↔ (c, m) ∈ taken) : CallFits que' place' taken' c call := by
  refine ⟨fun b hb => (hitem b (h.held b hb)).1, h.prio, ?_, ?_⟩
  · intro prio item data hcall
    obtain ⟨-, hnext, hdata⟩ := hitem item (h.held item (by rw [hcall]; rfl))
    rw [hnext, hdata]
    exact h.filled prio item data hcall
  · have htakes := h.takes
    rcases call with _ | call
    · exact fun m hm => htakes m ((htaken m).1 hm)
    · cases call with
      | unlinked item =>
        obtain ⟨m, hm, hdata⟩ := htakes
        exact ⟨m, fun m' => (htaken m').trans (hm m'), (hitem item (h.held item rfl)).2.2.trans hdata⟩
      | copied item data =>
        obtain ⟨m, hm, hdata⟩ := htakes
        exact ⟨m, fun m' => (htaken m').trans (hm m'), hdata⟩
      | alloc prio data time beforeSleep => exact fun m hm => htakes m ((htaken m).1 hm)
      | allocated prio item data => exact fun m hm => htakes m ((htaken m).1 hm)
      | filled prio item data => exact fun m hm => htakes m ((htaken m).1 hm)
      | wait timeout => exact fun m hm => htakes m ((htaken m).1 hm)

/-- The queue and the abstract queue: the data of the list of a priority are those of its items, in the order of arrival. -/
structure PqRel (s : PqState) (a : AbstractPq) (lists : Nat → List Nat) (place : Nat → Option Place) : Prop where
  order : PrioLists s.queue lists
  nodup : ∀ p, (lists p).Nodup
  queued : ∀ p, ∀ b ∈ lists p, place b = some (.queued p)
  word : ∀ b p, place b = some p → s.pool.word b = .pool
  data : ∀ p, (lists p).map s.queue.data = (a.waiting.filter fun i => i.prio = p).map PqItem.data
  taken : a.taken.Nodup
  calls : ∀ c, CallFits s.queue place a.taken c (s.call c)

/-- Who waits for an item sleeps in the abstract queue, and who comes back with an error is late there. -/
structure PqWaits (s : PqState) (a : AbstractPq) : Prop where
  nodup : s.suspendedPopList.Nodup
  asleep : ∀ t ∈ s.suspendedPopList, a.pop (.thread t) = .asleep
  late : ∀ t timeout, s.call (.thread t) = some (.wait timeout) → (s.pool.thread t).error ≠ .eok →
    (s.pool.thread t).error = .etimeout ∧ a.pop (.thread t) = .late

/-! ## What one step does -/

variable {a : AbstractPq} {place : Nat → Option Place} {taken : List (Caller × PqItem)} {call : PqCall} {pool pool' : MemPool}
  {result : MpResult}

theorem callFits_none (hidle : ∀ m, (c, m) ∉ taken) : CallFits que place taken c none :=
  ⟨fun _ h => absurd h.symm (Option.some_ne_none _), fun _ h => absurd h.symm (Option.some_ne_none _),
    fun _ _ _ h => absurd h.symm (Option.some_ne_none _), hidle⟩

theorem callFits_wait (hidle : ∀ m, (c, m) ∉ taken) : CallFits que place taken c (some (.wait timeout)) :=
  ⟨fun _ h => absurd h.symm (Option.some_ne_none _), fun _ h => absurd h.symm (Option.some_ne_none _),
    fun _ _ _ h => PqCall.noConfusion (Option.some.inj h), hidle⟩

theorem callFits_alloc {beforeSleep : BitVec 32} (hidle : ∀ m, (c, m) ∉ taken) (hprio : prio < 32) :
    CallFits que place taken c (some (.alloc prio data timeout beforeSleep)) :=
  ⟨fun _ h => absurd h.symm (Option.some_ne_none _), fun _ h => Option.some.inj h ▸ hprio,
    fun _ _ _ h => PqCall.noConfusion (Option.some.inj h), hidle⟩

theorem callFits_setCall {call : Option PqCall} (hcall : CallFits que place taken c call)
    (hothers : ∀ c' ≠ c, CallFits que place taken c' (s.call c')) :
    ∀ c', CallFits que place taken c' ((s.setCall c call).call c') := by
  intro c'
  by_cases hc : c' = c
  · subst hc
    simpa [PqState.setCall] using hcall
  · simpa [PqState.setCall, hc] using hothers c' hc

theorem PqRel.frame {a' : AbstractPq} (h : PqRel s a lists place) (hwaiting : a'.waiting = a.waiting)
    (htaken : a'.taken = a.taken) (hqueue : s'.queue = s.queue)
    (hword : ∀ b, s.pool.word b = .pool → s'.pool.word b = .pool)
    (hcalls : ∀ c, CallFits s.queue place a.taken c (s'.call c)) : PqRel s' a' lists place :=
  ⟨hqueue ▸ h.order, h.nodup, h.queued, fun b p hb => hword b (h.word b p hb), hwaiting ▸ hqueue ▸ h.data, htaken ▸ h.taken,
    htaken ▸ hqueue ▸ hcalls⟩

theorem PqRel.idle (h : PqRel s a lists place) (hcall : s.call c = none) : ∀ m, (c, m) ∉ a.taken := by
  have htakes := (h.calls c).takes
  rw [hcall] at htakes
  exact htakes

theorem ne_of_held {b : Nat} (hitem : place item = some (.held c)) (hc : c' ≠ c)
    (hb : place b = some (.held c')) : b ≠ item := by
  rintro rfl
  rw [hitem] at hb
  cases hb
  exact hc rfl

theorem PqRel.allocates (h : PqRel s a lists place) (hidle : ∀ m, (c, m) ∉ a.taken) (hprio : prio < 32)
    (heffect : AllocEffect s.pool c result pool) (data : List UInt8) :
    ∃ place', PqRel (s.allocates c prio data (result, pool)).1 a lists place' := by
  cases heffect with
  | @block block next hcount hlist hword =>
    have hunused : ∀ b p, place b = some p → b ≠ block := by
      rintro b p hp rfl
      rw [h.word b p hp] at hword
      cases hword
    refine ⟨update place block (some (.held c)), h.order, h.nodup, ?_, ?_, h.data, h.taken, ?_⟩
    · intro p b hb
      have hplace := h.queued p b hb
      rw [update_of_ne (hunused b _ hplace)]
      exact hplace
    · intro b p hb
      show update s.pool.word block .pool b = .pool
      by_cases heq : b = block
      · subst heq
        exact update_self ..
      · rw [update_of_ne heq] at hb ⊢
        exact h.word b p hb
    · refine callFits_setCall ⟨?_, ?_, ?_, hidle⟩ fun c' _ => ?_
      · intro b hb
        rw [← Option.some.inj hb]
        exact update_self ..
      · exact fun p hp => Option.some.inj hp ▸ hprio
      · exact fun _ _ _ h => PqCall.noConfusion (Option.some.inj h)
      · refine (h.calls c').congr (fun b hb => ⟨?_, rfl, rfl⟩) fun _ => Iff.rfl
        rw [update_of_ne (hunused b _ hb)]
        exact hb
  | null hsame _ _ =>
    refine ⟨place, h.frame rfl rfl rfl (fun b hb => ?_) (callFits_setCall (callFits_none hidle) fun c' _ => h.calls c')⟩
    show pool.word b = .pool
    rw [hsame.word]
    exact hb
  | wait _ _ =>
    exact ⟨place, h.frame rfl rfl rfl (fun b hb => hb) (callFits_setCall (callFits_alloc hidle hprio) fun c' _ => h.calls c')⟩

theorem PqRel.fill (h : PqRel s a lists place) (hcall : s.call c = some (.allocated prio item data)) :
    PqRel ({ s with queue := s.queue.fill item data }.setCall c (some (.filled prio item data))) a lists place := by
  have hfits := h.calls c
  rw [hcall] at hfits
  have hheld : place item = some (.held c) := hfits.held item rfl
  have hqueued : ∀ p, item ∉ lists p := by
    intro p hmem
    have hplace := h.queued p item hmem
    rw [hheld] at hplace
    cases hplace
  refine ⟨h.order.fill hqueued, h.nodup, h.queued, h.word, ?_, h.taken, ?_⟩
  · intro p
    rw [← h.data p]
    refine List.map_congr_left fun b hb => ?_
    exact update_of_ne (fun heq : b = item => hqueued p (heq ▸ hb)) ..
  · refine callFits_setCall ⟨hfits.held, hfits.prio, ?_, hfits.takes⟩ fun c' hc => ?_
    · intro prio' item' data' heq
      cases heq
      exact ⟨update_self .., update_self ..⟩
    · refine (h.calls c').congr (fun b hb => ?_) fun _ => Iff.rfl
      have hne := ne_of_held hheld hc hb
      exact ⟨hb, update_of_ne hne .., update_of_ne hne ..⟩

@[simp] theorem PqState.setCall_queue {call : Option PqCall} : (s.setCall c call).queue = s.queue := rfl

@[simp] theorem PqState.resumePop_queue : s.resumePop.queue = s.queue := by
  unfold PqState.resumePop
  split <;> rfl

@[simp] theorem PqState.resumePop_call : s.resumePop.call = s.call := by
  unfold PqState.resumePop
  split <;> rfl

@[simp] theorem PqState.resumePop_word : s.resumePop.pool.word = s.pool.word := by
  unfold PqState.resumePop
  split <;> rfl

theorem PqRel.pushLink (h : PqRel s a lists place) (hcall : s.call c = some (.filled prio item data)) :
    ∃ s' lists' place', pushLink s c prio item data = some (s', [.pushed c prio data]) ∧
      PqRel s' { a with count := a.count + 1, waiting := a.waiting ++ [⟨a.count, prio, data⟩] } lists' place' := by
  have hfits := h.calls c
  rw [hcall] at hfits
  have hheld : place item = some (.held c) := hfits.held item rfl
  obtain ⟨hend, hdata⟩ := hfits.filled prio item data rfl
  have hqueued : ∀ p, item ∉ lists p := by
    intro p hmem
    have hplace := h.queued p item hmem
    rw [hheld] at hplace
    cases hplace
  have hdisjoint : ∀ p ≠ prio, ∀ b ∈ lists p, b ∉ lists prio := by
    intro p hp b hb hb'
    have hplace := h.queued p b hb
    rw [h.queued prio b hb'] at hplace
    cases hplace
    exact hp rfl
  obtain ⟨que', hpush, horder, hkeep, hnext⟩ :=
    h.order.doPush (hfits.prio prio rfl) (h.nodup prio) hqueued hdisjoint hend
  refine ⟨_, update lists prio (lists prio ++ [item]), update place item (some (.queued prio)),
    by rw [RtThread.pushLink, hpush]; rfl, ?_⟩
  constructor
  · simpa [PqState.setCall] using horder
  · intro p
    by_cases hp : p = prio
    · subst hp
      rw [update_self]
      exact (List.nodup_append_comm.1 (List.nodup_cons.2 ⟨hqueued p, h.nodup p⟩))
    · rw [update_of_ne hp]
      exact h.nodup p
  · intro p b hb
    by_cases hp : p = prio
    · subst hp
      rw [update_self, List.mem_append, List.mem_singleton] at hb
      rcases hb with hb | rfl
      · rw [update_of_ne fun heq : b = item => hqueued p (heq ▸ hb)]
        exact h.queued p b hb
      · exact update_self ..
    · rw [update_of_ne hp] at hb
      rw [update_of_ne fun heq : b = item => hqueued p (heq ▸ hb)]
      exact h.queued p b hb
  · intro b p hb
    simp only [PqState.setCall, PqState.resumePop_word]
    by_cases heq : b = item
    · subst heq
      exact h.word b _ hheld
    · rw [update_of_ne heq] at hb
      exact h.word b p hb
  · intro p
    simp only [PqState.setCall, PqState.resumePop_queue, hkeep]
    rw [List.filter_append, List.map_append, ← h.data p]
    by_cases hp : p = prio
    · subst hp
      simp [hdata]
    · have hne : ¬ prio = p := fun heq => hp heq.symm
      simp [hp, hne]
  · exact h.taken
  · rw [PqState.setCall_queue, PqState.resumePop_queue]
    refine callFits_setCall (callFits_none hfits.takes) fun c' hc => ?_
    rw [PqState.resumePop_call]
    refine (h.calls c').congr (fun b hb => ?_) fun _ => Iff.rfl
    have hne := ne_of_held hheld hc hb
    refine ⟨by rw [update_of_ne hne]; exact hb, hnext b fun hmem => ?_, congrFun hkeep b⟩
    have hplace := h.queued prio b hmem
    rw [hb] at hplace
    cases hplace

/-- `c`, which does not wait for an item, goes on, and does not come to wait for one. -/
theorem PqWaits.goesOn {a' : AbstractPq} (h : PqWaits s a) (hc : ∀ t ∈ s.suspendedPopList, .thread t ≠ c)
    (hlist : s'.suspendedPopList.Sublist s.suspendedPopList) (hpop : ∀ c' ≠ c, a'.pop c' = a.pop c')
    (hcall : ∀ timeout, s'.call c ≠ some (.wait timeout)) (hcalls : ∀ c' ≠ c, s'.call c' = s.call c')
    (herror : ∀ t timeout, .thread t ≠ c → s.call (.thread t) = some (.wait timeout) →
      (s'.pool.thread t).error = (s.pool.thread t).error) : PqWaits s' a' := by
  refine ⟨h.nodup.sublist hlist, fun t ht => ?_, fun t timeout hwait hne => ?_⟩
  · rw [hpop _ (hc t (hlist.subset ht))]
    exact h.asleep t (hlist.subset ht)
  · have htc : .thread t ≠ c := by
      rintro rfl
      exact hcall timeout hwait
    rw [hcalls _ htc] at hwait
    rw [herror t timeout htc hwait] at hne ⊢
    rw [hpop _ htc]
    exact h.late t timeout hwait hne

theorem PqWaits.suspendPop (h : PqWaits s a) (hc : ∀ u ∈ s.suspendedPopList, Caller.thread u ≠ .thread t) (timer : Bool) :
    PqWaits (s.suspendPop t timeout timer) { a with pop := update a.pop (.thread t) .asleep } := by
  refine ⟨?_, fun u hu => ?_, fun u time hwait hne => ?_⟩
  · exact List.nodup_append_comm.1 (List.nodup_cons.2 ⟨fun ht => hc t ht rfl, h.nodup⟩)
  · rcases List.mem_append.1 hu with hu | hu
    · exact (update_of_ne (hc u hu) ..).trans (h.asleep u hu)
    · rw [List.mem_singleton.1 hu]
      exact update_self ..
  · by_cases hut : u = t
    · subst hut
      have hthread : (s.suspendPop u timeout timer).pool.thread u = { s.pool.thread u with error := .eok, timer } :=
        update_self ..
      rw [hthread] at hne
      exact absurd rfl hne
    · have hcall : Caller.thread u ≠ .thread t := fun heq => hut (Caller.thread.inj heq)
      have hthread : (s.suspendPop t timeout timer).pool.thread u = s.pool.thread u := update_of_ne hut ..
      rw [hthread] at hne ⊢
      obtain ⟨herror, hlate⟩ := h.late u time ((update_of_ne hcall ..).symm.trans hwait) hne
      exact ⟨herror, (update_of_ne hcall ..).trans hlate⟩

theorem PqRel.waiting_eq_nil (h : PqRel s a lists place) (hempty : ∀ p, lists p = []) : a.waiting = [] := by
  rw [List.eq_nil_iff_forall_not_mem]
  intro m hm
  have hdata := h.data m.prio
  rw [hempty, List.map_nil] at hdata
  have hfilter := List.map_eq_nil_iff.1 hdata.symm
  exact absurd (List.mem_filter.2 ⟨hm, decide_eq_true rfl⟩) (hfilter ▸ List.not_mem_nil)

theorem PqRel.popLoop (h : PqRel s a lists place) (hw : PqWaits s a) (hc : ∀ t ∈ s.suspendedPopList, .thread t ≠ c)
    (hidle : ∀ m, (c, m) ∉ a.taken) (hs : popLoop s c timeout = some (s', events)) :
    ∃ op' a' lists' place', stepAbstractPq a op' = some (a', events) ∧ PqRel s' a' lists' place' ∧ PqWaits s' a' := by
  unfold RtThread.popLoop at hs
  rcases h.order.doPop with ⟨hpop, hempty⟩ | ⟨p, item, rest, que', hlist, hlow, hpop, horder, hkeep, hnext⟩
  · rw [hpop] at hs
    dsimp only at hs
    by_cases hzero : timeout = 0
    · rw [if_pos hzero] at hs
      cases hs
      refine ⟨.fail c, _, lists, place, if_pos (.inl (h.waiting_eq_nil hempty)), ?_, ?_⟩
      · exact h.frame rfl rfl rfl (fun b hb => hb) (callFits_setCall (callFits_none hidle) fun c' _ => h.calls c')
      · exact hw.goesOn hc (.refl _) (fun c' hne => update_of_ne hne ..) (fun _ => by simp [PqState.setCall])
          (fun c' hne => update_of_ne hne ..) fun _ _ _ _ => rfl
    · rw [if_neg hzero] at hs
      cases c with
      | interrupt n => cases hs
      | thread t =>
        obtain ⟨timer, -, heq⟩ := Option.map_eq_some_iff.1 hs
        cases heq
        refine ⟨.sleep (.thread t), _, lists, place, if_pos (h.waiting_eq_nil hempty), ?_, ?_⟩
        · exact h.frame rfl rfl rfl (fun b hb => hb) (callFits_setCall (callFits_wait hidle) fun c' _ => h.calls c')
        · exact hw.suspendPop hc timer
  · rw [hpop] at hs
    cases hs
    have hfilter := h.data p
    rw [hlist, List.map_cons] at hfilter
    obtain ⟨m, tail, hwaiting, hm, htail⟩ := List.map_eq_cons_iff.1 hfilter.symm
    have hnone : ∀ q < p, a.waiting.filter (fun i => i.prio = q) = [] := by
      intro q hq
      have hdata := h.data q
      rw [hlow q hq, List.map_nil] at hdata
      exact List.map_eq_nil_iff.1 hdata.symm
    obtain ⟨older, younger, hsplit, holder, hyounger, hprio, hrest, hothers⟩ := exists_oldest hwaiting hnone
    have hqueued : place item = some (.queued p) := h.queued p item (hlist ▸ List.mem_cons_self ..)
    have hnodup := h.nodup p
    rw [hlist] at hnodup
    refine ⟨.take c older m younger, _, update lists p rest, update place item (some (.held c)),
      if_pos ⟨hsplit, holder, hyounger⟩, ?_, hw.goesOn hc (.refl _) (fun c' hne => update_of_ne hne ..)
        (fun _ => by simp [PqState.setCall]) (fun c' hne => update_of_ne hne ..) fun _ _ _ _ => rfl⟩
    constructor
    · exact horder
    · intro q
      by_cases hq : q = p
      · subst hq
        rw [update_self]
        exact (List.nodup_cons.1 hnodup).2
      · rw [update_of_ne hq]
        exact h.nodup q
    · intro q b hb
      by_cases hq : q = p
      · subst hq
        rw [update_self] at hb
        rw [update_of_ne fun heq : b = item => (List.nodup_cons.1 hnodup).1 (heq ▸ hb)]
        exact h.queued q b (hlist ▸ List.mem_cons_of_mem item hb)
      · rw [update_of_ne hq] at hb
        have hplace := h.queued q b hb
        have hne : b ≠ item := by
          rintro rfl
          rw [hqueued] at hplace
          cases hplace
          exact hq rfl
        rw [update_of_ne hne]
        exact hplace
    · intro b q hb
      by_cases heq : b = item
      · subst heq
        exact h.word b _ hqueued
      · rw [update_of_ne heq] at hb
        exact h.word b q hb
    · intro q
      simp only [PqState.setCall, hkeep]
      by_cases hq : q = p
      · subst hq
        rw [update_self, hrest, htail]
      · rw [update_of_ne hq, hothers q hq, h.data q]
    · exact List.nodup_cons.2 ⟨hidle m, h.taken⟩
    · refine callFits_setCall ⟨?_, fun _ hp => absurd hp.symm (Option.some_ne_none _),
        fun _ _ _ heq => PqCall.noConfusion (Option.some.inj heq), m, fun m' => ?_, (congrFun hkeep item).trans hm.symm⟩ fun c' hc => ?_
      · intro b hb
        rw [← Option.some.inj hb]
        exact update_self ..
      · simp [hidle m']
      · refine (h.calls c').congr (fun b hb => ⟨?_, congrFun hnext b, congrFun hkeep b⟩) fun m' => by simp [hc]
        have hne : b ≠ item := by
          rintro rfl
          rw [hqueued] at hb
          cases hb
        rw [update_of_ne hne]
        exact hb

theorem PqRel.copy (h : PqRel s a lists place) (hcall : s.call c = some (.unlinked item)) :
    PqRel (s.setCall c (some (.copied item (s.queue.data item)))) a lists place := by
  have hfits := h.calls c
  rw [hcall] at hfits
  exact h.frame rfl rfl rfl (fun b hb => hb) (callFits_setCall ⟨hfits.held, fun _ hp => absurd hp.symm (Option.some_ne_none _),
    fun _ _ _ heq => PqCall.noConfusion (Option.some.inj heq), hfits.takes⟩ fun c' _ => h.calls c')

theorem rtMpFree_word {block : Nat} (hs : rtMpFree pool block = some pool') : pool'.word = (pool.put block).word := by
  obtain ⟨-, ⟨-, rfl⟩ | ⟨-, hresume⟩⟩ := rtMpFree_cases hs
  · rfl
  · exact (MemPool.sameBlocks_resumeFirst hresume).word

theorem PqRel.popReturn (h : PqRel s a lists place) (hcall : s.call c = some (.copied item data))
    (hs : popReturn s c item data = some (s', events)) :
    ∃ op' a' place', stepAbstractPq a op' = some (a', events) ∧ PqRel s' a' lists place' ∧ a'.pop = a.pop := by
  have hfits := h.calls c
  rw [hcall] at hfits
  have hheld : place item = some (.held c) := hfits.held item rfl
  obtain ⟨m, hm, rfl⟩ := hfits.takes
  obtain ⟨pool', hfree, heq⟩ := Option.map_eq_some_iff.1 hs
  cases heq
  have htaken : (c, m) ∈ a.taken := (hm m).2 rfl
  refine ⟨.give c m, _, update place item none, if_pos htaken, ?_, rfl⟩
  have hqueued : ∀ p, ∀ b ∈ lists p, b ≠ item := by
    rintro p b hb rfl
    have hplace := h.queued p b hb
    rw [hheld] at hplace
    cases hplace
  constructor
  · exact h.order
  · exact h.nodup
  · intro p b hb
    rw [update_of_ne (hqueued p b hb)]
    exact h.queued p b hb
  · intro b p hb
    have hne : b ≠ item := by
      rintro rfl
      rw [update_self] at hb
      cases hb
    rw [update_of_ne hne] at hb
    show pool'.word b = .pool
    rw [rtMpFree_word hfree]
    exact (update_of_ne hne ..).trans (h.word b p hb)
  · exact h.data
  · exact h.taken.erase (c, m)
  · refine callFits_setCall (callFits_none fun m' hm' => ?_) fun c' hc => ?_
    · obtain ⟨hne, hmem⟩ := h.taken.mem_erase_iff.1 hm'
      exact hne (by rw [(hm m').1 hmem])
    · refine (h.calls c').congr (fun b hb => ⟨?_, rfl, rfl⟩) fun m' => ?_
      · rw [update_of_ne (ne_of_held hheld hc hb)]
        exact hb
      · rw [h.taken.mem_erase_iff]
        simp [hc]

end RtThread
