import RtThread.Lib.FirstFit
import RtThread.Mem.Blocks

/-!
# The pages of the slab heap

The page allocator of `slab.c`. A `struct rt_page_head` is as long as a page and stands at the beginning of one, so a pointer to it is kept as the number of the page, and `RT_NULL` as 0; a pointer the callers hold is an address. Addresses and sizes have 32 bits. A function whose `RT_ASSERT` fails, or whose loop does not come to an end, gives `none`. Both functions hold `heap_sem` while they use the list, so calls do not overlap.
-/

namespace RtThread

open Function FirstFit

def mmPageSize : Nat := 4096

/-- For `RT_ALIGN` to pages. -/
def pageConfig : MemConfig := ⟨false, false, 12, by decide⟩

/-- `struct rt_page_head` -/
structure PageHead where
  next : Nat
  page : Nat
  deriving DecidableEq

structure SlabPages where
  rtPageList : Nat
  head : Nat → PageHead

def pageAdd (b n : Nat) : Nat := (b + n) % 2 ^ 20

def countAdd (m n : Nat) : Nat := (m + n) % 2 ^ 32

namespace SlabPages

/-- What `prev` points to: `rt_page_list`, or the field `next` of a page head. -/
def link (s : SlabPages) : Option Nat → Nat
  | none => s.rtPageList
  | some b => (s.head b).next

def setHead (s : SlabPages) (b : Nat) (f : PageHead → PageHead) : SlabPages :=
  { s with head := update s.head b (f (s.head b)) }

def setLink (s : SlabPages) (prev : Option Nat) (n : Nat) : SlabPages :=
  match prev with
  | none => { s with rtPageList := n }
  | some b => s.setHead b fun h => { h with next := n }

end SlabPages

def pageRounds : Nat := 2 ^ 20

/-- The loop of `rt_page_alloc` from `prev` on: the list, and the page that is found or `RT_NULL`. -/
def pageAllocLoop (npages : Nat) : Nat → SlabPages → Option Nat → Option (SlabPages × Nat)
  | 0, _, _ => none
  | n + 1, s, prev =>
    let b := s.link prev
    if b = 0 then some (s, 0)
    else if npages < (s.head b).page then
      -- "splite pages"
      let new := pageAdd b npages
      let s := s.setHead new fun _ => ⟨(s.head b).next, (s.head b).page - npages⟩
      some (s.setLink prev new, b)
    else if (s.head b).page = npages then some (s.setLink prev (s.head b).next, b)
    else pageAllocLoop npages n s (some b)

def rtPageAlloc (s : SlabPages) (npages : Nat) : Option (SlabPages × Option Nat) :=
  if npages = 0 then some (s, none)
  else (pageAllocLoop npages pageRounds s none).map fun r => (r.1, if r.2 = 0 then none else some (r.2 * mmPageSize))

/-- The end of `rt_page_free`: the pages come before `b`. -/
def pageInsert (s : SlabPages) (prev : Option Nat) (n npages b : Nat) : SlabPages :=
  (s.setHead n fun _ => ⟨b, npages⟩).setLink prev n

/-- The pages come to the end of the run `b`, and the next run too where it begins there. -/
def pageJoin (s : SlabPages) (b npages : Nat) : SlabPages :=
  let s := s.setHead b fun h => { h with page := countAdd h.page npages }
  let next := (s.head b).next
  if pageAdd b (s.head b).page = next then
    s.setHead b fun h => ⟨(s.head next).next, countAdd h.page (s.head next).page⟩
  else s

/-- The loop of `rt_page_free` from `prev` on. -/
def pageFreeLoop (n npages : Nat) : Nat → SlabPages → Option Nat → Option SlabPages
  | 0, _, _ => none
  | k + 1, s, prev =>
    let b := s.link prev
    if b = 0 then some (pageInsert s prev n npages b)
    else if 0 < (s.head b).page ∧ (n < b ∨ pageAdd b (s.head b).page ≤ n) then
      if pageAdd b (s.head b).page = n then some (pageJoin s b npages)
      else if b = pageAdd n npages then
        let s := s.setHead n fun _ => ⟨(s.head b).next, countAdd (s.head b).page npages⟩
        some (s.setLink prev n)
      else if pageAdd n npages < b then some (pageInsert s prev n npages b)
      else pageFreeLoop n npages k s (some b)
    else none

def rtPageFree (s : SlabPages) (addr npages : Nat) : Option SlabPages :=
  if addr ≠ 0 ∧ addr % mmPageSize = 0 ∧ npages ≠ 0 then pageFreeLoop (addr / mmPageSize) npages pageRounds s none
  else none

def rtPageInit (head : Nat → PageHead) (addr npages : Nat) : Option SlabPages :=
  if addr ≠ 0 ∧ npages ≠ 0 then rtPageFree ⟨0, head⟩ addr npages else none

/-- The pages for `memusage`, of which an entry has four bytes. -/
def memusagePages (npages : Nat) : Nat := pageConfig.rtAlign (npages * 4) / mmPageSize

/-- `rt_system_heap_init` as far as it is about pages, on memory with the given contents: the pages, their number, and `memusage`. -/
def slabHeapInit (head : Nat → PageHead) (beginAddr endAddr : Nat) : Option (SlabPages × Nat × Option Nat) :=
  let heapStart := pageConfig.rtAlign beginAddr
  let heapEnd := pageConfig.rtAlignDown endAddr
  if heapEnd ≤ heapStart then none
  else
    let npages := (heapEnd - heapStart) / mmPageSize
    match rtPageInit head heapStart npages with
    | none => none
    | some s => (rtPageAlloc s (memusagePages npages)).map fun r => (r.1, npages, r.2)

/-! ## The allocator as a state machine -/

structure SlabState where
  pages : SlabPages
  allocated : Finset Nat

/-- What `rt_page_alloc` gives to the callers. -/
def givePages (allocated : Finset Nat) (npages : Nat) : Option Nat → Finset Nat
  | none => allocated
  | some addr => allocated ∪ Finset.Ico (addr / mmPageSize) (addr / mmPageSize + npages)

inductive SlabOp
  | alloc (npages : Nat)
  | free (addr npages : Nat)
  | write (b : Nat) (head : PageHead)

inductive SlabEvent
  | alloc (npages : Nat) (result : Option Nat)
  | free (addr npages : Nat)
  deriving DecidableEq

def SlabUse (s : SlabState) : SlabOp → Prop
  | .alloc _ => True
  | .free addr npages => addr % mmPageSize = 0 ∧ npages ≠ 0 ∧
      Finset.Ico (addr / mmPageSize) (addr / mmPageSize + npages) ⊆ s.allocated
  | .write b _ => b ∈ s.allocated

instance (s : SlabState) (op : SlabOp) : Decidable (SlabUse s op) := by
  cases op <;> unfold SlabUse <;> infer_instance

def stepSlab (s : SlabState) : SlabOp → Option (SlabState × List SlabEvent)
  | .alloc npages =>
    (rtPageAlloc s.pages npages).map fun r => (⟨r.1, givePages s.allocated npages r.2⟩, [.alloc npages r.2])
  | .free addr npages =>
    (rtPageFree s.pages addr npages).map fun pages =>
      (⟨pages, s.allocated \ Finset.Ico (addr / mmPageSize) (addr / mmPageSize + npages)⟩, [.free addr npages])
  | .write b head => some (⟨s.pages.setHead b fun _ => head, s.allocated⟩, [])

/-- After `rt_system_heap_init` the pages of `memusage` are allocated. -/
def SlabState.init (head : Nat → PageHead) (beginAddr endAddr : Nat) : Option SlabState :=
  (slabHeapInit head beginAddr endAddr).map fun r => ⟨r.1, givePages ∅ (memusagePages r.2.1) r.2.2⟩

abbrev SlabRun (s₀ : SlabState) : List SlabEvent → SlabState → Prop := Transition.Run stepSlab SlabUse s₀

/-! ## The list in memory -/

variable {s s' : SlabPages} {r : Run} {rs : List Run} {prev : Option Nat} {a b c lo n npages p : Nat}

def ListAt (s : SlabPages) : Nat → List Run → Prop
  | p, [] => p = 0
  | p, r :: rs => p = r.start ∧ r.start ≠ 0 ∧ (s.head r.start).page = r.len ∧ ListAt s (s.head r.start).next rs

theorem ListAt.congr (h : ListAt s p rs) (hhead : ∀ r ∈ rs, s'.head r.start = s.head r.start) : ListAt s' p rs := by
  induction rs generalizing p with
  | nil => exact h
  | cons r rs ih =>
    obtain ⟨hp, hnull, hpage, hrest⟩ := h
    have hsame := hhead r List.mem_cons_self
    refine ⟨hp, hnull, by rw [hsame, hpage], ?_⟩
    rw [hsame]
    exact ih hrest fun r' hr' => hhead r' (List.mem_cons_of_mem r hr')

namespace SlabPages

theorem setHead_head (s : SlabPages) (b c : Nat) (f : PageHead → PageHead) :
    (s.setHead b f).head c = if c = b then f (s.head b) else s.head c := update_apply ..

theorem setLink_some (s : SlabPages) (b n : Nat) : s.setLink (some b) n = s.setHead b fun h => { h with next := n } := rfl

theorem link_setLink (s : SlabPages) (prev : Option Nat) (n : Nat) : (s.setLink prev n).link prev = n := by
  cases prev with
  | none => rfl
  | some b =>
    show ((s.setLink (some b) n).head b).next = n
    rw [setLink_some, setHead_head, if_pos rfl]

theorem setLink_head (s : SlabPages) (n : Nat) (hc : prev ≠ some c) : (s.setLink prev n).head c = s.head c := by
  cases prev with
  | none => rfl
  | some b =>
    rw [setLink_some, setHead_head, if_neg fun heq => hc (by rw [heq])]

/-- Below `lo` nothing has changed but what `prev` points to. -/
structure Frame (lo : Nat) (prev : Option Nat) (s s' : SlabPages) : Prop where
  page : ∀ c < lo, (s'.head c).page = (s.head c).page
  next : ∀ c < lo, prev ≠ some c → (s'.head c).next = (s.head c).next
  list : prev ≠ none → s'.rtPageList = s.rtPageList

theorem Frame.trans {s'' : SlabPages} (h : Frame lo prev s s') (h' : Frame lo prev s' s'') : Frame lo prev s s'' :=
  ⟨fun c hc => (h'.page c hc).trans (h.page c hc), fun c hc hne => (h'.next c hc hne).trans (h.next c hc hne),
    fun hne => (h'.list hne).trans (h.list hne)⟩

theorem frame_setHead (s : SlabPages) (prev : Option Nat) (f : PageHead → PageHead) (hlo : lo ≤ b) :
    Frame lo prev s (s.setHead b f) := by
  have hsame : ∀ c < lo, (s.setHead b f).head c = s.head c := fun c hc => by
    rw [setHead_head, if_neg (by omega)]
  exact ⟨fun c hc => by rw [hsame c hc], fun c hc _ => by rw [hsame c hc], fun _ => rfl⟩

theorem frame_setLink (s : SlabPages) (lo : Nat) (prev : Option Nat) (n : Nat) : Frame lo prev s (s.setLink prev n) := by
  refine ⟨fun c _ => ?_, fun c _ hne => by rw [setLink_head s n hne], fun hne => ?_⟩
  · by_cases hc : prev = some c
    · rw [hc, setLink_some, setHead_head, if_pos rfl]
    · rw [setLink_head s n hc]
  · cases prev with
    | none => exact absurd rfl hne
    | some b => rfl

theorem Frame.behind {hi : Nat} (h : Frame hi (some b) s s') (hprev : ∀ c ∈ prev, c < lo) (hlo : lo ≤ b) (hhi : b < hi) :
    Frame lo prev s s' ∧ s'.link prev = s.link prev ∧ (s'.head b).page = (s.head b).page := by
  refine ⟨⟨fun c hc => h.page c (by omega), fun c hc _ => h.next c (by omega) ?_, fun _ => h.list (Option.some_ne_none b)⟩,
    ?_, h.page b hhi⟩
  · intro heq
    have := Option.some.inj heq
    omega
  · cases prev with
    | none => exact h.list (Option.some_ne_none b)
    | some c =>
      have hc := hprev c rfl
      exact h.next c (by omega) fun heq => by
        have := Option.some.inj heq
        omega

end SlabPages

open SlabPages

theorem pageAllocLoop_spec {k : Nat} (hlist : ListAt s (s.link prev) rs) (hrs : Separate lo rs) (hprev : ∀ b ∈ prev, b < lo)
    (hfin : ∀ r ∈ rs, r.start + r.len < 2 ^ 20) (hn : 0 < n) (hk : rs.length < k) :
    (take n rs = none ∧ pageAllocLoop n k s prev = some (s, 0)) ∨
      ∃ b rs' s', take n rs = some (b, rs') ∧ b ≠ 0 ∧ pageAllocLoop n k s prev = some (s', b) ∧
        ListAt s' (s'.link prev) rs' ∧ Frame lo prev s s' := by
  induction rs generalizing k prev lo with
  | nil =>
    obtain ⟨k, rfl⟩ := Nat.exists_eq_add_one_of_ne_zero (Nat.ne_of_gt hk)
    refine .inl ⟨rfl, ?_⟩
    rw [pageAllocLoop]
    exact if_pos hlist
  | cons r rs ih =>
    obtain ⟨k, rfl⟩ := Nat.exists_eq_add_one_of_ne_zero (Nat.ne_of_gt (Nat.zero_lt_of_lt hk))
    obtain ⟨hp, hnull, hpage, hrest⟩ := hlist
    obtain ⟨hlo, hlen, hbehind⟩ := hrs
    have hbound := hfin r List.mem_cons_self
    rw [pageAllocLoop, hp]
    dsimp only
    rw [if_neg hnull, hpage, take]
    split_ifs with hlong hexact
    · have hnew : pageAdd r.start n = r.start + n := Nat.mod_eq_of_lt (by omega)
      rw [hnew]
      refine .inr ⟨r.start, _, _, rfl, hnull, rfl, ?_, ?_⟩
      · have hcell : ∀ c, r.start ≤ c → prev ≠ some c := fun c hc heq => by
          have := hprev c heq
          omega
        rw [link_setLink]
        refine ⟨rfl, by dsimp only; omega, ?_, ?_⟩
        · dsimp only
          rw [setLink_head _ _ (hcell _ (Nat.le_add_right ..)), setHead_head, if_pos rfl]
        · dsimp only
          rw [setLink_head _ _ (hcell _ (Nat.le_add_right ..)), setHead_head, if_pos rfl]
          refine hrest.congr fun r' hr' => ?_
          have hstart := (hbehind.bounds hr').1
          rw [setLink_head _ _ (hcell _ (by omega)), setHead_head, if_neg (by omega)]
      · exact (frame_setHead s prev _ (by omega)).trans (frame_setLink _ lo prev _)
    · refine .inr ⟨r.start, _, _, rfl, hnull, rfl, ?_, frame_setLink s lo prev _⟩
      rw [link_setLink]
      refine hrest.congr fun r' hr' => setLink_head _ _ fun heq => ?_
      have hstart := (hbehind.bounds hr').1
      have := hprev _ heq
      omega
    · have hprev' : ∀ b ∈ some r.start, b < r.start + r.len + 1 := fun b hb => by
        obtain rfl := Option.some.inj hb
        omega
      have hrest : ListAt s (s.link (some r.start)) rs := hrest
      rcases ih hrest hbehind hprev' (fun r' hr' => hfin r' (List.mem_cons_of_mem r hr'))
        (Nat.lt_of_succ_lt_succ hk) with ⟨hnone, hloop⟩ | ⟨b, rs', s', htake, hb, hloop, hlist', hframe⟩
      · exact .inl ⟨by rw [hnone, Option.map_none], hloop⟩
      · obtain ⟨hframe', hlink, hpage'⟩ := hframe.behind hprev hlo (by omega)
        refine .inr ⟨b, r :: rs', s', by rw [htake, Option.map_some], hb, hloop, ?_, hframe'⟩
        exact ⟨hlink.trans hp, hnull, hpage'.trans hpage, hlist'⟩

theorem ListAt.enter (len : Nat) (hlist : ListAt s p rs) (hprev : ∀ b ∈ prev, b < lo) (hlo : lo ≤ a) (ha : a ≠ 0)
    (hrs : ∀ r ∈ rs, a < r.start) :
    ListAt ((s.setHead a fun _ => ⟨p, len⟩).setLink prev a) (((s.setHead a fun _ => ⟨p, len⟩).setLink prev a).link prev)
        (⟨a, len⟩ :: rs) ∧ Frame lo prev s ((s.setHead a fun _ => ⟨p, len⟩).setLink prev a) := by
  have hcell : ∀ c, a ≤ c → prev ≠ some c := fun c hc heq => by
    have := hprev c heq
    omega
  have hhead : ((s.setHead a fun _ => ⟨p, len⟩).setLink prev a).head a = ⟨p, len⟩ := by
    rw [setLink_head _ _ (hcell a (Nat.le_refl a)), setHead_head, if_pos rfl]
  refine ⟨?_, (frame_setHead s prev _ hlo).trans (frame_setLink _ lo prev a)⟩
  rw [link_setLink]
  refine ⟨rfl, ha, by rw [hhead], ?_⟩
  rw [hhead]
  refine hlist.congr fun r hr => ?_
  have hlt := hrs r hr
  rw [setLink_head _ _ (hcell _ hlt.le), setHead_head, if_neg (by omega)]

theorem ListAt.rewrite {next len : Nat} (hlist : ListAt s next rs) (hp : s.link prev = b) (hb : b ≠ 0) (hprev : prev ≠ some b)
    (hrs : ∀ r ∈ rs, b < r.start) :
    ListAt (s.setHead b fun _ => ⟨next, len⟩) ((s.setHead b fun _ => ⟨next, len⟩).link prev) (⟨b, len⟩ :: rs) := by
  have hhead : (s.setHead b fun _ => ⟨next, len⟩).head b = ⟨next, len⟩ := by rw [setHead_head, if_pos rfl]
  refine ⟨?_, hb, by rw [hhead], ?_⟩
  · cases prev with
    | none => exact hp
    | some c =>
      show ((s.setHead b _).head c).next = b
      rw [setHead_head, if_neg fun heq => hprev (by rw [heq])]
      exact hp
  · rw [hhead]
    refine hlist.congr fun r hr => ?_
    have hlt := hrs r hr
    rw [setHead_head, if_neg (by omega)]

theorem SlabPages.setHead_setHead (s : SlabPages) (b : Nat) (f g : PageHead → PageHead) :
    (s.setHead b f).setHead b g = s.setHead b fun h => g (f h) := by
  unfold setHead
  dsimp only
  rw [update_self, update_idem]

theorem ListAt.pageJoin (hlist : ListAt s p (r :: rs)) (hp : s.link prev = p) (hprev : prev ≠ some r.start)
    (hlo : lo ≤ r.start) (hrs : Separate (r.start + r.len + n) rs) (hlen : 0 < r.len) (hbound : r.start + r.len + n < 2 ^ 20)
    (hfin : ∀ r' ∈ rs, r'.start + r'.len < 2 ^ 20) :
    ListAt (pageJoin s r.start n) ((RtThread.pageJoin s r.start n).link prev) (joinNext r.start (r.len + n) rs) ∧
      Frame lo prev s (RtThread.pageJoin s r.start n) := by
  obtain ⟨rfl, hnull, hpage, hrest⟩ := hlist
  have hstarts : ∀ r' ∈ rs, r.start < r'.start := fun r' hr' => by
    have := (hrs.bounds hr').1
    omega
  have hcount : countAdd r.len n = r.len + n := Nat.mod_eq_of_lt (by omega)
  have hend : pageAdd r.start (r.len + n) = r.start + (r.len + n) := Nat.mod_eq_of_lt (by omega)
  have hfirst : s.setHead r.start (fun h => { h with page := countAdd h.page n }) =
      s.setHead r.start fun _ => ⟨(s.head r.start).next, r.len + n⟩ := by
    unfold setHead
    dsimp only
    rw [hpage, hcount]
  have hhead : (s.setHead r.start fun _ => ⟨(s.head r.start).next, r.len + n⟩).head r.start =
      ⟨(s.head r.start).next, r.len + n⟩ := by rw [setHead_head, if_pos rfl]
  unfold RtThread.pageJoin
  rw [hfirst]
  dsimp only
  rw [hhead]
  dsimp only
  rw [hend, setHead_setHead]
  dsimp only
  cases rs with
  | nil =>
    have hnone : (s.head r.start).next = 0 := hrest
    rw [if_neg (by omega)]
    exact ⟨hrest.rewrite hp hnull hprev hstarts, frame_setHead s prev _ hlo⟩
  | cons r' rs =>
    have hne : r'.start ≠ r.start := (hstarts r' List.mem_cons_self).ne'
    have hbound' := hfin r' List.mem_cons_self
    rw [hrest.1, joinNext]
    split_ifs with hjoin
    · obtain ⟨-, -, hpage', hrest'⟩ := hrest
      have hcount' : countAdd (r.len + n) r'.len = r.len + n + r'.len := Nat.mod_eq_of_lt (by omega)
      rw [setHead_head, if_neg hne, hpage', hcount']
      exact ⟨hrest'.rewrite hp hnull hprev fun r'' hr'' => hstarts r'' (List.mem_cons_of_mem r' hr''),
        frame_setHead s prev _ hlo⟩
    · rw [← hrest.1]
      exact ⟨hrest.rewrite hp hnull hprev hstarts, frame_setHead s prev _ hlo⟩

theorem pageFreeLoop_spec {k : Nat} (hlist : ListAt s (s.link prev) rs) (hrs : Separate lo rs) (hprev : ∀ b ∈ prev, b < lo)
    (hfin : ∀ r ∈ rs, r.start + r.len < 2 ^ 20) (hlo : lo ≤ a) (ha : a ≠ 0) (hn : 0 < n) (hafin : a + n < 2 ^ 20)
    (hapart : ∀ c, Covers rs c → c < a ∨ a + n ≤ c) (hk : rs.length < k) :
    ∃ s', pageFreeLoop a n k s prev = some s' ∧ ListAt s' (s'.link prev) (put a n rs) ∧ Frame lo prev s s' := by
  induction rs generalizing k prev lo with
  | nil =>
    obtain ⟨k, rfl⟩ := Nat.exists_eq_add_one_of_ne_zero (Nat.ne_of_gt hk)
    have hnull : s.link prev = 0 := hlist
    obtain ⟨hlist', hframe⟩ := ListAt.enter n hlist hprev hlo ha (by nofun)
    refine ⟨_, ?_, hlist', hframe⟩
    rw [pageFreeLoop]
    exact if_pos hnull
  | cons r rs ih =>
    obtain ⟨k, rfl⟩ := Nat.exists_eq_add_one_of_ne_zero (Nat.ne_of_gt (Nat.zero_lt_of_lt hk))
    have hwhole := hlist
    obtain ⟨hp, hnull, hpage, hrest⟩ := hlist
    obtain ⟨hfirst, hlen, hbehind⟩ := hrs
    have hbound := hfin r List.mem_cons_self
    have hhead := hapart r.start (covers_cons.2 (.inl ⟨Nat.le_refl _, by omega⟩))
    have hself : ¬ (r.start ≤ a ∧ a < r.start + r.len) := fun hc => by
      have := hapart a (covers_cons.2 (.inl hc))
      omega
    have hstarts : ∀ r' ∈ rs, r.start < r'.start := fun r' hr' => by
      have := (hbehind.bounds hr').1
      omega
    have hcell : prev ≠ some r.start := fun heq => by
      have := hprev _ heq
      omega
    have hend : pageAdd r.start r.len = r.start + r.len := Nat.mod_eq_of_lt hbound
    have hnew : pageAdd a n = a + n := Nat.mod_eq_of_lt hafin
    rw [pageFreeLoop, hp]
    dsimp only
    rw [if_neg hnull, hpage, hend, hnew, if_pos ⟨hlen, by omega⟩, put]
    split_ifs with hbefore hbehind' hbelow
    · have hgap : Separate (r.start + r.len + n) rs := by
        cases rs with
        | nil => trivial
        | cons r' rs =>
          obtain ⟨hstart, hlen', hrest'⟩ := hbehind
          have := hapart r'.start (covers_cons.2 (.inr (covers_cons.2 (.inl ⟨Nat.le_refl _, by omega⟩))))
          exact ⟨by omega, hlen', hrest'⟩
      obtain ⟨hlist', hframe⟩ := hwhole.pageJoin rfl hcell hfirst hgap hlen (by omega)
        fun r' hr' => hfin r' (List.mem_cons_of_mem r hr')
      exact ⟨_, rfl, hlist', hframe⟩
    · have hcount : countAdd r.len n = r.len + n := Nat.mod_eq_of_lt (by omega)
      rw [hcount]
      obtain ⟨hlist', hframe⟩ := ListAt.enter (r.len + n) hrest hprev hlo ha fun r' hr' => by
        have := hstarts r' hr'
        omega
      exact ⟨_, rfl, hlist', hframe⟩
    · have hstarts' : ∀ r' ∈ r :: rs, a < r'.start := fun r' hr' => by
        rcases List.mem_cons.1 hr' with rfl | hr'
        · omega
        · have := hstarts r' hr'
          omega
      rw [← hp]
      obtain ⟨hlist', hframe⟩ := ListAt.enter n hwhole hprev hlo ha hstarts'
      exact ⟨_, rfl, hlist', hframe⟩
    · have hprev' : ∀ b ∈ some r.start, b < r.start + r.len + 1 := fun b hb => by
        obtain rfl := Option.some.inj hb
        omega
      have hrest : ListAt s (s.link (some r.start)) rs := hrest
      obtain ⟨s', hloop, hlist', hframe⟩ := ih hrest hbehind hprev'
        (fun r' hr' => hfin r' (List.mem_cons_of_mem r hr')) (by omega)
        (fun c hc => hapart c (covers_cons.2 (.inr hc))) (Nat.lt_of_succ_lt_succ hk)
      obtain ⟨hframe', hlink, hpage'⟩ := hframe.behind hprev hfirst (by omega)
      exact ⟨s', hloop, ⟨hlink.trans hp, hnull, hpage'.trans hpage, hlist'⟩, hframe'⟩

end RtThread
