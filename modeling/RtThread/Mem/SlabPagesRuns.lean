import RtThread.Mem.SlabPages

/-!
# Every run of the page allocator

The free pages are listed in order and completely joined, and with the allocated pages they are the pages of the heap, each once.
-/

namespace RtThread

open FirstFit SlabPages

variable {s s' : SlabPages} {rs : List Run} {first fin k n p npages addr : Nat} {t t' : SlabState} {op : SlabOp}
  {events trace : List SlabEvent} {head : Nat → PageHead} {beginAddr endAddr : Nat} {allocated : Finset Nat} {result : Option Nat}

def runsFrom (s : SlabPages) : Nat → Nat → List Run
  | 0, _ => []
  | n + 1, p => if p = 0 then [] else ⟨p, (s.head p).page⟩ :: runsFrom s n (s.head p).next

def freeRuns (s : SlabPages) : List Run := runsFrom s pageRounds s.rtPageList

theorem ListAt.runsFrom_eq (h : ListAt s p rs) (hn : rs.length < n) : runsFrom s n p = rs := by
  induction rs generalizing n p with
  | nil =>
    obtain ⟨n, rfl⟩ := Nat.exists_eq_add_one_of_ne_zero (Nat.ne_of_gt hn)
    exact if_pos h
  | cons r rs ih =>
    obtain ⟨n, rfl⟩ := Nat.exists_eq_add_one_of_ne_zero (Nat.ne_of_gt (Nat.zero_lt_of_lt hn))
    obtain ⟨rfl, hnull, hpage, hrest⟩ := h
    rw [runsFrom, if_neg hnull, hpage, ih hrest (Nat.lt_of_succ_lt_succ hn)]

/-- What the runs keep: the list holds the free pages of the heap, which has the pages from `first` up to `fin`. -/
structure PagesInv (first fin : Nat) (s : SlabPages) (allocated : Finset Nat) (rs : List Run) : Prop where
  pos : 0 < first
  lt : fin < 2 ^ 20
  list : ListAt s s.rtPageList rs
  separate : Separate first rs
  all : ∀ k, Covers rs k ∨ k ∈ allocated ↔ first ≤ k ∧ k < fin
  apart : ∀ k, Covers rs k → k ∉ allocated

namespace PagesInv

theorem fin_le (h : PagesInv first fin s allocated rs) {r : Run} (hr : r ∈ rs) : r.start + r.len ≤ fin := by
  have hlen := (h.separate.bounds hr).2
  have hlast := (h.all (r.start + r.len - 1)).1 (.inl ⟨r, hr, by omega, by omega⟩)
  omega

theorem length_lt (h : PagesInv first fin s allocated rs) : rs.length < pageRounds := by
  have hstart : ∀ r ∈ rs, r.start < fin := fun r hr => by
    have := h.fin_le hr
    have := (h.separate.bounds hr).2
    omega
  have hle := h.separate.length_le hstart
  have hlt := h.lt
  unfold pageRounds
  omega

theorem alloc (h : PagesInv first fin s allocated rs) (npages : Nat) :
    ∃ s' result rs', rtPageAlloc s npages = some (s', result) ∧ PagesInv first fin s' (givePages allocated npages result) rs' ∧
      ∀ addr ∈ result, mmPageSize ∣ addr ∧ 0 < npages ∧ ∀ k, addr / mmPageSize ≤ k → k < addr / mmPageSize + npages → k ∉ allocated := by
  unfold rtPageAlloc
  split_ifs with hzero
  · exact ⟨s, none, rs, rfl, h, by nofun⟩
  · have hlt := h.lt
    have hlist : ListAt s (s.link none) rs := h.list
    rcases pageAllocLoop_spec hlist h.separate (by nofun) (fun r hr => Nat.lt_of_le_of_lt (h.fin_le hr) hlt)
      (Nat.pos_of_ne_zero hzero) h.length_lt with ⟨-, hloop⟩ | ⟨b, rs', s', htake, hb, hloop, hlist', -⟩
    · exact ⟨s, none, rs, by rw [hloop, Option.map_some, if_pos rfl], h, by nofun⟩
    · obtain ⟨hkept, -, hcovers, hgone⟩ := h.separate.take (Nat.pos_of_ne_zero hzero) htake
      have hpage : b * mmPageSize / mmPageSize = b := Nat.mul_div_cancel b (by decide)
      refine ⟨s', some (b * mmPageSize), rs', by rw [hloop, Option.map_some, if_neg hb], ⟨h.pos, hlt, hlist', hkept,
        fun k => ?_, fun k hk hin => ?_⟩, fun addr haddr => ?_⟩
      · rw [← h.all k, hcovers, givePages, hpage, Finset.mem_union, Finset.mem_Ico]
        tauto
      · rw [givePages, hpage, Finset.mem_union, Finset.mem_Ico] at hin
        rcases hin with hin | hin
        · exact h.apart k ((hcovers k).2 (.inl hk)) hin
        · have := hgone k hk
          omega
      · obtain rfl := Option.some.inj haddr
        rw [hpage]
        exact ⟨Nat.dvd_mul_left .., Nat.pos_of_ne_zero hzero, fun k hlow hhigh => h.apart k ((hcovers k).2 (.inr ⟨hlow, hhigh⟩))⟩

theorem alloc_result (h : PagesInv first fin s allocated rs) (hn : npages ≠ 0) (halloc : rtPageAlloc s npages = some (s', result)) :
    result = ((freeRuns s).find? fun r => npages ≤ r.len).map fun r => r.start * mmPageSize := by
  have hlt := h.lt
  have hlist : ListAt s (s.link none) rs := h.list
  have hfree : freeRuns s = rs := h.list.runsFrom_eq h.length_lt
  have hstart := take_start npages rs
  rw [rtPageAlloc, if_neg hn] at halloc
  rw [hfree]
  rcases pageAllocLoop_spec hlist h.separate (by nofun) (fun r hr => Nat.lt_of_le_of_lt (h.fin_le hr) hlt)
    (Nat.pos_of_ne_zero hn) h.length_lt with ⟨htake, hloop⟩ | ⟨b, rs', s'', htake, hb, hloop, -, -⟩
  · rw [hloop, Option.map_some, if_pos rfl] at halloc
    rw [htake, Option.map_none] at hstart
    rw [← (Prod.mk.inj (Option.some.inj halloc)).2, Option.map_eq_none_iff.mp hstart.symm, Option.map_none]
  · rw [hloop, Option.map_some, if_neg hb] at halloc
    rw [htake, Option.map_some] at hstart
    obtain ⟨r, hr, hrb⟩ := Option.map_eq_some_iff.mp hstart.symm
    rw [← (Prod.mk.inj (Option.some.inj halloc)).2, hr, Option.map_some, hrb]

theorem free (h : PagesInv first fin s allocated rs) (haddr : addr % mmPageSize = 0) (hn : npages ≠ 0)
    (hheld : Finset.Ico (addr / mmPageSize) (addr / mmPageSize + npages) ⊆ allocated) :
    ∃ s' rs', rtPageFree s addr npages = some s' ∧
      PagesInv first fin s' (allocated \ Finset.Ico (addr / mmPageSize) (addr / mmPageSize + npages)) rs' := by
  have hlt := h.lt
  have hpos := h.pos
  have hheap : ∀ k, addr / mmPageSize ≤ k → k < addr / mmPageSize + npages → first ≤ k ∧ k < fin := fun k hlow hhigh =>
    (h.all k).1 (.inr (hheld (Finset.mem_Ico.2 ⟨hlow, hhigh⟩)))
  have hlow := hheap (addr / mmPageSize) (Nat.le_refl _) (by omega)
  have hhigh := hheap (addr / mmPageSize + npages - 1) (by omega) (by omega)
  have hnull : addr ≠ 0 := by
    rintro rfl
    rw [Nat.zero_div] at hlow
    omega
  have hapart : ∀ k, Covers rs k → k < addr / mmPageSize ∨ addr / mmPageSize + npages ≤ k := fun k hk => by
    by_contra hin
    exact h.apart k hk (hheld (Finset.mem_Ico.2 ⟨by omega, by omega⟩))
  have hlist : ListAt s (s.link none) rs := h.list
  obtain ⟨s', hloop, hlist', -⟩ := pageFreeLoop_spec hlist h.separate (by nofun)
    (fun r hr => Nat.lt_of_le_of_lt (h.fin_le hr) hlt) hlow.1 (by omega) (Nat.pos_of_ne_zero hn) (by omega) hapart h.length_lt
  obtain ⟨hkept, hcovers⟩ := h.separate.put hlow.1 (Nat.pos_of_ne_zero hn) hapart
  refine ⟨s', _, (if_pos ⟨hnull, haddr, hn⟩).trans hloop, hpos, hlt, hlist', hkept, fun k => ?_, fun k hk hin => ?_⟩
  · rw [← h.all k, hcovers, Finset.mem_sdiff, Finset.mem_Ico]
    have hback : addr / mmPageSize ≤ k ∧ k < addr / mmPageSize + npages → k ∈ allocated := fun hk =>
      hheld (Finset.mem_Ico.2 hk)
    tauto
  · obtain ⟨hin, hout⟩ := Finset.mem_sdiff.1 hin
    rcases (hcovers k).1 hk with hk | hk
    · exact h.apart k hk hin
    · exact hout (Finset.mem_Ico.2 hk)

theorem write (h : PagesInv first fin s allocated rs) {b : Nat} (hb : b ∈ allocated) (f : PageHead → PageHead) :
    PagesInv first fin (s.setHead b f) allocated rs := by
  refine ⟨h.pos, h.lt, h.list.congr fun r hr => ?_, h.separate, h.all, h.apart⟩
  have hlen := (h.separate.bounds hr).2
  rw [setHead_head, if_neg]
  rintro rfl
  exact h.apart _ ⟨r, hr, Nat.le_refl _, by omega⟩ hb

theorem step (h : PagesInv first fin t.pages t.allocated rs) (hok : SlabUse t op) :
    ∃ t' events rs', stepSlab t op = some (t', events) ∧ PagesInv first fin t'.pages t'.allocated rs' := by
  cases op with
  | alloc npages =>
    obtain ⟨s', result, rs', halloc, hinv, -⟩ := h.alloc npages
    exact ⟨_, _, rs', by rw [stepSlab, halloc, Option.map_some], hinv⟩
  | free addr npages =>
    obtain ⟨s', rs', hfree, hinv⟩ := h.free hok.1 hok.2.1 hok.2.2
    exact ⟨_, _, rs', by rw [stepSlab, hfree, Option.map_some], hinv⟩
  | write b head => exact ⟨_, _, rs, rfl, h.write hok fun _ => head⟩

end PagesInv

def heapPages (beginAddr endAddr : Nat) : Nat × Nat :=
  (pageConfig.rtAlign beginAddr / mmPageSize, pageConfig.rtAlignDown endAddr / mmPageSize)

theorem rtPageInit_inv (hinit : rtPageInit head addr npages = some s) (hfin : addr / mmPageSize + npages < 2 ^ 20) :
    PagesInv (addr / mmPageSize) (addr / mmPageSize + npages) s ∅ [⟨addr / mmPageSize, npages⟩] := by
  unfold rtPageInit rtPageFree at hinit
  split_ifs at hinit with hgiven haligned
  obtain ⟨hnull, haddr, hn⟩ := haligned
  have hpos : 0 < addr / mmPageSize := by
    refine Nat.div_pos (Nat.le_of_dvd (Nat.pos_of_ne_zero hnull) (Nat.dvd_of_mod_eq_zero haddr)) (by decide)
  have hlist : ListAt ⟨0, head⟩ (link ⟨0, head⟩ none) [] := rfl
  have hempty : Separate (addr / mmPageSize) [] := trivial
  obtain ⟨s', hloop, hlist', -⟩ := pageFreeLoop_spec hlist hempty (by nofun) (by nofun) (Nat.le_refl _) hpos.ne'
    (Nat.pos_of_ne_zero hn) hfin (fun c hc => absurd hc covers_nil) (show [].length < pageRounds by decide)
  obtain rfl := Option.some.inj (hloop.symm.trans hinit)
  refine ⟨hpos, hfin, hlist', ⟨Nat.le_refl _, Nat.pos_of_ne_zero hn, trivial⟩, fun k => ?_, fun k _ => Finset.notMem_empty k⟩
  rw [covers_cons, or_iff_left covers_nil, or_iff_left (Finset.notMem_empty k)]

theorem pagesInv_init (hend : endAddr < 2 ^ 32) (hinit : SlabState.init head beginAddr endAddr = some t) :
    ∃ rs, PagesInv (heapPages beginAddr endAddr).1 (heapPages beginAddr endAddr).2 t.pages t.allocated rs := by
  obtain ⟨⟨s, npages, result⟩, hheap, rfl⟩ := Option.map_eq_some_iff.1 hinit
  unfold slabHeapInit at hheap
  dsimp only at hheap
  split_ifs at hheap with hempty
  split at hheap
  · cases hheap
  · next s₀ hpages =>
    obtain ⟨⟨s', result'⟩, halloc, heq⟩ := Option.map_eq_some_iff.1 hheap
    obtain ⟨rfl, rfl, rfl⟩ : s' = s ∧ _ = npages ∧ result' = result := by simpa using heq
    have hstart : mmPageSize ∣ pageConfig.rtAlign beginAddr := pageConfig.rtAlign_dvd beginAddr
    have hfin : mmPageSize ∣ pageConfig.rtAlignDown endAddr := pageConfig.rtAlignDown_dvd endAddr
    have hle := pageConfig.rtAlignDown_le endAddr
    have hsum : pageConfig.rtAlign beginAddr / mmPageSize +
        (pageConfig.rtAlignDown endAddr - pageConfig.rtAlign beginAddr) / mmPageSize =
          pageConfig.rtAlignDown endAddr / mmPageSize := by
      unfold mmPageSize at hstart hfin ⊢
      omega
    have hlt : pageConfig.rtAlignDown endAddr / mmPageSize < 2 ^ 20 := by
      unfold mmPageSize
      omega
    have h := rtPageInit_inv hpages (by omega)
    rw [hsum] at h
    obtain ⟨s'', result, rs, halloc', hinv, -⟩ := h.alloc _
    obtain ⟨rfl, rfl⟩ := Prod.mk.inj (Option.some.inj (halloc'.symm.trans halloc))
    exact ⟨rs, hinv⟩

/-- In every run: the free page list is in order, no run in it is empty or touches the next one, and the pages of the heap are the free pages and the allocated pages, none of which is free. And the next call returns. -/
theorem freeRuns_of_run (hend : endAddr < 2 ^ 32) (hinit : SlabState.init head beginAddr endAddr = some t)
    (hrun : SlabRun t trace t') :
    (freeRuns t'.pages).Pairwise (fun r r' => r.start + r.len < r'.start) ∧ (∀ r ∈ freeRuns t'.pages, 0 < r.len) ∧
      (∀ k, Covers (freeRuns t'.pages) k ∨ k ∈ t'.allocated ↔
        (heapPages beginAddr endAddr).1 ≤ k ∧ k < (heapPages beginAddr endAddr).2) ∧
      (∀ k, Covers (freeRuns t'.pages) k → k ∉ t'.allocated) ∧ ∀ op, SlabUse t' op → (stepSlab t' op).isSome := by
  obtain ⟨rs, h⟩ : ∃ rs, PagesInv (heapPages beginAddr endAddr).1 (heapPages beginAddr endAddr).2 t'.pages t'.allocated rs := by
    refine hrun.state_invariant (I := fun t' => ∃ rs, PagesInv (heapPages beginAddr endAddr).1
      (heapPages beginAddr endAddr).2 t'.pages t'.allocated rs) (pagesInv_init hend hinit) ?_
    rintro s op s' events ⟨rs, h⟩ hok hs
    obtain ⟨s'', events', rs', hs', hinv⟩ := h.step hok
    obtain ⟨rfl, rfl⟩ := Prod.mk.inj (Option.some.inj (hs'.symm.trans hs))
    exact ⟨rs', hinv⟩
  have heq : freeRuns t'.pages = rs := h.list.runsFrom_eq h.length_lt
  rw [heq]
  refine ⟨h.separate.pairwise, fun r hr => (h.separate.bounds hr).2, h.all, h.apart, fun op hok => ?_⟩
  obtain ⟨t'', events, -, hs, -⟩ := h.step hok
  rw [hs, Option.isSome_some]

/-- The pages of a region of 64 kilobytes, of which the first is that of `memusage`. -/
def smallPages : SlabState := (SlabState.init (fun _ => ⟨0, 0⟩) 0x20000000 0x20010000).get (by decide +kernel)

theorem smallPages_init : SlabState.init (fun _ => ⟨0, 0⟩) 0x20000000 0x20010000 = some smallPages :=
  (Option.some_get _).symm

/-- Three runs are allocated; the second is written to and freed, then the middle of the first, then the third, which joins the one before it with the one behind. -/
theorem freeRuns_of_run_joined : ∃ trace t, SlabRun smallPages trace t ∧
    freeRuns t.pages = [⟨0x20002, 2⟩, ⟨0x20005, 11⟩] ∧ t.allocated = {0x20000, 0x20001, 0x20004} ∧
    (freeRuns t.pages).Pairwise (fun r r' => r.start + r.len < r'.start) ∧ (∀ r ∈ freeRuns t.pages, 0 < r.len) ∧
      (∀ k, Covers (freeRuns t.pages) k ∨ k ∈ t.allocated ↔ 0x20000 ≤ k ∧ k < 0x20010) ∧
      (∀ k, Covers (freeRuns t.pages) k → k ∉ t.allocated) ∧ ∀ op, SlabUse t op → (stepSlab t op).isSome := by
  obtain ⟨trace, t, hrun, hfound⟩ := @Transition.exists_run_of_exec _ _ _ stepSlab SlabUse smallPages _
    [.alloc 4, .alloc 3, .alloc 2, .write 0x20006 ⟨0xFFFF, 7⟩, .free 0x20005000 3, .free 0x20002000 2, .free 0x20008000 2]
    (fun _ t => decide (freeRuns t.pages = [⟨0x20002, 2⟩, ⟨0x20005, 11⟩] ∧ t.allocated = {0x20000, 0x20001, 0x20004}))
    (by decide +kernel)
  obtain ⟨hfree, hheld⟩ := of_decide_eq_true hfound
  have hends : heapPages 0x20000000 0x20010000 = (0x20000, 0x20010) := by decide
  refine ⟨trace, t, hrun, hfree, hheld, ?_⟩
  have h := freeRuns_of_run (by decide) smallPages_init hrun
  rw [hends] at h
  exact h

end RtThread
