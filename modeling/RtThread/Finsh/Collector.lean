import RtThread.Finsh.Literals

/-!
# The collector

`finsh_heap_allocate` collects when no free block has space to spare. A request is refused only where there is no place for it between the blocks that variables keep, and these stay as they are.
-/

namespace RtThread

variable {base size header : Nat} {heap heap' : FinshHeap} {vars : FinshRoots} {l l' : List (Seg Bool)}

theorem CutInto.hasGap (h : CutInto base heap l) {width : Nat} (hmem : header ∈ freeBlocks base l)
    (hwidth : width ≤ heap.length header + sizeofFinshBlockHeader) : heap.HasGap base vars width := by
  have htiled := h.tiled
  obtain ⟨hfrom, hto⟩ := htiled.within header (List.mem_append_left _ hmem)
  unfold finshBlockGetData at hto
  refine ⟨header, hfrom, by omega, ?_⟩
  intro other hother _
  rw [h.allocatedHeaders_eq] at hother
  unfold finshBlockGetData
  rcases Nat.lt_trichotomy other header with hlt | heq | hgt
  · have := h.sized.end_le_of_lt hother hmem hlt
    omega
  · exact absurd (heq ▸ hother) (htiled.disjoint hmem)
  · have := h.sized.end_le_of_lt hmem hother hgt
    omega

theorem RootsKept.hasGap_iff (hcollected : RootsKept base vars heap l heap' l') (h : CutInto base heap l) {width : Nat} :
    heap'.HasGap base vars width ↔ heap.HasGap base vars width := by
  unfold FinshHeap.HasGap
  rw [hcollected.cut.allocatedHeaders_eq, h.allocatedHeaders_eq, hcollected.allocated]
  refine exists_congr fun a => and_congr_right fun _ => and_congr_right fun _ => forall_congr' fun header => ?_
  constructor
  · intro hgap hmem hkeeps
    have hstays : header ∈ (allocatedBlocks base l).filter fun header => vars.Keeps (finshBlockGetData header) :=
      List.mem_filter.mpr ⟨hmem, decide_eq_true hkeeps⟩
    have := hgap hstays hkeeps
    rwa [hcollected.kept.1 header (hcollected.allocated ▸ hstays)] at this
  · intro hgap hmem hkeeps
    rw [hcollected.kept.1 header (hcollected.allocated ▸ hmem)]
    exact hgap (List.mem_filter.mp hmem).1 hkeeps

theorem CutInto.refuses_iff (vars : FinshRoots) (h : CutInto base heap l) (hfreeApart : FreeApart l)
    (hend : base + finshHeapMax < finshWord) (hsize : NoWrap size) :
    (∃ heap', finshHeapAllocate heap vars size = some (none, heap')) ↔
      ¬ heap.HasGap base vars (heapAlignSize size + 2 * sizeofFinshBlockHeader) := by
  obtain ⟨found, hfound, hspec, -⟩ :=
    firstFit_spec (fun length => heapAlignSize size + sizeofFinshBlockHeader < length) h.free (h.length_le id)
  dsimp only [finshHeapAllocate]
  rw [hsize.needed_eq, hfound, Option.bind_some]
  rcases found with _ | header
  · obtain ⟨heap₀, l₀, hgc, hcollected⟩ := h.finshHeapGc_spec vars hend
    obtain ⟨found, hfound, hspec, hnone⟩ := firstFit_spec (fun length => heapAlignSize size + sizeofFinshBlockHeader ≤ length)
      hcollected.cut.free (hcollected.cut.length_le id)
    dsimp only
    rw [hgc, Option.bind_some, hfound, Option.bind_some, ← hcollected.hasGap_iff h]
    rcases found with _ | header
    · refine iff_of_true ⟨_, rfl⟩ ?_
      rintro ⟨a, hfrom, hto, hgap⟩
      obtain ⟨header, hmem, hwide⟩ := hcollected.cut.exists_free_of_gap (hcollected.freeApart hfreeApart)
        (Nat.lt_of_lt_of_le (by decide) (Nat.le_add_left (2 * sizeofFinshBlockHeader) _)) hfrom hto (by
          intro header hmem
          have hkept := hmem
          rw [hcollected.allocated, List.mem_filter, decide_eq_true_iff] at hkept
          exact hgap header (hcollected.cut.allocatedHeaders_eq ▸ hmem) hkept.2)
      have := decide_eq_false_iff_not.1 (hnone rfl header hmem)
      omega
    · obtain ⟨hmem, hfits⟩ := hspec header rfl
      obtain ⟨heap', l', htake, -⟩ := hcollected.cut.takeBlock_of_free hend hmem (decide_eq_true_iff.1 hfits)
      refine iff_of_false ?_ (not_not_intro (hcollected.cut.hasGap hmem ?_))
      · rintro ⟨_, heq⟩
        cases htake.symm.trans heq
      · have := decide_eq_true_iff.1 hfits
        omega
  · obtain ⟨hmem, hfits⟩ := hspec header rfl
    obtain ⟨heap', l', htake, -⟩ := h.takeBlock_of_free hend hmem (Nat.le_of_lt (decide_eq_true_iff.1 hfits))
    refine iff_of_false ?_ (not_not_intro (h.hasGap hmem ?_))
    · rintro ⟨_, heq⟩
      cases htake.symm.trans heq
    · have := decide_eq_true_iff.1 hfits
      omega

/-- A request is refused just where no stretch of its size with two headers is clear of the blocks that variables keep. -/
theorem finshHeap_refuses_iff (hend : base + finshHeapMax < finshWord) {events : List (Option Nat)}
    (hrun : Transition.Run FinshHeap.step FinshHeap.SizesFit (finshHeapInit base) events heap) (vars : FinshRoots) (hsize : NoWrap size) :
    (∃ heap', finshHeapAllocate heap vars size = some (none, heap')) ↔
      ¬ heap.HasGap base vars (heapAlignSize size + 2 * sizeofFinshBlockHeader) := by
  obtain ⟨l, h, hfreeApart⟩ := exists_cut_of_run hend hrun
  exact h.refuses_iff vars hfreeApart hend hsize

/-- A block of the allocated list stays in it, as long as it was and with what it holds. -/
def FinshHeap.BlockStays (heap heap' : FinshHeap) (header : Nat) : Prop :=
  header ∈ heap'.allocatedHeaders ∧ heap'.length header = heap.length header ∧
    ∀ i < heap.length header, heap'.byte (finshBlockGetData header + i) = heap.byte (finshBlockGetData header + i)

theorem Granted.stays (h : Granted base header size heap l heap' l') {other : Nat} (hother : other ∈ allocatedBlocks base l) :
    heap.BlockStays heap' other := by
  have hlength := h.lengths other hother
  have hapart := h.apart hother
  refine ⟨h.cut.allocatedHeaders_eq ▸ (h.mem_iff other).2 (.inr hother), hlength, ?_⟩
  intro i hi
  rw [h.byte]
  refine if_neg ?_
  unfold finshBlockGetData at hapart ⊢
  omega

/-- Whatever is requested: the blocks that variables keep stay as they are, and the memory for the request is none of them. -/
theorem finshHeap_keeps (hend : base + finshHeapMax < finshWord) {events : List (Option Nat)}
    (hrun : Transition.Run FinshHeap.step FinshHeap.SizesFit (finshHeapInit base) events heap) (hsize : NoWrap size)
    {data : Option Nat} (hr : finshHeapAllocate heap vars size = some (data, heap')) :
    ∀ header ∈ heap.allocatedHeaders, vars.Keeps (finshBlockGetData header) →
      heap.BlockStays heap' header ∧ data ≠ some (finshBlockGetData header) := by
  intro header hmem hkeeps
  obtain ⟨l, h, -⟩ := exists_cut_of_run hend hrun
  obtain ⟨r, l', hr', hresult⟩ := h.finshHeapAllocate_spec vars hend hsize
  obtain rfl := Option.some.inj (hr.symm.trans hr')
  rw [h.allocatedHeaders_eq] at hmem
  have hother {l₀ : List (Seg Bool)} {new : Nat} (hfree : new ∈ freeBlocks base l₀) (hmem : header ∈ allocatedBlocks base l₀) :
      some (finshBlockGetData new) ≠ some (finshBlockGetData header) := by
    intro heq
    obtain rfl := Nat.add_right_cancel (Option.some.inj heq)
    exact disjoint_blocks hfree hmem
  rcases hresult with ⟨new, hnew, hgranted⟩ | ⟨-, heap₀, l₀, hcollected, hresult⟩
  · exact ⟨hgranted.stays hmem, fun heq => hother hgranted.free hmem (hnew.symm.trans heq)⟩
  · have hstays : header ∈ allocatedBlocks base l₀ := by
      rw [hcollected.allocated]
      exact List.mem_filter.mpr ⟨hmem, decide_eq_true hkeeps⟩
    have hlength := hcollected.kept.1 header hstays
    rcases hresult with ⟨new, hnew, hgranted⟩ | ⟨hnone, rfl, -⟩
    · obtain ⟨hin, hlength', hbyte⟩ := hgranted.stays hstays
      rw [hlength, hcollected.kept.2] at *
      exact ⟨⟨hin, hlength', hbyte⟩, fun heq => hother hgranted.free hstays (hnew.symm.trans heq)⟩
    · obtain ⟨rfl, rfl⟩ := Prod.mk.inj hnone
      exact ⟨⟨hcollected.cut.allocatedHeaders_eq ▸ hstays, hlength, fun _ _ => congrFun hcollected.kept.2 _⟩, nofun⟩

/-- With one block kept, a request is met up to the space that the others leave. -/
theorem finshHeap_refuses_large : ∃ heap, Transition.Run FinshHeap.step FinshHeap.SizesFit (finshHeapInit 0x20000000)
      [some 0x20000008, some 0x20000024, some 0x20000024] heap ∧
    (∃ heap', finshHeapAllocate heap oneRoot 88 = some (none, heap')) ∧ ¬ ∃ heap', finshHeapAllocate heap oneRoot 84 = some (none, heap') := by
  have hexec : ((Transition.exec FinshHeap.step FinshHeap.SizesFit (finshHeapInit 0x20000000) collectingRequests).any fun r =>
      decide (r.1 = [some 0x20000008, some 0x20000024, some 0x20000024] ∧ r.2.allocatedHeaders = [0x20000000, 0x2000001c] ∧
        r.2.length 0x20000000 = 20)) = true := by decide +kernel
  obtain ⟨events, heap, hrun, hfound⟩ := Transition.exists_run_of_exec _
    (fun events heap => decide (events = _ ∧ FinshHeap.allocatedHeaders heap = _ ∧ heap.length _ = _)) hexec
  obtain ⟨rfl, hheaders, hlength⟩ := of_decide_eq_true hfound
  have hkeeps : oneRoot.Keeps (finshBlockGetData 0x20000000) := ⟨⟨0, by decide⟩, rfl, rfl⟩
  refine ⟨heap, hrun, (@finshHeap_refuses_iff 0x20000000 88 heap (by decide) _ hrun oneRoot (by decide)).mpr ?_,
    fun hrefused => (@finshHeap_refuses_iff 0x20000000 84 heap (by decide) _ hrun oneRoot (by decide)).mp hrefused ⟨0x2000001c, by decide, by decide, ?_⟩⟩
  · rintro ⟨a, hfrom, hto, hclear⟩
    have hapart := hclear 0x20000000 (by rw [hheaders]; decide) hkeeps
    rw [hlength] at hapart
    simp only [heapAlignSize, sizeofFinshBlockHeader, finshHeapMax, finshWord, finshBlockGetData] at hfrom hto hapart
    omega
  · intro header hmem hkept
    rw [hheaders] at hmem
    obtain ⟨_, -, hptr⟩ := hkept
    have heq : header = 0x20000000 := Nat.add_right_cancel hptr.symm
    rw [heq, hlength]
    exact .inl (by decide)

theorem finshHeap_keeps_one : ∃ heap heap' data, finshHeapAllocate heap oneRoot 100 = some (data, heap') ∧
    heap.BlockStays heap' 0x20000000 ∧ data ≠ some 0x20000008 := by
  obtain ⟨⟨heap, events⟩, hfirst, hsecond⟩ := (Option.any_eq_true ..).mp (show ((finshHeapInit 0x20000000).step (.allocate 20 noRoots)).any
    (fun r => r.1.allocatedHeaders = [0x20000000] ∧ (finshHeapAllocate r.1 oneRoot 100).isSome) = true by decide +kernel)
  obtain ⟨hmem, hsome⟩ := of_decide_eq_true hsecond
  obtain ⟨⟨data, heap'⟩, hr⟩ := Option.isSome_iff_exists.mp hsome
  have hok : (finshHeapInit 0x20000000).SizesFit (.allocate 20 noRoots) := show NoWrap 20 by decide
  have hrun := Transition.Run.start.next hok hfirst
  exact ⟨heap, heap', data, hr, finshHeap_keeps (by decide) hrun (by decide) hr 0x20000000 (by rw [hmem]; decide) ⟨⟨0, by decide⟩, rfl, rfl⟩⟩

end RtThread
