import RtThread.Finsh.HeapRuns
import RtThread.Finsh.Parser
import RtThread.Lib.ByteMemory

/-!
# String literals on the shell's heap

`finsh_node_new_string`, and what becomes of its blocks until the line has been executed. The collector knows only the variables, so a literal that needs it gives the blocks of the line's earlier literals away, and the pointer of a request that fails is used all the same. Neither comes about while the heap has a block with space to spare.
-/

namespace RtThread

open Function ByteMemory

def finshNodeMax : Nat := 16

/-- `FINSH_STRING_MAX`, the size of a token's `string`. -/
def finshStringMax : Nat := 128

structure StringNode where
  /-- `value.ptr`, where null is zero. -/
  ptr : Nat
  literal : List UInt8

structure LiteralLine where
  heap : FinshHeap
  vars : FinshRoots
  errno : Option FinshError
  strings : List StringNode
  /-- How many entries of the table are nodes of other types. -/
  others : Nat

inductive LiteralOp where
  | literal (str : List UInt8)
  | node
  | assign (i : Fin finshVariableMax) (value : FinshRoot)
  /-- The line's code stores a byte in an allocated block. -/
  | store (a : Nat) (value : UInt8)

namespace LiteralLine

/-- After `finsh_flush`. -/
def start (heap : FinshHeap) (vars : FinshRoots) : LiteralLine := ⟨heap, vars, none, [], 0⟩

/-- `finsh_node_allocate` finds an entry. -/
def HasRoom (s : LiteralLine) : Prop := s.strings.length + s.others < finshNodeMax

instance (s : LiteralLine) : Decidable s.HasRoom := inferInstanceAs (Decidable (_ < _))

/-- `finsh_node_new_string`: the pointer is not checked before the copy. -/
def newString (s : LiteralLine) (str : List UInt8) : Option LiteralLine :=
  if s.HasRoom then
    (finshHeapAllocate s.heap s.vars (str.length + 1)).map fun r =>
      let ptr := r.1.getD 0
      { s with heap := { r.2 with byte := overlay r.2.byte ptr (str ++ [0]) }, strings := s.strings ++ [⟨ptr, str⟩] }
  else some { s with errno := some .memoryFull }

def step (s : LiteralLine) : LiteralOp → Option (LiteralLine × List Unit)
  | .literal str => if str.length < finshStringMax then (s.newString str).map fun s' => (s', []) else none
  | .node => some (if s.HasRoom then { s with others := s.others + 1 } else { s with errno := some .memoryFull }, [])
  | .assign i value => some ({ s with vars := update s.vars i value }, [])
  | .store a value =>
    if s.heap.Owned finshHeapMax a s.heap.allocateList = true then
      some ({ s with heap := { s.heap with byte := update s.heap.byte a value } }, [])
    else none

/-! ## The property -/

/-- The block of the node is allocated and no variable's, and has the characters of the literal and the `'\0'`. -/
structure Holds (s : LiteralLine) (allocated : List Nat) (node : StringNode) (header : Nat) : Prop where
  mem : header ∈ allocated
  ptr : node.ptr = finshBlockGetData header
  length : node.literal.length + 1 ≤ s.heap.length header
  bytes : (List.range (node.literal ++ [0]).length).map (fun i => s.heap.byte (node.ptr + i)) = node.literal ++ [0]
  unshared : ¬ s.vars.Keeps node.ptr

def LiteralsHeld (s : LiteralLine) : Prop := ∃ allocated, LinkedFrom s.heap.next s.heap.allocateList allocated ∧
  (∀ node ∈ s.strings, ∃ header, s.Holds allocated node header) ∧ s.strings.Pairwise fun node other => node.ptr ≠ other.ptr

/-- A literal gets a node, with all literals held, or an error is set and nothing is written. -/
def AnswersLiteral (s : LiteralLine) (str : List UInt8) : Prop := ∃ s', s.newString str = some s' ∧ s'.LiteralsHeld ∧
  ((∃ ptr, s'.strings = s.strings ++ [⟨ptr, str⟩]) ∨ s'.errno = some .memoryFull ∧ s'.heap = s.heap)

end LiteralLine

/-! ## The condition -/

def FinshHeap.freeHeaders (heap : FinshHeap) : List Nat := follow heap.next finshHeapMax heap.freeList

def FinshHeap.allocatedHeaders (heap : FinshHeap) : List Nat := follow heap.next finshHeapMax heap.allocateList

def FinshHeap.HasGap (base : Nat) (heap : FinshHeap) (vars : FinshRoots) (width : Nat) : Prop :=
  ∃ a, base ≤ a ∧ a + width ≤ base + finshHeapMax ∧ ∀ header ∈ heap.allocatedHeaders,
    vars.Keeps (finshBlockGetData header) → finshBlockGetData header + heap.length header ≤ a ∨ a + width ≤ header

/-- A block of the size has space to spare, or the literal is the line's first and there is a place that no variable's block is in. No variable has the address of a free block. -/
def LiteralLine.Spacious (base : Nat) (s : LiteralLine) (size : Nat) : Prop :=
  (∀ header ∈ s.heap.freeHeaders, ¬ s.vars.Keeps (finshBlockGetData header)) ∧
    ((∃ header ∈ s.heap.freeHeaders, size + sizeofFinshBlockHeader < s.heap.length header) ∨
      s.strings = [] ∧ s.heap.HasGap base s.vars (size + 2 * sizeofFinshBlockHeader))

/-- The line finds the space for its literals, and until it ends it neither gives a variable the address of one nor writes over one. -/
def LiteralLine.Safe (base : Nat) (s : LiteralLine) : LiteralOp → Prop
  | .literal str => s.HasRoom → s.Spacious base (heapAlignSize (str.length + 1))
  | .node => True
  | .assign _ value => value.known = true → ∀ node ∈ s.strings, node.ptr ≠ value.ptr
  | .store a _ => ∀ node ∈ s.strings, a < node.ptr ∨ node.ptr + (node.literal ++ [0]).length ≤ a

variable {base header size : Nat} {heap heap' : FinshHeap} {vars : FinshRoots} {l l' : List (Seg Bool)} {s s' : LiteralLine}
  {node : StringNode} {str : List UInt8}

theorem CutInto.freeHeaders_eq (h : CutInto base heap l) : heap.freeHeaders = freeBlocks base l :=
  h.free.follow_eq (h.length_le id)

theorem CutInto.allocatedHeaders_eq (h : CutInto base heap l) : heap.allocatedHeaders = allocatedBlocks base l :=
  h.allocated.follow_eq (h.length_le not)

theorem CutInto.exists_free_of_gap (h : CutInto base heap l) (hfreeApart : FreeApart l) {a w : Nat} (hw : 0 < w)
    (hfrom : base ≤ a) (hto : a + w ≤ base + finshHeapMax)
    (hgap : ∀ header ∈ allocatedBlocks base l, finshBlockGetData header + heap.length header ≤ a ∨ a + w ≤ header) :
    ∃ header ∈ freeBlocks base l, w ≤ heap.length header + sizeofFinshBlockHeader := by
  obtain ⟨l₁, ⟨n, isFree⟩, l₂, rfl, hle, hlt⟩ := h.sized.exists_covering hfrom (by
    rw [h.width]
    omega)
  change blocksEnd base l₁ ≤ a at hle
  change a < blocksEnd base l₁ + (sizeofFinshBlockHeader + heap.length (blocksEnd base l₁)) at hlt
  have hlength := h.length_eq
  cases isFree with
  | false =>
    have := hgap (blocksEnd base l₁) (by simp)
    unfold finshBlockGetData at this
    omega
  | true =>
    refine ⟨blocksEnd base l₁, by simp, ?_⟩
    cases l₂ with
    | nil =>
      have hwidth := h.width
      rw [Seg.width_append, Seg.width_cons, Seg.width_nil] at hwidth
      unfold blocksEnd at *
      dsimp only at hlength hwidth
      omega
    | cons t l₂ =>
      obtain ⟨-, -, hhead⟩ := freeApart_free.1 hfreeApart
      obtain ⟨k, isFree⟩ := t
      obtain rfl : isFree = false := hhead _ rfl
      have hnext := hgap (blocksEnd base l₁ + (sizeofFinshBlockHeader + n)) (by
        rw [allocatedBlocks_free]
        exact List.mem_append_right _ List.mem_cons_self)
      unfold finshBlockGetData at hnext
      dsimp only at hlength
      omega

/-! ## One step -/

structure HeldBy (base : Nat) (s : LiteralLine) (l : List (Seg Bool)) : Prop where
  cut : CutInto base s.heap l
  freeApart : FreeApart l
  holds : ∀ node ∈ s.strings, ∃ header, s.Holds (allocatedBlocks base l) node header
  apart : s.strings.Pairwise fun node other => node.ptr ≠ other.ptr

theorem HeldBy.literalsHeld (h : HeldBy base s l) : s.LiteralsHeld := ⟨_, h.cut.allocated, h.holds, h.apart⟩

theorem LiteralLine.Holds.congr {before after : List Nat} (h : s.Holds before node header) (hmem : header ∈ after)
    (hlength : s'.heap.length header = s.heap.length header)
    (hbyte : ∀ a, node.ptr ≤ a → a < node.ptr + (node.literal ++ [0]).length → s'.heap.byte a = s.heap.byte a)
    (hvars : ¬ s'.vars.Keeps node.ptr) : s'.Holds after node header := by
  refine ⟨hmem, h.ptr, hlength ▸ h.length, ?_, hvars⟩
  refine (List.map_congr_left ?_).trans h.bytes
  intro i hi
  apply hbyte
  · omega
  · have := List.mem_range.1 hi
    omega

theorem HeldBy.keep (h : HeldBy base s l) (hstrings : s'.strings = s.strings) (hcut : CutInto base s'.heap l)
    (hlength : s'.heap.length = s.heap.length)
    (hbyte : ∀ node ∈ s.strings, ∀ a, node.ptr ≤ a → a < node.ptr + (node.literal ++ [0]).length →
      s'.heap.byte a = s.heap.byte a)
    (hvars : ∀ node ∈ s.strings, ¬ s.vars.Keeps node.ptr → ¬ s'.vars.Keeps node.ptr) : HeldBy base s' l := by
  refine ⟨hcut, h.freeApart, ?_, hstrings ▸ h.apart⟩
  intro node hnode
  rw [hstrings] at hnode
  obtain ⟨header, hholds⟩ := h.holds node hnode
  exact ⟨header, hholds.congr hholds.mem (congrFun hlength header) (hbyte node hnode) (hvars node hnode hholds.unshared)⟩

theorem Granted.apart (h : Granted base header size heap l heap' l') {other : Nat} (hother : other ∈ allocatedBlocks base l) :
    finshBlockGetData other + heap'.length other ≤ header ∨ finshBlockGetData header + size ≤ other := by
  have hne : other ≠ header := by
    rintro rfl
    exact disjoint_blocks h.free hother
  have hmem := (h.mem_iff other).2 (.inr hother)
  have hmem' := (h.mem_iff header).2 (.inl rfl)
  rw [← h.length]
  unfold finshBlockGetData
  rcases Nat.lt_or_gt_of_ne hne with hlt | hgt
  · have := h.cut.sized.end_le_of_lt hmem hmem' hlt
    omega
  · have := h.cut.sized.end_le_of_lt hmem' hmem hgt
    omega

theorem length_literal_le (hstr : str.length < finshStringMax) :
    NoWrap (str.length + 1) ∧ (str ++ [0]).length ≤ heapAlignSize (str.length + 1) := by
  have hfit : NoWrap (str.length + 1) := by
    unfold NoWrap finshWord
    unfold finshStringMax at hstr
    omega
  refine ⟨hfit, ?_⟩
  rw [List.length_append, List.length_singleton]
  exact hfit.le_heapAlignSize

theorem HeldBy.granted (h : HeldBy base s l) (hstr : (str ++ [0]).length ≤ size)
    (hgranted : Granted base header size s.heap l heap' l') (hvars : ¬ s.vars.Keeps (finshBlockGetData header)) :
    HeldBy base { s with
      heap := { heap' with byte := overlay heap'.byte (finshBlockGetData header) (str ++ [0]) }
      strings := s.strings ++ [⟨finshBlockGetData header, str⟩] } l' := by
  have hcut := hgranted.cut
  refine ⟨⟨hcut.width, hcut.sized, hcut.free, hcut.allocated, hcut.top⟩, hgranted.freeApart h.freeApart, ?_, ?_⟩
  · intro node hnode
    rcases List.mem_append.1 hnode with hnode | hnode
    · obtain ⟨other, hholds⟩ := h.holds node hnode
      have hapart := hgranted.apart hholds.mem
      have hlength := hgranted.lengths other hholds.mem
      refine ⟨other, hholds.congr ((hgranted.mem_iff other).2 (.inr hholds.mem)) hlength ?_ hholds.unshared⟩
      intro a hfrom hto
      have hptr := hholds.ptr
      have hfits := hholds.length
      rw [hlength] at hapart
      rw [List.length_append, List.length_singleton] at hto
      unfold finshBlockGetData at hapart hptr
      have houtside : a < finshBlockGetData header ∨ finshBlockGetData header + size ≤ a := by
        unfold finshBlockGetData
        omega
      change overlay heap'.byte (finshBlockGetData header) (str ++ [0]) a = s.heap.byte a
      rw [overlay_outside (by omega), hgranted.byte]
      exact if_neg (by omega)
    · obtain rfl := List.mem_singleton.1 hnode
      refine ⟨header, (hgranted.mem_iff header).2 (.inl rfl), rfl, ?_, map_overlay _ _, hvars⟩
      rw [List.length_append, List.length_singleton] at hstr
      exact hstr.trans (Nat.le_of_eq hgranted.length.symm)
  · apply List.pairwise_append.2
    refine ⟨h.apart, List.pairwise_singleton .., ?_⟩
    intro node hnode other hother heq
    obtain rfl := List.mem_singleton.1 hother
    obtain ⟨header', hholds⟩ := h.holds node hnode
    have hheader : header' = header := by
      have hptr : finshBlockGetData header' = finshBlockGetData header := hholds.ptr.symm.trans heq
      unfold finshBlockGetData at hptr
      omega
    exact disjoint_blocks hgranted.free (hheader ▸ hholds.mem)

theorem HeldBy.newString (h : HeldBy base s l) (hend : base + finshHeapMax < finshWord) (hstr : str.length < finshStringMax)
    (hroom : s.HasRoom) (hspace : s.Spacious base (heapAlignSize (str.length + 1))) :
    ∃ s' l' ptr, s.newString str = some s' ∧ HeldBy base s' l' ∧ s'.strings = s.strings ++ [⟨ptr, str⟩] := by
  obtain ⟨hfit, hsize⟩ := length_literal_le hstr
  obtain ⟨⟨data, heap'⟩, l', hr, hresult⟩ := h.cut.finshHeapAllocate_spec s.vars hend hfit
  obtain ⟨hunshared, hspace⟩ := hspace
  rw [h.cut.freeHeaders_eq] at hunshared hspace
  rw [LiteralLine.newString, if_pos hroom, hr]
  rcases hresult with ⟨header, hptr, hgranted⟩ | ⟨htight, heap₀, l₀, hcollected, hresult⟩
  · obtain rfl : data = some (finshBlockGetData header) := hptr
    exact ⟨_, l', _, rfl, h.granted hsize hgranted (hunshared header hgranted.free), rfl⟩
  · obtain ⟨hnil, a, hfrom, hto, hgap⟩ := hspace.resolve_left (by
      rintro ⟨header, hmem, hlt⟩
      exact Nat.not_lt.2 (htight header hmem) hlt)
    rw [h.cut.allocatedHeaders_eq] at hgap
    rcases hresult with ⟨header, hptr, hgranted⟩ | ⟨-, -, hnone⟩
    · obtain rfl : data = some (finshBlockGetData header) := hptr
      have hempty : HeldBy base { s with heap := heap₀ } l₀ := by
        refine ⟨hcollected.cut, hcollected.freeApart h.freeApart, ?_, h.apart⟩
        intro node hnode
        rw [hnil] at hnode
        cases hnode
      refine ⟨_, l', _, rfl, hempty.granted hsize hgranted ?_, rfl⟩
      rcases hcollected.free header hgranted.free with hmem | hnot
      · exact hunshared header hmem
      · exact hnot
    · obtain ⟨header, hmem, hwide⟩ := hcollected.cut.exists_free_of_gap (hcollected.freeApart h.freeApart)
        (Nat.lt_of_lt_of_le (by decide) (Nat.le_add_left (2 * sizeofFinshBlockHeader) _)) hfrom hto (by
          intro header hmem
          rw [hcollected.kept.1 header hmem]
          rw [hcollected.allocated, List.mem_filter, decide_eq_true_iff] at hmem
          exact hgap header hmem.1 hmem.2)
      have := hnone header hmem
      omega

theorem HeldBy.answersLiteral (h : HeldBy base s l) (hend : base + finshHeapMax < finshWord)
    (hstr : str.length < finshStringMax) (hsafe : s.Safe base (.literal str)) : s.AnswersLiteral str := by
  by_cases hroom : s.HasRoom
  · obtain ⟨s', l', ptr, hs', hheld, hstrings⟩ := h.newString hend hstr hroom (hsafe hroom)
    exact ⟨s', hs', hheld.literalsHeld, .inl ⟨ptr, hstrings⟩⟩
  · have hheld : HeldBy base { s with errno := some .memoryFull } l :=
      h.keep rfl h.cut rfl (fun _ _ _ _ _ => rfl) fun _ _ => id
    exact ⟨_, if_neg hroom, hheld.literalsHeld, .inr ⟨rfl, rfl⟩⟩

theorem HeldBy.step (h : HeldBy base s l) (hend : base + finshHeapMax < finshWord) {op : LiteralOp} {events : List Unit}
    (hsafe : s.Safe base op) (hs : s.step op = some (s', events)) : ∃ l', HeldBy base s' l' := by
  cases op with
  | literal str =>
    rw [LiteralLine.step] at hs
    split_ifs at hs with hstr
    by_cases hroom : s.HasRoom
    · obtain ⟨s₁, l', ptr, hs₁, hheld, -⟩ := h.newString hend hstr hroom (hsafe hroom)
      rw [hs₁] at hs
      obtain ⟨rfl, -⟩ := Prod.mk.inj (Option.some.inj hs)
      exact ⟨l', hheld⟩
    · rw [LiteralLine.newString, if_neg hroom] at hs
      obtain ⟨rfl, -⟩ := Prod.mk.inj (Option.some.inj hs)
      exact ⟨l, h.keep rfl h.cut rfl (fun _ _ _ _ _ => rfl) fun _ _ => id⟩
  | node =>
    rw [LiteralLine.step] at hs
    obtain ⟨rfl, -⟩ := Prod.mk.inj (Option.some.inj hs)
    split_ifs
    · exact ⟨l, h.keep rfl h.cut rfl (fun _ _ _ _ _ => rfl) fun _ _ => id⟩
    · exact ⟨l, h.keep rfl h.cut rfl (fun _ _ _ _ _ => rfl) fun _ _ => id⟩
  | assign i value =>
    obtain ⟨rfl, -⟩ := Prod.mk.inj (Option.some.inj hs)
    refine ⟨l, h.keep rfl h.cut rfl (fun _ _ _ _ _ => rfl) ?_⟩
    rintro node hnode hunshared ⟨j, hknown, hptr⟩
    dsimp only at hknown hptr
    by_cases hij : j = i
    · subst hij
      rw [update_self] at hknown hptr
      exact hsafe hknown node hnode hptr.symm
    · rw [update_of_ne hij] at hknown hptr
      exact hunshared ⟨j, hknown, hptr⟩
  | store a value =>
    rw [LiteralLine.step] at hs
    split_ifs at hs
    obtain ⟨rfl, -⟩ := Prod.mk.inj (Option.some.inj hs)
    have hcut := h.cut
    refine ⟨l, h.keep rfl ⟨hcut.width, hcut.sized, hcut.free, hcut.allocated, hcut.top⟩ rfl ?_ fun _ _ => id⟩
    intro node hnode b hfrom hto
    apply update_of_ne
    rintro rfl
    have := hsafe node hnode
    omega

/-! ## Runs -/

/-- On any heap that requests have left, in every run of a line that finds the space and leaves its literals alone, all its literals are held, and the next one is answered. -/
theorem finshLiterals_of_run (hend : base + finshHeapMax < finshWord) {requests : List (Option Nat)}
    (hheap : Transition.Run FinshHeap.step FinshHeap.SizesFit (finshHeapInit base) requests heap) {events : List Unit}
    (hrun : Transition.Run LiteralLine.step (LiteralLine.Safe base) (LiteralLine.start heap vars) events s) :
    s.LiteralsHeld ∧ ∀ str, str.length < finshStringMax → s.Safe base (.literal str) → s.AnswersLiteral str := by
  obtain ⟨l, hheld⟩ : ∃ l, HeldBy base s l := by
    refine hrun.state_invariant (I := fun s => ∃ l, HeldBy base s l) ?_ ?_
    · obtain ⟨l, hcut, hfreeApart⟩ := exists_cut_of_run hend hheap
      exact ⟨l, hcut, hfreeApart, fun _ hnode => (nomatch hnode), List.Pairwise.nil⟩
    · rintro s op s' events ⟨l, hheld⟩ hsafe hs
      exact hheld.step hend hsafe hs
  exact ⟨hheld.literalsHeld, fun str hstr hsafe => hheld.answersLiteral hend hstr hsafe⟩

theorem finshLiterals_of_one : ∃ s : LiteralLine, s.strings.length = 1 ∧ s.LiteralsHeld ∧ s.AnswersLiteral [98] := by
  have hsafe : (LiteralLine.start (finshHeapInit 0x20000000) noRoots).Safe 0x20000000 (.literal [97]) :=
    fun _ => ⟨by decide +kernel, .inl (by decide +kernel)⟩
  have hstep : ((LiteralLine.start (finshHeapInit 0x20000000) noRoots).step (.literal [97])).any (fun r =>
      decide (r.1.strings.length = 1 ∧ (∀ header ∈ r.1.heap.freeHeaders, ¬ r.1.vars.Keeps (finshBlockGetData header)) ∧
        ∃ header ∈ r.1.heap.freeHeaders, 12 < r.1.heap.length header)) = true := by decide +kernel
  obtain ⟨⟨s, events⟩, hs, hfound⟩ := (Option.any_eq_true ..).1 hstep
  obtain ⟨hlength, hunshared, hspace⟩ := of_decide_eq_true hfound
  obtain ⟨hheld, hanswers⟩ := finshLiterals_of_run (by decide) .start (.next .start hsafe hs)
  exact ⟨s, hlength, hheld, hanswers [98] (by decide) fun _ => ⟨hunshared, .inl hspace⟩⟩

/-- Ten empty literals are more than the heap has blocks for: the collector gives the first nine away, and the tenth gets the first one's block. And a literal that does not fit beside what a variable keeps is written to the null pointer, without an error. -/
theorem finshLiterals_fail :
    (∃ events s, Transition.Run LiteralLine.step (fun _ _ => True)
      (LiteralLine.start (finshHeapInit 0x20000000) noRoots) events s ∧ ¬ s.LiteralsHeld) ∧
    ∃ requests heap vars, Transition.Run FinshHeap.step FinshHeap.SizesFit (finshHeapInit 0x20000000) requests heap ∧
      ¬ (LiteralLine.start heap vars).AnswersLiteral (List.replicate 60 97) := by
  constructor
  · have hexec : ((Transition.exec LiteralLine.step (fun _ _ => True)
        (LiteralLine.start (finshHeapInit 0x20000000) noRoots) (List.replicate 10 (.literal []))).any fun r =>
          decide (¬ (r.2.strings.map StringNode.ptr).Nodup)) = true := by decide +kernel
    obtain ⟨events, s, hrun, hfound⟩ := Transition.exists_run_of_exec _ (fun _ (s : LiteralLine) =>
      decide (¬ (s.strings.map StringNode.ptr).Nodup)) hexec
    refine ⟨events, s, hrun, ?_⟩
    rintro ⟨allocated, -, -, hapart⟩
    exact of_decide_eq_true hfound (List.pairwise_map.2 hapart)
  · have hstep : ((finshHeapInit 0x20000000).step (.allocate 60 noRoots)).any (fun r =>
        ((LiteralLine.start r.1 fun _ => ⟨true, 0x20000008⟩).newString (List.replicate 60 97)).any fun s =>
          decide (s.strings.map StringNode.ptr = [0] ∧ s.errno = none)) = true := by decide +kernel
    obtain ⟨⟨heap, requests⟩, hs, hfound⟩ := (Option.any_eq_true ..).1 hstep
    obtain ⟨s, hnew, hfound⟩ := (Option.any_eq_true ..).1 hfound
    obtain ⟨hptrs, herrno⟩ := of_decide_eq_true hfound
    have hfits : (finshHeapInit 0x20000000).SizesFit (.allocate 60 noRoots) := show NoWrap 60 by decide
    refine ⟨_, heap, fun _ => ⟨true, 0x20000008⟩, .next .start hfits hs, ?_⟩
    rintro ⟨s', hs', ⟨allocated, -, hholds, -⟩, -⟩
    obtain rfl := Option.some.inj (hnew.symm.trans hs')
    obtain ⟨node, hnode, hptr⟩ := List.mem_map.1 (hptrs ▸ List.mem_singleton_self 0)
    obtain ⟨header, hheld⟩ := hholds node hnode
    have hzero := hheld.ptr
    rw [hptr] at hzero
    unfold finshBlockGetData sizeofFinshBlockHeader at hzero
    omega

end RtThread
