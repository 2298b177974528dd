import RtThread.Lib.Linked
import RtThread.Lib.Traces
import RtThread.Lib.Transition

/-!
# The receive list of an AT socket

`at_recvpkt_put` and `at_recvpkt_get` of `at_socket.c`. A packet keeps the offset of its first byte that has not been read. A read goes from packet to packet, takes out those it has read to their end, and frees them; then it reads the link of the packet that it has just freed. What stands there depends on the heap: `mem.c` leaves the words of a freed block as they are, `slab.c` stores the link of its own list of free chunks in the first word, which is the word of the packet's link. So what a freed packet shows is given with every read.
-/

namespace RtThread

open Function Transition

/-- `struct at_recv_pkt` without its link. -/
structure AtRecvPkt where
  bfszTotle : Nat
  bfszIndex : Nat
  buff : List UInt8
  deriving DecidableEq

/-- `recvpkt_list`, with the packets in memory and the blocks that are allocated for packets. -/
structure RecvList where
  first : Option Nat
  next : Nat → Option Nat
  pkt : Nat → AtRecvPkt
  blocks : List Nat

abbrev FreedLink := Nat → Option Nat → Option Nat

/-- The heap of `mem.c`, and that of `slab.c` where the zone of the packets has this chunk as its first free one. -/
def memLink : FreedLink := fun _ next => next

def slabLink (zFreechunk : Option Nat) : FreedLink := fun _ _ => zFreechunk

/-- `rt_slist_remove` from the node `node` on. -/
def slistRemove (next : Nat → Option Nat) (n : Nat) : Nat → Nat → Option (Nat → Option Nat)
  | 0, _ => none
  | fuel + 1, node =>
    match next node with
    | none => some next
    | some a => if a = n then some (update next node (next a)) else slistRemove next n fuel a

namespace RecvList

def empty : RecvList := ⟨none, fun _ => none, fun _ => ⟨0, 0, []⟩, []⟩

def rtSlistAppend (s : RecvList) (n : Nat) : Option RecvList :=
  match s.first with
  | none => some { s with first := some n, next := update s.next n none }
  | some node => (lastFrom s.next s.blocks.length node).map fun tail =>
      { s with next := update (update s.next tail (some n)) n none }

def rtSlistRemove (s : RecvList) (n : Nat) : Option RecvList :=
  match s.first with
  | none => some s
  | some node =>
    if node = n then some { s with first := s.next node }
    else (slistRemove s.next n s.blocks.length node).map fun next => { s with next := next }

/-- `pkt->bfsz_index += n` -/
def advance (s : RecvList) (node n : Nat) : RecvList :=
  { s with pkt := update s.pkt node { s.pkt node with bfszIndex := (s.pkt node).bfszIndex + n } }

end RecvList

/-- `at_recvpkt_put`; the block is that of `rt_calloc`. -/
def atRecvpktPut (s : RecvList) (block : Option Nat) (ptr : List UInt8) : Option (RecvList × Nat) :=
  match block with
  | none => some (s, 0)
  | some pkt =>
    let s := { s with pkt := update s.pkt pkt ⟨ptr.length, 0, ptr⟩ }
    (s.rtSlistAppend pkt).map fun s => ({ s with blocks := s.blocks ++ [pkt] }, ptr.length)

def atRecvpktNodeDelete (freed : FreedLink) (s : RecvList) (node : Nat) : Option RecvList :=
  if s.first = none then some s
  else (s.rtSlistRemove node).map fun s =>
    { s with
      next := update s.next node (freed node (s.next node))
      blocks := s.blocks.erase node }

/-- The loop of `at_recvpkt_get`: `content_pos`, and what it has stored in `mem`. -/
def recvpktGetLoop (freed : FreedLink) (len : Nat) :
    Nat → RecvList → Option Nat → Nat → List UInt8 → Option (RecvList × Nat × List UInt8)
  | _, s, none, contentPos, mem => some (s, contentPos, mem)
  | 0, _, some _, _, _ => none
  | fuel + 1, s, some node, contentPos, mem =>
    let pkt := s.pkt node
    let pagePos := pkt.bfszTotle - pkt.bfszIndex
    if len - contentPos ≤ pagePos then
      let mem := mem ++ (pkt.buff.drop pkt.bfszIndex).take (len - contentPos)
      let s := s.advance node (len - contentPos)
      if (s.pkt node).bfszIndex = (s.pkt node).bfszTotle then
        (atRecvpktNodeDelete freed s node).map fun s => (s, len, mem)
      else some (s, len, mem)
    else
      let mem := mem ++ (pkt.buff.drop pkt.bfszIndex).take pagePos
      (atRecvpktNodeDelete freed (s.advance node pagePos) node).bind fun s =>
        recvpktGetLoop freed len fuel s (s.next node) (contentPos + pagePos) mem

/-- `at_recvpkt_get`, with what it has stored in `mem`; nothing if the traversal does not come to an end. -/
def atRecvpktGet (freed : FreedLink) (s : RecvList) (len : Nat) : Option (RecvList × Nat × List UInt8) :=
  if s.first = none then some (s, 0, [])
  else recvpktGetLoop freed len (s.blocks.length + 1) s s.first 0 []

inductive RecvOp
  /-- The block that `rt_calloc` returns, if any. -/
  | put (block : Option Nat) (ptr : List UInt8)
  | get (freed : FreedLink) (len : Nat)

inductive RecvEvent
  | put (ptr : List UInt8) (result : Nat)
  | get (len result : Nat) (mem : List UInt8)
  deriving DecidableEq

/-- A block that `rt_calloc` returns is not in use. -/
def stepRecv (s : RecvList) : RecvOp → Option (RecvList × List RecvEvent)
  | .put block ptr =>
    if ∀ b ∈ block, b ∉ s.blocks then (atRecvpktPut s block ptr).map fun r => (r.1, [.put ptr r.2]) else none
  | .get freed len => (atRecvpktGet freed s len).map fun r => (r.1, [.get len r.2.1 r.2.2])

/-! ## What the list stands for -/

def AtRecvPkt.unread (p : AtRecvPkt) : List UInt8 := p.buff.drop p.bfszIndex

def AtRecvPkt.Valid (p : AtRecvPkt) : Prop := p.bfszTotle = p.buff.length ∧ p.bfszIndex ≤ p.bfszTotle

namespace RecvList

def queued (s : RecvList) : List UInt8 := s.blocks.flatMap fun b => (s.pkt b).unread

structure Inv (s : RecvList) : Prop where
  linked : LinkedFrom s.next s.first s.blocks
  nodup : s.blocks.Nodup
  valid : ∀ b ∈ s.blocks, (s.pkt b).Valid

/-- Every packet that a read of `len` bytes goes past shows its link when it has been freed. -/
def LinksKept (freed : FreedLink) (pkt : Nat → AtRecvPkt) : Nat → List Nat → Prop
  | _, [] => True
  | len, b :: blocks => len ≤ (pkt b).unread.length ∨
      freed b blocks.head? = blocks.head? ∧ LinksKept freed pkt (len - (pkt b).unread.length) blocks

end RecvList

instance (freed : FreedLink) (pkt : Nat → AtRecvPkt) : ∀ len blocks, Decidable (RecvList.LinksKept freed pkt len blocks)
  | _, [] => inferInstanceAs (Decidable True)
  | len, b :: blocks =>
    have := instDecidableLinksKept freed pkt (len - (pkt b).unread.length) blocks
    inferInstanceAs (Decidable (_ ∨ _ ∧ _))

def KeepsLinks (s : RecvList) : RecvOp → Prop
  | .put _ _ => True
  | .get freed len => RecvList.LinksKept freed s.pkt len s.blocks

instance (s : RecvList) : ∀ op, Decidable (KeepsLinks s op)
  | .put _ _ => inferInstanceAs (Decidable True)
  | .get freed len => inferInstanceAs (Decidable (RecvList.LinksKept freed s.pkt len s.blocks))

variable {s s' : RecvList} {freed : FreedLink} {op : RecvOp} {events trace : List RecvEvent} {b len : Nat}
  {blocks : List Nat} {ptr mem : List UInt8}

theorem AtRecvPkt.Valid.unread_length {p : AtRecvPkt} (h : p.Valid) : p.unread.length = p.bfszTotle - p.bfszIndex := by
  rw [AtRecvPkt.unread, List.length_drop, h.1]

/-! ## One call -/

theorem RecvList.Inv.put (h : s.Inv) (hb : b ∉ s.blocks) (ptr : List UInt8) :
    ∃ s', atRecvpktPut s (some b) ptr = some (s', ptr.length) ∧ s'.Inv ∧ s'.queued = s.queued ++ ptr := by
  have hqueued : ∀ first next, (⟨first, next, update s.pkt b ⟨ptr.length, 0, ptr⟩, s.blocks ++ [b]⟩ : RecvList).queued =
      s.queued ++ ptr := by
    intro first next
    rw [RecvList.queued, List.flatMap_append, List.flatMap_singleton]
    dsimp only
    rw [update_self]
    congr 1
    apply List.flatMap_congr
    intro c hc
    rw [update_of_ne fun heq : c = b => hb (heq ▸ hc)]
  have hinv : ∀ first next, LinkedFrom next first (s.blocks ++ [b]) →
      (⟨first, next, update s.pkt b ⟨ptr.length, 0, ptr⟩, s.blocks ++ [b]⟩ : RecvList).Inv := by
    intro first next hlinked
    refine ⟨hlinked, List.nodup_append.2 ⟨h.nodup, List.nodup_singleton b, ?_⟩, fun c hc => ?_⟩
    · intro c hc d hd heq
      exact hb (List.mem_singleton.1 hd ▸ heq ▸ hc)
    · dsimp only
      by_cases hcb : c = b
      · rw [hcb, update_self]
        exact ⟨rfl, Nat.zero_le _⟩
      · rw [update_of_ne hcb]
        exact h.valid c ((List.mem_append.1 hc).resolve_right fun hmem => hcb (List.mem_singleton.1 hmem))
  have hlinked := h.linked
  rw [atRecvpktPut, RecvList.rtSlistAppend.eq_def]
  dsimp only
  cases hfirst : s.first with
  | none =>
    rw [hfirst] at hlinked
    have hnil := hlinked.eq_none_iff.1 rfl
    refine ⟨_, rfl, hinv _ _ ?_, hqueued _ _⟩
    rw [hnil]
    refine ⟨rfl, ?_⟩
    dsimp only
    rw [update_self]
    rfl
  | some node =>
    rw [hfirst] at hlinked
    have hlast := hlinked.lastFrom_eq (Nat.le_refl _)
    obtain ⟨tail, htail⟩ : ∃ tail, s.blocks.getLast? = some tail := by
      obtain ⟨rest, hrest, -⟩ := hlinked.exists_of_some
      exact ⟨_, List.getLast?_eq_some_getLast (hrest ▸ List.cons_ne_nil _ _)⟩
    have hne : b ≠ tail := fun heq => hb (heq ▸ List.mem_of_getLast? htail)
    rw [htail] at hlast
    dsimp only
    rw [hlast, Option.map_some, Option.map_some]
    refine ⟨_, rfl, hinv _ _ ?_, hqueued _ _⟩
    rw [update_comm hne.symm]
    exact (hlinked.update hb).append h.nodup htail hb (update_self ..)

theorem RecvList.Inv.nodeDelete (h : s.Inv) (freed : FreedLink) (hblocks : s.blocks = b :: blocks) :
    ∃ s', atRecvpktNodeDelete freed s b = some s' ∧ s'.Inv ∧ s'.blocks = blocks ∧ s'.pkt = s.pkt ∧
      s'.next b = freed b blocks.head? := by
  obtain ⟨hlinked, hnodup, hvalid⟩ := h
  rw [hblocks] at hlinked hnodup hvalid
  obtain ⟨hb, hnodup'⟩ := List.nodup_cons.1 hnodup
  have hhead := hlinked.2.head?_eq
  rw [atRecvpktNodeDelete, hlinked.1, if_neg (Option.some_ne_none b), RecvList.rtSlistRemove.eq_def, hlinked.1]
  dsimp only
  rw [if_pos rfl, Option.map_some, hblocks, List.erase_cons_head]
  refine ⟨_, rfl, ⟨hlinked.2.update hb, hnodup', fun c hc => hvalid c (List.mem_cons_of_mem b hc)⟩, rfl, rfl, ?_⟩
  dsimp only
  rw [update_self, hhead]

theorem RecvList.LinksKept.congr {pkt pkt' : Nat → AtRecvPkt} (h : LinksKept freed pkt len blocks)
    (hpkt : ∀ b ∈ blocks, pkt' b = pkt b) : LinksKept freed pkt' len blocks := by
  induction blocks generalizing len with
  | nil => trivial
  | cons b blocks ih =>
    rw [LinksKept, hpkt b List.mem_cons_self]
    rcases h with hlast | ⟨hlink, hrest⟩
    · exact .inl hlast
    · exact .inr ⟨hlink, ih hrest fun c hc => hpkt c (List.mem_cons_of_mem b hc)⟩

theorem RecvList.Inv.advance (h : s.Inv) (hblocks : s.blocks = b :: blocks) {n : Nat}
    (hn : n ≤ (s.pkt b).unread.length) :
    (s.advance b n).Inv ∧ ((s.advance b n).pkt b).unread = (s.pkt b).unread.drop n ∧
      (∀ c ∈ blocks, (s.advance b n).pkt c = s.pkt c) := by
  have hmem : b ∈ s.blocks := hblocks ▸ List.mem_cons_self
  have hb := (List.nodup_cons.1 (hblocks ▸ h.nodup)).1
  have hvalid := h.valid b hmem
  have hlength := hvalid.unread_length
  have hothers : ∀ c, c ≠ b → (s.advance b n).pkt c = s.pkt c := fun c hc => update_of_ne hc ..
  have hself : (s.advance b n).pkt b = { s.pkt b with bfszIndex := (s.pkt b).bfszIndex + n } := update_self ..
  refine ⟨⟨h.linked, h.nodup, fun c hc => ?_⟩, ?_, fun c hc => hothers c fun heq => hb (heq ▸ hc)⟩
  · by_cases hcb : c = b
    · rw [hcb, hself]
      refine ⟨hvalid.1, ?_⟩
      have hle := hvalid.2
      dsimp only
      omega
    · rw [hothers c hcb]
      exact h.valid c hc
  · rw [hself, AtRecvPkt.unread, AtRecvPkt.unread, List.drop_drop]

theorem RecvList.queued_cons (hblocks : s.blocks = b :: blocks) :
    s.queued = (s.pkt b).unread ++ blocks.flatMap fun c => (s.pkt c).unread := by
  rw [RecvList.queued, hblocks, List.flatMap_cons]

theorem recvpktGetLoop_eq {fuel contentPos : Nat} (h : s.Inv) (hkept : RecvList.LinksKept freed s.pkt (len - contentPos) s.blocks)
    (hpos : contentPos ≤ len) (hfuel : s.blocks.length ≤ fuel) :
    ∃ s', recvpktGetLoop freed len fuel s s.first contentPos mem =
        some (s', contentPos + min (len - contentPos) s.queued.length, mem ++ s.queued.take (len - contentPos)) ∧
      s'.Inv ∧ s'.queued = s.queued.drop (len - contentPos) := by
  generalize hblocks : s.blocks = blocks at hkept hfuel
  induction blocks generalizing s fuel contentPos mem with
  | nil =>
    have hfirst : s.first = none := by
      rw [← h.linked.head?_eq, hblocks]
      rfl
    have hqueued : s.queued = [] := by
      rw [RecvList.queued, hblocks]
      rfl
    refine ⟨s, ?_, h, ?_⟩
    · rw [hfirst, recvpktGetLoop, hqueued, List.take_nil, List.append_nil, List.length_nil, Nat.min_zero, Nat.add_zero]
    · rw [hqueued, List.drop_nil]
  | cons b blocks ih =>
    have hfirst : s.first = some b := by
      rw [← h.linked.head?_eq, hblocks]
      rfl
    have hmem : b ∈ s.blocks := hblocks ▸ List.mem_cons_self
    have hlength := (h.valid b hmem).unread_length
    have hqueued := RecvList.queued_cons hblocks
    have hpage : ((s.pkt b).buff.drop (s.pkt b).bfszIndex) = (s.pkt b).unread := rfl
    cases fuel with
    | zero => cases hfuel
    | succ fuel =>
      rw [hfirst, recvpktGetLoop]
      dsimp only
      rw [hpage, ← hlength]
      by_cases hlast : len - contentPos ≤ (s.pkt b).unread.length
      · -- the read ends in this packet
        obtain ⟨hinv, hunread, hothers⟩ := h.advance hblocks hlast
        have hrest : blocks.flatMap (fun c => ((s.advance b (len - contentPos)).pkt c).unread) =
            blocks.flatMap fun c => (s.pkt c).unread := by
          apply List.flatMap_congr
          intro c hc
          rw [hothers c hc]
        have hresult : contentPos + min (len - contentPos) s.queued.length = len := by
          rw [hqueued, List.length_append]
          omega
        have hbytes : s.queued.take (len - contentPos) = (s.pkt b).unread.take (len - contentPos) := by
          rw [hqueued, List.take_append_of_le_length hlast]
        have hdrop : s.queued.drop (len - contentPos) =
            ((s.advance b (len - contentPos)).pkt b).unread ++ blocks.flatMap fun c => (s.pkt c).unread := by
          rw [hqueued, List.drop_append_of_le_length hlast, hunread]
        rw [if_pos hlast, hresult, hbytes]
        split_ifs with hend
        · obtain ⟨s', hdelete, hinv', hblocks', hpkt, -⟩ := hinv.nodeDelete freed hblocks
          refine ⟨s', by rw [hdelete, Option.map_some], hinv', ?_⟩
          have hnil : ((s.advance b (len - contentPos)).pkt b).unread = [] := by
            have hzero := (hinv.valid b hmem).unread_length
            rw [hend, Nat.sub_self] at hzero
            exact List.eq_nil_of_length_eq_zero hzero
          rw [RecvList.queued, hblocks', hpkt, hrest, hdrop, hnil, List.nil_append]
        · refine ⟨_, rfl, hinv, ?_⟩
          have hcons : (s.advance b (len - contentPos)).queued = _ := RecvList.queued_cons hblocks
          rw [hcons, hrest, hdrop]
      · -- the packet is read to its end and freed
        obtain ⟨hlink, hkept⟩ := hkept.resolve_left hlast
        obtain ⟨hinv, -, hothers⟩ := h.advance hblocks (Nat.le_refl _)
        obtain ⟨s', hdelete, hinv', hblocks', hpkt, hnext⟩ := hinv.nodeDelete freed hblocks
        have hpkt' : ∀ c ∈ blocks, s'.pkt c = s.pkt c := by
          intro c hc
          rw [hpkt, hothers c hc]
        have hfirst' : s'.next b = s'.first := by
          rw [hnext, hlink, ← hinv'.linked.head?_eq, hblocks']
        have hsub : len - (contentPos + (s.pkt b).unread.length) = len - contentPos - (s.pkt b).unread.length := by
          omega
        have hqueued' : s'.queued = blocks.flatMap fun c => (s.pkt c).unread := by
          rw [RecvList.queued, hblocks']
          apply List.flatMap_congr
          intro c hc
          rw [hpkt' c hc]
        have hkept' : RecvList.LinksKept freed s'.pkt (len - (contentPos + (s.pkt b).unread.length)) blocks := by
          rw [hsub]
          exact hkept.congr hpkt'
        obtain ⟨s'', hloop, hinv'', hdrop⟩ := @ih s' (mem ++ (s.pkt b).unread) fuel (contentPos + (s.pkt b).unread.length)
          hinv' (by omega) hblocks' hkept' (Nat.le_of_succ_le_succ hfuel)
        rw [if_neg hlast, hdelete, Option.bind_some, hfirst', List.take_length]
        refine ⟨s'', hloop.trans ?_, hinv'', ?_⟩
        · have hsum : contentPos + (s.pkt b).unread.length + min (len - contentPos - (s.pkt b).unread.length) s'.queued.length =
              contentPos + min (len - contentPos) ((s.pkt b).unread.length + s'.queued.length) := by
            omega
          rw [hsub, hsum, hqueued', hqueued, List.length_append, List.take_append, List.append_assoc,
            List.take_of_length_le (Nat.le_of_not_le hlast)]
        · rw [hdrop, hsub, hqueued', hqueued, List.drop_append, List.drop_of_length_le (Nat.le_of_not_le hlast),
            List.nil_append]

theorem RecvList.Inv.get (h : s.Inv) (hkept : RecvList.LinksKept freed s.pkt len s.blocks) :
    ∃ s', atRecvpktGet freed s len = some (s', min len s.queued.length, s.queued.take len) ∧ s'.Inv ∧
      s'.queued = s.queued.drop len := by
  rw [atRecvpktGet]
  split_ifs with hfirst
  · have hblocks := (h.linked.eq_none_iff).1 hfirst
    have hqueued : s.queued = [] := by
      rw [RecvList.queued, hblocks]
      rfl
    refine ⟨s, ?_, h, ?_⟩
    · rw [hqueued, List.take_nil, List.length_nil, Nat.min_zero]
    · rw [hqueued, List.drop_nil]
  · obtain ⟨s', hloop, hinv, hqueued⟩ :
        ∃ s', recvpktGetLoop freed len (s.blocks.length + 1) s s.first 0 [] =
          some (s', 0 + min (len - 0) s.queued.length, [] ++ s.queued.take (len - 0)) ∧ s'.Inv ∧
            s'.queued = s.queued.drop (len - 0) :=
      recvpktGetLoop_eq h hkept (Nat.zero_le _) (Nat.le_succ _)
    rw [Nat.zero_add, List.nil_append] at hloop
    exact ⟨s', hloop, hinv, hqueued⟩

/-! ## Runs -/

def packets (trace : List RecvEvent) : List UInt8 :=
  trace.flatMap fun
    | .put ptr result => ptr.take result
    | .get _ _ _ => []

def readBytes (trace : List RecvEvent) : List UInt8 :=
  trace.flatMap fun
    | .put _ _ => []
    | .get _ _ mem => mem

def ReadNext (before : List RecvEvent) : RecvEvent → Prop
  | .put _ _ => True
  | .get len result mem =>
    result = min len ((packets before).length - (readBytes before).length) ∧
      mem = ((packets before).drop (readBytes before).length).take len

def ReadsNext : List RecvEvent → Prop := EachEvent fun before e _ => ReadNext before e

structure ByteStream (trace : List RecvEvent) (s : RecvList) : Prop where
  stream : readBytes trace ++ s.queued = packets trace
  reads : ReadsNext trace
  goesOn : ∀ freed len, RecvList.LinksKept freed s.pkt len s.blocks → ∃ r, stepRecv s (.get freed len) = some r

structure StreamInv (trace : List RecvEvent) (s : RecvList) : Prop where
  inv : s.Inv
  stream : readBytes trace ++ s.queued = packets trace
  reads : ReadsNext trace

theorem packets_concat (e : RecvEvent) : packets (trace ++ [e]) = packets trace ++ packets [e] := List.flatMap_append

theorem readBytes_concat (e : RecvEvent) : readBytes (trace ++ [e]) = readBytes trace ++ readBytes [e] := List.flatMap_append

theorem StreamInv.step (h : StreamInv trace s) (hok : KeepsLinks s op) (hs : stepRecv s op = some (s', events)) :
    StreamInv (trace ++ events) s' := by
  obtain ⟨hinv, hstream, hreads⟩ := h
  cases op with
  | put block ptr =>
    rw [stepRecv] at hs
    split_ifs at hs with hfree
    cases block with
    | none =>
      cases hs
      refine ⟨hinv, ?_, hreads.concat (fun _ _ _ h => h) trivial⟩
      rw [packets_concat, readBytes_concat, ← hstream]
      change readBytes trace ++ [] ++ s.queued = readBytes trace ++ s.queued ++ []
      rw [List.append_nil, List.append_nil]
    | some b =>
      obtain ⟨s₁, hput, hinv', hqueued⟩ := hinv.put (hfree b rfl) ptr
      rw [hput, Option.map_some] at hs
      cases hs
      refine ⟨hinv', ?_, hreads.concat (fun _ _ _ h => h) trivial⟩
      have hall : packets [.put ptr ptr.length] = ptr := by
        change ptr.take ptr.length ++ [] = ptr
        rw [List.take_length, List.append_nil]
      rw [packets_concat, readBytes_concat, hall, ← hstream, hqueued]
      change readBytes trace ++ [] ++ (s.queued ++ ptr) = _
      rw [List.append_nil, List.append_assoc]
  | get freed len =>
    obtain ⟨s₁, hget, hinv', hqueued⟩ := hinv.get hok
    rw [stepRecv, hget, Option.map_some] at hs
    cases hs
    refine ⟨hinv', ?_, hreads.concat (fun _ _ _ h => h) ?_⟩
    · rw [packets_concat, readBytes_concat, ← hstream, hqueued]
      change readBytes trace ++ (s.queued.take len ++ []) ++ s.queued.drop len = readBytes trace ++ s.queued ++ []
      rw [List.append_nil, List.append_nil, List.append_assoc, List.take_append_drop]
    · rw [ReadNext, ← hstream, List.length_append, Nat.add_sub_cancel_left, List.drop_left]
      exact ⟨rfl, rfl⟩

theorem StreamInv.start : StreamInv [] RecvList.empty := by
  refine ⟨⟨rfl, List.nodup_nil, fun b hb => ?_⟩, rfl, .nil⟩
  cases hb

/-- The reads return the packets as a stream wherever they find the links of the packets that they go past. -/
theorem byteStream_of_run (hrun : Run stepRecv KeepsLinks RecvList.empty trace s) : ByteStream trace s := by
  have h : StreamInv trace s := by
    refine hrun.invariant .start fun trace s op s' events => ?_
    exact fun hinv hok hs => hinv.step hok hs
  refine ⟨h.stream, h.reads, fun freed len hkept => ?_⟩
  obtain ⟨s', hget, -⟩ := h.inv.get hkept
  exact ⟨_, by rw [stepRecv, hget, Option.map_some]⟩

/-- A read that ends inside a packet, and one that goes on from there over three packets. -/
theorem byteStream_of_run_spanning : ∃ trace s, Run stepRecv KeepsLinks RecvList.empty trace s ∧
    trace = [.put [1, 2, 3] 3, .put [4] 1, .get 2 2 [1, 2], .put [5, 6] 2, .get 3 3 [3, 4, 5]] ∧ ByteStream trace s := by
  obtain ⟨trace, s, hrun, hfound⟩ := @exists_run_of_exec _ _ _ stepRecv KeepsLinks .empty _
    [.put (some 0) [1, 2, 3], .put (some 1) [4], .get memLink 2, .put (some 2) [5, 6], .get memLink 3]
    (fun trace _ => decide (trace = [.put [1, 2, 3] 3, .put [4] 1, .get 2 2 [1, 2], .put [5, 6] 2, .get 3 3 [3, 4, 5]]))
    (by decide +kernel)
  exact ⟨trace, s, hrun, of_decide_eq_true hfound, byteStream_of_run hrun⟩

/-- The slab heap hides the second packet from a read that frees the first. -/
theorem byteStream_fails : ∃ trace s, Run stepRecv (fun _ _ => True) RecvList.empty trace s ∧
    trace = [.put [1] 1, .put [2] 1, .get 2 1 [1]] ∧ ¬ ReadsNext trace := by
  obtain ⟨trace, s, hrun, hfound⟩ := @exists_run_of_exec _ _ _ stepRecv (fun _ _ => True) .empty _
    [.put (some 0) [1], .put (some 1) [2], .get (slabLink none) 2]
    (fun trace _ => decide (trace = [.put [1] 1, .put [2] 1, .get 2 1 [1]])) (by decide +kernel)
  have htrace := of_decide_eq_true hfound
  refine ⟨trace, s, hrun, htrace, fun hreads => ?_⟩
  have hread := (hreads [.put [1] 1, .put [2] 1] (.get 2 1 [1]) [] htrace).1
  revert hread
  decide

end RtThread
