import RtThread.Mem.SlabFree

/-!
# Every run of the slab heap

`rt_malloc` and `rt_free` in any order. In every state of a run each zone counts its free chunks, is in the array just when it has one, and gives no address out twice.
-/

namespace RtThread

open Function FirstFit

structure ZoneState where
  slab : Slab
  held : Finset Nat

inductive ZoneOp
  | malloc (size : Nat)
  | free (ptr : Option Nat)
  /-- The callers write at the beginning of a block, where a header, a link or the head of a page may have been. -/
  | write (ptr : Nat) (hdr : SlabZone) (next : Option Nat) (head : PageHead)

inductive ZoneEvent
  | malloc (size : Nat) (result : Option Nat)
  | free (ptr : Option Nat)
  deriving DecidableEq

def ZoneUse (s : ZoneState) : ZoneOp → Prop
  | .malloc _ => True
  | .free ptr => ∀ p ∈ ptr, p ∈ s.held
  | .write ptr .. => ptr ∈ s.held

instance (s : ZoneState) (op : ZoneOp) : Decidable (ZoneUse s op) := by
  cases op <;> unfold ZoneUse <;> infer_instance

def dropBlock (held : Finset Nat) : Option Nat → Finset Nat
  | none => held
  | some p => held.erase p

def Slab.write (s : Slab) (ptr : Nat) (hdr : SlabZone) (next : Option Nat) (head : PageHead) : Slab :=
  { s with
    zone := update s.zone ptr hdr
    cNext := update s.cNext ptr next
    pages := s.pages.setHead (ptr / mmPageSize) fun _ => head }

def stepZone (cfg : SlabConfig) (s : ZoneState) : ZoneOp → Option (ZoneState × List ZoneEvent)
  | .malloc size => (s.slab.rtMalloc cfg size).map fun r => (⟨r.1, holdBlock s.held r.2⟩, [.malloc size r.2])
  | .free ptr => (s.slab.rtFree cfg ptr).map fun slab => (⟨slab, dropBlock s.held ptr⟩, [.free ptr])
  | .write ptr hdr next head => some (⟨s.slab.write ptr hdr next head, s.held⟩, [])

def heapSizes (beginAddr endAddr : Nat) : SlabConfig :=
  slabConfig (pageConfig.rtAlign beginAddr) (pageConfig.rtAlignDown endAddr - pageConfig.rtAlign beginAddr)

/-- `rt_system_heap_init` on memory with the given contents. -/
def ZoneState.init (memory : Slab) (beginAddr endAddr : Nat) : Option ZoneState :=
  (slabHeapInit memory.pages.head beginAddr endAddr).map fun r =>
    ⟨{ memory with pages := r.1, zoneArray := fun _ => none, zoneFree := none, zoneFreeCnt := 0 }, ∅⟩

abbrev ZoneRun (cfg : SlabConfig) (s₀ : ZoneState) : List ZoneEvent → ZoneState → Prop := Transition.Run (stepZone cfg) ZoneUse s₀

variable {cfg : SlabConfig} {fin : Nat} {s : Slab} {held : Finset Nat} {v : SlabView} {z zi k n p q size : Nat} {t t' : ZoneState} {op : ZoneOp}
  {trace : List ZoneEvent} {memory : Slab} {beginAddr endAddr : Nat}

/-! ## The invariant of the runs -/

namespace SlabInv

theorem held_notMem (h : SlabInv cfg fin s held v) (hcfg : cfg.Valid) (hp : p ∈ held) : p ∉ v.active ∧ p ∉ v.spare := by
  rcases (h.held p).mp hp with hlarge | ⟨z, k, hlive, rfl⟩
  · exact h.large_notMem hcfg hlarge
  · obtain ⟨hlow, -, hown⟩ := h.chunk_place hcfg hlive.1 (h.live_lt hlive)
    have hno : ¬ ((s.zone z).chunk k ∈ v.active ∨ (s.zone z).chunk k ∈ v.spare) := by
      intro hmem
      have hself := (h.place _ hmem).own_self hcfg
      rw [hown] at hself
      have heq := Option.some.inj hself
      omega
    exact not_or.mp hno

theorem write (h : SlabInv cfg fin s held v) (hcfg : cfg.Valid) (hp : p ∈ held) (hdr : SlabZone) (next : Option Nat) (head : PageHead) :
    SlabInv cfg fin (s.write p hdr next head) held v := by
  have hgiven := (h.held p).mp hp
  obtain ⟨hactive, hspare⟩ := h.held_notMem hcfg hp
  have hzone := h.setOther hactive hspare hdr
  have hpage : p / mmPageSize ∈ v.allocated := by
    rcases h.own_of_given hcfg hgiven with ⟨-, hown⟩ | ⟨z, k, -, -, hown⟩
    · exact h.owned _ _ hown
    · exact h.owned _ _ hown
  refine ⟨h.pages.write hpage fun _ => head, h.owned, fun z hz => (hzone.zones z hz).congr fun k hk => ?_, h.place, hzone.listed, hzone.spare,
    h.spareCnt, h.large, hzone.held⟩
  have hsame : (update s.zone p hdr z) = s.zone z := update_of_ne (fun heq : z = p => hactive (heq ▸ hz)) ..
  show update s.cNext p next ((update s.zone p hdr z).chunk k) = s.cNext ((update s.zone p hdr z).chunk k)
  rw [hsame, update_of_ne]
  intro heq
  have hz' := h.zones z hz
  have hk' := Nat.lt_of_lt_of_le (hz'.slots.lt k hk) hz'.slots.le
  rcases (givenOut_iff s v z p).mp hgiven with helse | ⟨j, hlive, hj⟩
  · rw [← heq] at helse
    exact h.chunk_not_else hcfg hz hk' helse
  · rw [(hz'.chunk_inj hcfg).mp (heq.trans hj)] at hk
    exact hlive.2.2 hk

theorem step (h : SlabInv cfg fin t.slab t.held v) (hcfg : cfg.Valid) (hok : ZoneUse t op) :
    ∃ t' events v', stepZone cfg t op = some (t', events) ∧ SlabInv cfg fin t'.slab t'.held v' := by
  cases op with
  | malloc size =>
    obtain ⟨s', result, v', hmalloc, hinv, -⟩ := h.malloc hcfg size
    exact ⟨_, _, v', by rw [stepZone, hmalloc, Option.map_some], hinv⟩
  | free ptr =>
    cases ptr with
    | none => exact ⟨t, _, v, rfl, h⟩
    | some p =>
      obtain ⟨s', v', hfree, hinv⟩ := h.free hcfg (hok p rfl)
      exact ⟨_, _, v', by rw [stepZone, hfree, Option.map_some], hinv⟩
  | write ptr hdr next head => exact ⟨_, _, v, rfl, h.write hcfg hok hdr next head⟩

end SlabInv

theorem heapSizes_valid (beginAddr endAddr : Nat) : (heapSizes beginAddr endAddr).Valid := slabConfig_valid (pageConfig.rtAlign_dvd beginAddr)

theorem slabInv_init (hend : endAddr < 2 ^ 32) (hinit : ZoneState.init memory beginAddr endAddr = some t) :
    ∃ v, SlabInv (heapSizes beginAddr endAddr) (heapPages beginAddr endAddr).2 t.slab t.held v := by
  obtain ⟨r, hheap, rfl⟩ := Option.map_eq_some_iff.mp hinit
  have hpages : SlabState.init memory.pages.head beginAddr endAddr = some ⟨r.1, givePages ∅ (memusagePages r.2.1) r.2.2⟩ := by
    rw [SlabState.init, hheap, Option.map_some]
  obtain ⟨rs, hinv⟩ := pagesInv_init hend hpages
  have hnone : ∀ z : Nat, z ∉ (∅ : Finset Nat) := Finset.notMem_empty
  have hlisted : Listed ∅ memory.zone (fun _ => none) fun _ => [] := by
    refine ⟨fun _ => rfl, fun _ => List.nodup_nil, fun zi z => ?_⟩
    exact iff_of_false List.not_mem_nil fun hmem => hnone z hmem.1
  have hspare : Spare ∅ memory.zone none [] := ⟨rfl, List.nodup_nil, fun z hz => absurd hz List.not_mem_nil⟩
  refine ⟨⟨_, rs, ∅, fun _ => [], [], fun _ => [], ∅, fun _ => none⟩, hinv, by nofun, fun z hz => absurd hz (hnone z), fun z hz => ?_, hlisted, hspare,
    rfl, fun p hp => absurd hp (hnone p), fun p => iff_of_false (hnone p) ?_⟩
  · exact hz.elim (fun hmem => absurd hmem (hnone z)) fun hmem => absurd hmem List.not_mem_nil
  · rintro (hlarge | ⟨z, k, hlive, -⟩)
    · exact hnone p hlarge
    · exact hnone z hlive.1

theorem slabInv_of_run (hend : endAddr < 2 ^ 32) (hinit : ZoneState.init memory beginAddr endAddr = some t)
    (hrun : ZoneRun (heapSizes beginAddr endAddr) t trace t') :
    ∃ v, SlabInv (heapSizes beginAddr endAddr) (heapPages beginAddr endAddr).2 t'.slab t'.held v := by
  refine hrun.state_invariant (I := fun t' => ∃ v, SlabInv (heapSizes beginAddr endAddr) (heapPages beginAddr endAddr).2 t'.slab t'.held v)
    (slabInv_init hend hinit) ?_
  rintro s op s' events ⟨v, h⟩ hok hs
  obtain ⟨s'', events', v', hs', hinv⟩ := h.step (heapSizes_valid beginAddr endAddr) hok
  obtain ⟨rfl, rfl⟩ := Prod.mk.inj (Option.some.inj (hs'.symm.trans hs))
  exact ⟨v', hinv⟩

/-! ## Concrete runs -/

def zeroMemory : Slab := ⟨⟨0, fun _ => ⟨0, 0⟩⟩, fun _ => ⟨.free, 0⟩, fun _ => none, none, 0, fun _ => ⟨0, 0, 0, none, 0, 0, 0, 0, none⟩, fun _ => none⟩

def smallZones : ZoneState := (ZoneState.init zeroMemory 0x20000000 0x20040000).get (by decide +kernel)

theorem smallZones_init : ZoneState.init zeroMemory 0x20000000 0x20040000 = some smallZones := (Option.some_get _).symm

theorem exists_zoneRun (cfg : SlabConfig) (s₀ : ZoneState) (ops : List ZoneOp) (found : ZoneState → Bool)
    (h : ((Transition.exec (stepZone cfg) ZoneUse s₀ ops).any fun r => found r.2) = true) :
    ∃ trace s, ZoneRun cfg s₀ trace s ∧ found s = true :=
  Transition.exists_run_of_exec ops (fun _ => found) h

end RtThread
