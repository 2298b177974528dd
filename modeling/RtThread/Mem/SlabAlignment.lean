import RtThread.Mem.SlabRuns

/-!
# The alignment of chunks

The offset of a chunk whose size is a power of two is a multiple of its size. A zone begins with a page, and so the address is a multiple of the size where this is not more than a page; beyond that it depends on where the zone begins.
-/

namespace RtThread

variable {cfg : SlabConfig} {fin : Nat} {s : Slab} {held : Finset Nat} {v : SlabView} {z zi j k n p size : Nat} {t t' : ZoneState}
  {trace : List ZoneEvent} {memory : Slab} {beginAddr endAddr : Nat}

def chunkOff (size k : Nat) : Nat := zoneOff size + k * size

namespace SlabInv

theorem servingZone_aligned (h : SlabInv cfg fin s held v) (hz : s.servingZone cfg zi = some z) : mmPageSize ∣ z := by
  rcases Option.eq_none_or_eq_some (s.zoneArray zi) with hnone | ⟨b, hfirst⟩
  · rcases Option.eq_none_or_eq_some s.zoneFree with hfree | ⟨b, hfree⟩
    · rw [Slab.servingZone_pages hnone hfree] at hz
      obtain ⟨r, -, rfl⟩ := Option.map_eq_some_iff.mp hz
      exact Nat.dvd_mul_left ..
    · rw [Slab.servingZone_spare hnone hfree] at hz
      obtain rfl := Option.some.inj hz
      have hspare := h.spare
      rw [hfree] at hspare
      obtain ⟨rest, heq, -⟩ := hspare.pop
      refine (h.place b (Or.inr ?_)).aligned
      rw [heq]
      exact List.mem_cons_self
  · rw [Slab.servingZone_first hfirst] at hz
    obtain rfl := Option.some.inj hz
    exact (h.place b (Or.inl (h.first_zone hfirst).1)).aligned

theorem malloc_small (h : SlabInv cfg fin s held v) (hcfg : cfg.Valid) (hpos : 0 < n) (hlt : n < cfg.zoneLimit) :
    ∃ s' k, s.rtMalloc cfg n = some (s', (s.servingZone cfg (zoneindex n).2).map fun z => z + chunkOff (zoneindex n).1 k) := by
  have hclass : ChunkClass cfg (zoneindex n).1 (zoneindex n).2 := ⟨n, hpos, hlt, rfl⟩
  have hindex := (hclass.size_eq hcfg).2.1
  unfold Slab.rtMalloc
  rw [if_neg (Nat.ne_of_gt hpos), if_neg (Nat.not_le_of_lt hlt), if_neg (Nat.not_le_of_lt hindex)]
  cases hfirst : s.zoneArray (zoneindex n).2 with
  | some z =>
    obtain ⟨s', v', k, htake, -, -⟩ := h.takeChunk hcfg hfirst hclass
    have hbase := (h.zones z (h.first_zone hfirst).1).base
    rw [h.first_size hcfg hfirst hclass] at hbase
    refine ⟨s', k, htake.trans ?_⟩
    rw [Slab.servingZone_first hfirst, Option.map_some, SlabZone.chunk, hbase, h.first_size hcfg hfirst hclass, chunkOff, Nat.add_assoc]
  | none =>
    obtain ⟨s', v', hnew, -, -⟩ := h.newZone hcfg hfirst hclass
    refine ⟨s', 0, hnew.trans ?_⟩
    rw [chunkOff, Nat.zero_mul, Nat.add_zero]

end SlabInv

theorem dvd_chunkOff (hlt : 2 ^ j < 16384) (k : Nat) : 2 ^ j ∣ chunkOff (zoneindex (2 ^ j)).1 k := by
  have hsize : (zoneindex (2 ^ j)).1 = 2 ^ max j 3 := (zoneindex_two_pow hlt).trans (max_two_pow j 3)
  have hdvd : 2 ^ j ∣ (zoneindex (2 ^ j)).1 := by
    rw [hsize]
    exact Nat.pow_dvd_pow 2 (Nat.le_max_left j 3)
  have hoff := dvd_zoneOff hsize
  exact Nat.dvd_add (hdvd.trans hoff) (hdvd.mul_left k)

/-- In every state of every run a request for a power of two that is served from a zone returns, and what it gives is a multiple of its size just when this is not more than a page or the zone begins at a multiple of it. -/
theorem slabAligned_iff (hend : endAddr < 2 ^ 32) (hinit : ZoneState.init memory beginAddr endAddr = some t)
    (hrun : ZoneRun (heapSizes beginAddr endAddr) t trace t') (hlt : 2 ^ j < (heapSizes beginAddr endAddr).zoneLimit) :
    ∃ s' result, t'.slab.rtMalloc (heapSizes beginAddr endAddr) (2 ^ j) = some (s', result) ∧
      ((∀ p ∈ result, 2 ^ j ∣ p) ↔
        2 ^ j ≤ mmPageSize ∨ ∀ z ∈ t'.slab.servingZone (heapSizes beginAddr endAddr) (zoneindex (2 ^ j)).2, 2 ^ j ∣ z) := by
  have hcfg := heapSizes_valid beginAddr endAddr
  obtain ⟨v, h⟩ := slabInv_of_run hend hinit hrun
  obtain ⟨s', k, hmalloc⟩ := h.malloc_small hcfg (Nat.two_pow_pos j) hlt
  have hlimit := hcfg.limit
  have hoff := dvd_chunkOff (j := j) (by omega) k
  refine ⟨s', _, hmalloc, ?_⟩
  have hzone : (∀ p ∈ (t'.slab.servingZone (heapSizes beginAddr endAddr) (zoneindex (2 ^ j)).2).map fun z => z + chunkOff (zoneindex (2 ^ j)).1 k,
      2 ^ j ∣ p) ↔ ∀ z ∈ t'.slab.servingZone (heapSizes beginAddr endAddr) (zoneindex (2 ^ j)).2, 2 ^ j ∣ z := by
    constructor
    · intro hall z hz
      exact (Nat.dvd_add_left hoff).mp (hall _ (Option.mem_map_of_mem _ hz))
    · intro hall p hp
      obtain ⟨z, hz, rfl⟩ := Option.map_eq_some_iff.mp hp
      exact (Nat.dvd_add_left hoff).mpr (hall z hz)
  rw [hzone]
  refine ⟨Or.inr, fun hcond => hcond.elim (fun hpage z hz => ?_) id⟩
  have hj : j ≤ 12 := (Nat.pow_le_pow_iff_right (by decide)).mp (show 2 ^ j ≤ 2 ^ 12 from hpage)
  have hdvd : 2 ^ j ∣ mmPageSize := Nat.pow_dvd_pow 2 hj
  exact hdvd.trans (h.servingZone_aligned hz)

/-- The request for a page is served from the zone that served the one before. -/
theorem slabAligned_iff_page : ∃ trace t', ZoneRun (heapSizes 0x20000000 0x20040000) smallZones trace t' ∧
    (t'.slab.rtMalloc (heapSizes 0x20000000 0x20040000) (2 ^ 12)).map Prod.snd = some (some 0x20003000) ∧
    ∃ s' result, t'.slab.rtMalloc (heapSizes 0x20000000 0x20040000) (2 ^ 12) = some (s', result) ∧
      ((∀ p ∈ result, 2 ^ 12 ∣ p) ↔
        2 ^ 12 ≤ mmPageSize ∨ ∀ z ∈ t'.slab.servingZone (heapSizes 0x20000000 0x20040000) (zoneindex (2 ^ 12)).2, 2 ^ 12 ∣ z) := by
  obtain ⟨trace, t', hrun, hfound⟩ := exists_zoneRun (heapSizes 0x20000000 0x20040000) smallZones [.malloc 4000]
    (fun t' => decide ((t'.slab.rtMalloc (heapSizes 0x20000000 0x20040000) (2 ^ 12)).map Prod.snd = some (some 0x20003000))) (by decide +kernel)
  exact ⟨trace, t', hrun, of_decide_eq_true hfound, slabAligned_iff (by decide) smallZones_init hrun (by decide)⟩

/-- In a heap of 64 megabytes and a page a zone has 64 kilobytes, and the first begins behind the 17 pages of `memusage`. -/
theorem slabAligned_fails : ∃ t s' p, ZoneState.init zeroMemory 0x20000000 0x24001000 = some t ∧
    2 ^ 13 < (heapSizes 0x20000000 0x24001000).zoneLimit ∧
    t.slab.rtMalloc (heapSizes 0x20000000 0x24001000) (2 ^ 13) = some (s', some p) ∧ ¬ 2 ^ 13 ∣ p := by
  have heval : ((ZoneState.init zeroMemory 0x20000000 0x24001000).bind fun t =>
      (t.slab.rtMalloc (heapSizes 0x20000000 0x24001000) (2 ^ 13)).map Prod.snd) = some (some 0x20013000) := by decide +kernel
  obtain ⟨t, hinit, hsome⟩ := Option.bind_eq_some_iff.mp heval
  obtain ⟨⟨s', result⟩, hmalloc, rfl⟩ := Option.map_eq_some_iff.mp hsome
  exact ⟨t, s', 0x20013000, hinit, by decide, hmalloc, by decide⟩

end RtThread
