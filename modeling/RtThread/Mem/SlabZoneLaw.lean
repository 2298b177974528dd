import RtThread.Mem.SlabRuns

/-!
# The zones in every run

What the lists of the heap and the blocks that are held have to do with each other, in every state that calls of `rt_malloc` and `rt_free` lead to.
-/

namespace RtThread

open FirstFit

variable {cfg : SlabConfig} {fin : Nat} {s : Slab} {held : Finset Nat} {v : SlabView} {z z' j k p q : Nat} {t t' : ZoneState} {trace : List ZoneEvent}
  {memory : Slab} {beginAddr endAddr : Nat}

/-- The block is a chunk by the mark of its page, and `rt_free` finds this zone for it. -/
def Slab.InZone (cfg : SlabConfig) (s : Slab) (p z : Nat) : Prop :=
  (s.memusage (cfg.btokup (p / mmPageSize * mmPageSize))).type = .small ∧
    p / mmPageSize * mmPageSize - (s.memusage (cfg.btokup (p / mmPageSize * mmPageSize))).size * mmPageSize = z

/-- The zones in use, what `zone_array` and `zone_free` list, and the free chunks of each zone. -/
structure ZonesLaw (cfg : SlabConfig) (s : Slab) (held zones : Finset Nat) (array : Nat → List Nat) (spare : List Nat) (free : Nat → List Nat) :
    Prop where
  inUse : ∀ z, z ∈ zones ↔ (∃ zi, z ∈ array zi) ∨ ∃ p ∈ held, s.InZone cfg p z
  arrayList : ∀ zi, LinkedFrom (fun z => (s.zone z).zNext) (s.zoneArray zi) (array zi) ∧ (array zi).Nodup
  spareList : LinkedFrom (fun z => (s.zone z).zNext) s.zoneFree spare ∧ spare.Nodup
  freeList : ∀ z ∈ zones, LinkedFrom s.cNext (s.zone z).zFreechunk (free z) ∧ (free z).Nodup
  count : ∀ z ∈ zones, (s.zone z).zNfree = (s.zone z).zNmax - ((s.zone z).zUindex + 1) + (free z).length
  notBoth : ∀ z ∈ zones, ∀ p ∈ free z, p ∉ held
  inside : ∀ z ∈ zones, ∀ p ∈ held, s.InZone cfg p z → z + sizeofSlabZone ≤ p ∧ p + (s.zone z).zChunksize ≤ z + cfg.zoneSize
  disjoint : ∀ z z' p q, p ∈ held → q ∈ held → s.InZone cfg p z → s.InZone cfg q z' → p ≠ q →
    p + (s.zone z).zChunksize ≤ q ∨ q + (s.zone z').zChunksize ≤ p
  listed : ∀ z ∈ zones, ∀ zi, z ∈ array zi ↔ zi = (s.zone z).zZoneindex ∧ 0 < (s.zone z).zNfree
  spareUnused : ∀ b ∈ spare, b ∉ zones ∧ ∀ z p, p ∈ held → s.InZone cfg p z → p + (s.zone z).zChunksize ≤ b ∨ b + cfg.zoneSize ≤ p
  returned : ∀ z p a, p ∈ held → s.InZone cfg p z → p ≤ a → a < p + (s.zone z).zChunksize → ¬ Covers (freeRuns s.pages) (a / mmPageSize)

namespace SlabInv

theorem inZone_iff (h : SlabInv cfg fin s held v) (hcfg : cfg.Valid) :
    p ∈ held ∧ s.InZone cfg p z ↔ ∃ k, LiveChunk s v z k ∧ p = (s.zone z).chunk k := by
  constructor
  · rintro ⟨hheld, htype, hzone⟩
    rcases (h.held p).mp hheld with hlarge | ⟨b, k, hlive, rfl⟩
    · obtain ⟨n, hpages⟩ := h.large p hlarge
      rw [Nat.div_mul_cancel hpages.aligned, btokup_eq hcfg, hpages.usage] at htype
      cases htype
    · obtain ⟨i, husage, hb⟩ := h.chunk_usage hcfg hlive.1 (h.live_lt hlive)
      rw [husage, hb] at hzone
      rw [← hzone]
      exact ⟨k, hlive, rfl⟩
  · rintro ⟨k, hlive, rfl⟩
    obtain ⟨i, husage, hz⟩ := h.chunk_usage hcfg hlive.1 (h.live_lt hlive)
    refine ⟨(h.held _).mpr (Or.inr ⟨z, k, hlive, rfl⟩), ?_, ?_⟩
    · rw [husage]
    · rw [husage]
      exact hz

theorem zones_apart (h : SlabInv cfg fin s held v) (hcfg : cfg.Valid) (hz : z ∈ v.active ∨ z ∈ v.spare) (hz' : z' ∈ v.active ∨ z' ∈ v.spare)
    (hne : z ≠ z') : z + cfg.zoneSize ≤ z' ∨ z' + cfg.zoneSize ≤ z := by
  have hplace := h.place z hz
  have hplace' := h.place z' hz'
  by_contra hover
  obtain ⟨hlow, hhigh⟩ := not_or.mp hover
  rcases Nat.le_total z z' with hle | hle
  · have hown := hplace.own_of_mem hcfg hle (Nat.lt_of_not_le hlow)
    rw [hplace'.own_self hcfg] at hown
    exact hne (Option.some.inj hown).symm
  · have hown := hplace'.own_of_mem hcfg hle (Nat.lt_of_not_le hhigh)
    rw [hplace.own_self hcfg] at hown
    exact hne (Option.some.inj hown)

theorem live_bounds (h : SlabInv cfg fin s held v) (hcfg : cfg.Valid) (hlive : LiveChunk s v z k) :
    z + sizeofSlabZone ≤ (s.zone z).chunk k ∧ (s.zone z).chunk k + (s.zone z).zChunksize ≤ z + cfg.zoneSize :=
  (h.zones z hlive.1).chunk_bounds hcfg (h.live_lt hlive)

theorem live_disjoint (h : SlabInv cfg fin s held v) (hcfg : cfg.Valid) (hlive : LiveChunk s v z j) (hlive' : LiveChunk s v z' k)
    (hne : (s.zone z).chunk j ≠ (s.zone z').chunk k) :
    (s.zone z).chunk j + (s.zone z).zChunksize ≤ (s.zone z').chunk k ∨ (s.zone z').chunk k + (s.zone z').zChunksize ≤ (s.zone z).chunk j := by
  by_cases heq : z = z'
  · rw [← heq] at hne ⊢
    have hjk : j ≠ k := fun hjk => hne (by rw [hjk])
    unfold SlabZone.chunk
    rcases Nat.lt_or_gt_of_ne hjk with hlt | hlt
    · have hmul := Nat.mul_le_mul_right (s.zone z).zChunksize (Nat.succ_le_of_lt hlt)
      rw [Nat.succ_mul] at hmul
      omega
    · have hmul := Nat.mul_le_mul_right (s.zone z).zChunksize (Nat.succ_le_of_lt hlt)
      rw [Nat.succ_mul] at hmul
      omega
  · have hbounds := h.live_bounds hcfg hlive
    have hbounds' := h.live_bounds hcfg hlive'
    have hapart := h.zones_apart hcfg (Or.inl hlive.1) (Or.inl hlive'.1) heq
    omega

theorem live_of_full (h : SlabInv cfg fin s held v) (hcfg : cfg.Valid) (hz : z ∈ v.active) (hnone : (s.zone z).zNfree = 0) :
    LiveChunk s v z 0 := by
  have hzone := h.zones z hz
  have hleft := hzone.nfree
  have hmax := (hzone.size.nmax_bounds hcfg).1
  unfold Carving.left at hleft
  have hempty : v.free z = [] := List.length_eq_zero_iff.mp (by omega)
  refine ⟨hz, Nat.zero_lt_succ _, ?_⟩
  rw [hempty]
  exact List.not_mem_nil

theorem mem_active_iff (h : SlabInv cfg fin s held v) (hcfg : cfg.Valid) :
    z ∈ v.active ↔ (∃ zi, z ∈ v.array zi) ∨ ∃ p ∈ held, s.InZone cfg p z := by
  constructor
  · intro hz
    by_cases hnone : (s.zone z).zNfree = 0
    · exact Or.inr ⟨_, (h.inZone_iff hcfg).mpr ⟨0, h.live_of_full hcfg hz hnone, rfl⟩⟩
    · exact Or.inl ⟨_, (h.listed.mem _ z).mpr ⟨hz, rfl, Nat.pos_of_ne_zero hnone⟩⟩
  · rintro (⟨zi, hmem⟩ | ⟨p, hheld, hzone⟩)
    · exact ((h.listed.mem zi z).mp hmem).1
    · obtain ⟨k, hlive, -⟩ := (h.inZone_iff hcfg).mp ⟨hheld, hzone⟩
      exact hlive.1

theorem free_notMem (h : SlabInv cfg fin s held v) (hcfg : cfg.Valid) (hz : z ∈ v.active) (hk : k ∈ v.free z) : (s.zone z).chunk k ∉ held := by
  have hzone := h.zones z hz
  have hlt := Nat.lt_of_lt_of_le (hzone.slots.lt k hk) hzone.slots.le
  rw [h.held, givenOut_iff s v z]
  rintro (helse | ⟨j, hlive, heq⟩)
  · exact h.chunk_not_else hcfg hz hlt helse
  · rw [(hzone.chunk_inj hcfg).mp heq] at hk
    exact hlive.2.2 hk

theorem live_not_covered (h : SlabInv cfg fin s held v) (hcfg : cfg.Valid) (hlive : LiveChunk s v z k) {a : Nat} (hlow : (s.zone z).chunk k ≤ a)
    (hhigh : a < (s.zone z).chunk k + (s.zone z).zChunksize) : ¬ Covers (freeRuns s.pages) (a / mmPageSize) := by
  have hbounds := h.live_bounds hcfg hlive
  have hruns : freeRuns s.pages = v.runs := h.pages.list.runsFrom_eq h.pages.length_lt
  have hown := (h.place z (Or.inl hlive.1)).own_of_mem hcfg (show z ≤ a by omega) (by omega)
  rw [hruns]
  exact fun hcovers => h.pages.apart _ hcovers (h.owned _ _ hown)

theorem zonesLaw (h : SlabInv cfg fin s held v) (hcfg : cfg.Valid) :
    ZonesLaw cfg s held v.active v.array v.spare fun z => (v.free z).map (s.zone z).chunk where
  inUse z := h.mem_active_iff hcfg
  arrayList zi := ⟨h.listed.linked zi, h.listed.nodup zi⟩
  spareList := ⟨h.spare.linked, h.spare.nodup⟩
  freeList z hz := by
    have hzone := h.zones z hz
    refine ⟨hzone.chain, hzone.slots.nodup.map ?_⟩
    intro j k heq
    exact (hzone.chunk_inj hcfg).mp heq
  count z hz := by
    rw [List.length_map]
    exact (h.zones z hz).nfree
  notBoth z hz p hp := by
    obtain ⟨k, hk, rfl⟩ := List.mem_map.mp hp
    exact h.free_notMem hcfg hz hk
  inside z hz p hheld hzone := by
    obtain ⟨k, hlive, rfl⟩ := (h.inZone_iff hcfg).mp ⟨hheld, hzone⟩
    exact h.live_bounds hcfg hlive
  disjoint z z' p q hp hq hzone hzone' hne := by
    obtain ⟨j, hlive, rfl⟩ := (h.inZone_iff hcfg).mp ⟨hp, hzone⟩
    obtain ⟨k, hlive', rfl⟩ := (h.inZone_iff hcfg).mp ⟨hq, hzone'⟩
    exact h.live_disjoint hcfg hlive hlive' hne
  listed z hz zi := by
    rw [h.listed.mem zi z, and_iff_right hz, eq_comm]
  spareUnused b hb := by
    refine ⟨h.spare.apart b hb, fun z p hheld hzone => ?_⟩
    obtain ⟨k, hlive, rfl⟩ := (h.inZone_iff hcfg).mp ⟨hheld, hzone⟩
    have hbounds := h.live_bounds hcfg hlive
    have hne : z ≠ b := fun heq => h.spare.apart b hb (heq ▸ hlive.1)
    have hapart := h.zones_apart hcfg (Or.inl hlive.1) (Or.inr hb) hne
    omega
  returned z p a hheld hzone hlow hhigh := by
    obtain ⟨k, hlive, rfl⟩ := (h.inZone_iff hcfg).mp ⟨hheld, hzone⟩
    exact h.live_not_covered hcfg hlive hlow hhigh

end SlabInv

/-- In every state of every run the zones in use, the lists and the blocks that are held fit together. -/
theorem zonesLaw_of_run (hend : endAddr < 2 ^ 32) (hinit : ZoneState.init memory beginAddr endAddr = some t)
    (hrun : ZoneRun (heapSizes beginAddr endAddr) t trace t') :
    ∃ zones array spare free, ZonesLaw (heapSizes beginAddr endAddr) t'.slab t'.held zones array spare free := by
  obtain ⟨v, h⟩ := slabInv_of_run hend hinit hrun
  exact ⟨_, _, _, _, h.zonesLaw (heapSizes_valid beginAddr endAddr)⟩

/-- The seven chunks of the first zone are given out, and one of a second; the seven come back, and the first zone is spare. -/
theorem zonesLaw_of_run_spare : ∃ trace t', ZoneRun (heapSizes 0x20000000 0x20040000) smallZones trace t' ∧
    t'.slab.zoneFree = some 0x20001000 ∧ t'.held = {0x2000A000} ∧
    ∃ zones array spare free, ZonesLaw (heapSizes 0x20000000 0x20040000) t'.slab t'.held zones array spare free := by
  obtain ⟨trace, t', hrun, hfound⟩ := exists_zoneRun (heapSizes 0x20000000 0x20040000) smallZones
    [.malloc 4096, .malloc 4096, .malloc 4096, .malloc 4096, .malloc 4096, .malloc 4096, .malloc 4096, .malloc 4096,
      .free (some 0x20004000), .free (some 0x20002000), .free (some 0x20003000), .free (some 0x20005000), .free (some 0x20006000),
      .free (some 0x20007000), .free (some 0x20008000)]
    (fun t' => decide (t'.slab.zoneFree = some 0x20001000 ∧ t'.held = {0x2000A000})) (by decide +kernel)
  obtain ⟨hfree, hheld⟩ := of_decide_eq_true hfound
  exact ⟨trace, t', hrun, hfree, hheld, zonesLaw_of_run (by decide) smallZones_init hrun⟩

end RtThread
