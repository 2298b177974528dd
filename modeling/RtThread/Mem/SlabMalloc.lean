import RtThread.Mem.SlabInv

/-!
# Allocation from the slab heap

What one call of `rt_malloc` does: it gives out a chunk of the first zone of an entry, the first chunk of a zone that starts, or a run of pages.
-/

namespace RtThread

open Function FirstFit

variable {cfg : SlabConfig} {fin : Nat} {s : Slab} {held : Finset Nat} {v : SlabView} {z zi k n p size : Nat}

/-! ## A chunk of a zone in use -/

namespace Slab

def nextTaken (h : SlabZone) : Option Nat := if h.zNfree - 1 = 0 then none else h.zNext

def arrayTaken (s : Slab) (zi z : Nat) : Nat → Option Nat :=
  if (s.zone z).zNfree - 1 = 0 then update s.zoneArray zi (s.zone z).zNext else s.zoneArray

theorem takeChunk_carve (hsome : (s.zone z).zNfree ≠ 0) (hmore : (s.zone z).zUindex + 1 ≠ (s.zone z).zNmax) :
    s.takeChunk zi z size = some
      ({ s with
          zone := update s.zone z
            { s.zone z with zNfree := (s.zone z).zNfree - 1, zUindex := (s.zone z).zUindex + 1, zNext := nextTaken (s.zone z) }
          zoneArray := s.arrayTaken zi z },
        some ((s.zone z).zBaseptr + ((s.zone z).zUindex + 1) * size)) := by
  unfold takeChunk leaveArray setZone nextTaken arrayTaken
  rw [if_neg hsome]
  by_cases hlast : (s.zone z).zNfree - 1 = 0
  · simp only [update_self, update_idem, if_pos hlast, if_pos hmore]
  · simp only [update_self, update_idem, if_neg hlast, if_pos hmore]

theorem takeChunk_pop (hsome : (s.zone z).zNfree ≠ 0) (hlast : (s.zone z).zUindex + 1 = (s.zone z).zNmax)
    (hfree : (s.zone z).zFreechunk = some p) :
    s.takeChunk zi z size = some
      ({ s with
          zone := update s.zone z
            { s.zone z with zNfree := (s.zone z).zNfree - 1, zFreechunk := s.cNext p, zNext := nextTaken (s.zone z) }
          zoneArray := s.arrayTaken zi z },
        some p) := by
  have hno : ¬ (s.zone z).zUindex + 1 ≠ (s.zone z).zNmax := not_not.mpr hlast
  unfold takeChunk leaveArray setZone nextTaken arrayTaken
  rw [if_neg hsome]
  by_cases hempty : (s.zone z).zNfree - 1 = 0
  · simp only [update_self, update_idem, if_pos hempty, if_neg hno, hfree, Option.map_some]
  · simp only [update_self, update_idem, if_neg hempty, if_neg hno, hfree, Option.map_some]

end Slab

theorem Listed.take {active : Finset Nat} {array : Nat → List Nat} {hdr : SlabZone} (hl : Listed active s.zone s.zoneArray array)
    (hfirst : s.zoneArray zi = some z) (hindex : hdr.zZoneindex = (s.zone z).zZoneindex) (hcount : hdr.zNfree = (s.zone z).zNfree - 1)
    (hnext : hdr.zNext = Slab.nextTaken (s.zone z)) :
    ∃ array', Listed active (update s.zone z hdr) (s.arrayTaken zi z) array' := by
  have hlinked := hl.linked zi
  rw [hfirst] at hlinked
  obtain ⟨rest, hrest, -⟩ := hlinked.exists_of_some
  have hmem := (hl.mem zi z).mp (by rw [hrest]; exact List.mem_cons_self)
  unfold Slab.nextTaken at hnext
  unfold Slab.arrayTaken
  split_ifs at hnext ⊢ with hempty
  · exact ⟨_, hl.leave hrest (hindex.trans hmem.2.1) (hcount.trans hempty)⟩
  · refine ⟨array, hl.same hnext hindex ?_⟩
    omega

namespace SlabInv

theorem first_zone (h : SlabInv cfg fin s held v) (hfirst : s.zoneArray zi = some z) :
    z ∈ v.active ∧ (s.zone z).zZoneindex = zi ∧ 0 < (s.zone z).zNfree := by
  have hlinked := h.listed.linked zi
  rw [hfirst] at hlinked
  obtain ⟨rest, hrest, -⟩ := hlinked.exists_of_some
  exact (h.listed.mem zi z).mp (by rw [hrest]; exact List.mem_cons_self)

theorem first_size (h : SlabInv cfg fin s held v) (hcfg : cfg.Valid) (hfirst : s.zoneArray zi = some z) (hclass : ChunkClass cfg size zi) :
    (s.zone z).zChunksize = size := by
  obtain ⟨hactive, hindex, -⟩ := h.first_zone hfirst
  have hsize := (h.zones z hactive).size
  rw [hindex] at hsize
  exact hsize.unique hclass hcfg

theorem giveOut (h : SlabInv cfg fin s held v) (hcfg : cfg.Valid) (hfirst : s.zoneArray zi = some z) {hdr : SlabZone} {free : List Nat}
    (hzone : ZoneInv cfg s.cNext z hdr free) (hchunk : hdr.chunk = (s.zone z).chunk) (hindex : hdr.zZoneindex = (s.zone z).zZoneindex)
    (hcount : hdr.zNfree = (s.zone z).zNfree - 1) (hnext : hdr.zNext = Slab.nextTaken (s.zone z))
    (hlive : ∀ j, Carving.Live (hdr.zUindex + 1) free j ↔ Carving.Live ((s.zone z).zUindex + 1) (v.free z) j ∨ j = k)
    (hk : k < (s.zone z).zNmax) (hnew : ¬ Carving.Live ((s.zone z).zUindex + 1) (v.free z) k) :
    ∃ v', SlabInv cfg fin { s with zone := update s.zone z hdr, zoneArray := s.arrayTaken zi z } (insert (hdr.chunk k) held) v' ∧
      hdr.chunk k ∉ held := by
  obtain ⟨hactive, -, -⟩ := h.first_zone hfirst
  obtain ⟨array, hlisted⟩ := h.listed.take hfirst hindex hcount hnext
  refine ⟨_, h.changeZone hactive hzone (fun _ _ _ _ _ => rfl) hlisted fun q => ?_, ?_⟩
  · rw [Finset.mem_insert, h.held q, givenOut_iff s v z q, hchunk]
    constructor
    · rintro (hq | helse | ⟨j, hj, hq⟩)
      · exact Or.inr ⟨k, (hlive k).mpr (Or.inr rfl), hq⟩
      · exact Or.inl helse
      · exact Or.inr ⟨j, (hlive j).mpr (Or.inl hj.2), hq⟩
    · rintro (helse | ⟨j, hj, hq⟩)
      · exact Or.inr (Or.inl helse)
      · rcases (hlive j).mp hj with hold | hjk
        · exact Or.inr (Or.inr ⟨j, ⟨hactive, hold⟩, hq⟩)
        · rw [hjk] at hq
          exact Or.inl hq
  · rw [h.held, givenOut_iff s v z, hchunk]
    rintro (helse | ⟨j, hj, heq⟩)
    · exact h.chunk_not_else hcfg hactive hk helse
    · rw [((h.zones z hactive).chunk_inj hcfg).mp heq] at hnew
      exact hnew hj.2

theorem takeChunk (h : SlabInv cfg fin s held v) (hcfg : cfg.Valid) (hfirst : s.zoneArray zi = some z) (hclass : ChunkClass cfg size zi) :
    ∃ s' v' k, s.takeChunk zi z size = some (s', some ((s.zone z).chunk k)) ∧
      SlabInv cfg fin s' (insert ((s.zone z).chunk k) held) v' ∧ (s.zone z).chunk k ∉ held := by
  obtain ⟨hactive, hindex, hpos⟩ := h.first_zone hfirst
  have hsize := h.first_size hcfg hfirst hclass
  have hzone := h.zones z hactive
  have hsome := Nat.ne_of_gt hpos
  by_cases hmore : (s.zone z).zUindex + 1 = (s.zone z).zNmax
  · obtain ⟨k, rest, hfree⟩ := hzone.exists_free hsome hmore
    rw [hfree] at hzone
    have hchunk : (s.zone z).zFreechunk = some ((s.zone z).chunk k) := hzone.chain.1
    have hk := hzone.slots.lt k List.mem_cons_self
    obtain ⟨v', hinv, hnew⟩ := h.giveOut hcfg hfirst (hzone.pop (Slab.nextTaken (s.zone z))) rfl rfl rfl rfl (k := k)
      (fun j => by rw [hfree]; exact Carving.live_pop hzone.slots) (by omega) (fun hlive => hlive.2 (by rw [hfree]; exact List.mem_cons_self))
    exact ⟨_, v', k, Slab.takeChunk_pop hsome hmore hchunk, hinv, hnew⟩
  · have hlt := hzone.slots.le
    obtain ⟨v', hinv, hnew⟩ := h.giveOut hcfg hfirst (hzone.carve hmore (Slab.nextTaken (s.zone z))) rfl rfl rfl rfl (k := (s.zone z).zUindex + 1)
      (fun j => Carving.live_carve hzone.slots) (by omega) (fun hlive => Nat.lt_irrefl _ hlive.1)
    have haddr : (s.zone z).zBaseptr + ((s.zone z).zUindex + 1) * size = (s.zone z).chunk ((s.zone z).zUindex + 1) := by
      rw [SlabZone.chunk, hsize]
    refine ⟨_, v', (s.zone z).zUindex + 1, ?_, hinv, hnew⟩
    rw [Slab.takeChunk_carve hsome hmore, haddr]

end SlabInv

/-! ## A zone that starts -/

def startHeader (cfg : SlabConfig) (s : Slab) (zi z size : Nat) : SlabZone :=
  ⟨zallocSlabMagic, (cfg.zoneSize - zoneOff size) / size - 1, (cfg.zoneSize - zoneOff size) / size, s.zoneArray zi, z + zoneOff size, 0, size, zi, none⟩

theorem startZone_eq (cfg : SlabConfig) (s : Slab) (zi z size : Nat) : s.startZone cfg zi z size =
    ({ s with zone := update s.zone z (startHeader cfg s zi z size), zoneArray := update s.zoneArray zi (some z) },
      some (z + zoneOff size)) := by
  unfold Slab.startZone Slab.setZone startHeader
  dsimp only
  rw [Nat.zero_mul, Nat.add_zero]

theorem startZone_snd (cfg : SlabConfig) (s : Slab) (zi z size : Nat) : (s.startZone cfg zi z size).2 = some (z + zoneOff size) := by
  rw [startZone_eq]

theorem startHeader_inv (hcfg : cfg.Valid) (hclass : ChunkClass cfg size zi) (cNext : Nat → Option Nat) (z : Nat) :
    ZoneInv cfg cNext z (startHeader cfg s zi z size) [] := by
  have hmax := (hclass.nmax_bounds hcfg).1
  refine ⟨rfl, hclass, rfl, rfl, ⟨?_, List.nodup_nil, by nofun⟩, rfl, rfl⟩
  exact Nat.le_of_lt hmax

namespace SlabInv

theorem startZone (h : SlabInv cfg fin s held v) (hcfg : cfg.Valid) (hclass : ChunkClass cfg size zi)
    (hplace : ZonePages cfg s.memusage v.own z) (hactive : z ∉ v.active) (hspare : z ∉ v.spare) :
    ∃ v', SlabInv cfg fin (s.startZone cfg zi z size).1 (insert (z + zoneOff size) held) v' ∧ z + zoneOff size ∉ held := by
  rw [startZone_eq]
  have hmax := (hclass.nmax_bounds hcfg).1
  have hzone := startHeader_inv (s := s) hcfg hclass s.cNext z
  have hchunk : (startHeader cfg s zi z size).chunk 0 = z + zoneOff size := by
    rw [SlabZone.chunk, Nat.zero_mul, Nat.add_zero]
    rfl
  have hentry : ∀ i, z ∉ v.array i := fun i hmem => hactive ((h.listed.mem i z).mp hmem).1
  have hcount : 0 < (startHeader cfg s zi z size).zNfree := Nat.sub_pos_of_lt hmax
  refine ⟨{ v with active := insert z v.active, array := update v.array zi (z :: v.array zi), free := update v.free z [] },
    ⟨h.pages, h.owned, fun b hb => ?_, fun b hb => ?_, h.listed.enter hentry rfl rfl hcount, (h.spare.insert hspare).other hspare _, h.spareCnt,
      h.large, fun q => ?_⟩, fun hheld => ?_⟩
  · show ZoneInv cfg s.cNext b (update s.zone z _ b) (update v.free z [] b)
    by_cases heq : b = z
    · rw [heq, update_self, update_self]
      exact hzone
    · rw [update_of_ne heq, update_of_ne heq]
      exact h.zones b ((Finset.mem_insert.mp hb).resolve_left heq)
  · by_cases heq : b = z
    · rw [heq]
      exact hplace
    · exact h.place b (hb.imp_left fun hmem => (Finset.mem_insert.mp hmem).resolve_left heq)
  · rw [Finset.mem_insert, h.held q, givenOut_iff s v z q, givenOut_iff _ _ z q]
    have helse : GivenElse { s with zone := update s.zone z (startHeader cfg s zi z size), zoneArray := update s.zoneArray zi (some z) }
        { v with active := insert z v.active, array := update v.array zi (z :: v.array zi), free := update v.free z [] } z q ↔
          GivenElse s v z q := by
      refine givenElse_congr ?_ (fun b hb => ?_) fun b hb => ?_
      · rfl
      · exact Finset.mem_insert.trans (or_iff_right hb)
      · show (update s.zone z _ b).chunk = _ ∧ (update s.zone z _ b).zUindex = _ ∧ update v.free z [] b = _
        rw [update_of_ne hb, update_of_ne hb]
        exact ⟨rfl, rfl, rfl⟩
    rw [helse]
    constructor
    · rintro (hq | helse | ⟨k, hlive, -⟩)
      · refine Or.inr ⟨0, ⟨Finset.mem_insert_self z v.active, ?_⟩, ?_⟩
        · show Carving.Live ((update s.zone z _ z).zUindex + 1) (update v.free z [] z) 0
          rw [update_self, update_self]
          exact ⟨Nat.zero_lt_one, List.not_mem_nil⟩
        · show q = (update s.zone z _ z).chunk 0
          rw [update_self, hchunk]
          exact hq
      · exact Or.inl helse
      · exact absurd hlive.1 hactive
    · rintro (helse | ⟨k, hlive, hq⟩)
      · exact Or.inr (Or.inl helse)
      · have hfirst : Carving.Live ((update s.zone z (startHeader cfg s zi z size) z).zUindex + 1) (update v.free z [] z) k := hlive.2
        have haddr : q = (update s.zone z (startHeader cfg s zi z size) z).chunk k := hq
        rw [update_self] at hfirst haddr
        have hk : k < 1 := hfirst.1
        rw [Nat.lt_one_iff.mp hk, hchunk] at haddr
        exact Or.inl haddr
  · have hbounds := hzone.chunk_bounds hcfg (show 0 < (startHeader cfg s zi z size).zNmax from Nat.zero_lt_of_lt hmax)
    have hpos := hzone.size_pos hcfg
    rw [hchunk] at hbounds
    unfold sizeofSlabZone at hbounds
    have hown := hplace.own_of_mem hcfg (p := z + zoneOff size) (by omega) (by omega)
    rcases h.own_of_given hcfg ((h.held _).mp hheld) with ⟨-, hself⟩ | ⟨b, k, hlive, -, hself⟩
    · rw [hown] at hself
      have heq := Option.some.inj hself
      omega
    · rw [hown] at hself
      rw [← Option.some.inj hself] at hlive
      exact hactive hlive.1

theorem popSpare (h : SlabInv cfg fin s held v) (hfirst : s.zoneFree = some z) :
    ∃ v', SlabInv cfg fin { s with zoneFree := (s.zone z).zNext, zoneFreeCnt := s.zoneFreeCnt - 1 } held v' ∧
      ZonePages cfg s.memusage v'.own z ∧ z ∉ v'.active ∧ z ∉ v'.spare := by
  have hspare := h.spare
  rw [hfirst] at hspare
  obtain ⟨rest, heq, hrest, hz⟩ := hspare.pop
  have hmem : z ∈ v.spare := by
    rw [heq]
    exact List.mem_cons_self
  have hcount : s.zoneFreeCnt - 1 = rest.length := by rw [h.spareCnt, heq, List.length_cons, Nat.add_sub_cancel]
  refine ⟨{ v with spare := rest }, ⟨h.pages, h.owned, h.zones, fun b hb => h.place b (hb.imp_right fun hmem => ?_), h.listed, hrest, hcount,
    h.large, h.held⟩, h.place z (Or.inr hmem), h.spare.apart z hmem, hz⟩
  rw [heq]
  exact List.mem_cons_of_mem z hmem

/-! ## Pages -/

def claimed (own : Nat → Option Nat) (addr n : Nat) (k : Nat) : Option Nat :=
  if addr / mmPageSize ≤ k ∧ k < addr / mmPageSize + n then some addr else own k

theorem claimed_of_lt (own : Nat → Option Nat) (addr : Nat) {i : Nat} (hi : i < n) : claimed own addr n (addr / mmPageSize + i) = some addr :=
  if_pos ⟨Nat.le_add_right .., Nat.add_lt_add_left hi _⟩

theorem claim (h : SlabInv cfg fin s held v) {pages : SlabPages} {runs : List Run} {addr : Nat} {memusage : Nat → MemUsage}
    (hpages : PagesInv cfg.firstPage fin pages (givePages v.allocated n (some addr)) runs)
    (hnew : ∀ k, addr / mmPageSize ≤ k → k < addr / mmPageSize + n → k ∉ v.allocated)
    (husage : ∀ k, cfg.firstPage ≤ k → ¬ (addr / mmPageSize ≤ k ∧ k < addr / mmPageSize + n) →
      memusage (k - cfg.firstPage) = s.memusage (k - cfg.firstPage)) :
    SlabInv cfg fin { s with pages := pages, memusage := memusage } held
      { v with allocated := givePages v.allocated n (some addr), runs := runs, own := claimed v.own addr n } := by
  have hmem : ∀ k, k ∈ givePages v.allocated n (some addr) ↔ k ∈ v.allocated ∨ addr / mmPageSize ≤ k ∧ k < addr / mmPageSize + n := by
    intro k
    rw [givePages, Finset.mem_union, Finset.mem_Ico]
  refine h.repage hpages (fun k a hk => ?_) fun k a _ hk => ?_
  · rw [hmem]
    unfold claimed at hk
    split_ifs at hk with hin
    · exact Or.inr hin
    · exact Or.inl (h.owned k a hk)
  · have hout : ¬ (addr / mmPageSize ≤ k ∧ k < addr / mmPageSize + n) := fun hin => hnew k hin.1 hin.2 (h.owned k a hk)
    exact ⟨(if_neg hout).trans hk, husage k (h.own_le hk) hout⟩

theorem fresh (h : SlabInv cfg fin s held v) (hcfg : cfg.Valid) {addr : Nat} (hnew : addr / mmPageSize ∉ v.allocated) :
    addr ∉ v.active ∧ addr ∉ v.spare ∧ addr ∉ held := by
  have hzone : ¬ (addr ∈ v.active ∨ addr ∈ v.spare) := fun hmem => hnew (h.owned _ _ ((h.place addr hmem).own_self hcfg))
  refine ⟨fun hmem => hzone (Or.inl hmem), fun hmem => hzone (Or.inr hmem), fun hmem => ?_⟩
  rcases h.own_of_given hcfg ((h.held addr).mp hmem) with ⟨-, hown⟩ | ⟨b, k, -, -, hown⟩
  · exact hnew (h.owned _ _ hown)
  · exact hnew (h.owned _ _ hown)

theorem markZone_place (hcfg : cfg.Valid) {addr : Nat} (haligned : mmPageSize ∣ addr) (hlow : cfg.firstPage ≤ addr / mmPageSize)
    (memusage : Nat → MemUsage) (own : Nat → Option Nat) :
    ZonePages cfg (Slab.markZone cfg addr memusage) (claimed own addr cfg.zonePageCnt) addr := by
  refine ⟨haligned, fun i hi => claimed_of_lt own addr hi, fun i hi => ?_⟩
  rw [Slab.markZone, btokup_eq hcfg, if_pos (by omega), MemUsage.mk.injEq]
  exact ⟨rfl, by omega⟩

theorem markZone_other (hcfg : cfg.Valid) {addr : Nat} (hlow : cfg.firstPage ≤ addr / mmPageSize) (memusage : Nat → MemUsage) (hk : cfg.firstPage ≤ k)
    (hout : ¬ (addr / mmPageSize ≤ k ∧ k < addr / mmPageSize + cfg.zonePageCnt)) :
    Slab.markZone cfg addr memusage (k - cfg.firstPage) = memusage (k - cfg.firstPage) := by
  rw [Slab.markZone, btokup_eq hcfg]
  exact if_neg fun hin => hout ⟨by omega, by omega⟩

theorem pageAlloc (h : SlabInv cfg fin s held v) (n : Nat) : ∃ pages result runs, rtPageAlloc s.pages n = some (pages, result) ∧
    PagesInv cfg.firstPage fin pages (givePages v.allocated n result) runs ∧
    ∀ addr ∈ result, mmPageSize ∣ addr ∧ 0 < n ∧ cfg.firstPage ≤ addr / mmPageSize ∧
      ∀ k, addr / mmPageSize ≤ k → k < addr / mmPageSize + n → k ∉ v.allocated := by
  obtain ⟨pages, result, runs, halloc, hpages, hnew⟩ := h.pages.alloc n
  refine ⟨pages, result, runs, halloc, hpages, fun addr haddr => ?_⟩
  obtain ⟨haligned, hpos, hfree⟩ := hnew addr haddr
  obtain rfl : result = some addr := haddr
  have hgiven : addr / mmPageSize ∈ givePages v.allocated n (some addr) := by
    rw [givePages, Finset.mem_union, Finset.mem_Ico]
    exact Or.inr ⟨Nat.le_refl _, Nat.lt_add_of_pos_right hpos⟩
  exact ⟨haligned, hpos, ((hpages.all _).mp (Or.inr hgiven)).1, hfree⟩

theorem noPages (h : SlabInv cfg fin s held v) {pages : SlabPages} {runs : List Run} (hpages : PagesInv cfg.firstPage fin pages v.allocated runs) :
    SlabInv cfg fin { s with pages := pages } held { v with allocated := v.allocated, runs := runs, own := v.own } :=
  h.repage hpages h.owned fun _ _ _ hk => ⟨hk, rfl⟩

end SlabInv

/-! ## The calls -/

def holdBlock (held : Finset Nat) : Option Nat → Finset Nat
  | none => held
  | some p => insert p held

/-- The zone that serves a request of this index: the first of the entry, the first spare one, or one from the first free pages that are enough. -/
def Slab.servingZone (cfg : SlabConfig) (s : Slab) (zi : Nat) : Option Nat :=
  match s.zoneArray zi with
  | some z => some z
  | none =>
    match s.zoneFree with
    | some z => some z
    | none => ((freeRuns s.pages).find? fun r => cfg.zonePageCnt ≤ r.len).map fun r => r.start * mmPageSize

namespace Slab

theorem newZone_spare (hfree : s.zoneFree = some z) :
    s.newZone cfg zi size = some ({ s with zoneFree := (s.zone z).zNext, zoneFreeCnt := s.zoneFreeCnt - 1 }.startZone cfg zi z size) := by
  unfold newZone
  split
  · next b hb => rw [Option.some.inj (hb.symm.trans hfree)]
  · next hnone => cases hnone.symm.trans hfree

theorem newZone_pages (hfree : s.zoneFree = none) :
    s.newZone cfg zi size = (rtPageAlloc s.pages cfg.zonePageCnt).map fun r =>
      match r.2 with
      | none => ({ s with pages := r.1 }, none)
      | some z => { s with pages := r.1, memusage := markZone cfg z s.memusage }.startZone cfg zi z size := by
  unfold newZone
  split
  · next b hb => cases hb.symm.trans hfree
  · rfl

theorem servingZone_first (hfirst : s.zoneArray zi = some z) : s.servingZone cfg zi = some z := by
  unfold servingZone
  rw [hfirst]

theorem servingZone_spare (hnone : s.zoneArray zi = none) (hfree : s.zoneFree = some z) : s.servingZone cfg zi = some z := by
  unfold servingZone
  rw [hnone, hfree]

theorem servingZone_pages (hnone : s.zoneArray zi = none) (hfree : s.zoneFree = none) :
    s.servingZone cfg zi = ((freeRuns s.pages).find? fun r => cfg.zonePageCnt ≤ r.len).map fun r => r.start * mmPageSize := by
  unfold servingZone
  rw [hnone, hfree]

end Slab

namespace SlabInv

theorem newZone (h : SlabInv cfg fin s held v) (hcfg : cfg.Valid) (hnone : s.zoneArray zi = none) (hclass : ChunkClass cfg size zi) :
    ∃ s' v', s.newZone cfg zi size = some (s', (s.servingZone cfg zi).map fun z => z + zoneOff size) ∧
      SlabInv cfg fin s' (holdBlock held ((s.servingZone cfg zi).map fun z => z + zoneOff size)) v' ∧
      ∀ z ∈ s.servingZone cfg zi, z + zoneOff size ∉ held := by
  rcases Option.eq_none_or_eq_some s.zoneFree with hfree | ⟨z, hfree⟩
  · obtain ⟨pages, result, runs, halloc, hpages, hnew⟩ := h.pageAlloc cfg.zonePageCnt
    rw [Slab.newZone_pages hfree, Slab.servingZone_pages hnone hfree, ← h.pages.alloc_result (zonePageCnt_pos hcfg).ne' halloc, halloc]
    cases result with
    | none => exact ⟨_, _, rfl, h.noPages hpages, by nofun⟩
    | some z =>
      obtain ⟨haligned, hpos, hlow, hunused⟩ := hnew z rfl
      have hinv := h.claim hpages hunused fun k hk hout => markZone_other hcfg hlow s.memusage hk hout
      obtain ⟨hactive, hspare, -⟩ := h.fresh hcfg (hunused _ (Nat.le_refl _) (Nat.lt_add_of_pos_right hpos))
      obtain ⟨v', hinv', hnew'⟩ := hinv.startZone hcfg hclass (markZone_place hcfg haligned hlow s.memusage v.own) hactive hspare
      refine ⟨_, v', congrArg some (Prod.ext rfl (startZone_snd ..)), hinv', fun b hb => ?_⟩
      obtain rfl := Option.some.inj hb
      exact hnew'
  · obtain ⟨v₁, hinv, hplace, hactive, hspare⟩ := h.popSpare hfree
    obtain ⟨v', hinv', hnew⟩ := hinv.startZone hcfg hclass hplace hactive hspare
    rw [Slab.newZone_spare hfree, Slab.servingZone_spare hnone hfree]
    refine ⟨_, v', congrArg some (Prod.ext rfl (startZone_snd ..)), hinv', fun b hb => ?_⟩
    obtain rfl := Option.some.inj hb
    exact hnew

theorem addLarge (h : SlabInv cfg fin s held v) (hpages : LargePages cfg s.memusage v.own p n) :
    SlabInv cfg fin s (insert p held) { v with large := insert p v.large } := by
  refine ⟨h.pages, h.owned, h.zones, h.place, h.listed, h.spare, h.spareCnt, fun q hq => ?_, fun q => ?_⟩
  · rcases Finset.mem_insert.mp hq with rfl | hq
    · exact ⟨n, hpages⟩
    · exact h.large q hq
  · show q ∈ insert p held ↔ q ∈ insert p v.large ∨ ∃ z k, LiveChunk s v z k ∧ q = (s.zone z).chunk k
    rw [Finset.mem_insert, Finset.mem_insert, or_assoc, h.held q]
    rfl

theorem largeMalloc (h : SlabInv cfg fin s held v) (hcfg : cfg.Valid) (size : Nat) :
    ∃ s' result v', s.largeMalloc cfg size = some (s', result) ∧ SlabInv cfg fin s' (holdBlock held result) v' ∧ ∀ p ∈ result, p ∉ held := by
  unfold Slab.largeMalloc
  obtain ⟨pages, result, runs, halloc, hpages, hnew⟩ := h.pageAlloc (pageConfig.rtAlign size / mmPageSize)
  dsimp only
  rw [halloc]
  cases result with
  | none => exact ⟨_, none, _, rfl, h.noPages hpages, by nofun⟩
  | some p =>
    obtain ⟨haligned, hpos, hlow, hunused⟩ := hnew p rfl
    obtain ⟨-, -, hheld⟩ := h.fresh hcfg (hunused _ (Nat.le_refl _) (Nat.lt_add_of_pos_right hpos))
    have husage : ∀ k, cfg.firstPage ≤ k → ¬ (p / mmPageSize ≤ k ∧ k < p / mmPageSize + pageConfig.rtAlign size / mmPageSize) →
        update s.memusage (cfg.btokup p) ⟨.large, pageConfig.rtAlign size / mmPageSize⟩ (k - cfg.firstPage) =
          s.memusage (k - cfg.firstPage) := by
      intro k hk hout
      rw [btokup_eq hcfg, update_of_ne]
      omega
    have hinv := h.claim hpages hunused husage
    refine ⟨_, some p, _, rfl, hinv.addLarge ⟨haligned, hpos, fun i hi => claimed_of_lt v.own p hi, ?_⟩, fun q hq => ?_⟩
    · show update s.memusage (cfg.btokup p) _ _ = _
      rw [btokup_eq hcfg, update_self]
    · obtain rfl := Option.some.inj hq
      exact hheld

theorem malloc (h : SlabInv cfg fin s held v) (hcfg : cfg.Valid) (size : Nat) :
    ∃ s' result v', s.rtMalloc cfg size = some (s', result) ∧ SlabInv cfg fin s' (holdBlock held result) v' ∧ ∀ p ∈ result, p ∉ held := by
  unfold Slab.rtMalloc
  split_ifs with hzero hlarge hindex
  · exact ⟨s, none, v, rfl, h, by nofun⟩
  · exact h.largeMalloc hcfg size
  · have hclass : ChunkClass cfg (zoneindex size).1 (zoneindex size).2 := ⟨size, Nat.pos_of_ne_zero hzero, Nat.lt_of_not_le hlarge, rfl⟩
    exact absurd (hclass.size_eq hcfg).2.1 (Nat.not_lt.mpr hindex)
  · have hclass : ChunkClass cfg (zoneindex size).1 (zoneindex size).2 := ⟨size, Nat.pos_of_ne_zero hzero, Nat.lt_of_not_le hlarge, rfl⟩
    cases hfirst : s.zoneArray (zoneindex size).2 with
    | some z =>
      obtain ⟨s', v', k, htake, hinv, hnew⟩ := h.takeChunk hcfg hfirst hclass
      refine ⟨s', _, v', htake, hinv, fun q hq => ?_⟩
      obtain rfl := Option.some.inj hq
      exact hnew
    | none =>
      obtain ⟨s', v', hnewZone, hinv, hnew⟩ := h.newZone hcfg hfirst hclass
      refine ⟨s', _, v', hnewZone, hinv, fun q hq => ?_⟩
      obtain ⟨z, hz, rfl⟩ := Option.map_eq_some_iff.mp hq
      exact hnew z hz

end SlabInv

end RtThread
