import RtThread.Mem.SlabMalloc

/-!
# Giving back to the slab heap

What one call of `rt_free` does: a chunk goes back to its zone, and a zone of which no chunk is given out any more may become spare or go back to the page allocator.
-/

namespace RtThread

open Function FirstFit

variable {cfg : SlabConfig} {fin : Nat} {s : Slab} {held : Finset Nat} {v : SlabView} {z zi k n p size : Nat}

/-! ## A chunk comes back -/

namespace Slab

def nextGiven (s : Slab) (z : Nat) : Option Nat := if (s.zone z).zNfree = 0 then s.zoneArray (s.zone z).zZoneindex else (s.zone z).zNext

def arrayGiven (s : Slab) (z : Nat) : Nat → Option Nat :=
  if (s.zone z).zNfree = 0 then update s.zoneArray (s.zone z).zZoneindex (some z) else s.zoneArray

theorem giveChunk_eq (s : Slab) (z p : Nat) : s.giveChunk z p =
    { s with
      cNext := update s.cNext p (s.zone z).zFreechunk
      zone := update s.zone z
        { s.zone z with zFreechunk := some p, zNfree := (s.zone z).zNfree + 1, zNext := s.nextGiven z }
      zoneArray := s.arrayGiven z } := by
  unfold giveChunk enterArray setZone nextGiven arrayGiven
  by_cases hempty : (s.zone z).zNfree = 0
  · simp only [update_self, update_idem, if_pos hempty]
  · simp only [update_self, update_idem, if_neg hempty]

def spareHeader (s : Slab) (z : Nat) : SlabZone := { s.zone z with zMagic := -1, zNext := s.zoneFree }

theorem spareZone_keep (hfew : ¬ zoneReleaseThresh < s.zoneFreeCnt + 1) : s.spareZone cfg z =
    some { s with zone := update s.zone z (s.spareHeader z), zoneFree := some z, zoneFreeCnt := s.zoneFreeCnt + 1 } :=
  if_neg hfew

def unmarkZone (cfg : SlabConfig) (z : Nat) (memusage : Nat → MemUsage) (k : Nat) : MemUsage :=
  if cfg.btokup z ≤ k ∧ k < cfg.btokup z + cfg.zonePageCnt then ⟨.free, 0⟩ else memusage k

theorem spareZone_release (hmany : zoneReleaseThresh < s.zoneFreeCnt + 1) : s.spareZone cfg z =
    (rtPageFree s.pages z cfg.zonePageCnt).map fun pages =>
      { s with pages := pages, memusage := unmarkZone cfg z s.memusage, zone := update s.zone z (s.spareHeader z) } := by
  unfold spareZone setZone
  dsimp only
  rw [if_pos hmany, update_self]
  rfl

end Slab

theorem Listed.give {active : Finset Nat} {array : Nat → List Nat} {hdr : SlabZone} (hl : Listed active s.zone s.zoneArray array)
    (hz : z ∈ active) (hindex : hdr.zZoneindex = (s.zone z).zZoneindex) (hcount : hdr.zNfree = (s.zone z).zNfree + 1)
    (hnext : hdr.zNext = s.nextGiven z) :
    ∃ array', Listed active (update s.zone z hdr) (s.arrayGiven z) array' := by
  unfold Slab.nextGiven at hnext
  unfold Slab.arrayGiven
  split_ifs at hnext ⊢ with hempty
  · have hentry : ∀ i, z ∉ array i := fun i hmem => Nat.ne_of_gt ((hl.mem i z).mp hmem).2.2 hempty
    have hentered := hl.enter hentry hnext hindex (by omega)
    rw [Finset.insert_eq_of_mem hz] at hentered
    exact ⟨_, hentered⟩
  · refine ⟨array, hl.same hnext hindex ?_⟩
    omega

namespace SlabInv

theorem giveChunk (h : SlabInv cfg fin s held v) (hcfg : cfg.Valid) (hlive : LiveChunk s v z k) :
    ∃ v', SlabInv cfg fin (s.giveChunk z ((s.zone z).chunk k)) (held.erase ((s.zone z).chunk k)) v' ∧ z ∈ v'.active := by
  have hk := h.live_lt hlive
  have hzone := h.zones z hlive.1
  have hgiven := hzone.give hcfg hlive.2 (s.nextGiven z)
  obtain ⟨array, hlisted⟩ : ∃ array, Listed v.active (update s.zone z
      { s.zone z with zFreechunk := some ((s.zone z).chunk k), zNfree := (s.zone z).zNfree + 1, zNext := s.nextGiven z })
      (s.arrayGiven z) array := h.listed.give hlive.1 rfl rfl rfl
  rw [Slab.giveChunk_eq]
  refine ⟨_, h.changeZone hlive.1 hgiven (fun b hb hne j hj => ?_) hlisted fun q => ?_, hlive.1⟩
  · rw [update_of_ne]
    intro heq
    exact hne (h.chunk_unique hcfg hb hlive.1 (Nat.lt_of_lt_of_le ((h.zones b hb).slots.lt j hj) (h.zones b hb).slots.le) hk heq).1
  · rw [Finset.mem_erase, h.held q, givenOut_iff s v z q]
    constructor
    · rintro ⟨hne, helse | ⟨j, hj, hq⟩⟩
      · exact Or.inl helse
      · refine Or.inr ⟨j, Carving.live_push.mpr ⟨hj.2, fun heq => hne ?_⟩, hq⟩
        rw [hq, heq]
    · rintro (helse | ⟨j, hj, hq⟩)
      · refine ⟨fun heq => h.chunk_not_else hcfg hlive.1 hk ?_, Or.inl helse⟩
        rw [← heq]
        exact helse
      · obtain ⟨hold, hne⟩ := Carving.live_push.mp hj
        exact ⟨fun heq => hne ((hzone.chunk_inj hcfg).mp (hq.symm.trans heq)), Or.inr ⟨j, ⟨hlive.1, hold⟩, hq⟩⟩

/-! ## A zone that is not in use any more -/

theorem array_length_lt (h : SlabInv cfg fin s held v) (hcfg : cfg.Valid) (zi : Nat) : (v.array zi).length < pageRounds := by
  have hplace : ∀ z ∈ v.array zi, ZonePages cfg s.memusage v.own z := fun z hz => h.place z (Or.inl ((h.listed.mem zi z).mp hz).1)
  have hnodup : ((v.array zi).map fun z => z / mmPageSize).Nodup := by
    apply (h.listed.nodup zi).map_on
    intro z hz z' hz' heq
    have hown := (hplace z hz).own_self hcfg
    rw [heq, (hplace z' hz').own_self hcfg] at hown
    exact (Option.some.inj hown).symm
  have hsubset : ((v.array zi).map fun z => z / mmPageSize).toFinset ⊆ Finset.range fin := by
    intro k hk
    obtain ⟨z, hz, rfl⟩ := List.mem_map.mp (List.mem_toFinset.mp hk)
    have hpage := (h.pages.all _).mp (Or.inr (h.owned _ _ ((hplace z hz).own_self hcfg)))
    exact Finset.mem_range.mpr hpage.2
  have hcard := Finset.card_le_card hsubset
  rw [List.toFinset_card_of_nodup hnodup, List.length_map, Finset.card_range] at hcard
  exact Nat.lt_of_le_of_lt hcard h.pages.lt

theorem unlink (h : SlabInv cfg fin s held v) (hcfg : cfg.Valid) (hz : z ∈ v.active) (hall : (s.zone z).zNfree = (s.zone z).zNmax) :
    ∃ zone zoneArray v', Slab.unlinkLoop (s.zone z).zZoneindex z pageRounds s none = some { s with zone := zone, zoneArray := zoneArray } ∧
      SlabInv cfg fin { s with zone := zone, zoneArray := zoneArray } held v' ∧ ZonePages cfg s.memusage v'.own z ∧ z ∉ v'.active ∧
      z ∉ v'.spare ∧ z ∉ v'.large := by
  have hzone := h.zones z hz
  have hmax := (hzone.size.nmax_bounds hcfg).1
  rw [← hzone.nmax] at hmax
  have hentry : z ∈ v.array (s.zone z).zZoneindex := (h.listed.mem _ z).mpr ⟨hz, rfl, by omega⟩
  obtain ⟨zone, zoneArray, hloop, hsame, -, hother, hlisted⟩ := unlinkLoop_spec h.listed hentry (h.array_length_lt hcfg _).le
  have hspare : z ∉ v.spare := fun hmem => h.spare.apart z hmem hz
  have hlarge : z ∉ v.large := fun hmem => (h.large_notMem hcfg hmem).1 hz
  refine ⟨zone, zoneArray, { v with active := v.active.erase z, array := update v.array _ ((v.array _).erase z) }, hloop,
    ⟨h.pages, h.owned, fun b hb => ?_, fun b hb => h.place b (hb.imp_left Finset.mem_of_mem_erase), hlisted, ?_, h.spareCnt, h.large, fun q => ?_⟩,
    h.place z (Or.inl hz), Finset.notMem_erase z v.active, hspare, hlarge⟩
  · obtain ⟨next, hfields⟩ := hsame b
    show ZoneInv cfg s.cNext b (zone b) (v.free b)
    rw [hfields]
    exact (h.zones b (Finset.mem_of_mem_erase hb)).setNext next
  · refine ⟨h.spare.linked.congr fun b hb => ?_, h.spare.nodup, fun b hb hmem => h.spare.apart b hb (Finset.mem_of_mem_erase hmem)⟩
    exact congrArg SlabZone.zNext (hother b fun hmem => h.spare.apart b hb ((h.listed.mem _ b).mp hmem).1)
  · rw [h.held q]
    symm
    refine givenOut_congr z ?_ (fun b hb => ?_) (fun b hb => ?_) (fun k hlive => ?_) fun k hlive => ?_
    · rfl
    · exact Finset.mem_erase.trans (and_iff_right hb)
    · obtain ⟨next, hfields⟩ := hsame b
      show (zone b).chunk = _ ∧ (zone b).zUindex = _ ∧ v.free b = _
      rw [hfields]
      exact ⟨rfl, rfl, rfl⟩
    · exact hzone.not_live hall hlive.2
    · exact Finset.notMem_erase z v.active hlive.1

theorem setOther (h : SlabInv cfg fin s held v) (hactive : z ∉ v.active) (hspare : z ∉ v.spare) (hdr : SlabZone) :
    SlabInv cfg fin { s with zone := update s.zone z hdr } held v := by
  have hsame : ∀ b, b ≠ z → update s.zone z hdr b = s.zone b := fun b hb => update_of_ne hb ..
  refine ⟨h.pages, h.owned, fun b hb => ?_, h.place, h.listed.other hactive hdr, h.spare.other hspare hdr, h.spareCnt, h.large, fun q => ?_⟩
  · show ZoneInv cfg s.cNext b (update s.zone z hdr b) (v.free b)
    rw [hsame b fun heq => hactive (heq ▸ hb)]
    exact h.zones b hb
  · rw [h.held q]
    symm
    refine givenOut_congr z ?_ (fun b _ => ?_) (fun b hb => ?_) (fun k hlive => hactive hlive.1) fun k hlive => hactive hlive.1
    · rfl
    · rfl
    · show (update s.zone z hdr b).chunk = _ ∧ (update s.zone z hdr b).zUindex = _ ∧ v.free b = _
      rw [hsame b hb]
      exact ⟨rfl, rfl, rfl⟩

theorem pushSpare (h : SlabInv cfg fin s held v) (hactive : z ∉ v.active) (hspare : z ∉ v.spare) (hplace : ZonePages cfg s.memusage v.own z)
    {hdr : SlabZone} (hnext : hdr.zNext = s.zoneFree) :
    SlabInv cfg fin { s with zone := update s.zone z hdr, zoneFree := some z, zoneFreeCnt := s.zoneFreeCnt + 1 } held
      { v with spare := z :: v.spare } := by
  have hother := h.setOther hactive hspare hdr
  have hpushed := h.spare.push hspare hnext
  rw [Finset.erase_eq_of_notMem hactive] at hpushed
  refine ⟨h.pages, h.owned, hother.zones, fun b hb => ?_, hother.listed, hpushed, ?_, h.large, hother.held⟩
  · by_cases heq : b = z
    · rw [heq]
      exact hplace
    · exact h.place b (hb.imp_right fun hmem => (List.mem_cons.mp hmem).resolve_left heq)
  · show s.zoneFreeCnt + 1 = (z :: v.spare).length
    rw [List.length_cons, h.spareCnt]

def released (own : Nat → Option Nat) (addr n k : Nat) : Option Nat :=
  if addr / mmPageSize ≤ k ∧ k < addr / mmPageSize + n then none else own k

theorem release (h : SlabInv cfg fin s held v) {addr : Nat} (haligned : mmPageSize ∣ addr) (hn : 0 < n)
    (hown : ∀ i < n, v.own (addr / mmPageSize + i) = some addr) (hgone : ¬ ((addr ∈ v.active ∨ addr ∈ v.spare) ∨ addr ∈ v.large))
    {memusage : Nat → MemUsage} (husage : ∀ k, cfg.firstPage ≤ k → ¬ (addr / mmPageSize ≤ k ∧ k < addr / mmPageSize + n) →
      memusage (k - cfg.firstPage) = s.memusage (k - cfg.firstPage)) :
    ∃ pages v', rtPageFree s.pages addr n = some pages ∧ SlabInv cfg fin { s with pages := pages, memusage := memusage } held v' := by
  have hin : ∀ k, addr / mmPageSize ≤ k ∧ k < addr / mmPageSize + n → v.own k = some addr := by
    intro k hk
    have hown' := hown (k - addr / mmPageSize) (by omega)
    rwa [Nat.add_sub_cancel' hk.1] at hown'
  have hheld : Finset.Ico (addr / mmPageSize) (addr / mmPageSize + n) ⊆ v.allocated := by
    intro k hk
    exact h.owned k addr (hin k (Finset.mem_Ico.mp hk))
  obtain ⟨pages, runs, hfree, hpages⟩ := h.pages.free (Nat.mod_eq_zero_of_dvd haligned) hn.ne' hheld
  have hmem : ∀ k, k ∈ v.allocated \ Finset.Ico (addr / mmPageSize) (addr / mmPageSize + n) ↔
      k ∈ v.allocated ∧ ¬ (addr / mmPageSize ≤ k ∧ k < addr / mmPageSize + n) := by
    intro k
    rw [Finset.mem_sdiff, Finset.mem_Ico]
  refine ⟨pages, ⟨v.allocated \ Finset.Ico (addr / mmPageSize) (addr / mmPageSize + n), runs, v.active, v.array, v.spare, v.free, v.large,
    released v.own addr n⟩, hfree, h.repage hpages (fun k a hk => ?_) fun k a ha hk => ?_⟩
  · unfold released at hk
    split_ifs at hk with hrange
    rw [hmem]
    exact ⟨h.owned k a hk, hrange⟩
  · have hout : ¬ (addr / mmPageSize ≤ k ∧ k < addr / mmPageSize + n) := by
      intro hrange
      rw [hin k hrange] at hk
      rw [← Option.some.inj hk] at ha
      exact hgone ha
    exact ⟨(if_neg hout).trans hk, husage k (h.own_le hk) hout⟩

theorem spareZone (h : SlabInv cfg fin s held v) (hcfg : cfg.Valid) (hplace : ZonePages cfg s.memusage v.own z) (hactive : z ∉ v.active)
    (hspare : z ∉ v.spare) (hlarge : z ∉ v.large) : ∃ s' v', s.spareZone cfg z = some s' ∧ SlabInv cfg fin s' held v' := by
  by_cases hmany : zoneReleaseThresh < s.zoneFreeCnt + 1
  · have hpage := h.own_le (hplace.own_self hcfg)
    have husage : ∀ k, cfg.firstPage ≤ k → ¬ (z / mmPageSize ≤ k ∧ k < z / mmPageSize + cfg.zonePageCnt) →
        Slab.unmarkZone cfg z s.memusage (k - cfg.firstPage) = s.memusage (k - cfg.firstPage) := by
      intro k hk hout
      rw [Slab.unmarkZone, btokup_eq hcfg]
      exact if_neg fun hin => hout ⟨by omega, by omega⟩
    have hgone : ¬ ((z ∈ v.active ∨ z ∈ v.spare) ∨ z ∈ v.large) := not_or.mpr ⟨not_or.mpr ⟨hactive, hspare⟩, hlarge⟩
    obtain ⟨pages, v', hfree, hinv⟩ := (h.setOther hactive hspare (s.spareHeader z)).release hplace.aligned (zonePageCnt_pos hcfg) hplace.own hgone husage
    have hfree' : rtPageFree s.pages z cfg.zonePageCnt = some pages := hfree
    rw [Slab.spareZone_release hmany, hfree']
    exact ⟨_, v', rfl, hinv⟩
  · exact ⟨_, _, Slab.spareZone_keep hmany, h.pushSpare hactive hspare hplace rfl⟩

theorem shrink (h : SlabInv cfg fin s held v) (hcfg : cfg.Valid) (hz : z ∈ v.active) :
    ∃ s' v', s.shrink cfg z = some s' ∧ SlabInv cfg fin s' held v' := by
  unfold Slab.shrink
  split_ifs with hall
  · obtain ⟨zone, zoneArray, v₁, hloop, hinv, hplace, hactive, hspare, hlarge⟩ := h.unlink hcfg hz hall.1
    obtain ⟨s', v', hgiven, hinv'⟩ := hinv.spareZone hcfg hplace hactive hspare hlarge
    rw [hloop]
    exact ⟨s', v', hgiven, hinv'⟩
  · exact ⟨s, v, rfl, h⟩

/-! ## The calls -/

theorem dropLarge (h : SlabInv cfg fin s held v) (hcfg : cfg.Valid) (hp : p ∈ v.large) :
    SlabInv cfg fin s (held.erase p) { v with large := v.large.erase p } := by
  refine ⟨h.pages, h.owned, h.zones, h.place, h.listed, h.spare, h.spareCnt, fun q hq => h.large q (Finset.mem_of_mem_erase hq), fun q => ?_⟩
  show q ∈ held.erase p ↔ q ∈ v.large.erase p ∨ ∃ z k, LiveChunk s v z k ∧ q = (s.zone z).chunk k
  rw [Finset.mem_erase, Finset.mem_erase, h.held q]
  constructor
  · rintro ⟨hne, hlarge | hchunk⟩
    · exact Or.inl ⟨hne, hlarge⟩
    · exact Or.inr hchunk
  · rintro (⟨hne, hlarge⟩ | ⟨z, k, hlive, hq⟩)
    · exact ⟨hne, Or.inl hlarge⟩
    · refine ⟨fun heq => h.chunk_notMem_large hcfg hlive.1 (h.live_lt hlive) ?_, Or.inr ⟨z, k, hlive, hq⟩⟩
      rw [← hq, heq]
      exact hp

theorem freeLarge (h : SlabInv cfg fin s held v) (hcfg : cfg.Valid) (hp : p ∈ v.large) :
    ∃ s' v', s.rtFree cfg (some p) = some s' ∧ SlabInv cfg fin s' (held.erase p) v' := by
  obtain ⟨n, hpages⟩ := h.large p hp
  have hpage : p / mmPageSize * mmPageSize = p := Nat.div_mul_cancel hpages.aligned
  have hown : v.own (p / mmPageSize) = some p := hpages.own 0 hpages.pos
  have hlow := h.own_le hown
  have husage : ∀ k, cfg.firstPage ≤ k → ¬ (p / mmPageSize ≤ k ∧ k < p / mmPageSize + n) →
      update s.memusage (cfg.btokup p) ⟨.large, 0⟩ (k - cfg.firstPage) = s.memusage (k - cfg.firstPage) := by
    intro k hk hout
    have hpos := hpages.pos
    rw [btokup_eq hcfg, update_of_ne]
    omega
  obtain ⟨hactive, hspare⟩ := h.large_notMem hcfg hp
  have hgone : ¬ ((p ∈ v.active ∨ p ∈ v.spare) ∨ p ∈ v.large.erase p) :=
    not_or.mpr ⟨not_or.mpr ⟨hactive, hspare⟩, Finset.notMem_erase p v.large⟩
  obtain ⟨pages, v', hfree, hinv⟩ := (h.dropLarge hcfg hp).release hpages.aligned hpages.pos hpages.own hgone husage
  refine ⟨_, v', ?_, hinv⟩
  rw [Slab.rtFree]
  dsimp only
  rw [hpage, btokup_eq hcfg, hpages.usage, if_pos rfl, hfree, Option.map_some]

theorem chunk_usage (h : SlabInv cfg fin s held v) (hcfg : cfg.Valid) (hz : z ∈ v.active) (hk : k < (s.zone z).zNmax) :
    ∃ i, s.memusage (cfg.btokup ((s.zone z).chunk k / mmPageSize * mmPageSize)) = ⟨.small, i⟩ ∧
      (s.zone z).chunk k / mmPageSize * mmPageSize - i * mmPageSize = z := by
  obtain ⟨hlow, hhigh, -⟩ := h.chunk_place hcfg hz hk
  have hplace := h.place z (Or.inl hz)
  obtain ⟨i, hi, hpage⟩ := page_of_zone hcfg hplace.aligned hlow.le hhigh
  refine ⟨i, ?_, ?_⟩
  · rw [hpage, btokup_eq hcfg, Nat.mul_div_cancel _ (by decide)]
    exact hplace.usage i hi
  · rw [hpage, Nat.add_mul, Nat.add_sub_cancel, Nat.div_mul_cancel hplace.aligned]

theorem freeChunk (h : SlabInv cfg fin s held v) (hcfg : cfg.Valid) (hlive : LiveChunk s v z k) :
    ∃ s' v', s.rtFree cfg (some ((s.zone z).chunk k)) = some s' ∧ SlabInv cfg fin s' (held.erase ((s.zone z).chunk k)) v' := by
  obtain ⟨i, husage, hzone⟩ := h.chunk_usage hcfg hlive.1 (h.live_lt hlive)
  obtain ⟨v₁, hinv, hactive⟩ := h.giveChunk hcfg hlive
  obtain ⟨s', v', hshrink, hinv'⟩ := hinv.shrink hcfg hactive
  refine ⟨s', v', ?_, hinv'⟩
  rw [Slab.rtFree]
  dsimp only
  rw [husage, if_neg (show PageType.small ≠ .large by decide), hzone, if_pos (h.zones z hlive.1).magic]
  exact hshrink

theorem free (h : SlabInv cfg fin s held v) (hcfg : cfg.Valid) (hp : p ∈ held) :
    ∃ s' v', s.rtFree cfg (some p) = some s' ∧ SlabInv cfg fin s' (held.erase p) v' := by
  rcases (h.held p).mp hp with hlarge | ⟨z, k, hlive, rfl⟩
  · exact h.freeLarge hcfg hlarge
  · exact h.freeChunk hcfg hlive

end SlabInv

end RtThread
