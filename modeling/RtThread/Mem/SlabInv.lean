import RtThread.Mem.SlabLists

/-!
# The invariant of the slab heap

Every page that is not free belongs to a zone or to a large block, and `memusage` says to which. The callers hold the chunks that the zones in use have given out, and the large blocks, and nothing else.
-/

namespace RtThread

open Function FirstFit

structure SlabView where
  allocated : Finset Nat
  runs : List Run
  active : Finset Nat
  array : Nat → List Nat
  spare : List Nat
  free : Nat → List Nat
  large : Finset Nat
  /-- The zone or the large block that a page belongs to. -/
  own : Nat → Option Nat

variable {cfg : SlabConfig} {fin : Nat} {s s' : Slab} {held : Finset Nat} {v : SlabView} {z zi k p size : Nat} {memusage : Nat → MemUsage}
  {own own' : Nat → Option Nat}

def SlabConfig.firstPage (cfg : SlabConfig) : Nat := cfg.heapStart / mmPageSize

structure ZonePages (cfg : SlabConfig) (memusage : Nat → MemUsage) (own : Nat → Option Nat) (z : Nat) : Prop where
  aligned : mmPageSize ∣ z
  own : ∀ i < cfg.zonePageCnt, own (z / mmPageSize + i) = some z
  usage : ∀ i < cfg.zonePageCnt, memusage (z / mmPageSize + i - cfg.firstPage) = ⟨.small, i⟩

structure LargePages (cfg : SlabConfig) (memusage : Nat → MemUsage) (own : Nat → Option Nat) (p n : Nat) : Prop where
  aligned : mmPageSize ∣ p
  pos : 0 < n
  own : ∀ i < n, own (p / mmPageSize + i) = some p
  usage : memusage (p / mmPageSize - cfg.firstPage) = ⟨.large, n⟩

def LiveChunk (s : Slab) (v : SlabView) (z k : Nat) : Prop := z ∈ v.active ∧ Carving.Live ((s.zone z).zUindex + 1) (v.free z) k

def GivenOut (s : Slab) (v : SlabView) (p : Nat) : Prop := p ∈ v.large ∨ ∃ z k, LiveChunk s v z k ∧ p = (s.zone z).chunk k

structure SlabInv (cfg : SlabConfig) (fin : Nat) (s : Slab) (held : Finset Nat) (v : SlabView) : Prop where
  pages : PagesInv cfg.firstPage fin s.pages v.allocated v.runs
  owned : ∀ k a, v.own k = some a → k ∈ v.allocated
  zones : ∀ z ∈ v.active, ZoneInv cfg s.cNext z (s.zone z) (v.free z)
  place : ∀ z, z ∈ v.active ∨ z ∈ v.spare → ZonePages cfg s.memusage v.own z
  listed : Listed v.active s.zone s.zoneArray v.array
  spare : Spare v.active s.zone s.zoneFree v.spare
  spareCnt : s.zoneFreeCnt = v.spare.length
  large : ∀ p ∈ v.large, ∃ n, LargePages cfg s.memusage v.own p n
  held : ∀ p, p ∈ held ↔ GivenOut s v p

/-! ## Places -/

theorem btokup_eq (hcfg : cfg.Valid) (addr : Nat) : cfg.btokup addr = addr / mmPageSize - cfg.firstPage := by
  obtain ⟨c, hc⟩ := hcfg.aligned
  rw [SlabConfig.btokup, SlabConfig.firstPage, hc, Nat.sub_mul_div, Nat.mul_div_cancel_left _ (by decide)]

theorem zonePageCnt_pos (hcfg : cfg.Valid) : 0 < cfg.zonePageCnt := by
  rw [SlabConfig.zonePageCnt, mmPageSize]
  rcases hcfg.size with hsize | hsize | hsize <;> omega

theorem page_of_zone (hcfg : cfg.Valid) (haligned : mmPageSize ∣ z) (hlow : z ≤ p) (hhigh : p < z + cfg.zoneSize) :
    ∃ i < cfg.zonePageCnt, p / mmPageSize = z / mmPageSize + i := by
  have hsize := hcfg.zoneSize_eq
  obtain ⟨c, rfl⟩ := haligned
  refine ⟨p / mmPageSize - c, ?_, ?_⟩
  · unfold mmPageSize at *
    omega
  · rw [Nat.mul_div_cancel_left _ (by decide)]
    unfold mmPageSize at *
    omega

namespace ZonePages

theorem own_of_mem (h : ZonePages cfg memusage own z) (hcfg : cfg.Valid) (hlow : z ≤ p) (hhigh : p < z + cfg.zoneSize) : own (p / mmPageSize) = some z := by
  obtain ⟨i, hi, hpage⟩ := page_of_zone hcfg h.aligned hlow hhigh
  rw [hpage]
  exact h.own i hi

theorem congr {memusage' : Nat → MemUsage} (h : ZonePages cfg memusage own z)
    (hsame : ∀ k, own k = some z → own' k = some z ∧ memusage' (k - cfg.firstPage) = memusage (k - cfg.firstPage)) :
    ZonePages cfg memusage' own' z := by
  refine ⟨h.aligned, fun i hi => (hsame _ (h.own i hi)).1, fun i hi => ?_⟩
  rw [(hsame _ (h.own i hi)).2]
  exact h.usage i hi

theorem own_self (h : ZonePages cfg memusage own z) (hcfg : cfg.Valid) : own (z / mmPageSize) = some z := h.own 0 (zonePageCnt_pos hcfg)

end ZonePages

theorem LargePages.congr {memusage' : Nat → MemUsage} {n : Nat} (h : LargePages cfg memusage own p n)
    (hsame : ∀ k, own k = some p → own' k = some p ∧ memusage' (k - cfg.firstPage) = memusage (k - cfg.firstPage)) :
    LargePages cfg memusage' own' p n := by
  refine ⟨h.aligned, h.pos, fun i hi => (hsame _ (h.own i hi)).1, ?_⟩
  have hfirst := h.own 0 h.pos
  rw [Nat.add_zero] at hfirst
  rw [(hsame _ hfirst).2]
  exact h.usage

/-! ## What is given out -/

def GivenElse (s : Slab) (v : SlabView) (z p : Nat) : Prop := p ∈ v.large ∨ ∃ b k, b ≠ z ∧ LiveChunk s v b k ∧ p = (s.zone b).chunk k

theorem givenOut_iff (s : Slab) (v : SlabView) (z p : Nat) :
    GivenOut s v p ↔ GivenElse s v z p ∨ ∃ k, LiveChunk s v z k ∧ p = (s.zone z).chunk k := by
  constructor
  · rintro (hlarge | ⟨b, k, hlive, heq⟩)
    · exact Or.inl (Or.inl hlarge)
    · by_cases hb : b = z
      · rw [hb] at hlive heq
        exact Or.inr ⟨k, hlive, heq⟩
      · exact Or.inl (Or.inr ⟨b, k, hb, hlive, heq⟩)
  · rintro ((hlarge | ⟨b, k, -, hlive, heq⟩) | ⟨k, hlive, heq⟩)
    · exact Or.inl hlarge
    · exact Or.inr ⟨b, k, hlive, heq⟩
    · exact Or.inr ⟨z, k, hlive, heq⟩

theorem givenElse_congr {v' : SlabView} (hlarge : v'.large = v.large) (hactive : ∀ b, b ≠ z → (b ∈ v'.active ↔ b ∈ v.active))
    (hsame : ∀ b, b ≠ z → (s'.zone b).chunk = (s.zone b).chunk ∧ (s'.zone b).zUindex = (s.zone b).zUindex ∧ v'.free b = v.free b) :
    GivenElse s' v' z p ↔ GivenElse s v z p := by
  have hlive : ∀ b k, b ≠ z → (LiveChunk s' v' b k ∧ p = (s'.zone b).chunk k ↔ LiveChunk s v b k ∧ p = (s.zone b).chunk k) := by
    intro b k hb
    obtain ⟨hchunk, huindex, hfree⟩ := hsame b hb
    unfold LiveChunk
    rw [hactive b hb, hchunk, huindex, hfree]
  unfold GivenElse
  rw [hlarge]
  refine or_congr Iff.rfl (exists_congr fun b => exists_congr fun k => ?_)
  exact and_congr_right fun hb => hlive b k hb

theorem givenOut_congr (z : Nat) {v' : SlabView} (hlarge : v'.large = v.large) (hactive : ∀ b, b ≠ z → (b ∈ v'.active ↔ b ∈ v.active))
    (hsame : ∀ b, b ≠ z → (s'.zone b).chunk = (s.zone b).chunk ∧ (s'.zone b).zUindex = (s.zone b).zUindex ∧ v'.free b = v.free b)
    (hbefore : ∀ k, ¬ LiveChunk s v z k) (hafter : ∀ k, ¬ LiveChunk s' v' z k) : GivenOut s' v' p ↔ GivenOut s v p := by
  rw [givenOut_iff s v z p, givenOut_iff s' v' z p]
  refine or_congr (givenElse_congr hlarge hactive hsame) ?_
  constructor
  · rintro ⟨k, hlive, -⟩
    exact absurd hlive (hafter k)
  · rintro ⟨k, hlive, -⟩
    exact absurd hlive (hbefore k)

namespace SlabInv

theorem chunk_place (h : SlabInv cfg fin s held v) (hcfg : cfg.Valid) (hz : z ∈ v.active) (hk : k < (s.zone z).zNmax) :
    z < (s.zone z).chunk k ∧ (s.zone z).chunk k < z + cfg.zoneSize ∧ v.own ((s.zone z).chunk k / mmPageSize) = some z := by
  have hzone := h.zones z hz
  have hbounds := hzone.chunk_bounds hcfg hk
  have hpos := hzone.size_pos hcfg
  unfold sizeofSlabZone at hbounds
  exact ⟨by omega, by omega, (h.place z (Or.inl hz)).own_of_mem hcfg (by omega) (by omega)⟩

theorem chunk_unique (h : SlabInv cfg fin s held v) (hcfg : cfg.Valid) {z' k' : Nat} (hz : z ∈ v.active) (hz' : z' ∈ v.active)
    (hk : k < (s.zone z).zNmax) (hk' : k' < (s.zone z').zNmax) (heq : (s.zone z).chunk k = (s.zone z').chunk k') : z = z' ∧ k = k' := by
  have hown := (h.chunk_place hcfg hz hk).2.2
  rw [heq, (h.chunk_place hcfg hz' hk').2.2] at hown
  obtain rfl := Option.some.inj hown
  exact ⟨rfl, ((h.zones z' hz).chunk_inj hcfg).mp heq⟩

theorem live_lt (h : SlabInv cfg fin s held v) (hlive : LiveChunk s v z k) : k < (s.zone z).zNmax :=
  Nat.lt_of_lt_of_le hlive.2.1 (h.zones z hlive.1).slots.le

theorem large_notMem (h : SlabInv cfg fin s held v) (hcfg : cfg.Valid) (hp : p ∈ v.large) : p ∉ v.active ∧ p ∉ v.spare := by
  obtain ⟨n, hlarge⟩ := h.large p hp
  have hno : ¬ (p ∈ v.active ∨ p ∈ v.spare) := by
    intro hzone
    have husage := (h.place p hzone).usage 0 (zonePageCnt_pos hcfg)
    rw [Nat.add_zero, hlarge.usage] at husage
    cases husage
  exact not_or.mp hno

theorem chunk_notMem_large (h : SlabInv cfg fin s held v) (hcfg : cfg.Valid) (hz : z ∈ v.active) (hk : k < (s.zone z).zNmax) :
    (s.zone z).chunk k ∉ v.large := by
  intro hlarge
  obtain ⟨hlt, -, hown⟩ := h.chunk_place hcfg hz hk
  obtain ⟨n, hpages⟩ := h.large _ hlarge
  have hself := hpages.own 0 hpages.pos
  rw [Nat.add_zero, hown] at hself
  have heq := Option.some.inj hself
  omega

theorem own_le (h : SlabInv cfg fin s held v) {a : Nat} (hown : v.own k = some a) : cfg.firstPage ≤ k :=
  ((h.pages.all k).mp (Or.inr (h.owned k a hown))).1

theorem own_of_given (h : SlabInv cfg fin s held v) (hcfg : cfg.Valid) (hgiven : GivenOut s v p) :
    p ∈ v.large ∧ v.own (p / mmPageSize) = some p ∨ ∃ z k, LiveChunk s v z k ∧ p = (s.zone z).chunk k ∧ v.own (p / mmPageSize) = some z := by
  rcases hgiven with hlarge | ⟨z, k, hlive, heq⟩
  · obtain ⟨n, hpages⟩ := h.large p hlarge
    have hown := hpages.own 0 hpages.pos
    exact Or.inl ⟨hlarge, hown⟩
  · have hown := (h.chunk_place hcfg hlive.1 (h.live_lt hlive)).2.2
    rw [← heq] at hown
    exact Or.inr ⟨z, k, hlive, heq, hown⟩

theorem chunk_not_else (h : SlabInv cfg fin s held v) (hcfg : cfg.Valid) (hz : z ∈ v.active) (hk : k < (s.zone z).zNmax) :
    ¬ GivenElse s v z ((s.zone z).chunk k) := by
  rintro (hlarge | ⟨b, j, hb, hlive, heq⟩)
  · exact h.chunk_notMem_large hcfg hz hk hlarge
  · exact hb (h.chunk_unique hcfg hz hlive.1 hk (h.live_lt hlive) heq).1.symm

/-! ## Changes that keep it -/

theorem repage (h : SlabInv cfg fin s held v) {pages : SlabPages} {memusage : Nat → MemUsage} {allocated : Finset Nat} {runs : List Run}
    (hpages : PagesInv cfg.firstPage fin pages allocated runs) (howned : ∀ k a, own k = some a → k ∈ allocated)
    (hsame : ∀ k a, (a ∈ v.active ∨ a ∈ v.spare) ∨ a ∈ v.large → v.own k = some a →
      own k = some a ∧ memusage (k - cfg.firstPage) = s.memusage (k - cfg.firstPage)) :
    SlabInv cfg fin { s with pages := pages, memusage := memusage } held { v with allocated := allocated, runs := runs, own := own } := by
  refine ⟨hpages, howned, h.zones, fun z hz => ?_, h.listed, h.spare, h.spareCnt, fun p hp => ?_, h.held⟩
  · exact (h.place z hz).congr fun k hk => hsame k z (Or.inl hz) hk
  · obtain ⟨n, hlarge⟩ := h.large p hp
    exact ⟨n, hlarge.congr fun k hk => hsame k p (Or.inr hp) hk⟩

theorem changeZone (h : SlabInv cfg fin s held v) (hz : z ∈ v.active) {hdr : SlabZone} {free : List Nat} {cNext : Nat → Option Nat}
    {zoneArray : Nat → Option Nat} {array : Nat → List Nat} {held' : Finset Nat} (hzone : ZoneInv cfg cNext z hdr free)
    (hother : ∀ b ∈ v.active, b ≠ z → ∀ k ∈ v.free b, cNext ((s.zone b).chunk k) = s.cNext ((s.zone b).chunk k))
    (hlisted : Listed v.active (update s.zone z hdr) zoneArray array)
    (hheld : ∀ p, p ∈ held' ↔ GivenElse s v z p ∨ ∃ k, Carving.Live (hdr.zUindex + 1) free k ∧ p = hdr.chunk k) :
    SlabInv cfg fin { s with zone := update s.zone z hdr, cNext := cNext, zoneArray := zoneArray } held'
      { v with array := array, free := update v.free z free } := by
  have hspare : z ∉ v.spare := fun hmem => h.spare.apart z hmem hz
  refine ⟨h.pages, h.owned, fun b hb => ?_, h.place, hlisted, h.spare.other hspare hdr, h.spareCnt, h.large, fun p => ?_⟩
  · show ZoneInv cfg cNext b (update s.zone z hdr b) (update v.free z free b)
    by_cases heq : b = z
    · rw [heq, update_self, update_self]
      exact hzone
    · rw [update_of_ne heq, update_of_ne heq]
      exact (h.zones b hb).congr (hother b hb heq)
  · rw [hheld p, givenOut_iff _ _ z p]
    refine or_congr ?_ (exists_congr fun k => ?_)
    · symm
      refine givenElse_congr ?_ ?_ fun b hb => ?_
      · rfl
      · exact fun b _ => Iff.rfl
      show (update s.zone z hdr b).chunk = _ ∧ (update s.zone z hdr b).zUindex = _ ∧ update v.free z free b = _
      rw [update_of_ne hb, update_of_ne hb]
      exact ⟨rfl, rfl, rfl⟩
    · show _ ↔ (z ∈ v.active ∧ Carving.Live ((update s.zone z hdr z).zUindex + 1) (update v.free z free z) k) ∧
        p = (update s.zone z hdr z).chunk k
      rw [update_self, update_self, and_iff_right hz]

end SlabInv

end RtThread
