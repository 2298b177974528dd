import RtThread.Mem.SlabZones

/-!
# The layout of the zones

The index of a request says the size of its chunks. A zone has room for three chunks at least, and where their size is a power of two the first of them stands at a multiple of it from the start of the zone.
-/

namespace RtThread

variable {n size size' zi : Nat} {cfg : SlabConfig}

/-! ## The sizes of chunks -/

def chunkSize (zi : Nat) : Nat :=
  if zi ≤ 15 then (zi + 1) * 8
  else if zi ≤ 23 then (zi - 7) * 16
  else if zi ≤ 31 then (zi - 15) * 32
  else if zi ≤ 39 then (zi - 23) * 64
  else if zi ≤ 47 then (zi - 31) * 128
  else if zi ≤ 55 then (zi - 39) * 256
  else if zi ≤ 63 then (zi - 47) * 512
  else (zi - 55) * 1024

structure ClassOf (n : Nat) (r : Nat × Nat) : Prop where
  size : r.1 = chunkSize r.2
  lt : r.2 < nzones
  le : n ≤ r.1
  close : r.1 < n + 1024
  dvd : 8 ∣ r.1

theorem roundUp_eq (n : Nat) {g : Nat} (hg : 0 < g) : ∃ q, roundUp n g = q * g ∧ roundUp n g / g = q ∧ n ≤ q * g ∧ q * g < n + g := by
  have hbounds := roundUp_bounds n hg
  have hq : roundUp n g = (n + (g - 1)) / g * g := rfl
  refine ⟨(n + (g - 1)) / g, hq, ?_, ?_, ?_⟩
  · rw [hq, Nat.mul_div_cancel _ hg]
  · rw [← hq]
    exact hbounds.1
  · rw [← hq]
    omega

theorem classOf_roundUp {g c : Nat} (hlow : 8 * g ≤ n) (hhigh : n < 16 * g) (hg : 0 < g) (hle : g ≤ 1024) (hdvd : 8 ∣ g)
    (hchunk : ∀ q < 17, 8 ≤ q → chunkSize (q + c) = q * g ∧ q + c < nzones) : ClassOf n (roundUp n g, roundUp n g / g + c) := by
  obtain ⟨q, hsize, hindex, hfits, hclose⟩ := roundUp_eq n hg
  have hfew : q < 17 := by
    by_contra hmany
    have hmul := Nat.mul_le_mul_right g (Nat.le_of_not_lt hmany)
    omega
  have hmany : 8 ≤ q := by
    by_contra hfew
    have hmul := Nat.mul_le_mul_right g (Nat.le_of_lt_succ (Nat.lt_of_not_le hfew))
    omega
  obtain ⟨hvalue, hlt⟩ := hchunk q hfew hmany
  rw [hindex, hsize]
  exact ⟨hvalue.symm, hlt, hfits, show q * g < n + 1024 by omega, Nat.dvd_mul_left_of_dvd hdvd q⟩

theorem zoneindex_class (hpos : 0 < n) (hlt : n < 16384) : ClassOf n (zoneindex n) := by
  rw [zoneindex]
  split_ifs with h₁ h₂ h₃ h₄ h₅ h₆ h₇
  · obtain ⟨q, hsize, hindex, hfits, hclose⟩ := roundUp_eq n (show 0 < 8 by decide)
    have hchunk : ∀ q < 17, 0 < q → chunkSize (q - 1) = q * 8 ∧ q - 1 < nzones := by decide
    obtain ⟨hvalue, hindexlt⟩ := hchunk q (by omega) (by omega)
    rw [hindex, hsize]
    exact ⟨hvalue.symm, hindexlt, hfits, show q * 8 < n + 1024 by omega, Nat.dvd_mul_left 8 q⟩
  · exact classOf_roundUp (by omega) (by omega) (by decide) (by decide) (by decide) (by decide)
  · exact classOf_roundUp (by omega) (by omega) (by decide) (by decide) (by decide) (by decide)
  · exact classOf_roundUp (by omega) (by omega) (by decide) (by decide) (by decide) (by decide)
  · exact classOf_roundUp (by omega) (by omega) (by decide) (by decide) (by decide) (by decide)
  · exact classOf_roundUp (by omega) (by omega) (by decide) (by decide) (by decide) (by decide)
  · exact classOf_roundUp (by omega) (by omega) (by decide) (by decide) (by decide) (by decide)
  · exact classOf_roundUp (by omega) (by omega) (by decide) (by decide) (by decide) (by decide)

theorem zoneindex_two_pow {j : Nat} (hlt : 2 ^ j < 16384) : (zoneindex (2 ^ j)).1 = max (2 ^ j) 8 := by
  have hj : j < 14 := by
    by_contra hge
    have hpow := Nat.pow_le_pow_right (show 0 < 2 by decide) (Nat.le_of_not_lt hge)
    omega
  have hall : ∀ j < 14, (zoneindex (2 ^ j)).1 = max (2 ^ j) 8 := by decide
  exact hall j hj

/-! ## The layout of a zone -/

/-- The sizes that `rt_system_heap_init` computes, for a heap that begins with a page. -/
structure SlabConfig.Valid (cfg : SlabConfig) : Prop where
  aligned : mmPageSize ∣ cfg.heapStart
  size : cfg.zoneSize = 2 ^ 15 ∨ cfg.zoneSize = 2 ^ 16 ∨ cfg.zoneSize = 2 ^ 17
  limit : cfg.zoneLimit = min (cfg.zoneSize / 4) (2 ^ 14)

theorem slabConfig_valid {heapStart limsize : Nat} (haligned : mmPageSize ∣ heapStart) : (slabConfig heapStart limsize).Valid := by
  refine ⟨haligned, ?_, rfl⟩
  have hloop : zoneSizeLoop limsize 2 (32 * 1024) = 2 ^ 15 ∨ zoneSizeLoop limsize 2 (32 * 1024) = 2 ^ 16 ∨
      zoneSizeLoop limsize 2 (32 * 1024) = 2 ^ 17 := by
    rw [zoneSizeLoop, zoneSizeLoop, zoneSizeLoop]
    split_ifs <;> decide
  exact hloop

theorem SlabConfig.Valid.zoneSize_eq (h : cfg.Valid) : cfg.zoneSize = cfg.zonePageCnt * mmPageSize := by
  rw [SlabConfig.zonePageCnt, mmPageSize]
  rcases h.size with hsize | hsize | hsize <;> omega

def ChunkClass (cfg : SlabConfig) (size zi : Nat) : Prop := ∃ n, 0 < n ∧ n < cfg.zoneLimit ∧ zoneindex n = (size, zi)

namespace ChunkClass

variable (h : ChunkClass cfg size zi) (hcfg : cfg.Valid)

include h hcfg

theorem size_eq : size = chunkSize zi ∧ zi < nzones ∧ 8 ∣ size := by
  obtain ⟨n, hpos, hlt, hclass⟩ := h
  have hlimit : cfg.zoneLimit ≤ 2 ^ 14 := by
    rw [hcfg.limit]
    exact Nat.min_le_right ..
  have hspec := zoneindex_class hpos (Nat.lt_of_lt_of_le hlt hlimit)
  rw [hclass] at hspec
  exact ⟨hspec.size, hspec.lt, hspec.dvd⟩

theorem bounds : 8 ≤ size ∧ 4 * size ≤ cfg.zoneSize := by
  obtain ⟨n, hpos, hlt, hclass⟩ := h
  have hlimit := hcfg.limit
  have hle : (zoneindex n).1 ≤ cfg.zoneSize / 4 ∧ 8 ≤ (zoneindex n).1 := by
    have hspec := zoneindex_class hpos (by omega)
    have hdvd := hspec.dvd
    have hfits := hspec.le
    have hclose := hspec.close
    have hgap : ∀ zi < nzones, chunkSize zi ≤ 2 ^ 14 ∧ (chunkSize zi < 9 * 1024 → chunkSize zi ≤ 2 ^ 13) := by decide
    have hsteps := hgap (zoneindex n).2 hspec.lt
    rw [← hspec.size] at hsteps
    rcases hcfg.size with hsize | hsize | hsize <;> omega
  rw [hclass] at hle
  exact ⟨hle.2, by omega⟩

theorem off_bounds : sizeofSlabZone ≤ zoneOff size ∧ zoneOff size + 3 * size ≤ cfg.zoneSize := by
  obtain ⟨hlow, hhigh⟩ := h.bounds hcfg
  have hdvd := (h.size_eq hcfg).2.2
  have hround := roundUp_bounds sizeofSlabZone (show 0 < size by omega)
  have hlarge : 2 ^ 15 ≤ cfg.zoneSize := by
    rcases hcfg.size with hsize | hsize | hsize <;> omega
  unfold sizeofSlabZone at *
  rw [zoneOff]
  split_ifs
  · by_cases hsmall : size < 36
    · exact ⟨hround.1, by unfold sizeofSlabZone; omega⟩
    · have hmod : 36 % size = 36 := Nat.mod_eq_of_lt (by omega)
      have heq := roundUp_of_mod (x := 36) (show 0 < size by omega) (by omega)
      rw [hmod] at heq
      exact ⟨hround.1, by unfold sizeofSlabZone; omega⟩
  · have heq : roundUp sizeofSlabZone minChunkSize = 40 := by decide
    rw [heq]
    exact ⟨by decide, by omega⟩

theorem nmax_bounds : 2 ≤ (cfg.zoneSize - zoneOff size) / size ∧
    ∀ k < (cfg.zoneSize - zoneOff size) / size, zoneOff size + (k + 1) * size ≤ cfg.zoneSize := by
  obtain ⟨hlow, -⟩ := h.bounds hcfg
  obtain ⟨-, hroom⟩ := h.off_bounds hcfg
  have hpos : 0 < size := by omega
  refine ⟨(Nat.le_div_iff_mul_le hpos).mpr (by omega), fun k hk => ?_⟩
  have hmul : (k + 1) * size ≤ cfg.zoneSize - zoneOff size := (Nat.le_div_iff_mul_le hpos).mp hk
  omega

end ChunkClass

theorem ChunkClass.unique (h : ChunkClass cfg size zi) (h' : ChunkClass cfg size' zi) (hcfg : cfg.Valid) : size = size' :=
  (h.size_eq hcfg).1.trans (h'.size_eq hcfg).1.symm

theorem dvd_zoneOff {j : Nat} (hsize : size = 2 ^ j) : size ∣ zoneOff size := by
  have hpos := Nat.two_pow_pos j
  have htest : (size ||| (size - 1)) + 1 = size <<< 1 := by
    have hor := Nat.two_pow_add_eq_or_of_lt (i := j) (b := 2 ^ j - 1) (by omega) 1
    rw [Nat.mul_one] at hor
    rw [hsize, ← hor, Nat.shiftLeft_eq]
    omega
  rw [zoneOff, if_pos htest]
  exact dvd_roundUp sizeofSlabZone size

end RtThread
