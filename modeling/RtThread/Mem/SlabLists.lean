import RtThread.Mem.SlabSizes

/-!
# The lists of the zones

What holds of the header of a zone that is in use, and of the lists of `zone_array`, and what the changes of one header do to them.
-/

namespace RtThread

open Function

variable {cfg : SlabConfig} {cNext cNext' : Nat → Option Nat} {z zi k : Nat} {h h' : SlabZone} {free rest : List Nat} {next first : Option Nat}
  {active : Finset Nat} {zone : Nat → SlabZone} {zoneArray : Nat → Option Nat} {array : Nat → List Nat}

/-! ## One zone -/

def SlabZone.chunk (h : SlabZone) (k : Nat) : Nat := h.zBaseptr + k * h.zChunksize

structure ZoneInv (cfg : SlabConfig) (cNext : Nat → Option Nat) (z : Nat) (h : SlabZone) (free : List Nat) : Prop where
  magic : h.zMagic = zallocSlabMagic
  size : ChunkClass cfg h.zChunksize h.zZoneindex
  base : h.zBaseptr = z + zoneOff h.zChunksize
  nmax : h.zNmax = (cfg.zoneSize - zoneOff h.zChunksize) / h.zChunksize
  slots : Carving.WellFormed h.zNmax (h.zUindex + 1) free
  chain : LinkedFrom cNext h.zFreechunk (free.map h.chunk)
  nfree : h.zNfree = Carving.left h.zNmax (h.zUindex + 1) free

namespace ZoneInv

theorem congr (hz : ZoneInv cfg cNext z h free) (hsame : ∀ k ∈ free, cNext' (h.chunk k) = cNext (h.chunk k)) : ZoneInv cfg cNext' z h free := by
  refine ⟨hz.magic, hz.size, hz.base, hz.nmax, hz.slots, hz.chain.congr ?_, hz.nfree⟩
  intro a ha
  obtain ⟨k, hk, rfl⟩ := List.mem_map.mp ha
  exact hsame k hk

theorem setNext (hz : ZoneInv cfg cNext z h free) (next : Option Nat) : ZoneInv cfg cNext z { h with zNext := next } free :=
  ⟨hz.magic, hz.size, hz.base, hz.nmax, hz.slots, hz.chain, hz.nfree⟩

theorem size_pos (hz : ZoneInv cfg cNext z h free) (hcfg : cfg.Valid) : 0 < h.zChunksize := by
  have hle := (hz.size.bounds hcfg).1
  omega

theorem chunk_inj (hz : ZoneInv cfg cNext z h free) (hcfg : cfg.Valid) {j : Nat} : h.chunk j = h.chunk k ↔ j = k := by
  have hpos := hz.size_pos hcfg
  unfold SlabZone.chunk
  rw [Nat.add_left_cancel_iff, Nat.mul_left_inj (Nat.ne_of_gt hpos)]

theorem chunk_bounds (hz : ZoneInv cfg cNext z h free) (hcfg : cfg.Valid) (hk : k < h.zNmax) :
    z + sizeofSlabZone ≤ h.chunk k ∧ h.chunk k + h.zChunksize ≤ z + cfg.zoneSize := by
  have hoff := (hz.size.off_bounds hcfg).1
  have hroom := (hz.size.nmax_bounds hcfg).2 k (by rw [← hz.nmax]; exact hk)
  rw [Nat.succ_mul] at hroom
  rw [SlabZone.chunk, hz.base]
  omega

theorem carve (hz : ZoneInv cfg cNext z h free) (hmore : h.zUindex + 1 ≠ h.zNmax) (next : Option Nat) :
    ZoneInv cfg cNext z { h with zNfree := h.zNfree - 1, zUindex := h.zUindex + 1, zNext := next } free := by
  have hle := hz.slots.le
  refine ⟨hz.magic, hz.size, hz.base, hz.nmax, hz.slots.carve (by omega), hz.chain, ?_⟩
  have hnfree := hz.nfree
  unfold Carving.left at hnfree ⊢
  dsimp only
  omega

theorem pop (hz : ZoneInv cfg cNext z h (k :: rest)) (next : Option Nat) :
    ZoneInv cfg cNext z { h with zNfree := h.zNfree - 1, zFreechunk := cNext (h.chunk k), zNext := next } rest := by
  have hchain : h.zFreechunk = some (h.chunk k) ∧ LinkedFrom cNext (cNext (h.chunk k)) (rest.map h.chunk) := hz.chain
  refine ⟨hz.magic, hz.size, hz.base, hz.nmax, hz.slots.pop, hchain.2, ?_⟩
  have hnfree := hz.nfree
  unfold Carving.left at hnfree ⊢
  rw [List.length_cons] at hnfree
  dsimp only
  omega

theorem give (hz : ZoneInv cfg cNext z h free) (hcfg : cfg.Valid) (hlive : Carving.Live (h.zUindex + 1) free k) (next : Option Nat) :
    ZoneInv cfg (update cNext (h.chunk k) h.zFreechunk) z
      { h with zFreechunk := some (h.chunk k), zNfree := h.zNfree + 1, zNext := next } (k :: free) := by
  have hnew : h.chunk k ∉ free.map h.chunk := by
    intro hmem
    obtain ⟨j, hj, heq⟩ := List.mem_map.mp hmem
    rw [(hz.chunk_inj hcfg).mp heq] at hj
    exact hlive.2 hj
  refine ⟨hz.magic, hz.size, hz.base, hz.nmax, hz.slots.push hlive, hz.chain.push hnew, ?_⟩
  have hnfree := hz.nfree
  unfold Carving.left at hnfree ⊢
  rw [List.length_cons]
  dsimp only
  omega

theorem not_live (hz : ZoneInv cfg cNext z h free) (hall : h.zNfree = h.zNmax) : ¬ Carving.Live (h.zUindex + 1) free k :=
  hz.slots.not_live (hz.nfree.symm.trans hall)

theorem exists_free (hz : ZoneInv cfg cNext z h free) (hsome : h.zNfree ≠ 0) (hlast : h.zUindex + 1 = h.zNmax) : ∃ k rest, free = k :: rest := by
  have hnfree := hz.nfree
  unfold Carving.left at hnfree
  cases free with
  | nil =>
    rw [List.length_nil] at hnfree
    omega
  | cons k rest => exact ⟨k, rest, rfl⟩

end ZoneInv

/-! ## The array -/

/-- The entry of the array for an index lists the zones in use with this index that have a chunk left. -/
structure Listed (active : Finset Nat) (zone : Nat → SlabZone) (zoneArray : Nat → Option Nat) (array : Nat → List Nat) : Prop where
  linked : ∀ zi, LinkedFrom (fun z => (zone z).zNext) (zoneArray zi) (array zi)
  nodup : ∀ zi, (array zi).Nodup
  mem : ∀ zi z, z ∈ array zi ↔ z ∈ active ∧ (zone z).zZoneindex = zi ∧ 0 < (zone z).zNfree

theorem next_update (zone : Nat → SlabZone) (z : Nat) (h : SlabZone) :
    (fun b => (update zone z h b).zNext) = update (fun b => (zone b).zNext) z h.zNext := by
  funext b
  by_cases hb : b = z
  · rw [hb, update_self, update_self]
  · rw [update_of_ne hb, update_of_ne hb]

namespace Listed

theorem same (hl : Listed active zone zoneArray array) (hnext : h.zNext = (zone z).zNext) (hindex : h.zZoneindex = (zone z).zZoneindex)
    (hcount : 0 < h.zNfree ↔ 0 < (zone z).zNfree) : Listed active (update zone z h) zoneArray array := by
  refine ⟨fun zi => ?_, hl.nodup, fun zi b => ?_⟩
  · rw [next_update, hnext, update_eq_self]
    exact hl.linked zi
  · rw [hl.mem zi b]
    by_cases hb : b = z
    · rw [hb, update_self, hindex, hcount]
    · rw [update_of_ne hb]

theorem other (hl : Listed active zone zoneArray array) (hz : z ∉ active) (h : SlabZone) : Listed active (update zone z h) zoneArray array := by
  refine ⟨fun zi => ?_, hl.nodup, fun zi b => ?_⟩
  · rw [next_update]
    exact (hl.linked zi).update fun hmem => hz ((hl.mem zi z).mp hmem).1
  · rw [hl.mem zi b]
    by_cases hb : b = z
    · rw [hb]
      exact ⟨fun hno => absurd hno.1 hz, fun hno => absurd hno.1 hz⟩
    · rw [update_of_ne hb]

theorem leave (hl : Listed active zone zoneArray array) (hfirst : array zi = z :: rest) (hindex : h.zZoneindex = zi) (hnone : h.zNfree = 0) :
    Listed active (update zone z h) (update zoneArray zi (zone z).zNext) (update array zi rest) := by
  have hlinked := hl.linked zi
  have hnodup := hl.nodup zi
  rw [hfirst] at hlinked hnodup
  obtain ⟨hz, hrest⟩ := List.nodup_cons.mp hnodup
  have hzindex := ((hl.mem zi z).mp (by rw [hfirst]; exact List.mem_cons_self)).2.1
  refine ⟨fun i => ?_, fun i => ?_, fun i b => ?_⟩
  · rw [next_update]
    by_cases hi : i = zi
    · rw [hi, update_self, update_self]
      exact hlinked.2.update hz
    · rw [update_of_ne hi, update_of_ne hi]
      exact (hl.linked i).update fun hmem => hi (((hl.mem i z).mp hmem).2.1.symm.trans hzindex)
  · by_cases hi : i = zi
    · rw [hi, update_self]
      exact hrest
    · rw [update_of_ne hi]
      exact hl.nodup i
  · have hmem := hl.mem i b
    by_cases hb : b = z
    · rw [hb, update_self, hindex, hnone]
      refine ⟨fun hno => ?_, fun hno => absurd hno.2.2 (Nat.lt_irrefl 0)⟩
      by_cases hi : i = zi
      · rw [hi, update_self] at hno
        exact absurd hno hz
      · rw [update_of_ne hi] at hno
        exact absurd (((hl.mem i z).mp hno).2.1.symm.trans hzindex) hi
    · rw [update_of_ne hb, ← hmem]
      by_cases hi : i = zi
      · rw [hi, update_self, hfirst, List.mem_cons, or_iff_right hb]
      · rw [update_of_ne hi]

theorem enter (hl : Listed active zone zoneArray array) (hz : ∀ i, z ∉ array i) (hnext : h.zNext = zoneArray zi) (hindex : h.zZoneindex = zi)
    (hsome : 0 < h.zNfree) :
    Listed (insert z active) (update zone z h) (update zoneArray zi (some z)) (update array zi (z :: array zi)) := by
  refine ⟨fun i => ?_, fun i => ?_, fun i b => ?_⟩
  · rw [next_update]
    by_cases hi : i = zi
    · rw [hi, update_self, update_self, hnext]
      exact (hl.linked zi).push (hz zi)
    · rw [update_of_ne hi, update_of_ne hi]
      exact (hl.linked i).update (hz i)
  · by_cases hi : i = zi
    · rw [hi, update_self]
      exact List.nodup_cons.mpr ⟨hz zi, hl.nodup zi⟩
    · rw [update_of_ne hi]
      exact hl.nodup i
  · have hmem := hl.mem i b
    rw [Finset.mem_insert]
    by_cases hb : b = z
    · rw [hb, update_self, hindex]
      by_cases hi : i = zi
      · rw [hi, update_self]
        exact ⟨fun _ => ⟨Or.inl rfl, rfl, hsome⟩, fun _ => List.mem_cons_self⟩
      · rw [update_of_ne hi]
        exact ⟨fun hno => absurd hno (hz i), fun hno => absurd hno.2.1.symm hi⟩
    · rw [update_of_ne hb, or_iff_right hb, ← hmem]
      by_cases hi : i = zi
      · rw [hi, update_self, List.mem_cons, or_iff_right hb]
      · rw [update_of_ne hi]

theorem remove (hl : Listed active zone zoneArray array) (hz : z ∈ array zi) {zone' : Nat → SlabZone} {zoneArray' : Nat → Option Nat}
    (hlinked : LinkedFrom (fun b => (zone' b).zNext) (zoneArray' zi) ((array zi).erase z)) (hother : ∀ i, i ≠ zi → zoneArray' i = zoneArray i)
    (hsame : ∀ b, ∃ next, zone' b = { zone b with zNext := next }) (hnext : ∀ b, b ∉ array zi → zone' b = zone b) :
    Listed (active.erase z) zone' zoneArray' (update array zi ((array zi).erase z)) := by
  have hzindex := ((hl.mem zi z).mp hz).2.1
  refine ⟨fun i => ?_, fun i => ?_, fun i b => ?_⟩
  · by_cases hi : i = zi
    · rw [hi, update_self]
      exact hlinked
    · rw [update_of_ne hi, hother i hi]
      refine (hl.linked i).congr fun b hb => ?_
      have hindex := ((hl.mem i b).mp hb).2.1
      rw [hnext b fun hmem => hi (hindex.symm.trans ((hl.mem zi b).mp hmem).2.1)]
  · by_cases hi : i = zi
    · rw [hi, update_self]
      exact (hl.nodup zi).erase z
    · rw [update_of_ne hi]
      exact hl.nodup i
  · obtain ⟨next, hfields⟩ := hsame b
    rw [hfields, Finset.mem_erase]
    dsimp only
    by_cases hi : i = zi
    · rw [hi, update_self, (hl.nodup zi).mem_erase_iff, hl.mem zi b, and_assoc]
    · rw [update_of_ne hi, hl.mem i b, and_assoc]
      refine ⟨fun hmem => ⟨fun heq => hi ?_, hmem⟩, And.right⟩
      rw [← hmem.2.1, heq, hzindex]

end Listed

/-! ## The spare zones -/

/-- `zone_free` lists zones that are not in use. -/
structure Spare (active : Finset Nat) (zone : Nat → SlabZone) (first : Option Nat) (spare : List Nat) : Prop where
  linked : LinkedFrom (fun z => (zone z).zNext) first spare
  nodup : spare.Nodup
  apart : ∀ z ∈ spare, z ∉ active

namespace Spare

variable {spare : List Nat}

theorem congr (hs : Spare active zone first spare) {zone' : Nat → SlabZone} (hsame : ∀ b ∈ spare, zone' b = zone b) : Spare active zone' first spare :=
  ⟨hs.linked.congr fun b hb => congrArg SlabZone.zNext (hsame b hb), hs.nodup, hs.apart⟩

theorem other (hs : Spare active zone first spare) (hz : z ∉ spare) (h : SlabZone) : Spare active (update zone z h) first spare :=
  hs.congr fun b hb => update_of_ne (fun heq : b = z => hz (heq ▸ hb)) ..

theorem insert (hs : Spare active zone first spare) (hz : z ∉ spare) : Spare (insert z active) zone first spare := by
  refine ⟨hs.linked, hs.nodup, fun b hb hmem => ?_⟩
  rcases Finset.mem_insert.mp hmem with heq | hactive
  · exact hz (heq ▸ hb)
  · exact hs.apart b hb hactive

theorem pop (hs : Spare active zone (some z) spare) : ∃ rest, spare = z :: rest ∧ Spare active zone (zone z).zNext rest ∧ z ∉ rest := by
  obtain ⟨rest, rfl, hrest⟩ := hs.linked.exists_of_some
  obtain ⟨hz, hnodup⟩ := List.nodup_cons.mp hs.nodup
  exact ⟨rest, rfl, ⟨hrest, hnodup, fun b hb => hs.apart b (List.mem_cons_of_mem z hb)⟩, hz⟩

theorem push (hs : Spare active zone first spare) (hz : z ∉ spare) (hnext : h.zNext = first) :
    Spare (active.erase z) (update zone z h) (some z) (z :: spare) := by
  refine ⟨?_, List.nodup_cons.mpr ⟨hz, hs.nodup⟩, fun b hb hmem => ?_⟩
  · rw [next_update, hnext]
    exact hs.linked.push hz
  · obtain ⟨hne, hactive⟩ := Finset.mem_erase.mp hmem
    rcases List.mem_cons.mp hb with heq | hb
    · exact hne heq
    · exact hs.apart b hb hactive

end Spare

/-! ## The loop of `rt_free` -/

variable {s : Slab} {prev : Option Nat} {l : List Nat} {n : Nat}

theorem unlinkLoop_eq (hl : LinkedFrom (fun b => (s.zone b).zNext) (s.link zi prev) l) (hz : z ∈ l) (hn : l.length ≤ n) :
    ∃ q, Slab.unlinkLoop zi z n s prev = some (s.setLink zi q (s.zone z).zNext) ∧
      ((q = prev ∧ ∃ rest, l = z :: rest) ∨ ∃ l₁ b l₂, q = some b ∧ l = l₁ ++ b :: z :: l₂) := by
  induction l generalizing prev n with
  | nil => cases hz
  | cons b rest ih =>
    obtain ⟨n, rfl⟩ := Nat.exists_eq_add_one_of_ne_zero (show n ≠ 0 by rw [List.length_cons] at hn; omega)
    have hb : s.link zi prev = some b := hl.1
    rw [Slab.unlinkLoop, hb]
    dsimp only
    by_cases heq : b = z
    · rw [if_pos heq]
      exact ⟨prev, rfl, Or.inl ⟨rfl, rest, by rw [heq]⟩⟩
    · rw [if_neg heq]
      have hrest : z ∈ rest := (List.mem_cons.mp hz).resolve_left fun hno => heq hno.symm
      have hlinked : LinkedFrom (fun b => (s.zone b).zNext) (s.link zi (some b)) rest := hl.2
      obtain ⟨q, hloop, hplace⟩ := ih hlinked hrest (Nat.le_of_succ_le_succ hn)
      refine ⟨q, hloop, Or.inr ?_⟩
      rcases hplace with ⟨hq, tail, htail⟩ | ⟨l₁, b', l₂, hq, htail⟩
      · exact ⟨[], b, tail, hq, by rw [htail]; rfl⟩
      · exact ⟨b :: l₁, b', l₂, hq, by rw [htail]; rfl⟩

theorem unlinkLoop_spec (hl : Listed active s.zone s.zoneArray array) (hz : z ∈ array zi) (hn : (array zi).length ≤ n) :
    ∃ zone' zoneArray', Slab.unlinkLoop zi z n s none = some { s with zone := zone', zoneArray := zoneArray' } ∧
      (∀ b, ∃ next, zone' b = { s.zone b with zNext := next }) ∧ zone' z = s.zone z ∧ (∀ b, b ∉ array zi → zone' b = s.zone b) ∧
      Listed (active.erase z) zone' zoneArray' (update array zi ((array zi).erase z)) := by
  have hnodup := hl.nodup zi
  have hlinked : LinkedFrom (fun b => (s.zone b).zNext) (s.link zi none) (array zi) := hl.linked zi
  obtain ⟨q, hloop, hplace⟩ := unlinkLoop_eq hlinked hz hn
  rw [hloop]
  rcases hplace with ⟨rfl, rest, hfirst⟩ | ⟨l₁, b, l₂, rfl, hmiddle⟩
  · refine ⟨s.zone, update s.zoneArray zi (s.zone z).zNext, rfl, fun b => ⟨_, rfl⟩, rfl, fun b _ => rfl, ?_⟩
    refine hl.remove hz ?_ (fun i hi => update_of_ne hi ..) (fun b => ⟨_, rfl⟩) fun b _ => rfl
    rw [hfirst] at hlinked
    rw [update_self, hfirst, List.erase_cons_head]
    exact hlinked.2
  · rw [hmiddle] at hlinked hnodup
    have hb : b ∈ array zi := by
      rw [hmiddle]
      simp
    have hzb : z ≠ b := by
      rintro rfl
      have htail := (List.nodup_append.mp hnodup).2.1
      exact (List.nodup_cons.mp htail).1 List.mem_cons_self
    have herase : (array zi).erase z = l₁ ++ b :: l₂ := by
      have hfirst : z ∉ l₁ := fun hmem => (List.nodup_append.mp hnodup).2.2 z hmem z (by simp) rfl
      rw [hmiddle, List.erase_append_right _ hfirst, List.erase_cons_tail (by simpa using hzb.symm), List.erase_cons_head]
    refine ⟨update s.zone b { s.zone b with zNext := (s.zone z).zNext }, s.zoneArray, rfl, fun c => ?_, ?_, fun c hc => ?_, ?_⟩
    · by_cases hc : c = b
      · rw [hc, update_self]
        exact ⟨_, rfl⟩
      · rw [update_of_ne hc]
        exact ⟨_, rfl⟩
    · rw [update_of_ne hzb]
    · rw [update_of_ne fun heq : c = b => hc (heq ▸ hb)]
    · refine hl.remove hz ?_ (fun _ _ => rfl) (fun c => ?_) fun c hc => update_of_ne (fun heq : c = b => hc (heq ▸ hb)) ..
      · rw [next_update, herase]
        exact hlinked.unlink hnodup
      · by_cases hc : c = b
        · rw [hc, update_self]
          exact ⟨_, rfl⟩
        · rw [update_of_ne hc]
          exact ⟨_, rfl⟩

end RtThread
