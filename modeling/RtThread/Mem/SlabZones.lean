import RtThread.Lib.Carving
import RtThread.Lib.Linked
import RtThread.Mem.MallocAlign
import RtThread.Mem.SlabPagesRuns

/-!
# The zones of the slab heap

`rt_malloc` and `rt_free` of `slab.c`. A zone is so many pages with a header and an array of chunks of one size; an entry of `zone_array` lists the zones of a size that have a chunk left, and `zone_free` lists zones that are not in use. Headers, the links in free chunks and the heads of free pages all stand in the memory that is given out, and are kept apart here, as each is read only where it was written last. Addresses have 32 bits. A call whose `RT_ASSERT` fails, or that follows a null pointer, gives `none`. The counters of `RT_MEM_STATS` and the hooks are left out.
-/

namespace RtThread

open Function

def zallocSlabMagic : Int := 0x51ab51ab

/-- `sizeof(slab_zone)` -/
def sizeofSlabZone : Nat := 36

def minChunkSize : Nat := 8

def nzones : Nat := 72

def zoneReleaseThresh : Nat := 2

/-- `struct slab_zone` -/
structure SlabZone where
  zMagic : Int
  zNfree : Nat
  zNmax : Nat
  zNext : Option Nat
  zBaseptr : Nat
  zUindex : Nat
  zChunksize : Nat
  zZoneindex : Nat
  zFreechunk : Option Nat
  deriving DecidableEq

inductive PageType
  | free | small | large
  deriving DecidableEq

/-- `struct memusage`: "pages allocated or offset from zone" -/
structure MemUsage where
  type : PageType
  size : Nat
  deriving DecidableEq

/-- What `rt_system_heap_init` computes once. -/
structure SlabConfig where
  heapStart : Nat
  zoneSize : Nat
  zoneLimit : Nat
  deriving DecidableEq

structure Slab where
  pages : SlabPages
  memusage : Nat → MemUsage
  zoneArray : Nat → Option Nat
  zoneFree : Option Nat
  zoneFreeCnt : Nat
  zone : Nat → SlabZone
  /-- `c_next` of the chunk at an address. -/
  cNext : Nat → Option Nat

/-! ## The start -/

/-- `while (zone_size < ZALLOC_MAX_ZONE_SIZE && (zone_size << 1) < (limsize / 1024))` -/
def zoneSizeLoop (limsize : Nat) : Nat → Nat → Nat
  | 0, zoneSize => zoneSize
  | n + 1, zoneSize =>
    if zoneSize < 128 * 1024 ∧ zoneSize * 2 < limsize / 1024 then zoneSizeLoop limsize n (zoneSize * 2) else zoneSize

def slabConfig (heapStart limsize : Nat) : SlabConfig :=
  let zoneSize := zoneSizeLoop limsize 2 (32 * 1024)
  ⟨heapStart, zoneSize, min (zoneSize / 4) (16 * 1024)⟩

def SlabConfig.zonePageCnt (cfg : SlabConfig) : Nat := cfg.zoneSize / mmPageSize

def SlabConfig.btokup (cfg : SlabConfig) (addr : Nat) : Nat := (addr - cfg.heapStart) / mmPageSize

/-! ## Sizes -/

def zoneindex (n : Nat) : Nat × Nat :=
  if n < 128 then (roundUp n 8, roundUp n 8 / 8 - 1)
  else if n < 256 then (roundUp n 16, roundUp n 16 / 16 + 7)
  else if n < 8192 then
    if n < 512 then (roundUp n 32, roundUp n 32 / 32 + 15)
    else if n < 1024 then (roundUp n 64, roundUp n 64 / 64 + 23)
    else if n < 2048 then (roundUp n 128, roundUp n 128 / 128 + 31)
    else if n < 4096 then (roundUp n 256, roundUp n 256 / 256 + 39)
    else (roundUp n 512, roundUp n 512 / 512 + 47)
  else if n < 16384 then (roundUp n 1024, roundUp n 1024 / 1024 + 55)
  else (n, 0)

/-- The offset of the chunks: "Guarentee power-of-2 alignment for power-of-2-sized chunks. Otherwise just 8-byte align the data." -/
def zoneOff (size : Nat) : Nat :=
  if (size ||| (size - 1)) + 1 = size <<< 1 then roundUp sizeofSlabZone size else roundUp sizeofSlabZone minChunkSize

/-! ## `rt_malloc` -/

namespace Slab

def setZone (s : Slab) (z : Nat) (f : SlabZone → SlabZone) : Slab := { s with zone := update s.zone z (f (s.zone z)) }

/-- "Remove us from the zone_array[] when we become empty" -/
def leaveArray (s : Slab) (zi z : Nat) : Slab :=
  if (s.zone z).zNfree = 0 then
    { s with zoneArray := update s.zoneArray zi (s.zone z).zNext }.setZone z fun h => { h with zNext := none }
  else s

/-- "Attempt to allocate out of an existing zone." -/
def takeChunk (s : Slab) (zi z size : Nat) : Option (Slab × Option Nat) :=
  if (s.zone z).zNfree = 0 then none
  else
    let s := s.setZone z fun h => { h with zNfree := h.zNfree - 1 }
    let s := s.leaveArray zi z
    if (s.zone z).zUindex + 1 ≠ (s.zone z).zNmax then
      let s := s.setZone z fun h => { h with zUindex := h.zUindex + 1 }
      some (s, some ((s.zone z).zBaseptr + (s.zone z).zUindex * size))
    else
      -- "find on free chunk list"
      (s.zone z).zFreechunk.map fun chunk => (s.setZone z fun h => { h with zFreechunk := s.cNext chunk }, some chunk)

def markZone (cfg : SlabConfig) (z : Nat) (memusage : Nat → MemUsage) (k : Nat) : MemUsage :=
  if cfg.btokup z ≤ k ∧ k < cfg.btokup z + cfg.zonePageCnt then ⟨.small, k - cfg.btokup z⟩ else memusage k

def startZone (cfg : SlabConfig) (s : Slab) (zi z size : Nat) : Slab × Option Nat :=
  let nmax := (cfg.zoneSize - zoneOff size) / size
  let header : SlabZone := ⟨zallocSlabMagic, nmax - 1, nmax, s.zoneArray zi, z + zoneOff size, 0, size, zi, none⟩
  ({ s.setZone z fun _ => header with zoneArray := update s.zoneArray zi (some z) }, some (header.zBaseptr + header.zUindex * size))

/-- "If all zones are exhausted we need to allocate a new zone for this index." -/
def newZone (cfg : SlabConfig) (s : Slab) (zi size : Nat) : Option (Slab × Option Nat) :=
  match s.zoneFree with
  | some z => some ({ s with zoneFree := (s.zone z).zNext, zoneFreeCnt := s.zoneFreeCnt - 1 }.startZone cfg zi z size)
  | none =>
    (rtPageAlloc s.pages cfg.zonePageCnt).map fun r =>
      match r.2 with
      | none => ({ s with pages := r.1 }, none)
      | some z => { s with pages := r.1, memusage := markZone cfg z s.memusage }.startZone cfg zi z size

/-- "Handle large allocations directly." -/
def largeMalloc (cfg : SlabConfig) (s : Slab) (size : Nat) : Option (Slab × Option Nat) :=
  let npages := pageConfig.rtAlign size / mmPageSize
  (rtPageAlloc s.pages npages).map fun r =>
    match r.2 with
    | none => ({ s with pages := r.1 }, none)
    | some chunk => ({ s with pages := r.1, memusage := update s.memusage (cfg.btokup chunk) ⟨.large, npages⟩ }, some chunk)

def rtMalloc (cfg : SlabConfig) (s : Slab) (size : Nat) : Option (Slab × Option Nat) :=
  if size = 0 then some (s, none)
  else if cfg.zoneLimit ≤ size then s.largeMalloc cfg size
  else if nzones ≤ (zoneindex size).2 then none
  else
    match s.zoneArray (zoneindex size).2 with
    | some z => s.takeChunk (zoneindex size).2 z (zoneindex size).1
    | none => s.newZone cfg (zoneindex size).2 (zoneindex size).1

/-! ## `rt_free` -/

/-- `*pz`: an entry of the array, or the field `z_next` of a zone. -/
def link (s : Slab) (zi : Nat) : Option Nat → Option Nat
  | none => s.zoneArray zi
  | some z => (s.zone z).zNext

def setLink (s : Slab) (zi : Nat) (prev next : Option Nat) : Slab :=
  match prev with
  | none => { s with zoneArray := update s.zoneArray zi next }
  | some z => s.setZone z fun h => { h with zNext := next }

/-- "remove zone from zone array list" -/
def unlinkLoop (zi z : Nat) : Nat → Slab → Option Nat → Option Slab
  | 0, _, _ => none
  | n + 1, s, prev =>
    match s.link zi prev with
    | none => none
    | some b => if b = z then some (s.setLink zi prev (s.zone z).zNext) else unlinkLoop zi z n s (some b)

/-- "insert to free zone list", of which the first zone goes to the page allocator where there are too many. -/
def spareZone (cfg : SlabConfig) (s : Slab) (z : Nat) : Option Slab :=
  let s := s.setZone z fun h => { h with zMagic := -1, zNext := s.zoneFree }
  let s := { s with zoneFree := some z, zoneFreeCnt := s.zoneFreeCnt + 1 }
  if zoneReleaseThresh < s.zoneFreeCnt then
    let memusage := fun k =>
      if cfg.btokup z ≤ k ∧ k < cfg.btokup z + cfg.zonePageCnt then ⟨.free, 0⟩ else s.memusage k
    (rtPageFree s.pages z cfg.zonePageCnt).map fun pages =>
      { s with pages := pages, memusage := memusage, zoneFree := (s.zone z).zNext, zoneFreeCnt := s.zoneFreeCnt - 1 }
  else some s

/-- "the zone must be added back onto the appropriate list" -/
def enterArray (s : Slab) (z : Nat) : Slab :=
  if (s.zone z).zNfree = 0 then
    { s.setZone z fun h => { h with zNext := s.zoneArray h.zZoneindex } with
      zoneArray := update s.zoneArray (s.zone z).zZoneindex (some z) }
  else s

def giveChunk (s : Slab) (z chunk : Nat) : Slab :=
  let s := { s with cNext := update s.cNext chunk (s.zone z).zFreechunk }
  let s := s.setZone z fun h => { h with zFreechunk := some chunk }
  let s := s.enterArray z
  s.setZone z fun h => { h with zNfree := h.zNfree + 1 }

/-- "If the zone becomes totally free, and there are other zones we can allocate from, move this zone to the FreeZones list." -/
def shrink (cfg : SlabConfig) (s : Slab) (z : Nat) : Option Slab :=
  if (s.zone z).zNfree = (s.zone z).zNmax ∧ ((s.zone z).zNext ≠ none ∨ s.zoneArray (s.zone z).zZoneindex ≠ some z) then
    (unlinkLoop (s.zone z).zZoneindex z pageRounds s none).bind fun s => s.spareZone cfg z
  else some s

def rtFree (cfg : SlabConfig) (s : Slab) : Option Nat → Option Slab
  | none => some s
  | some ptr =>
    let page := ptr / mmPageSize * mmPageSize
    let kup := s.memusage (cfg.btokup page)
    if kup.type = .large then
      (rtPageFree s.pages ptr kup.size).map fun pages =>
        { s with pages := pages, memusage := update s.memusage (cfg.btokup page) ⟨.large, 0⟩ }
    else
      let z := page - kup.size * mmPageSize
      if (s.zone z).zMagic = zallocSlabMagic then (s.giveChunk z ptr).shrink cfg z else none

end Slab

end RtThread
