import RtThread.Dfs.Ramfs
import RtThread.Lib.Transition

/-!
# A file of ramfs is a byte string with a cursor

The calls on one entry, with at most one descriptor open on it at a time, beside the same calls on a byte string. The size is in the entry and in the descriptor; both, the position and the buffer are consistent in every state.
-/

namespace RtThread

open Transition

structure RamfsFile where
  dirent : Option RamfsDirent
  fd : Option RamfsFd
  deriving DecidableEq

inductive RamfsCall
  | open (flags : RamfsFlags) (path : List Char) (memory : Bool)
  | read (count : Nat)
  /-- `realloc` is what `rt_memheap_realloc` gives for a buffer that has to grow. -/
  | write (buf : List UInt8) (realloc : Option (List UInt8))
  | lseek (offset : Nat)
  | close
  deriving DecidableEq

/-- A call that has returned, with its arguments, whether there was memory, and its result. -/
inductive RamfsEvent
  | opened (flags : RamfsFlags) (memory : Bool) (result : Except RamfsError Unit)
  | read (count : Nat) (bytes : List UInt8)
  | wrote (buf : List UInt8) (memory : Bool) (result : Nat)
  | sought (offset : Nat) (result : Except RamfsError Nat)
  | closed

/-- `rt_memheap_realloc` keeps the contents, as far as they have room. -/
def Reallocates (old : Option (List UInt8)) (newsize : Nat) (ptr : List UInt8) : Prop :=
  newsize ≤ ptr.length ∧ ptr.take (min (old.getD []).length newsize) = (old.getD []).take (min (old.getD []).length newsize)

def RamfsCall.Allocates (d : RamfsDirent) (fd : RamfsFd) : RamfsCall → Prop
  | write buf (some ptr) => Reallocates d.data (fd.pos + buf.length) ptr
  | _ => True

def stepRamfs (s : RamfsFile) (call : RamfsCall) : Option (RamfsFile × List RamfsEvent) :=
  match s.fd, s.dirent, call with
  | none, dirent, .open flags path memory =>
    match openFile flags path memory dirent with
    | .error e => some (s, [.opened flags memory (.error e)])
    | .ok (d, fd) => some (⟨some d, some fd⟩, [.opened flags memory (.ok ())])
  | some fd, some d, .read count => (dfsRamfsRead d fd count).map fun (bytes, fd) => (⟨some d, some fd⟩, [.read count bytes])
  | some fd, some d, .write buf realloc =>
    (dfsRamfsWrite d fd buf realloc).map fun (result, d, fd) => (⟨some d, some fd⟩, [.wrote buf realloc.isSome result])
  | some fd, dirent, .lseek offset =>
    match dfsRamfsLseek fd offset with
    | .error e => some (s, [.sought offset (.error e)])
    | .ok fd => some (⟨dirent, some fd⟩, [.sought offset (.ok fd.pos)])
  | some _, dirent, .close => some (⟨dirent, none⟩, [.closed])
  | _, _, _ => none

def HeapKeeps (s : RamfsFile) (call : RamfsCall) : Prop := ∀ d ∈ s.dirent, ∀ fd ∈ s.fd, call.Allocates d fd

/-! ## The byte string -/

structure ByteFile where
  content : Option (List UInt8)
  cursor : Option Nat
  deriving DecidableEq

inductive ByteCall
  | open (flags : RamfsFlags) (memory : Bool)
  | read (count : Nat)
  | write (buf : List UInt8) (memory : Bool)
  | lseek (offset : Nat)
  | close

def stepBytes (s : ByteFile) : ByteCall → Option (ByteFile × List RamfsEvent)
  | .open flags memory =>
    match s.cursor, s.content with
    | none, none =>
      if flags.creat = true ∨ flags.wronly = true then
        if memory = true then some (⟨some [], some 0⟩, [.opened flags memory (.ok ())])
        else some (s, [.opened flags memory (.error .enomem)])
      else some (s, [.opened flags memory (.error .enoent)])
    | none, some content =>
      let content := if flags.trunc = true then [] else content
      some (⟨some content, some (if flags.append = true then content.length else 0)⟩, [.opened flags memory (.ok ())])
    | some _, _ => none
  | .read count =>
    match s.cursor, s.content with
    | some cursor, some content =>
      let bytes := (content.drop cursor).take count
      some (⟨some content, some (cursor + bytes.length)⟩, [.read count bytes])
    | _, _ => none
  | .write buf memory =>
    match s.cursor, s.content with
    | some cursor, some content =>
      if cursor + buf.length ≤ content.length ∨ memory = true then
        some (⟨some (content.overwrite cursor buf), some (cursor + buf.length)⟩, [.wrote buf memory buf.length])
      else some (s, [.wrote buf memory 0])
    | _, _ => none
  | .lseek offset =>
    match s.cursor, s.content with
    | some _, some content =>
      if offset ≤ content.length then some (⟨some content, some offset⟩, [.sought offset (.ok offset)])
      else some (s, [.sought offset (.error .eio)])
    | _, _ => none
  | .close =>
    match s.cursor with
    | some _ => some (⟨s.content, none⟩, [.closed])
    | none => none

/-! ## Refinement -/

def RamfsDirent.bytes (d : RamfsDirent) : List UInt8 := (d.data.getD []).take d.size

def RamfsFile.abstract (s : RamfsFile) : ByteFile := ⟨s.dirent.map RamfsDirent.bytes, s.fd.map RamfsFd.pos⟩

structure RamfsConsistent (s : RamfsFile) : Prop where
  capacity : ∀ d, s.dirent = some d → d.size ≤ (d.data.getD []).length
  opened : ∀ fd, s.fd = some fd → ∃ d, s.dirent = some d ∧ fd.size = d.size ∧ fd.pos ≤ fd.size

variable {d d' : RamfsDirent} {fd fd' : RamfsFd} {s s' : RamfsFile} {call : RamfsCall} {events : List RamfsEvent}

theorem length_bytes (h : d.size ≤ (d.data.getD []).length) : d.bytes.length = d.size := by
  rw [RamfsDirent.bytes, List.length_take, Nat.min_eq_left h]

theorem RamfsConsistent.of_open (hcapacity : d.size ≤ (d.data.getD []).length) (hsize : fd.size = d.size) (hpos : fd.pos ≤ fd.size) :
    RamfsConsistent ⟨some d, some fd⟩ := by
  refine ⟨?_, ?_⟩
  · rintro e ⟨⟩
    exact hcapacity
  · rintro f ⟨⟩
    exact ⟨d, rfl, hsize, hpos⟩

theorem loadBytes_eq (hcapacity : d.size ≤ (d.data.getD []).length) {pos n : Nat} (hle : pos + n ≤ d.size) :
    loadBytes d.data pos n = some ((d.bytes.drop pos).take n) := by
  rw [loadBytes]
  by_cases hzero : n = 0
  · rw [if_pos hzero, hzero, List.take_zero]
  rw [if_neg hzero]
  cases hdata : d.data with
  | none =>
    rw [hdata, Option.getD_none, List.length_nil] at hcapacity
    omega
  | some data =>
    rw [hdata, Option.getD_some] at hcapacity
    rw [Option.bind_some, if_pos (Nat.le_trans hle hcapacity), RamfsDirent.bytes, hdata, Option.getD_some, List.drop_take, List.take_take,
      Nat.min_eq_left (by omega)]

theorem dfsRamfsRead_eq (hcapacity : d.size ≤ (d.data.getD []).length) (hsize : fd.size = d.size) (hpos : fd.pos ≤ fd.size) (count : Nat) :
    dfsRamfsRead d fd count =
      some ((d.bytes.drop fd.pos).take count, { fd with pos := fd.pos + ((d.bytes.drop fd.pos).take count).length }) := by
  have hrest : (d.bytes.drop fd.pos).length = fd.size - fd.pos := by rw [List.length_drop, length_bytes hcapacity, hsize]
  by_cases hcount : count < fd.size - fd.pos
  · rw [dfsRamfsRead, if_pos hcount, loadBytes_eq hcapacity (by omega), Option.map_some, List.length_take, hrest, Nat.min_eq_left (Nat.le_of_lt hcount)]
  · rw [dfsRamfsRead, if_neg hcount, loadBytes_eq hcapacity (by omega), Option.map_some, ← hrest, List.take_length,
      List.take_of_length_le (hrest ▸ Nat.le_of_not_lt hcount)]

theorem dfsRamfsWrite_eq (hcapacity : d.size ≤ (d.data.getD []).length) (hsize : fd.size = d.size) (hpos : fd.pos ≤ fd.size)
    (buf : List UInt8) {realloc : Option (List UInt8)} (hmemory : fd.pos + buf.length ≤ fd.size ∨ realloc.isSome = true)
    (hkeeps : (RamfsCall.write buf realloc).Allocates d fd) :
    ∃ d' fd', dfsRamfsWrite d fd buf realloc = some (buf.length, d', fd') ∧ d'.bytes = d.bytes.overwrite fd.pos buf ∧
      fd'.pos = fd.pos + buf.length ∧ d'.size ≤ (d'.data.getD []).length ∧ fd'.size = d'.size ∧ fd'.pos ≤ fd'.size := by
  rw [dfsRamfsWrite.eq_def]
  by_cases hgrow : buf.length + fd.pos > fd.size
  · obtain ⟨ptr, rfl⟩ := Option.isSome_iff_exists.1 (hmemory.resolve_left (by omega))
    obtain ⟨hroom, hsame⟩ : Reallocates d.data (fd.pos + buf.length) ptr := hkeeps
    have hne : buf ≠ [] := by
      rintro rfl
      rw [List.length_nil] at hgrow
      omega
    have hptr : fd.pos ≤ ptr.length := Nat.le_trans (Nat.le_add_right _ _) hroom
    rw [if_pos hgrow]
    dsimp only
    rw [storeBytes, if_neg hne, Option.bind_some, if_pos hroom, Option.map_some]
    refine ⟨_, _, rfl, ?_, rfl, ?_, rfl, Nat.le_refl _⟩
    · rw [RamfsDirent.bytes, Option.getD_some, List.take_overwrite hptr (Nat.le_refl _), RamfsDirent.bytes]
      refine List.overwrite_congr ?_ ?_
      · rw [List.take_take, List.take_take, Nat.min_eq_left (Nat.le_add_right _ _), Nat.min_eq_left (by omega)]
        have hprefix := congrArg (List.take fd.pos) hsame
        rwa [List.take_take, List.take_take, Nat.min_eq_left (by omega)] at hprefix
      · rw [List.drop_eq_nil_of_le (List.length_take_le _ _), List.drop_eq_nil_of_le]
        exact Nat.le_trans (List.length_take_le _ _) (by omega)
    · rw [Option.getD_some, List.length_overwrite hptr]
      exact Nat.le_max_right _ _
  · rw [if_neg hgrow, storeBytes]
    by_cases hempty : buf = []
    · subst hempty
      rw [if_pos rfl, Option.map_some]
      exact ⟨_, _, rfl, (List.overwrite_nil _ _).symm, rfl, hcapacity, hsize, hpos⟩
    · rw [if_neg hempty]
      cases hdata : d.data with
      | none =>
        rw [hdata, Option.getD_none, List.length_nil] at hcapacity
        have := List.length_pos_iff.2 hempty
        omega
      | some data =>
        have hcapacity' := hcapacity
        rw [hdata, Option.getD_some] at hcapacity'
        rw [Option.bind_some, if_pos (by omega), Option.map_some]
        have hend : fd.pos + buf.length ≤ d.size := by omega
        refine ⟨_, _, rfl, ?_, rfl, ?_, hsize, ?_⟩
        · rw [RamfsDirent.bytes, Option.getD_some, List.take_overwrite (by omega) hend, RamfsDirent.bytes, hdata, Option.getD_some]
        · rw [Option.getD_some, List.length_overwrite (by omega)]
          exact Nat.le_trans hcapacity' (Nat.le_max_left _ _)
        · dsimp only
          omega

theorem dfsRamfsWrite_exhausted (buf : List UInt8) (hgrow : fd.size < fd.pos + buf.length) :
    dfsRamfsWrite d fd buf none = some (0, d, fd) := by
  rw [dfsRamfsWrite.eq_def, if_pos (by omega)]

section

variable (dirent : Option RamfsDirent) (d : RamfsDirent) (fd : RamfsFd)

theorem stepRamfs_open (flags : RamfsFlags) (path : List Char) (memory : Bool) :
    stepRamfs ⟨dirent, none⟩ (.open flags path memory) =
      match openFile flags path memory dirent with
      | .error e => some (⟨dirent, none⟩, [.opened flags memory (.error e)])
      | .ok (d, fd) => some (⟨some d, some fd⟩, [.opened flags memory (.ok ())]) := by
  cases dirent <;> rfl

theorem stepRamfs_read (count : Nat) :
    stepRamfs ⟨some d, some fd⟩ (.read count) =
      (dfsRamfsRead d fd count).map fun (bytes, fd) => (⟨some d, some fd⟩, [.read count bytes]) := rfl

theorem stepRamfs_write (buf : List UInt8) (realloc : Option (List UInt8)) :
    stepRamfs ⟨some d, some fd⟩ (.write buf realloc) =
      (dfsRamfsWrite d fd buf realloc).map fun (result, d, fd) => (⟨some d, some fd⟩, [.wrote buf realloc.isSome result]) := rfl

theorem stepRamfs_lseek (offset : Nat) :
    stepRamfs ⟨some d, some fd⟩ (.lseek offset) =
      match dfsRamfsLseek fd offset with
      | .error e => some (⟨some d, some fd⟩, [.sought offset (.error e)])
      | .ok fd => some (⟨some d, some fd⟩, [.sought offset (.ok fd.pos)]) := rfl

theorem stepRamfs_close : stepRamfs ⟨dirent, some fd⟩ .close = some (⟨dirent, none⟩, [.closed]) := by
  cases dirent <;> rfl

end

theorem openDirent_consistent (hcapacity : d.size ≤ (d.data.getD []).length) (flags : RamfsFlags) :
    RamfsConsistent ⟨some (openDirent flags d).1, some (openDirent flags d).2⟩ ∧
      (openDirent flags d).1.bytes = (if flags.trunc = true then [] else d.bytes) ∧
      (openDirent flags d).2.pos = if flags.append = true then (if flags.trunc = true then [] else d.bytes).length else 0 := by
  rw [openDirent]
  dsimp only
  by_cases htrunc : flags.trunc = true
  · rw [if_pos htrunc, if_pos htrunc]
    refine ⟨.of_open (Nat.zero_le _) rfl ?_, rfl, rfl⟩
    dsimp only
    split_ifs <;> exact Nat.le_refl _
  · rw [if_neg htrunc, if_neg htrunc]
    refine ⟨.of_open hcapacity rfl ?_, rfl, by rw [length_bytes hcapacity]⟩
    dsimp only
    split_ifs
    · exact Nat.le_refl _
    · exact Nat.zero_le _

theorem RamfsConsistent.openStep {dirent : Option RamfsDirent} {flags : RamfsFlags} {path : List Char} {memory : Bool}
    (h : RamfsConsistent ⟨dirent, none⟩) (hs : stepRamfs ⟨dirent, none⟩ (.open flags path memory) = some (s', events)) :
    RamfsConsistent s' ∧ stepBytes (RamfsFile.abstract ⟨dirent, none⟩) (.open flags memory) = some (s'.abstract, events) := by
  rw [stepRamfs_open] at hs
  cases dirent with
  | none =>
    rw [openFile] at hs
    change _ ∧ (if flags.creat = true ∨ flags.wronly = true then _ else _) = _
    by_cases hcreat : flags.creat = true ∨ flags.wronly = true
    · rw [if_pos hcreat] at hs ⊢
      cases memory with
      | true =>
        have hfacts := @openDirent_consistent (newDirent path) (Nat.zero_le _) flags
        rw [if_pos rfl] at hs ⊢
        cases hopen : openDirent flags (newDirent path) with
        | mk d fd =>
          rw [hopen] at hs hfacts
          obtain ⟨rfl, rfl⟩ := Prod.mk.inj (Option.some.inj hs)
          obtain ⟨hconsistent, hbytes, hpos⟩ := hfacts
          have hnew : (newDirent path).bytes = [] := rfl
          rw [hnew, ite_self] at hbytes hpos
          rw [List.length_nil, ite_self] at hpos
          refine ⟨hconsistent, ?_⟩
          rw [RamfsFile.abstract, Option.map_some, Option.map_some, hbytes, hpos]
      | false =>
        obtain ⟨rfl, rfl⟩ := Prod.mk.inj (Option.some.inj hs)
        exact ⟨h, if_neg Bool.noConfusion⟩
    · rw [if_neg hcreat] at hs ⊢
      obtain ⟨rfl, rfl⟩ := Prod.mk.inj (Option.some.inj hs)
      exact ⟨h, rfl⟩
  | some d =>
    rw [openFile] at hs
    have hfacts := openDirent_consistent (h.capacity d rfl) flags
    cases hopen : openDirent flags d with
    | mk d' fd =>
      rw [hopen] at hs hfacts
      obtain ⟨rfl, rfl⟩ := Prod.mk.inj (Option.some.inj hs)
      obtain ⟨hconsistent, hbytes, hpos⟩ := hfacts
      refine ⟨hconsistent, ?_⟩
      dsimp only at hbytes hpos
      rw [RamfsFile.abstract, RamfsFile.abstract, Option.map_some, Option.map_some, Option.map_some, hbytes, hpos]
      rfl

theorem RamfsConsistent.writeStep {buf : List UInt8} {realloc : Option (List UInt8)} (h : RamfsConsistent ⟨some d, some fd⟩)
    (hsize : fd.size = d.size) (hpos : fd.pos ≤ fd.size) (hkeeps : (RamfsCall.write buf realloc).Allocates d fd)
    (hs : stepRamfs ⟨some d, some fd⟩ (.write buf realloc) = some (s', events)) :
    RamfsConsistent s' ∧ stepBytes (RamfsFile.abstract ⟨some d, some fd⟩) (.write buf realloc.isSome) = some (s'.abstract, events) := by
  have hcapacity := h.capacity d rfl
  have hlength := length_bytes hcapacity
  change _ ∧ (if fd.pos + buf.length ≤ d.bytes.length ∨ realloc.isSome = true then _ else _) = _
  by_cases hmemory : fd.pos + buf.length ≤ fd.size ∨ realloc.isSome = true
  · obtain ⟨d', fd', hwrite, hbytes, hpos', hcapacity', hsize', hend⟩ := dfsRamfsWrite_eq hcapacity hsize hpos buf hmemory hkeeps
    rw [stepRamfs_write, hwrite, Option.map_some] at hs
    obtain ⟨rfl, rfl⟩ := Prod.mk.inj (Option.some.inj hs)
    refine ⟨.of_open hcapacity' hsize' hend, ?_⟩
    rw [if_pos (hlength ▸ hsize ▸ hmemory), RamfsFile.abstract, Option.map_some, Option.map_some, hbytes, hpos']
  · obtain ⟨hgrow, hnone⟩ := not_or.1 hmemory
    obtain rfl := Option.not_isSome_iff_eq_none.1 hnone
    rw [stepRamfs_write, dfsRamfsWrite_exhausted buf (Nat.lt_of_not_le hgrow), Option.map_some] at hs
    obtain ⟨rfl, rfl⟩ := Prod.mk.inj (Option.some.inj hs)
    exact ⟨h, if_neg (by rwa [hlength, ← hsize])⟩

theorem RamfsConsistent.lseekStep {offset : Nat} (h : RamfsConsistent ⟨some d, some fd⟩) (hsize : fd.size = d.size)
    (hs : stepRamfs ⟨some d, some fd⟩ (.lseek offset) = some (s', events)) :
    RamfsConsistent s' ∧ stepBytes (RamfsFile.abstract ⟨some d, some fd⟩) (.lseek offset) = some (s'.abstract, events) := by
  have hcapacity := h.capacity d rfl
  have hlength := length_bytes hcapacity
  change _ ∧ (if offset ≤ d.bytes.length then _ else _) = _
  rw [stepRamfs_lseek, dfsRamfsLseek] at hs
  by_cases hoffset : offset ≤ fd.size
  · rw [if_pos hoffset] at hs
    obtain ⟨rfl, rfl⟩ := Prod.mk.inj (Option.some.inj hs)
    exact ⟨.of_open hcapacity hsize hoffset, if_pos (by omega)⟩
  · rw [if_neg hoffset] at hs
    obtain ⟨rfl, rfl⟩ := Prod.mk.inj (Option.some.inj hs)
    exact ⟨h, if_neg (by omega)⟩

theorem RamfsConsistent.step (h : RamfsConsistent s) (hheap : HeapKeeps s call) (hs : stepRamfs s call = some (s', events)) :
    RamfsConsistent s' ∧ ∃ b, stepBytes s.abstract b = some (s'.abstract, events) := by
  obtain ⟨dirent, fd⟩ := s
  cases fd with
  | none =>
    cases call with
    | «open» flags path memory =>
      obtain ⟨hconsistent, hbytes⟩ := h.openStep hs
      exact ⟨hconsistent, _, hbytes⟩
    | _ => cases dirent <;> cases hs
  | some fd =>
    obtain ⟨d, rfl, hsize, hpos⟩ : ∃ d, dirent = some d ∧ fd.size = d.size ∧ fd.pos ≤ fd.size := h.opened fd rfl
    cases call with
    | «open» flags path memory => cases hs
    | read count =>
      have hcapacity := h.capacity d rfl
      rw [stepRamfs_read, dfsRamfsRead_eq hcapacity hsize hpos, Option.map_some] at hs
      obtain ⟨rfl, rfl⟩ := Prod.mk.inj (Option.some.inj hs)
      refine ⟨.of_open hcapacity hsize ?_, .read count, rfl⟩
      have hlength := length_bytes hcapacity
      simp only [List.length_take, List.length_drop]
      omega
    | write buf realloc =>
      obtain ⟨hconsistent, hbytes⟩ := h.writeStep hsize hpos (hheap d rfl fd rfl) hs
      exact ⟨hconsistent, _, hbytes⟩
    | lseek offset =>
      obtain ⟨hconsistent, hbytes⟩ := h.lseekStep hsize hs
      exact ⟨hconsistent, _, hbytes⟩
    | close =>
      rw [stepRamfs_close] at hs
      obtain ⟨rfl, rfl⟩ := Prod.mk.inj (Option.some.inj hs)
      exact ⟨⟨h.capacity, fun _ hno => nomatch hno⟩, .close, rfl⟩

end RtThread
