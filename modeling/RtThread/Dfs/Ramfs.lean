import RtThread.Lib.Overwrite

/-!
# The file system in memory

`dfs_ramfs.c`: the entries, which are linked behind the root, and what the operations do to an entry and to the descriptor that is open on it. An entry is known by its address. What stands in memory behind the name of an entry is given to a lookup, which reads on there if the name has no end.

End offsets are below the range of `off_t`, so that numbers do not wrap. The entry that `open` gives to a descriptor is a file.
-/

namespace RtThread

def ramfsNameMax : Nat := 32

/-- `struct ramfs_dirent`: the cells of the name, the buffer and the size. -/
structure RamfsDirent where
  name : List Char
  data : Option (List UInt8)
  size : Nat
  deriving DecidableEq

/-- `struct dfs_fd`, as far as an open file of ramfs uses it. -/
structure RamfsFd where
  size : Nat
  pos : Nat
  deriving DecidableEq

/-- `struct dfs_ramfs`: the addresses of the entries behind the root, in the order of the list, and the entries; whether the root is still
linked to them. -/
structure Ramfs where
  files : List Nat
  dirent : Nat → RamfsDirent
  root : Bool

/-- The flags of an `open` of a file. -/
structure RamfsFlags where
  creat : Bool
  wronly : Bool
  trunc : Bool
  append : Bool
  deriving DecidableEq

inductive RamfsError
  | enoent | enomem | eexist | eio
  deriving DecidableEq

def ramfsNul : Char := Char.ofNat 0

/-- The path behind its separators, as `dfs_ramfs_lookup` and `dfs_ramfs_open` have it. -/
def skipSeparators (path : List Char) : List Char := path.dropWhile (· = '/')

/-- `strncpy` into the name of an entry. -/
def strncpyName (src : List Char) : List Char := src.take ramfsNameMax ++ List.replicate (ramfsNameMax - src.length) ramfsNul

/-- The string that begins at the name of an entry; `behind` stands behind it. -/
def RamfsDirent.nameString (d : RamfsDirent) (behind : List Char) : List Char := (d.name ++ behind).takeWhile (· ≠ ramfsNul)

inductive RamfsNode
  | root
  | file (d : Nat)
  deriving DecidableEq

def dfsRamfsLookup (fs : Ramfs) (behind : Nat → List Char) (path : List Char) : Option RamfsNode :=
  let subpath := skipSeparators path
  if subpath = [] then some .root
  else (fs.files.find? fun d => (fs.dirent d).nameString (behind d) = subpath).map .file

/-! ## The contents of a file -/

/-- An access to `count` bytes of a buffer. -/
def loadBytes (data : Option (List UInt8)) (pos count : Nat) : Option (List UInt8) :=
  if count = 0 then some [] else data.bind fun data => if pos + count ≤ data.length then some ((data.drop pos).take count) else none

/-- `memcpy` into a buffer. -/
def storeBytes (data : Option (List UInt8)) (pos : Nat) (buf : List UInt8) : Option (Option (List UInt8)) :=
  if buf = [] then some data
  else data.bind fun data => if pos + buf.length ≤ data.length then some (some (data.overwrite pos buf)) else none

/-- `dfs_ramfs_read`: what is stored in the caller's buffer; its length is the result. -/
def dfsRamfsRead (d : RamfsDirent) (file : RamfsFd) (count : Nat) : Option (List UInt8 × RamfsFd) :=
  let length := if count < file.size - file.pos then count else file.size - file.pos
  (loadBytes d.data file.pos length).map fun buf => (buf, { file with pos := file.pos + length })

/-- `dfs_ramfs_write`, with what `rt_memheap_realloc` gives if it is called. -/
def dfsRamfsWrite (d : RamfsDirent) (fd : RamfsFd) (buf : List UInt8) (realloc : Option (List UInt8)) :
    Option (Nat × RamfsDirent × RamfsFd) :=
  if buf.length + fd.pos > fd.size then
    match realloc with
    | none => some (0, d, fd)
    | some ptr =>
      (storeBytes (some ptr) fd.pos buf).map fun data =>
        (buf.length, { d with data := data, size := fd.pos + buf.length }, { size := fd.pos + buf.length, pos := fd.pos + buf.length })
  else
    (storeBytes d.data fd.pos buf).map fun data => (buf.length, { d with data := data }, { fd with pos := fd.pos + buf.length })

/-- `dfs_ramfs_lseek`, for an offset that is not negative. -/
def dfsRamfsLseek (file : RamfsFd) (offset : Nat) : Except RamfsError RamfsFd :=
  if offset ≤ file.size then .ok { file with pos := offset } else .error .eio

/-- A new entry of `dfs_ramfs_open`. -/
def newDirent (path : List Char) : RamfsDirent := ⟨strncpyName (skipSeparators path), none, 0⟩

/-- The end of `dfs_ramfs_open` for a file. -/
def openDirent (flags : RamfsFlags) (d : RamfsDirent) : RamfsDirent × RamfsFd :=
  let d := if flags.trunc = true then { d with size := 0, data := none } else d
  (d, ⟨d.size, if flags.append = true then d.size else 0⟩)

/-- `dfs_ramfs_open` for a file, with what the lookup has found, and whether there is memory for an entry. -/
def openFile (flags : RamfsFlags) (path : List Char) (memory : Bool) : Option RamfsDirent → Except RamfsError (RamfsDirent × RamfsFd)
  | some d => .ok (openDirent flags d)
  | none =>
    if flags.creat = true ∨ flags.wronly = true then
      if memory = true then .ok (openDirent flags (newDirent path)) else .error .enomem
    else .error .enoent

/-! ## The names of the files -/

/-- `dfs_ramfs_open` without `O_DIRECTORY`; `memory` is the address of the memory for an entry. -/
def dfsRamfsOpen (fs : Ramfs) (behind : Nat → List Char) (flags : RamfsFlags) (path : List Char) (memory : Option Nat) :
    Except RamfsError (Nat × RamfsFd × Ramfs) :=
  match dfsRamfsLookup fs behind path with
  | some .root => .error .enoent
  | some (.file d) =>
    (openFile flags path memory.isSome (some (fs.dirent d))).map fun (entry, fd) => (d, fd, { fs with dirent := Function.update fs.dirent d entry })
  | none =>
    (openFile flags path memory.isSome none).map fun (entry, fd) =>
      let d := memory.getD 0
      (d, fd, { fs with files := d :: fs.files, dirent := Function.update fs.dirent d entry })

/-- `dfs_ramfs_unlink`; with the root all files are lost. -/
def dfsRamfsUnlink (fs : Ramfs) (behind : Nat → List Char) (path : List Char) : Except RamfsError Ramfs :=
  match dfsRamfsLookup fs behind path with
  | none => .error .enoent
  | some .root => .ok { fs with files := [], root := false }
  | some (.file d) => .ok { fs with files := fs.files.erase d }

def dfsRamfsRename (fs : Ramfs) (behind : Nat → List Char) (oldpath newpath : List Char) : Except RamfsError Ramfs :=
  match dfsRamfsLookup fs behind newpath with
  | some _ => .error .eexist
  | none =>
    match dfsRamfsLookup fs behind oldpath with
    | none => .error .enoent
    | some .root => .ok fs -- the name of the root, which no lookup reads
    | some (.file d) => .ok { fs with dirent := Function.update fs.dirent d { fs.dirent d with name := strncpyName newpath } }

end RtThread
