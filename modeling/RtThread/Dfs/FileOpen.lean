import RtThread.Dfs.Mount
import RtThread.Lib.Transition

/-!
# Files that are open already

`fd_is_open`, `dfs_file_open` and `dfs_file_close`. An open descriptor has the table of file operations and the name that its file system goes by; whether a file is open already is asked of these. With each descriptor goes the normalised path that it has been opened with.
-/

namespace RtThread

open Transition

/-- `struct dfs_fd`, as far as `fd_is_open` reads it. -/
structure DfsOpenFd where
  fops : Option Nat
  path : Option (List Char)
  deriving DecidableEq

/-- What the `open` of a file system returns; that of devfs also puts the operations of the device into the descriptor. -/
structure DriverOpen where
  result : Int
  fops : Option Nat
  deriving DecidableEq

/-- The errors of `dfs_file_open`; `driver` is what the file system returns. -/
inductive FileOpenError
  | enomem | ebusy | enoent | enosys
  | driver (result : Int)
  deriving DecidableEq

/-- Whether there is memory for `dfs_normalize_path` in `dfs_file_open`, for the one in `fd_is_open`, and for the name. -/
structure OpenMemory where
  full : Bool
  again : Bool
  name : Bool
  deriving DecidableEq

def CString.ofChars (s : List Char) : CString :=
  ⟨s.filter fun c => 0 < c.toNat ∧ c.toNat < 256, fun _ hc => of_decide_eq_true (List.mem_filter.1 hc).2⟩

/-- `mountpath` in `fd_is_open` -/
def mountPathOf (fsPath fullpath : List Char) : List Char := if fsPath = ['/'] then fullpath else fullpath.drop fsPath.length

/-- `fd_is_open`; true stands for 0. -/
def fdIsOpen (workingDirectory : Option CString) (memory : Bool) (table : List DfsFilesystem) (fds : List (Option DfsOpenFd))
    (pathname : CString) : Bool :=
  match (dfsNormalizePath workingDirectory memory none pathname).path with
  | none => false
  | some fullpath =>
    match dfsFilesystemLookup table fullpath with
    | some ⟨some fsPath, some ops⟩ => fds.any fun fd => fd = some ⟨some ops.fops, some (mountPathOf fsPath fullpath)⟩
    | _ => false

/-- The name that `dfs_file_open` hands to the file system. -/
def fdPathOf (fsPath : List Char) (ops : DfsFilesystemOps) (fullpath : List Char) : List Char :=
  if ops.fullpath = true then fullpath else (dfsSubdir fsPath fullpath).getD ['/']

/-- `dfs_file_open`, with what the file system's `open` does, if it has one: the descriptor, and the path that it stands for. -/
def dfsFileOpen (workingDirectory : Option CString) (memory : OpenMemory) (driver : Option DriverOpen) (table : List DfsFilesystem)
    (fds : List (Option DfsOpenFd)) (path : CString) : Except FileOpenError (DfsOpenFd × List Char) :=
  match (dfsNormalizePath workingDirectory memory.full none path).path with
  | none => .error .enomem
  | some fullpath =>
    if fdIsOpen workingDirectory memory.again table fds (.ofChars fullpath) = true then .error .ebusy
    else
      match dfsFilesystemLookup table fullpath with
      | some ⟨some fsPath, some ops⟩ =>
        -- with `DFS_FS_FLAG_FULLPATH` the full path itself is kept, otherwise a copy of its end
        let name := if ops.fullpath = true ∨ memory.name = true then some (fdPathOf fsPath ops fullpath) else none
        match driver with
        | none => .error .enosys
        | some opened =>
          if opened.result < 0 then .error (.driver opened.result)
          else .ok (⟨some (opened.fops.getD ops.fops), name⟩, fullpath)
      | _ => .error .enoent

/-- `dfs_file_close`, with the result of the file system's `close`, if it has one: whether the descriptor is closed. -/
def dfsFileClose (driver : Option Int) : Bool := 0 ≤ driver.getD 0

/-! ## Runs -/

/-- The descriptors in the table, each with the path it has been opened with. -/
abbrev OpenFiles : Type := List (Option (DfsOpenFd × List Char))

def OpenFiles.fds (s : OpenFiles) : List (Option DfsOpenFd) := s.map (Option.map Prod.fst)

inductive FileAction
  /-- `open` with a descriptor whose entry is empty, or is the next one of the table. -/
  | open (idx : Nat) (path : CString) (memory : OpenMemory) (driver : Option DriverOpen)
  | close (idx : Nat) (driver : Option Int)

/-- A call of `open` or `close`; a descriptor whose open fails is put back, and so is one that is closed. -/
def stepFiles (workingDirectory : Option CString) (table : List DfsFilesystem) (s : OpenFiles) :
    FileAction → Option (OpenFiles × List Empty)
  | .open idx path memory driver =>
    let s := if idx = s.length then s ++ [none] else s
    if s[idx]? = some none then
      match dfsFileOpen workingDirectory memory driver table s.fds path with
      | .error _ => some (s, [])
      | .ok fd => some (s.set idx (some fd), [])
    else none
  | .close idx driver => some (if dfsFileClose driver = true then s.set idx none else s, [])

abbrev FileRun (workingDirectory : Option CString) (table : List DfsFilesystem) : List Empty → OpenFiles → Prop :=
  Run (stepFiles workingDirectory table) (fun _ _ => True) []

def OpenFiles.OpenOn (s : OpenFiles) (path : List Char) : Prop := ∃ fd, some (fd, path) ∈ s

instance (s : OpenFiles) (path : List Char) : Decidable (s.OpenOn path) :=
  decidable_of_iff (∃ f ∈ s, ∃ fd ∈ f, fd.2 = path) (by
    constructor
    · rintro ⟨f, hf, ⟨fd, _⟩, hfd, rfl⟩
      exact ⟨fd, Option.mem_def.1 hfd ▸ hf⟩
    · rintro ⟨fd, hf⟩
      exact ⟨_, hf, (fd, path), rfl, rfl⟩)

/-! ## What the table holds -/

theorem lookup_cases (table : List DfsFilesystem) (path : List Char) :
    dfsFilesystemLookup table path = none ∨ ∃ fsPath ops, dfsFilesystemLookup table path = some ⟨some fsPath, some ops⟩ := by
  obtain ⟨prefixlen, hlongest⟩ := dfsFilesystemLookup_longest table path
  cases hlookup : dfsFilesystemLookup table path with
  | none => exact Or.inl rfl
  | some fs =>
    obtain ⟨-, fsPath, ⟨hpath, hops⟩, -⟩ := hlongest.found fs hlookup
    obtain ⟨ops, hops⟩ := Option.isSome_iff_exists.1 hops
    obtain ⟨path', ops'⟩ := fs
    cases hpath
    cases hops
    exact Or.inr ⟨fsPath, ops, rfl⟩

/-- The descriptor is what `dfs_file_open` makes for the path; there may have been no memory for the name. -/
structure OpenedAs (table : List DfsFilesystem) (fd : DfsOpenFd) (path : List Char) (fsPath : List Char) (ops : DfsFilesystemOps) : Prop where
  lookup : dfsFilesystemLookup table path = some ⟨some fsPath, some ops⟩
  path : fd.path = none ∨ fd.path = some (fdPathOf fsPath ops path)

theorem dfsFileOpen_ok {workingDirectory : Option CString} {memory : OpenMemory} {driver : Option DriverOpen} {table : List DfsFilesystem}
    {fds : List (Option DfsOpenFd)} {path : CString} {r : DfsOpenFd × List Char}
    (h : dfsFileOpen workingDirectory memory driver table fds path = .ok r) : ∃ fsPath ops, OpenedAs table r.1 r.2 fsPath ops := by
  rw [dfsFileOpen] at h
  cases hnormalize : (dfsNormalizePath workingDirectory memory.full none path).path with
  | none =>
    rw [hnormalize] at h
    cases h
  | some fullpath =>
    rw [hnormalize] at h
    dsimp only at h
    by_cases hbusy : fdIsOpen workingDirectory memory.again table fds (.ofChars fullpath) = true
    · rw [if_pos hbusy] at h
      cases h
    rw [if_neg hbusy] at h
    rcases lookup_cases table fullpath with hlookup | ⟨fsPath, ops, hlookup⟩
    · rw [hlookup] at h
      cases h
    · rw [hlookup] at h
      dsimp only at h
      cases driver with
      | none => cases h
      | some opened =>
        dsimp only at h
        by_cases hresult : opened.result < 0
        · rw [if_pos hresult] at h
          cases h
        · rw [if_neg hresult] at h
          cases h
          refine ⟨fsPath, ops, hlookup, ?_⟩
          by_cases hname : ops.fullpath = true ∨ memory.name = true
          · exact Or.inr (if_pos hname)
          · exact Or.inl (if_neg hname)

theorem openedAs_of_run {workingDirectory : Option CString} {table : List DfsFilesystem} {trace : List Empty} {s : OpenFiles}
    (hrun : FileRun workingDirectory table trace s) : ∀ fd path, some (fd, path) ∈ s → ∃ fsPath ops, OpenedAs table fd path fsPath ops := by
  refine hrun.state_invariant (I := fun s => ∀ fd path, some (fd, path) ∈ s → ∃ fsPath ops, OpenedAs table fd path fsPath ops) ?_ ?_
  · exact fun _ _ hno => nomatch hno
  · intro s a s' events ih _ hs fd path hmem
    cases a with
    | «open» idx name memory driver =>
      rw [stepFiles] at hs
      have hgrown : ∀ fd path, some (fd, path) ∈ (if idx = s.length then s ++ [none] else s) → some (fd, path) ∈ s := by
        intro fd path hmem
        by_cases hidx : idx = s.length
        · rw [if_pos hidx] at hmem
          simpa using hmem
        · rwa [if_neg hidx] at hmem
      generalize (if idx = s.length then s ++ [none] else s) = s₁ at hs hgrown
      by_cases hslot : s₁[idx]? = some none
      · rw [if_pos hslot] at hs
        cases hopen : dfsFileOpen workingDirectory memory driver table (OpenFiles.fds s₁) name with
        | error e =>
          rw [hopen] at hs
          obtain ⟨rfl, -⟩ := Prod.mk.inj (Option.some.inj hs)
          exact ih fd path (hgrown fd path hmem)
        | ok r =>
          rw [hopen] at hs
          obtain ⟨rfl, -⟩ := Prod.mk.inj (Option.some.inj hs)
          rcases List.mem_or_eq_of_mem_set hmem with hmem | heq
          · exact ih fd path (hgrown fd path hmem)
          · cases heq
            exact dfsFileOpen_ok hopen
      · rw [if_neg hslot] at hs
        cases hs
    | close idx driver =>
      obtain ⟨rfl, -⟩ := Prod.mk.inj (Option.some.inj hs)
      by_cases hclose : dfsFileClose driver = true
      · rw [if_pos hclose] at hmem
        rcases List.mem_or_eq_of_mem_set hmem with hmem | heq
        · exact ih fd path hmem
        · cases heq
      · rw [if_neg hclose] at hmem
        exact ih fd path hmem

/-! ## When a file looks open -/

/-- The descriptor on `other` has the operations of the file system of `path`, and its name is the one that `path` is looked for under. -/
def SameName (table : List DfsFilesystem) (path : List Char) (fd : DfsOpenFd) (other : List Char) : Prop :=
  ∃ fsPath ops fsPath' ops', dfsFilesystemLookup table path = some ⟨some fsPath, some ops⟩ ∧
    dfsFilesystemLookup table other = some ⟨some fsPath', some ops'⟩ ∧ fd.fops = some ops.fops ∧
    fdPathOf fsPath' ops' other = mountPathOf fsPath path

theorem fdIsOpen_eq {workingDirectory : Option CString} {memory : Bool} {table : List DfsFilesystem} {s : OpenFiles} {pathname : CString}
    {path : List Char} (hnormalize : (dfsNormalizePath workingDirectory memory none pathname).path = some path)
    (h : ∀ fd path, some (fd, path) ∈ s → ∃ fsPath ops, OpenedAs table fd path fsPath ops) :
    fdIsOpen workingDirectory memory table s.fds pathname = true ↔
      ∃ fd other, some (fd, other) ∈ s ∧ fd.path ≠ none ∧ SameName table path fd other := by
  rw [fdIsOpen, hnormalize]
  dsimp only
  rcases lookup_cases table path with hlookup | ⟨fsPath, ops, hlookup⟩
  · rw [hlookup]
    refine iff_of_false (fun hno => nomatch hno) ?_
    rintro ⟨-, -, -, -, fsPath, ops, -, -, hsome, -⟩
    rw [hlookup] at hsome
    cases hsome
  · rw [hlookup]
    dsimp only
    rw [List.any_eq_true]
    constructor
    · rintro ⟨f, hf, heq⟩
      rw [of_decide_eq_true heq] at hf
      obtain ⟨o, ho, hmap⟩ := List.mem_map.1 hf
      obtain ⟨⟨fd, other⟩, rfl, hfd⟩ := Option.map_eq_some_iff.1 hmap
      change fd = _ at hfd
      obtain ⟨fsPath', ops', hopened⟩ := h fd other ho
      refine ⟨fd, other, ho, ?_, fsPath, ops, fsPath', ops', hlookup, hopened.lookup, ?_, ?_⟩
      · rw [hfd]
        exact fun hno => nomatch hno
      · rw [hfd]
      · have hpath := hopened.path
        rw [hfd] at hpath
        exact (Option.some.inj (hpath.resolve_left fun hno => nomatch hno)).symm
    · rintro ⟨fd, other, ho, hpath, fsPath₁, ops₁, fsPath', ops', hlookup₁, hother, hfops, hname⟩
      rw [hlookup] at hlookup₁
      cases hlookup₁
      obtain ⟨fsPath₂, ops₂, hopened⟩ := h fd other ho
      have hsame := hopened.lookup
      rw [hother] at hsame
      cases hsame
      refine ⟨some fd, List.mem_map.2 ⟨_, ho, rfl⟩, decide_eq_true (congrArg some ?_)⟩
      obtain ⟨fops, path'⟩ := fd
      have hpath' := hopened.path.resolve_left hpath
      dsimp only at hfops hpath'
      rw [hfops, hpath', hname]

/-! ## Normalised paths -/

structure NormalisedTo (workingDirectory : Option CString) (path : CString) (cs : List (List Char)) : Prop where
  absolute : ∃ full, fullPath workingDirectory none path = some full ∧ full.head? = some '/' ∧ resolve [] full = (cs, 0)

namespace NormalisedTo

variable {workingDirectory : Option CString} {path : CString} {cs : List (List Char)}

theorem normalizesTo (h : NormalisedTo workingDirectory path cs) (memory : Bool) :
    NormalizesTo memory (cs, 0) (dfsNormalizePath workingDirectory memory none path) := by
  obtain ⟨full, hfull, hhead, hresolve⟩ := h.absolute
  have hnul : nul ∉ full := by
    rw [fullPath] at hfull
    by_cases habsolute : path.val.head? = some '/'
    · rw [if_pos habsolute] at hfull
      exact Option.some.inj hfull ▸ path.nul_not_mem
    · rw [if_neg habsolute] at hfull
      obtain ⟨dir, -, rfl⟩ := Option.map_eq_some_iff.1 hfull
      intro hmem
      rcases List.mem_append.1 hmem with hmem | hmem
      · exact dir.nul_not_mem hmem
      · rcases List.mem_cons.1 hmem with hno | hmem
        · exact absurd hno (by decide)
        · exact path.nul_not_mem hmem
  rw [← hresolve]
  exact NormalizesTo.of_loop rfl hnul hhead workingDirectory none memory path hfull

theorem proper (h : NormalisedTo workingDirectory path cs) : ∀ c ∈ cs, ProperComponent c := (h.normalizesTo true).proper

theorem chars (h : NormalisedTo workingDirectory path cs) : ∀ c ∈ absolutePath cs, 0 < c.toNat ∧ c.toNat < 256 := by
  obtain ⟨full, hfull, -, hresolve⟩ := h.absolute
  have hslash : 0 < '/'.toNat ∧ '/'.toNat < 256 := by decide
  have hchars : ∀ c ∈ full, 0 < c.toNat ∧ c.toNat < 256 := by
    rw [fullPath] at hfull
    by_cases habsolute : path.val.head? = some '/'
    · rw [if_pos habsolute] at hfull
      exact Option.some.inj hfull ▸ path.property
    · rw [if_neg habsolute] at hfull
      obtain ⟨dir, -, rfl⟩ := Option.map_eq_some_iff.1 hfull
      intro c hc
      rcases List.mem_append.1 hc with hc | hc
      · exact dir.property c hc
      · rcases List.mem_cons.1 hc with rfl | hc
        · exact hslash
        · exact path.property c hc
  have hcomponents : ∀ c ∈ cs, ∀ a ∈ c, a ∈ full := by
    have hall : ∀ c ∈ (resolve [] full).1, ∀ a ∈ c, a ∈ full :=
      foldl_proper (fun c hc => absurd hc List.not_mem_nil) fun c hc _ _ _ a ha => (mem_components hc).2 a ha
    rwa [hresolve] at hall
  intro c hc
  rw [absolutePath] at hc
  by_cases hempty : cs = []
  · rw [if_pos hempty] at hc
    rw [List.mem_singleton.1 hc]
    exact hslash
  · rw [if_neg hempty] at hc
    obtain ⟨comp, hcomp, hc⟩ := List.mem_flatMap.1 hc
    rcases List.mem_cons.1 hc with rfl | hc
    · exact hslash
    · exact hchars c (hcomponents comp hcomp c hc)

theorem again (h : NormalisedTo workingDirectory path cs) : NormalisedTo workingDirectory (.ofChars (absolutePath cs)) cs := by
  have hval : (CString.ofChars (absolutePath cs)).val = absolutePath cs := List.filter_eq_self.2 fun c hc => decide_eq_true (h.chars c hc)
  refine ⟨absolutePath cs, ?_, absolutePath_head cs, foldl_absolutePath h.proper⟩
  rw [fullPath, hval, if_pos (absolutePath_head cs)]

theorem normalize (h : NormalisedTo workingDirectory path cs) (memory : Bool) :
    (dfsNormalizePath workingDirectory memory none path).path = if memory = true then some (absolutePath cs) else none := by
  cases memory with
  | true => rw [(h.normalizesTo true).path rfl rfl, if_pos rfl]
  | false => rw [(h.normalizesTo false).exhausted rfl, if_neg Bool.noConfusion]

end NormalisedTo

/-! ## Exclusive open -/

def KeepsName (table : List DfsFilesystem) (path : List Char) : Prop :=
  ∀ fsPath ops, dfsFilesystemLookup table path = some ⟨some fsPath, some ops⟩ → fsPath = ['/'] ∨ ops.fullpath = false ∧ fsPath ≠ path

theorem fdPathOf_eq_mountPathOf_iff {table : List DfsFilesystem} (htable : MountTable table) {cs : List (List Char)}
    (hcs : ∀ c ∈ cs, ProperComponent c) {fsPath : List Char} {ops : DfsFilesystemOps}
    (hlookup : dfsFilesystemLookup table (absolutePath cs) = some ⟨some fsPath, some ops⟩) :
    fdPathOf fsPath ops (absolutePath cs) = mountPathOf fsPath (absolutePath cs) ↔
      fsPath = ['/'] ∨ ops.fullpath = false ∧ fsPath ≠ absolutePath cs := by
  obtain ⟨-, ms, hms, ⟨hpath, -⟩, ⟨rest, rfl⟩, -⟩ := htable.lookup_eq_some hcs hlookup
  cases Option.some.inj hpath
  by_cases hroot : ms = []
  · subst hroot
    refine iff_of_true ?_ (Or.inl rfl)
    rw [List.nil_append] at hcs ⊢
    have hslash : absolutePath [] = ['/'] := rfl
    rw [hslash, mountPathOf, if_pos rfl, fdPathOf]
    by_cases hflag : ops.fullpath = true
    · rw [if_pos hflag]
    · rw [if_neg hflag]
      by_cases hrest : rest = []
      · rw [hrest, hslash, dfsSubdir_self, Option.getD_none]
      · rw [dfsSubdir_root hrest hcs, Option.getD_some]
  have hlong := two_le_length_absolutePath hroot hms
  have hnotroot : absolutePath ms ≠ ['/'] := by
    intro heq
    rw [heq] at hlong
    exact absurd hlong (by decide)
  rw [mountPathOf, if_neg hnotroot, or_iff_right hnotroot, absolutePath_append hroot, List.drop_left]
  by_cases hrest : rest = []
  · refine iff_of_false ?_ ?_
    · rw [hrest, List.flatMap_nil, List.append_nil, fdPathOf, dfsSubdir_self]
      by_cases hflag : ops.fullpath = true
      · rw [if_pos hflag]
        intro heq
        rw [heq] at hlong
        exact absurd hlong (by decide)
      · rw [if_neg hflag]
        exact fun hno => nomatch hno
    · rw [hrest, List.flatMap_nil, List.append_nil]
      exact fun hno => hno.2 rfl
  · have hne : absolutePath ms ≠ absolutePath ms ++ rest.flatMap ('/' :: ·) := by
      intro heq
      have hnil := List.self_eq_append_right.1 heq
      obtain ⟨c, rest, rfl⟩ := List.exists_cons_of_ne_nil hrest
      exact nomatch hnil
    rw [fdPathOf, ← absolutePath_append hroot, dfsSubdir_below hroot hrest, Option.getD_some]
    by_cases hflag : ops.fullpath = true
    · rw [if_pos hflag]
      refine iff_of_false ?_ fun hno => by rw [hflag] at hno; exact nomatch hno.1
      rw [absolutePath_append hroot]
      intro heq
      have hlen := congrArg List.length heq
      rw [List.length_append] at hlen
      omega
    · rw [if_neg hflag]
      refine iff_of_true rfl ⟨Bool.eq_false_of_not_eq_true hflag, ?_⟩
      rwa [absolutePath_append hroot]

def OpenFiles.Mistaken (s : OpenFiles) (table : List DfsFilesystem) (path : List Char) : Prop :=
  ∃ fd other, some (fd, other) ∈ s ∧ fd.path ≠ none ∧ other ≠ path ∧ SameName table path fd other

/-- The `open` of the file system has left its own operations in the descriptor. -/
def KeepsFops (table : List DfsFilesystem) (path : List Char) (fd : DfsOpenFd) : Prop :=
  ∀ fsPath ops, dfsFilesystemLookup table path = some ⟨some fsPath, some ops⟩ → fd.fops = some ops.fops

def OpenFiles.Recognised (s : OpenFiles) (table : List DfsFilesystem) (path : List Char) : Prop :=
  KeepsName table path ∧ ∃ fd, some (fd, path) ∈ s ∧ fd.path ≠ none ∧ KeepsFops table path fd

/-- The condition under which exclusive open works for the path: with memory for both copies of it, no descriptor on another path is taken for
one on it, and one on it is recognised. -/
def OpensExclusively (memory : OpenMemory) (table : List DfsFilesystem) (s : OpenFiles) (path : List Char) : Prop :=
  if memory.full = true ∧ memory.again = true then
    (s.Mistaken table path → s.OpenOn path) ∧ (s.OpenOn path → s.Recognised table path ∨ s.Mistaken table path)
  else ¬s.OpenOn path

variable {workingDirectory : Option CString} {memory : OpenMemory} {driver : Option DriverOpen} {table : List DfsFilesystem} {s : OpenFiles}
  {trace : List Empty} {path : CString} {cs : List (List Char)}

theorem dfsFileOpen_eq_busy (hpath : NormalisedTo workingDirectory path cs) :
    dfsFileOpen workingDirectory memory driver table s.fds path = .error .ebusy ↔
      memory.full = true ∧ fdIsOpen workingDirectory memory.again table s.fds (.ofChars (absolutePath cs)) = true := by
  rw [dfsFileOpen, hpath.normalize]
  by_cases hfull : memory.full = true
  · rw [if_pos hfull, and_iff_right hfull]
    dsimp only
    by_cases hbusy : fdIsOpen workingDirectory memory.again table s.fds (.ofChars (absolutePath cs)) = true
    · rw [if_pos hbusy]
      exact iff_of_true rfl hbusy
    · rw [if_neg hbusy]
      refine iff_of_false (fun hno => ?_) hbusy
      rcases lookup_cases table (absolutePath cs) with hlookup | ⟨fsPath, ops, hlookup⟩
      · rw [hlookup] at hno
        cases hno
      · rw [hlookup] at hno
        cases driver with
        | none => cases hno
        | some opened =>
          dsimp only at hno
          by_cases hresult : opened.result < 0
          · rw [if_pos hresult] at hno
            cases hno
          · rw [if_neg hresult] at hno
            cases hno
  · rw [if_neg hfull]
    exact iff_of_false (fun hno => nomatch hno) fun hno => hfull hno.1

theorem fdIsOpen_iff (htable : MountTable table) (hpath : NormalisedTo workingDirectory path cs)
    (h : ∀ fd path, some (fd, path) ∈ s → ∃ fsPath ops, OpenedAs table fd path fsPath ops) :
    fdIsOpen workingDirectory memory.again table s.fds (.ofChars (absolutePath cs)) = true ↔
      memory.again = true ∧ (s.Recognised table (absolutePath cs) ∨ s.Mistaken table (absolutePath cs)) := by
  by_cases hagain : memory.again = true
  · have hnormalize := hpath.again.normalize memory.again
    rw [if_pos hagain] at hnormalize
    rw [fdIsOpen_eq hnormalize h, and_iff_right hagain]
    constructor
    · rintro ⟨fd, other, hmem, hname, hsame⟩
      by_cases hother : other = absolutePath cs
      · left
        subst hother
        obtain ⟨fsPath₁, ops₁, fsPath₂, ops₂, hlookup₁, hlookup₂, hfops, heq⟩ := hsame
        refine ⟨fun fsPath ops hlookup => ?_, fd, hmem, hname, fun fsPath ops hlookup => ?_⟩
        · rw [hlookup] at hlookup₁ hlookup₂
          cases hlookup₁
          cases hlookup₂
          exact (fdPathOf_eq_mountPathOf_iff htable hpath.proper hlookup).1 heq
        · rw [hlookup] at hlookup₁
          cases hlookup₁
          exact hfops
      · exact Or.inr ⟨fd, other, hmem, hname, hother, hsame⟩
    · rintro (⟨hkeeps, fd, hmem, hname, hfops⟩ | ⟨fd, other, hmem, hname, -, hsame⟩)
      · obtain ⟨fsPath, ops, hopened⟩ := h fd _ hmem
        exact ⟨fd, _, hmem, hname, fsPath, ops, fsPath, ops, hopened.lookup, hopened.lookup, hfops _ _ hopened.lookup,
          (fdPathOf_eq_mountPathOf_iff htable hpath.proper hopened.lookup).2 (hkeeps fsPath ops hopened.lookup)⟩
      · exact ⟨fd, other, hmem, hname, hsame⟩
  · have hnormalize := hpath.again.normalize memory.again
    rw [if_neg hagain] at hnormalize
    rw [fdIsOpen, hnormalize]
    exact iff_of_false (fun hno => nomatch hno) fun hno => hagain hno.1

/-- Exclusive open: in every state that is reached, `dfs_file_open` returns `-EBUSY` just for the paths that some descriptor is open on, if and
only if the condition is met. -/
theorem dfsFileOpen_exclusive (htable : MountTable table) (hrun : FileRun workingDirectory table trace s)
    (hpath : NormalisedTo workingDirectory path cs) :
    (dfsFileOpen workingDirectory memory driver table s.fds path = .error .ebusy ↔ s.OpenOn (absolutePath cs)) ↔
      OpensExclusively memory table s (absolutePath cs) := by
  have hopened := openedAs_of_run hrun
  rw [dfsFileOpen_eq_busy hpath, fdIsOpen_iff htable hpath hopened, OpensExclusively, ← and_assoc]
  by_cases hmemory : memory.full = true ∧ memory.again = true
  · have hrecognised : s.Recognised table (absolutePath cs) → s.OpenOn (absolutePath cs) := fun ⟨_, fd, hmem, _⟩ => ⟨fd, hmem⟩
    rw [if_pos hmemory, and_iff_right hmemory]
    constructor
    · exact fun h => ⟨fun hmistaken => h.1 (Or.inr hmistaken), h.2⟩
    · exact fun ⟨hmistaken, hopen⟩ => ⟨fun hor => hor.elim hrecognised hmistaken, hopen⟩
  · rw [if_neg hmemory]
    exact iff_false_left fun hno => hmemory hno.1

theorem exists_fileRun (workingDirectory : Option CString) (table : List DfsFilesystem) (actions : List FileAction) (found : List Empty → OpenFiles → Bool)
    (h : ((exec (stepFiles workingDirectory table) (fun _ _ => True) [] actions).any fun r => found r.1 r.2) = true) :
    ∃ trace s, FileRun workingDirectory table trace s ∧ found trace s = true :=
  exists_run_of_exec actions found h

def rootTable : List DfsFilesystem := [⟨some ['/'], some ⟨1, false⟩⟩]

/-- File systems of one type at the root and at `/m`. -/
def twoTable : List DfsFilesystem := [⟨some ['/'], some ⟨1, false⟩⟩, ⟨some ['/', 'm'], some ⟨1, false⟩⟩]

/-- `/a` is open, and is asked for as `/./a`. -/
theorem dfsFileOpen_exclusive_root : ∃ trace s, FileRun none rootTable trace s ∧ s.OpenOn ['/', 'a'] ∧
    (dfsFileOpen none ⟨true, true, true⟩ (some ⟨0, none⟩) rootTable s.fds ⟨['/', '.', '/', 'a'], CString.of_all (by decide)⟩ = .error .ebusy ↔ s.OpenOn ['/', 'a']) := by
  have htable : MountTable rootTable := by
    constructor
    · intro fs hfs mountPath hmount
      obtain rfl := List.mem_singleton.1 hfs
      exact ⟨[], by decide, (Option.some.inj hmount.1).symm⟩
    · intro fs hfs other hother _ _ _
      rw [List.mem_singleton.1 hfs, List.mem_singleton.1 hother]
  obtain ⟨trace, s, hrun, hs⟩ := exists_fileRun none rootTable [.open 0 ⟨['/', 'a'], CString.of_all (by decide)⟩ ⟨true, true, true⟩ (some ⟨0, none⟩)]
    (fun _ s => decide (s = [some (⟨some 1, some ['/', 'a']⟩, ['/', 'a'])])) (by decide +kernel)
  obtain rfl := of_decide_eq_true hs
  have hpath : NormalisedTo none ⟨['/', '.', '/', 'a'], CString.of_all (by decide)⟩ [['a']] := ⟨_, rfl, rfl, by decide +kernel⟩
  refine ⟨trace, _, hrun, by decide, (dfsFileOpen_exclusive htable hrun hpath).2 ?_⟩
  refine ⟨fun _ => by decide, fun _ => Or.inl ⟨?_, _, List.mem_singleton_self _, Option.some_ne_none _, ?_⟩⟩
  all_goals
    intro fsPath ops hlookup
    have hroot : dfsFilesystemLookup rootTable (absolutePath [['a']]) = some ⟨some ['/'], some ⟨1, false⟩⟩ := by decide
    rw [hroot] at hlookup
    cases hlookup
  · exact Or.inl rfl
  · rfl

/-- `/a` is open; `/m/a` is taken for it. -/
theorem dfsFileOpen_exclusive_mounted : ∃ trace s, FileRun none twoTable trace s ∧ ¬s.OpenOn ['/', 'm', '/', 'a'] ∧
    dfsFileOpen none ⟨true, true, true⟩ (some ⟨0, none⟩) twoTable s.fds ⟨['/', 'm', '/', 'a'], CString.of_all (by decide)⟩ = .error .ebusy := by
  obtain ⟨trace, s, hrun, hs⟩ := exists_fileRun none twoTable [.open 0 ⟨['/', 'a'], CString.of_all (by decide)⟩ ⟨true, true, true⟩ (some ⟨0, none⟩)]
    (fun _ s => decide (s = [some (⟨some 1, some ['/', 'a']⟩, ['/', 'a'])])) (by decide +kernel)
  obtain rfl := of_decide_eq_true hs
  exact ⟨trace, _, hrun, by decide, rfl⟩

end RtThread
