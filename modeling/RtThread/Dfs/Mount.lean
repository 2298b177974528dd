import RtThread.Dfs.Path

/-!
# Looking up a mounted file system

`dfs_filesystem_lookup` and `dfs_subdir`. One pass over the table keeps the longest mount path so far that the path goes on from: with a slash or with nothing, except behind the root, which already ends in a slash.
-/

namespace RtThread

/-- `struct dfs_filesystem_ops`: the table of file operations, by its address, and whether `DFS_FS_FLAG_FULLPATH` is set. -/
structure DfsFilesystemOps where
  fops : Nat
  fullpath : Bool
  deriving DecidableEq

/-- `struct dfs_filesystem` -/
structure DfsFilesystem where
  path : Option (List Char)
  ops : Option DfsFilesystemOps
  deriving DecidableEq

/-- `strncmp(a, b, n) == 0` -/
def strncmpEq (a b : List Char) (n : Nat) : Bool := a.take n == b.take n

/-- One entry of the table; the state is `fs` and `prefixlen`. -/
def lookupStep (path : List Char) : Option DfsFilesystem × Nat → DfsFilesystem → Option DfsFilesystem × Nat
  | (fs, prefixlen), iter =>
    match iter.path, iter.ops with
    | some mountPath, some _ =>
      let fspath := mountPath.length
      if fspath < prefixlen ∨ strncmpEq mountPath path fspath = false then (fs, prefixlen)
      else if 1 < fspath ∧ fspath < path.length ∧ path[fspath]? ≠ some '/' then (fs, prefixlen)
      else (some iter, fspath)
    | _, _ => (fs, prefixlen)

def dfsFilesystemLookup (table : List DfsFilesystem) (path : List Char) : Option DfsFilesystem :=
  (table.foldl (lookupStep path) (none, 0)).1

/-- `dfs_subdir`, for a directory that is not longer than the file name. -/
def dfsSubdir (directory filename : List Char) : Option (List Char) :=
  if directory.length = filename.length then none
  else if (filename.drop directory.length).head? ≠ some '/' ∧ directory.length ≠ 0 then some (filename.drop (directory.length - 1))
  else some (filename.drop directory.length)

/-! ## The longest match -/

def GoesOn (mountPath path : List Char) : Prop :=
  mountPath <+: path ∧ (mountPath.length ≤ 1 ∨ path.length ≤ mountPath.length ∨ path[mountPath.length]? = some '/')

def DfsFilesystem.MountedAt (fs : DfsFilesystem) (mountPath : List Char) : Prop := fs.path = some mountPath ∧ fs.ops.isSome = true

theorem strncmpEq_iff (mountPath path : List Char) : strncmpEq mountPath path mountPath.length = true ↔ mountPath <+: path := by
  rw [strncmpEq, beq_iff_eq, List.take_length, List.prefix_iff_eq_take]

theorem lookupStep_skip {path : List Char} {fs : Option DfsFilesystem} {prefixlen : Nat} {iter : DfsFilesystem}
    (h : ∀ mountPath, iter.MountedAt mountPath → GoesOn mountPath path → mountPath.length < prefixlen) :
    lookupStep path (fs, prefixlen) iter = (fs, prefixlen) := by
  obtain ⟨mountPath, ops⟩ := iter
  cases mountPath with
  | none => rfl
  | some mountPath =>
    cases ops with
    | none => rfl
    | some ops =>
      rw [lookupStep]
      dsimp only
      by_cases hfirst : mountPath.length < prefixlen ∨ strncmpEq mountPath path mountPath.length = false
      · rw [if_pos hfirst]
      · rw [if_neg hfirst, if_pos]
        obtain ⟨hlen, hcmp⟩ := not_or.1 hfirst
        have hpre : mountPath <+: path := (strncmpEq_iff _ _).1 (Bool.not_eq_false _ ▸ hcmp)
        have hgo : ¬GoesOn mountPath path := fun hgo => hlen (h mountPath ⟨rfl, rfl⟩ hgo)
        rw [GoesOn, not_and, not_or, not_or] at hgo
        obtain ⟨hone, hlong, hsep⟩ := hgo hpre
        exact ⟨by omega, by omega, hsep⟩

theorem lookupStep_take {path mountPath : List Char} {fs : Option DfsFilesystem} {prefixlen : Nat} {iter : DfsFilesystem}
    (hmount : iter.MountedAt mountPath) (hgo : GoesOn mountPath path) (hlen : prefixlen ≤ mountPath.length) :
    lookupStep path (fs, prefixlen) iter = (some iter, mountPath.length) := by
  obtain ⟨_, ops⟩ := iter
  obtain ⟨rfl, hops⟩ := hmount
  obtain ⟨ops, rfl⟩ := Option.isSome_iff_exists.1 hops
  obtain ⟨hpre, hrest⟩ := hgo
  rw [lookupStep]
  dsimp only
  rw [if_neg, if_neg]
  · rintro ⟨hone, hlong, hsep⟩
    rcases hrest with hrest | hrest | hrest
    · omega
    · omega
    · exact hsep hrest
  · rw [(strncmpEq_iff _ _).2 hpre]
    rintro (hlt | hcmp)
    · omega
    · cases hcmp

/-- Of the entries seen so far this is the longest match, the last of equal ones. -/
structure LongestIn (seen : List DfsFilesystem) (path : List Char) (fs : Option DfsFilesystem) (prefixlen : Nat) : Prop where
  found : ∀ f, fs = some f → f ∈ seen ∧ ∃ mountPath, f.MountedAt mountPath ∧ GoesOn mountPath path ∧ mountPath.length = prefixlen
  notFound : fs = none → prefixlen = 0 ∧ ∀ f ∈ seen, ∀ mountPath, f.MountedAt mountPath → ¬GoesOn mountPath path
  longest : ∀ f ∈ seen, ∀ mountPath, f.MountedAt mountPath → GoesOn mountPath path → mountPath.length ≤ prefixlen

theorem LongestIn.step {seen : List DfsFilesystem} {path : List Char} {fs : Option DfsFilesystem} {prefixlen : Nat}
    (h : LongestIn seen path fs prefixlen) (iter : DfsFilesystem) :
    LongestIn (seen ++ [iter]) path (lookupStep path (fs, prefixlen) iter).1 (lookupStep path (fs, prefixlen) iter).2 := by
  by_cases hmatch : ∃ mountPath, iter.MountedAt mountPath ∧ GoesOn mountPath path ∧ prefixlen ≤ mountPath.length
  · obtain ⟨mountPath, hmount, hgo, hlen⟩ := hmatch
    rw [lookupStep_take hmount hgo hlen]
    refine ⟨?_, fun heq => (nomatch heq), ?_⟩
    · rintro f ⟨⟩
      exact ⟨List.mem_append_right _ (List.mem_singleton_self _), mountPath, hmount, hgo, rfl⟩
    · intro f hf other hother hgo'
      rcases List.mem_append.1 hf with hf | hf
      · exact (h.longest f hf other hother hgo').trans hlen
      · obtain rfl := List.mem_singleton.1 hf
        rw [Option.some.inj (hother.1.symm.trans hmount.1)]
  · have hskip : ∀ mountPath, iter.MountedAt mountPath → GoesOn mountPath path → mountPath.length < prefixlen :=
      fun mountPath hmount hgo => Nat.lt_of_not_le fun hle => hmatch ⟨mountPath, hmount, hgo, hle⟩
    rw [lookupStep_skip hskip]
    refine ⟨?_, ?_, ?_⟩
    · intro f hf
      obtain ⟨hmem, hfound⟩ := h.found f hf
      exact ⟨List.mem_append_left _ hmem, hfound⟩
    · intro heq
      obtain ⟨hzero, hnone⟩ := h.notFound heq
      refine ⟨hzero, fun f hf mountPath hmount hgo => ?_⟩
      rcases List.mem_append.1 hf with hf | hf
      · exact hnone f hf mountPath hmount hgo
      · obtain rfl := List.mem_singleton.1 hf
        have hlt := hskip mountPath hmount hgo
        omega
    · intro f hf mountPath hmount hgo
      rcases List.mem_append.1 hf with hf | hf
      · exact h.longest f hf mountPath hmount hgo
      · obtain rfl := List.mem_singleton.1 hf
        exact (hskip mountPath hmount hgo).le

theorem LongestIn.foldl {seen : List DfsFilesystem} {path : List Char} {fs : Option DfsFilesystem} {prefixlen : Nat}
    (h : LongestIn seen path fs prefixlen) (table : List DfsFilesystem) :
    LongestIn (seen ++ table) path (table.foldl (lookupStep path) (fs, prefixlen)).1 (table.foldl (lookupStep path) (fs, prefixlen)).2 := by
  induction table generalizing seen fs prefixlen with
  | nil => simpa using h
  | cons iter table ih =>
    rw [List.foldl_cons, List.append_cons]
    exact ih (h.step iter)

theorem dfsFilesystemLookup_longest (table : List DfsFilesystem) (path : List Char) :
    ∃ prefixlen, LongestIn table path (dfsFilesystemLookup table path) prefixlen := by
  have hstart : LongestIn [] path none 0 := ⟨fun _ heq => (nomatch heq), fun _ => ⟨rfl, fun _ hf => (nomatch hf)⟩, fun _ hf => (nomatch hf)⟩
  exact ⟨_, hstart.foldl table⟩

/-! ## Components -/

theorem components_absolutePath {cs : List (List Char)} (hne : cs ≠ []) (hproper : ∀ c ∈ cs, ProperComponent c) :
    components (absolutePath cs) = [] :: cs := by
  rw [absolutePath, if_neg hne]
  clear hne
  induction cs using List.reverseRecOn with
  | nil => exact components_nil
  | append_singleton init c ih =>
    obtain ⟨-, -, -, hslash⟩ := hproper c (List.mem_append_right _ (List.mem_singleton_self c))
    rw [List.flatMap_append, List.flatMap_singleton, components_append, ih fun d hd => hproper d (List.mem_append_left _ hd),
      components_single hslash, List.cons_append]

theorem absolutePath_append {ms rest : List (List Char)} (hms : ms ≠ []) :
    absolutePath (ms ++ rest) = absolutePath ms ++ rest.flatMap ('/' :: ·) := by
  rw [absolutePath, if_neg fun heq => hms (List.append_eq_nil_iff.1 heq).1, absolutePath, if_neg hms, List.flatMap_append]

theorem two_le_length_absolutePath {ms : List (List Char)} (hne : ms ≠ []) (hproper : ∀ c ∈ ms, ProperComponent c) :
    2 ≤ (absolutePath ms).length := by
  obtain ⟨c, ms, rfl⟩ := List.exists_cons_of_ne_nil hne
  have hpos := List.length_pos_iff.2 (hproper c List.mem_cons_self).1
  rw [absolutePath, if_neg hne, List.flatMap_cons, List.length_append, List.length_cons]
  omega

theorem goesOn_iff {ms cs : List (List Char)} (hms : ∀ c ∈ ms, ProperComponent c) (hcs : ∀ c ∈ cs, ProperComponent c) :
    GoesOn (absolutePath ms) (absolutePath cs) ↔ ms <+: cs := by
  by_cases hroot : ms = []
  · refine iff_of_true ⟨?_, Or.inl ?_⟩ (hroot ▸ List.nil_prefix)
    · rw [hroot, absolutePath, absolutePath, if_pos rfl]
      by_cases hempty : cs = []
      · exact ⟨[], by rw [List.append_nil, if_pos hempty]⟩
      · obtain ⟨c, cs, rfl⟩ := List.exists_cons_of_ne_nil hempty
        rw [if_neg hempty, List.flatMap_cons, List.cons_append]
        exact ⟨_, rfl⟩
    · rw [hroot]
      exact Nat.le_refl 1
  have hlong := two_le_length_absolutePath hroot hms
  constructor
  · rintro ⟨⟨rest, hrest⟩, hsep⟩
    cases rest with
    | nil =>
      rw [List.append_nil] at hrest
      have hcomponents := congrArg components hrest
      rw [components_absolutePath hroot hms] at hcomponents
      by_cases hempty : cs = []
      · rw [hempty] at hrest
        rw [hrest] at hlong
        exact absurd hlong (by decide)
      · rw [components_absolutePath hempty hcs] at hcomponents
        exact List.tail_eq_of_cons_eq hcomponents ▸ List.prefix_rfl
    | cons x rest =>
      have hx : x = '/' := by
        rw [← hrest, List.getElem?_append_right (Nat.le_refl _), Nat.sub_self, List.length_append, List.length_cons] at hsep
        rcases hsep with hsep | hsep | hsep
        · omega
        · omega
        · exact Option.some.inj hsep
      have hempty : cs ≠ [] := by
        rintro rfl
        have hlen := congrArg List.length hrest
        rw [List.length_append, List.length_cons, absolutePath, absolutePath, if_pos rfl, ← absolutePath] at hlen
        simp only [List.length_singleton] at hlen
        omega
      have hcomponents := congrArg components hrest
      rw [hx, components_append, components_absolutePath hroot hms, components_absolutePath hempty hcs, List.cons_append] at hcomponents
      exact ⟨_, List.tail_eq_of_cons_eq hcomponents⟩
  · rintro ⟨rest, rfl⟩
    rw [absolutePath_append hroot]
    refine ⟨⟨_, rfl⟩, Or.inr ?_⟩
    cases rest with
    | nil => exact Or.inl (by rw [List.flatMap_nil, List.append_nil])
    | cons c rest =>
      right
      rw [List.getElem?_append_right (Nat.le_refl _), Nat.sub_self, List.flatMap_cons]
      rfl

theorem absolutePath_injective {ms cs : List (List Char)} (hms : ∀ c ∈ ms, ProperComponent c) (hcs : ∀ c ∈ cs, ProperComponent c)
    (h : absolutePath ms = absolutePath cs) : ms = cs := by
  have hone : GoesOn (absolutePath ms) (absolutePath cs) := ⟨h ▸ List.prefix_rfl, Or.inr (Or.inl (h ▸ Nat.le_refl _))⟩
  have htwo : GoesOn (absolutePath cs) (absolutePath ms) := ⟨h ▸ List.prefix_rfl, Or.inr (Or.inl (h ▸ Nat.le_refl _))⟩
  exact List.IsPrefix.eq_of_length ((goesOn_iff hms hcs).1 hone)
    (Nat.le_antisymm ((goesOn_iff hms hcs).1 hone).length_le ((goesOn_iff hcs hms).1 htwo).length_le)

/-! ## The path below the mount point -/

theorem dfsSubdir_self (path : List Char) : dfsSubdir path path = none := if_pos rfl

theorem dfsSubdir_root {cs : List (List Char)} (hne : cs ≠ []) (hproper : ∀ c ∈ cs, ProperComponent c) :
    dfsSubdir ['/'] (absolutePath cs) = some (absolutePath cs) := by
  have hlong := two_le_length_absolutePath hne hproper
  obtain ⟨c, cs, rfl⟩ := List.exists_cons_of_ne_nil hne
  obtain ⟨hnil, -, -, hslash⟩ := hproper c List.mem_cons_self
  obtain ⟨a, c, rfl⟩ := List.exists_cons_of_ne_nil hnil
  rw [dfsSubdir, if_neg fun heq => by rw [← heq] at hlong; exact absurd hlong (by decide), if_pos]
  · rfl
  · refine ⟨?_, Nat.one_ne_zero⟩
    rw [absolutePath, if_neg hne]
    intro heq
    exact hslash (Option.some.inj heq ▸ List.mem_cons_self)

theorem dfsSubdir_below {ms rest : List (List Char)} (hms : ms ≠ []) (hrest : rest ≠ []) :
    dfsSubdir (absolutePath ms) (absolutePath (ms ++ rest)) = some (rest.flatMap ('/' :: ·)) := by
  obtain ⟨c, rest, rfl⟩ := List.exists_cons_of_ne_nil hrest
  rw [absolutePath_append hms, dfsSubdir, if_neg, if_neg, List.drop_left]
  · rw [List.drop_left]
    exact fun hno => hno.1 rfl
  · rw [List.length_append, List.flatMap_cons, List.length_append, List.length_cons]
    omega

theorem dfsSubdir_eq_none_iff {ms cs : List (List Char)} (hms : ∀ c ∈ ms, ProperComponent c) (hcs : ∀ c ∈ cs, ProperComponent c)
    (hpre : ms <+: cs) : dfsSubdir (absolutePath ms) (absolutePath cs) = none ↔ ms = cs := by
  constructor
  · intro h
    rw [dfsSubdir] at h
    by_cases hlen : (absolutePath ms).length = (absolutePath cs).length
    · exact absolutePath_injective hms hcs (((goesOn_iff hms hcs).2 hpre).1.eq_of_length hlen)
    · rw [if_neg hlen] at h
      by_cases hback : ((absolutePath cs).drop (absolutePath ms).length).head? ≠ some '/' ∧ (absolutePath ms).length ≠ 0
      · rw [if_pos hback] at h
        cases h
      · rw [if_neg hback] at h
        cases h
  · rintro rfl
    exact dfsSubdir_self _

theorem resolve_append_dfsSubdir {ms cs : List (List Char)} (hcs : ∀ c ∈ cs, ProperComponent c) (hpre : ms <+: cs) :
    resolve [] (absolutePath ms ++ (dfsSubdir (absolutePath ms) (absolutePath cs)).getD []) = (cs, 0) := by
  obtain ⟨rest, rfl⟩ := hpre
  by_cases hrest : rest = []
  · rw [hrest, List.append_nil] at hcs ⊢
    rw [dfsSubdir_self, Option.getD_none, List.append_nil]
    exact foldl_absolutePath hcs
  by_cases hms : ms = []
  · rw [hms, List.nil_append] at hcs ⊢
    have hroot : absolutePath [] = ['/'] := rfl
    rw [hroot, dfsSubdir_root hrest hcs, Option.getD_some, List.singleton_append, resolve]
    have hsplit := components_append [] (absolutePath rest)
    rw [List.nil_append] at hsplit
    rw [hsplit, components_nil, List.singleton_append, List.foldl_cons, resolveStep_nil]
    exact foldl_absolutePath hcs
  · rw [dfsSubdir_below hms hrest, Option.getD_some, ← absolutePath_append hms]
    exact foldl_absolutePath hcs

/-! ## Mount resolution -/

structure MountTable (table : List DfsFilesystem) : Prop where
  normalised : ∀ fs ∈ table, ∀ mountPath, fs.MountedAt mountPath → ∃ ms, (∀ c ∈ ms, ProperComponent c) ∧ mountPath = absolutePath ms
  distinct : ∀ fs ∈ table, ∀ other ∈ table, ∀ mountPath, fs.MountedAt mountPath → other.MountedAt mountPath → fs = other

variable {table : List DfsFilesystem} {cs ms : List (List Char)}

theorem MountTable.lookup_eq_none_iff (htable : MountTable table) (hcs : ∀ c ∈ cs, ProperComponent c) :
    dfsFilesystemLookup table (absolutePath cs) = none ↔
      ∀ fs ∈ table, ∀ ms, (∀ c ∈ ms, ProperComponent c) → fs.MountedAt (absolutePath ms) → ¬ms <+: cs := by
  obtain ⟨prefixlen, hlongest⟩ := dfsFilesystemLookup_longest table (absolutePath cs)
  constructor
  · intro hnone fs hfs ms hms hmount hpre
    exact (hlongest.notFound hnone).2 fs hfs _ hmount ((goesOn_iff hms hcs).2 hpre)
  · intro hnone
    by_contra hsome
    obtain ⟨fs, hfs⟩ := Option.ne_none_iff_exists'.1 hsome
    obtain ⟨hmem, mountPath, hmount, hgo, -⟩ := hlongest.found fs hfs
    obtain ⟨ms, hms, rfl⟩ := htable.normalised fs hmem mountPath hmount
    exact hnone fs hmem ms hms hmount ((goesOn_iff hms hcs).1 hgo)

theorem MountTable.lookup_eq_some (htable : MountTable table) (hcs : ∀ c ∈ cs, ProperComponent c) {fs : DfsFilesystem}
    (h : dfsFilesystemLookup table (absolutePath cs) = some fs) :
    fs ∈ table ∧ ∃ ms, (∀ c ∈ ms, ProperComponent c) ∧ fs.MountedAt (absolutePath ms) ∧ ms <+: cs ∧
      ∀ other ∈ table, ∀ ns, (∀ c ∈ ns, ProperComponent c) → other.MountedAt (absolutePath ns) → ns <+: cs →
        other = fs ∨ ns.length < ms.length := by
  obtain ⟨prefixlen, hlongest⟩ := dfsFilesystemLookup_longest table (absolutePath cs)
  obtain ⟨hmem, mountPath, hmount, hgo, rfl⟩ := hlongest.found fs h
  obtain ⟨ms, hms, rfl⟩ := htable.normalised fs hmem mountPath hmount
  have hpre := (goesOn_iff hms hcs).1 hgo
  refine ⟨hmem, ms, hms, hmount, hpre, fun other hother ns hns hmount' hpre' => ?_⟩
  have hle := hlongest.longest other hother _ hmount' ((goesOn_iff hns hcs).2 hpre')
  by_cases hshort : ns.length < ms.length
  · exact Or.inr hshort
  · left
    have hms' : ms <+: ns := List.prefix_of_prefix_length_le hpre hpre' (Nat.le_of_not_lt hshort)
    have htext := ((goesOn_iff hms hns).2 hms').1
    have heq : absolutePath ms = absolutePath ns := htext.eq_of_length (Nat.le_antisymm htext.length_le hle)
    exact htable.distinct other hother fs hmem _ hmount' (heq ▸ hmount)

/-- The lookup finds the file system that is mounted at the longest prefix of the path, and what `dfs_subdir` leaves leads from there to the
path. -/
theorem dfsFilesystemLookup_resolves (htable : MountTable table) (hcs : ∀ c ∈ cs, ProperComponent c) :
    (dfsFilesystemLookup table (absolutePath cs) = none ↔
      ∀ fs ∈ table, ∀ ms, (∀ c ∈ ms, ProperComponent c) → fs.MountedAt (absolutePath ms) → ¬ms <+: cs) ∧
    ∀ fs, dfsFilesystemLookup table (absolutePath cs) = some fs →
      fs ∈ table ∧ ∃ ms, (∀ c ∈ ms, ProperComponent c) ∧ fs.MountedAt (absolutePath ms) ∧ ms <+: cs ∧
        (∀ other ∈ table, ∀ ns, (∀ c ∈ ns, ProperComponent c) → other.MountedAt (absolutePath ns) → ns <+: cs →
          other = fs ∨ ns.length < ms.length) ∧
        (dfsSubdir (absolutePath ms) (absolutePath cs) = none ↔ absolutePath ms = absolutePath cs) ∧
        resolve [] (absolutePath ms ++ (dfsSubdir (absolutePath ms) (absolutePath cs)).getD []) = (cs, 0) := by
  refine ⟨htable.lookup_eq_none_iff hcs, fun fs hfs => ?_⟩
  obtain ⟨hmem, ms, hms, hmount, hpre, hlongest⟩ := htable.lookup_eq_some hcs hfs
  refine ⟨hmem, ms, hms, hmount, hpre, hlongest, (dfsSubdir_eq_none_iff hms hcs hpre).trans ?_, resolve_append_dfsSubdir hcs hpre⟩
  exact ⟨fun heq => heq ▸ rfl, absolutePath_injective hms hcs⟩

/-- File systems at `/` and `/mn`, and a path that only begins with the same letters. -/
theorem dfsFilesystemLookup_resolves_mnt :
    ∃ fs ms, dfsFilesystemLookup [⟨some ['/'], some ⟨1, false⟩⟩, ⟨none, none⟩, ⟨some ['/', 'm', 'n'], some ⟨2, false⟩⟩] ['/', 'm', 'n', 't'] = some fs ∧
      fs.MountedAt (absolutePath ms) ∧ ms <+: [['m', 'n', 't']] := by
  have htable : MountTable [⟨some ['/'], some ⟨1, false⟩⟩, ⟨none, none⟩, ⟨some ['/', 'm', 'n'], some ⟨2, false⟩⟩] := by
    constructor
    · intro fs hfs mountPath hmount
      simp only [List.mem_cons, List.not_mem_nil, or_false] at hfs
      obtain rfl | rfl | rfl := hfs
      · exact ⟨[], by decide, (Option.some.inj hmount.1).symm⟩
      · exact nomatch hmount.1
      · exact ⟨[['m', 'n']], by decide, (Option.some.inj hmount.1).symm⟩
    · intro fs hfs other hother mountPath hmount hmount'
      simp only [List.mem_cons, List.not_mem_nil, or_false] at hfs hother
      obtain rfl | rfl | rfl := hfs <;> obtain rfl | rfl | rfl := hother <;>
        first | rfl | (cases hmount.1 <;> cases hmount'.1)
  have hproper : ∀ c ∈ [['m', 'n', 't']], ProperComponent c := by decide
  obtain ⟨-, hsome⟩ := dfsFilesystemLookup_resolves htable hproper
  obtain ⟨-, ms, -, hmount, hpre, -⟩ := hsome ⟨some ['/'], some ⟨1, false⟩⟩ (by decide)
  exact ⟨_, ms, by decide, hmount, hpre⟩

end RtThread
