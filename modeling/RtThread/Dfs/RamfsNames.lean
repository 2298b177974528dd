import RtThread.Dfs.Ramfs
import RtThread.Lib.Naming
import RtThread.Lib.Transition

/-!
# The names of a ramfs as a finite map

Opens that may create, renames and unlinks, beside the same operations on a finite map from names to the addresses of files. A rename stores the new path as it is, with its separator; a name that fills its field has no end; the root can be unlinked and renamed. Without these operations a ramfs is the map.
-/

namespace RtThread

open Function Transition

structure RamfsPath where
  chars : List Char
  terminated : ramfsNul ∉ chars

/-- `behind` is the memory behind the names at the time of the call, `memory` what the heap gives for a new entry. -/
inductive RamfsOp
  | open (behind : Nat → List Char) (flags : RamfsFlags) (path : RamfsPath) (memory : Option Nat)
  | unlink (behind : Nat → List Char) (path : RamfsPath)
  | rename (behind : Nat → List Char) (oldpath newpath : RamfsPath)

inductive RamfsNameEvent
  | opened (flags : RamfsFlags) (path : List Char) (memory : Option Nat) (result : Except RamfsError Nat)
  | unlinked (path : List Char) (result : Except RamfsError Unit)
  | renamed (oldpath newpath : List Char) (result : Except RamfsError Unit)

def stepRamfsNames (fs : Ramfs) : RamfsOp → Option (Ramfs × List RamfsNameEvent)
  | .open behind flags path memory =>
    match dfsRamfsOpen fs behind flags path.chars memory with
    | .error e => some (fs, [.opened flags path.chars memory (.error e)])
    | .ok (d, _, fs') => some (fs', [.opened flags path.chars memory (.ok d)])
  | .unlink behind path =>
    match dfsRamfsUnlink fs behind path.chars with
    | .error e => some (fs, [.unlinked path.chars (.error e)])
    | .ok fs' => some (fs', [.unlinked path.chars (.ok ())])
  | .rename behind oldpath newpath =>
    match dfsRamfsRename fs behind oldpath.chars newpath.chars with
    | .error e => some (fs, [.renamed oldpath.chars newpath.chars (.error e)])
    | .ok fs' => some (fs', [.renamed oldpath.chars newpath.chars (.ok ())])

def HeapFresh (fs : Ramfs) : RamfsOp → Prop
  | .open _ _ _ memory => ∀ d ∈ memory, d ∉ fs.files
  | _ => True

/-- What is created has a name that fits its field, the root is neither unlinked nor renamed, and a new name is given without a separator and
fits its field. -/
def NameFits (fs : Ramfs) : RamfsOp → Prop
  | .open behind flags path memory =>
    dfsRamfsLookup fs behind path.chars = none ∧ (flags.creat = true ∨ flags.wronly = true) ∧ memory.isSome = true →
      (skipSeparators path.chars).length < ramfsNameMax
  | .unlink _ path => skipSeparators path.chars ≠ []
  | .rename behind oldpath newpath =>
    dfsRamfsLookup fs behind newpath.chars = none ∧ (dfsRamfsLookup fs behind oldpath.chars).isSome = true →
      skipSeparators oldpath.chars ≠ [] ∧ skipSeparators newpath.chars = newpath.chars ∧ newpath.chars.length < ramfsNameMax

/-! ## The finite map -/

abbrev NameMap := Finmap fun _ : List Char => Nat

def stepNames (m : NameMap) : RamfsOp → Option (NameMap × List RamfsNameEvent)
  | .open _ flags path memory =>
    let name := skipSeparators path.chars
    if name = [] then some (m, [.opened flags path.chars memory (.error .enoent)])
    else
      match m.lookup name with
      | some d => some (m, [.opened flags path.chars memory (.ok d)])
      | none =>
        if flags.creat = true ∨ flags.wronly = true then
          match memory with
          | some d => some (m.insert name d, [.opened flags path.chars memory (.ok d)])
          | none => some (m, [.opened flags path.chars memory (.error .enomem)])
        else some (m, [.opened flags path.chars memory (.error .enoent)])
  | .unlink _ path =>
    match m.lookup (skipSeparators path.chars) with
    | none => some (m, [.unlinked path.chars (.error .enoent)])
    | some _ => some (m.erase (skipSeparators path.chars), [.unlinked path.chars (.ok ())])
  | .rename _ oldpath newpath =>
    let event := RamfsNameEvent.renamed oldpath.chars newpath.chars
    if skipSeparators newpath.chars = [] ∨ skipSeparators newpath.chars ∈ m then some (m, [event (.error .eexist)])
    else
      match m.lookup (skipSeparators oldpath.chars) with
      | none => some (m, [event (.error .enoent)])
      | some d => some ((m.erase (skipSeparators oldpath.chars)).insert (skipSeparators newpath.chars) d, [event (.ok ())])

/-! ## Names -/

def RamfsDirent.nameOf (d : RamfsDirent) : List Char := d.nameString []

structure RamfsDirent.Named (d : RamfsDirent) : Prop where
  ends : ramfsNul ∈ d.name
  ne_nil : d.nameOf ≠ []
  skip : skipSeparators d.nameOf = d.nameOf

structure RamfsNames (fs : Ramfs) (m : NameMap) : Prop where
  root : fs.root = true
  nodup : fs.files.Nodup
  named : ∀ d ∈ fs.files, (fs.dirent d).Named
  naming : Naming m fs.files fun d => (fs.dirent d).nameOf

variable {fs fs' : Ramfs} {m : NameMap} {op : RamfsOp} {events : List RamfsNameEvent} {behind : Nat → List Char} {path name : List Char}

theorem RamfsDirent.Named.nameString {d : RamfsDirent} (h : d.Named) (behind : List Char) : d.nameString behind = d.nameOf := by
  have hstop : ∀ (cells behind : List Char), ramfsNul ∈ cells →
      (cells ++ behind).takeWhile (· ≠ ramfsNul) = cells.takeWhile (· ≠ ramfsNul) := by
    intro cells behind hmem
    induction cells with
    | nil => cases hmem
    | cons c cells ih =>
      by_cases hc : c = ramfsNul
      · simp [hc]
      · rw [List.cons_append, List.takeWhile_cons_of_pos (by simpa using hc), List.takeWhile_cons_of_pos (by simpa using hc),
          ih ((List.mem_cons.1 hmem).resolve_left (Ne.symm hc))]
  rw [RamfsDirent.nameOf, RamfsDirent.nameString, RamfsDirent.nameString, List.append_nil, hstop _ _ h.ends]

theorem skipSeparators_idem (path : List Char) : skipSeparators (skipSeparators path) = skipSeparators path :=
  List.dropWhile_idempotent _ path

theorem RamfsPath.skip (path : RamfsPath) : ramfsNul ∉ skipSeparators path.chars :=
  fun hmem => path.terminated ((List.dropWhile_sublist _).mem hmem)

theorem nameString_strncpyName (hname : ramfsNul ∉ name) (hfits : name.length < ramfsNameMax) (behind : List Char) :
    (strncpyName name ++ behind).takeWhile (· ≠ ramfsNul) = name ∧ ramfsNul ∈ strncpyName name := by
  obtain ⟨room, hroom⟩ : ∃ room, ramfsNameMax - name.length = room + 1 := ⟨ramfsNameMax - name.length - 1, by omega⟩
  rw [strncpyName, List.take_of_length_le (Nat.le_of_lt hfits), hroom, List.replicate_succ]
  constructor
  · rw [List.append_assoc, List.takeWhile_append_of_pos, List.cons_append, List.takeWhile_cons_of_neg (by simp), List.append_nil]
    intro c hc
    simpa using fun heq : c = ramfsNul => hname (heq ▸ hc)
  · simp

theorem named_of_strncpyName {d : RamfsDirent} (hd : d.name = strncpyName name) (hname : ramfsNul ∉ name) (hfits : name.length < ramfsNameMax)
    (hne : name ≠ []) (hskip : skipSeparators name = name) : d.Named ∧ d.nameOf = name := by
  obtain ⟨hstring, hends⟩ := nameString_strncpyName hname hfits []
  have hof : d.nameOf = name := by rw [RamfsDirent.nameOf, RamfsDirent.nameString, hd, hstring]
  exact ⟨⟨hd ▸ hends, hof.symm ▸ hne, by rw [hof, hskip]⟩, hof⟩

theorem RamfsNames.lookup (h : RamfsNames fs m) (behind : Nat → List Char) (path : List Char) :
    dfsRamfsLookup fs behind path =
      if skipSeparators path = [] then some .root else (m.lookup (skipSeparators path)).map .file := by
  have hnaming := h.naming.congr fun d hd => (h.named d hd).nameString (behind d)
  rw [dfsRamfsLookup, ← hnaming.find?_eq]

theorem RamfsNames.congr (h : RamfsNames fs m) (hfiles : fs'.files = fs.files) (hroot : fs'.root = fs.root)
    (hname : ∀ d, (fs'.dirent d).name = (fs.dirent d).name) : RamfsNames fs' m := by
  have hof : ∀ d, (fs'.dirent d).nameOf = (fs.dirent d).nameOf := fun d => by
    rw [RamfsDirent.nameOf, RamfsDirent.nameOf, RamfsDirent.nameString, RamfsDirent.nameString, hname]
  refine ⟨hroot.trans h.root, hfiles ▸ h.nodup, fun d hd => ?_, hfiles ▸ h.naming.congr fun d _ => hof d⟩
  obtain ⟨hends, hne, hskip⟩ := h.named d (hfiles ▸ hd)
  exact ⟨(hname d).symm ▸ hends, (hof d).symm ▸ hne, by rw [hof, hskip]⟩

theorem nameOf_update {dirent : Nat → RamfsDirent} {d : Nat} {e : RamfsDirent} {name : List Char} (he : e.nameOf = name) :
    (fun i => (update dirent d e i).nameOf) = update (fun i => (dirent i).nameOf) d name := by
  funext i
  by_cases hi : i = d
  · rw [hi, update_self, update_self, he]
  · rw [update_of_ne hi, update_of_ne hi]

theorem openDirent_name (flags : RamfsFlags) (d : RamfsDirent) : (openDirent flags d).1.name = d.name := by
  rw [openDirent]
  split_ifs <;> rfl

theorem RamfsNames.step_open (h : RamfsNames fs m) {flags : RamfsFlags} {path : RamfsPath} {memory : Option Nat}
    (hfresh : HeapFresh fs (.open behind flags path memory)) (hfits : NameFits fs (.open behind flags path memory))
    (hs : stepRamfsNames fs (.open behind flags path memory) = some (fs', events)) :
    ∃ m', stepNames m (.open behind flags path memory) = some (m', events) ∧ RamfsNames fs' m' := by
  have hfound := h.lookup behind path.chars
  rw [stepRamfsNames, dfsRamfsOpen] at hs
  rw [stepNames.eq_def]
  dsimp only
  by_cases hroot : skipSeparators path.chars = []
  · rw [if_pos hroot] at hfound ⊢
    rw [hfound] at hs
    obtain ⟨rfl, rfl⟩ := Prod.mk.inj (Option.some.inj hs)
    exact ⟨m, rfl, h⟩
  rw [if_neg hroot] at hfound ⊢
  cases hlookup : m.lookup (skipSeparators path.chars) with
  | some d =>
    rw [hlookup, Option.map_some] at hfound
    rw [hfound] at hs
    obtain ⟨rfl, rfl⟩ := Prod.mk.inj (Option.some.inj hs)
    refine ⟨m, rfl, h.congr rfl rfl fun i => ?_⟩
    change (update fs.dirent d (openDirent flags (fs.dirent d)).1 i).name = _
    by_cases hi : i = d
    · rw [hi, update_self, openDirent_name]
    · rw [update_of_ne hi]
  | none =>
    rw [hlookup, Option.map_none] at hfound
    rw [hfound] at hs
    by_cases hcreat : flags.creat = true ∨ flags.wronly = true
    · cases memory with
      | none =>
        rw [Option.isSome_none, openFile, if_pos hcreat] at hs
        obtain ⟨rfl, rfl⟩ := Prod.mk.inj (Option.some.inj hs)
        exact ⟨m, if_pos hcreat, h⟩
      | some d =>
        rw [Option.isSome_some, openFile, if_pos hcreat, if_pos rfl] at hs
        obtain ⟨rfl, rfl⟩ := Prod.mk.inj (Option.some.inj hs)
        have hnew : d ∉ fs.files := hfresh d rfl
        obtain ⟨hnamed, hof⟩ := @named_of_strncpyName _ (openDirent flags (newDirent path.chars)).1 (openDirent_name flags (newDirent path.chars)) path.skip
          (hfits ⟨hfound, hcreat, rfl⟩) hroot (skipSeparators_idem _)
        refine ⟨_, if_pos hcreat, h.root, List.nodup_cons.2 ⟨hnew, h.nodup⟩, fun i hi => ?_, ?_⟩
        · by_cases hid : i = d
          · subst hid
            change (update fs.dirent i (openDirent flags (newDirent path.chars)).1 i).Named
            rwa [update_self]
          · change (update fs.dirent d (openDirent flags (newDirent path.chars)).1 i).Named
            rw [update_of_ne hid]
            exact h.named i ((List.mem_cons.1 hi).resolve_left hid)
        · change Naming _ (d :: fs.files) fun i => (update fs.dirent d (openDirent flags (newDirent path.chars)).1 i).nameOf
          rw [nameOf_update hof]
          exact h.naming.insert hlookup hnew
    · rw [openFile, if_neg hcreat] at hs
      obtain ⟨rfl, rfl⟩ := Prod.mk.inj (Option.some.inj hs)
      exact ⟨m, if_neg hcreat, h⟩

theorem RamfsNames.step_unlink (h : RamfsNames fs m) {path : RamfsPath} (hfits : NameFits fs (.unlink behind path))
    (hs : stepRamfsNames fs (.unlink behind path) = some (fs', events)) :
    ∃ m', stepNames m (.unlink behind path) = some (m', events) ∧ RamfsNames fs' m' := by
  have hfound := h.lookup behind path.chars
  rw [if_neg hfits] at hfound
  rw [stepRamfsNames, dfsRamfsUnlink, hfound] at hs
  rw [stepNames]
  cases hlookup : m.lookup (skipSeparators path.chars) with
  | none =>
    rw [hlookup] at hs
    obtain ⟨rfl, rfl⟩ := Prod.mk.inj (Option.some.inj hs)
    exact ⟨m, rfl, h⟩
  | some d =>
    rw [hlookup] at hs
    obtain ⟨rfl, rfl⟩ := Prod.mk.inj (Option.some.inj hs)
    refine ⟨_, rfl, h.root, h.nodup.erase d, fun i hi => h.named i (List.mem_of_mem_erase hi), h.naming.erase h.nodup hlookup⟩

theorem RamfsNames.step_rename (h : RamfsNames fs m) {oldpath newpath : RamfsPath} (hfits : NameFits fs (.rename behind oldpath newpath))
    (hs : stepRamfsNames fs (.rename behind oldpath newpath) = some (fs', events)) :
    ∃ m', stepNames m (.rename behind oldpath newpath) = some (m', events) ∧ RamfsNames fs' m' := by
  have hnew := h.lookup behind newpath.chars
  have hold := h.lookup behind oldpath.chars
  rw [stepRamfsNames, dfsRamfsRename] at hs
  rw [stepNames]
  by_cases htaken : skipSeparators newpath.chars = [] ∨ skipSeparators newpath.chars ∈ m
  · obtain ⟨node, hnode⟩ : ∃ node, dfsRamfsLookup fs behind newpath.chars = some node := by
      rw [hnew]
      split_ifs with hroot
      · exact ⟨_, rfl⟩
      · obtain ⟨d, hd⟩ := Finmap.mem_iff.1 (htaken.resolve_left hroot)
        exact ⟨.file d, by rw [hd, Option.map_some]⟩
    rw [hnode] at hs
    obtain ⟨rfl, rfl⟩ := Prod.mk.inj (Option.some.inj hs)
    exact ⟨m, if_pos htaken, h⟩
  obtain ⟨hroot, hfree⟩ := not_or.1 htaken
  have hlookup := Finmap.lookup_eq_none.2 hfree
  rw [if_neg hroot, hlookup, Option.map_none] at hnew
  rw [hnew] at hs
  rw [if_neg htaken]
  by_cases holdroot : skipSeparators oldpath.chars = []
  · rw [if_pos holdroot] at hold
    exact absurd holdroot (hfits ⟨hnew, by rw [hold, Option.isSome_some]⟩).1
  rw [if_neg holdroot] at hold
  cases holdlookup : m.lookup (skipSeparators oldpath.chars) with
  | none =>
    rw [holdlookup, Option.map_none] at hold
    rw [hold] at hs
    obtain ⟨rfl, rfl⟩ := Prod.mk.inj (Option.some.inj hs)
    exact ⟨m, rfl, h⟩
  | some d =>
    rw [holdlookup, Option.map_some] at hold
    obtain ⟨-, hskip, hlength⟩ := hfits ⟨hnew, by rw [hold, Option.isSome_some]⟩
    rw [hold] at hs
    obtain ⟨rfl, rfl⟩ := Prod.mk.inj (Option.some.inj hs)
    rw [hskip] at hroot hlookup ⊢
    obtain ⟨hnamed, hof⟩ := @named_of_strncpyName newpath.chars { fs.dirent d with name := strncpyName newpath.chars } rfl
      newpath.terminated hlength hroot hskip
    refine ⟨_, rfl, h.root, h.nodup, fun i hi => ?_, ?_⟩
    · change (update fs.dirent d _ i).Named
      by_cases hid : i = d
      · subst hid
        rwa [update_self]
      · rw [update_of_ne hid]
        exact h.named i hi
    · change Naming _ fs.files fun i => (update fs.dirent d _ i).nameOf
      rw [nameOf_update hof]
      exact h.naming.rename holdlookup hlookup

theorem RamfsNames.step (h : RamfsNames fs m) (hok : HeapFresh fs op ∧ NameFits fs op) (hs : stepRamfsNames fs op = some (fs', events)) :
    ∃ m', stepNames m op = some (m', events) ∧ RamfsNames fs' m' := by
  cases op with
  | «open» behind flags path memory => exact h.step_open hok.1 hok.2 hs
  | unlink behind path => exact h.step_unlink hok.2 hs
  | rename behind oldpath newpath => exact h.step_rename hok.2 hs

/-- In every run whose operations meet the condition, a ramfs that was empty is a finite map: it shows what the map shows, a path finds what the
map has under the name of the path, every file is found under its name, no two have the same one, and the root stays. -/
theorem ramfsNames_of_run {fs₀ fs : Ramfs} {trace : List RamfsNameEvent} (hfiles : fs₀.files = []) (hroot : fs₀.root = true)
    (hrun : Run stepRamfsNames (fun fs op => HeapFresh fs op ∧ NameFits fs op) fs₀ trace fs) :
    ∃ m : NameMap, Run stepNames (fun _ _ => True) ∅ trace m ∧
      (∀ behind path, dfsRamfsLookup fs behind path =
        if skipSeparators path = [] then some .root else (m.lookup (skipSeparators path)).map .file) ∧
      (∀ d ∈ fs.files, (fs.dirent d).Named ∧ m.lookup (fs.dirent d).nameOf = some d) ∧
      (fs.files.map fun d => (fs.dirent d).nameOf).Nodup ∧ fs.root = true := by
  have hstart : RamfsNames fs₀ ∅ := by
    refine ⟨hroot, ?_, ?_, ?_⟩
    · rw [hfiles]
      exact List.nodup_nil
    · rw [hfiles]
      intro d hd
      cases hd
    · rw [hfiles]
      exact Naming.empty
  obtain ⟨m, hmap, h⟩ := hrun.refines hstart fun _ _ op _ _ h hok hs => by
    obtain ⟨m', hm', h'⟩ := h.step hok hs
    exact ⟨op, m', hm', h'⟩
  exact ⟨m, hmap, h.lookup, fun d hd => ⟨h.named d hd, h.naming.lookup_name hd⟩, h.naming.nodup_map h.nodup, h.root⟩

def pathA : RamfsPath := ⟨['/', 'a'], by decide⟩

def pathB : RamfsPath := ⟨['/', 'b'], by decide⟩

def nameB : RamfsPath := ⟨['b'], by decide⟩

def emptyRamfs : Ramfs := ⟨[], fun _ => ⟨[], none, 0⟩, true⟩

/-- A file is created, and a name that is given without a separator becomes its new one. -/
theorem ramfsNames_of_run_renamed :
    ∃ m : NameMap, Run stepNames (fun _ _ => True) ∅
      [.opened ⟨true, false, false, false⟩ pathA.chars (some 1) (.ok 1), .renamed pathA.chars nameB.chars (.ok ())] m := by
  have hstart : Run stepRamfsNames (fun fs op => HeapFresh fs op ∧ NameFits fs op) emptyRamfs [] emptyRamfs := .start
  have hopen := hstart.next (a := .open (fun _ => []) ⟨true, false, false, false⟩ pathA (some 1))
    (by exact ⟨fun _ _ => List.not_mem_nil, fun _ => by decide⟩) rfl
  have hrename := hopen.next (a := .rename (fun _ => []) pathA nameB) (by exact ⟨trivial, fun _ => by decide⟩) rfl
  obtain ⟨m, hm, -⟩ := ramfsNames_of_run rfl rfl hrename
  exact ⟨m, hm⟩

/-- A file that is renamed as `rename` of the file system asks for is found under no path, and the root can be unlinked. -/
theorem ramfs_rename_lost :
    ∃ fs fs' : Ramfs, Run stepRamfsNames HeapFresh emptyRamfs
        [.opened ⟨true, false, false, false⟩ pathA.chars (some 1) (.ok 1), .renamed pathA.chars pathB.chars (.ok ())] fs ∧
      dfsRamfsLookup fs (fun _ => []) pathA.chars = none ∧ dfsRamfsLookup fs (fun _ => []) pathB.chars = none ∧
      stepRamfsNames fs (.unlink (fun _ => []) ⟨['/'], by decide⟩) = some (fs', [.unlinked ['/'] (.ok ())]) ∧ fs'.root = false := by
  have hstart : Run stepRamfsNames HeapFresh emptyRamfs [] emptyRamfs := .start
  have hopen := hstart.next (a := .open (fun _ => []) ⟨true, false, false, false⟩ pathA (some 1))
    (by exact fun _ _ => List.not_mem_nil) rfl
  have hrename := hopen.next (a := .rename (fun _ => []) pathA pathB) (by exact trivial) rfl
  exact ⟨_, _, hrename, by decide, by decide, rfl, rfl⟩

end RtThread
