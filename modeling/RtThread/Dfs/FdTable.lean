import Mathlib

/-!
# The table of file descriptors

`fd_alloc`, `fd_new`, `fd_get` and `fd_put` of `dfs.c`. A descriptor is in memory at an address, and an access to an address where no descriptor is has no result. Where the allocators find memory is given.
-/

namespace RtThread

open Function

/-- `struct dfs_fd`, as far as the table reads it. -/
structure DfsFd where
  magic : Nat
  refCount : Int
  deriving DecidableEq

def dfsFdMagic : Nat := 0xfdfd

/-- `struct dfs_fdtable`, of which `maxfd` is the length, and the memory its entries point to. -/
structure DfsFdTable where
  fds : List (Option Nat)
  mem : Nat → Option DfsFd

/-- `DFS_FD_MAX` and `DFS_FD_OFFSET` -/
structure DfsFdConfig where
  fdMax : Nat
  fdOffset : Nat

/-- What the allocators give to a call of `fd_alloc`. -/
structure FdMemory where
  realloc : Bool
  calloc : Option Nat
  deriving DecidableEq

/-- The first loop of `fd_alloc`. -/
def findFd (mem : Nat → Option DfsFd) : List (Option Nat) → Option Nat
  | [] => some 0
  | none :: _ => some 0
  | some d :: fds => (mem d).bind fun fd => if fd.refCount = 0 then some 0 else (findFd mem fds).map (· + 1)

def growFds (fdMax : Nat) (fds : List (Option Nat)) : List (Option Nat) := fds ++ List.replicate (min (fds.length + 4) fdMax - fds.length) none

/-- `fd_alloc` from the first descriptor on; the index is `maxfd` if there is none. -/
def fdAlloc (fdMax : Nat) (memory : FdMemory) (t : DfsFdTable) : Option (Nat × DfsFdTable) :=
  (findFd t.mem t.fds).map fun idx =>
    if idx = t.fds.length ∧ t.fds.length < fdMax ∧ memory.realloc = false then (idx, t)
    else
      let fds := if idx = t.fds.length ∧ t.fds.length < fdMax then growFds fdMax t.fds else t.fds
      if fds[idx]? = some none then
        match memory.calloc with
        | none => (fds.length, { t with fds := fds })
        | some d => (idx, { fds := fds.set idx (some d), mem := update t.mem d (some ⟨0, 0⟩) })
      else (idx, { t with fds := fds })

/-- `fd_new`, without the offset; nothing for the number that stands for an error. -/
def fdNew (fdMax : Nat) (memory : FdMemory) (t : DfsFdTable) : Option (Option Nat × DfsFdTable) :=
  (fdAlloc fdMax memory t).bind fun (idx, t) =>
    if idx = t.fds.length then some (none, t)
    else (t.fds[idx]?.join).bind fun d => (t.mem d).map fun _ => (some idx, { t with mem := update t.mem d (some ⟨dfsFdMagic, 1⟩) })

/-- `fd_get`: the address of the descriptor, nothing for `NULL`. -/
def fdGet (fdOffset : Nat) (fd : Int) (t : DfsFdTable) : Option (Option Nat × DfsFdTable) :=
  if fd - fdOffset < 0 ∨ t.fds.length ≤ fd - fdOffset then some (none, t)
  else
    (t.fds[(fd - fdOffset).toNat]?.join).bind fun d => (t.mem d).map fun entry =>
      if entry.magic ≠ dfsFdMagic then (none, t)
      else (some d, { t with mem := update t.mem d (some { entry with refCount := entry.refCount + 1 }) })

def fdPut (d : Nat) (t : DfsFdTable) : Option DfsFdTable :=
  (t.mem d).map fun entry =>
    if entry.refCount - 1 = 0 ∧ some d ∈ t.fds then
      { fds := t.fds.set (t.fds.idxOf (some d)) none, mem := update t.mem d none }
    else { t with mem := update t.mem d (some { entry with refCount := entry.refCount - 1 }) }

/-! ## Counted references -/

/-- Every descriptor in memory is in one entry, which has this many references. -/
structure Counts (fds : List (Option Nat)) (mem : Nat → Option DfsFd) (refs : Nat → Nat) : Prop where
  entry : ∀ n d : Nat, fds[n]? = some (some d) → 0 < refs n ∧ mem d = some ⟨dfsFdMagic, refs n⟩
  empty : ∀ n : Nat, (∀ d, fds[n]? ≠ some (some d)) → refs n = 0
  distinct : ∀ n m d : Nat, fds[n]? = some (some d) → fds[m]? = some (some d) → n = m
  stored : ∀ d, mem d ≠ none → ∃ n : Nat, fds[n]? = some (some d)

variable {t : DfsFdTable} {fds : List (Option Nat)} {mem : Nat → Option DfsFd} {refs : Nat → Nat} {n d fdMax fdOffset : Nat} {memory : FdMemory}

theorem findFd_eq (h : ∀ d, some d ∈ fds → ∃ entry, mem d = some entry ∧ entry.refCount ≠ 0) : findFd mem fds = some (fds.idxOf none) := by
  induction fds with
  | nil => rfl
  | cons slot fds ih =>
    cases slot with
    | none => rw [findFd, List.idxOf_cons_self]
    | some d =>
      obtain ⟨entry, hmem, hcount⟩ := h d List.mem_cons_self
      rw [findFd, hmem, Option.bind_some, if_neg hcount, ih fun e he => h e (List.mem_cons_of_mem _ he), List.idxOf_cons_ne _ (by simp)]
      rfl

theorem Counts.findFd_eq (h : Counts fds mem refs) : findFd mem fds = some (fds.idxOf none) := by
  apply RtThread.findFd_eq
  intro d hd
  obtain ⟨n, hn⟩ := List.mem_iff_getElem?.1 hd
  obtain ⟨hpos, hmem⟩ := h.entry n d hn
  exact ⟨_, hmem, by simp only; omega⟩

theorem Counts.grow (h : Counts fds mem refs) (k : Nat) : Counts (fds ++ List.replicate k none) mem refs := by
  have hold : ∀ n d : Nat, (fds ++ List.replicate k none)[n]? = some (some d) ↔ fds[n]? = some (some d) := by
    intro n d
    by_cases hn : n < fds.length
    · rw [List.getElem?_append_left hn]
    · rw [List.getElem?_append_right (Nat.le_of_not_lt hn), List.getElem?_eq_none (Nat.le_of_not_lt hn)]
      refine iff_of_false (fun heq => ?_) (fun heq => nomatch heq)
      have := List.eq_of_mem_replicate (List.mem_of_getElem? heq)
      cases this
  refine ⟨?_, ?_, ?_, ?_⟩
  · intro n d hn
    exact h.entry n d ((hold n d).1 hn)
  · intro n hn
    exact h.empty n fun d hd => hn d ((hold n d).2 hd)
  · intro n m d hn hm
    exact h.distinct n m d ((hold n d).1 hn) ((hold m d).1 hm)
  · intro d hd
    obtain ⟨n, hn⟩ := h.stored d hd
    exact ⟨n, (hold n d).2 hn⟩

theorem Counts.create (h : Counts fds mem refs) (hn : fds[n]? = some none) (hd : mem d = none) :
    Counts (fds.set n (some d)) (update mem d (some ⟨dfsFdMagic, 1⟩)) (update refs n 1) := by
  have hlt : n < fds.length := by
    by_contra hle
    rw [List.getElem?_eq_none (Nat.le_of_not_lt hle)] at hn
    cases hn
  have hfresh : ∀ m : Nat, fds[m]? ≠ some (some d) := by
    intro m hm
    rw [(h.entry m d hm).2] at hd
    cases hd
  refine ⟨?_, ?_, ?_, ?_⟩
  · intro m e hm
    by_cases hmn : m = n
    · subst hmn
      rw [List.getElem?_set_self hlt] at hm
      cases hm
      rw [update_self, update_self]
      exact ⟨Nat.one_pos, rfl⟩
    · rw [List.getElem?_set_ne (Ne.symm hmn)] at hm
      have hed : e ≠ d := fun heq => hfresh m (heq ▸ hm)
      rw [update_of_ne hmn, update_of_ne hed]
      exact h.entry m e hm
  · intro m hm
    by_cases hmn : m = n
    · subst hmn
      exact absurd (List.getElem?_set_self hlt) (hm d)
    · rw [update_of_ne hmn]
      refine h.empty m fun e he => hm e ?_
      rwa [List.getElem?_set_ne (Ne.symm hmn)]
  · intro m l e hm hl
    by_cases hmn : m = n <;> by_cases hln : l = n
    · rw [hmn, hln]
    · subst hmn
      rw [List.getElem?_set_self hlt] at hm
      cases hm
      rw [List.getElem?_set_ne (Ne.symm hln)] at hl
      exact absurd hl (hfresh l)
    · subst hln
      rw [List.getElem?_set_self hlt] at hl
      cases hl
      rw [List.getElem?_set_ne (Ne.symm hmn)] at hm
      exact absurd hm (hfresh m)
    · rw [List.getElem?_set_ne (Ne.symm hmn)] at hm
      rw [List.getElem?_set_ne (Ne.symm hln)] at hl
      exact h.distinct m l e hm hl
  · intro e he
    by_cases hed : e = d
    · exact ⟨n, hed ▸ List.getElem?_set_self hlt⟩
    · rw [update_of_ne hed] at he
      obtain ⟨m, hm⟩ := h.stored e he
      refine ⟨m, ?_⟩
      rw [List.getElem?_set_ne, hm]
      rintro rfl
      rw [hn] at hm
      cases hm

theorem Counts.recount (h : Counts fds mem refs) (hn : fds[n]? = some (some d)) {k : Nat} (hk : 0 < k) :
    Counts fds (update mem d (some ⟨dfsFdMagic, k⟩)) (update refs n k) := by
  refine ⟨?_, ?_, h.distinct, ?_⟩
  · intro m e hm
    by_cases hmn : m = n
    · subst hmn
      rw [hn] at hm
      cases hm
      rw [update_self, update_self]
      exact ⟨hk, rfl⟩
    · have hed : e ≠ d := fun heq => hmn (h.distinct m n d (heq ▸ hm) hn)
      rw [update_of_ne hmn, update_of_ne hed]
      exact h.entry m e hm
  · intro m hm
    have hmn : m ≠ n := by
      rintro rfl
      exact hm d hn
    rw [update_of_ne hmn]
    exact h.empty m hm
  · intro e he
    by_cases hed : e = d
    · exact ⟨n, hed ▸ hn⟩
    · rw [update_of_ne hed] at he
      exact h.stored e he

theorem Counts.free (h : Counts fds mem refs) (hn : fds[n]? = some (some d)) :
    Counts (fds.set n none) (update mem d none) (update refs n 0) := by
  have hset : ∀ m e : Nat, (fds.set n none)[m]? = some (some e) ↔ m ≠ n ∧ fds[m]? = some (some e) := by
    intro m e
    by_cases hmn : m = n
    · subst hmn
      rw [List.getElem?_set_self']
      refine iff_of_false (fun heq => ?_) fun hno => hno.1 rfl
      rw [hn] at heq
      cases heq
    · rw [List.getElem?_set_ne (Ne.symm hmn)]
      exact ⟨fun heq => ⟨hmn, heq⟩, fun heq => heq.2⟩
  refine ⟨?_, ?_, ?_, ?_⟩
  · intro m e hm
    obtain ⟨hmn, hm⟩ := (hset m e).1 hm
    have hed : e ≠ d := fun heq => hmn (h.distinct m n d (heq ▸ hm) hn)
    rw [update_of_ne hmn, update_of_ne hed]
    exact h.entry m e hm
  · intro m hm
    by_cases hmn : m = n
    · rw [hmn, update_self]
    · rw [update_of_ne hmn]
      exact h.empty m fun e he => hm e ((hset m e).2 ⟨hmn, he⟩)
  · intro m l e hm hl
    exact h.distinct m l e ((hset m e).1 hm).2 ((hset l e).1 hl).2
  · intro e he
    have hed : e ≠ d := by
      rintro rfl
      rw [update_self] at he
      exact he rfl
    rw [update_of_ne hed] at he
    obtain ⟨m, hm⟩ := h.stored e he
    refine ⟨m, (hset m e).2 ⟨?_, hm⟩⟩
    rintro rfl
    rw [hn] at hm
    exact hed (Option.some.inj (Option.some.inj hm)).symm

/-! ## What the functions do -/

theorem Counts.fdNew_eq (h : Counts t.fds t.mem refs) :
    ∃ k, fdNew fdMax memory t = some (none, { t with fds := t.fds ++ List.replicate k none }) ∨
      ∃ n d : Nat, (t.fds ++ List.replicate k none)[n]? = some none ∧ memory.calloc = some d ∧
        fdNew fdMax memory t = some (some n,
          { fds := (t.fds ++ List.replicate k none).set n (some d), mem := update t.mem d (some ⟨dfsFdMagic, 1⟩) }) := by
  rw [fdNew, fdAlloc, h.findFd_eq, Option.map_some, Option.bind_some]
  by_cases hfail : t.fds.idxOf none = t.fds.length ∧ t.fds.length < fdMax ∧ memory.realloc = false
  · refine ⟨0, Or.inl ?_⟩
    rw [if_pos hfail, List.replicate_zero, List.append_nil]
    dsimp only
    rw [if_pos hfail.1]
  rw [if_neg hfail]
  obtain ⟨k, hk⟩ : ∃ k, (if t.fds.idxOf none = t.fds.length ∧ t.fds.length < fdMax then growFds fdMax t.fds else t.fds) =
      t.fds ++ List.replicate k none := by
    by_cases hgrow : t.fds.idxOf none = t.fds.length ∧ t.fds.length < fdMax
    · exact ⟨_, if_pos hgrow⟩
    · exact ⟨0, by rw [if_neg hgrow, List.replicate_zero, List.append_nil]⟩
  refine ⟨k, ?_⟩
  rw [hk]
  dsimp only
  by_cases hempty : (t.fds ++ List.replicate k none)[t.fds.idxOf none]? = some none
  · rw [if_pos hempty]
    cases hcalloc : memory.calloc with
    | none =>
      left
      dsimp only
      rw [if_pos rfl]
    | some d =>
      right
      have hlt : t.fds.idxOf none < (t.fds ++ List.replicate k none).length := by
        by_contra hle
        rw [List.getElem?_eq_none (Nat.le_of_not_lt hle)] at hempty
        cases hempty
      refine ⟨t.fds.idxOf none, d, hempty, rfl, ?_⟩
      dsimp only
      rw [List.length_set, if_neg (Nat.ne_of_lt hlt), List.getElem?_set_self hlt, Option.join_some, Option.bind_some, update_self,
        Option.map_some, update_idem]
  · left
    rw [if_neg hempty]
    dsimp only
    rw [if_pos]
    by_contra hne
    apply hempty
    have hlt : t.fds.idxOf none < (t.fds ++ List.replicate k none).length := by
      have hle : t.fds.idxOf none ≤ t.fds.length := List.idxOf_le_length
      rw [List.length_append] at hne ⊢
      omega
    by_cases hin : t.fds.idxOf none < t.fds.length
    · rw [List.getElem?_append_left hin, List.getElem?_eq_getElem hin, List.getElem_idxOf]
    · rw [List.getElem?_append_right (Nat.le_of_not_lt hin), List.getElem?_replicate_of_lt]
      rw [List.length_append, List.length_replicate] at hlt
      omega

theorem fdGet_eq_null {fd : Int} (h : fd - fdOffset < 0 ∨ t.fds.length ≤ fd - fdOffset) : fdGet fdOffset fd t = some (none, t) := if_pos h

theorem Counts.fdGet_eq (h : Counts t.fds t.mem refs) (hn : t.fds[n]? = some (some d)) :
    fdGet fdOffset (n + fdOffset) t = some (some d, { t with mem := update t.mem d (some ⟨dfsFdMagic, ↑(refs n + 1)⟩) }) := by
  have hlt : n < t.fds.length := (List.getElem?_eq_some_iff.1 hn).1
  rw [fdGet, if_neg (by omega), Int.add_sub_cancel, Int.toNat_natCast, hn, Option.join_some, Option.bind_some, (h.entry n d hn).2,
    Option.map_some, if_neg (not_not_intro rfl)]
  rfl

theorem fdGet_eq_none (hn : t.fds[n]? = some none) : fdGet fdOffset (n + fdOffset) t = none := by
  have hlt : n < t.fds.length := (List.getElem?_eq_some_iff.1 hn).1
  rw [fdGet, if_neg (by omega), Int.add_sub_cancel, Int.toNat_natCast, hn]
  rfl

theorem Counts.fdPut_eq (h : Counts t.fds t.mem refs) (hn : t.fds[n]? = some (some d)) (hmany : 1 < refs n) :
    fdPut d t = some { t with mem := update t.mem d (some ⟨dfsFdMagic, ↑(refs n - 1)⟩) } := by
  rw [fdPut, (h.entry n d hn).2, Option.map_some, if_neg]
  · have hcast : ((refs n : Int) - 1) = ↑(refs n - 1) := by omega
    rw [hcast]
  · rintro ⟨hzero, -⟩
    simp only at hzero
    omega

theorem Counts.fdPut_last (h : Counts t.fds t.mem refs) (hn : t.fds[n]? = some (some d)) (hone : refs n = 1) :
    fdPut d t = some { fds := t.fds.set n none, mem := update t.mem d none } := by
  have hmem : some d ∈ t.fds := List.mem_of_getElem? hn
  have hidx : t.fds.idxOf (some d) = n := by
    refine h.distinct _ n d ?_ hn
    rw [List.getElem?_eq_getElem (List.idxOf_lt_length_of_mem hmem), List.getElem_idxOf]
  rw [fdPut, (h.entry n d hn).2, Option.map_some, if_pos ⟨by simp only [hone]; rfl, hmem⟩, hidx]

theorem Counts.fdPut_some (h : Counts t.fds t.mem refs) (hn : t.fds[n]? = some (some d)) :
    ∃ t', fdPut d t = some t' ∧ Counts t'.fds t'.mem (update refs n (refs n - 1)) ∧ (1 < refs n → t'.fds = t.fds) ∧
      (∀ m, m ≠ n → t'.fds[m]? = t.fds[m]?) ∧ (t'.mem d = none ↔ refs n = 1) ∧ ∀ e, e ≠ d → t'.mem e = t.mem e := by
  have hpos := (h.entry n d hn).1
  by_cases hone : refs n = 1
  · refine ⟨_, h.fdPut_last hn hone, ?_, ?_, ?_, ?_, ?_⟩
    · rw [hone]
      exact h.free hn
    · omega
    · exact fun m hm => List.getElem?_set_ne hm.symm
    · exact iff_of_true (update_self ..) hone
    · exact fun e he => update_of_ne he ..
  · refine ⟨_, h.fdPut_eq hn (by omega), h.recount hn (by omega), fun _ => rfl, fun _ _ => rfl, ?_, ?_⟩
    · refine iff_of_false (fun heq => ?_) hone
      dsimp only at heq
      rw [update_self] at heq
      cases heq
    · exact fun e he => update_of_ne he ..

end RtThread
