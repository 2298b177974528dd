import RtThread.Dfs.FdTable
import RtThread.Lib.Transition

/-!
# Threads and the table of descriptors

`open`, `close` and the calls between them that take a descriptor and put it back, cut where the lock of the table is let go. Each thread is in one call. With every entry goes whether its number is open: from `fd_new` on until the last `fd_put` of the `close`, or of an `open` that has failed.
-/

namespace RtThread

open Function Transition

/-- The call a thread is in, by what it does next. `n` is the index of the entry and `d` the address of the descriptor. -/
inductive FdCall
  | idle
  /-- `open`, before `fd_get` -/
  | created (n : Nat)
  /-- `open`, in `dfs_file_open` -/
  | opening (n d : Nat)
  /-- `open` that has failed, before the second `fd_put` -/
  | dropping (n d : Nat)
  /-- Another call, before `fd_put` -/
  | holding (n d : Nat)
  /-- `close`, in `dfs_file_close` -/
  | closing (n d : Nat)
  /-- `close`, before the second `fd_put` -/
  | closed (n d : Nat)
  deriving DecidableEq

namespace FdCall

/-- The reference from `fd_get` that the call has not yet put. -/
def ref : FdCall → Option (Nat × Nat)
  | opening n d | holding n d | closing n d => some (n, d)
  | _ => none

/-- The entry that is open because of this `open`, which has not returned. -/
def creates : FdCall → Option Nat
  | created n | opening n _ | dropping n _ => some n
  | _ => none

def points : FdCall → Option (Nat × Nat)
  | opening n d | holding n d | closing n d | dropping n d => some (n, d)
  | _ => none

/-- The descriptor whose reference by its number a `close` puts. -/
def ends : FdCall → Option (Nat × Nat)
  | closed n d => some (n, d)
  | _ => none

@[simp] theorem ref_idle : idle.ref = none := rfl

@[simp] theorem ref_created (n : Nat) : (created n).ref = none := rfl

@[simp] theorem creates_idle : idle.creates = none := rfl

@[simp] theorem creates_created (n : Nat) : (created n).creates = some n := rfl

end FdCall

structure FdSystem where
  table : DfsFdTable
  calls : List FdCall
  isOpen : Nat → Bool

inductive FdAction
  | fdNew (memory : FdMemory)
  | fdGet
  /-- `dfs_file_open` returns, and the first `fd_put` -/
  | fileOpen (ok : Bool)
  | get (fd : Int)
  | close (fd : Int)
  /-- `dfs_file_close` returns, and the first `fd_put` -/
  | fileClose (ok : Bool)
  | fdPut
  deriving DecidableEq

namespace FdSystem

/-- `fd_get` of the number, for a call that goes on with the descriptor or returns. -/
def acquire (cfg : DfsFdConfig) (s : FdSystem) (i : Nat) (fd : Int) (next : Nat → Nat → FdCall) : Option FdSystem :=
  (RtThread.fdGet cfg.fdOffset fd s.table).map fun
    | (none, table) => { s with table := table }
    | (some d, table) => { s with table := table, calls := s.calls.set i (next (fd - cfg.fdOffset).toNat d) }

/-- `fd_put` of a reference from `fd_get`. -/
def release (s : FdSystem) (i d : Nat) (next : FdCall) : Option FdSystem :=
  (RtThread.fdPut d s.table).map fun table => { s with table := table, calls := s.calls.set i next }

/-- `fd_put` of the reference that the open number has. -/
def drop (s : FdSystem) (i n d : Nat) : Option FdSystem :=
  (RtThread.fdPut d s.table).map fun table =>
    { table := table, calls := s.calls.set i .idle, isOpen := update s.isOpen n false }

def perform (cfg : DfsFdConfig) (s : FdSystem) (i : Nat) : FdCall → FdAction → Option FdSystem
  | .idle, .fdNew memory =>
    if memory.calloc.any (fun d => (s.table.mem d).isSome) = true then none
    else (RtThread.fdNew cfg.fdMax memory s.table).map fun
      | (none, table) => { s with table := table }
      | (some n, table) => { table := table, calls := s.calls.set i (.created n), isOpen := update s.isOpen n true }
  | .created n, .fdGet => (RtThread.fdGet cfg.fdOffset (n + cfg.fdOffset) s.table).bind fun
      | (none, _) => none -- `fd_put(NULL)`
      | (some d, table) => some { s with table := table, calls := s.calls.set i (.opening n d) }
  | .opening n d, .fileOpen ok => s.release i d (if ok = true then .idle else .dropping n d)
  | .dropping n d, .fdPut => s.drop i n d
  | .idle, .get fd => s.acquire cfg i fd .holding
  | .holding _ d, .fdPut => s.release i d .idle
  | .idle, .close fd => s.acquire cfg i fd .closing
  | .closing n d, .fileClose ok => s.release i d (if ok = true then .closed n d else .idle)
  | .closed n d, .fdPut => s.drop i n d
  | _, _ => none

def step (cfg : DfsFdConfig) (s : FdSystem) (a : Nat × FdAction) : Option (FdSystem × List Empty) :=
  s.calls[a.1]?.bind fun c => (s.perform cfg a.1 c a.2).map fun s => (s, [])

/-- The `close` of this descriptor may drop the reference that the open number has. -/
def MayDrop (s : FdSystem) (n d : Nat) : Prop :=
  s.isOpen n = true ∧ s.table.fds[n]? = some (some d) ∧ ∀ c ∈ s.calls, c.creates ≠ some n

instance (s : FdSystem) (n d : Nat) : Decidable (s.MayDrop n d) := inferInstanceAs (Decidable (_ ∧ _))

/-- A `close` ends on a number that is still open, by an `open` that has returned. -/
def ClosesOnce (s : FdSystem) (a : Nat × FdAction) : Prop :=
  ∀ p ∈ s.calls[a.1]?.bind FdCall.ends, a.2 = .fdPut → s.MayDrop p.1 p.2

instance (s : FdSystem) (a : Nat × FdAction) : Decidable (s.ClosesOnce a) := inferInstanceAs (Decidable (∀ p ∈ _, _))

def initial (threads : Nat) : FdSystem := ⟨⟨[], fun _ => none⟩, List.replicate threads .idle, fun _ => false⟩

abbrev FdRun (cfg : DfsFdConfig) (threads : Nat) : List Empty → FdSystem → Prop := Run (step cfg) ClosesOnce (initial threads)

/-- The references to the descriptor in an entry: one of each call that has not put it, and one because its number is open. -/
def refs (s : FdSystem) (n : Nat) : Nat := s.calls.countP (fun c => c.ref.map Prod.fst = some n) + (s.isOpen n).toNat

end FdSystem

open FdSystem

structure FdInv (s : FdSystem) : Prop where
  counts : Counts s.table.fds s.table.mem s.refs
  points : ∀ c ∈ s.calls, ∀ n d : Nat, c.points = some (n, d) → s.table.fds[n]? = some (some d)
  creates : ∀ c ∈ s.calls, ∀ n, c.creates = some n → s.isOpen n = true
  once : ∀ n, s.calls.countP (fun c => c.creates = some n) ≤ 1

namespace FdInv

variable {s : FdSystem} {i n d : Nat} {c c' : FdCall}

theorem points_of_ref {c : FdCall} (h : c.ref = some (n, d)) : c.points = some (n, d) := by
  cases c <;> first | exact h | exact nomatch h

theorem mem_of_getElem? (hi : s.calls[i]? = some c) : c ∈ s.calls := List.mem_of_getElem? hi

theorem countP_set_add {calls : List FdCall} (p : FdCall → Bool) (hi : calls[i]? = some c) :
    (calls.set i c').countP p + (p c).toNat = calls.countP p + (p c').toNat := by
  obtain ⟨hlt, rfl⟩ := List.getElem?_eq_some_iff.1 hi
  have hle : (p calls[i]).toNat ≤ calls.countP p := by
    cases hp : p calls[i] with
    | false => exact Nat.zero_le _
    | true => exact List.countP_pos_iff.2 ⟨_, List.getElem_mem hlt, hp⟩
  rw [List.countP_set hlt]
  cases hp : p calls[i] <;> cases p c' <;> rw [hp] at hle <;>
    simp only [Bool.toNat_true, Bool.toNat_false, if_true, Bool.false_eq_true, if_false] at hle ⊢ <;> omega

theorem refs_pos_of_ref (hc : c ∈ s.calls) (href : c.ref = some (n, d)) : 0 < s.refs n := by
  have hpos : 0 < s.calls.countP (fun c => c.ref.map Prod.fst = some n) := by
    refine List.countP_pos_iff.2 ⟨c, hc, ?_⟩
    rw [href]
    exact decide_eq_true rfl
  exact Nat.lt_of_lt_of_le hpos (Nat.le_add_right _ _)

theorem refs_pos_of_isOpen (hopen : s.isOpen n = true) : 0 < s.refs n := by
  rw [refs, hopen]
  exact Nat.succ_pos _

theorem refs_pos_of_points (hc : c ∈ s.calls) (hpoints : c.points = some (n, d)) (hcreates : c.creates = some n → s.isOpen n = true) :
    0 < s.refs n := by
  cases c with
  | dropping m e =>
    obtain ⟨rfl, rfl⟩ := Prod.mk.inj (Option.some.inj hpoints)
    exact refs_pos_of_isOpen (hcreates rfl)
  | opening m e => exact refs_pos_of_ref hc hpoints
  | holding m e => exact refs_pos_of_ref hc hpoints
  | closing m e => exact refs_pos_of_ref hc hpoints
  | _ => exact nomatch hpoints

theorem fds_of_refs_pos (h : FdInv s) (hpos : 0 < s.refs n) : ∃ d, s.table.fds[n]? = some (some d) := by
  by_contra hno
  rw [h.counts.empty n fun d hd => hno ⟨d, hd⟩] at hpos
  exact Nat.lt_irrefl 0 hpos

theorem fds_of_isOpen (h : FdInv s) (hopen : s.isOpen n = true) : ∃ d, s.table.fds[n]? = some (some d) :=
  h.fds_of_refs_pos (refs_pos_of_isOpen hopen)

/-! ## Steps -/

variable {t : DfsFdTable}

theorem refs_set (hi : s.calls[i]? = some c) (isOpen : Nat → Bool) (m : Nat) :
    FdSystem.refs ⟨t, s.calls.set i c', isOpen⟩ m + (decide (c.ref.map Prod.fst = some m)).toNat + (s.isOpen m).toNat =
      s.refs m + (decide (c'.ref.map Prod.fst = some m)).toNat + (isOpen m).toNat := by
  have hcount := @countP_set_add i c c' s.calls (fun c => c.ref.map Prod.fst = some m) hi
  simp only [refs] at hcount ⊢
  omega

theorem once_set (h : FdInv s) (hi : s.calls[i]? = some c) (hcreates : ∀ m, c'.creates = some m → c.creates = some m) (m : Nat) :
    (s.calls.set i c').countP (fun c => c.creates = some m) ≤ 1 := by
  have hcount := @countP_set_add i c c' s.calls (fun c => c.creates = some m) hi
  have honce := h.once m
  have hle : (decide (c'.creates = some m)).toNat ≤ (decide (c.creates = some m)).toNat := by
    by_cases hm : c'.creates = some m
    · simp [hm, hcreates m hm]
    · simp [hm]
  omega

theorem acquired (h : FdInv s) (hi : s.calls[i]? = some c) (href : c.ref = none) (hn : s.table.fds[n]? = some (some d))
    (href' : c'.ref = some (n, d)) (hcreates : ∀ m, c'.creates = some m → c.creates = some m) (hfds : t.fds = s.table.fds)
    (ht : Counts t.fds t.mem (update s.refs n (s.refs n + 1))) : FdInv ⟨t, s.calls.set i c', s.isOpen⟩ := by
  refine ⟨?_, ?_, ?_, h.once_set hi hcreates⟩
  · have hrefs : FdSystem.refs ⟨t, s.calls.set i c', s.isOpen⟩ = update s.refs n (s.refs n + 1) := by
      funext m
      have hset := @refs_set s i c c' t hi s.isOpen m
      rw [href, href'] at hset
      by_cases hm : m = n
      · subst hm
        rw [update_self]
        simp at hset
        omega
      · rw [update_of_ne hm]
        simp [Ne.symm hm] at hset
        omega
    rw [hrefs]
    exact ht
  · intro e he m d' hpoints
    dsimp only
    rw [hfds]
    rcases List.mem_or_eq_of_mem_set he with he | rfl
    · exact h.points e he m d' hpoints
    · rw [points_of_ref href'] at hpoints
      cases hpoints
      exact hn
  · intro e he m hm
    rcases List.mem_or_eq_of_mem_set he with he | rfl
    · exact h.creates e he m hm
    · exact h.creates c (mem_of_getElem? hi) m (hcreates m hm)

theorem put (h : FdInv s) (hi : s.calls[i]? = some c) {isOpen : Nat → Bool} (hn : s.table.fds[n]? = some (some d))
    (hrefs : FdSystem.refs ⟨t, s.calls.set i c', isOpen⟩ = update s.refs n (s.refs n - 1))
    (hpoints : ∀ m e : Nat, c'.points = some (m, e) → s.table.fds[m]? = some (some e))
    (hcreates : ∀ m, c'.creates = some m → c.creates = some m)
    (hopen : ∀ e ∈ s.calls.set i c', ∀ m, e.creates = some m → isOpen m = true) (hput : fdPut d s.table = some t) :
    FdInv ⟨t, s.calls.set i c', isOpen⟩ := by
  obtain ⟨t', hput', hcounts, hmany, hother, -⟩ := h.counts.fdPut_some hn
  obtain rfl := Option.some.inj (hput.symm.trans hput')
  refine ⟨?_, ?_, hopen, h.once_set hi hcreates⟩
  · rw [hrefs]
    exact hcounts
  · intro e he m d' hpoints'
    have hold : s.table.fds[m]? = some (some d') := by
      rcases List.mem_or_eq_of_mem_set he with hmem | rfl
      · exact h.points e hmem m d' hpoints'
      · exact hpoints m d' hpoints'
    dsimp only
    by_cases hm : m = n
    · subst hm
      have hpos := @refs_pos_of_points ⟨t, s.calls.set i c', isOpen⟩ m d' e he hpoints' (hopen e he m)
      rw [hrefs, update_self] at hpos
      rw [hmany (by omega)]
      exact hold
    · rw [hother m hm]
      exact hold

theorem released (h : FdInv s) (hi : s.calls[i]? = some c) (href : c.ref = some (n, d)) (href' : c'.ref = none)
    (hpoints : ∀ m e : Nat, c'.points = some (m, e) → s.table.fds[m]? = some (some e))
    (hcreates : ∀ m, c'.creates = some m → c.creates = some m) (hput : fdPut d s.table = some t) :
    FdInv ⟨t, s.calls.set i c', s.isOpen⟩ := by
  have hc := mem_of_getElem? hi
  refine h.put hi (h.points c hc n d (points_of_ref href)) ?_ hpoints hcreates ?_ hput
  · funext m
    have hset := @refs_set s i c c' t hi s.isOpen m
    rw [href, href'] at hset
    by_cases hm : m = n
    · subst hm
      rw [update_self]
      simp at hset
      omega
    · rw [update_of_ne hm]
      simp [Ne.symm hm] at hset
      omega
  · intro e he m hm
    rcases List.mem_or_eq_of_mem_set he with he | rfl
    · exact h.creates e he m hm
    · exact h.creates c hc m (hcreates m hm)

theorem dropped (h : FdInv s) (hi : s.calls[i]? = some c) (href : c.ref = none) (hopen : s.isOpen n = true)
    (hn : s.table.fds[n]? = some (some d)) (hothers : ∀ e ∈ s.calls.set i .idle, e.creates ≠ some n) (hput : fdPut d s.table = some t) :
    FdInv ⟨t, s.calls.set i .idle, update s.isOpen n false⟩ := by
  refine h.put hi hn ?_ (fun _ _ hno => nomatch hno) (fun _ hno => nomatch hno) ?_ hput
  · funext m
    have hset := @refs_set s i c .idle t hi (update s.isOpen n false) m
    rw [href] at hset
    by_cases hm : m = n
    · subst hm
      rw [update_self, hopen] at hset
      rw [update_self]
      simp at hset
      omega
    · rw [update_of_ne hm] at hset ⊢
      simp at hset
      omega
  · intro e he m hm
    have hmn : m ≠ n := by
      rintro rfl
      exact hothers e he hm
    rw [update_of_ne hmn]
    rcases List.mem_or_eq_of_mem_set he with he | rfl
    · exact h.creates e he m hm
    · exact nomatch hm

theorem getElem?_grown {fds : List (Option Nat)} (hn : fds[n]? = some (some d)) (k : Nat) :
    (fds ++ List.replicate k none)[n]? = some (some d) := by
  rw [List.getElem?_append_left (List.getElem?_eq_some_iff.1 hn).1, hn]

theorem grown (h : FdInv s) (k : Nat) : FdInv { s with table := { s.table with fds := s.table.fds ++ List.replicate k none } } :=
  ⟨h.counts.grow k, fun c hc n d hpoints => getElem?_grown (h.points c hc n d hpoints) k, h.creates, h.once⟩

theorem refs_eq_zero (h : FdInv s) {k : Nat} (hn : (s.table.fds ++ List.replicate k none)[n]? = some none) : s.refs n = 0 := by
  refine h.counts.empty n fun d hd => ?_
  rw [getElem?_grown hd k] at hn
  cases hn

theorem created (h : FdInv s) (hi : s.calls[i]? = some .idle) {k : Nat} (hn : (s.table.fds ++ List.replicate k none)[n]? = some none)
    (hd : s.table.mem d = none) :
    FdInv ⟨⟨(s.table.fds ++ List.replicate k none).set n (some d), update s.table.mem d (some ⟨dfsFdMagic, 1⟩)⟩,
      s.calls.set i (.created n), update s.isOpen n true⟩ := by
  have hzero := h.refs_eq_zero hn
  have hclosed : s.isOpen n = false := by
    by_contra hopen
    rw [Bool.not_eq_false] at hopen
    exact absurd hzero (Nat.ne_of_gt (refs_pos_of_isOpen hopen))
  have hcalls : ∀ c ∈ s.calls, c.creates ≠ some n := by
    intro c hc hcreates
    rw [h.creates c hc n hcreates] at hclosed
    cases hclosed
  have hold : ∀ m e : Nat, s.table.fds[m]? = some (some e) → ((s.table.fds ++ List.replicate k none).set n (some d))[m]? = some (some e) := by
    intro m e hm
    rw [List.getElem?_set_ne, getElem?_grown hm k]
    rintro rfl
    rw [getElem?_grown hm k] at hn
    cases hn
  refine ⟨?_, ?_, ?_, ?_⟩
  · have hrefs : FdSystem.refs ⟨⟨(s.table.fds ++ List.replicate k none).set n (some d), update s.table.mem d (some ⟨dfsFdMagic, 1⟩)⟩,
        s.calls.set i (.created n), update s.isOpen n true⟩ = update s.refs n 1 := by
      funext m
      have hset := @refs_set s i .idle (.created n)
        ⟨(s.table.fds ++ List.replicate k none).set n (some d), update s.table.mem d (some ⟨dfsFdMagic, 1⟩)⟩ hi
        (update s.isOpen n true) m
      by_cases hm : m = n
      · subst hm
        rw [hclosed, hzero, update_self] at hset
        rw [update_self]
        simp at hset
        omega
      · rw [update_of_ne hm] at hset ⊢
        simp at hset
        omega
    rw [hrefs]
    exact (h.counts.grow k).create hn hd
  · intro c hc m e hpoints
    rcases List.mem_or_eq_of_mem_set hc with hc | rfl
    · exact hold m e (h.points c hc m e hpoints)
    · exact nomatch hpoints
  · intro c hc m hm
    by_cases hmn : m = n
    · rw [hmn]
      exact update_self ..
    · dsimp only
      rw [update_of_ne hmn]
      rcases List.mem_or_eq_of_mem_set hc with hc | rfl
      · exact h.creates c hc m hm
      · exact absurd (Option.some.inj hm).symm hmn
  · intro m
    have hcount := @countP_set_add i .idle (.created n) s.calls (fun c => c.creates = some m) hi
    have honce := h.once m
    by_cases hm : m = n
    · subst hm
      have hnone : s.calls.countP (fun c => c.creates = some m) = 0 :=
        List.countP_eq_zero.2 fun c hc => by simpa using hcalls c hc
      simp [hnone] at hcount ⊢
      omega
    · simp [Ne.symm hm] at hcount
      simp only
      omega

theorem creates_other (h : FdInv s) (hi : s.calls[i]? = some c) (hc : c.creates = some n) :
    ∀ e ∈ s.calls.set i .idle, e.creates ≠ some n := by
  intro e he hcreates
  have hcount := @countP_set_add i c .idle s.calls (fun c => c.creates = some n) hi
  have honce := h.once n
  have hpos : 0 < (s.calls.set i .idle).countP (fun c => c.creates = some n) :=
    List.countP_pos_iff.2 ⟨e, he, decide_eq_true hcreates⟩
  simp [hc] at hcount
  omega

variable {cfg : DfsFdConfig} {s' : FdSystem} {a : Nat × FdAction}

theorem acquire_some (h : FdInv s) {fd : Int} {next : Nat → Nat → FdCall} (hs : s.acquire cfg i fd next = some s') :
    s' = s ∨ ∃ n d t, s.table.fds[n]? = some (some d) ∧ t.fds = s.table.fds ∧
      Counts t.fds t.mem (update s.refs n (s.refs n + 1)) ∧ s' = ⟨t, s.calls.set i (next n d), s.isOpen⟩ := by
  rw [acquire] at hs
  by_cases hrange : fd - cfg.fdOffset < 0 ∨ s.table.fds.length ≤ fd - cfg.fdOffset
  · rw [fdGet_eq_null hrange] at hs
    exact Or.inl (Option.some.inj hs).symm
  · right
    obtain ⟨n, hn⟩ : ∃ n : Nat, fd = n + cfg.fdOffset := ⟨(fd - cfg.fdOffset).toNat, by omega⟩
    have hlt : n < s.table.fds.length := by omega
    rw [hn] at hs
    cases hslot : s.table.fds[n]? with
    | none =>
      rw [List.getElem?_eq_getElem hlt] at hslot
      cases hslot
    | some slot =>
      cases slot with
      | none =>
        rw [fdGet_eq_none hslot] at hs
        cases hs
      | some d =>
        rw [h.counts.fdGet_eq hslot, Option.map_some, Int.add_sub_cancel, Int.toNat_natCast] at hs
        exact ⟨n, d, { s.table with mem := update s.table.mem d (some ⟨dfsFdMagic, ↑(s.refs n + 1)⟩) }, hslot, rfl,
          h.counts.recount hslot (Nat.succ_pos _), (Option.some.inj hs).symm⟩

theorem step (h : FdInv s) (hok : s.ClosesOnce a) {events : List Empty} (hs : s.step cfg a = some (s', events)) : FdInv s' := by
  obtain ⟨i, action⟩ := a
  obtain ⟨c, hi, hs⟩ := Option.bind_eq_some_iff.1 hs
  obtain ⟨_, hperform, heq⟩ := Option.map_eq_some_iff.1 hs
  obtain ⟨rfl, -⟩ := Prod.mk.inj heq
  clear hs
  rename' hperform => hs
  change s.calls[i]? = some c at hi
  have hc := mem_of_getElem? hi
  cases c with
  | idle =>
    cases action with
    | fdNew memory =>
      rw [perform] at hs
      by_cases hfresh : memory.calloc.any (fun d => (s.table.mem d).isSome) = true
      · rw [if_pos hfresh] at hs
        cases hs
      rw [if_neg hfresh] at hs
      obtain ⟨k, hnew | ⟨n, d, hn, hcalloc, hnew⟩⟩ := @Counts.fdNew_eq s.table s.refs cfg.fdMax memory h.counts
      · rw [hnew] at hs
        obtain rfl := Option.some.inj hs
        exact h.grown k
      · rw [hnew] at hs
        obtain rfl := Option.some.inj hs
        refine h.created hi hn ?_
        rw [hcalloc] at hfresh
        simpa using hfresh
    | get fd =>
      obtain rfl | ⟨n, d, t, hn, hfds, ht, rfl⟩ := h.acquire_some hs
      · exact h
      · exact h.acquired hi rfl hn rfl (fun _ hno => nomatch hno) hfds ht
    | close fd =>
      obtain rfl | ⟨n, d, t, hn, hfds, ht, rfl⟩ := h.acquire_some hs
      · exact h
      · exact h.acquired hi rfl hn rfl (fun _ hno => nomatch hno) hfds ht
    | _ => cases hs
  | created n =>
    cases action with
    | fdGet =>
      obtain ⟨d, hn⟩ := h.fds_of_isOpen (h.creates _ hc n rfl)
      rw [perform, h.counts.fdGet_eq hn] at hs
      obtain rfl := Option.some.inj hs
      exact h.acquired hi rfl hn rfl (fun _ hm => hm) rfl (h.counts.recount hn (Nat.succ_pos _))
    | _ => cases hs
  | opening n d =>
    cases action with
    | fileOpen ok =>
      obtain ⟨t, hput, rfl⟩ := Option.map_eq_some_iff.1 hs
      cases ok with
      | true => exact h.released hi rfl rfl (fun _ _ hno => nomatch hno) (fun _ hno => nomatch hno) hput
      | false =>
        refine h.released hi rfl rfl (fun m e hpoints => ?_) (fun _ hm => hm) hput
        exact h.points _ hc m e hpoints
    | _ => cases hs
  | dropping n d =>
    cases action with
    | fdPut =>
      obtain ⟨t, hput, rfl⟩ := Option.map_eq_some_iff.1 hs
      exact h.dropped hi rfl (h.creates _ hc n rfl) (h.points _ hc n d rfl) (h.creates_other hi rfl) hput
    | _ => cases hs
  | holding n d =>
    cases action with
    | fdPut =>
      obtain ⟨t, hput, rfl⟩ := Option.map_eq_some_iff.1 hs
      exact h.released hi rfl rfl (fun _ _ hno => nomatch hno) (fun _ hno => nomatch hno) hput
    | _ => cases hs
  | closing n d =>
    cases action with
    | fileClose ok =>
      obtain ⟨t, hput, rfl⟩ := Option.map_eq_some_iff.1 hs
      refine h.released hi rfl ?_ ?_ ?_ hput
      · cases ok <;> rfl
      · cases ok <;> exact fun _ _ hno => nomatch hno
      · cases ok <;> exact fun _ hno => nomatch hno
    | _ => cases hs
  | closed n d =>
    cases action with
    | fdPut =>
      obtain ⟨t, hput, rfl⟩ := Option.map_eq_some_iff.1 hs
      have hends : (n, d) ∈ s.calls[i]?.bind FdCall.ends := by
        rw [hi]
        rfl
      obtain ⟨hopen, hn, hothers⟩ := hok (n, d) hends rfl
      refine h.dropped hi rfl hopen hn (fun e he => ?_) hput
      rcases List.mem_or_eq_of_mem_set he with he | rfl
      · exact hothers e he
      · exact fun hno => nomatch hno
    | _ => cases hs

end FdInv

theorem fdInv_initial (threads : Nat) : FdInv (.initial threads) := by
  have hcalls : ∀ c ∈ (FdSystem.initial threads).calls, c = .idle := fun c hc => List.eq_of_mem_replicate hc
  refine ⟨⟨?_, ?_, ?_, ?_⟩, ?_, ?_, ?_⟩
  · exact fun _ _ hno => nomatch hno
  · intro n _
    have hzero : (FdSystem.initial threads).calls.countP (fun c => c.ref.map Prod.fst = some n) = 0 := by
      refine List.countP_eq_zero.2 fun c hc => ?_
      rw [hcalls c hc]
      simp
    rw [refs, hzero]
    rfl
  · exact fun _ _ _ hno => nomatch hno
  · exact fun _ hno => absurd rfl hno
  · intro c hc n d hpoints
    rw [hcalls c hc] at hpoints
    cases hpoints
  · intro c hc n hcreates
    rw [hcalls c hc] at hcreates
    cases hcreates
  · intro n
    have hzero : (FdSystem.initial threads).calls.countP (fun c => c.creates = some n) = 0 := by
      refine List.countP_eq_zero.2 fun c hc => ?_
      rw [hcalls c hc]
      simp
    rw [hzero]
    exact Nat.zero_le _

theorem fdInv_of_run {cfg : DfsFdConfig} {threads : Nat} {trace : List Empty} {s : FdSystem} (hrun : FdRun cfg threads trace s) : FdInv s :=
  hrun.state_invariant (fdInv_initial threads) fun _ _ _ _ h hok hs => h.step hok hs

/-! ## What holds in every state -/

variable {cfg : DfsFdConfig} {s : FdSystem}

def FdOpen (cfg : DfsFdConfig) (s : FdSystem) (fd : Int) : Prop := ∃ n : Nat, fd = n + cfg.fdOffset ∧ s.isOpen n = true

def FdInTable (cfg : DfsFdConfig) (s : FdSystem) (fd : Int) : Prop := 0 ≤ fd - cfg.fdOffset ∧ fd - cfg.fdOffset < s.table.fds.length

/-- `fd_get` gives a descriptor just if the number is open, and `NULL` otherwise, with nothing changed. -/
def GetsRight (cfg : DfsFdConfig) (s : FdSystem) (fd : Int) : Prop :=
  ∃ r t, fdGet cfg.fdOffset fd s.table = some (r, t) ∧ (r.isSome = true ↔ FdOpen cfg s fd) ∧ (r = none → t = s.table)

theorem getsRight_iff (h : FdInv s) (fd : Int) : GetsRight cfg s fd ↔ (FdInTable cfg s fd → FdOpen cfg s fd) := by
  constructor
  · rintro ⟨r, t, hget, hopen, -⟩ ⟨hlow, hhigh⟩
    obtain ⟨n, hn⟩ : ∃ n : Nat, fd = n + cfg.fdOffset := ⟨(fd - cfg.fdOffset).toNat, by omega⟩
    have hlt : n < s.table.fds.length := by omega
    subst hn
    cases hslot : s.table.fds[n] with
    | none =>
      rw [fdGet_eq_none (by rw [List.getElem?_eq_getElem hlt, hslot])] at hget
      cases hget
    | some d =>
      rw [h.counts.fdGet_eq (by rw [List.getElem?_eq_getElem hlt, hslot])] at hget
      obtain ⟨rfl, -⟩ := Prod.mk.inj (Option.some.inj hget)
      exact hopen.1 rfl
  · intro hopen
    by_cases hin : FdInTable cfg s fd
    · obtain ⟨n, rfl, hn⟩ := hopen hin
      obtain ⟨d, hd⟩ := h.fds_of_isOpen hn
      exact ⟨_, _, h.counts.fdGet_eq hd, iff_of_true rfl ⟨n, rfl, hn⟩, fun hno => nomatch hno⟩
    · refine ⟨none, s.table, fdGet_eq_null ?_, iff_of_false (fun hno => nomatch hno) ?_, fun _ => rfl⟩
      · rw [FdInTable] at hin
        omega
      · rintro ⟨n, rfl, hn⟩
        obtain ⟨d, hd⟩ := h.fds_of_isOpen hn
        have hlt := (List.getElem?_eq_some_iff.1 hd).1
        exact hin ⟨by omega, by omega⟩

theorem fdNew_keeps (h : FdInv s) {memory : FdMemory} (hfresh : ∀ d, memory.calloc = some d → s.table.mem d = none) :
    ∃ r t, fdNew cfg.fdMax memory s.table = some (r, t) ∧ (∀ n, r = some n → s.refs n = 0) ∧
      ∀ n d : Nat, s.table.fds[n]? = some (some d) → t.fds[n]? = some (some d) ∧ t.mem d = s.table.mem d := by
  obtain ⟨k, hnew | ⟨n, d, hn, hcalloc, hnew⟩⟩ := @Counts.fdNew_eq s.table s.refs cfg.fdMax memory h.counts
  · refine ⟨_, _, hnew, ?_, fun m e hm => ⟨FdInv.getElem?_grown hm k, rfl⟩⟩
    exact fun _ hno => nomatch hno
  · refine ⟨_, _, hnew, ?_, fun m e hm => ⟨?_, ?_⟩⟩
    · intro m hm
      obtain rfl := Option.some.inj hm
      exact h.refs_eq_zero hn
    · dsimp only
      rw [List.getElem?_set_ne, FdInv.getElem?_grown hm k]
      rintro rfl
      rw [FdInv.getElem?_grown hm k] at hn
      cases hn
    · refine update_of_ne ?_ ..
      rintro rfl
      have hnone := hfresh e hcalloc
      rw [(h.counts.entry m e hm).2] at hnone
      cases hnone

/-- In every state that is reached without closing a descriptor twice: `fd_get` is right for the numbers that are open or outside the table, `fd_new` gives a number that nobody refers to, a put frees just the last reference, and all memory is referred to. -/
theorem fdTable_of_run {threads : Nat} {trace : List Empty} (hrun : FdRun cfg threads trace s) :
    (∀ fd, GetsRight cfg s fd ↔ (FdInTable cfg s fd → FdOpen cfg s fd)) ∧
    (∀ memory : FdMemory, (∀ d, memory.calloc = some d → s.table.mem d = none) →
      ∃ r t, fdNew cfg.fdMax memory s.table = some (r, t) ∧ (∀ n, r = some n → s.refs n = 0) ∧
        ∀ n d : Nat, s.table.fds[n]? = some (some d) → t.fds[n]? = some (some d) ∧ t.mem d = s.table.mem d) ∧
    (∀ c ∈ s.calls, ∀ n d : Nat, c.points = some (n, d) ∨ c.ends = some (n, d) ∧ s.MayDrop n d →
      ∃ t, fdPut d s.table = some t ∧ (t.mem d = none ↔ s.refs n = 1) ∧ ∀ e, e ≠ d → t.mem e = s.table.mem e) ∧
    ∀ d, s.table.mem d ≠ none → ∃ n : Nat, s.table.fds[n]? = some (some d) ∧ 0 < s.refs n := by
  have h := fdInv_of_run hrun
  refine ⟨getsRight_iff h, fun memory => fdNew_keeps h, ?_, ?_⟩
  · intro c hc n d hput
    have hn : s.table.fds[n]? = some (some d) := by
      rcases hput with hpoints | ⟨-, hdrop⟩
      · exact h.points c hc n d hpoints
      · exact hdrop.2.1
    obtain ⟨t, hput, -, -, -, hfree, hother⟩ := h.counts.fdPut_some hn
    exact ⟨t, hput, hfree, hother⟩
  · intro d hd
    obtain ⟨n, hn⟩ := h.counts.stored d hd
    exact ⟨n, hn, (h.counts.entry n d hn).1⟩

theorem exists_fdRun (cfg : DfsFdConfig) (threads : Nat) (actions : List (Nat × FdAction)) (found : List Empty → FdSystem → Bool)
    (h : ((exec (FdSystem.step cfg) ClosesOnce (.initial threads) actions).any fun r => found r.1 r.2) = true) :
    ∃ trace s, FdRun cfg threads trace s ∧ found trace s = true :=
  exists_run_of_exec actions found h

/-- A thread has opened the number 3; the table has entries up to 6. -/
theorem fdTable_of_run_open : ∃ trace s, FdRun ⟨16, 3⟩ 1 trace s ∧ FdOpen ⟨16, 3⟩ s 3 ∧ GetsRight ⟨16, 3⟩ s 3 ∧ GetsRight ⟨16, 3⟩ s 7 := by
  obtain ⟨trace, s, hrun, hs⟩ := exists_fdRun ⟨16, 3⟩ 1 [(0, .fdNew ⟨true, some 8⟩), (0, .fdGet), (0, .fileOpen true)]
    (fun _ s => s.isOpen 0 && decide (s.table.fds.length = 4)) (by decide +kernel)
  obtain ⟨hopen, hlength⟩ := Bool.and_eq_true_iff.1 hs
  have hlength := of_decide_eq_true hlength
  obtain ⟨hget, -⟩ := fdTable_of_run hrun
  have hthree : FdOpen ⟨16, 3⟩ s 3 := ⟨0, rfl, hopen⟩
  refine ⟨trace, s, hrun, hthree, (hget 3).2 fun _ => hthree, (hget 7).2 ?_⟩
  rintro ⟨-, hlt⟩
  rw [hlength] at hlt
  exact absurd hlt (by decide)

/-- `open` and `close`: the number is still in the table, and `fd_get` of it reads through `NULL`. -/
theorem fdTable_of_run_closed : ∃ trace s, FdRun ⟨16, 3⟩ 1 trace s ∧ ¬GetsRight ⟨16, 3⟩ s 3 := by
  obtain ⟨trace, s, hrun, hs⟩ := exists_fdRun ⟨16, 3⟩ 1
    [(0, .fdNew ⟨true, some 8⟩), (0, .fdGet), (0, .fileOpen true), (0, .close 3), (0, .fileClose true), (0, .fdPut)]
    (fun _ s => (fdGet 3 3 s.table).isNone) (by decide +kernel)
  refine ⟨trace, s, hrun, ?_⟩
  rintro ⟨r, t, hget, -⟩
  change fdGet 3 3 s.table = some (r, t) at hget
  rw [hget] at hs
  cases hs

end RtThread
