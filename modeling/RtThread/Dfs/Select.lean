import RtThread.Dfs.Poll

/-!
# `select` on top of `poll`

`select.c`. The three sets become one list of descriptors, and what `poll` reports of these becomes the sets again. Of `poll` its last turn counts, which leaves the results in the list. A set is as long as `nfds` asks for; the words that `nfds` reaches into are cleared.
-/

namespace RtThread

/-- `POLLIN`, `POLLOUT`, `POLLERR` and `POLLHUP`. -/
def pollIn : BitVec 32 := 0x01

def pollOut : BitVec 32 := 0x02

def pollErr : BitVec 32 := 0x04

def pollHup : BitVec 32 := 0x08

/-- An `fd_set`, if there is one. -/
abbrev FdSet : Type := Option (Nat → Bool)

structure FdSets where
  readfds : FdSet
  writefds : FdSet
  exceptfds : FdSet

/-- `readfds && FD_ISSET(fd, readfds)` -/
def fdIsset (set : FdSet) (fd : Nat) : Bool := set.any fun bits => bits fd

/-- `fdszero`; the number of bits of an `fd_mask` is a parameter. -/
def fdszero (maskBits nfds : Nat) (set : FdSet) : FdSet :=
  set.map fun bits fd => if fd / maskBits * maskBits < nfds then false else bits fd

namespace FdSets

def monitored (sets : FdSets) (fd : Nat) : Bool :=
  fdIsset sets.readfds fd || fdIsset sets.writefds fd || fdIsset sets.exceptfds fd

def events (sets : FdSets) (fd : Nat) : BitVec 16 :=
  (if fdIsset sets.readfds fd then 1 else 0) ||| (if fdIsset sets.writefds fd then 2 else 0)

/-- "Initialize the descriptor list for poll()" -/
def pollset (sets : FdSets) (nfds : Nat) : List PollFd :=
  ((List.range nfds).filter sets.monitored).map fun fd : Nat => ⟨fd, sets.events fd⟩

def fdszero (maskBits nfds : Nat) (sets : FdSets) : FdSets :=
  ⟨RtThread.fdszero maskBits nfds sets.readfds, RtThread.fdszero maskBits nfds sets.writefds, RtThread.fdszero maskBits nfds sets.exceptfds⟩

end FdSets

/-- A descriptor with its `revents`. -/
abbrev PollResult : Type := PollFd × BitVec 32

/-- The list behind the last turn of `poll`. -/
def pollResults (answers : Nat → PollAnswer) : Nat → List PollFd → List PollResult
  | _, [] => []
  | n, pf :: fds => (pf, (doPollfd pf (answers n) (pollStart 0).table).1) :: pollResults answers (n + 1) fds

def fdSetIf (mask : BitVec 32) (r : PollResult) (ret : Nat) : FdSet → Nat × FdSet
  | none => (ret, none)
  | some bits => if r.2 &&& mask ≠ 0 then (ret + 1, some (Function.update bits r.1.fd.toNat true)) else (ret, some bits)

/-- "Convert the poll descriptor list back into selects 3 bitsets": one descriptor. -/
def selectResult (acc : Nat × FdSets) (r : PollResult) : Nat × FdSets :=
  let read := fdSetIf (pollIn ||| pollHup) r acc.1 acc.2.readfds
  let write := fdSetIf pollOut r read.1 acc.2.writefds
  let except := fdSetIf pollErr r write.1 acc.2.exceptfds
  (except.1, ⟨read.2, write.2, except.2⟩)

inductive SelectReturn
  /-- There is no memory for the list: -1, and the sets stay. -/
  | noMemory
  | polled (ret : Nat) (sets : FdSets)

/-- `select`, where `poll` returns with these answers in its last turn. -/
def select (maskBits : Nat) (memory : Bool) (answers : Nat → PollAnswer) (t : PollTable) (nfds : Int) (sets : FdSets) : SelectReturn :=
  let fds := sets.pollset nfds.toNat
  if fds ≠ [] ∧ memory = false then .noMemory
  else
    let ret := (pollScan answers 0 fds t).1
    let zeroed := sets.fdszero maskBits nfds.toNat
    if 0 < ret then
      let (ret, sets) := (pollResults answers 0 fds).foldl selectResult (0, zeroed)
      .polled ret sets
    else .polled ret zeroed

/-! ## What the sets are to be -/

/-- The set has the descriptors below `nfds` that it had and that `poll` reports one of these events of. -/
def ShowsReady (nfds : Nat) (results : List PollResult) (mask : BitVec 32) (set out : FdSet) : Prop :=
  ∀ fd, fdIsset out fd = true ↔ fd < nfds ∧ fdIsset set fd = true ∧ ∃ r ∈ results, r.1.fd = fd ∧ r.2 &&& mask ≠ 0

def bitsSet (nfds : Nat) (set : FdSet) : Nat := (List.range nfds).countP fun fd => fdIsset set fd

structure SelectsReady (nfds : Nat) (results : List PollResult) (sets : FdSets) (ret : Nat) (out : FdSets) : Prop where
  readfds : ShowsReady nfds results (pollIn ||| pollHup) sets.readfds out.readfds
  writefds : ShowsReady nfds results pollOut sets.writefds out.writefds
  exceptfds : ShowsReady nfds results pollErr sets.exceptfds out.exceptfds
  total : 0 < ret → ret = bitsSet nfds out.readfds + bitsSet nfds out.writefds + bitsSet nfds out.exceptfds

/-- No `POLLHUP` of a descriptor that is not asked about for reading, with a set for reading, and likewise `POLLERR`; no descriptor behind the
words that are cleared. -/
structure OnlyAsked (maskBits nfds : Nat) (results : List PollResult) (sets : FdSets) : Prop where
  readfds : sets.readfds ≠ none → ∀ r ∈ results, r.2 &&& pollHup ≠ 0 → fdIsset sets.readfds r.1.fd.toNat = true
  exceptfds : sets.exceptfds ≠ none → ∀ r ∈ results, r.2 &&& pollErr ≠ 0 → fdIsset sets.exceptfds r.1.fd.toNat = true
  covered : ∀ set ∈ [sets.readfds, sets.writefds, sets.exceptfds], ∀ fd, fdIsset set fd = true → fd / maskBits * maskBits < nfds

variable {maskBits nfds ret fd : Nat} {memory : Bool} {answers : Nat → PollAnswer} {t : PollTable} {sets out : FdSets} {set : FdSet}
  {mask : BitVec 32} {results : List PollResult} {r : PollResult} {fds : List PollFd} {acc : Nat × FdSets}

/-! ## The results of poll -/

theorem doPollfd_fst (pf : PollFd) (answer : PollAnswer) (t t' : PollTable) : (doPollfd pf answer t).1 = (doPollfd pf answer t').1 := by
  unfold doPollfd
  split
  · split <;> rfl
  · rfl

theorem map_fst_pollResults (answers : Nat → PollAnswer) (n : Nat) (fds : List PollFd) : (pollResults answers n fds).map Prod.fst = fds := by
  induction fds generalizing n with
  | nil => rfl
  | cons pf fds ih => rw [pollResults, List.map_cons, ih]

theorem pollScan_fst (answers : Nat → PollAnswer) (n : Nat) (fds : List PollFd) (t : PollTable) :
    (pollScan answers n fds t).1 = (pollResults answers n fds).countP fun r => r.2 ≠ 0 := by
  induction fds generalizing n t with
  | nil => rfl
  | cons pf fds ih =>
    rw [pollResults, List.countP_cons, ← doPollfd_fst pf (answers n) t]
    simp only [pollScan, ih]
    rcases eq_or_ne (doPollfd pf (answers n) t).1 0 with hzero | hne
    · rw [if_neg (not_not_intro hzero), if_neg (by simpa using hzero)]
      rfl
    · rw [if_pos hne, if_pos (by simpa using hne)]

theorem revents_and {pf : PollFd} {answer : PollAnswer} (hasked : pf.wanted &&& mask = 0) (hnval : pollNval &&& mask = 0) :
    (doPollfd pf answer t).1 &&& mask = 0 := by
  unfold doPollfd
  split
  · split
    · exact hnval
    · rw [BitVec.and_assoc, hasked]
      exact BitVec.and_zero
    · rw [BitVec.and_assoc, hasked]
      exact BitVec.and_zero
  · exact BitVec.zero_and

theorem mem_pollResults {n : Nat} (hr : r ∈ pollResults answers n fds) : ∃ answer, r.1 ∈ fds ∧ r.2 = (doPollfd r.1 answer (pollStart 0).table).1 := by
  induction fds generalizing n with
  | nil => exact absurd hr List.not_mem_nil
  | cons pf fds ih =>
    rw [pollResults] at hr
    rcases List.mem_cons.mp hr with rfl | hrest
    · exact ⟨answers n, List.mem_cons_self, rfl⟩
    · obtain ⟨answer, hmem, heq⟩ := ih hrest
      exact ⟨answer, List.mem_cons_of_mem pf hmem, heq⟩

theorem nodup_pollset (sets : FdSets) (nfds : Nat) : ((sets.pollset nfds).map fun pf => pf.fd.toNat).Nodup := by
  rw [FdSets.pollset, List.map_map]
  have hid : ((fun pf : PollFd => pf.fd.toNat) ∘ fun fd : Nat => (⟨fd, sets.events fd⟩ : PollFd)) = id := funext fun fd => Int.toNat_natCast fd
  rw [hid, List.map_id]
  exact List.nodup_range.filter _

theorem mem_pollset {pf : PollFd} (h : pf ∈ sets.pollset nfds) : ∃ fd < nfds, pf = ⟨(fd : Int), sets.events fd⟩ := by
  obtain ⟨fd, hfd, rfl⟩ := List.mem_map.mp h
  exact ⟨fd, List.mem_range.mp (List.mem_filter.mp hfd).1, rfl⟩

/-! ## The sets again -/

def marked (mask : BitVec 32) (results : List PollResult) (set : FdSet) : FdSet :=
  set.map fun bits fd => bits fd || results.any fun r => r.2 &&& mask ≠ 0 ∧ r.1.fd.toNat = fd

def counted (mask : BitVec 32) (results : List PollResult) (set : FdSet) : Nat :=
  if set.isSome then results.countP fun r => r.2 &&& mask ≠ 0 else 0

theorem fdSetIf_eq (mask : BitVec 32) (r : PollResult) (ret : Nat) (set : FdSet) :
    fdSetIf mask r ret set = (ret + counted mask [r] set, marked mask [r] set) := by
  cases set with
  | none => rfl
  | some bits =>
    by_cases hzero : r.2 &&& mask = 0
    · rw [fdSetIf, if_neg (not_not_intro hzero)]
      simp [marked, counted, hzero]
    · rw [fdSetIf, if_pos hzero]
      have hbits : Function.update bits r.1.fd.toNat true = fun fd => bits fd || decide (r.1.fd.toNat = fd) := by
        funext fd
        by_cases hfd : fd = r.1.fd.toNat
        · simp [hfd]
        · rw [Function.update_of_ne hfd, decide_eq_false (Ne.symm hfd), Bool.or_false]
      have hne : ¬ r.2 &&& mask = 0#32 := hzero
      simp [marked, counted, hne, hbits]

theorem marked_cons (mask : BitVec 32) (r : PollResult) (results : List PollResult) (set : FdSet) :
    marked mask (r :: results) set = marked mask results (marked mask [r] set) := by
  cases set with
  | none => rfl
  | some bits => simp [marked, Bool.or_assoc]

theorem counted_cons (mask : BitVec 32) (r : PollResult) (results : List PollResult) (set : FdSet) :
    counted mask (r :: results) set = counted mask [r] set + counted mask results (marked mask [r] set) := by
  cases set with
  | none => rfl
  | some bits =>
    simp only [counted, marked, Option.map_some, Option.isSome_some, if_true]
    rw [← List.countP_append, List.singleton_append]

theorem foldl_selectResult (results : List PollResult) (ret : Nat) (sets : FdSets) :
    results.foldl selectResult (ret, sets) =
      (ret + (counted (pollIn ||| pollHup) results sets.readfds + counted pollOut results sets.writefds + counted pollErr results sets.exceptfds),
        ⟨marked (pollIn ||| pollHup) results sets.readfds, marked pollOut results sets.writefds, marked pollErr results sets.exceptfds⟩) := by
  induction results generalizing ret sets with
  | nil => cases sets with | mk read write except => cases read <;> cases write <;> cases except <;> simp [marked, counted]
  | cons r results ih =>
    rw [List.foldl_cons, selectResult]
    simp only [fdSetIf_eq]
    rw [ih, counted_cons _ r results, counted_cons pollOut r results, counted_cons pollErr r results, marked_cons _ r results,
      marked_cons pollOut r results, marked_cons pollErr r results]
    congr 1
    dsimp only
    omega

theorem marked_of_zero (h : ∀ r ∈ results, r.2 = 0) (mask : BitVec 32) (set : FdSet) : marked mask results set = set := by
  have hany : ∀ fd, (results.any fun r => r.2 &&& mask ≠ 0 ∧ r.1.fd.toNat = fd) = false := by
    intro fd
    rw [List.any_eq_false]
    intro r hr
    simp [h r hr]
  cases set with
  | none => rfl
  | some bits => simp only [marked, hany, Option.map_some, Bool.or_false]

theorem counted_fdszero (mask : BitVec 32) (results : List PollResult) (maskBits nfds : Nat) (set : FdSet) :
    counted mask results (fdszero maskBits nfds set) = counted mask results set := by
  cases set <;> rfl

/-- The sets that `select` leaves: cleared, with the descriptors that have an event. -/
def FdSets.ready (maskBits nfds : Nat) (results : List PollResult) (sets : FdSets) : FdSets :=
  ⟨marked (pollIn ||| pollHup) results (RtThread.fdszero maskBits nfds sets.readfds),
    marked pollOut results (RtThread.fdszero maskBits nfds sets.writefds), marked pollErr results (RtThread.fdszero maskBits nfds sets.exceptfds)⟩

theorem select_polled {nfds : Int} (h : select maskBits memory answers t nfds sets = .polled ret out) :
    out = sets.ready maskBits nfds.toNat (pollResults answers 0 (sets.pollset nfds.toNat)) ∧
      (0 < ret → ret = counted (pollIn ||| pollHup) (pollResults answers 0 (sets.pollset nfds.toNat)) sets.readfds +
        counted pollOut (pollResults answers 0 (sets.pollset nfds.toNat)) sets.writefds +
        counted pollErr (pollResults answers 0 (sets.pollset nfds.toNat)) sets.exceptfds) := by
  unfold select at h
  dsimp only at h
  split at h
  · cases h
  · split at h
    · rw [foldl_selectResult] at h
      cases h
      refine ⟨rfl, fun _ => ?_⟩
      simp only [FdSets.fdszero, counted_fdszero, Nat.zero_add]
    · rename_i hzero
      cases h
      rw [pollScan_fst, Nat.not_lt, Nat.le_zero, List.countP_eq_zero] at hzero
      have hnone : ∀ r ∈ pollResults answers 0 (sets.pollset nfds.toNat), r.2 = 0 := fun r hr => by simpa using hzero r hr
      refine ⟨?_, fun hpos => absurd hpos ?_⟩
      · simp only [FdSets.ready, marked_of_zero hnone]
        rfl
      · rw [pollScan_fst, List.countP_eq_zero.mpr hzero]
        exact Nat.lt_irrefl 0

/-! ## When each set is right -/

theorem fdIsset_marked (mask : BitVec 32) (results : List PollResult) (maskBits nfds : Nat) (bits : Nat → Bool) (fd : Nat) :
    fdIsset (marked mask results (fdszero maskBits nfds (some bits))) fd = true ↔
      (¬ fd / maskBits * maskBits < nfds ∧ bits fd = true) ∨ ∃ r ∈ results, r.2 &&& mask ≠ 0 ∧ r.1.fd.toNat = fd := by
  simp only [fdIsset, marked, fdszero, Option.map_some, Option.any_some, Bool.or_eq_true, List.any_eq_true, decide_eq_true_eq]
  by_cases hcovered : fd / maskBits * maskBits < nfds
  · simp [hcovered]
  · simp [hcovered]

/-- A set shows the right descriptors when its events come only from descriptors that it asks about, and it has none behind the cleared words. -/
theorem showsReady_iff (hlt : ∀ r ∈ results, ∃ fd < nfds, r.1.fd = fd) (maskBits : Nat) (mask : BitVec 32) (set : FdSet) :
    ShowsReady nfds results mask set (marked mask results (fdszero maskBits nfds set)) ↔
      (set ≠ none → ∀ r ∈ results, r.2 &&& mask ≠ 0 → fdIsset set r.1.fd.toNat = true) ∧
        ∀ fd, fdIsset set fd = true → fd / maskBits * maskBits < nfds := by
  cases set with
  | none => exact ⟨fun _ => ⟨fun h => absurd rfl h, nofun⟩, fun _ fd => ⟨nofun, fun h => absurd h.2.1 Bool.false_ne_true⟩⟩
  | some bits =>
    constructor
    · intro h
      refine ⟨fun _ r hr hmask => ?_, fun fd hfd => ?_⟩
      · exact ((h _).mp ((fdIsset_marked ..).mpr (.inr ⟨r, hr, hmask, rfl⟩))).2.1
      · by_contra hbeyond
        have hlow := ((h fd).mp ((fdIsset_marked ..).mpr (.inl ⟨hbeyond, hfd⟩))).1
        exact hbeyond (lt_of_le_of_lt (Nat.div_mul_le_self fd maskBits) hlow)
    · rintro ⟨hasked, hcovered⟩ fd
      rw [fdIsset_marked]
      constructor
      · rintro (⟨hbeyond, hfd⟩ | ⟨r, hr, hmask, rfl⟩)
        · exact absurd (hcovered fd hfd) hbeyond
        · obtain ⟨fd, hfd, heq⟩ := hlt r hr
          have hasked' := hasked (Option.some_ne_none bits) r hr hmask
          rw [heq, Int.toNat_natCast] at hasked' ⊢
          exact ⟨hfd, hasked', r, hr, heq, hmask⟩
      · rintro ⟨-, -, r, hr, heq, hmask⟩
        exact .inr ⟨r, hr, hmask, by rw [heq, Int.toNat_natCast]⟩

theorem bitsSet_eq_counted (hnodup : (results.map fun r => r.1.fd.toNat).Nodup)
    (h : ShowsReady nfds results mask set (marked mask results (fdszero maskBits nfds set))) :
    bitsSet nfds (marked mask results (fdszero maskBits nfds set)) = counted mask results set := by
  cases set with
  | none => exact List.countP_eq_zero.mpr fun fd _ => Bool.false_ne_true
  | some bits =>
    have hperm : ((List.range nfds).filter fun fd => fdIsset (marked mask results (fdszero maskBits nfds (some bits))) fd).Perm
        ((results.filter fun r => r.2 &&& mask ≠ 0).map fun r => r.1.fd.toNat) := by
      refine (List.perm_ext_iff_of_nodup (List.nodup_range.filter _) (hnodup.sublist (List.filter_sublist.map _))).mpr fun fd => ?_
      simp only [List.mem_filter, List.mem_range, List.mem_map, decide_eq_true_eq]
      constructor
      · rintro ⟨-, hfd⟩
        obtain ⟨-, -, r, hr, heq, hmask⟩ := (h fd).mp hfd
        exact ⟨r, ⟨hr, hmask⟩, by rw [heq, Int.toNat_natCast]⟩
      · rintro ⟨r, ⟨hr, hmask⟩, rfl⟩
        have hset := (fdIsset_marked mask results maskBits nfds bits _).mpr (.inr ⟨r, hr, hmask, rfl⟩)
        exact ⟨((h _).mp hset).1, hset⟩
    rw [bitsSet, List.countP_eq_length_filter, hperm.length_eq, List.length_map, counted, Option.isSome_some, if_pos rfl,
      List.countP_eq_length_filter]

/-! ## The events that are asked for -/

theorem asked_of_pollIn {n : Nat} (hr : r ∈ pollResults answers n (sets.pollset nfds)) (h : r.2 &&& pollIn ≠ 0) :
    fdIsset sets.readfds r.1.fd.toNat = true := by
  by_contra hnot
  obtain ⟨answer, hmem, heq⟩ := mem_pollResults hr
  obtain ⟨fd, -, hpf⟩ := mem_pollset hmem
  rw [hpf, Int.toNat_natCast] at hnot
  rw [heq] at h
  refine h (revents_and ?_ (by decide))
  rw [hpf, PollFd.wanted, FdSets.events, if_neg hnot]
  split <;> (dsimp only; decide)

theorem asked_of_pollOut {n : Nat} (hr : r ∈ pollResults answers n (sets.pollset nfds)) (h : r.2 &&& pollOut ≠ 0) :
    fdIsset sets.writefds r.1.fd.toNat = true := by
  by_contra hnot
  obtain ⟨answer, hmem, heq⟩ := mem_pollResults hr
  obtain ⟨fd, -, hpf⟩ := mem_pollset hmem
  rw [hpf, Int.toNat_natCast] at hnot
  rw [heq] at h
  refine h (revents_and ?_ (by decide))
  rw [hpf, PollFd.wanted, FdSets.events, if_neg hnot]
  split <;> (dsimp only; decide)

theorem hangUp_iff {n : Nat} : (∀ r ∈ pollResults answers n (sets.pollset nfds), r.2 &&& (pollIn ||| pollHup) ≠ 0 → fdIsset sets.readfds r.1.fd.toNat = true) ↔
    ∀ r ∈ pollResults answers n (sets.pollset nfds), r.2 &&& pollHup ≠ 0 → fdIsset sets.readfds r.1.fd.toNat = true := by
  have hand : ∀ v : BitVec 32, v &&& (pollIn ||| pollHup) = (v &&& pollIn) ||| (v &&& pollHup) := fun v => BitVec.and_or_distrib_left ..
  constructor
  · intro h r hr hmask
    refine h r hr fun hzero => hmask ?_
    rw [hand] at hzero
    exact (BitVec.or_eq_zero_iff.mp hzero).2
  · intro h r hr hmask
    by_cases hhup : r.2 &&& pollHup = 0
    · refine asked_of_pollIn hr fun hin => hmask ?_
      rw [hand, hin, hhup]
      rfl
    · exact h r hr hhup

/-- Where `poll` is called, the three sets and the result are right just if no hang-up and no error gets into a set that has not asked about its
descriptor, and nothing stands behind the cleared words. -/
theorem select_iff {nfds : Int} (h : select maskBits memory answers t nfds sets = .polled ret out) :
    SelectsReady nfds.toNat (pollResults answers 0 (sets.pollset nfds.toNat)) sets ret out ↔
      OnlyAsked maskBits nfds.toNat (pollResults answers 0 (sets.pollset nfds.toNat)) sets := by
  obtain ⟨rfl, htotal⟩ := select_polled h
  have hfds := map_fst_pollResults answers 0 (sets.pollset nfds.toNat)
  have hlt : ∀ r ∈ pollResults answers 0 (sets.pollset nfds.toNat), ∃ fd < nfds.toNat, r.1.fd = fd := by
    intro r hr
    obtain ⟨-, hmem, -⟩ := mem_pollResults hr
    obtain ⟨fd, hfd, hpf⟩ := mem_pollset hmem
    exact ⟨fd, hfd, by rw [hpf]⟩
  have hnodup : ((pollResults answers 0 (sets.pollset nfds.toNat)).map fun r => r.1.fd.toNat).Nodup := by
    have hpolled := nodup_pollset sets nfds.toNat
    rw [← hfds, List.map_map] at hpolled
    exact hpolled
  have hread := showsReady_iff hlt maskBits (pollIn ||| pollHup) sets.readfds
  have hwrite := showsReady_iff hlt maskBits pollOut sets.writefds
  have hexcept := showsReady_iff hlt maskBits pollErr sets.exceptfds
  rw [hangUp_iff] at hread
  constructor
  · rintro ⟨hreadfds, hwritefds, hexceptfds, -⟩
    refine ⟨(hread.mp hreadfds).1, (hexcept.mp hexceptfds).1, fun set hset => ?_⟩
    rcases List.mem_cons.mp hset with rfl | hset
    · exact (hread.mp hreadfds).2
    · rcases List.mem_cons.mp hset with rfl | hset
      · exact (hwrite.mp hwritefds).2
      · obtain rfl := List.mem_singleton.mp hset
        exact (hexcept.mp hexceptfds).2
  · rintro ⟨hreadfds, hexceptfds, hcovered⟩
    have hreads := hread.mpr ⟨hreadfds, hcovered _ (by simp)⟩
    have hwrites := hwrite.mpr ⟨fun _ r hr hmask => asked_of_pollOut hr hmask, hcovered _ (by simp)⟩
    have hexcepts := hexcept.mpr ⟨hexceptfds, hcovered _ (by simp)⟩
    refine ⟨hreads, hwrites, hexcepts, fun hpos => ?_⟩
    rw [htotal hpos, ← bitsSet_eq_counted hnodup hreads, ← bitsSet_eq_counted hnodup hwrites,
      ← bitsSet_eq_counted hnodup hexcepts]
    rfl

def readOnly : FdSets := ⟨some fun fd => fd = 3, none, none⟩

def readable : Nat → PollAnswer := fun _ => ⟨some (some 1), [], []⟩

theorem select_readable : ∃ ret out, select 32 true readable (pollStart 0).table 4 readOnly = .polled ret out ∧
    SelectsReady 4 (pollResults readable 0 (readOnly.pollset 4)) readOnly ret out := by
  obtain ⟨ret, out, hselect⟩ : ∃ ret out, select 32 true readable (pollStart 0).table 4 readOnly = .polled ret out := ⟨_, _, rfl⟩
  refine ⟨ret, out, hselect, (select_iff hselect).mpr ⟨fun _ => by decide, fun h => absurd rfl h, fun set hset fd hfd => ?_⟩⟩
  rcases List.mem_cons.mp hset with rfl | hset
  · obtain rfl : fd = 3 := of_decide_eq_true hfd
    decide
  · obtain rfl : set = none := by simpa [readOnly] using hset
    exact absurd hfd Bool.false_ne_true

/-- A descriptor that is asked about for writing only and reports a hang-up, beside an empty set for reading. -/
def writeOnly : FdSets := ⟨some fun _ => false, some fun fd => fd = 3, none⟩

def hungUp : Nat → PollAnswer := fun _ => ⟨some (some 8), [], []⟩

theorem select_fails : ∃ ret out, select 32 true hungUp (pollStart 0).table 4 writeOnly = .polled ret out ∧ fdIsset out.readfds 3 = true ∧
    ¬ SelectsReady 4 (pollResults hungUp 0 (writeOnly.pollset 4)) writeOnly ret out := by
  refine ⟨_, _, rfl, by decide, fun h => ?_⟩
  have hasked := ((h.readfds 3).mp (by decide)).2.1
  exact absurd hasked Bool.false_ne_true

end RtThread
