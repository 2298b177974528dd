import RtThread.At.Socket

/-!
# The table of AT sockets

`alloc_socket` and `at_socket` of `at_socket.c`. What `rt_sem_create` and `rt_mutex_create` return is given. Nobody else looks for a free slot in between, because of the lock.
-/

namespace RtThread

def atSocketMagic : Nat := 0xA100

/-- `struct at_socket` as far as it concerns the allocation. -/
structure AtSocketSlot where
  magic : Nat
  socket : Nat
  type : AtSocketType
  state : AtSocketState
  recvNotice : Option Nat
  recvLock : Option Nat
  recvpktList : RecvList
  rcvevent : Nat
  sendevent : Nat
  errevent : Nat

/-- `sockets` and `at_slock`. -/
structure AtSocketTable where
  sockets : Nat → AtSocketSlot
  atSlock : Option Nat

/-- What the creations of `at_slock`, `recv_notice` and `recv_lock` return. -/
structure AtCreated where
  atSlock : Option Nat
  recvNotice : Option Nat
  recvLock : Option Nat

namespace AtSocketTable

def setSocket (s : AtSocketTable) (idx : Nat) (f : AtSocketSlot → AtSocketSlot) : AtSocketTable :=
  { s with sockets := Function.update s.sockets idx (f (s.sockets idx)) }

/-- "find an empty at socket entry" -/
def emptyEntry (num : Nat) (s : AtSocketTable) : Option Nat := (List.range num).find? fun idx => (s.sockets idx).magic = 0

def mark (s : AtSocketTable) (idx : Nat) : AtSocketTable :=
  s.setSocket idx fun sock =>
    { sock with
      magic := atSocketMagic
      socket := idx
      state := .none
      rcvevent := 0
      sendevent := 0
      errevent := 0
      recvpktList := { sock.recvpktList with first := none } }

end AtSocketTable

/-- `alloc_socket`; `AT_SOCKETS_NUM` is a parameter. -/
def allocSocket (num : Nat) (s : AtSocketTable) (created : AtCreated) : Option Nat × AtSocketTable :=
  match s.atSlock.or created.atSlock with
  -- "No memory for AT socket lock!"
  | none => (none, s)
  | some lock =>
    let s := { s with atSlock := some lock }
    match s.emptyEntry num with
    | none => (none, s)
    | some idx =>
      let s := (s.mark idx).setSocket idx fun sock => { sock with recvNotice := created.recvNotice }
      if created.recvNotice = none then (none, s)
      else
        let s := s.setSocket idx fun sock => { sock with recvLock := created.recvLock }
        if created.recvLock = none then (none, s) else (some idx, s)

def atSocketType (type : Int) : Option AtSocketType := if type = 1 then some .tcp else if type = 2 then some .udp else none

/-- `at_socket` behind its assertion on `domain`. -/
def atSocket (num : Nat) (s : AtSocketTable) (created : AtCreated) (type : Int) : Int × AtSocketTable :=
  match atSocketType type with
  | none => (-1, s)
  | some socketType =>
    match allocSocket num s created with
    -- "Allocate a new AT socket failed!"
    | (none, s) => (0, s)
    | (some idx, s) =>
      let s := s.setSocket idx fun sock => { sock with type := socketType }
      ((s.sockets idx).socket, s)

/-! ## What a call leaves behind -/

structure AtSocketSlot.InUse (sock : AtSocketSlot) (idx : Nat) (type : Int) : Prop where
  magic : sock.magic = atSocketMagic
  socket : sock.socket = idx
  type : atSocketType type = some sock.type
  state : sock.state = .none
  recvNotice : sock.recvNotice ≠ none
  recvLock : sock.recvLock ≠ none
  recvpktList : sock.recvpktList.first = none
  events : sock.rcvevent = 0 ∧ sock.sendevent = 0 ∧ sock.errevent = 0

structure AtSocketTable.Allocated (num : Nat) (s s' : AtSocketTable) (type : Int) (idx : Nat) : Prop where
  lt : idx < num
  free : (s.sockets idx).magic = 0
  used : (s'.sockets idx).InUse idx type
  others : ∀ other, other ≠ idx → s'.sockets other = s.sockets other

/-- The call has allocated the socket that it returns, or it fails with a negative result and the table is as it was. -/
def AllocatedOrUnchanged (num : Nat) (s : AtSocketTable) (type : Int) (r : Int × AtSocketTable) : Prop :=
  (∃ idx : Nat, r.1 = idx ∧ s.Allocated num r.2 type idx) ∨ r.1 < 0 ∧ r.2.sockets = s.sockets

variable {num idx : Nat} {s s' : AtSocketTable} {created : AtCreated} {type : Int} {result : Option Nat}

namespace AtSocketTable

@[simp]
theorem setSocket_self (s : AtSocketTable) (idx : Nat) (f : AtSocketSlot → AtSocketSlot) :
    (s.setSocket idx f).sockets idx = f (s.sockets idx) := Function.update_self ..

theorem setSocket_other {other : Nat} (h : other ≠ idx) (s : AtSocketTable) (f : AtSocketSlot → AtSocketSlot) :
    (s.setSocket idx f).sockets other = s.sockets other := Function.update_of_ne h ..

theorem emptyEntry_some (h : s.emptyEntry num = some idx) : idx < num ∧ (s.sockets idx).magic = 0 := by
  have hmem := List.mem_of_find?_eq_some h
  exact ⟨List.mem_range.mp hmem, by simpa using List.find?_some h⟩

theorem emptyEntry_none : s.emptyEntry num = none ↔ ∀ idx < num, (s.sockets idx).magic ≠ 0 := by
  unfold emptyEntry
  rw [List.find?_eq_none]
  simp only [List.mem_range, decide_eq_true_eq, ne_eq]

end AtSocketTable

/-- The ways in which `alloc_socket` ends. -/
inductive SocketEffect (num : Nat) (s : AtSocketTable) (created : AtCreated) : Option Nat → AtSocketTable → Prop
  | noSlock (hs : s.atSlock = none) (hnew : created.atSlock = none) : SocketEffect num s created none s
  | full {lock : Nat} (hlock : (s.atSlock.or created.atSlock) = some lock) (hfull : ∀ idx < num, (s.sockets idx).magic ≠ 0) :
      SocketEffect num s created none { s with atSlock := some lock }
  | noNotice {s' : AtSocketTable} {idx : Nat} (hfree : (s.sockets idx).magic = 0) (hnew : created.recvNotice = none)
      (hnotice : (s'.sockets idx).recvNotice = none)
      (hothers : ∀ other, other ≠ idx → s'.sockets other = s.sockets other) : SocketEffect num s created none s'
  | noLock {s' : AtSocketTable} {idx : Nat} (hfree : (s.sockets idx).magic = 0) (hnew : created.recvLock = none)
      (hlock : (s'.sockets idx).recvLock = none)
      (hothers : ∀ other, other ≠ idx → s'.sockets other = s.sockets other) : SocketEffect num s created none s'
  | allocated {lock notice recvLock idx : Nat} {s' : AtSocketTable} (hlock : (s.atSlock.or created.atSlock) = some lock)
      (hlt : idx < num) (hfree : (s.sockets idx).magic = 0) (hnotice : created.recvNotice = some notice)
      (hrecvLock : created.recvLock = some recvLock)
      (hslot : s'.sockets idx = { s.sockets idx with
        magic := atSocketMagic, socket := idx, state := .none, rcvevent := 0, sendevent := 0, errevent := 0
        recvpktList := { (s.sockets idx).recvpktList with first := none }, recvNotice := notice, recvLock := recvLock })
      (hothers : ∀ other, other ≠ idx → s'.sockets other = s.sockets other) : SocketEffect num s created (some idx) s'

theorem allocSocket_effect (num : Nat) (s : AtSocketTable) (created : AtCreated) :
    SocketEffect num s created (allocSocket num s created).1 (allocSocket num s created).2 := by
  unfold allocSocket
  split
  · rename_i hlock
    obtain ⟨hs, hnew⟩ := Option.or_eq_none_iff.mp hlock
    exact .noSlock hs hnew
  · rename_i lock hlock
    dsimp only
    split
    · rename_i hfull
      exact .full hlock (AtSocketTable.emptyEntry_none.mp hfull)
    · rename_i idx hidx
      have hlt : idx < num := (AtSocketTable.emptyEntry_some hidx).1
      have hfree : (s.sockets idx).magic = 0 := (AtSocketTable.emptyEntry_some hidx).2
      split
      · rename_i hnotice
        apply SocketEffect.noNotice hfree hnotice
        · simp [hnotice]
        · intro other hother
          simp only [AtSocketTable.mark]
          rw [AtSocketTable.setSocket_other hother, AtSocketTable.setSocket_other hother]
      · rename_i hnotice
        obtain ⟨notice, hnotice⟩ := Option.ne_none_iff_exists'.mp hnotice
        split
        · rename_i hrecvLock
          apply SocketEffect.noLock hfree hrecvLock
          · simp [hrecvLock]
          · intro other hother
            simp only [AtSocketTable.mark]
            rw [AtSocketTable.setSocket_other hother, AtSocketTable.setSocket_other hother, AtSocketTable.setSocket_other hother]
        · rename_i hrecvLock
          obtain ⟨recvLock, hrecvLock⟩ := Option.ne_none_iff_exists'.mp hrecvLock
          apply SocketEffect.allocated hlock hlt hfree hnotice hrecvLock
          · simp [AtSocketTable.mark, hnotice, hrecvLock]
          · intro other hother
            simp only [AtSocketTable.mark]
            rw [AtSocketTable.setSocket_other hother, AtSocketTable.setSocket_other hother, AtSocketTable.setSocket_other hother]

structure AtCreated.Suffices (num : Nat) (s : AtSocketTable) (created : AtCreated) : Prop where
  atSlock : s.atSlock ≠ none ∨ created.atSlock ≠ none
  free : ∃ idx < num, (s.sockets idx).magic = 0
  recvNotice : created.recvNotice ≠ none
  recvLock : created.recvLock ≠ none

theorem not_allocatedOrUnchanged (hused : ∀ idx < num, (s.sockets idx).magic = 0 → ¬ (s'.sockets idx).InUse idx type) :
    ¬ AllocatedOrUnchanged num s type (0, s') := by
  rintro (⟨idx, -, hallocated⟩ | ⟨hlt, -⟩)
  · exact hused idx hallocated.lt hallocated.free hallocated.used
  · exact lt_irrefl 0 hlt

theorem AtSocketSlot.not_inUse_of_free {sock : AtSocketSlot} (hfree : sock.magic = 0) : ¬ sock.InUse idx type := by
  intro hused
  rw [hused.magic] at hfree
  exact absurd hfree (by decide)

/-- A type that is not supported fails as it should; every other call does what it should only if it gets all that it asks for. -/
theorem atSocket_iff (num : Nat) (s : AtSocketTable) (created : AtCreated) (type : Int) :
    AllocatedOrUnchanged num s type (atSocket num s created type) ↔ atSocketType type = none ∨ created.Suffices num s := by
  rcases Option.eq_none_or_eq_some (atSocketType type) with htype | ⟨socketType, htype⟩
  · have hresult : atSocket num s created type = (-1, s) := by rw [atSocket, htype]
    rw [hresult]
    exact ⟨fun _ => .inl htype, fun _ => .inr ⟨show (-1 : Int) < 0 by decide, rfl⟩⟩
  have hresult : atSocket num s created type = match allocSocket num s created with
      | (none, s) => (0, s)
      | (some idx, s) =>
        (((s.setSocket idx fun sock => { sock with type := socketType }).sockets idx).socket,
          s.setSocket idx fun sock => { sock with type := socketType }) := by
    rw [atSocket, htype]
  have hor : (atSocketType type = none ∨ created.Suffices num s) ↔ created.Suffices num s :=
    or_iff_right (htype ▸ Option.some_ne_none socketType)
  have heffect := allocSocket_effect num s created
  rw [hresult, hor]
  generalize allocSocket num s created = r at heffect ⊢
  obtain ⟨result, s'⟩ := r
  cases heffect with
  | noSlock hs hnew =>
    refine iff_of_false (not_allocatedOrUnchanged fun idx _ hfree => AtSocketSlot.not_inUse_of_free hfree) fun hall => ?_
    exact hall.atSlock.elim (absurd hs) (absurd hnew)
  | full hlock hfull =>
    refine iff_of_false (not_allocatedOrUnchanged fun idx hlt hfree => absurd hfree (hfull idx hlt)) fun hall => ?_
    obtain ⟨idx, hlt, hfree⟩ := hall.free
    exact hfull idx hlt hfree
  | @noNotice _ marked hfree hnew hnotice hothers =>
    refine iff_of_false (not_allocatedOrUnchanged fun idx _ hidx hused => ?_) fun hall => hall.recvNotice hnew
    by_cases hmarked : idx = marked
    · exact hused.recvNotice (hmarked ▸ hnotice)
    · rw [hothers idx hmarked] at hused
      exact AtSocketSlot.not_inUse_of_free hidx hused
  | @noLock _ marked hfree hnew hlock hothers =>
    refine iff_of_false (not_allocatedOrUnchanged fun idx _ hidx hused => ?_) fun hall => hall.recvLock hnew
    by_cases hmarked : idx = marked
    · exact hused.recvLock (hmarked ▸ hlock)
    · rw [hothers idx hmarked] at hused
      exact AtSocketSlot.not_inUse_of_free hidx hused
  | @allocated lock notice recvLock idx _ hlock hlt hfree hnotice hrecvLock hslot hothers =>
    dsimp only at hslot hothers ⊢
    refine iff_of_true (.inl ⟨idx, ?_, hlt, hfree, ?_, ?_⟩) ⟨?_, ⟨idx, hlt, hfree⟩, ?_, ?_⟩
    · rw [AtSocketTable.setSocket_self, hslot]
    · rw [AtSocketTable.setSocket_self, hslot]
      exact ⟨rfl, rfl, htype, rfl, Option.some_ne_none notice, Option.some_ne_none recvLock, rfl, rfl, rfl, rfl⟩
    · intro other hother
      rw [AtSocketTable.setSocket_other hother, hothers other hother]
    · by_contra hnone
      rw [not_or, not_not, not_not] at hnone
      rw [hnone.1, hnone.2] at hlock
      cases hlock
    · exact hnotice ▸ Option.some_ne_none notice
    · exact hrecvLock ▸ Option.some_ne_none recvLock

def AtSocketTable.empty : AtSocketTable where
  sockets _ := ⟨0, 0, .invalid, .none, none, none, .empty, 0, 0, 0⟩
  atSlock := none

/-- Without memory for its semaphore the first slot stays marked, and the result is the number of a socket. -/
theorem atSocket_fails :
    (atSocket 5 .empty ⟨some 0, none, none⟩ 1).1 = 0 ∧ (((atSocket 5 .empty ⟨some 0, none, none⟩ 1).2).sockets 0).magic = atSocketMagic ∧
      ¬ ∀ num s created type, AllocatedOrUnchanged num s type (atSocket num s created type) := by
  refine ⟨rfl, rfl, fun hall => ?_⟩
  rcases hall 5 .empty ⟨some 0, none, none⟩ 1 with ⟨idx, hidx, hallocated⟩ | ⟨hlt, -⟩
  · obtain rfl : 0 = idx := Int.ofNat.inj hidx
    exact hallocated.used.recvNotice rfl
  · exact lt_irrefl 0 hlt

end RtThread
