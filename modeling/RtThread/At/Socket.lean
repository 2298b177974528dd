import RtThread.At.RecvList
import RtThread.Drivers.WaitQueue

/-!
# Receiving from an AT socket

`at_recvfrom` and the callbacks of `at_socket.c`. The list is changed only under `recv_lock`, so a look at it is one step; the state of the socket is written and tested without the lock, each time in a step of its own, and a callback releases the semaphore after it has given up the lock. Any number of threads may be in `at_recvfrom`.
-/

namespace RtThread

open Function Transition

inductive AtSocketState
  | none | listen | connect | closed
  deriving DecidableEq

inductive AtSocketType
  | invalid | tcp | udp
  deriving DecidableEq

inductive AtSocketEvt
  | recv | closed
  deriving DecidableEq

/-- Where a call of `at_recvfrom` is. -/
inductive RecvPoint
  /-- In `at_connect`. -/
  | connecting
  /-- Before its two tests of the state. -/
  | entered
  /-- Between them. -/
  | tested
  /-- It is to look at the list. -/
  | first
  /-- In `rt_sem_take`. -/
  | waiting
  | woken
  | second
  deriving DecidableEq

structure RecvCall where
  len : Nat
  /-- `flags & MSG_DONTWAIT` -/
  dontWait : Bool
  point : RecvPoint
  deriving DecidableEq

/-- `struct at_socket` -/
structure AtSock where
  type : AtSocketType
  state : AtSocketState
  recvpktList : RecvList
  recvNotice : Nat
  recvTimeout : Int
  rcvevent : Nat
  errevent : Nat
  tickPerSecond : Int
  /-- The callbacks that have yet to release the semaphore. -/
  callbacks : List AtSocketEvt
  call : ThreadId → Option RecvCall

inductive AtSockEvent
  /-- A packet of which `result` bytes are on the list. -/
  | packet (buff : List UInt8) (result : Nat)
  | closed
  | called (t : ThreadId) (len : Nat) (dontWait : Bool)
  /-- `rt_sem_take` fails. -/
  | timedOut (t : ThreadId)
  | returned (t : ThreadId) (len : Nat) (dontWait : Bool) (result : Int) (mem : List UInt8)
  deriving DecidableEq

namespace AtSock

def init (type : AtSocketType) (state : AtSocketState) (recvTimeout tickPerSecond : Int) : AtSock :=
  ⟨type, state, .empty, 0, recvTimeout, 0, 0, tickPerSecond, [], fun _ => none⟩

/-- `at_do_event_changes` -/
def eventPlus (n : Nat) : Nat := (n + 1) % 65536

def setCall (s : AtSock) (t : ThreadId) (call : Option RecvCall) : AtSock :=
  { s with call := update s.call t call }

def timeout (s : AtSock) : Int := if s.recvTimeout = 0 then -1 else rtTickFromMillisecond s.tickPerSecond s.recvTimeout

/-- `__exit` of `at_recvfrom` -/
def exit (s : AtSock) (t : ThreadId) (len : Nat) (dontWait : Bool) (result : Int) (recvLen : Nat) (mem : List UInt8) :
    AtSock × List AtSockEvent :=
  if 0 < recvLen then
    ({ s with rcvevent := if s.recvpktList.first = none then 0 else eventPlus (s.rcvevent - 1) }.setCall t none,
      [.returned t len dontWait recvLen mem])
  else ({ s with errevent := eventPlus s.errevent }.setCall t none, [.returned t len dontWait result mem])

end AtSock

/-- `at_recvfrom` up to `at_connect` or the tests of the state; `source` says whether `from` is given. -/
def atRecvfrom (s : AtSock) (t : ThreadId) (len : Nat) (dontWait source : Bool) : AtSock × List AtSockEvent :=
  if len = 0 then (s, [.returned t len dontWait (-1) []])
  else
    let connecting := source = true ∧ s.type = .udp ∧ s.state = .none
    (s.setCall t (some ⟨len, dontWait, if connecting then .connecting else .entered⟩), [])

/-- A look at the list, under the lock; with nothing there the call goes on as `otherwise` says. -/
def recvLook (freed : FreedLink) (s : AtSock) (t : ThreadId) (c : RecvCall) (otherwise : AtSock × List AtSockEvent) :
    Option (AtSock × List AtSockEvent) :=
  (atRecvpktGet freed s.recvpktList c.len).map fun (list, recvLen, mem) =>
    if 0 < recvLen then { s with recvpktList := list }.exit t c.len c.dontWait 0 recvLen mem else otherwise

/-- `at_recvfrom` goes on. -/
def recvGo (freed : FreedLink) (s : AtSock) (t : ThreadId) (c : RecvCall) : RecvPoint → Option (AtSock × List AtSockEvent)
  | .connecting => none
  | .entered =>
    if s.state = .closed then some (s.exit t c.len c.dontWait 0 0 [])
    else some (s.setCall t (some { c with point := .tested }), [])
  | .tested =>
    if s.state = .connect then some (s.setCall t (some { c with point := .first }), [])
    else some (s.exit t c.len c.dontWait (-1) 0 [])
  | .first =>
    recvLook freed s t c
      (if c.dontWait then s.exit t c.len c.dontWait 0 0 [] else (s.setCall t (some { c with point := .waiting }), []))
  | .waiting =>
    if 0 < s.recvNotice then some ({ s with recvNotice := s.recvNotice - 1 }.setCall t (some { c with point := .woken }), [])
    else none
  | .woken =>
    if s.state = .connect then some (s.setCall t (some { c with point := .second }), [])
    else some (s.exit t c.len c.dontWait 0 0 [])
  | .second => recvLook freed s t c (s.setCall t (some { c with point := .waiting }), [])

inductive AtSockOp
  /-- `at_recv_notice_cb` up to `rt_mutex_release`. -/
  | packet (block : Option Nat) (buff : List UInt8)
  /-- `at_closed_notice_cb` up to `rt_sem_release`. -/
  | close
  | notice (event : AtSocketEvt)
  | recvfrom (t : ThreadId) (len : Nat) (dontWait source : Bool)
  /-- `at_connect` of the device has returned, and the state is written. -/
  | connected (t : ThreadId) (result : Int)
  | resume (t : ThreadId) (freed : FreedLink)
  | timeout (t : ThreadId)

/-- "RT_ASSERT(bfsz)" of `at_recv_notice_cb`. -/
def stepSock (s : AtSock) : AtSockOp → Option (AtSock × List AtSockEvent)
  | .packet block buff =>
    if buff ≠ [] ∧ ∀ b ∈ block, b ∉ s.recvpktList.blocks then
      (atRecvpktPut s.recvpktList block buff).map fun r =>
        ({ s with recvpktList := r.1, callbacks := s.callbacks ++ [.recv] }, [.packet buff r.2])
    else none
  | .close =>
    some ({ s with
      rcvevent := AtSock.eventPlus s.rcvevent
      errevent := AtSock.eventPlus s.errevent
      state := .closed
      callbacks := s.callbacks ++ [.closed] }, [.closed])
  | .notice event =>
    if event ∈ s.callbacks then
      some ({ s with
        callbacks := s.callbacks.erase event
        recvNotice := (s.recvNotice + 1) % 65536
        rcvevent := if event = .recv then AtSock.eventPlus s.rcvevent else s.rcvevent }, [])
    else none
  | .recvfrom t len dontWait source =>
    if s.call t = none then
      let r := atRecvfrom s t len dontWait source
      some (r.1, .called t len dontWait :: r.2)
    else none
  | .connected t result =>
    (s.call t).bind fun c =>
      if c.point = .connecting then
        if result < 0 then some (s.exit t c.len c.dontWait (-1) 0 [])
        else some ({ s with state := .connect }.setCall t (some { c with point := .entered }), [])
      else none
  | .resume t freed => (s.call t).bind fun c => recvGo freed s t c c.point
  | .timeout t =>
    (s.call t).bind fun c =>
      if c.point = .waiting ∧ 0 ≤ s.timeout then
        let r := s.exit t c.len c.dontWait (-1) 0 []
        some (r.1, .timedOut t :: r.2)
      else none

/-- The link of a packet that is freed is still there, and the state that is written behind `at_connect` is not that of a remote close. -/
def SockFits (s : AtSock) : AtSockOp → Prop
  | .resume t freed => ∀ c ∈ s.call t, c.point = .first ∨ c.point = .second →
      RecvList.LinksKept freed s.recvpktList.pkt c.len s.recvpktList.blocks
  | .connected _ result => 0 ≤ result → s.state ≠ .closed
  | _ => True

instance (s : AtSock) (op : AtSockOp) : Decidable (SockFits s op) := by
  induction op using AtSockOp.casesOn <;> dsimp only [SockFits] <;> infer_instance

/-! ## What the calls report -/

def arrived (trace : List AtSockEvent) : List UInt8 :=
  trace.flatMap fun
    | .packet buff result => buff.take result
    | _ => []

def delivered (trace : List AtSockEvent) : List UInt8 :=
  trace.flatMap fun
    | .returned _ _ _ _ mem => mem
    | _ => []

def AtSockEvent.caller : AtSockEvent → Option ThreadId
  | .called t _ _ => some t
  | _ => none

/-- Behind the events `earlier` the thread has made its last call. -/
def CalledAt (earlier before : List AtSockEvent) (t : ThreadId) (len : Nat) (dontWait : Bool) : Prop :=
  ∃ during, before = earlier ++ .called t len dontWait :: during ∧ ∀ e ∈ during, e.caller ≠ some t

/-- What a call made behind the events `earlier` may return behind the events `before`, on a socket that was in the state `state₀`. -/
inductive SockReports (state₀ : AtSocketState) (earlier before : List AtSockEvent) (t : ThreadId) (len : Nat) (dontWait : Bool) :
    Int → List UInt8 → Prop
  | data (hopen : .closed ∉ earlier) (mem : List UInt8) (hne : mem ≠ [])
      (hnext : mem = ((arrived before).drop (delivered before).length).take len) :
      SockReports state₀ earlier before t len dontWait mem.length mem
  | endOfStream (hclosed : .closed ∈ before) : SockReports state₀ earlier before t len dontWait 0 []
  | wouldBlock (hopen : .closed ∉ earlier) (hdontWait : dontWait = true) (hall : delivered before = arrived before) :
      SockReports state₀ earlier before t len dontWait 0 []
  | timedOut (hopen : .closed ∉ earlier) (rest : List AtSockEvent) (hlast : before = rest ++ [.timedOut t]) :
      SockReports state₀ earlier before t len dontWait (-1) []
  | noLength (hlen : len = 0) : SockReports state₀ earlier before t len dontWait (-1) []
  | notConnected (hopen : .closed ∉ earlier) (hstate : state₀ ≠ .connect) :
      SockReports state₀ earlier before t len dontWait (-1) []
  /-- The remote close comes between the two tests of the state. -/
  | closing (hopen : .closed ∉ earlier) (hclosed : .closed ∈ before) : SockReports state₀ earlier before t len dontWait (-1) []

def SockEventOk (state₀ : AtSocketState) (before : List AtSockEvent) : AtSockEvent → List AtSockEvent → Prop
  | .returned t len dontWait result mem, _ =>
    ∃ earlier, CalledAt earlier before t len dontWait ∧ SockReports state₀ earlier before t len dontWait result mem
  | _, _ => True

structure SocketDelivery (state₀ : AtSocketState) (trace : List AtSockEvent) (s : AtSock) : Prop where
  stream : delivered trace ++ s.recvpktList.queued = arrived trace
  events : EachEvent (SockEventOk state₀) trace
  /-- On a connected socket a call that nothing interrupts returns what is queued. -/
  reads : ∀ t len dontWait source freed, s.state = .connect → s.call t = none → len ≠ 0 → s.recvpktList.queued ≠ [] →
    RecvList.LinksKept freed s.recvpktList.pkt len s.recvpktList.blocks →
    ∃ s₁ s₂ s₃ s₄, stepSock s (.recvfrom t len dontWait source) = some (s₁, [.called t len dontWait]) ∧
      stepSock s₁ (.resume t freed) = some (s₂, []) ∧ stepSock s₂ (.resume t freed) = some (s₃, []) ∧
      stepSock s₃ (.resume t freed) = some (s₄, [.returned t len dontWait (min len s.recvpktList.queued.length : Nat)
        (s.recvpktList.queued.take len)])
  /-- On a closed one a call that comes to its tests, or wakes up, returns nothing. -/
  ends : ∀ t c freed, s.state = .closed → s.call t = some c → c.point = .entered ∨ c.point = .woken →
    ∃ s', stepSock s (.resume t freed) = some (s', [.returned t c.len c.dontWait 0 []])

/-- What is known of a call made behind the events `earlier` when it is here. -/
def RecvPoint.Ok (state₀ state : AtSocketState) (earlier : List AtSockEvent) : RecvPoint → Prop
  | .connecting => .closed ∉ earlier ∧ state₀ ≠ .connect
  | .entered => True
  | .tested => .closed ∉ earlier
  | .first | .waiting | .woken | .second => .closed ∉ earlier ∧ (state = .connect ∨ state = .closed)

def RecvCall.Ok (state₀ state : AtSocketState) (trace : List AtSockEvent) (t : ThreadId) (c : RecvCall) : Prop :=
  c.len ≠ 0 ∧ ∃ earlier, CalledAt earlier trace t c.len c.dontWait ∧ c.point.Ok state₀ state earlier

structure SockInv (state₀ : AtSocketState) (trace : List AtSockEvent) (s : AtSock) : Prop where
  list : s.recvpktList.Inv
  stream : delivered trace ++ s.recvpktList.queued = arrived trace
  events : EachEvent (SockEventOk state₀) trace
  closed : s.state = .closed ↔ .closed ∈ trace
  connected : state₀ = .connect → s.state = .connect ∨ s.state = .closed
  calls : ∀ t c, s.call t = some c → c.Ok state₀ s.state trace t

variable {state₀ state : AtSocketState} {s s' : AtSock} {op : AtSockOp} {trace events earlier : List AtSockEvent} {t u : ThreadId}
  {len : Nat} {dontWait source : Bool} {freed : FreedLink} {c : RecvCall}

theorem arrived_append : arrived (trace ++ events) = arrived trace ++ arrived events := List.flatMap_append

theorem delivered_append : delivered (trace ++ events) = delivered trace ++ delivered events := List.flatMap_append

theorem AtSockEvent.caller_ne {e e' : AtSockEvent} (he : e' ∈ [e]) (hcaller : e.caller = none) (u : ThreadId) : e'.caller ≠ some u := by
  rw [List.mem_singleton.1 he, hcaller]
  exact (Option.some_ne_none u).symm

theorem SockEventOk.mono {before after : List AtSockEvent} {e : AtSockEvent} (h : SockEventOk state₀ before e after)
    (events : List AtSockEvent) : SockEventOk state₀ before e (after ++ events) := by
  cases e <;> exact h

theorem CalledAt.append (h : CalledAt earlier trace t len dontWait) (hcaller : ∀ e ∈ events, e.caller ≠ some t) :
    CalledAt earlier (trace ++ events) t len dontWait := by
  obtain ⟨during, rfl, hduring⟩ := h
  refine ⟨during ++ events, by rw [List.append_assoc, List.cons_append], fun e he => ?_⟩
  exact (List.mem_append.1 he).elim (hduring e) (hcaller e)

theorem calledAt_concat (trace : List AtSockEvent) (t : ThreadId) (len : Nat) (dontWait : Bool) :
    CalledAt trace (trace ++ [.called t len dontWait]) t len dontWait := ⟨[], rfl, fun _ he => absurd he List.not_mem_nil⟩

theorem RecvPoint.Ok.mono {point : RecvPoint} (h : point.Ok state₀ s.state earlier)
    (hstate : s'.state = s.state ∨ s'.state = .connect ∨ s'.state = .closed) : point.Ok state₀ s'.state earlier := by
  cases point with
  | connecting | entered | tested => exact h
  | first | waiting | woken | second =>
    refine ⟨h.1, ?_⟩
    rcases hstate with hsame | hstate
    · rw [hsame]
      exact h.2
    · exact hstate

namespace SockInv

/-- A step that takes every call either as it is or to where it may be. -/
theorem move (h : SockInv state₀ trace s) (hlist : s'.recvpktList.Inv)
    (hstream : delivered (trace ++ events) ++ s'.recvpktList.queued = arrived (trace ++ events))
    (hevents : EachEvent (SockEventOk state₀) (trace ++ events)) (hclosed : s'.state = .closed ↔ .closed ∈ trace ++ events)
    (hstate : s'.state = s.state ∨ s'.state = .connect ∨ s'.state = .closed)
    (hcalls : ∀ u c, s'.call u = some c → s.call u = some c ∧ (∀ e ∈ events, e.caller ≠ some u) ∨
      c.Ok state₀ s'.state (trace ++ events) u) : SockInv state₀ (trace ++ events) s' where
  list := hlist
  stream := hstream
  events := hevents
  closed := hclosed
  connected hconnect := by
    rcases hstate with hsame | hstate
    · rw [hsame]
      exact h.connected hconnect
    · exact hstate
  calls u c hc := by
    rcases hcalls u c hc with ⟨hold, hcaller⟩ | hnew
    · obtain ⟨hlen, earlier, hcalled, hpoint⟩ := h.calls u c hold
      exact ⟨hlen, earlier, hcalled.append hcaller, hpoint.mono hstate⟩
    · exact hnew

/-- The packets and the state stay as they are. -/
theorem quiet (h : SockInv state₀ trace s) (hlist : s'.recvpktList = s.recvpktList) (hstate : s'.state = s.state)
    (harrived : arrived events = []) (hdelivered : delivered events = []) (hclosed : .closed ∉ events)
    (hevents : EachEvent (SockEventOk state₀) (trace ++ events))
    (hcalls : ∀ u c, s'.call u = some c → s.call u = some c ∧ (∀ e ∈ events, e.caller ≠ some u) ∨
      c.Ok state₀ s.state (trace ++ events) u) : SockInv state₀ (trace ++ events) s' := by
  refine h.move (hlist ▸ h.list) ?_ hevents ?_ (.inl hstate) (hstate ▸ hcalls)
  · rw [arrived_append, delivered_append, harrived, hdelivered, List.append_nil, List.append_nil, hlist, h.stream]
  · rw [hstate, h.closed, List.mem_append, or_iff_left hclosed]

theorem calls_update {call : Option RecvCall} {P : ThreadId → RecvCall → Prop} (hcall : ∀ c, call = some c → P t c)
    (hothers : ∀ u c, u ≠ t → s.call u = some c → P u c) : ∀ u c, update s.call t call u = some c → P u c := by
  intro u c hc
  by_cases hu : u = t
  · rw [hu, update_self] at hc
    rw [hu]
    exact hcall c hc
  · rw [update_of_ne hu] at hc
    exact hothers u c hu hc

/-- A call returns without a byte. -/
theorem exit_none (h : SockInv state₀ trace s) {result : Int} (before : List AtSockEvent) (hbefore : arrived before = [] ∧
      delivered before = [] ∧ .closed ∉ before ∧ ∀ e ∈ before, ∀ u ≠ t, e.caller ≠ some u)
    (hevents : EachEvent (SockEventOk state₀) (trace ++ before)) (hcalled : CalledAt earlier (trace ++ before) t len dontWait)
    (hreports : SockReports state₀ earlier (trace ++ before) t len dontWait result []) :
    SockInv state₀ (trace ++ (before ++ (s.exit t len dontWait result 0 []).2)) (s.exit t len dontWait result 0 []).1 := by
  have hexit : s.exit t len dontWait result 0 [] =
      ({ s with errevent := AtSock.eventPlus s.errevent }.setCall t none, [.returned t len dontWait result []]) :=
    if_neg (Nat.lt_irrefl 0)
  obtain ⟨harrived, hdelivered, hclosed, hcaller⟩ := hbefore
  rw [hexit]
  refine h.quiet rfl rfl ?_ ?_ ?_ ?_ (calls_update (fun c hc => by cases hc) fun u c hu hc => .inl ⟨hc, fun e he => ?_⟩)
  · rw [arrived_append, harrived]
    rfl
  · rw [delivered_append, hdelivered]
    rfl
  · rw [List.mem_append, or_iff_right hclosed]
    simp
  · rw [← List.append_assoc]
    exact hevents.concat (fun _ _ _ hP => hP.mono _) ⟨earlier, hcalled, hreports⟩
  · rcases List.mem_append.1 he with he | he
    · exact hcaller e he u hu
    · exact AtSockEvent.caller_ne he rfl u

theorem exit_now (h : SockInv state₀ trace s) {result : Int} (hcalled : CalledAt earlier trace t len dontWait)
    (hreports : SockReports state₀ earlier trace t len dontWait result []) :
    SockInv state₀ (trace ++ (s.exit t len dontWait result 0 []).2) (s.exit t len dontWait result 0 []).1 := by
  have hnil : trace ++ [] = trace := List.append_nil trace
  have hevents : EachEvent (SockEventOk state₀) (trace ++ []) := by rw [hnil]; exact h.events
  have hcalled' : CalledAt earlier (trace ++ []) t len dontWait := by rw [hnil]; exact hcalled
  refine h.exit_none [] ⟨rfl, rfl, List.not_mem_nil, fun _ he => absurd he List.not_mem_nil⟩ hevents hcalled' ?_
  rw [hnil]
  exact hreports

theorem queued_eq (h : SockInv state₀ trace s) :
    s.recvpktList.queued = (arrived trace).drop (delivered trace).length := by
  rw [← h.stream, List.drop_left]

theorem look (h : SockInv state₀ trace s) {otherwise : AtSock × List AtSockEvent} (hlen : c.len ≠ 0)
    (hcalled : CalledAt earlier trace t c.len c.dontWait) (hopen : .closed ∉ earlier)
    (hkept : RecvList.LinksKept freed s.recvpktList.pkt c.len s.recvpktList.blocks)
    (hotherwise : s.recvpktList.queued = [] → SockInv state₀ (trace ++ otherwise.2) otherwise.1)
    (hlook : recvLook freed s t c otherwise = some (s', events)) : SockInv state₀ (trace ++ events) s' := by
  obtain ⟨list, hget, hlist, hqueued⟩ := h.list.get hkept
  rw [recvLook, hget, Option.map_some] at hlook
  dsimp only at hlook
  split_ifs at hlook with hpos
  · have hexit : (AtSock.mk s.type s.state list s.recvNotice s.recvTimeout s.rcvevent s.errevent s.tickPerSecond s.callbacks
        s.call).exit t c.len c.dontWait 0 (min c.len s.recvpktList.queued.length) (s.recvpktList.queued.take c.len) = _ :=
      if_pos hpos
    rw [hexit] at hlook
    cases hlook
    have hne : s.recvpktList.queued.take c.len ≠ [] := by
      intro hnil
      have hlength := congrArg List.length hnil
      rw [List.length_take, List.length_nil] at hlength
      omega
    have hdelivered : delivered [.returned t c.len c.dontWait (min c.len s.recvpktList.queued.length : Nat)
        (s.recvpktList.queued.take c.len)] = s.recvpktList.queued.take c.len := List.append_nil _
    refine h.move hlist ?_ (h.events.concat (fun _ _ _ hP => hP.mono _) ⟨earlier, hcalled, ?_⟩) ?_ (.inl rfl)
      (calls_update (fun c hc => by cases hc) fun u c _ hc => .inl ⟨hc, fun e he => AtSockEvent.caller_ne he rfl u⟩)
    · rw [arrived_append, delivered_append, hdelivered]
      change delivered trace ++ s.recvpktList.queued.take c.len ++ list.queued = arrived trace ++ []
      rw [hqueued, List.append_assoc, List.take_append_drop, List.append_nil, h.stream]
    · have hresult : ((min c.len s.recvpktList.queued.length : Nat) : Int) = (s.recvpktList.queued.take c.len).length := by
        rw [List.length_take]
      rw [hresult]
      exact .data hopen _ hne (by rw [h.queued_eq])
    · rw [List.mem_append, or_iff_left (by simp)]
      exact h.closed
  · have hempty : s.recvpktList.queued = [] := List.eq_nil_of_length_eq_zero (by omega)
    obtain ⟨rfl⟩ := Option.some.inj hlook
    exact hotherwise hempty

theorem goOn (h : SockInv state₀ trace s) (hlen : c.len ≠ 0) (hcalled : CalledAt earlier trace t c.len c.dontWait)
    (hpoint : c.point.Ok state₀ s.state earlier) (recvNotice : Nat) :
    SockInv state₀ (trace ++ []) ({ s with recvNotice := recvNotice }.setCall t (some c)) := by
  refine h.quiet rfl rfl rfl rfl List.not_mem_nil ?_ (calls_update (fun c' hc => .inr ?_) fun u c' _ hc => .inl ⟨hc, ?_⟩)
  · rw [List.append_nil]
    exact h.events
  · obtain rfl := Option.some.inj hc
    rw [List.append_nil]
    exact ⟨hlen, earlier, hcalled, hpoint⟩
  · exact fun e he => absurd he List.not_mem_nil

theorem notConnected (h : SockInv state₀ trace s) (hconnect : s.state ≠ .connect) (hclosed : s.state ≠ .closed) : state₀ ≠ .connect :=
  fun hstate => (h.connected hstate).elim hconnect hclosed

theorem recvfrom (h : SockInv state₀ trace s) (hcall : s.call t = none) : SockInv state₀ (trace ++ .called t len dontWait :: (atRecvfrom s t len dontWait source).2)
    (atRecvfrom s t len dontWait source).1 := by
  have hconcat : EachEvent (SockEventOk state₀) (trace ++ [.called t len dontWait]) :=
    h.events.concat (fun _ _ _ hP => hP.mono _) trivial
  have hothers : ∀ u, u ≠ t → ∀ e ∈ [AtSockEvent.called t len dontWait], e.caller ≠ some u := by
    intro u hu e he
    cases List.mem_singleton.1 he
    exact fun heq => hu (Option.some.inj heq).symm
  rw [atRecvfrom]
  by_cases hlen : len = 0
  · rw [if_pos hlen]
    refine h.quiet rfl rfl rfl rfl (by simp) ?_ fun u c hc => ?_
    · have hreturned := hconcat.concat (fun _ _ _ hP => hP.mono _)
        (show SockEventOk state₀ (trace ++ [.called t len dontWait]) (.returned t len dontWait (-1) []) [] from
          ⟨trace, calledAt_concat .., .noLength hlen⟩)
      rw [List.append_assoc] at hreturned
      exact hreturned
    · have hu : u ≠ t := fun heq => Option.some_ne_none _ ((heq ▸ hc).symm.trans hcall)
      refine .inl ⟨hc, fun e he => ?_⟩
      rcases List.mem_cons.1 he with rfl | he
      · exact hothers u hu _ List.mem_cons_self
      · exact AtSockEvent.caller_ne he rfl u
  · rw [if_neg hlen]
    refine h.quiet rfl rfl rfl rfl (by simp) hconcat (calls_update (fun c hc => .inr ?_) fun u c hu hc => .inl ⟨hc, hothers u hu⟩)
    obtain rfl := Option.some.inj hc
    refine ⟨hlen, trace, calledAt_concat .., ?_⟩
    dsimp only
    split_ifs with hconnecting
    · have hnone : s.state ≠ .closed := by
        rw [hconnecting.2.2]
        exact AtSocketState.noConfusion
      refine ⟨mt h.closed.2 hnone, h.notConnected ?_ hnone⟩
      rw [hconnecting.2.2]
      exact AtSocketState.noConfusion
    · exact trivial

theorem packet (h : SockInv state₀ trace s) {block : Option Nat} {buff : List UInt8}
    (hs : stepSock s (.packet block buff) = some (s', events)) : SockInv state₀ (trace ++ events) s' := by
  rw [stepSock] at hs
  split_ifs at hs with hok
  have hput : ∃ list, atRecvpktPut s.recvpktList block buff = some (list, (block.elim 0 fun _ => buff.length)) ∧ list.Inv ∧
      list.queued = s.recvpktList.queued ++ buff.take (block.elim 0 fun _ => buff.length) := by
    cases block with
    | none => exact ⟨s.recvpktList, rfl, h.list, (List.append_nil _).symm⟩
    | some b =>
      obtain ⟨list, hput, hlist, hqueued⟩ := h.list.put (hok.2 b rfl) buff
      refine ⟨list, hput, hlist, ?_⟩
      rw [hqueued, Option.elim_some, List.take_length]
  obtain ⟨list, hput, hlist, hqueued⟩ := hput
  rw [hput, Option.map_some] at hs
  cases hs
  refine h.move hlist ?_ (h.events.concat (fun _ _ _ hP => hP.mono _) trivial) ?_ (.inl rfl) fun u c hc => .inl ⟨hc, fun e he => AtSockEvent.caller_ne he rfl u⟩
  · rw [arrived_append, delivered_append, hqueued, ← h.stream]
    change delivered trace ++ [] ++ _ = _ ++ (buff.take _ ++ [])
    rw [List.append_nil, List.append_nil, List.append_assoc]
  · rw [List.mem_append, or_iff_left (by simp)]
    exact h.closed

theorem close (h : SockInv state₀ trace s) (hs : stepSock s .close = some (s', events)) : SockInv state₀ (trace ++ events) s' := by
  cases hs
  refine h.move h.list ?_ (h.events.concat (fun _ _ _ hP => hP.mono _) trivial) ?_ (.inr (.inr rfl)) fun u c hc => .inl ⟨hc, fun e he => AtSockEvent.caller_ne he rfl u⟩
  · rw [arrived_append, delivered_append, ← h.stream]
    change delivered trace ++ [] ++ _ = _ ++ []
    rw [List.append_nil, List.append_nil]
  · exact ⟨fun _ => List.mem_append_right _ List.mem_cons_self, fun _ => rfl⟩

theorem connect (h : SockInv state₀ trace s) {result : Int} (hok : SockFits s (.connected t result))
    (hs : stepSock s (.connected t result) = some (s', events)) : SockInv state₀ (trace ++ events) s' := by
  obtain ⟨c, hcall, hs⟩ := Option.bind_eq_some_iff.1 hs
  split_ifs at hs with hpoint hfails <;> cases hs
  all_goals obtain ⟨hlen, earlier, hcalled, hknown⟩ := h.calls t c hcall
  all_goals rw [hpoint] at hknown
  · exact h.exit_now hcalled (.notConnected hknown.1 hknown.2)
  · -- the write of the state
    have hopen : s.state ≠ .closed := hok (Int.not_lt.1 hfails)
    refine h.move h.list ?_ ?_ ?_ (.inr (.inl rfl))
      (calls_update (fun c' hc => .inr ?_) fun u c' _ hc => .inl ⟨hc, fun e he => absurd he List.not_mem_nil⟩) <;> rw [List.append_nil]
    · exact h.stream
    · exact h.events
    · exact iff_of_false AtSocketState.noConfusion (mt h.closed.2 hopen)
    · obtain rfl := Option.some.inj hc
      exact ⟨hlen, earlier, hcalled, trivial⟩

theorem resume (h : SockInv state₀ trace s) (hok : SockFits s (.resume t freed))
    (hs : stepSock s (.resume t freed) = some (s', events)) : SockInv state₀ (trace ++ events) s' := by
  obtain ⟨c, hcall, hs⟩ := Option.bind_eq_some_iff.1 hs
  obtain ⟨hlen, earlier, hcalled, hpoint⟩ := h.calls t c hcall
  have hkept := hok c hcall
  obtain ⟨len, dontWait, point⟩ := c
  cases point with
  | connecting => cases hs
  | entered =>
    dsimp only [recvGo] at hs
    split_ifs at hs with hclosed <;> cases hs
    · exact h.exit_now hcalled (.endOfStream (h.closed.1 hclosed))
    · refine h.goOn (c := ⟨len, dontWait, .tested⟩) hlen hcalled (fun hmem => hclosed (h.closed.2 ?_)) s.recvNotice
      obtain ⟨during, rfl, -⟩ := hcalled
      exact List.mem_append_left _ hmem
  | tested =>
    dsimp only [recvGo] at hs
    split_ifs at hs with hconnect <;> cases hs
    · exact h.goOn (c := ⟨len, dontWait, .first⟩) hlen hcalled ⟨hpoint, .inl hconnect⟩ s.recvNotice
    · by_cases hclosed : s.state = .closed
      · exact h.exit_now hcalled (.closing hpoint (h.closed.1 hclosed))
      · exact h.exit_now hcalled (.notConnected hpoint (h.notConnected hconnect hclosed))
  | first =>
    refine h.look hlen hcalled hpoint.1 (hkept (.inl rfl)) (fun hempty => ?_) hs
    split_ifs with hdontWait
    · refine h.exit_now hcalled (.wouldBlock hpoint.1 hdontWait ?_)
      rw [← h.stream, hempty, List.append_nil]
    · exact h.goOn (c := ⟨len, dontWait, .waiting⟩) hlen hcalled hpoint s.recvNotice
  | waiting =>
    dsimp only [recvGo] at hs
    split_ifs at hs with hpermit
    cases hs
    exact h.goOn (c := ⟨len, dontWait, .woken⟩) hlen hcalled hpoint _
  | woken =>
    dsimp only [recvGo] at hs
    split_ifs at hs with hconnect <;> cases hs
    · exact h.goOn (c := ⟨len, dontWait, .second⟩) hlen hcalled hpoint s.recvNotice
    · exact h.exit_now hcalled (.endOfStream (h.closed.1 (hpoint.2.resolve_left hconnect)))
  | second =>
    exact h.look hlen hcalled hpoint.1 (hkept (.inr rfl)) (fun _ => h.goOn (c := ⟨len, dontWait, .waiting⟩) hlen hcalled hpoint s.recvNotice) hs

theorem timeout (h : SockInv state₀ trace s) (hs : stepSock s (.timeout t) = some (s', events)) :
    SockInv state₀ (trace ++ events) s' := by
  obtain ⟨c, hcall, hs⟩ := Option.bind_eq_some_iff.1 hs
  split_ifs at hs with hexpired
  cases hs
  obtain ⟨-, earlier, hcalled, hpoint⟩ := h.calls t c hcall
  rw [hexpired.1] at hpoint
  exact h.exit_none [.timedOut t] ⟨rfl, rfl, by simp, fun e he u _ => AtSockEvent.caller_ne he rfl u⟩
    (h.events.concat (fun _ _ _ hP => hP.mono _) trivial) (hcalled.append fun e he => AtSockEvent.caller_ne he rfl t)
    (.timedOut hpoint.1 trace rfl)

theorem step (h : SockInv state₀ trace s) (hok : SockFits s op) (hs : stepSock s op = some (s', events)) :
    SockInv state₀ (trace ++ events) s' := by
  cases op with
  | packet block buff => exact h.packet hs
  | close => exact h.close hs
  | notice event =>
    rw [stepSock] at hs
    by_cases hmem : event ∈ s.callbacks
    · rw [if_pos hmem] at hs
      cases hs
      refine h.quiet rfl rfl rfl rfl List.not_mem_nil ?_ fun u c hc => .inl ⟨hc, fun e he => absurd he List.not_mem_nil⟩
      rw [List.append_nil]
      exact h.events
    · rw [if_neg hmem] at hs
      cases hs
  | recvfrom t len dontWait source =>
    rw [stepSock] at hs
    split_ifs at hs with hcall
    cases hs
    exact h.recvfrom hcall
  | connected t result => exact h.connect hok hs
  | resume t freed => exact h.resume hok hs
  | timeout t => exact h.timeout hs

theorem start (type : AtSocketType) (hstate : state₀ ≠ .closed) (recvTimeout tickPerSecond : Int) :
    SockInv state₀ [] (AtSock.init type state₀ recvTimeout tickPerSecond) where
  list := StreamInv.start.inv
  stream := rfl
  events := .nil
  closed := ⟨fun hclosed => absurd hclosed hstate, fun hmem => by cases hmem⟩
  connected h := .inl h
  calls t c hc := by cases hc

end SockInv

/-! ## Runs -/

theorem stepSock_resume (hcall : s.call t = some c) : stepSock s (.resume t freed) = recvGo freed s t c c.point := by
  rw [stepSock, hcall, Option.bind_some]

theorem AtSock.call_setCall (s : AtSock) (t : ThreadId) (call : Option RecvCall) : (s.setCall t call).call t = call := update_self ..

/-- A call on a connected socket up to its look at the list. -/
theorem stepSock_first (hstate : s.state = .connect) (hcall : s.call t = none) (hlen : len ≠ 0) :
    ∃ s₁ s₂ s₃, stepSock s (.recvfrom t len dontWait source) = some (s₁, [.called t len dontWait]) ∧
      stepSock s₁ (.resume t freed) = some (s₂, []) ∧ stepSock s₂ (.resume t freed) = some (s₃, []) ∧
      s₃.call t = some ⟨len, dontWait, .first⟩ ∧ s₃.recvpktList = s.recvpktList := by
  have hnot : ¬ (source = true ∧ s.type = .udp ∧ s.state = .none) := by
    rw [hstate]
    exact fun hno => AtSocketState.noConfusion hno.2.2
  have hopen : s.state ≠ .closed := by
    rw [hstate]
    exact AtSocketState.noConfusion
  obtain ⟨s₁, hs₁⟩ : ∃ s₁, s.setCall t (some ⟨len, dontWait, .entered⟩) = s₁ := ⟨_, rfl⟩
  obtain ⟨s₂, hs₂⟩ : ∃ s₂, s₁.setCall t (some ⟨len, dontWait, .tested⟩) = s₂ := ⟨_, rfl⟩
  refine ⟨s₁, s₂, s₂.setCall t (some ⟨len, dontWait, .first⟩), ?_, ?_, ?_, s₂.call_setCall .., ?_⟩
  · rw [stepSock, if_pos hcall, atRecvfrom, if_neg hlen]
    dsimp only
    rw [if_neg hnot, hs₁]
  · have hcall₁ : s₁.call t = some ⟨len, dontWait, .entered⟩ := hs₁ ▸ s.call_setCall ..
    have hopen₁ : s₁.state ≠ .closed := hs₁ ▸ hopen
    rw [stepSock_resume hcall₁]
    dsimp only [recvGo]
    rw [if_neg hopen₁, hs₂]
  · have hcall₂ : s₂.call t = some ⟨len, dontWait, .tested⟩ := hs₂ ▸ s₁.call_setCall ..
    have hstate₂ : s₂.state = .connect := by
      rw [← hs₂, ← hs₁]
      exact hstate
    rw [stepSock_resume hcall₂]
    dsimp only [recvGo]
    rw [if_pos hstate₂]
  · rw [← hs₂, ← hs₁]
    rfl

theorem stepSock_look {list : RecvList} {recvLen : Nat} {mem : List UInt8} (hcall : s.call t = some ⟨len, dontWait, .first⟩)
    (hget : atRecvpktGet freed s.recvpktList len = some (list, recvLen, mem)) (hpos : 0 < recvLen) :
    ∃ s', stepSock s (.resume t freed) = some (s', [.returned t len dontWait recvLen mem]) := by
  rw [stepSock_resume hcall]
  dsimp only [recvGo]
  rw [recvLook, hget, Option.map_some]
  dsimp only
  rw [if_pos hpos, AtSock.exit, if_pos hpos]
  exact ⟨_, rfl⟩

/-- In every run of a socket that is not closed at its start, any number of threads receiving from it. -/
theorem socketDelivery_of_run {type : AtSocketType} {recvTimeout tickPerSecond : Int} (hstate : state₀ ≠ .closed)
    (hrun : Run stepSock SockFits (AtSock.init type state₀ recvTimeout tickPerSecond) trace s) :
    SocketDelivery state₀ trace s := by
  have h : SockInv state₀ trace s := by
    refine hrun.invariant (.start type hstate recvTimeout tickPerSecond) fun trace s op s' events => ?_
    exact fun hinv hok hs => hinv.step hok hs
  refine ⟨h.stream, h.events, fun t len dontWait source freed hconnect hcall hlen hne hkept => ?_,
    fun t c freed hclosed hcall hpoint => ?_⟩
  · obtain ⟨list, hget, -, -⟩ := h.list.get hkept
    have hpos : 0 < min len s.recvpktList.queued.length := by
      have hlength := mt List.eq_nil_of_length_eq_zero hne
      omega
    obtain ⟨s₁, s₂, s₃, hcalled, hentered, htested, hfirst, hlist⟩ := stepSock_first hconnect hcall hlen
    obtain ⟨s₄, hlook⟩ := stepSock_look hfirst ((congrArg (atRecvpktGet freed · len) hlist).trans hget) hpos
    exact ⟨s₁, s₂, s₃, s₄, hcalled, hentered, htested, hlook⟩
  · rw [stepSock_resume hcall]
    have hnot : s.state ≠ .connect := by
      rw [hclosed]
      exact AtSocketState.noConfusion
    have hexit : s.exit t c.len c.dontWait 0 0 [] = (_, [.returned t c.len c.dontWait 0 []]) := if_neg (Nat.lt_irrefl 0)
    rcases hpoint with hpoint | hpoint <;> rw [hpoint] <;> dsimp only [recvGo]
    · rw [if_pos hclosed, hexit]
      exact ⟨_, rfl⟩
    · rw [if_neg hnot, hexit]
      exact ⟨_, rfl⟩

/-- A read before the close gets its bytes, one behind it nothing. -/
theorem socketDelivery_of_run_closed : ∃ trace s,
    Run stepSock SockFits (AtSock.init .tcp .connect 0 1000) trace s ∧
    trace = [.packet [1, 2, 3] 3, .called 0 2 false, .returned 0 2 false 2 [1, 2], .closed, .called 0 2 false,
      .returned 0 2 false 0 []] ∧ SocketDelivery .connect trace s := by
  obtain ⟨trace, s, hrun, hfound⟩ := @exists_run_of_exec _ _ _ stepSock SockFits (.init .tcp .connect 0 1000) _
    [.packet (some 0) [1, 2, 3], .notice .recv, .recvfrom 0 2 false false, .resume 0 memLink, .resume 0 memLink, .resume 0 memLink, .close, .notice .closed,
      .recvfrom 0 2 false false, .resume 0 memLink]
    (fun trace _ => decide (trace = [.packet [1, 2, 3] 3, .called 0 2 false, .returned 0 2 false 2 [1, 2], .closed,
      .called 0 2 false, .returned 0 2 false 0 []])) (by decide +kernel)
  exact ⟨trace, s, hrun, of_decide_eq_true hfound, socketDelivery_of_run AtSocketState.noConfusion hrun⟩

/-- Bytes that arrived before the close are still queued when a call reports the end of the stream. -/
theorem closeDelivery_fails : ∃ trace s,
    Run stepSock SockFits (AtSock.init .tcp .connect 0 1000) trace s ∧
    trace = [.packet [1, 2, 3] 3, .closed, .called 0 10 false, .returned 0 10 false 0 []] ∧ delivered trace = [] ∧
    s.recvpktList.queued = [1, 2, 3] := by
  obtain ⟨trace, s, hrun, hfound⟩ := @exists_run_of_exec _ _ _ stepSock SockFits (.init .tcp .connect 0 1000) _
    [.packet (some 0) [1, 2, 3], .notice .recv, .close, .notice .closed, .recvfrom 0 10 false false, .resume 0 memLink]
    (fun trace s => decide (trace = [.packet [1, 2, 3] 3, .closed, .called 0 10 false, .returned 0 10 false 0 []] ∧
      delivered trace = [] ∧ s.recvpktList.queued = [1, 2, 3])) (by decide +kernel)
  exact ⟨trace, s, hrun, of_decide_eq_true hfound⟩

end RtThread
