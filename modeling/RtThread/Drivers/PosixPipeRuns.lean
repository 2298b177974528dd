import RtThread.Drivers.PosixPipe

/-!
# The end of file of a pipe

What is needed of the close of the last writer: the buffer is empty and no write is under way; and when it wakes up the readers, at most one of them waits or is going to. No more than 255 descriptors are open, as far as the counters reach. In such a run a read returns 0 only where nothing is left of what was written, and without a writer no reader waits.
-/

namespace RtThread

def putBytes (trace : List PosixEvent) : List UInt8 :=
  trace.flatMap fun
    | .put _ bytes => bytes
    | _ => []

def gotBytes (trace : List PosixEvent) : List UInt8 :=
  trace.flatMap fun
    | .got _ bytes => bytes
    | _ => []

namespace PosixPipe

def Between (s : PosixPipe) (t : ThreadId) : Prop :=
  ∃ count nonblock, s.call t = some (.read count nonblock .emptied) ∨ s.call t = some (.read count nonblock .checked)

def Resumed (s : PosixPipe) (t : ThreadId) : Prop :=
  ∃ count nonblock, s.call t = some (.read count nonblock .wait) ∧ t ∉ s.readerQueue.waitingList

def Putting (s : PosixPipe) (t : ThreadId) : Prop :=
  ∃ buffer nonblock ret wakeup point, s.call t = some (.write buffer nonblock ret wakeup point) ∧ ∀ result, point ≠ .wake result

def Waking (s : PosixPipe) : Prop := ∃ t, s.call t = some (.close .wakeReaders)

/-- The next wake-up is enough for the readers: one of them waits, or one is going to wait and will find the flag set. -/
def OneReader (s : PosixPipe) : Prop :=
  s.readerQueue.waitingList.length ≤ 1 ∧ (∀ t, ¬s.Between t) ∨
    s.readerQueue.waitingList = [] ∧ ∃ r, (∀ t, s.Between t → t = r) ∧ ∀ t, ¬s.Resumed t

end PosixPipe

/-- The last writer closes when the buffer is empty and no write is under way, and its wake-up is enough for the readers; the counters have room for a descriptor that is opened. -/
def LastCloseFits (s : PosixPipe) : PosixOp → Prop
  | .openFd _ _ _ => s.fds.length < 255
  | .closeFd _ _ fd => fd.access.writes = true → s.writers = 1 → s.contents = [] ∧ ∀ t, ¬s.Putting t
  | .go t => s.call t = some (.close .wakeReaders) → s.writers = 0 → s.OneReader
  | _ => True

abbrev PosixRun (ok : PosixPipe → PosixOp → Prop) (bufsz : Nat) : List PosixEvent → PosixPipe → Prop :=
  Transition.Run (stepPosix bufsz) ok .init

theorem exists_posixRun (bufsz : Nat) (ops : List PosixOp) (found : List PosixEvent → PosixPipe → Bool)
    (h : ((Transition.exec (stepPosix bufsz) (fun _ _ => True) .init ops).any fun r => found r.1 r.2) = true) :
    ∃ trace s, PosixRun (fun _ _ => True) bufsz trace s ∧ found trace s = true :=
  Transition.exists_run_of_exec ops found h

/-! ## What every state keeps -/

variable {bufsz n : Nat} {s s' : PosixPipe} {op : PosixOp} {trace events : List PosixEvent} {t u : ThreadId} {fd : PosixFd}

namespace PosixPipe

def Calm (s : PosixPipe) : Prop :=
  s.readerQueue.waitingList = [] ∧
    ((∀ t, ¬s.Between t) ∨ s.readerQueue.flag = true ∧ ∃ r, (∀ t, s.Between t → t = r) ∧ ∀ t, ¬s.Resumed t)

/-- The counters stand for the descriptors, and a close has the lock until it ends. -/
structure Counts (s : PosixPipe) : Prop where
  few : s.fds.length < 256
  writers : s.writers = s.openWriters
  closing : ∀ t point, s.call t = some (.close point) → s.lock = some t ∧ s.refCount = s.fds.length + 1 ∧ s.fds.length < 255
  refCount : (∀ t point, s.call t ≠ some (.close point)) → s.refCount = s.fds.length
  got : ∀ t count nonblock data, s.call t = some (.read count nonblock (.wakeWriter data)) ∨
    s.call t = some (.read count nonblock (.out data)) → s.lock = some t

/-- Without a writer the buffer is empty, nothing can come into it, and the readers have been taken care of. -/
structure Quiet (s : PosixPipe) : Prop where
  contents : s.contents = []
  putting : ∀ t, ¬s.Putting t
  readers : s.Waking ∨ s.Calm

structure Holds (s : PosixPipe) (trace : List PosixEvent) : Prop where
  bytes : putBytes trace = gotBytes trace ++ s.contents
  fifo : ∀ fifo, s.fifo = some fifo → ∃ capacity q, fifo.Represents capacity q

theorem contents_of_represents {fifo : RingBuffer} {capacity : Nat} {q : List UInt8} (hfifo : s.fifo = some fifo)
    (h : fifo.Represents capacity q) : s.contents = q := by
  obtain ⟨-, -, hcontents⟩ := h
  rw [contents, hfifo]
  exact hcontents

@[simp] theorem setCall_self {call : Option PosixCall} : (s.setCall t call).call t = call := Function.update_self ..

theorem setCall_ne {call : Option PosixCall} (hu : u ≠ t) : (s.setCall t call).call u = s.call u := Function.update_of_ne hu ..

end PosixPipe

def EofFits (before : List PosixEvent) : PosixEvent → Prop
  | .eof _ buffered writers => buffered = [] ∧ writers = 0 ∧ putBytes before = gotBytes before
  | _ => True

structure PosixInv (trace : List PosixEvent) (s : PosixPipe) : Prop where
  counts : s.Counts
  holds : s.Holds trace
  eofs : EachEvent (fun before e _ => EofFits before e) trace
  quiet : s.writers = 0 → s.Quiet

theorem putBytes_append (events : List PosixEvent) : putBytes (trace ++ events) = putBytes trace ++ putBytes events :=
  List.flatMap_append

theorem gotBytes_append (events : List PosixEvent) : gotBytes (trace ++ events) = gotBytes trace ++ gotBytes events :=
  List.flatMap_append

theorem PosixPipe.Between.congr (hcall : s'.call t = s.call t) : s'.Between t ↔ s.Between t := by
  rw [Between, Between, hcall]

theorem PosixPipe.Putting.congr (hcall : s'.call t = s.call t) : s'.Putting t ↔ s.Putting t := by
  rw [Putting, Putting, hcall]

/-- Where one thread goes on, the readers stay as calm as they are: it is not a new one that is going to wait, and if it clears
the flag nobody is left who needs it. -/
theorem PosixPipe.Calm.go (h : s.Calm) (hothers : ∀ u ≠ t, s'.call u = s.call u) (hwaiting : s'.readerQueue.waitingList = [])
    (hbetween : s'.Between t → s.Between t) (hresumed : ¬s'.Resumed t)
    (hflag : s'.readerQueue.flag = true ∨ s'.readerQueue.flag = s.readerQueue.flag ∨ ¬s'.Between t ∧ (s.Between t ∨ s.Resumed t)) :
    s'.Calm := by
  have hback : ∀ u, s'.Between u → s.Between u := by
    intro u hu
    by_cases heq : u = t
    · subst heq
      exact hbetween hu
    · exact (Between.congr (hothers u heq)).1 hu
  obtain ⟨hempty, hnone | ⟨hset, r, honly, hno⟩⟩ := h
  · exact ⟨hwaiting, .inl fun u hu => hnone u (hback u hu)⟩
  · refine ⟨hwaiting, ?_⟩
    have hkept : s'.readerQueue.flag = true → (∃ r, (∀ u, s'.Between u → u = r) ∧ ∀ u, ¬s'.Resumed u) := by
      refine fun _ => ⟨r, fun u hu => honly u (hback u hu), fun u hu => ?_⟩
      by_cases heq : u = t
      · subst heq
        exact hresumed hu
      · obtain ⟨count, nonblock, hcall, -⟩ := hu
        refine hno u ⟨count, nonblock, (hothers u heq).symm.trans hcall, ?_⟩
        rw [hempty]
        exact List.not_mem_nil
    rcases hflag with hset' | hsame | ⟨hgone, hwas | hwas⟩
    · exact .inr ⟨hset', hkept hset'⟩
    · exact .inr ⟨hsame.trans hset, hkept (hsame.trans hset)⟩
    · refine .inl fun u hu => hgone ?_
      have hr : t = r := honly t hwas
      have hu' : u = r := honly u (hback u hu)
      rw [hr, ← hu']
      exact hu
    · exact absurd hwas (hno t)

theorem PosixInv.go (h : PosixInv trace s) (hothers : ∀ u ≠ t, s'.call u = s.call u) (hfds : s'.fds = s.fds)
    (hwriters : s'.writers = s.writers) (href : s'.refCount = s.refCount) (hold : ∀ point, s.call t ≠ some (.close point))
    (hnew : ∀ point, s'.call t ≠ some (.close point)) (hlock : ∀ u ≠ t, s.lock = some u → s'.lock = some u)
    (hgot : ∀ count nonblock data, s'.call t = some (.read count nonblock (.wakeWriter data)) ∨
      s'.call t = some (.read count nonblock (.out data)) → s'.lock = some t)
    (hholds : s'.Holds (trace ++ events)) (heofs : EachEvent (fun before e _ => EofFits (trace ++ before) e) events)
    (hquiet : s.writers = 0 → s.contents = [] → (∀ u, ¬s.Putting u) → s'.contents = [] ∧ ¬s'.Putting t ∧ (s.Calm → s'.Calm)) :
    PosixInv (trace ++ events) s' := by
  have hclose : ∀ u point, s'.call u = some (.close point) → u ≠ t ∧ s.call u = some (.close point) := by
    intro u point hcall
    have hne : u ≠ t := fun heq => hnew point (heq ▸ hcall)
    exact ⟨hne, (hothers u hne).symm.trans hcall⟩
  refine ⟨⟨?_, ?_, ?_, ?_, ?_⟩, hholds, ?_, ?_⟩
  · rw [hfds]
    exact h.counts.few
  · rw [hwriters, PosixPipe.openWriters, hfds]
    exact h.counts.writers
  · intro u point hcall
    obtain ⟨hne, hbefore⟩ := hclose u point hcall
    obtain ⟨hheld, hcount⟩ := h.counts.closing u point hbefore
    refine ⟨hlock u hne hheld, ?_⟩
    rw [href, hfds]
    exact hcount
  · intro hnone
    rw [href, hfds]
    refine h.counts.refCount fun u point hcall => ?_
    have hne : u ≠ t := fun heq => hold point (heq ▸ hcall)
    exact hnone u point ((hothers u hne).trans hcall)
  · intro u count nonblock data hcall
    by_cases heq : u = t
    · subst heq
      exact hgot count nonblock data hcall
    · rw [hothers u heq] at hcall
      exact hlock u heq (h.counts.got u count nonblock data hcall)
  · exact h.eofs.append (fun before e after hfits => hfits) fun before e after heq => heofs before e after heq
  · intro hzero
    rw [hwriters] at hzero
    obtain ⟨hcontents, hputting, hreaders⟩ := h.quiet hzero
    obtain ⟨hcontents', hputting', hcalm⟩ := hquiet hzero hcontents hputting
    refine ⟨hcontents', fun u => ?_, ?_⟩
    · by_cases heq : u = t
      · subst heq
        exact hputting'
      · exact fun hu => hputting u ((PosixPipe.Putting.congr (hothers u heq)).1 hu)
    · rcases hreaders with ⟨u, hu⟩ | hreaders
      · have hne : u ≠ t := fun heq => hold _ (heq ▸ hu)
        exact .inl ⟨u, (hothers u hne).trans hu⟩
      · exact .inr (hcalm hreaders)

theorem EofFits.single {e : PosixEvent} (h : EofFits trace e) : EachEvent (fun before e _ => EofFits (trace ++ before) e) [e] := by
  refine EachEvent.nil.concat (fun _ _ _ hfits => hfits) ?_
  rw [List.append_nil]
  exact h

theorem PosixPipe.Holds.same (h : s.Holds trace) (hfifo : s'.fifo = s.fifo) (hput : putBytes events = []) (hgot : gotBytes events = []) :
    s'.Holds (trace ++ events) := by
  refine ⟨?_, ?_⟩
  · rw [putBytes_append, gotBytes_append, hput, hgot, List.append_nil, List.append_nil, h.bytes, PosixPipe.contents,
      PosixPipe.contents, hfifo]
  · rw [hfifo]
    exact h.fifo

theorem PosixPipe.contents_congr (hfifo : s'.fifo = s.fifo) : s'.contents = s.contents := by
  rw [PosixPipe.contents, PosixPipe.contents, hfifo]

namespace PosixPipe

theorem of_idle (hcall : s.call t = none) : ¬s.Between t ∧ ¬s.Resumed t ∧ ¬s.Putting t := by
  refine ⟨?_, ?_, ?_⟩
  · rintro ⟨count, nonblock, heq | heq⟩ <;> cases hcall.symm.trans heq
  · rintro ⟨count, nonblock, heq, -⟩
    cases hcall.symm.trans heq
  · rintro ⟨buffer, nonblock, ret, wakeup, point, heq, -⟩
    cases hcall.symm.trans heq

theorem of_read {count : Nat} {nonblock : Bool} {point : ReadPoint} (hcall : s.call t = some (.read count nonblock point)) :
    (s.Between t → point = .emptied ∨ point = .checked) ∧ (s.Resumed t → point = .wait) ∧ ¬s.Putting t := by
  refine ⟨?_, ?_, ?_⟩
  · rintro ⟨count', nonblock', heq | heq⟩ <;> cases hcall.symm.trans heq
    · exact .inl rfl
    · exact .inr rfl
  · rintro ⟨count', nonblock', heq, -⟩
    cases hcall.symm.trans heq
    rfl
  · rintro ⟨buffer, nonblock', ret, wakeup, point', heq, -⟩
    cases hcall.symm.trans heq

theorem of_write {buffer : List UInt8} {nonblock wakeup : Bool} {ret : Nat} {point : WritePoint}
    (hcall : s.call t = some (.write buffer nonblock ret wakeup point)) :
    ¬s.Between t ∧ ¬s.Resumed t ∧ (s.Putting t ↔ ∀ result, point ≠ .wake result) := by
  refine ⟨?_, ?_, ?_, ?_⟩
  · rintro ⟨count, nonblock', heq | heq⟩ <;> cases hcall.symm.trans heq
  · rintro ⟨count, nonblock', heq, -⟩
    cases hcall.symm.trans heq
  · rintro ⟨buffer', nonblock', ret', wakeup', point', heq, hpoint⟩
    cases hcall.symm.trans heq
    exact hpoint
  · exact fun hpoint => ⟨buffer, nonblock, ret, wakeup, point, hcall, hpoint⟩

theorem of_close {point : ClosePoint} (hcall : s.call t = some (.close point)) : ¬s.Between t ∧ ¬s.Resumed t ∧ ¬s.Putting t := by
  refine ⟨?_, ?_, ?_⟩
  · rintro ⟨count, nonblock, heq | heq⟩ <;> cases hcall.symm.trans heq
  · rintro ⟨count, nonblock, heq, -⟩
    cases hcall.symm.trans heq
  · rintro ⟨buffer, nonblock, ret, wakeup, point', heq, -⟩
    cases hcall.symm.trans heq

end PosixPipe

theorem PosixInv.readEnd (h : PosixInv trace s) (hzero : s.writers = 0)
    (hcall : ∀ point, s.call t ≠ some (.close point)) : PosixInv (trace ++ (s.readEnd t).2) (s.readEnd t).1 := by
  have hempty := (h.quiet hzero).contents
  have hbytes := h.holds.bytes
  rw [hempty, List.append_nil] at hbytes
  have hnone : (s.setCall t none).call t = none := PosixPipe.setCall_self
  obtain ⟨hbetween, hresumed, hputting⟩ := PosixPipe.of_idle hnone
  have hgone : ∀ {call}, (s.setCall t none).call t ≠ some call := fun heq => Option.some_ne_none _ (heq.symm.trans hnone)
  refine h.go (fun u hu => PosixPipe.setCall_ne hu) rfl rfl rfl hcall (fun point => hgone) (fun _ _ hlock => hlock)
    (fun count nonblock data hor => hor.elim (absurd · hgone) (absurd · hgone)) (h.holds.same rfl rfl rfl)
    (EofFits.single ⟨hempty, h.counts.writers.symm.trans hzero, hbytes⟩) fun _ hcontents _ => ⟨hcontents, hputting, fun hcalm => ?_⟩
  exact hcalm.go (fun u hu => PosixPipe.setCall_ne hu) hcalm.1 (fun hb => absurd hb hbetween) hresumed (.inr (.inl rfl))

theorem PosixInv.read_local (h : PosixInv trace s) {count : Nat} {nonblock : Bool} {point point' : ReadPoint} {readerQueue writerQueue : PipeQueue}
    (hcall : s.call t = some (.read count nonblock point)) (hpoint : ∀ data, point' ≠ .wakeWriter data)
    (hout : ∀ data, point' = .out data → point = .wakeWriter data)
    (hcalm : s.writers = 0 → s.Calm →
      ({ s with readerQueue, writerQueue }.setCall t (some (.read count nonblock point'))).Calm) :
    PosixInv (trace ++ []) ({ s with readerQueue, writerQueue }.setCall t (some (.read count nonblock point'))) := by
  have hself : ({ s with readerQueue, writerQueue }.setCall t (some (.read count nonblock point'))).call t =
      some (.read count nonblock point') := PosixPipe.setCall_self
  refine h.go (t := t) (fun u hu => PosixPipe.setCall_ne hu) rfl rfl rfl ?_ ?_ (fun _ _ hlock => hlock) ?_ (h.holds.same rfl rfl rfl)
    EachEvent.nil fun hzero hcontents _ => ⟨hcontents, (PosixPipe.of_read hself).2.2, hcalm hzero⟩
  · intro point hclose
    cases hcall.symm.trans hclose
  · intro point hclose
    cases hself.symm.trans hclose
  · rintro count' nonblock' data (heq | heq) <;> cases hself.symm.trans heq
    · exact absurd rfl (hpoint data)
    · obtain rfl := hout data rfl
      exact h.counts.got t _ _ _ (.inl hcall)

theorem PosixPipe.Calm.read_local (h : s.Calm) {count : Nat} {nonblock : Bool} {point : ReadPoint} {readerQueue writerQueue : PipeQueue}
    (hwaiting : readerQueue.waitingList = []) (hpoint : point = .emptied ∨ point = .checked → s.Between t) (hwait : point ≠ .wait)
    (hflag : readerQueue.flag = s.readerQueue.flag ∨ point = .take ∧ (s.Between t ∨ s.Resumed t)) :
    ({ s with readerQueue, writerQueue }.setCall t (some (.read count nonblock point))).Calm := by
  have hself : ({ s with readerQueue, writerQueue }.setCall t (some (.read count nonblock point))).call t =
      some (.read count nonblock point) := setCall_self
  obtain ⟨hbetween, hresumed, -⟩ := of_read hself
  refine h.go (t := t) (fun u hu => setCall_ne hu) hwaiting (fun hb => hpoint (hbetween hb)) (fun hr => hwait (hresumed hr)) (.inr ?_)
  refine hflag.imp_right fun ⟨htake, hwas⟩ => ⟨fun hb => ?_, hwas⟩
  rcases hbetween hb with heq | heq <;> cases htake.symm.trans heq

theorem PosixInv.read_get (h : PosixInv trace s) {count : Nat} {nonblock : Bool} {fifo : RingBuffer} {call : Option PosixCall}
    {lock : Option ThreadId} (hcall : s.call t = some (.read count nonblock .take)) (hfifo : s.fifo = some fifo) (hwriters : s.writers ≠ 0)
    (hfree : s.lock = none) (hnew : ∀ point, call ≠ some (.close point))
    (hgot : ∀ count nonblock data, call = some (.read count nonblock (.wakeWriter data)) ∨
      call = some (.read count nonblock (.out data)) → lock = some t)
    (hevents : putBytes events = [] ∧ gotBytes events = (rtRingbufferGet fifo (count % 65536)).1)
    (heofs : EachEvent (fun before e _ => EofFits (trace ++ before) e) events) :
    PosixInv (trace ++ events)
      ({ s with fifo := some (rtRingbufferGet fifo (count % 65536)).2, lock := lock }.setCall t call) := by
  obtain ⟨capacity, q, hq⟩ := h.holds.fifo fifo hfifo
  obtain ⟨hbytes, hrest⟩ := hq.get (count % 65536)
  have hcontents := PosixPipe.contents_of_represents hfifo hq
  refine h.go (t := t) (fun u hu => PosixPipe.setCall_ne hu) rfl rfl rfl ?_ ?_ ?_ ?_ ⟨?_, ?_⟩ heofs fun hzero => absurd hzero hwriters
  · intro point hclose
    cases hcall.symm.trans hclose
  · intro point hclose
    exact hnew point (PosixPipe.setCall_self.symm.trans hclose)
  · intro u _ hlock
    cases hfree.symm.trans hlock
  · intro count' nonblock' data hor
    rw [PosixPipe.setCall_self] at hor
    exact hgot count' nonblock' data hor
  · have hcontents' : ({ s with fifo := some (rtRingbufferGet fifo (count % 65536)).2, lock := lock }.setCall t call).contents =
        q.drop (count % 65536) := PosixPipe.contents_of_represents rfl hrest
    rw [putBytes_append, gotBytes_append, hevents.1, hevents.2, hcontents', hbytes, List.append_nil, List.append_assoc,
      List.take_append_drop, h.holds.bytes, hcontents]
  · intro fifo' heq
    cases heq
    exact ⟨capacity, _, hrest⟩

theorem readGo_inv (h : PosixInv trace s) {count : Nat} {nonblock : Bool} {point : ReadPoint}
    (hcall : s.call t = some (.read count nonblock point)) (hs : s.readGo t count nonblock point = some (s', events)) :
    PosixInv (trace ++ events) s' := by
  have hclose : ∀ point, s.call t ≠ some (.close point) := by
    intro point hclose
    cases hcall.symm.trans hclose
  have hself : ∀ {rq wq : PipeQueue} {point' : ReadPoint}, ({ s with readerQueue := rq, writerQueue := wq }.setCall t
      (some (.read count nonblock point'))).call t = some (.read count nonblock point') := PosixPipe.setCall_self
  cases point with
  | take =>
    rw [PosixPipe.readGo] at hs
    by_cases hlock : s.lock ≠ none
    · rw [if_pos hlock] at hs
      cases hs
    · rw [if_neg hlock] at hs
      by_cases hzero : s.writers = 0
      · rw [if_pos hzero] at hs
        cases hs
        exact h.readEnd hzero hclose
      · rw [if_neg hzero] at hs
        obtain ⟨fifo, hfifo, heq⟩ := Option.map_eq_some_iff.1 hs
        dsimp only at heq
        rw [not_not] at hlock
        by_cases hbytes : (rtRingbufferGet fifo (count % 65536)).1 ≠ []
        · rw [if_pos hbytes] at heq
          cases heq
          exact h.read_get hcall hfifo hzero hlock nofun (fun _ _ _ _ => rfl) ⟨rfl, List.append_nil _⟩ (EofFits.single trivial)
        · rw [if_neg hbytes] at heq
          rw [not_not] at hbytes
          cases nonblock with
          | true =>
            cases heq
            exact h.read_get hcall hfifo hzero hlock nofun nofun ⟨rfl, hbytes.symm⟩ (EofFits.single trivial)
          | false =>
            cases heq
            exact h.read_get hcall hfifo hzero hlock nofun nofun ⟨rfl, hbytes.symm⟩ EachEvent.nil
  | wakeWriter data =>
    cases hs
    refine h.read_local hcall nofun (fun data' heq => ?_) fun _ hcalm => ?_
    · cases heq
      rfl
    · exact hcalm.read_local hcalm.1 (by rintro (heq | heq) <;> cases heq) nofun (.inl rfl)
  | out data =>
    cases hs
    have hheld := h.counts.got t _ _ _ (.inr hcall)
    have hnone : ({ s with lock := none }.setCall t none).call t = none := PosixPipe.setCall_self
    have hgone : ∀ {call}, ({ s with lock := none }.setCall t none).call t ≠ some call :=
      fun heq => Option.some_ne_none _ (heq.symm.trans hnone)
    obtain ⟨hbetween, hresumed, hputting⟩ := PosixPipe.of_idle hnone
    refine h.go (t := t) (fun u hu => PosixPipe.setCall_ne hu) rfl rfl rfl hclose (fun point => hgone) (fun u hu hlock => ?_)
      (fun count nonblock data hor => hor.elim (absurd · hgone) (absurd · hgone)) (h.holds.same rfl rfl rfl) (EofFits.single trivial)
      fun _ hcontents _ => ⟨hcontents, hputting, fun hcalm => ?_⟩
    · exact absurd (Option.some.inj (hlock.symm.trans hheld)) hu
    · exact hcalm.go (t := t) (fun u hu => PosixPipe.setCall_ne hu) hcalm.1 (fun hb => absurd hb hbetween) hresumed (.inr (.inl rfl))
  | emptied =>
    cases hs
    refine h.read_local hcall nofun nofun fun _ hcalm => ?_
    exact hcalm.read_local hcalm.1 (fun _ => ⟨count, nonblock, .inl hcall⟩) nofun (.inl rfl)
  | checked =>
    have hwas : s.Between t := ⟨count, nonblock, .inr hcall⟩
    rw [PosixPipe.readGo] at hs
    by_cases hflag : s.readerQueue.flag = true
    · rw [if_pos hflag] at hs
      cases hs
      refine h.read_local hcall nofun nofun fun _ hcalm => ?_
      exact hcalm.read_local hcalm.1 (by rintro (heq | heq) <;> cases heq) nofun (.inr ⟨rfl, .inl hwas⟩)
    · rw [if_neg hflag] at hs
      cases hs
      refine h.read_local hcall nofun nofun fun _ hcalm => ?_
      -- a reader that is between finds the flag set
      exact hcalm.2.elim (fun hnone => absurd hwas (hnone t)) fun hset => absurd hset.1 hflag
  | wait =>
    rw [PosixPipe.readGo] at hs
    by_cases hmem : t ∈ s.readerQueue.waitingList
    · rw [if_pos hmem] at hs
      cases hs
    · rw [if_neg hmem] at hs
      cases hs
      refine h.read_local hcall nofun nofun fun _ hcalm => ?_
      exact hcalm.read_local hcalm.1 (by rintro (heq | heq) <;> cases heq) nofun (.inr ⟨rfl, .inr ⟨count, nonblock, hcall, hmem⟩⟩)

/-! ## Writers -/

theorem PosixInv.write_local (h : PosixInv trace s) {call call' : Option PosixCall} {readerQueue writerQueue : PipeQueue}
    (hcall : s.call t = call) (hold : ∀ point, call ≠ some (.close point)) (hread : ∀ count nonblock point, call' ≠ some (.read count nonblock point))
    (hnew : ∀ point, call' ≠ some (.close point))
    (hputting : s.writers = 0 → ({ s with readerQueue, writerQueue }.setCall t call').Putting t → s.Putting t)
    (hqueue : readerQueue = s.readerQueue ∨ readerQueue = s.readerQueue.wakeup) (hput : putBytes events = []) (hgot : gotBytes events = [])
    (heofs : EachEvent (fun before e _ => EofFits (trace ++ before) e) events) :
    PosixInv (trace ++ events) ({ s with readerQueue, writerQueue }.setCall t call') := by
  have hself : ({ s with readerQueue, writerQueue }.setCall t call').call t = call' := PosixPipe.setCall_self
  have hnone : ∀ {count nonblock point}, ({ s with readerQueue, writerQueue }.setCall t call').call t ≠ some (.read count nonblock point) :=
    fun heq => hread _ _ _ (hself.symm.trans heq)
  refine h.go (t := t) (fun u hu => PosixPipe.setCall_ne hu) rfl rfl rfl (fun point heq => hold point (hcall.symm.trans heq))
    (fun point heq => hnew point (hself.symm.trans heq)) (fun _ _ hlock => hlock)
    (fun _ _ _ hor => hor.elim (absurd · hnone) (absurd · hnone)) (h.holds.same rfl hput hgot) heofs
    fun hzero hcontents hno => ⟨hcontents, fun hp => hno t (hputting hzero hp), fun hcalm => ?_⟩
  refine hcalm.go (t := t) (fun u hu => PosixPipe.setCall_ne hu) ?_ ?_ ?_ ?_
  · rcases hqueue with rfl | rfl
    · exact hcalm.1
    · exact congrArg (List.drop 1) hcalm.1
  · rintro ⟨count, nonblock, heq | heq⟩
    · exact absurd heq hnone
    · exact absurd heq hnone
  · rintro ⟨count, nonblock, heq, -⟩
    exact hnone heq
  · rcases hqueue with rfl | rfl
    · exact .inr (.inl rfl)
    · exact .inl rfl

theorem writeGo_inv (h : PosixInv trace s) {buffer : List UInt8} {nonblock wakeup : Bool} {ret : Nat} {point : WritePoint}
    (hcall : s.call t = some (.write buffer nonblock ret wakeup point))
    (hs : s.writeGo t buffer nonblock ret wakeup point = some (s', events)) : PosixInv (trace ++ events) s' := by
  have hwas : (∀ result, point ≠ .wake result) → s.Putting t := (PosixPipe.of_write hcall).2.2.2
  cases point with
  | take =>
    rw [PosixPipe.writeGo] at hs
    by_cases hlock : s.lock ≠ none
    · rw [if_pos hlock] at hs
      cases hs
    · rw [if_neg hlock] at hs
      by_cases hreaders : s.readers = 0
      · rw [if_pos hreaders] at hs
        cases hs
        exact h.write_local hcall nofun nofun nofun (fun _ _ => hwas nofun) (.inl rfl) rfl rfl EachEvent.nil
      · rw [if_neg hreaders] at hs
        obtain ⟨fifo, hfifo, heq⟩ := Option.map_eq_some_iff.1 hs
        dsimp only at heq
        generalize hoffered : (buffer.drop ret).take ((buffer.length - ret) % 65536) = offered at heq
        generalize hpoint : (if ret + (rtRingbufferPut fifo offered).1 = buffer.length then
          WritePoint.wake (ret + (rtRingbufferPut fifo offered).1 : Nat)
          else if nonblock then .wake (if ret + (rtRingbufferPut fifo offered).1 = 0 then -eagain
            else (ret + (rtRingbufferPut fifo offered).1 : Nat))
          else .full) = point at heq
        cases heq
        obtain ⟨capacity, q, hq⟩ := h.holds.fifo fifo hfifo
        obtain ⟨-, hnew⟩ := hq.put offered
        have hself : ({ s with fifo := some (rtRingbufferPut fifo offered).2 }.setCall t
            (some (.write buffer nonblock (ret + (rtRingbufferPut fifo offered).1) true point))).call t =
              some (.write buffer nonblock (ret + (rtRingbufferPut fifo offered).1) true point) := PosixPipe.setCall_self
        refine h.go (t := t) (fun u hu => PosixPipe.setCall_ne hu) rfl rfl rfl ?_ ?_ (fun _ _ hheld => hheld) ?_ ⟨?_, ?_⟩
          (EofFits.single trivial) fun _ _ hno => absurd (hwas nofun) (hno t)
        · intro point' hclose
          cases hcall.symm.trans hclose
        · intro point' hclose
          cases hself.symm.trans hclose
        · rintro count' nonblock' data (heq | heq) <;> cases hself.symm.trans heq
        · have hcontents' : ({ s with fifo := some (rtRingbufferPut fifo offered).2 }.setCall t
              (some (.write buffer nonblock (ret + (rtRingbufferPut fifo offered).1) true point))).contents =
                q ++ offered.take (rtRingbufferPut fifo offered).1 := PosixPipe.contents_of_represents rfl hnew
          have hone : putBytes [.put t (offered.take (rtRingbufferPut fifo offered).1)] =
              offered.take (rtRingbufferPut fifo offered).1 := List.append_nil _
          have hnone : gotBytes [.put t (offered.take (rtRingbufferPut fifo offered).1)] = [] := rfl
          rw [putBytes_append, gotBytes_append, hone, hnone, hcontents', h.holds.bytes, PosixPipe.contents_of_represents hfifo hq,
            List.append_nil, List.append_assoc]
        · intro fifo' heq
          cases heq
          exact ⟨capacity, _, hnew⟩
  | full =>
    cases hs
    exact h.write_local hcall nofun nofun nofun (fun _ _ => hwas nofun) (.inr rfl) rfl rfl EachEvent.nil
  | checked =>
    rw [PosixPipe.writeGo] at hs
    by_cases hflag : s.writerQueue.flag = true
    · rw [if_pos hflag] at hs
      cases hs
      exact h.write_local hcall nofun nofun nofun (fun _ _ => hwas nofun) (.inl rfl) rfl rfl EachEvent.nil
    · rw [if_neg hflag] at hs
      cases hs
      exact h.write_local hcall nofun nofun nofun (fun _ _ => hwas nofun) (.inl rfl) rfl rfl EachEvent.nil
  | wait =>
    rw [PosixPipe.writeGo] at hs
    by_cases hmem : t ∈ s.writerQueue.waitingList
    · rw [if_pos hmem] at hs
      cases hs
    · rw [if_neg hmem] at hs
      cases hs
      exact h.write_local hcall nofun nofun nofun (fun _ _ => hwas nofun) (.inl rfl) rfl rfl EachEvent.nil
  | wake result =>
    cases hs
    refine h.write_local hcall nofun nofun nofun (fun _ hp => ?_) ?_ rfl rfl (EofFits.single trivial)
    · exact absurd hp (PosixPipe.of_idle PosixPipe.setCall_self).2.2
    · cases wakeup with
      | true => exact .inr rfl
      | false => exact .inl rfl

/-! ## Open and close -/

theorem PosixPipe.Counts.no_close (h : s.Counts) (hlock : s.lock = none) : s.refCount = s.fds.length := by
  refine h.refCount fun t point hcall => ?_
  cases hlock.symm.trans (h.closing t point hcall).1

theorem PosixPipe.Counts.writers_of_nil (h : s.Counts) (hfds : s.fds = []) : s.writers = 0 := by
  rw [h.writers, PosixPipe.openWriters, hfds, List.countP_nil]

theorem PosixPipe.openWriters_le (s : PosixPipe) : s.openWriters ≤ s.fds.length := List.countP_le_length

theorem PosixPipe.countUp_eq (hn : n < 255) : countUp n = n + 1 := Nat.mod_eq_of_lt (by omega)

theorem PosixPipe.countDown_eq (hpos : 0 < n) (hn : n < 256) : countDown n = n - 1 := by
  unfold PosixPipe.countDown
  omega

theorem openFd_inv (h : PosixInv trace s) {pool : Option (Nat → UInt8)} (hlock : s.lock = none) (hfew : s.fds.length < 255) :
    PosixInv (trace ++ []) (s.openFd bufsz n fd pool) := by
  have hcount := h.counts.no_close hlock
  have hup : (s.openFd bufsz n fd pool).writers = if fd.access.writes then s.writers + 1 else s.writers := by
    rw [PosixPipe.openFd, PosixPipe.countUp_eq (Nat.lt_of_le_of_lt (h.counts.writers.trans_le s.openWriters_le) hfew)]
  have hcontents : (s.openFd bufsz n fd pool).contents = s.contents ∧
      ∀ fifo, (s.openFd bufsz n fd pool).fifo = some fifo → ∃ capacity q, fifo.Represents capacity q := by
    by_cases hzero : s.refCount = 0
    · -- the first descriptor: the buffer was empty
      have hfifo : (s.openFd bufsz n fd pool).fifo = pool.bind fun pool => rtRingbufferInit pool (bufsz / 4 * 4) := if_pos hzero
      have hempty := (h.quiet (h.counts.writers_of_nil (List.length_eq_zero_iff.1 (hcount.symm.trans hzero)))).contents
      have hnew : ∀ fifo, (s.openFd bufsz n fd pool).fifo = some fifo → fifo.Represents (bufsz / 4 * 4 / 4 * 4) [] := by
        intro fifo heq
        obtain ⟨bytes, -, hinit⟩ := Option.bind_eq_some_iff.1 (hfifo.symm.trans heq)
        exact rtRingbufferInit_represents hinit
      refine ⟨?_, fun fifo heq => ⟨_, _, hnew fifo heq⟩⟩
      rw [hempty]
      rcases heq : (s.openFd bufsz n fd pool).fifo with _ | fifo
      · rw [PosixPipe.contents, heq]
        rfl
      · exact PosixPipe.contents_of_represents heq (hnew fifo heq)
    · have hfifo : (s.openFd bufsz n fd pool).fifo = s.fifo := if_neg hzero
      exact ⟨PosixPipe.contents_congr hfifo, hfifo ▸ h.holds.fifo⟩
  refine ⟨⟨?_, ?_, ?_, ?_, h.counts.got⟩, ⟨?_, hcontents.2⟩, ?_, ?_⟩
  · rw [PosixPipe.openFd, List.length_append]
    exact Nat.succ_lt_succ hfew
  · have hadded : [(n, fd)].countP (fun entry => entry.2.access.writes) = if fd.access.writes then 1 else 0 := by
      rw [List.countP_singleton]
    rw [hup, PosixPipe.openWriters, PosixPipe.openFd, List.countP_append, hadded, h.counts.writers]
    split_ifs <;> rfl
  · intro t point hcall
    cases hlock.symm.trans (h.counts.closing t point hcall).1
  · intro _
    rw [PosixPipe.openFd, List.length_append, hcount, PosixPipe.countUp_eq hfew]
    rfl
  · rw [List.append_nil, hcontents.1]
    exact h.holds.bytes
  · rw [List.append_nil]
    exact h.eofs
  · intro hzero
    have hold : s.writers = 0 := by
      have hcounted := hup.symm.trans hzero
      split_ifs at hcounted
      exact hcounted
    obtain ⟨hempty, hputting, hreaders⟩ := h.quiet hold
    exact ⟨hcontents.1.trans hempty, hputting, hreaders⟩

theorem closeFd_inv (h : PosixInv trace s) (hlock : s.lock = none) (hmem : (n, fd) ∈ s.fds)
    (hfits : fd.access.writes = true → s.writers = 1 → s.contents = [] ∧ ∀ t, ¬s.Putting t) :
    PosixInv (trace ++ []) (s.closeFd t n fd) := by
  have hcount := h.counts.no_close hlock
  have hself : (s.closeFd t n fd).call t = some (.close .wakeReaders) := PosixPipe.setCall_self
  have hothers : ∀ u ≠ t, (s.closeFd t n fd).call u = s.call u := fun u hu => PosixPipe.setCall_ne hu
  have hlength : (s.fds.erase (n, fd)).length = s.fds.length - 1 := List.length_erase_of_mem hmem
  have hpos := List.length_pos_of_mem hmem
  have hfew := h.counts.few
  have hwriters : (s.closeFd t n fd).writers = if fd.access.writes then s.writers - 1 else s.writers := by
    have hdown : (s.closeFd t n fd).writers = if fd.access.writes then PosixPipe.countDown s.writers else s.writers := rfl
    rw [hdown]
    split_ifs with hwriter
    · have hone : 0 < s.openWriters := List.countP_pos_iff.2 ⟨(n, fd), hmem, hwriter⟩
      have hle := s.openWriters_le
      exact PosixPipe.countDown_eq (h.counts.writers ▸ hone) (by rw [h.counts.writers]; omega)
    · rfl
  refine ⟨⟨?_, ?_, ?_, ?_, ?_⟩, ⟨?_, h.holds.fifo⟩, ?_, ?_⟩
  · exact Nat.lt_of_le_of_lt (hlength.trans_le (Nat.sub_le ..)) hfew
  · have herase := List.countP_erase (fun entry : Nat × PosixFd => entry.2.access.writes) s.fds (n, fd)
    have hsame : (s.closeFd t n fd).openWriters = (s.fds.erase (n, fd)).countP fun entry => entry.2.access.writes := rfl
    rw [hwriters, hsame, herase, h.counts.writers, PosixPipe.openWriters]
    by_cases hwriter : fd.access.writes = true
    · rw [if_pos hwriter, if_pos ⟨hmem, hwriter⟩]
    · rw [if_neg hwriter, if_neg (fun hand => hwriter hand.2), Nat.sub_zero]
  · intro u point hcall
    by_cases heq : u = t
    · subst heq
      refine ⟨rfl, ?_⟩
      have hsame : s.refCount = (s.fds.erase (n, fd)).length + 1 ∧ (s.fds.erase (n, fd)).length < 255 := by omega
      exact hsame
    · rw [hothers u heq] at hcall
      cases hlock.symm.trans (h.counts.closing u point hcall).1
  · exact fun hnone => absurd hself (hnone t _)
  · intro u count nonblock data hcall
    by_cases heq : u = t
    · subst heq
      rcases hcall with hcall | hcall <;> cases hself.symm.trans hcall
    · rw [hothers u heq] at hcall
      cases hlock.symm.trans (h.counts.got u count nonblock data hcall)
  · rw [List.append_nil]
    exact h.holds.bytes
  · rw [List.append_nil]
    exact h.eofs
  · intro hzero
    have hold : s.contents = [] ∧ ∀ u, ¬s.Putting u := by
      have hcounted := hwriters.symm.trans hzero
      by_cases hwriter : fd.access.writes = true
      · rw [if_pos hwriter] at hcounted
        have hone : 0 < s.writers := by
          rw [h.counts.writers]
          exact List.countP_pos_iff.2 ⟨(n, fd), hmem, hwriter⟩
        exact hfits hwriter (by omega)
      · rw [if_neg hwriter] at hcounted
        exact ⟨(h.quiet hcounted).contents, (h.quiet hcounted).putting⟩
    refine ⟨hold.1, fun u => ?_, .inl ⟨t, hself⟩⟩
    by_cases heq : u = t
    · subst heq
      exact (PosixPipe.of_close hself).2.2
    · exact fun hu => hold.2 u ((PosixPipe.Putting.congr (hothers u heq)).1 hu)

theorem PosixPipe.OneReader.calm (h : s.OneReader) (hcall : s.call t = some (.close .wakeReaders)) :
    ({ s with readerQueue := s.readerQueue.wakeup }.setCall t (some (.close .wakeWriters))).Calm := by
  have hself : ({ s with readerQueue := s.readerQueue.wakeup }.setCall t (some (.close .wakeWriters))).call t =
      some (.close .wakeWriters) := setCall_self
  obtain ⟨hbetween, hresumed, -⟩ := of_close hself
  have hback : ∀ u, ({ s with readerQueue := s.readerQueue.wakeup }.setCall t (some (.close .wakeWriters))).Between u → s.Between u := by
    intro u hu
    by_cases heq : u = t
    · subst heq
      exact absurd hu hbetween
    · exact (Between.congr (setCall_ne heq)).1 hu
  rcases h with ⟨hone, hnone⟩ | ⟨hempty, r, honly, hno⟩
  · exact ⟨List.drop_eq_nil_of_le hone, .inl fun u hu => hnone u (hback u hu)⟩
  · refine ⟨congrArg (List.drop 1) hempty, .inr ⟨rfl, r, fun u hu => honly u (hback u hu), fun u hu => ?_⟩⟩
    by_cases heq : u = t
    · subst heq
      exact hresumed hu
    · obtain ⟨count, nonblock, hwait, -⟩ := hu
      refine hno u ⟨count, nonblock, (setCall_ne heq).symm.trans hwait, ?_⟩
      rw [hempty]
      exact List.not_mem_nil

theorem PosixInv.close_local (h : PosixInv trace s) {point point' : ClosePoint} {readerQueue writerQueue : PipeQueue}
    (hcall : s.call t = some (.close point))
    (hreaders : s.writers = 0 → s.Waking ∨ s.Calm →
      ({ s with readerQueue, writerQueue }.setCall t (some (.close point'))).Waking ∨
        ({ s with readerQueue, writerQueue }.setCall t (some (.close point'))).Calm) :
    PosixInv (trace ++ []) ({ s with readerQueue, writerQueue }.setCall t (some (.close point'))) := by
  have hself : ({ s with readerQueue, writerQueue }.setCall t (some (.close point'))).call t = some (.close point') :=
    PosixPipe.setCall_self
  have hothers : ∀ u ≠ t, ({ s with readerQueue, writerQueue }.setCall t (some (.close point'))).call u = s.call u :=
    fun u hu => PosixPipe.setCall_ne hu
  rw [List.append_nil]
  refine ⟨⟨h.counts.few, h.counts.writers, ?_, ?_, ?_⟩, ⟨h.holds.bytes, h.holds.fifo⟩, h.eofs, ?_⟩
  · intro u p hu
    by_cases heq : u = t
    · subst heq
      exact h.counts.closing u point hcall
    · exact h.counts.closing u p ((hothers u heq).symm.trans hu)
  · exact fun hnone => absurd hself (hnone t _)
  · intro u count nonblock data hu
    by_cases heq : u = t
    · subst heq
      rcases hu with hu | hu <;> cases hself.symm.trans hu
    · rw [hothers u heq] at hu
      exact h.counts.got u count nonblock data hu
  · intro hzero
    obtain ⟨hcontents, hputting, hold⟩ := h.quiet hzero
    refine ⟨hcontents, fun u hu => ?_, hreaders hzero hold⟩
    by_cases heq : u = t
    · subst heq
      exact (PosixPipe.of_close hself).2.2 hu
    · exact hputting u ((PosixPipe.Putting.congr (hothers u heq)).1 hu)

theorem closeGo_inv (h : PosixInv trace s) {point : ClosePoint} (hcall : s.call t = some (.close point))
    (hfits : point = .wakeReaders → s.writers = 0 → s.OneReader) :
    PosixInv (trace ++ (s.closeGo t point).2) (s.closeGo t point).1 := by
  cases point with
  | wakeReaders =>
    refine h.close_local hcall fun hzero _ => .inr ?_
    rw [if_pos hzero]
    exact (hfits rfl hzero).calm hcall
  | wakeWriters =>
    refine h.close_local hcall fun _ hreaders => ?_
    obtain ⟨hbetween, hresumed, -⟩ := @PosixPipe.of_close
      ({ s with writerQueue := if s.readers = 0 then s.writerQueue.wakeup else s.writerQueue }.setCall t (some (.close .out))) t
      .out PosixPipe.setCall_self
    rcases hreaders with ⟨u, hu⟩ | hcalm
    · refine .inl ⟨u, (PosixPipe.setCall_ne ?_).trans hu⟩
      rintro rfl
      cases hcall.symm.trans hu
    · refine .inr ?_
      exact hcalm.go (t := t) (fun u hu => PosixPipe.setCall_ne hu) hcalm.1 (fun hb => absurd hb hbetween) hresumed (.inr (.inl rfl))
  | out =>
    obtain ⟨hheld, hcount, hfew⟩ := h.counts.closing t _ hcall
    have hself : (s.closeGo t .out).1.call t = none := PosixPipe.setCall_self
    have hothers : ∀ u ≠ t, (s.closeGo t .out).1.call u = s.call u := fun u hu => PosixPipe.setCall_ne hu
    have hgone : ∀ {call}, (s.closeGo t .out).1.call t ≠ some call := fun heq => Option.some_ne_none _ (heq.symm.trans hself)
    have hother : ∀ u, s.lock = some u → u = t := fun u hu => Option.some.inj (hu.symm.trans hheld)
    obtain ⟨hbetween, hresumed, hputting⟩ := PosixPipe.of_idle hself
    -- the buffer is only given back where it is empty
    have hcontents : (s.closeGo t .out).1.contents = s.contents ∧
        ∀ fifo, (s.closeGo t .out).1.fifo = some fifo → ∃ capacity q, fifo.Represents capacity q := by
      by_cases hlast : s.refCount = 1
      · have hfifo : (s.closeGo t .out).1.fifo = none := if_pos hlast
        have hempty := (h.quiet (h.counts.writers_of_nil (List.length_eq_zero_iff.1 (by omega)))).contents
        refine ⟨?_, fun fifo heq => ?_⟩
        · rw [hempty, PosixPipe.contents, hfifo]
          rfl
        · cases hfifo.symm.trans heq
      · have hfifo : (s.closeGo t .out).1.fifo = s.fifo := if_neg hlast
        exact ⟨PosixPipe.contents_congr hfifo, hfifo ▸ h.holds.fifo⟩
    refine ⟨⟨h.counts.few, h.counts.writers, ?_, ?_, ?_⟩, ⟨?_, hcontents.2⟩, ?_, ?_⟩
    · intro u p hu
      have hne : u ≠ t := fun heq => hgone (heq ▸ hu)
      exact absurd (hother u (h.counts.closing u p ((hothers u hne).symm.trans hu)).1) hne
    · intro _
      have hsame : PosixPipe.countDown s.refCount = s.fds.length := by
        rw [PosixPipe.countDown_eq (by omega) (by omega), hcount]
        rfl
      exact hsame
    · intro u count nonblock data hu
      by_cases heq : u = t
      · subst heq
        exact hu.elim (absurd · hgone) (absurd · hgone)
      · rw [hothers u heq] at hu
        exact absurd (hother u (h.counts.got u count nonblock data hu)) heq
    · have hone : putBytes (s.closeGo t .out).2 = [] ∧ gotBytes (s.closeGo t .out).2 = [] := ⟨rfl, rfl⟩
      rw [putBytes_append, gotBytes_append, hone.1, hone.2, List.append_nil, List.append_nil, hcontents.1]
      exact h.holds.bytes
    · exact h.eofs.append (fun _ _ _ hfits => hfits) (EofFits.single trivial)
    · intro hzero
      obtain ⟨hempty, hno, hreaders⟩ := h.quiet hzero
      refine ⟨hcontents.1.trans hempty, fun u hu => ?_, ?_⟩
      · by_cases heq : u = t
        · subst heq
          exact hputting hu
        · exact hno u ((PosixPipe.Putting.congr (hothers u heq)).1 hu)
      · rcases hreaders with ⟨u, hu⟩ | hcalm
        · refine .inl ⟨u, (hothers u ?_).trans hu⟩
          rintro rfl
          cases hcall.symm.trans hu
        · refine .inr ?_
          exact hcalm.go hothers hcalm.1 (fun hb => absurd hb hbetween) hresumed (.inr (.inl rfl))

/-! ## Every run -/

theorem stepPosix_inv (h : PosixInv trace s) (hok : LastCloseFits s op) (hs : stepPosix bufsz s op = some (s', events)) :
    PosixInv (trace ++ events) s' := by
  cases op with
  | openFd n fd pool =>
    rw [stepPosix] at hs
    split_ifs at hs with hguard
    cases hs
    exact openFd_inv h hguard.1 hok
  | closeFd t n fd =>
    rw [stepPosix] at hs
    split_ifs at hs with hguard
    cases hs
    exact closeFd_inv h hguard.1 hguard.2.2 hok
  | read t n fd count =>
    rw [stepPosix] at hs
    split_ifs at hs with hguard
    obtain rfl : (s.readCall t fd count).1 = s' := congrArg Prod.fst (Option.some.inj hs)
    obtain rfl : (s.readCall t fd count).2 = events := congrArg Prod.snd (Option.some.inj hs)
    rw [PosixPipe.readCall]
    have hclose : ∀ point, s.call t ≠ some (.close point) := fun point heq => Option.some_ne_none _ (heq.symm.trans hguard.1)
    by_cases hzero : s.writers = 0
    · rw [if_pos hzero]
      exact h.readEnd hzero hclose
    · rw [if_neg hzero]
      have hself : (s.setCall t (some (.read count fd.nonblock .take))).call t = some (.read count fd.nonblock .take) :=
        PosixPipe.setCall_self
      refine h.go (t := t) (fun u hu => PosixPipe.setCall_ne hu) rfl rfl rfl hclose ?_ (fun _ _ hlock => hlock) ?_
        (h.holds.same rfl rfl rfl) EachEvent.nil fun hnone => absurd hnone hzero
      · intro point heq
        cases hself.symm.trans heq
      · rintro count' nonblock' data (heq | heq) <;> cases hself.symm.trans heq
  | write t n fd buffer =>
    rw [stepPosix] at hs
    split_ifs at hs with hguard
    obtain rfl : (s.writeCall t fd buffer).1 = s' := congrArg Prod.fst (Option.some.inj hs)
    obtain rfl : (s.writeCall t fd buffer).2 = events := congrArg Prod.snd (Option.some.inj hs)
    obtain ⟨hidle, hmem, hwriter⟩ := hguard
    have hwriters : s.writers ≠ 0 := by
      rw [h.counts.writers, PosixPipe.openWriters]
      exact Nat.pos_iff_ne_zero.1 (List.countP_pos_iff.2 ⟨(n, fd), hmem, hwriter⟩)
    have hreturn : ∀ ret, PosixInv (trace ++ [.returned t ret]) s := fun ret =>
      ⟨h.counts, h.holds.same rfl rfl rfl, h.eofs.append (fun _ _ _ hfits => hfits) (EofFits.single trivial), h.quiet⟩
    rw [PosixPipe.writeCall]
    split_ifs
    · exact hreturn _
    · exact hreturn _
    · exact h.write_local hidle nofun nofun nofun (fun hzero => absurd hzero hwriters) (.inl rfl) rfl rfl
        EachEvent.nil
  | go t =>
    rw [stepPosix] at hs
    rcases hcall : s.call t with _ | ⟨count, nonblock, point⟩ | ⟨buffer, nonblock, ret, wakeup, point⟩ | point
    · rw [hcall] at hs
      cases hs
    · rw [hcall] at hs
      exact readGo_inv h hcall hs
    · rw [hcall] at hs
      exact writeGo_inv h hcall hs
    · rw [hcall] at hs
      obtain rfl : (s.closeGo t point).1 = s' := congrArg Prod.fst (Option.some.inj hs)
      obtain rfl : (s.closeGo t point).2 = events := congrArg Prod.snd (Option.some.inj hs)
      refine closeGo_inv h hcall fun hpoint => ?_
      rw [hpoint] at hcall
      exact hok hcall

theorem PosixInv.init : PosixInv [] .init :=
  ⟨⟨Nat.succ_pos _, rfl, nofun, fun _ => rfl, fun _ _ _ _ hor => hor.elim nofun nofun⟩, ⟨rfl, nofun⟩, EachEvent.nil,
    fun _ => ⟨rfl, fun _ => (PosixPipe.of_idle rfl).2.2, .inr ⟨rfl, .inl fun _ => (PosixPipe.of_idle rfl).1⟩⟩⟩

/-- A read that returns 0 finds no writer and an empty buffer, and everything that has been put has been taken; without a writer no
reader waits once the wake-up of the last close has come. -/
theorem posixPipe_of_run (hrun : PosixRun LastCloseFits bufsz trace s) :
    (∀ before t buffered writers after, trace = before ++ .eof t buffered writers :: after →
        buffered = [] ∧ writers = 0 ∧ putBytes before = gotBytes before) ∧
      (s.openWriters = 0 → ¬s.Waking → s.readerQueue.waitingList = []) := by
  have hinv := hrun.invariant .init fun trace s op s' events h hok hs => stepPosix_inv h hok hs
  refine ⟨fun before t buffered writers after heq => hinv.eofs before _ after heq, fun hzero hwaking => ?_⟩
  exact ((hinv.quiet (hinv.counts.writers.trans hzero)).readers.resolve_left hwaking).1

def posixOpened : List PosixOp :=
  [.openFd 0 ⟨.rdonly, false⟩ (some fun _ => 0), .openFd 1 ⟨.wronly, false⟩ none]

def posixReads (t : ThreadId) : List PosixOp := [.read t 0 ⟨.rdonly, false⟩ 4, .go t, .go t, .go t]

/-- A reader that waits when the last writer closes gets its end of file. -/
theorem posixPipe_of_run_waiting : ∃ trace s, PosixRun LastCloseFits 8 trace s ∧ .eof 1 [] 0 ∈ trace ∧
    (∀ before t buffered writers after, trace = before ++ .eof t buffered writers :: after →
        buffered = [] ∧ writers = 0 ∧ putBytes before = gotBytes before) ∧
      (s.openWriters = 0 → ¬s.Waking → s.readerQueue.waitingList = []) := by
  have hreader : PosixRun LastCloseFits 8 _ _ := .next .start (a := PosixOp.openFd 0 ⟨.rdonly, false⟩ (some fun _ => 0)) (Nat.succ_pos 254) rfl
  have hwriter : PosixRun LastCloseFits 8 _ _ := .next hreader (a := PosixOp.openFd 1 ⟨.wronly, false⟩ none) (Nat.lt_of_sub_pos (Nat.succ_pos 253)) rfl
  have hread : PosixRun LastCloseFits 8 _ _ := .next hwriter (a := PosixOp.read 1 0 ⟨.rdonly, false⟩ 4) trivial rfl
  have hempty : PosixRun LastCloseFits 8 _ _ := .next hread (a := PosixOp.go 1) (fun heq => by cases heq) rfl
  have hchecked : PosixRun LastCloseFits 8 _ _ := .next hempty (a := PosixOp.go 1) (fun heq => by cases heq) rfl
  have hwaits : PosixRun LastCloseFits 8 _ _ := .next hchecked (a := PosixOp.go 1) (fun heq => by cases heq) rfl
  have hclose : PosixRun LastCloseFits 8 _ _ := .next hwaits (a := PosixOp.closeFd 0 1 ⟨.wronly, false⟩) (fun _ _ => ⟨rfl, fun u => by
    by_cases hu : u = 1
    · subst hu
      exact (PosixPipe.of_read rfl).2.2
    · refine (PosixPipe.of_idle ?_).2.2
      simp [PosixPipe.setCall, hu, PosixPipe.openFd, PosixPipe.init]⟩) rfl
  have hwakes : PosixRun LastCloseFits 8 _ _ := .next hclose (a := PosixOp.go 0) (fun _ _ => .inl ⟨Nat.le_refl _, fun u => by
    by_cases hu : u = 1
    · subst hu
      exact fun hb => by rcases (PosixPipe.of_read rfl).1 hb with heq | heq <;> cases heq
    · by_cases hu' : u = 0
      · subst hu'
        exact (PosixPipe.of_close rfl).1
      · refine (PosixPipe.of_idle ?_).1
        simp [PosixPipe.setCall, PosixPipe.closeFd, hu, hu', PosixPipe.openFd, PosixPipe.init]⟩) rfl
  have hwakes' : PosixRun LastCloseFits 8 _ _ := .next hwakes (a := PosixOp.go 0) (fun heq => by cases heq) rfl
  have hclosed : PosixRun LastCloseFits 8 _ _ := .next hwakes' (a := PosixOp.go 0) (fun heq => by cases heq) rfl
  have hresumed : PosixRun LastCloseFits 8 _ _ := .next hclosed (a := PosixOp.go 1) (fun heq => by cases heq) rfl
  have heof : PosixRun LastCloseFits 8 _ _ := .next hresumed (a := PosixOp.go 1) (fun heq => by cases heq) rfl
  exact ⟨_, _, heof, List.mem_append_right _ (List.mem_singleton_self _), posixPipe_of_run heof⟩

/-- Four bytes are written and the writer closes: the read returns 0. Two readers wait and the writer closes: one of them goes on
waiting. With 256 writers the counter is 0, and a read returns 0. -/
theorem posixPipe_fails :
    (∃ trace s, PosixRun (fun _ _ => True) 8 trace s ∧ .eof 1 [7, 8, 9, 10] 0 ∈ trace) ∧
      (∃ trace s, PosixRun (fun _ _ => True) 8 trace s ∧ s.openWriters = 0 ∧ s.lock = none ∧ s.readerQueue.waitingList = [2]) ∧
      ∃ trace s, PosixRun (fun _ _ => True) 8 trace s ∧ .eof 1 [] 256 ∈ trace := by
  refine ⟨?_, ?_, ?_⟩
  · obtain ⟨trace, s, hrun, hfound⟩ := exists_posixRun 8
      (posixOpened ++ [.write 0 1 ⟨.wronly, false⟩ [7, 8, 9, 10], .go 0, .go 0, .closeFd 0 1 ⟨.wronly, false⟩, .go 0, .go 0, .go 0,
        .read 1 0 ⟨.rdonly, false⟩ 4])
      (fun trace _ => decide (.eof 1 [7, 8, 9, 10] 0 ∈ trace)) (by decide +kernel)
    exact ⟨trace, s, hrun, of_decide_eq_true hfound⟩
  · obtain ⟨trace, s, hrun, hfound⟩ := exists_posixRun 8
      (posixOpened ++ posixReads 1 ++ posixReads 2 ++ [.closeFd 0 1 ⟨.wronly, false⟩, .go 0, .go 0, .go 0])
      (fun _ s => decide (s.openWriters = 0 ∧ s.lock = none ∧ s.readerQueue.waitingList = [2])) (by decide +kernel)
    exact ⟨trace, s, hrun, of_decide_eq_true hfound⟩
  · obtain ⟨trace, s, hrun, hfound⟩ := exists_posixRun 8
      (posixOpened ++ ((List.range 255).map fun n => .openFd (n + 2) ⟨.wronly, false⟩ none) ++ [.read 1 0 ⟨.rdonly, false⟩ 4])
      (fun trace _ => decide (.eof 1 [] 256 ∈ trace)) (by decide +kernel)
    exact ⟨trace, s, hrun, of_decide_eq_true hfound⟩

end RtThread
