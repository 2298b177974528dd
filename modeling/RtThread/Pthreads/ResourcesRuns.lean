import RtThread.Pthreads.Resources

/-!
# Threads that are created joinable and return

What has been freed of such a thread can be told from how far its join or detach is. It is in the list of the defunct threads from its end until the idle thread has cleaned it up, and only then can a join go on.
-/

namespace RtThread

open Transition

variable {s s' : PthreadSystem} {op : PthreadOp} {trace events : List PthreadOp} {t : ThreadId} {p p' : Pthread} {rs : List PthreadResource}
  {linked : Prop}

def Pthread.due (p : Pthread) : List PthreadResource :=
  match p.call with
  | .detaching | .freeing => [.sem]
  | .ended => p.owned ++ [.sem]
  | _ => []

/-- A thread that has been created joinable and returns; `linked` says that it is in the list of the defunct threads. -/
structure PthreadOk (linked : Prop) (p : Pthread) : Prop where
  joinable : p.detachstate = .joinable
  exit : p.exit = .no
  sem : p.joinableSem = true
  isThread : p.isThread = true ↔ p.call ≠ .freeing ∧ p.call ≠ .ended
  defunct : linked ↔ p.closed = true ∧ p.cleanup = true
  early : p.cleanup = true → p.value = 0 ∧
    (p.call = .unclaimed ∨ p.call = .waiting ∨ p.call = .entered ∨ p.call = .closing ∧ p.closed = true)
  late : p.cleanup = false → p.closed = true ∧ p.call ≠ .waiting ∧ p.call ≠ .changing ∧ (p.call = .unclaimed → p.value = 1)
  allocated : p.allocated.Perm (p.owned ++ [.sem])
  released : p.released = p.due

structure ResourcesInv (s : PthreadSystem) : Prop where
  sound : s.fault = false
  reaping : s.reaping = none
  nodup : s.defunct.Nodup
  known : ∀ t ∈ s.defunct, ∃ p, s.thread t = some p
  threads : ∀ t p, s.thread t = some p → PthreadOk (t ∈ s.defunct) p

/-! ## One thread -/

namespace Pthread

theorem sem_notMem_owned (p : Pthread) : PthreadResource.sem ∉ p.owned := by
  unfold owned
  cases p.tls <;> cases p.stackBase <;> decide

theorem mem_owned_ptd (p : Pthread) : PthreadResource.ptd ∈ p.owned := by simp [owned]

theorem mem_owned_tid (p : Pthread) : PthreadResource.tid ∈ p.owned := by simp [owned]

end Pthread

namespace PthreadOk

variable (h : PthreadOk linked p)

include h

theorem usable_owned (hcall : p.call ≠ .ended) : ∀ r ∈ p.owned, p.Usable r := by
  intro r hr
  refine ⟨h.allocated.mem_iff.2 (List.mem_append_left _ hr), ?_⟩
  have hne : r ≠ .sem := fun heq => p.sem_notMem_owned (heq ▸ hr)
  rw [h.released]
  cases hc : p.call with
  | ended => exact absurd hc hcall
  | detaching | freeing => simpa [Pthread.due, hc] using hne
  | _ => simp [Pthread.due, hc]

theorem usable_heads (hcall : p.call ≠ .ended) : ∀ r ∈ [PthreadResource.tid, .ptd], p.Usable r := by
  intro r hr
  apply h.usable_owned hcall
  simp only [List.mem_cons, List.not_mem_nil, or_false] at hr
  rcases hr with rfl | rfl
  · exact p.mem_owned_tid
  · exact p.mem_owned_ptd

theorem usable_sem (hdue : p.due = []) : p.Usable .sem := by
  refine ⟨h.allocated.mem_iff.2 (List.mem_append_right _ List.mem_cons_self), ?_⟩
  rw [h.released, hdue]
  exact List.not_mem_nil

theorem due_early (hcleanup : p.cleanup = true) : p.due = [] := by
  obtain ⟨-, hc | hc | hc | ⟨hc, -⟩⟩ := h.early hcleanup <;> simp [Pthread.due, hc]

theorem call_early (hcleanup : p.cleanup = true) : p.call ≠ .ended := by
  obtain ⟨-, hc | hc | hc | ⟨hc, -⟩⟩ := h.early hcleanup <;> simp [hc]

theorem cleanup_of_open (hopen : p.closed = false) : p.cleanup = true := by
  by_contra hcleanup
  have := (h.late (Bool.eq_false_iff.2 hcleanup)).1
  rw [hopen] at this
  cases this

theorem cleanup_of_waiting (hcall : p.call = .waiting) : p.cleanup = true := by
  by_contra hcleanup
  exact (h.late (Bool.eq_false_iff.2 hcleanup)).2.1 hcall

theorem count_ended (hcall : p.call = .ended) (r : PthreadResource) : p.released.count r = p.allocated.count r := by
  rw [h.released, h.allocated.count_eq]
  simp [Pthread.due, hcall]

theorem count_le (r : PthreadResource) : p.released.count r ≤ p.allocated.count r := by
  rw [h.released, h.allocated.count_eq]
  cases hc : p.call <;> simp [Pthread.due, hc, List.count_append]

theorem finished (hreleased : p.released ≠ []) : p.Finished := by
  rw [h.released] at hreleased
  have hcleanup : p.cleanup = false := by
    by_contra hcleanup
    exact hreleased (h.due_early (by simpa using hcleanup))
  refine ⟨(h.late hcleanup).1, fun _ hcall => hreleased ?_⟩
  simp [Pthread.due, hcall]

end PthreadOk

theorem ResourcesInv.right (h : ResourcesInv s) : ResourcesRight s := by
  refine ⟨h.sound, fun t p hp => (h.threads t p hp).count_le, fun t p hp => (h.threads t p hp).finished, ?_⟩
  rintro t p hp ⟨hclosed, hclaimed⟩ ⟨hlinked, -, hcall⟩
  have hok := h.threads t p hp
  rcases hcall with hcall | hcall | hcall
  · exact absurd hcall (hclaimed hok.joinable)
  · -- a join that waits for a thread which has ended is resumed by the idle thread
    exact absurd (hok.defunct.2 ⟨hclosed, hok.cleanup_of_waiting hcall⟩) hlinked
  · exact hok.count_ended hcall

/-! ## Steps -/

namespace PthreadSystem

theorem thread_set (s : PthreadSystem) (t t' : ThreadId) (p : Pthread) :
    (s.set t p).thread t' = if t' = t then some p else s.thread t' := Function.update_apply ..

theorem threadDetach_plain (s : PthreadSystem) (hplain : s.debug = false) (hcleanup : p.cleanup = false) (hunlinked : t ∉ s.defunct) :
    s.threadDetach t p = s.set t { p with closed := true, isThread := false } := by
  rw [threadDetach, if_neg fun hno => Bool.noConfusion (hplain.symm.trans hno.1), List.erase_of_not_mem hunlinked]
  exact if_neg fun hno => Bool.noConfusion (hcleanup.symm.trans hno)

theorem access_of (h : ∀ r ∈ rs, p.Usable r) : s.access p rs s' = s' := if_pos h

end PthreadSystem

namespace ResourcesInv

theorem update (h : ResourcesInv s) (hp : PthreadOk (t ∈ s'.defunct) p') (hthread : ∀ t', s'.thread t' = if t' = t then some p' else s.thread t')
    (hfault : s'.fault = false) (hreaping : s'.reaping = none) (hnodup : s'.defunct.Nodup)
    (hothers : ∀ t' ≠ t, t' ∈ s'.defunct ↔ t' ∈ s.defunct) : ResourcesInv s' := by
  refine ⟨hfault, hreaping, hnodup, fun t' ht' => ?_, fun t' p hp' => ?_⟩
  · by_cases heq : t' = t
    · exact ⟨p', by rw [hthread, if_pos heq]⟩
    · rw [hthread, if_neg heq]
      exact h.known t' ((hothers t' heq).1 ht')
  · rw [hthread] at hp'
    split_ifs at hp' with heq
    · cases hp'
      rwa [heq]
    · rw [hothers t' heq]
      exact h.threads t' p hp'

theorem set (h : ResourcesInv s) (hp : PthreadOk (t ∈ s.defunct) p') : ResourcesInv (s.set t p') :=
  h.update hp (s.thread_set t · p') h.sound h.reaping h.nodup fun _ _ => Iff.rfl

theorem create (h : ResourcesInv s) (ht : s.thread t = none) (b : Bool) : ResourcesInv (s.set t (.create .joinable b)) := by
  have hlinked : t ∉ s.defunct := by
    intro hmem
    obtain ⟨p, hp⟩ := h.known t hmem
    rw [ht] at hp
    cases hp
  refine h.set ⟨rfl, rfl, rfl, by simp [Pthread.create], by simp [hlinked, Pthread.create], fun _ => ⟨rfl, .inl rfl⟩, fun hcleanup => ?_, ?_, rfl⟩
  · cases hcleanup
  · cases b <;> decide

theorem setspecific (h : ResourcesInv s) (hp : s.thread t = some p) (hopen : p.closed = false) :
    ResourcesInv (s.access p [.tid, .ptd] (s.set t p.setspecific)) := by
  have hok := h.threads t p hp
  have hcleanup := hok.cleanup_of_open hopen
  rw [PthreadSystem.access_of (hok.usable_heads (hok.call_early hcleanup))]
  apply h.set
  unfold Pthread.setspecific
  split_ifs with htls
  · exact hok
  · refine ⟨hok.joinable, hok.exit, hok.sem, hok.isThread, hok.defunct, hok.early, hok.late, ?_, ?_⟩
    · have := hok.allocated.cons PthreadResource.tls
      refine this.trans ?_
      rw [Bool.not_eq_true] at htls
      simp only [Pthread.owned, htls]
      cases p.stackBase <;> decide
    · have := hok.due_early hcleanup
      obtain ⟨-, hc | hc | hc | ⟨hc, -⟩⟩ := hok.early hcleanup <;> simpa [Pthread.due, hc] using hok.released

theorem ret (h : ResourcesInv s) (hp : s.thread t = some p) (hopen : p.closed = false) :
    ResourcesInv (s.access p [.tid, .ptd] (s.threadExit t p)) := by
  have hok := h.threads t p hp
  have hcleanup := hok.cleanup_of_open hopen
  have hlinked : t ∉ s.defunct := fun hmem => by
    have := (hok.defunct.1 hmem).1
    rw [hopen] at this
    cases this
  rw [PthreadSystem.access_of (hok.usable_heads (hok.call_early hcleanup))]
  have hexit : s.threadExit t p = { s.set t { p with closed := true } with defunct := t :: s.defunct } := by
    simp [PthreadSystem.threadExit, PthreadSystem.insertDefunct, PthreadSystem.set, hcleanup, hlinked]
  rw [hexit]
  refine h.update ?_ (s.thread_set t · { p with closed := true }) h.sound h.reaping (List.nodup_cons.2 ⟨hlinked, h.nodup⟩) fun t' ht' => ?_
  · refine ⟨hok.joinable, hok.exit, hok.sem, hok.isThread, iff_of_true List.mem_cons_self ⟨rfl, hcleanup⟩, fun _ => ?_,
      fun hlate => ?_, hok.allocated, hok.released⟩
    · obtain ⟨hvalue, hcall⟩ := hok.early hcleanup
      exact ⟨hvalue, hcall.imp_right (.imp_right (.imp_right fun hc => ⟨hc.1, rfl⟩))⟩
    · rw [show p.cleanup = false from hlate] at hcleanup
      cases hcleanup
  · simp [ht']

theorem join (h : ResourcesInv s) (hp : s.thread t = some p) (hcall : p.call = .unclaimed) : ResourcesInv (s.pthreadJoin t p) := by
  have hok := h.threads t p hp
  have hdue : p.due = [] := by simp [Pthread.due, hcall]
  have husable : ∀ r ∈ [PthreadResource.tid, .ptd, .sem], p.Usable r := by
    intro r hr
    simp only [List.mem_cons, List.not_mem_nil, or_false] at hr
    rcases hr with rfl | rfl | rfl
    · exact hok.usable_owned (by simp [hcall]) _ p.mem_owned_tid
    · exact hok.usable_owned (by simp [hcall]) _ p.mem_owned_ptd
    · exact hok.usable_sem hdue
  have hisThread : p.isThread = true := hok.isThread.2 (by simp [hcall])
  simp only [PthreadSystem.pthreadJoin, hok.joinable]
  rw [PthreadSystem.access_of husable]
  split_ifs with hvalue
  · -- there is a permit: the idle thread has cleaned up
    have hcleanup : p.cleanup = false := by
      by_contra hcleanup
      have := (hok.early (by simpa using hcleanup)).1
      omega
    refine h.set ⟨rfl, hok.exit, hok.sem, by simp [hisThread], hok.defunct, fun hearly => ?_, fun _ => ?_, hok.allocated, ?_⟩
    · rw [show p.cleanup = true from hearly] at hcleanup
      cases hcleanup
    · exact ⟨(hok.late hcleanup).1, by simp⟩
    · rw [hok.released, hdue]
      rfl
  · have hcleanup : p.cleanup = true := by
      by_contra hcleanup
      have := (hok.late (Bool.eq_false_iff.2 hcleanup)).2.2.2 hcall
      omega
    refine h.set ⟨rfl, hok.exit, hok.sem, by simp [hisThread], hok.defunct, fun _ => ?_, fun hlate => ?_, hok.allocated, ?_⟩
    · exact ⟨(hok.early hcleanup).1, .inr (.inl rfl)⟩
    · rw [show p.cleanup = false from hlate] at hcleanup
      cases hcleanup
    · rw [hok.released, hdue]
      rfl

theorem detach (h : ResourcesInv s) (hp : s.thread t = some p) (hcall : p.call = .unclaimed) :
    ResourcesInv (s.set t { p with call := .entered }) := by
  have hok := h.threads t p hp
  have hisThread : p.isThread = true := hok.isThread.2 (by simp [hcall])
  refine h.set ⟨hok.joinable, hok.exit, hok.sem, by simp [hisThread], hok.defunct, fun hearly => ?_, fun hlate => ?_, hok.allocated, ?_⟩
  · exact ⟨(hok.early hearly).1, .inr (.inr (.inl rfl))⟩
  · exact ⟨(hok.late hlate).1, by simp⟩
  · rw [hok.released]
    simp [Pthread.due, hcall]

theorem idle {rest : List ThreadId} (h : ResourcesInv s) (hp : s.thread t = some p) (hdefunct : s.defunct = t :: rest) :
    ResourcesInv (s.idle t p) := by
  have hok := h.threads t p hp
  have hnodup := h.nodup
  rw [hdefunct] at hnodup
  obtain ⟨hclosed, hcleanup⟩ := hok.defunct.1 (by simp [hdefunct])
  have husable : ∀ r ∈ [PthreadResource.tid, .ptd] ++ p.semaphore, p.Usable r := by
    intro r hr
    rcases List.mem_append.1 hr with hr | hr
    · exact hok.usable_heads (hok.call_early hcleanup) r hr
    · rw [Pthread.semaphore, if_pos hok.sem, List.mem_singleton] at hr
      rw [hr]
      exact hok.usable_sem (hok.due_early hcleanup)
  have hisThread : p.isThread = true := by
    rw [hok.isThread]
    obtain ⟨-, hc | hc | hc | ⟨hc, -⟩⟩ := hok.early hcleanup <;> simp [hc]
  have hidle : s.idle t p = { s.set t p.pthreadCleanup with defunct := rest, reaping := none } := by
    simp only [PthreadSystem.idle, if_pos hcleanup, if_pos hisThread, hdefunct, List.tail_cons]
    rw [PthreadSystem.access_of husable]
  rw [hidle]
  refine h.update ?_ (s.thread_set t · p.pthreadCleanup) h.sound rfl hnodup.tail fun t' ht' => by simp [hdefunct, ht']
  have hunlinked : t ∉ rest := (List.nodup_cons.1 hnodup).1
  obtain ⟨hvalue, hcall⟩ := hok.early hcleanup
  have hreleased := hok.released
  rw [hok.due_early hcleanup] at hreleased
  simp only [Pthread.pthreadCleanup, hok.joinable, Pthread.semRelease]
  split_ifs with hwaiting
  · refine ⟨rfl, hok.exit, hok.sem, by simp [hisThread], by simp [hunlinked], fun hearly => ?_, fun _ => ⟨hclosed, by simp⟩, hok.allocated, ?_⟩
    · cases hearly
    · rw [hreleased]
      rfl
  · refine ⟨rfl, hok.exit, hok.sem, hok.isThread, by simp [hunlinked], fun hearly => ?_, fun _ => ⟨hclosed, hwaiting, ?_, fun _ => ?_⟩, hok.allocated, ?_⟩
    · cases hearly
    · rcases hcall with hc | hc | hc | ⟨hc, -⟩ <;> simp [hc]
    · simp [hvalue]
    · rw [hreleased]
      rcases hcall with hc | hc | hc | ⟨hc, -⟩ <;> simp [Pthread.due, hc]

theorem go (h : ResourcesInv s) (hp : s.thread t = some p) (hended : p.call = .entered → p.closed = true)
    (hcleaned : p.call = .closing → p.cleanup = false) (hplain : p.call = .detaching → s.debug = false) (hgo : s.pthreadDetach t p = some s') : ResourcesInv s' := by
  have hok := h.threads t p hp
  have hlate : p.call ≠ .unclaimed → p.call ≠ .waiting → p.call ≠ .entered → p.cleanup = false := by
    intro hunclaimed hwaiting hentered
    by_contra hcleanup
    rw [Bool.not_eq_false] at hcleanup
    obtain ⟨-, hc | hc | hc | ⟨hc, -⟩⟩ := hok.early hcleanup
    · exact hunclaimed hc
    · exact hwaiting hc
    · exact hentered hc
    · rw [hcleaned hc] at hcleanup
      cases hcleanup
  cases hcall : p.call with
  | unclaimed | waiting | ended => simp [PthreadSystem.pthreadDetach, hcall] at hgo
  | changing => exact absurd hcall (hok.late (hlate (by simp [hcall]) (by simp [hcall]) (by simp [hcall]))).2.2.1
  | entered =>
    have hclosed := hended hcall
    have hisThread : p.isThread = true := hok.isThread.2 (by simp [hcall])
    simp only [PthreadSystem.pthreadDetach, hcall, Option.some.injEq] at hgo
    rw [PthreadSystem.access_of (hok.usable_heads (by simp [hcall])), hok.joinable, if_neg (by decide), if_pos hclosed] at hgo
    rw [← hgo]
    refine h.set ⟨rfl, hok.exit, hok.sem, by simp [hisThread], hok.defunct, fun hearly => ?_, fun _ => ⟨hclosed, by simp⟩, hok.allocated, ?_⟩
    · exact ⟨(hok.early hearly).1, .inr (.inr (.inr ⟨rfl, hclosed⟩))⟩
    · rw [hok.released]
      simp [Pthread.due, hcall]
  | closing =>
    have hcleanup := hcleaned hcall
    have hisThread : p.isThread = true := hok.isThread.2 (by simp [hcall])
    have hdue : p.due = [] := by simp [Pthread.due, hcall]
    have hsem : p.semaphore = [.sem] := if_pos hok.sem
    have husable : ∀ r ∈ PthreadResource.ptd :: p.semaphore, p.Usable r := by
      intro r hr
      simp only [hsem, List.mem_cons, List.not_mem_nil, or_false] at hr
      rcases hr with rfl | rfl
      · exact hok.usable_owned (by simp [hcall]) _ p.mem_owned_ptd
      · exact hok.usable_sem hdue
    simp only [PthreadSystem.pthreadDetach, hcall, Option.some.injEq] at hgo
    rw [PthreadSystem.access_of husable, hsem] at hgo
    rw [← hgo]
    refine h.set ⟨hok.joinable, hok.exit, hok.sem, iff_of_true hisThread (by simp), hok.defunct, fun hearly => ?_,
      fun _ => ⟨(hok.late hcleanup).1, by simp⟩, hok.allocated, ?_⟩
    · rw [show p.cleanup = true from hearly] at hcleanup
      cases hcleanup
    · show [.sem] ++ p.released = [.sem]
      rw [hok.released, hdue]
      rfl
  | detaching =>
    have hcleanup := hlate (by simp [hcall]) (by simp [hcall]) (by simp [hcall])
    have husable : ∀ r ∈ [PthreadResource.ptd, .tid], p.Usable r := fun r hr =>
      hok.usable_heads (by simp [hcall]) r (by simpa [or_comm] using hr)
    simp only [PthreadSystem.pthreadDetach, hcall, Option.some.injEq] at hgo
    rw [PthreadSystem.access_of husable] at hgo
    have hunlinked : t ∉ s.defunct := fun hmem => by
      have := (hok.defunct.1 hmem).2
      rw [hcleanup] at this
      cases this
    rw [PthreadSystem.threadDetach_plain s (p := { p with call := .freeing }) (hplain hcall) hcleanup hunlinked] at hgo
    rw [← hgo]
    refine h.set ⟨hok.joinable, hok.exit, hok.sem, by simp, ?_, fun hearly => ?_, fun _ => by simp, hok.allocated, ?_⟩
    · rw [hok.defunct, hcleanup]
      simp
    · cases hcleanup.symm.trans hearly
    · rw [hok.released]
      simp [Pthread.due, hcall]
  | freeing =>
    have hcleanup := hlate (by simp [hcall]) (by simp [hcall]) (by simp [hcall])
    simp only [PthreadSystem.pthreadDetach, hcall, Option.some.injEq] at hgo
    rw [PthreadSystem.access_of (hok.usable_owned (by simp [hcall]))] at hgo
    rw [← hgo]
    refine h.set ⟨hok.joinable, hok.exit, hok.sem, ?_, hok.defunct, fun hearly => ?_, fun _ => ⟨(hok.late hcleanup).1, by simp⟩, hok.allocated, ?_⟩
    · have hisThread : p.isThread ≠ true := fun hisThread => (hok.isThread.1 hisThread).1 hcall
      exact iff_of_false hisThread (by simp)
    · rw [show p.cleanup = true from hearly] at hcleanup
      cases hcleanup
    · show p.owned ++ p.released = p.owned ++ [.sem]
      rw [hok.released]
      simp [Pthread.due, hcall]

theorem next (h : ResourcesInv s) (hsafe : ResourcesSafe s op) (hnext : s.next op = some s') : ResourcesInv s' := by
  cases op with
  | create t detachstate b =>
    cases ht : s.thread t with
    | some p => simp [PthreadSystem.next, ht] at hnext
    | none =>
      simp only [PthreadSystem.next, ht, Option.some.injEq] at hnext
      rw [← hnext, show detachstate = .joinable from hsafe]
      exact h.create ht b
  | exit t => exact hsafe.elim
  | idle =>
    simp only [PthreadSystem.next, h.reaping] at hnext
    cases hdefunct : s.defunct with
    | nil => simp [hdefunct] at hnext
    | cons t rest =>
      obtain ⟨p, hp⟩ := h.known t (by simp [hdefunct])
      simp only [hdefunct, hp, Option.map_some, Option.some.injEq] at hnext
      rw [← hnext]
      exact h.idle hp hdefunct
  | idleFree => simp [PthreadSystem.next, h.reaping] at hnext
  | setspecific t =>
    cases hp : s.thread t with
    | none => simp [PthreadSystem.next, hp] at hnext
    | some p =>
      simp only [PthreadSystem.next, hp] at hnext
      split_ifs at hnext with hrunning
      cases hnext
      exact h.setspecific hp hrunning.1
  | ret t =>
    cases hp : s.thread t with
    | none => simp [PthreadSystem.next, hp] at hnext
    | some p =>
      simp only [PthreadSystem.next, hp] at hnext
      split_ifs at hnext with hrunning
      cases hnext
      exact h.ret hp hrunning.1
  | join self t =>
    cases hp : s.thread t with
    | none => simp [PthreadSystem.next, hp] at hnext
    | some p =>
      simp only [PthreadSystem.next, hp] at hnext
      split_ifs at hnext with hcall hself
      · cases hnext
        exact h
      · cases hnext
        exact h.join hp hcall
  | detach t =>
    cases hp : s.thread t with
    | none => simp [PthreadSystem.next, hp] at hnext
    | some p =>
      simp only [PthreadSystem.next, hp] at hnext
      split_ifs at hnext with hcall
      cases hnext
      exact h.detach hp hcall
  | go t =>
    cases hp : s.thread t with
    | none => simp [PthreadSystem.next, hp] at hnext
    | some p =>
      simp only [PthreadSystem.next, hp] at hnext
      exact h.go hp (hsafe p hp).1 (hsafe p hp).2.1 (hsafe p hp).2.2 hnext

theorem init (debug : Bool) : ResourcesInv (.init debug) :=
  ⟨rfl, rfl, List.nodup_nil, fun _ ht => (List.not_mem_nil ht).elim, fun _ _ hp => by cases hp⟩

end ResourcesInv

theorem PthreadSystem.step_eq {r : PthreadSystem × List PthreadOp} (hstep : s.step op = some r) : s.next op = some r.1 := by
  unfold PthreadSystem.step at hstep
  split_ifs at hstep
  obtain ⟨s', hnext, rfl⟩ := Option.map_eq_some_iff.1 hstep
  exact hnext

/-- When threads are created joinable and return, and no detach comes before the idle thread has cleaned up, each thread's resources are freed once, after it has ended and been joined or detached, and are not used any more. -/
theorem resourcesRight_of_run {debug : Bool} (hrun : PthreadRun debug ResourcesSafe trace s) : ResourcesRight s := by
  apply ResourcesInv.right
  exact hrun.state_invariant (.init debug) fun s op s' events hinv hsafe hstep => hinv.next hsafe (PthreadSystem.step_eq hstep)

/-! ## Runs -/

theorem PthreadRun.exists_of_exec (debug : Bool) (ok : PthreadSystem → PthreadOp → Prop) [∀ s op, Decidable (ok s op)] (ops : List PthreadOp)
    (found : PthreadSystem → Bool) (h : ((exec PthreadSystem.step ok (.init debug) ops).any fun r => found r.2) = true) :
    ∃ trace s, PthreadRun debug ok trace s ∧ found s = true := exists_run_of_exec ops (fun _ => found) h

/-- One thread is joined before it returns, another is detached after it has been cleaned up. -/
theorem resourcesRight_of_run_two : ∃ trace s, PthreadRun false ResourcesSafe trace s ∧
    (s.thread 1).map Pthread.released = some [.ptd, .tid, .tls, .stack, .sem] ∧
    (s.thread 2).map Pthread.released = some [.ptd, .tid, .sem] ∧ ResourcesRight s := by
  obtain ⟨trace, s, hrun, hfound⟩ := PthreadRun.exists_of_exec false ResourcesSafe
    [.create 1 .joinable false, .create 2 .joinable true, .join 0 1, .setspecific 1, .ret 1, .ret 2, .idle, .idle,
      .go 1, .detach 2, .go 1, .go 2, .go 1, .go 2, .go 2, .go 1, .go 2]
    (fun s => decide ((s.thread 1).map Pthread.released = some [.ptd, .tid, .tls, .stack, .sem] ∧
      (s.thread 2).map Pthread.released = some [.ptd, .tid, .sem])) (by decide +kernel)
  obtain ⟨h₁, h₂⟩ := of_decide_eq_true hfound
  exact ⟨trace, s, hrun, h₁, h₂, resourcesRight_of_run hrun⟩

/-- A thread that has ended and been joined or detached, with nothing left to be done for it, and whose `ptd` is not freed. -/
def PthreadSystem.Leaks (s : PthreadSystem) (t : ThreadId) : Prop :=
  ∃ p ∈ s.thread t, p.Finished ∧ s.Settled t p ∧ p.released.count .ptd < p.allocated.count .ptd

instance PthreadSystem.decidableLeaks (s : PthreadSystem) (t : ThreadId) : Decidable (s.Leaks t) :=
  inferInstanceAs (Decidable (∃ p ∈ s.thread t, _))

theorem PthreadSystem.Leaks.not_right (h : s.Leaks t) : ¬ ResourcesRight s := by
  intro hright
  obtain ⟨p, hp, hfinished, hsettled, hlt⟩ := h
  have := hright.all t p hp hfinished hsettled .ptd
  omega

/-- A detached thread returns, and nothing is freed. A joined thread calls `pthread_exit`, and the join resumes before it is closed. A thread is detached before the idle thread has cleaned it up, which then releases a deleted semaphore. And with `RT_DEBUG` a join of a thread that has returned comes to an assertion. -/
theorem resources_fail :
    (∃ trace s, PthreadRun true (fun _ _ => True) trace s ∧ s.Leaks 1 ∧ ¬ ResourcesRight s) ∧
    (∃ trace s, PthreadRun true (fun _ _ => True) trace s ∧ s.Leaks 1 ∧ ¬ ResourcesRight s) ∧
    (∃ trace s, PthreadRun false (fun _ _ => True) trace s ∧ s.fault = true ∧ ¬ ResourcesRight s) ∧
    ∃ trace s, PthreadRun true (fun _ _ => True) trace s ∧ s.fault = true ∧ (s.thread 1).map Pthread.call = some .detaching ∧
      ¬ ResourcesRight s := by
  have hwrong {s : PthreadSystem} (hfault : s.fault = true) : ¬ ResourcesRight s := fun hright => by
    rw [hright.sound] at hfault
    cases hfault
  refine ⟨?_, ?_, ?_, ?_⟩
  · obtain ⟨trace, s, hrun, hfound⟩ := PthreadRun.exists_of_exec true (fun _ _ => True) [.create 1 .detached false, .ret 1, .idle]
      (fun s => decide (s.Leaks 1)) (by decide +kernel)
    have hleaks := of_decide_eq_true hfound
    exact ⟨trace, s, hrun, hleaks, hleaks.not_right⟩
  · obtain ⟨trace, s, hrun, hfound⟩ := PthreadRun.exists_of_exec true (fun _ _ => True)
      [.create 1 .joinable false, .join 0 1, .exit 1, .exit 1, .go 1, .go 1, .exit 1, .idle, .idleFree]
      (fun s => decide (s.Leaks 1)) (by decide +kernel)
    have hleaks := of_decide_eq_true hfound
    exact ⟨trace, s, hrun, hleaks, hleaks.not_right⟩
  · obtain ⟨trace, s, hrun, hfault⟩ := PthreadRun.exists_of_exec false (fun _ _ => True)
      [.create 1 .joinable false, .ret 1, .detach 1, .go 1, .go 1, .idle] PthreadSystem.fault (by decide +kernel)
    exact ⟨trace, s, hrun, hfault, hwrong hfault⟩
  · obtain ⟨trace, s, hrun, hfound⟩ := PthreadRun.exists_of_exec true (fun _ _ => True)
      [.create 1 .joinable false, .join 0 1, .ret 1, .idle, .go 1, .go 1, .go 1]
      (fun s => decide (s.fault = true ∧ (s.thread 1).map Pthread.call = some .detaching)) (by decide +kernel)
    obtain ⟨hfault, hcall⟩ := of_decide_eq_true hfound
    exact ⟨trace, s, hrun, hfault, hcall, hwrong hfault⟩

end RtThread
