import RtThread.Kernel.Machine

/-!
# What a kernel call leaves alone

The scheduler's primitives act on one thread: they change that thread, its place in the lists and the ready bitmap, and nothing else. `Local t` says so, and it composes, so the functions built from the primitives inherit it.
-/

namespace RtThread

open Function

variable {cfg : Config} {k k' k'' : Kernel} {t u : ThreadId}

structure SameObjects (k k' : Kernel) : Prop where
  sem : k'.sem = k.sem
  mutex : k'.mutex = k.mutex
  call : k'.call = k.call
  lockNest : k'.lockNest = k.lockNest
  interruptNest : k'.interruptNest = k.interruptNest

theorem SameObjects.refl (k : Kernel) : SameObjects k k := ⟨rfl, rfl, rfl, rfl, rfl⟩

theorem SameObjects.trans (h : SameObjects k k') (h' : SameObjects k' k'') : SameObjects k k'' :=
  ⟨h'.sem.trans h.sem, h'.mutex.trans h.mutex, h'.call.trans h.call, h'.lockNest.trans h.lockNest,
    h'.interruptNest.trans h.interruptNest⟩

/-- At most the thread `t` and its place in the lists have changed. -/
structure Local (t : ThreadId) (k k' : Kernel) : Prop where
  objects : SameObjects k k'
  current : k'.current = k.current
  thread : ∀ u, u ≠ t → k'.thread u = k.thread u
  mem : ∀ u, u ≠ t → ∀ h, u ∈ k'.tlist h ↔ u ∈ k.tlist h

theorem Local.trans (h : Local t k k') (h' : Local t k' k'') : Local t k k'' where
  objects := h.objects.trans h'.objects
  current := h'.current.trans h.current
  thread u hu := (h'.thread u hu).trans (h.thread u hu)
  mem u hu head := (h'.mem u hu head).trans (h.mem u hu head)

/-! ## The setters -/

@[simp] theorem Kernel.setThread_self (k : Kernel) (t : ThreadId) (f : Thread → Thread) :
    (k.setThread t f).thread t = f (k.thread t) := update_self ..

theorem Kernel.setThread_ne (k : Kernel) (f : Thread → Thread) (h : u ≠ t) :
    (k.setThread t f).thread u = k.thread u := update_of_ne h ..

theorem Kernel.setThread_local (k : Kernel) (t : ThreadId) (f : Thread → Thread) : Local t k (k.setThread t f) :=
  ⟨⟨rfl, rfl, rfl, rfl, rfl⟩, rfl, fun _ hu => k.setThread_ne f hu, fun _ _ _ => Iff.rfl⟩

@[simp] theorem Kernel.setMutex_self (k : Kernel) (m : MutexId) (f : Mutex → Mutex) :
    (k.setMutex m f).mutex m = f (k.mutex m) := update_self ..

theorem rtListRemove_local (k : Kernel) (t : ThreadId) : Local t k (rtListRemove k t) where
  objects := ⟨rfl, rfl, rfl, rfl, rfl⟩
  current := rfl
  thread _ _ := rfl
  mem _ hu _ := List.mem_erase_of_ne hu

theorem link_local {h : Head} {xs : List ThreadId} (hperm : xs.Perm (t :: k.tlist h)) :
    Local t k { k with tlist := update k.tlist h xs } where
  objects := ⟨rfl, rfl, rfl, rfl, rfl⟩
  current := rfl
  thread _ _ := rfl
  mem u hu h' := by
    by_cases hh : h' = h
    · subst hh
      simp [hperm.mem_iff, hu]
    · simp [update_of_ne hh]

/-! ## The scheduler's primitives -/

theorem rtScheduleRemoveThread_shape (cfg : Config) (k : Kernel) (t : ThreadId) :
    ∃ group table, rtScheduleRemoveThread cfg k t =
      { rtListRemove k t with group := group, readyTable := table } := by
  unfold rtScheduleRemoveThread
  dsimp only
  split_ifs <;> exact ⟨_, _, rfl⟩

theorem rtScheduleRemoveThread_local (cfg : Config) (k : Kernel) (t : ThreadId) :
    Local t k (rtScheduleRemoveThread cfg k t) := by
  obtain ⟨group, table, h⟩ := rtScheduleRemoveThread_shape cfg k t
  rw [h]
  exact ⟨⟨rfl, rfl, rfl, rfl, rfl⟩, rfl, fun _ _ => rfl, (rtListRemove_local k t).mem⟩

@[simp] theorem rtScheduleRemoveThread_thread (cfg : Config) (k : Kernel) (t : ThreadId) :
    (rtScheduleRemoveThread cfg k t).thread = k.thread := by
  obtain ⟨group, table, h⟩ := rtScheduleRemoveThread_shape cfg k t
  rw [h]
  rfl

@[simp] theorem rtScheduleRemoveThread_tlist (cfg : Config) (k : Kernel) (t : ThreadId) (h : Head) :
    (rtScheduleRemoveThread cfg k t).tlist h = (k.tlist h).erase t := by
  obtain ⟨group, table, hshape⟩ := rtScheduleRemoveThread_shape cfg k t
  rw [hshape]
  rfl

theorem rtScheduleInsertThread_shape (cfg : Config) (k : Kernel) (t : ThreadId) :
    ∃ group table, rtScheduleInsertThread cfg k t =
      { k.setThread t fun thread => { thread with stat := .ready } with
        tlist := if k.current = some t then k.tlist
          else (rtListInsertBefore k (.ready (k.thread t).currentPriority) t).tlist
        group := group
        readyTable := table } := by
  unfold rtScheduleInsertThread
  dsimp only
  by_cases hcur : k.current = some t
  · rw [if_pos (show (k.setThread t _).current = some t from hcur), if_pos hcur]
    exact ⟨_, _, rfl⟩
  · rw [if_neg (show ¬ (k.setThread t _).current = some t from hcur), if_neg hcur]
    split_ifs <;> exact ⟨_, _, by simp only [Kernel.setThread_self]; rfl⟩

theorem rtScheduleInsertThread_local (cfg : Config) (k : Kernel) (t : ThreadId) :
    Local t k (rtScheduleInsertThread cfg k t) := by
  obtain ⟨group, table, h⟩ := rtScheduleInsertThread_shape cfg k t
  rw [h]
  refine ⟨⟨rfl, rfl, rfl, rfl, rfl⟩, rfl, fun u hu => ?_, fun u hu head => ?_⟩ <;> dsimp only
  · exact k.setThread_ne _ hu
  split_ifs
  · exact Iff.rfl
  · exact (link_local (List.perm_append_singleton t _)).mem u hu head

@[simp] theorem rtScheduleInsertThread_self (cfg : Config) (k : Kernel) (t : ThreadId) :
    (rtScheduleInsertThread cfg k t).thread t = { k.thread t with stat := .ready } := by
  obtain ⟨group, table, h⟩ := rtScheduleInsertThread_shape cfg k t
  rw [h]
  dsimp only
  exact k.setThread_self t _

theorem rtScheduleInsertThread_tlist (cfg : Config) (k : Kernel) (t : ThreadId) (h : Head) :
    (rtScheduleInsertThread cfg k t).tlist h =
      if k.current ≠ some t ∧ h = .ready (k.thread t).currentPriority then k.tlist h ++ [t] else k.tlist h := by
  obtain ⟨group, table, hshape⟩ := rtScheduleInsertThread_shape cfg k t
  rw [hshape]
  by_cases hcur : k.current = some t
  · simp [hcur]
  · by_cases hh : h = .ready (k.thread t).currentPriority
    · subst hh
      simp [hcur, rtListInsertBefore]
    · simp [hcur, hh, rtListInsertBefore]

end RtThread
