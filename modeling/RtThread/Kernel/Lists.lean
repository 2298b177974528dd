import RtThread.Kernel.Frame
import RtThread.Lib.Bitmap

/-!
# The thread lists and the ready bitmap

Every list holds only threads whose status and priority belong there, no thread is linked twice, and the bitmap names the non-empty ready lists. A call that moves a thread first takes it out of its list, then changes it, then links it elsewhere; `ListsInv` holds after each of these three, because while the thread is in no list nothing is asked of it.
-/

namespace RtThread

open Function Bitmap

variable {cfg : Config} {k : Kernel} {t : ThreadId}

/-- `number`, `number_mask` and `high_mask` are those of the current priority. -/
def Thread.Indexed (cfg : Config) (thread : Thread) : Prop :=
  if cfg.Large then
    thread.number = thread.currentPriority / 8 ∧ thread.numberMask = 1#32 <<< (thread.currentPriority / 8) ∧
      thread.highMask = 1#8 <<< (thread.currentPriority % 8)
  else thread.numberMask = 1#32 <<< thread.currentPriority

/-- As `_rt_thread_init` leaves the priority attributes. -/
def Thread.Blank (thread : Thread) : Prop :=
  thread.number = 0 ∧ thread.numberMask = 0 ∧ thread.highMask = 0

structure ThreadOk (cfg : Config) (thread : Thread) : Prop where
  current_lt : thread.currentPriority < cfg.priorityMax
  init_lt : thread.initPriority < cfg.priorityMax
  attributes : thread.Indexed cfg ∨ thread.Blank
  scheduled : thread.stat = .ready ∨ thread.stat = .suspend → thread.Indexed cfg
  error_ne : thread.error ≠ .eintr

theorem Thread.setPriority_indexed (cfg : Config) (priority : Nat) (thread : Thread) :
    (thread.setPriority cfg priority).Indexed cfg := by
  unfold Thread.setPriority Thread.Indexed
  split_ifs
  · exact ⟨Nat.shiftRight_eq_div_pow _ 3, by rw [Nat.shiftRight_eq_div_pow],
      by rw [show 7 = 2 ^ 3 - 1 from rfl, Nat.and_two_pow_sub_one_eq_mod]⟩
  · rfl

@[simp] theorem Thread.setPriority_currentPriority (cfg : Config) (priority : Nat) (thread : Thread) :
    (thread.setPriority cfg priority).currentPriority = priority := by
  unfold Thread.setPriority
  split_ifs <;> rfl

theorem Thread.setPriority_shape (cfg : Config) (priority : Nat) (thread : Thread) :
    ∃ number highMask numberMask, thread.setPriority cfg priority =
      { thread with
        currentPriority := priority, number := number, highMask := highMask, numberMask := numberMask } := by
  unfold Thread.setPriority
  split_ifs <;> exact ⟨_, _, _, rfl⟩

@[simp] theorem Thread.setPriority_stat (cfg : Config) (priority : Nat) (thread : Thread) :
    (thread.setPriority cfg priority).stat = thread.stat := by
  obtain ⟨_, _, _, h⟩ := thread.setPriority_shape cfg priority
  rw [h]

@[simp] theorem Thread.setPriority_initPriority (cfg : Config) (priority : Nat) (thread : Thread) :
    (thread.setPriority cfg priority).initPriority = thread.initPriority := by
  obtain ⟨_, _, _, h⟩ := thread.setPriority_shape cfg priority
  rw [h]

@[simp] theorem Thread.setPriority_error (cfg : Config) (priority : Nat) (thread : Thread) :
    (thread.setPriority cfg priority).error = thread.error := by
  obtain ⟨_, _, _, h⟩ := thread.setPriority_shape cfg priority
  rw [h]

theorem ThreadOk.setPriority {thread : Thread} (h : ThreadOk cfg thread) {priority : Nat}
    (hlt : priority < cfg.priorityMax) : ThreadOk cfg (thread.setPriority cfg priority) where
  current_lt := by simpa using hlt
  init_lt := by simpa using h.init_lt
  attributes := .inl (thread.setPriority_indexed cfg priority)
  scheduled _ := thread.setPriority_indexed cfg priority
  error_ne := by simpa using h.error_ne

theorem ThreadOk.congr {thread thread' : Thread} (h : ThreadOk cfg thread)
    (hpriority : thread'.currentPriority = thread.currentPriority) (hinit : thread'.initPriority = thread.initPriority)
    (hnumber : thread'.number = thread.number) (hhigh : thread'.highMask = thread.highMask)
    (hmask : thread'.numberMask = thread.numberMask) (herror : thread'.error ≠ .eintr)
    (hstat : thread'.stat = .ready ∨ thread'.stat = .suspend → thread.Indexed cfg) : ThreadOk cfg thread' := by
  have hindexed : thread'.Indexed cfg ↔ thread.Indexed cfg := by
    unfold Thread.Indexed
    rw [hpriority, hnumber, hhigh, hmask]
  have hblank : thread'.Blank ↔ thread.Blank := by
    unfold Thread.Blank
    rw [hnumber, hhigh, hmask]
  exact ⟨hpriority ▸ h.current_lt, hinit ▸ h.init_lt, by rw [hindexed, hblank]; exact h.attributes,
    fun hs => hindexed.2 (hstat hs), herror⟩

/-! ## The invariant -/

def readySet (k : Kernel) : Set Nat := { p | k.tlist (.ready p) ≠ [] }

def ReadyBitmap (cfg : Config) (k : Kernel) : Prop :=
  if cfg.Large then TwoLevel k.group k.readyTable (readySet k) else Flat k.group (readySet k)

structure ListsInv (cfg : Config) (k : Kernel) : Prop where
  thread : ∀ t, ThreadOk cfg (k.thread t)
  ready : ∀ p, ∀ t ∈ k.tlist (.ready p), (k.thread t).stat = .ready ∧ (k.thread t).currentPriority = p
  defunct : ∀ t ∈ k.tlist .defunct, (k.thread t).stat = .close
  suspend : ∀ o, ∀ t ∈ k.tlist (.suspend o), (k.thread t).stat = .suspend
  suspend_unique : ∀ o o' t, t ∈ k.tlist (.suspend o) → t ∈ k.tlist (.suspend o') → o = o'
  nodup : ∀ h, (k.tlist h).Nodup
  bitmap : ReadyBitmap cfg k

def Unlinked (k : Kernel) (t : ThreadId) : Prop := ∀ h, t ∉ k.tlist h

theorem ListsInv.not_ready (h : ListsInv cfg k) (hstat : (k.thread t).stat ≠ .ready) (p : Nat) :
    t ∉ k.tlist (.ready p) := fun hmem => hstat (h.ready p t hmem).1

theorem ListsInv.not_suspend (h : ListsInv cfg k) (hstat : (k.thread t).stat ≠ .suspend) (o : IpcObject) :
    t ∉ k.tlist (.suspend o) := fun hmem => hstat (h.suspend o t hmem)

theorem ListsInv.not_defunct (h : ListsInv cfg k) (hstat : (k.thread t).stat ≠ .close) : t ∉ k.tlist .defunct :=
  fun hmem => hstat (h.defunct t hmem)

theorem ListsInv.unlinked_of_init (h : ListsInv cfg k) (hstat : (k.thread t).stat = .init) : Unlinked k t := by
  rintro (p | _ | o)
  · exact h.not_ready (by simp [hstat]) p
  · exact h.not_defunct (by simp [hstat])
  · exact h.not_suspend (by simp [hstat]) o

theorem ReadyBitmap.congr (h : ReadyBitmap cfg k) {k' : Kernel} (hgroup : k'.group = k.group)
    (htable : k'.readyTable = k.readyTable) (hlists : ∀ p, k'.tlist (.ready p) = k.tlist (.ready p)) :
    ReadyBitmap cfg k' := by
  unfold ReadyBitmap readySet at h ⊢
  simpa only [hgroup, htable, hlists] using h

theorem ListsInv.unlinked_erase (h : ListsInv cfg k) (t : ThreadId) : Unlinked (rtListRemove k t) t :=
  fun head => (h.nodup head).not_mem_erase

theorem ListsInv.erase (h : ListsInv cfg k) (t : ThreadId) {k' : Kernel} (hthread : k'.thread = k.thread)
    (htlist : ∀ head, k'.tlist head = (k.tlist head).erase t) (hbitmap : ReadyBitmap cfg k') : ListsInv cfg k' := by
  have hmem {head : Head} {u : ThreadId} (hu : u ∈ k'.tlist head) : u ∈ k.tlist head :=
    List.mem_of_mem_erase (by rwa [← htlist])
  constructor
  · rw [hthread]
    exact h.thread
  · intro p u hu
    rw [hthread]
    exact h.ready p u (hmem hu)
  · intro u hu
    rw [hthread]
    exact h.defunct u (hmem hu)
  · intro o u hu
    rw [hthread]
    exact h.suspend o u (hmem hu)
  · exact fun o o' u hu hu' => h.suspend_unique o o' u (hmem hu) (hmem hu')
  · intro head
    rw [htlist]
    exact (h.nodup head).erase t
  · exact hbitmap

theorem ListsInv.listRemove (h : ListsInv cfg k) (hstat : (k.thread t).stat ≠ .ready) :
    ListsInv cfg (rtListRemove k t) :=
  h.erase t rfl (fun _ => rfl)
    (h.bitmap.congr rfl rfl fun p => List.erase_of_not_mem (h.not_ready hstat p))

/-! ## `rt_schedule_remove_thread` -/

theorem ListsInv.readySet_erase (h : ListsInv cfg k) (t : ThreadId) :
    readySet (rtListRemove k t) =
      if (k.tlist (.ready (k.thread t).currentPriority)).erase t = [] then
        readySet k \ {(k.thread t).currentPriority}
      else readySet k := by
  have hother (p : Nat) (hp : p ≠ (k.thread t).currentPriority) :
      (k.tlist (.ready p)).erase t = k.tlist (.ready p) :=
    List.erase_of_not_mem fun hmem => hp (h.ready p t hmem).2.symm
  ext p
  change (k.tlist (.ready p)).erase t ≠ [] ↔ _
  by_cases hp : p = (k.thread t).currentPriority
  · subst hp
    split_ifs with hnil
    · simp only [hnil, ne_eq, not_true_eq_false, Set.mem_sdiff, Set.mem_singleton_iff, and_false]
    · have hne : k.tlist (.ready (k.thread t).currentPriority) ≠ [] := fun hempty => hnil (by rw [hempty]; rfl)
      exact iff_of_true hnil hne
  · rw [hother p hp]
    split_ifs
    · simp only [Set.mem_sdiff, Set.mem_singleton_iff, hp, not_false_eq_true, and_true]
      rfl
    · rfl

theorem ListsInv.removeThread (h : ListsInv cfg k) (t : ThreadId) : ListsInv cfg (rtScheduleRemoveThread cfg k t) := by
  refine h.erase t (rtScheduleRemoveThread_thread cfg k t) (rtScheduleRemoveThread_tlist cfg k t) ?_
  have hset : readySet (rtScheduleRemoveThread cfg k t) = readySet (rtListRemove k t) := by
    unfold readySet
    simp only [rtScheduleRemoveThread_tlist]
    rfl
  have hbitmap := h.bitmap
  unfold ReadyBitmap at hbitmap ⊢
  rw [hset, h.readySet_erase t]
  unfold rtScheduleRemoveThread
  dsimp only [rtListRemove]
  by_cases hnil : (k.tlist (.ready (k.thread t).currentPriority)).erase t = []
  · rw [if_pos hnil, if_pos hnil]
    by_cases hindexed : (k.thread t).Indexed cfg
    · unfold Thread.Indexed at hindexed
      by_cases hlarge : cfg.Large
      · rw [if_pos hlarge] at hindexed hbitmap ⊢
        obtain ⟨hnumber, hmask, hhigh⟩ := hindexed
        simp only [if_pos hlarge, hnumber, hmask, hhigh, update_self]
        have herase := hbitmap.erase (k.thread t).currentPriority
        split_ifs at herase ⊢ <;> exact herase
      · rw [if_neg hlarge] at hindexed hbitmap ⊢
        simp only [if_neg hlarge, hindexed]
        exact hbitmap.erase _
    · -- the attributes were never calculated: the thread is in no ready list and its masks are zero
      obtain ⟨hnumber, hmask, hhigh⟩ := (h.thread t).attributes.resolve_left hindexed
      have hstat : (k.thread t).stat ≠ .ready := fun hready => hindexed ((h.thread t).scheduled (.inl hready))
      rw [List.erase_of_not_mem (h.not_ready hstat _)] at hnil
      have hnot : (k.thread t).currentPriority ∉ readySet k := fun hne => hne hnil
      simp only [hnumber, hmask, hhigh, Set.sdiff_singleton_eq_self hnot, and_not_zero, update_eq_self]
      by_cases hlarge : cfg.Large
      · simpa only [if_pos hlarge, ite_self] using hbitmap
      · simpa only [if_neg hlarge] using hbitmap
  · rw [if_neg hnil, if_neg hnil]
    exact hbitmap

/-! ## Changing and linking a thread that is in no list -/

theorem ListsInv.setThread (h : ListsInv cfg k) {f : Thread → Thread} (hok : ThreadOk cfg (f (k.thread t)))
    (hstat : ∀ head, t ∈ k.tlist head → (f (k.thread t)).stat = (k.thread t).stat)
    (hpriority : ∀ p, t ∈ k.tlist (.ready p) → (f (k.thread t)).currentPriority = (k.thread t).currentPriority) :
    ListsInv cfg (k.setThread t f) := by
  have hkeep {head : Head} {u : ThreadId} (hu : u ∈ k.tlist head) :
      ((k.setThread t f).thread u).stat = (k.thread u).stat := by
    by_cases hut : u = t
    · subst hut
      rw [Kernel.setThread_self]
      exact hstat head hu
    · rw [k.setThread_ne f hut]
  have hkeepPriority {p : Nat} {u : ThreadId} (hu : u ∈ k.tlist (.ready p)) :
      ((k.setThread t f).thread u).currentPriority = (k.thread u).currentPriority := by
    by_cases hut : u = t
    · subst hut
      rw [Kernel.setThread_self]
      exact hpriority p hu
    · rw [k.setThread_ne f hut]
  refine ⟨fun u => ?_, fun p u hu => ?_, fun u hu => ?_, fun o u hu => ?_, h.suspend_unique, h.nodup, h.bitmap⟩
  · by_cases hut : u = t
    · subst hut
      rw [Kernel.setThread_self]
      exact hok
    · rw [k.setThread_ne f hut]
      exact h.thread u
  · rw [hkeep hu, hkeepPriority hu]
    exact h.ready p u hu
  · rw [hkeep hu]
    exact h.defunct u hu
  · rw [hkeep hu]
    exact h.suspend o u hu

theorem ListsInv.setUnlinked (h : ListsInv cfg k) (hun : Unlinked k t) {f : Thread → Thread}
    (hok : ThreadOk cfg (f (k.thread t))) : ListsInv cfg (k.setThread t f) :=
  h.setThread hok (fun head hmem => absurd hmem (hun head)) fun p hmem => absurd hmem (hun (.ready p))

def Head.Takes (stat : ThreadStat) : Head → Prop
  | .ready _ => False
  | .defunct => stat = .close
  | .suspend _ => stat = .suspend

theorem ListsInv.link (h : ListsInv cfg k) (hun : Unlinked k t) {head : Head} {xs : List ThreadId}
    (hperm : xs.Perm (t :: k.tlist head)) (htakes : head.Takes (k.thread t).stat) :
    ListsInv cfg { k with tlist := update k.tlist head xs } := by
  have hself : update k.tlist head xs head = xs := update_self ..
  have hmem {head' : Head} {u : ThreadId} (hu : u ∈ update k.tlist head xs head') :
      u ∈ k.tlist head' ∨ u = t ∧ head' = head := by
    by_cases hhead : head' = head
    · subst hhead
      rw [hself, hperm.mem_iff, List.mem_cons] at hu
      exact hu.symm.imp_right fun heq => ⟨heq, rfl⟩
    · rw [update_of_ne hhead] at hu
      exact .inl hu
  have hready (p : Nat) : update k.tlist head xs (.ready p) = k.tlist (.ready p) := by
    refine update_of_ne (fun heq => ?_) _ _
    rw [← heq] at htakes
    exact htakes
  refine ⟨h.thread, fun p u hu => ?_, fun u hu => ?_, fun o u hu => ?_, fun o o' u hu hu' => ?_, fun head' => ?_, ?_⟩
  · exact h.ready p u (by simpa only [hready] using hu)
  · rcases hmem hu with hold | ⟨rfl, rfl⟩
    · exact h.defunct u hold
    · exact htakes
  · rcases hmem hu with hold | ⟨rfl, rfl⟩
    · exact h.suspend o u hold
    · exact htakes
  · rcases hmem hu with hold | ⟨rfl, rfl⟩ <;> rcases hmem hu' with hold' | ⟨heq, heq'⟩
    · exact h.suspend_unique o o' u hold hold'
    · exact absurd (heq ▸ hold) (hun _)
    · exact absurd hold' (hun _)
    · exact (Head.suspend.inj heq').symm
  · by_cases hhead : head' = head
    · subst hhead
      change (update k.tlist head' xs head').Nodup
      rw [hself, hperm.nodup_iff, List.nodup_cons]
      exact ⟨hun _, h.nodup _⟩
    · change (update k.tlist head xs head').Nodup
      rw [update_of_ne hhead]
      exact h.nodup head'
  · exact h.bitmap.congr rfl rfl hready

/-! ## `rt_schedule_insert_thread` -/

theorem ListsInv.insertThread (h : ListsInv cfg k) (hun : Unlinked k t) (hindexed : (k.thread t).Indexed cfg) :
    ListsInv cfg (rtScheduleInsertThread cfg k t) := by
  have hok : ThreadOk cfg { k.thread t with stat := .ready } :=
    (h.thread t).congr rfl rfl rfl rfl rfl (h.thread t).error_ne fun _ => hindexed
  have hready : ListsInv cfg (k.setThread t fun thread => { thread with stat := .ready }) := h.setUnlinked hun hok
  by_cases hcur : k.current = some t
  · unfold rtScheduleInsertThread
    dsimp only
    rwa [if_pos (show (k.setThread t _).current = some t from hcur)]
  · have hlocal := rtScheduleInsertThread_local cfg k t
    have htlist (head : Head) := rtScheduleInsertThread_tlist cfg k t head
    simp only [ne_eq, hcur, not_false_eq_true, true_and] at htlist
    have hmem {head : Head} {u : ThreadId} (hu : u ∈ (rtScheduleInsertThread cfg k t).tlist head) :
        u ≠ t ∧ u ∈ k.tlist head ∨ u = t ∧ head = .ready (k.thread t).currentPriority := by
      rw [htlist] at hu
      split_ifs at hu with hhead
      · rw [List.mem_append, List.mem_singleton] at hu
        rcases hu with hold | rfl
        · exact .inl ⟨fun heq => hun head (heq ▸ hold), hold⟩
        · exact .inr ⟨rfl, hhead⟩
      · exact .inl ⟨fun heq => hun head (heq ▸ hu), hu⟩
    refine ⟨fun u => ?_, fun p u hu => ?_, fun u hu => ?_, fun o u hu => ?_, fun o o' u hu hu' => ?_, fun head => ?_, ?_⟩
    · by_cases hut : u = t
      · subst hut
        rw [rtScheduleInsertThread_self]
        exact hok
      · rw [hlocal.thread u hut]
        exact h.thread u
    · rcases hmem hu with ⟨hut, hold⟩ | ⟨rfl, heq⟩
      · rw [hlocal.thread u hut]
        exact h.ready p u hold
      · rw [rtScheduleInsertThread_self]
        exact ⟨rfl, (Head.ready.inj heq).symm⟩
    · rcases hmem hu with ⟨hut, hold⟩ | ⟨rfl, heq⟩
      · rw [hlocal.thread u hut]
        exact h.defunct u hold
      · cases heq
    · rcases hmem hu with ⟨hut, hold⟩ | ⟨rfl, heq⟩
      · rw [hlocal.thread u hut]
        exact h.suspend o u hold
      · cases heq
    · rcases hmem hu with ⟨_, hold⟩ | ⟨_, heq⟩
      · rcases hmem hu' with ⟨_, hold'⟩ | ⟨_, heq'⟩
        · exact h.suspend_unique o o' u hold hold'
        · cases heq'
      · cases heq
    · rw [htlist]
      split_ifs
      · exact (List.perm_append_singleton t _).nodup_iff.2 (List.nodup_cons.2 ⟨hun head, h.nodup head⟩)
      · exact h.nodup head
    · have hset : readySet (rtScheduleInsertThread cfg k t) = insert (k.thread t).currentPriority (readySet k) := by
        ext p
        change (rtScheduleInsertThread cfg k t).tlist (.ready p) ≠ [] ↔ _
        rw [htlist, Set.mem_insert_iff]
        split_ifs with hp
        · simp [Head.ready.inj hp]
        · simp [show p ≠ (k.thread t).currentPriority from fun heq => hp (heq ▸ rfl), readySet]
      have hbitmap := h.bitmap
      have hlt := (h.thread t).current_lt
      unfold ReadyBitmap at hbitmap ⊢
      rw [hset]
      unfold rtScheduleInsertThread Thread.Indexed at *
      dsimp only
      rw [if_neg (show ¬ (k.setThread t _).current = some t from hcur)]
      by_cases hlarge : cfg.Large
      · rw [if_pos hlarge] at hindexed hbitmap ⊢
        obtain ⟨hnumber, hmask, hhigh⟩ := hindexed
        simp only [if_pos hlarge, Kernel.setThread_self, hnumber, hmask, hhigh]
        exact hbitmap.insert (by have := cfg.priorityMax_le; omega)
      · rw [if_neg hlarge] at hindexed hbitmap ⊢
        simp only [if_neg hlarge, Kernel.setThread_self, hindexed]
        exact hbitmap.insert (by unfold Config.Large at hlarge; omega)

end RtThread
