import RtThread.Pthreads.Barrier
import RtThread.Pthreads.RwLockWakes

/-!
# The first round of a barrier

While the barrier fills, the counter says how many threads have not been counted; once it is empty, the counter stays at 0 and the broadcast has left one permit, for at most one thread that is still to take it.
-/

namespace RtThread

open Function Transition

variable {n : Nat} {s s' : Barrier} {op : BarrierOp} {trace events : List BarrierOp} {t t' : ThreadId} {p : BarrierPhase}

def BarrierPhase.Counted (p : BarrierPhase) : Prop := p = .waiting ∨ p = .taking ∨ p = .suspended

def BarrierPhase.Owns (p : BarrierPhase) : Prop := p = .locked ∨ p = .waiting ∨ p = .leaving

structure Filling (n : Nat) (s : Barrier) (counted : List ThreadId) : Prop where
  nodup : counted.Nodup
  members : ∀ t, t ∈ counted ↔ (s.phase t).Counted
  count : s.count = n - counted.length
  positive : 0 < s.count
  value : s.sem.value = 0
  queue : ∀ t, t ∈ s.sem.suspendThread ↔ s.phase t = .suspended
  early : ∀ t, s.phase t ≠ .relocking ∧ s.phase t ≠ .leaving
  returns : ∀ t, s.returns t = 0

structure Draining (n : Nat) (s : Barrier) : Prop where
  count : s.count = 0
  queue : s.sem.suspendThread = []
  entries : ∀ t < n, s.entries t = 1
  phases : ∀ t, s.phase t = .taking ∨ s.phase t = .relocking ∨ s.phase t = .leaving ∨ s.phase t = .out
  last : ∀ t t', s.phase t = .taking → s.phase t' = .taking → t = t'
  permit : ∀ t, s.phase t = .taking → 0 < s.sem.value
  inside : ∃ t < n, s.phase t ≠ .out

structure BarrierInv (n : Nat) (s : Barrier) : Prop where
  mutex : ∀ t, s.owner = some t ↔ (s.phase t).Owns
  outside : ∀ t, s.phase t ≠ .out → t < n
  calls : ∀ t < n, s.phase t = .out ∧ s.entries t = s.returns t ∧ s.entries t ≤ 1 ∨
    s.phase t ≠ .out ∧ s.entries t = 1 ∧ s.returns t = 0
  state : (∃ counted, Filling n s counted) ∨ Draining n s

theorem Filling.length_lt {counted : List ThreadId} (h : Filling n s counted) : counted.length < n := by
  have := h.count
  have := h.positive
  omega

theorem le_length_of_forall_mem {counted : List ThreadId} (h : ∀ t < n, t ∈ counted) : n ≤ counted.length := by
  have hsub : List.range n ⊆ counted := fun t ht => h t (List.mem_range.1 ht)
  have := (List.nodup_range.subperm hsub).length_le
  rwa [List.length_range] at this

theorem BarrierInv.right (h : BarrierInv n s) : BarrierRight n s := by
  rcases h.state with ⟨counted, hfill⟩ | hdrain
  · refine ⟨fun t _ t' _ => by rw [hfill.returns]; exact Nat.zero_le _, fun hquiet k hk t ht => ?_, fun k hk => ?_⟩
    · -- a quiet barrier that all have called has counted them all
      rcases Nat.eq_zero_or_pos k with rfl | hpos
      · exact Nat.zero_le _
      · have hall : ∀ t < n, t ∈ counted := fun t ht => by
          refine (hfill.members t).2 (.inr (.inr ((hquiet t ht).resolve_left fun hout => ?_)))
          rcases h.calls t ht with ⟨-, heq, -⟩ | ⟨hin, -⟩
          · have := hk t ht
            rw [heq, hfill.returns t] at this
            omega
          · exact hin hout
        exact absurd (le_length_of_forall_mem hall) (Nat.not_le.2 hfill.length_lt)
    · have hout : ∀ t, s.phase t = .out := fun t => by
        by_contra hin
        have ht := h.outside t hin
        rcases h.calls t ht with ⟨hout, -⟩ | ⟨-, hentries, hreturns⟩
        · exact hin hout
        · have := hk t ht
          omega
      have hnil : counted = [] := List.eq_nil_iff_forall_not_mem.2 fun t ht => by
        rcases (hfill.members t).1 ht with hphase | hphase | hphase <;> rw [hout t] at hphase <;> cases hphase
      have hqueue : s.sem.suspendThread = [] := List.eq_nil_iff_forall_not_mem.2 fun t ht => by
        have hphase := (hfill.queue t).1 ht
        rw [hout t] at hphase
        cases hphase
      have hcount := hfill.count
      rw [hnil] at hcount
      refine ⟨by simpa using hcount, ?_, ?_⟩
      · rw [← hfill.value, ← hqueue]
      · cases howner : s.owner with
        | none => rfl
        | some t =>
          rcases (h.mutex t).1 howner with hphase | hphase | hphase <;> rw [hout t] at hphase <;> cases hphase
  · obtain ⟨t₁, ht₁, hin⟩ := hdrain.inside
    refine ⟨fun t ht t' ht' => ?_, fun hquiet => ?_, fun k hk => ?_⟩
    · rw [hdrain.entries t' ht']
      rcases h.calls t ht with ⟨-, heq, hle⟩ | ⟨-, -, hzero⟩ <;> omega
    · rcases hquiet t₁ ht₁ with hout | hsuspended
      · exact absurd hout hin
      · rcases hdrain.phases t₁ with hphase | hphase | hphase | hphase <;> rw [hsuspended] at hphase <;> cases hphase
    · rcases h.calls t₁ ht₁ with ⟨hout, -⟩ | ⟨-, hentries, hreturns⟩
      · exact absurd hout hin
      · have := hk t₁ ht₁
        omega

/-! ## Steps -/

namespace Barrier

theorem phase_setPhase (s : Barrier) (t t' : ThreadId) (p : BarrierPhase) :
    (s.setPhase t p).phase t' = if t' = t then p else s.phase t' := update_apply ..

end Barrier

section mutex

variable (h : ∀ t, s.owner = some t ↔ (s.phase t).Owns)

include h

theorem owns_keep (hp : p.Owns ↔ (s.phase t).Owns) : ∀ t', s.owner = some t' ↔ ((s.setPhase t p).phase t').Owns := by
  intro t'
  rw [Barrier.phase_setPhase, h t']
  split_ifs with ht
  · rw [ht, hp]
  · rfl

theorem owns_lock (hfree : s.owner = none) (hp : p.Owns) : ∀ t', some t = some t' ↔ ((s.setPhase t p).phase t').Owns := by
  intro t'
  rw [Barrier.phase_setPhase]
  split_ifs with ht
  · exact iff_of_true (congrArg some ht.symm) hp
  · refine iff_of_false (fun heq => ht (Option.some.inj heq).symm) fun howns => ?_
    rw [← h t', hfree] at howns
    cases howns

theorem owns_unlock (ht : (s.phase t).Owns) (hp : ¬ p.Owns) : ∀ t', none = some t' ↔ ((s.setPhase t p).phase t').Owns := by
  intro t'
  rw [Barrier.phase_setPhase]
  refine iff_of_false nofun ?_
  split_ifs with heq
  · exact hp
  · intro howns
    exact heq (Option.some.inj (((h t').2 howns).symm.trans ((h t).2 ht)))

end mutex

theorem Filling.move {counted : List ThreadId} (h : Filling n s counted) (owner : Option ThreadId) (entries : ThreadId → Nat)
    (hcounted : p.Counted ↔ (s.phase t).Counted) (hsuspended : p = .suspended ↔ s.phase t = .suspended)
    (hearly : p ≠ .relocking ∧ p ≠ .leaving) : Filling n ({ s with owner, entries }.setPhase t p) counted := by
  refine ⟨h.nodup, fun t' => ?_, h.count, h.positive, h.value, fun t' => ?_, fun t' => ?_, h.returns⟩
  · rw [h.members t', Barrier.phase_setPhase]
    split_ifs with ht
    · rw [ht, hcounted]
    · rfl
  · refine (h.queue t').trans ?_
    rw [Barrier.phase_setPhase]
    split_ifs with ht
    · rw [ht, hsuspended]
    · rfl
  · rw [Barrier.phase_setPhase]
    split_ifs with ht
    · exact hearly
    · exact h.early t'

theorem outside_move (h : ∀ t, s.phase t ≠ .out → t < n) (ht : t < n) : ∀ t', (s.setPhase t p).phase t' ≠ .out → t' < n := by
  intro t' hphase
  rw [Barrier.phase_setPhase] at hphase
  split_ifs at hphase with heq
  · exact heq ▸ ht
  · exact h t' hphase

theorem calls_move (h : ∀ t < n, s.phase t = .out ∧ s.entries t = s.returns t ∧ s.entries t ≤ 1 ∨
      s.phase t ≠ .out ∧ s.entries t = 1 ∧ s.returns t = 0) (hin : s.phase t ≠ .out) (hp : p ≠ .out) :
    ∀ t' < n, (s.setPhase t p).phase t' = .out ∧ s.entries t' = s.returns t' ∧ s.entries t' ≤ 1 ∨
      (s.setPhase t p).phase t' ≠ .out ∧ s.entries t' = 1 ∧ s.returns t' = 0 := by
  intro t' ht'
  rw [Barrier.phase_setPhase]
  split_ifs with heq
  · subst heq
    exact .inr ⟨hp, ((h t' ht').resolve_left fun hout => hin hout.1).2⟩
  · exact h t' ht'

theorem BarrierInv.call (h : BarrierInv n s) (ht : t < n) (hout : s.phase t = .out) (hfirst : s.entries t = 0) :
    BarrierInv n ({ s with entries := update s.entries t (s.entries t + 1) }.setPhase t .locking) := by
  rcases h.state with ⟨counted, hfill⟩ | hdrain
  · refine ⟨owns_keep (s := { s with entries := _ }) h.mutex ?_, outside_move (s := { s with entries := _ }) h.outside ht,
      fun t' ht' => ?_, .inl ⟨counted, hfill.move s.owner _ ?_ ?_ ?_⟩⟩
    · rw [show Barrier.phase { s with entries := _ } t = s.phase t from rfl, hout]
      exact iff_of_false (by simp [BarrierPhase.Owns]) (by simp [BarrierPhase.Owns])
    · rw [Barrier.phase_setPhase]
      by_cases heq : t' = t
      · subst heq
        refine .inr ⟨by rw [if_pos rfl]; exact nofun, ?_, hfill.returns t'⟩
        show update s.entries t' (s.entries t' + 1) t' = 1
        rw [update_self, hfirst]
      · rw [if_neg heq]
        have hentries : update s.entries t (s.entries t + 1) t' = s.entries t' := update_of_ne heq ..
        have hcalls := h.calls t' ht'
        rw [← hentries] at hcalls
        exact hcalls
    · rw [hout]
      exact iff_of_false (by simp [BarrierPhase.Counted]) (by simp [BarrierPhase.Counted])
    · rw [hout]
      exact iff_of_false nofun nofun
    · exact ⟨nofun, nofun⟩
  · rw [hdrain.entries t ht] at hfirst
    cases hfirst

theorem Draining.move (h : Draining n s) (owner : Option ThreadId) (returns : ThreadId → Nat)
    (hp : p = .leaving ∨ p = .out) (hinside : p = .leaving ∧ t < n ∨ ∃ t' < n, t' ≠ t ∧ s.phase t' ≠ .out) :
    Draining n ({ s with owner, returns }.setPhase t p) := by
  have hphase : ∀ t', ({ s with owner, returns }.setPhase t p).phase t' = if t' = t then p else s.phase t' := fun t' =>
    Barrier.phase_setPhase ..
  have htaking : ∀ t', ({ s with owner, returns }.setPhase t p).phase t' = .taking → s.phase t' = .taking := fun t' htaking => by
    rw [hphase] at htaking
    split_ifs at htaking with heq
    · rcases hp with rfl | rfl <;> cases htaking
    · exact htaking
  refine ⟨h.count, h.queue, h.entries, fun t' => ?_, fun t₁ t₂ h₁ h₂ => h.last t₁ t₂ (htaking t₁ h₁) (htaking t₂ h₂),
    fun t' ht' => h.permit t' (htaking t' ht'), ?_⟩
  · rw [hphase]
    split_ifs
    · exact .inr (.inr hp)
    · exact h.phases t'
  · rcases hinside with ⟨hleaving, ht⟩ | ⟨t', ht', hne, hin⟩
    · exact ⟨t, ht, by rw [hphase, if_pos rfl, hleaving]; exact nofun⟩
    · exact ⟨t', ht', by rw [hphase, if_neg hne]; exact hin⟩

theorem BarrierInv.lock (h : BarrierInv n s) (hfree : s.owner = none)
    (ht : s.phase t = .locking ∧ p = .locked ∨ s.phase t = .relocking ∧ p = .leaving) :
    BarrierInv n ({ s with owner := some t }.setPhase t p) := by
  have hin : s.phase t ≠ .out := by rcases ht with ⟨hphase, -⟩ | ⟨hphase, -⟩ <;> rw [hphase] <;> exact nofun
  have hp : p ≠ .out := by rcases ht with ⟨-, rfl⟩ | ⟨-, rfl⟩ <;> exact nofun
  refine ⟨owns_lock (s := s) h.mutex hfree ?_, outside_move (s := { s with owner := some t }) h.outside (h.outside t hin),
    calls_move (s := { s with owner := some t }) h.calls hin hp, ?_⟩
  · rcases ht with ⟨-, rfl⟩ | ⟨-, rfl⟩
    · exact .inl rfl
    · exact .inr (.inr rfl)
  · rcases h.state with ⟨counted, hfill⟩ | hdrain
    · rcases ht with ⟨hphase, rfl⟩ | ⟨hphase, -⟩
      · refine .inl ⟨counted, hfill.move (some t) s.entries ?_ ?_ ⟨nofun, nofun⟩⟩ <;> rw [hphase]
        · exact iff_of_false (by simp [BarrierPhase.Counted]) (by simp [BarrierPhase.Counted])
        · exact iff_of_false nofun nofun
      · exact absurd hphase (hfill.early t).1
    · rcases ht with ⟨hphase, -⟩ | ⟨-, rfl⟩
      · rcases hdrain.phases t with heq | heq | heq | heq <;> rw [hphase] at heq <;> cases heq
      · exact .inr (hdrain.move (some t) s.returns (.inl rfl) (.inl ⟨rfl, h.outside t hin⟩))

theorem BarrierInv.unlock_waiting (h : BarrierInv n s) (ht : s.phase t = .waiting) :
    BarrierInv n ({ s with owner := none }.setPhase t .taking) := by
  have hin : s.phase t ≠ .out := by rw [ht]; exact nofun
  refine ⟨owns_unlock (s := s) h.mutex (by rw [ht]; exact .inr (.inl rfl)) (by simp [BarrierPhase.Owns]),
    outside_move (s := { s with owner := none }) h.outside (h.outside t hin),
    calls_move (s := { s with owner := none }) h.calls hin nofun, ?_⟩
  rcases h.state with ⟨counted, hfill⟩ | hdrain
  · refine .inl ⟨counted, hfill.move none s.entries ?_ ?_ ⟨nofun, nofun⟩⟩ <;> rw [ht]
    · exact iff_of_true (.inr (.inl rfl)) (.inl rfl)
    · exact iff_of_false nofun nofun
  · rcases hdrain.phases t with heq | heq | heq | heq <;> rw [ht] at heq <;> cases heq

theorem BarrierInv.unlock_leaving (h : BarrierInv n s) (ht : s.phase t = .leaving)
    (hinside : ∃ t' < n, t' ≠ t ∧ s.returns t' < s.entries t') :
    BarrierInv n ({ s with owner := none, returns := update s.returns t (s.returns t + 1) }.setPhase t .out) := by
  have hin : s.phase t ≠ .out := by rw [ht]; exact nofun
  refine ⟨owns_unlock (s := s) h.mutex (by rw [ht]; exact .inr (.inr rfl)) (by simp [BarrierPhase.Owns]),
    outside_move (s := { s with owner := none, returns := _ }) h.outside (h.outside t hin), fun t' ht' => ?_, ?_⟩
  · rw [Barrier.phase_setPhase]
    by_cases heq : t' = t
    · subst heq
      obtain ⟨-, hentries, hreturns⟩ := (h.calls t' ht').resolve_left fun hout => hin hout.1
      have hleft : update s.returns t' (s.returns t' + 1) t' = 1 := by rw [update_self, hreturns]
      exact .inl ⟨if_pos rfl, hentries.trans hleft.symm, Nat.le_of_eq hentries⟩
    · rw [if_neg heq]
      have hreturns : update s.returns t (s.returns t + 1) t' = s.returns t' := update_of_ne heq ..
      have hcalls := h.calls t' ht'
      rw [← hreturns] at hcalls
      exact hcalls
  · rcases h.state with ⟨counted, hfill⟩ | hdrain
    · exact absurd ht (hfill.early t).2
    · obtain ⟨t', ht', hne, hlt⟩ := hinside
      refine .inr (hdrain.move none _ (.inr rfl) (.inr ⟨t', ht', hne, fun hout => ?_⟩))
      rcases h.calls t' ht' with ⟨-, heq, -⟩ | ⟨hin', -⟩
      · omega
      · exact hin' hout

theorem BarrierInv.take_suspend (h : BarrierInv n s) (ht : s.phase t = .taking) (hvalue : ¬ 0 < s.sem.value) :
    BarrierInv n ({ s with sem := { s.sem with suspendThread := s.sem.suspendThread ++ [t] } }.setPhase t .suspended) := by
  have hin : s.phase t ≠ .out := by rw [ht]; exact nofun
  refine ⟨owns_keep (s := s) h.mutex ?_, outside_move (s := s) h.outside (h.outside t hin),
    calls_move (s := s) h.calls hin nofun, ?_⟩
  · rw [ht]
    simp [BarrierPhase.Owns]
  · rcases h.state with ⟨counted, hfill⟩ | hdrain
    · refine .inl ⟨counted, hfill.nodup, fun t' => ?_, hfill.count, hfill.positive, hfill.value, fun t' => ?_, fun t' => ?_,
        hfill.returns⟩
      · rw [Barrier.phase_setPhase, hfill.members t']
        split_ifs with heq
        · rw [heq, ht]
          exact iff_of_true (.inr (.inl rfl)) (.inr (.inr rfl))
        · rfl
      · rw [Barrier.phase_setPhase]
        refine List.mem_append.trans ?_
        rw [hfill.queue t', List.mem_singleton]
        split_ifs with heq
        · exact iff_of_true (.inr heq) rfl
        · exact or_iff_left heq
      · rw [Barrier.phase_setPhase]
        split_ifs
        · exact ⟨nofun, nofun⟩
        · exact hfill.early t'
    · exact absurd (hdrain.permit t ht) hvalue

theorem BarrierInv.take_permit (h : BarrierInv n s) (ht : s.phase t = .taking) (hvalue : 0 < s.sem.value) :
    BarrierInv n ({ s with sem := { s.sem with value := s.sem.value - 1 } }.setPhase t .relocking) := by
  have hin : s.phase t ≠ .out := by rw [ht]; exact nofun
  refine ⟨owns_keep (s := s) h.mutex ?_, outside_move (s := s) h.outside (h.outside t hin),
    calls_move (s := s) h.calls hin nofun, ?_⟩
  · rw [ht]
    simp [BarrierPhase.Owns]
  · rcases h.state with ⟨counted, hfill⟩ | hdrain
    · rw [hfill.value] at hvalue
      exact absurd hvalue (Nat.lt_irrefl 0)
    · have hnone : ∀ t', (s.setPhase t .relocking).phase t' ≠ .taking := fun t' htaking => by
        rw [Barrier.phase_setPhase] at htaking
        split_ifs at htaking with heq
        exact heq (hdrain.last t' t htaking ht)
      refine .inr ⟨hdrain.count, hdrain.queue, hdrain.entries, fun t' => ?_, fun t₁ _ h₁ _ => absurd h₁ (hnone t₁),
        fun t' ht' => absurd ht' (hnone t'), ⟨t, h.outside t hin, ?_⟩⟩
      · rw [Barrier.phase_setPhase]
        split_ifs
        · exact .inr (.inl rfl)
        · exact hdrain.phases t'
      · rw [Barrier.phase_setPhase, if_pos rfl]
        exact nofun

theorem BarrierInv.broadcast {counted : List ThreadId} (h : BarrierInv n s) (hfill : Filling n s counted) (ht : s.phase t = .locked)
    (hlast : s.count - 1 = 0) (hall : ∀ t' < n, t' ≠ t → s.phase t' = .taking ∨ s.phase t' = .suspended)
    (hgap : ∀ t < n, ∀ t' < n, s.phase t = .taking → s.phase t' = .taking → t = t') :
    BarrierInv n (({ s with count := s.count - 1, sem := ⟨1, []⟩ }.resume s.sem.suspendThread).setPhase t .leaving) := by
  have hin : s.phase t ≠ .out := by rw [ht]; exact nofun
  have hlt := h.outside t hin
  have hphase : ∀ t', (({ s with count := s.count - 1, sem := ⟨1, []⟩ }.resume s.sem.suspendThread).setPhase t .leaving).phase t' =
      if t' = t then .leaving else if s.phase t' = .suspended then .relocking else s.phase t' := fun t' => by
    rw [Barrier.phase_setPhase]
    exact if_congr Iff.rfl rfl (if_congr (hfill.queue t') rfl rfl)
  -- where the others are afterwards
  have hothers : ∀ t', t' ≠ t → t' < n ∧ s.phase t' = .taking ∨ t' < n ∧ s.phase t' = .suspended ∨ s.phase t' = .out :=
    fun t' hne => by
      by_cases hout : s.phase t' = .out
      · exact .inr (.inr hout)
      · have ht' := h.outside t' hout
        exact (hall t' ht' hne).imp (fun hphase => ⟨ht', hphase⟩) fun hphase => .inl ⟨ht', hphase⟩
  have htaking : ∀ t', (({ s with count := s.count - 1, sem := ⟨1, []⟩ }.resume s.sem.suspendThread).setPhase t .leaving).phase t' =
      .taking → t' < n ∧ s.phase t' = .taking := fun t' htaking => by
    rw [hphase] at htaking
    split_ifs at htaking with heq hsuspended
    exact ⟨h.outside t' (by rw [htaking]; exact nofun), htaking⟩
  refine ⟨fun t' => ?_, fun t' hin' => ?_, fun t' ht' => ?_, .inr ⟨hlast, rfl, fun t' ht' => ?_, fun t' => ?_,
    fun t₁ t₂ h₁ h₂ => hgap t₁ (htaking t₁ h₁).1 t₂ (htaking t₂ h₂).1 (htaking t₁ h₁).2 (htaking t₂ h₂).2,
    fun _ _ => Nat.one_pos, ⟨t, hlt, ?_⟩⟩⟩
  · rw [hphase]
    refine (h.mutex t').trans ?_
    by_cases heq : t' = t
    · rw [if_pos heq, heq, ht]
      exact iff_of_true (.inl rfl) (.inr (.inr rfl))
    · rw [if_neg heq]
      rcases hothers t' heq with ⟨-, hold⟩ | ⟨-, hold⟩ | hold <;> simp [hold, BarrierPhase.Owns]
  · rw [hphase] at hin'
    by_cases heq : t' = t
    · exact heq ▸ hlt
    · rw [if_neg heq] at hin'
      rcases hothers t' heq with ⟨ht', -⟩ | ⟨ht', -⟩ | hold
      · exact ht'
      · exact ht'
      · simp [hold] at hin'
  · rw [hphase]
    by_cases heq : t' = t
    · subst heq
      exact .inr ⟨by simp, ((h.calls t' ht').resolve_left fun hout => hin hout.1).2⟩
    · have hinside : s.phase t' ≠ .out := by rcases hall t' ht' heq with hold | hold <;> rw [hold] <;> exact nofun
      refine .inr ⟨?_, ((h.calls t' ht').resolve_left fun hout => hinside hout.1).2⟩
      rw [if_neg heq]
      split_ifs
      · exact nofun
      · exact hinside
  · have hinside : s.phase t' ≠ .out := by
      by_cases heq : t' = t
      · exact heq ▸ hin
      · rcases hall t' ht' heq with hold | hold <;> rw [hold] <;> exact nofun
    exact ((h.calls t' ht').resolve_left fun hout => hinside hout.1).2.1
  · rw [hphase]
    by_cases heq : t' = t
    · exact .inr (.inr (.inl (if_pos heq)))
    · rw [if_neg heq]
      rcases hothers t' heq with ⟨-, hold⟩ | ⟨-, hold⟩ | hold <;> simp [hold]
  · rw [hphase, if_pos rfl]
    exact nofun

theorem BarrierInv.run (h : BarrierInv n s) (ht : s.phase t = .locked)
    (hgap : s.count = 1 → ∀ t < n, ∀ t' < n, s.phase t = .taking → s.phase t' = .taking → t = t') : BarrierInv n (s.run t) := by
  have hin : s.phase t ≠ .out := by rw [ht]; exact nofun
  have hlt := h.outside t hin
  have howner : s.owner = some t := (h.mutex t).2 (by rw [ht]; exact .inl rfl)
  rcases h.state with ⟨counted, hfill⟩ | hdrain
  swap
  · rcases hdrain.phases t with heq | heq | heq | heq <;> rw [ht] at heq <;> cases heq
  have hnew : t ∉ counted := fun hmem => by
    rcases (hfill.members t).1 hmem with heq | heq | heq <;> rw [ht] at heq <;> cases heq
  have hcount := hfill.count
  have hpositive := hfill.positive
  rw [Barrier.run, if_neg (ne_of_gt hpositive)]
  simp only
  by_cases hlast : s.count - 1 = 0
  · -- all others have been counted, and none of them has the mutex
    have hall : ∀ t' < n, t' ≠ t → s.phase t' = .taking ∨ s.phase t' = .suspended := by
      intro t' ht' hne
      have hcounted : (s.phase t').Counted := by
        by_contra hnot
        have hout : t' ∉ t :: counted := by
          rw [List.mem_cons, not_or]
          exact ⟨hne, fun hmem => hnot ((hfill.members t').1 hmem)⟩
        have hnodup : (t' :: t :: counted).Nodup :=
          List.nodup_cons.2 ⟨hout, List.nodup_cons.2 ⟨hnew, hfill.nodup⟩⟩
        have hsub : t' :: t :: counted ⊆ List.range n := by
          intro a ha
          rw [List.mem_range]
          rcases List.mem_cons.1 ha with rfl | ha
          · exact ht'
          rcases List.mem_cons.1 ha with rfl | ha
          · exact hlt
          · refine h.outside a fun hout => ?_
            rcases (hfill.members a).1 ha with heq | heq | heq <;> rw [hout] at heq <;> cases heq
        have := (hnodup.subperm hsub).length_le
        rw [List.length_cons, List.length_cons, List.length_range] at this
        omega
      refine hcounted.resolve_left fun hwaiting => ?_
      have := (h.mutex t').2 (by rw [hwaiting]; exact .inr (.inl rfl))
      exact hne (Option.some.inj (this.symm.trans howner))
    rw [if_pos hlast, hfill.value, condBroadcast_zero]
    exact h.broadcast hfill ht hlast hall (hgap (by omega))
  · rw [if_neg hlast]
    refine ⟨owns_keep (s := s) h.mutex ?_, outside_move (s := s) h.outside hlt, calls_move (s := s) h.calls hin nofun,
      .inl ⟨t :: counted, List.nodup_cons.2 ⟨hnew, hfill.nodup⟩, fun t' => ?_, ?_, ?_, hfill.value, fun t' => ?_, fun t' => ?_,
        hfill.returns⟩⟩
    · rw [ht]
      exact iff_of_true (.inr (.inl rfl)) (.inl rfl)
    · rw [Barrier.phase_setPhase, List.mem_cons, hfill.members t']
      split_ifs with heq
      · exact iff_of_true (.inl heq) (.inl rfl)
      · exact or_iff_right heq
    · show s.count - 1 = _
      rw [List.length_cons, hcount]
      omega
    · show 0 < s.count - 1
      omega
    · refine (hfill.queue t').trans ?_
      rw [Barrier.phase_setPhase]
      split_ifs with heq
      · rw [heq, ht]
        exact iff_of_false nofun nofun
      · rfl
    · rw [Barrier.phase_setPhase]
      split_ifs
      · exact ⟨nofun, nofun⟩
      · exact hfill.early t'

/-! ## Runs -/

theorem BarrierInv.step (h : BarrierInv n s) (hsafe : BarrierSafe n s op) (hstep : stepBarrier n s op = some (s', events)) :
    BarrierInv n s' := by
  obtain ⟨s₁, hnext, heq⟩ := Option.map_eq_some_iff.1 hstep
  cases heq
  cases op with
  | call t =>
    rw [Barrier.next] at hnext
    split_ifs at hnext with hcall
    cases hnext
    exact h.call hcall.1 hcall.2 hsafe
  | lock t =>
    rw [Barrier.next] at hnext
    split_ifs at hnext with hfree
    split at hnext
    · rename_i hphase
      cases hnext
      exact h.lock hfree (.inl ⟨hphase, rfl⟩)
    · rename_i hphase
      cases hnext
      exact h.lock hfree (.inr ⟨hphase, rfl⟩)
    · cases hnext
  | run t =>
    rw [Barrier.next] at hnext
    split at hnext
    · rename_i hphase
      cases hnext
      exact h.run hphase (hsafe hphase)
    · cases hnext
  | unlock t =>
    rw [Barrier.next] at hnext
    split at hnext
    · rename_i hphase
      cases hnext
      exact h.unlock_waiting hphase
    · rename_i hphase
      cases hnext
      exact h.unlock_leaving hphase (hsafe hphase)
    · cases hnext
  | take t =>
    rw [Barrier.next] at hnext
    split at hnext
    · rename_i hphase
      split_ifs at hnext with hvalue
      · cases hnext
        exact h.take_permit hphase hvalue
      · cases hnext
        exact h.take_suspend hphase hvalue
    · cases hnext

theorem BarrierInv.init (hn : 0 < n) (hint : n < 2147483648) : BarrierInv n (.init n) := by
  have hcount : (Barrier.init n).count = n := by
    show Barrier.intCount n = n
    unfold Barrier.intCount
    omega
  refine ⟨fun t => iff_of_false nofun (by simp [Barrier.init, BarrierPhase.Owns]), fun t hin => absurd rfl hin,
    fun t _ => .inl ⟨rfl, rfl, Nat.zero_le 1⟩, .inl ⟨[], List.nodup_nil, fun t => ?_, ?_, ?_, rfl, fun t => ?_, fun t => ⟨nofun, nofun⟩,
    fun t => rfl⟩⟩
  · simp [Barrier.init, BarrierPhase.Counted]
  · rw [hcount, List.length_nil]
    omega
  · rw [hcount]
    omega
  · simp [Barrier.init]

/-- A barrier does what it is for while its first round lasts, if at most one thread misses the broadcast. -/
theorem barrier_of_run (hn : 0 < n) (hint : n < 2147483648) (hrun : BarrierRun (BarrierSafe n) n trace s) : BarrierRight n s :=
  (hrun.state_invariant (BarrierInv.init hn hint) fun _ _ _ _ h hsafe hstep => h.step hsafe hstep).right

theorem BarrierRun.exists_of_exec (ok : Barrier → BarrierOp → Prop) [∀ s op, Decidable (ok s op)] (n : Nat) (ops : List BarrierOp)
    (found : Barrier → Bool) (h : ((exec (stepBarrier n) ok (.init n) ops).any fun r => found r.2) = true) :
    ∃ trace s, BarrierRun ok n trace s ∧ found s = true := exists_run_of_exec ops (fun _ => found) h

theorem barrier_of_run_two :
    ∃ trace s, BarrierRun (BarrierSafe 3) 3 trace s ∧ s.returns 2 = 1 ∧ s.returns 0 = 1 ∧ s.phase 1 = .relocking ∧ BarrierRight 3 s := by
  obtain ⟨trace, s, hrun, hfound⟩ := BarrierRun.exists_of_exec (BarrierSafe 3) 3
    [.call 0, .lock 0, .run 0, .unlock 0, .take 0, .call 1, .lock 1, .run 1, .unlock 1, .take 1, .call 2, .lock 2, .run 2, .unlock 2,
      .lock 0, .unlock 0]
    (fun s => decide (s.returns 2 = 1 ∧ s.returns 0 = 1 ∧ s.phase 1 = .relocking)) (by decide +kernel)
  obtain ⟨h₂, h₀, h₁⟩ := of_decide_eq_true hfound
  exact ⟨trace, s, hrun, h₂, h₀, h₁, barrier_of_run (by decide) (by decide) hrun⟩

/-- Runs with no condition. In the second round of two threads the first that comes leaves at once. Of three threads, two have given up the mutex and not reached `rt_sem_take` when the third comes: one of them stays suspended. -/
theorem barrier_fails :
    (∃ trace s, BarrierRun (fun _ _ => True) 2 trace s ∧ s.returns 0 = 2 ∧ s.entries 1 = 1 ∧ ¬ BarrierRight 2 s) ∧
    ∃ trace s, BarrierRun (fun _ _ => True) 3 trace s ∧ s.Quiet 3 ∧ (∀ t < 3, s.entries t = 1) ∧ s.returns 1 = 0 ∧
      ¬ BarrierRight 3 s := by
  constructor
  · obtain ⟨trace, s, hrun, hfound⟩ := BarrierRun.exists_of_exec (fun _ _ => True) 2
      [.call 0, .lock 0, .run 0, .unlock 0, .take 0, .call 1, .lock 1, .run 1, .unlock 1, .lock 0, .unlock 0,
        .call 0, .lock 0, .run 0, .unlock 0]
      (fun s => decide (s.returns 0 = 2 ∧ s.entries 1 = 1)) (by decide +kernel)
    obtain ⟨hreturns, hentries⟩ := of_decide_eq_true hfound
    refine ⟨trace, s, hrun, hreturns, hentries, fun hright => ?_⟩
    have := hright.holds 0 (by decide) 1 (by decide)
    omega
  · obtain ⟨trace, s, hrun, hfound⟩ := BarrierRun.exists_of_exec (fun _ _ => True) 3
      [.call 0, .lock 0, .run 0, .unlock 0, .call 1, .lock 1, .run 1, .unlock 1, .call 2, .lock 2, .run 2, .unlock 2,
        .take 0, .take 1, .lock 0, .unlock 0]
      (fun s => decide (s.Quiet 3 ∧ (∀ t : Nat, t < 3 → s.entries t = 1) ∧ s.returns 1 = 0)) (by decide +kernel)
    obtain ⟨hquiet, hentries, hreturns⟩ := of_decide_eq_true hfound
    refine ⟨trace, s, hrun, hquiet, hentries, hreturns, fun hright => ?_⟩
    have := hright.releases hquiet 1 (fun t ht => by rw [hentries t ht]) 1 (by decide)
    omega

end RtThread
