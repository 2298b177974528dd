import RtThread.Lib.Transition

/-!
# Queues ordered by rank and arrival

A system keeps elements in lists. Beside it the order in which the members of each list have arrived is recorded, so that it can be said of a list that it is ordered by rank, and among equal ranks by arrival. The order is kept by elements that leave and by an element that joins behind all of its rank or lower, as long as the ranks of the members stay.
-/

namespace Arrivals

variable {σ β ε ι α ρ : Type*} [LinearOrder ρ] {rank rank' : α → ρ} {arrived list list' before behind : List α} {a b : α}

/-- The list has the elements that have arrived, by rank and among equal ranks by arrival. -/
structure Ordered (rank : α → ρ) (arrived list : List α) : Prop where
  nodup : arrived.Nodup
  perm : list.Perm arrived
  pairwise : list.Pairwise fun a b => rank a < rank b ∨ rank a = rank b ∧ [a, b].Sublist arrived

inductive Change (rank : α → ρ) (list : List α) : List α → Prop
  | leave {list' : List α} (hsub : list'.Sublist list) : Change rank list list'
  | join {a : α} {before behind : List α} (hlist : list = before ++ behind) (hnew : a ∉ list)
      (hbefore : ∀ b ∈ before, rank b ≤ rank a) (hbehind : ∀ b ∈ behind.head?, rank a < rank b) :
      Change rank list (before ++ a :: behind)

structure Keeps (rank rank' : α → ρ) (list list' : List α) : Prop where
  stays : ∀ a ∈ list, a ∈ list' → rank' a = rank a
  change : Change rank' list list'

def ServesLowest (rank : α → ρ) (able : α → Prop) (list list' : List α) : Prop :=
  (∃ a ∈ list, able a) → ∃ a ∈ list, able a ∧ a ∉ list' ∧ ∀ b ∈ list, able b → rank a ≤ rank b

namespace Ordered

theorem empty (rank : α → ρ) : Ordered rank [] [] := ⟨List.nodup_nil, .refl _, .nil⟩

theorem list_nodup (h : Ordered rank arrived list) : list.Nodup := h.perm.nodup_iff.2 h.nodup

theorem congr (h : Ordered rank arrived list) (hrank : ∀ a ∈ list, rank' a = rank a) : Ordered rank' arrived list := by
  refine ⟨h.nodup, h.perm, h.pairwise.imp_of_mem fun ha hb hab => ?_⟩
  rwa [hrank _ ha, hrank _ hb]

theorem rank_le (h : Ordered rank arrived (before ++ a :: behind)) (hb : b ∈ behind) : rank a ≤ rank b := by
  have hsorted := List.pairwise_cons.1 (List.pairwise_append.1 h.pairwise).2.1
  rcases hsorted.1 b hb with hlt | ⟨heq, -⟩
  · exact hlt.le
  · exact heq.le

theorem rank_lt (h : Ordered rank arrived (before ++ behind)) (hbehind : ∀ b ∈ behind.head?, rank a < rank b)
    (hb : b ∈ behind) : rank a < rank b := by
  cases behind with
  | nil => cases hb
  | cons c behind =>
    have hc : rank a < rank c := hbehind c rfl
    rcases List.mem_cons.1 hb with rfl | hb
    · exact hc
    · exact hc.trans_le (h.rank_le hb)

theorem exists_first {able : α → Prop} (hable : ∃ a ∈ list, able a) :
    ∃ before a behind, list = before ++ a :: behind ∧ (∀ b ∈ before, ¬ able b) ∧ able a := by
  induction list with
  | nil => simp at hable
  | cons c list ih =>
    by_cases hc : able c
    · exact ⟨[], c, list, rfl, by simp, hc⟩
    · obtain ⟨before, a, behind, rfl, hbefore, ha⟩ := ih (by simpa [hc] using hable)
      refine ⟨c :: before, a, behind, rfl, fun b hb => ?_, ha⟩
      rcases List.mem_cons.1 hb with rfl | hb
      · exact hc
      · exact hbefore b hb

theorem servesLowest {able : α → Prop} (h : Ordered rank arrived list)
    (hfirst : ∀ before a behind, list = before ++ a :: behind → (∀ b ∈ before, ¬ able b) → able a → a ∉ list') :
    ServesLowest rank able list list' := by
  intro hable
  obtain ⟨before, a, behind, rfl, hbefore, ha⟩ := exists_first hable
  refine ⟨a, by simp, ha, hfirst before a behind rfl hbefore ha, fun b hb hb' => ?_⟩
  rcases List.mem_append.1 hb with hb | hb
  · exact absurd hb' (hbefore b hb)
  · rcases List.mem_cons.1 hb with rfl | hb
    · exact le_rfl
    · exact h.rank_le hb

theorem servesLowest_tail (h : Ordered rank arrived list) : ServesLowest rank (fun _ => True) list list.tail := by
  refine h.servesLowest fun before a behind hlist hbefore _ => ?_
  obtain rfl : before = [] := List.eq_nil_iff_forall_not_mem.2 fun b hb => hbefore b hb trivial
  have hnodup := h.list_nodup
  rw [hlist, List.nil_append, List.nodup_cons] at hnodup
  rw [hlist, List.nil_append, List.tail_cons]
  exact hnodup.1

end Ordered

/-! ## One step -/

variable [DecidableEq α]

/-- The members of a list that has changed, in order of arrival: who has left is forgotten, who is new comes last. -/
def follow (arrived list : List α) : List α := arrived.filter (· ∈ list) ++ list.filter (· ∉ arrived)

theorem follow_leave (hold : ∀ a ∈ list', a ∈ arrived) : follow arrived list' = arrived.filter (· ∈ list') := by
  have hnone : list'.filter (· ∉ arrived) = [] := List.filter_eq_nil_iff.2 fun a ha => by simp [hold a ha]
  rw [follow, hnone, List.append_nil]

theorem follow_join (hold : ∀ b, b ∈ before ++ behind ↔ b ∈ arrived) (hnew : a ∉ arrived) :
    follow arrived (before ++ a :: behind) = arrived ++ [a] := by
  have hstay : arrived.filter (· ∈ before ++ a :: behind) = arrived := by
    refine List.filter_eq_self.2 fun b hb => decide_eq_true ?_
    have hb := (hold b).2 hb
    simp only [List.mem_append, List.mem_cons] at hb ⊢
    tauto
  have hbefore : before.filter (· ∉ arrived) = [] :=
    List.filter_eq_nil_iff.2 fun b hb => by simp [(hold b).1 (List.mem_append_left behind hb)]
  have hbehind : behind.filter (· ∉ arrived) = [] :=
    List.filter_eq_nil_iff.2 fun b hb => by simp [(hold b).1 (List.mem_append_right before hb)]
  rw [follow, hstay, List.filter_append, hbefore, List.filter_cons_of_pos (by simpa using hnew), hbehind, List.nil_append]

namespace Ordered

theorem leave (h : Ordered rank arrived list) (hsub : list'.Sublist list) : Ordered rank (follow arrived list') list' := by
  have hnodup : (arrived.filter (· ∈ list')).Nodup := h.nodup.filter _
  have hold : ∀ a ∈ list', a ∈ arrived := fun a ha => h.perm.mem_iff.1 (hsub.subset ha)
  rw [follow_leave hold]
  refine ⟨hnodup, ?_, (h.pairwise.sublist hsub).imp_of_mem fun ha hb hab => ?_⟩
  · refine (List.perm_ext_iff_of_nodup (h.list_nodup.sublist hsub) hnodup).2 fun a => ?_
    rw [List.mem_filter, decide_eq_true_eq]
    exact ⟨fun ha => ⟨hold a ha, ha⟩, fun ha => ha.2⟩
  · refine hab.imp id fun ⟨heq, hbefore⟩ => ⟨heq, ?_⟩
    have hfilter := hbefore.filter (· ∈ list')
    simpa [ha, hb] using hfilter

theorem join (h : Ordered rank arrived (before ++ behind)) (hnew : a ∉ before ++ behind)
    (hbefore : ∀ b ∈ before, rank b ≤ rank a) (hbehind : ∀ b ∈ behind.head?, rank a < rank b) :
    Ordered rank (follow arrived (before ++ a :: behind)) (before ++ a :: behind) := by
  have hnot : a ∉ arrived := fun ha => hnew (h.perm.mem_iff.2 ha)
  have hlater : ∀ b ∈ before, [b, a].Sublist (arrived ++ [a]) := fun b hb =>
    (List.singleton_sublist.2 (h.perm.mem_iff.1 (List.mem_append_left behind hb))).append (.refl [a])
  have hwiden : ∀ b c, (rank b < rank c ∨ rank b = rank c ∧ [b, c].Sublist arrived) →
      rank b < rank c ∨ rank b = rank c ∧ [b, c].Sublist (arrived ++ [a]) := fun b c hbc =>
    hbc.imp id fun ⟨heq, hsub⟩ => ⟨heq, hsub.trans (List.sublist_append_left ..)⟩
  obtain ⟨hfirst, hsecond, hcross⟩ := List.pairwise_append.1 h.pairwise
  rw [follow_join (fun b => h.perm.mem_iff) hnot]
  refine ⟨List.nodup_append.2 ⟨h.nodup, List.nodup_singleton a, ?_⟩, ?_, List.pairwise_append.2 ⟨?_, ?_, ?_⟩⟩
  · intro b hb c hc
    rw [List.mem_singleton.1 hc]
    exact fun heq => hnot (heq ▸ hb)
  · exact List.perm_middle.trans ((h.perm.cons a).trans (List.perm_append_singleton a arrived).symm)
  · exact hfirst.imp fun {b c} => hwiden b c
  · exact List.pairwise_cons.2 ⟨fun b hb => .inl (h.rank_lt hbehind hb), hsecond.imp fun {b c} => hwiden b c⟩
  · intro b hb c hc
    rcases List.mem_cons.1 hc with rfl | hc
    · rcases lt_or_eq_of_le (hbefore b hb) with hlt | heq
      · exact .inl hlt
      · exact .inr ⟨heq, hlater b hb⟩
    · exact hwiden b c (hcross b hb c hc)

theorem keep (h : Ordered rank arrived list) (hkeeps : Keeps rank rank' list list') :
    Ordered rank' (follow arrived list') list' := by
  obtain ⟨hstays, hchange⟩ := hkeeps
  cases hchange with
  | leave hsub =>
    have hleft := h.leave hsub
    exact hleft.congr fun a ha => hstays a (hsub.subset ha) ha
  | @join a before behind hlist hnew hbefore hbehind =>
    subst hlist
    refine (h.congr fun b hb => hstays b hb ?_).join hnew hbefore hbehind
    simp only [List.mem_append, List.mem_cons] at hb ⊢
    tauto

end Ordered

/-! ## Runs -/

/-- What is said of the lists of a system: the members, their ranks, which steps serve a list, and which members are able to leave then. -/
structure Queues (σ β ε ι α ρ : Type*) where
  list : σ → ι → List α
  rank : σ → α → ρ
  Serves : σ → β → List ε → ι → Prop
  Able : σ → β → α → Prop

variable {q : Queues σ β ε ι α ρ} {step : σ → β → Option (σ × List ε)} {ok : σ → β → Prop} {s₀ s : σ} {trace : List ε}
  {arrivals : ι → List α} {i : ι}

/-- A list is in order, and every step that serves it serves an element of the lowest rank. -/
structure Queues.InOrder (q : Queues σ β ε ι α ρ) (step : σ → β → Option (σ × List ε)) (s : σ) (arrived : List α) (i : ι) :
    Prop where
  ordered : Ordered (q.rank s) arrived (q.list s i)
  serves : ∀ op s' events, step s op = some (s', events) → q.Serves s op events i →
    ServesLowest (q.rank s) (q.Able s op) (q.list s i) (q.list s' i)

def record (q : Queues σ β ε ι α ρ) (step : σ → β → Option (σ × List ε)) (s : σ × (ι → List α)) (op : β) :
    Option ((σ × (ι → List α)) × List ε) :=
  (step s.1 op).map fun r => ((r.1, fun i => follow (s.2 i) (q.list r.1 i)), r.2)

/-- A run whose steps all meet `ok`, with the arrivals recorded from its start on. -/
def RecordedRun (q : Queues σ β ε ι α ρ) (step : σ → β → Option (σ × List ε)) (ok : σ → β → Prop) (s₀ : σ) (trace : List ε)
    (s : σ) (arrivals : ι → List α) : Prop :=
  Transition.Run (record q step) (fun s op => ok s.1 op) (s₀, fun _ => []) trace (s, arrivals)

omit [LinearOrder ρ] in
theorem RecordedRun.run (hrun : RecordedRun q step ok s₀ trace s arrivals) : Transition.Run step ok s₀ trace s := by
  refine Transition.Run.invariant (I := fun trace s => Transition.Run step ok s₀ trace s.1) .start ?_ hrun
  intro trace s op s' events hs hok hstep
  obtain ⟨r, hr, heq⟩ := Option.map_eq_some_iff.1 hstep
  obtain ⟨rfl, rfl⟩ := Prod.mk.inj heq
  exact hs.next hok hr

omit [LinearOrder ρ] in
theorem exists_recordedRun (q : Queues σ β ε ι α ρ) (hrun : Transition.Run step ok s₀ trace s) :
    ∃ arrivals, RecordedRun q step ok s₀ trace s arrivals := by
  induction hrun with
  | start => exact ⟨_, .start⟩
  | next hbefore hok hstep ih =>
    obtain ⟨arrivals, hrec⟩ := ih
    exact ⟨_, hrec.next hok (by rw [record, hstep]; rfl)⟩

theorem RecordedRun.ordered (hrun : RecordedRun q step ok s₀ trace s arrivals) (hstart : q.list s₀ i = [])
    (hkeeps : ∀ trace s op s' events, Transition.Run step ok s₀ trace s → ok s op → step s op = some (s', events) →
      Keeps (q.rank s) (q.rank s') (q.list s i) (q.list s' i)) :
    Ordered (q.rank s) (arrivals i) (q.list s i) := by
  have hboth : Transition.Run step ok s₀ trace s ∧ Ordered (q.rank s) (arrivals i) (q.list s i) := by
    refine Transition.Run.invariant
      (I := fun trace s => Transition.Run step ok s₀ trace s.1 ∧ Ordered (q.rank s.1) (s.2 i) (q.list s.1 i))
      ⟨.start, ?_⟩ ?_ hrun
    · rw [hstart]
      exact .empty _
    · intro trace s op s' events h hok hstep
      obtain ⟨r, hr, heq⟩ := Option.map_eq_some_iff.1 hstep
      obtain ⟨rfl, rfl⟩ := Prod.mk.inj heq
      exact ⟨h.1.next hok hr, h.2.keep (hkeeps _ _ _ _ _ h.1 hok hr)⟩
  exact hboth.2

end Arrivals
