import RtThread.Pthreads.ThreadKeys

/-!
# Runs of thread-specific data

The words of the areas are the values that the threads have stored, for the keys in use and outside a store. Three things break that: memory that is not cleared, areas that keep the values of a deleted key, and a key with no destructor, which `pthread_exit` calls all the same.
-/

namespace RtThread

open Function

variable {n : Nat} {s s' : Tls n} {op : TlsOp n} {trace events : List (TlsEvent n)} {t t' : Fin n} {key key' value index : Nat}
  {destructor : Option Nat} {e : TlsEvent n}

/-! ## One more event -/

section append

variable (key : Nat) (t : Fin n) (trace : List (TlsEvent n))

@[simp] theorem keyAt_created (key' : Nat) (destructor : Option Nat) :
    keyAt key (trace ++ [.created key' destructor]) = if key' = key then some destructor else keyAt key trace := by
  rw [keyAt, List.foldl_append]
  rfl

@[simp] theorem keyAt_deleted (key' : Nat) :
    keyAt key (trace ++ [.deleted key']) = if key' = key then none else keyAt key trace := by
  rw [keyAt, List.foldl_append]
  rfl

@[simp] theorem lastStored_created (key' : Nat) (destructor : Option Nat) :
    lastStored t key (trace ++ [.created key' destructor]) = if key' = key then 0 else lastStored t key trace := by
  rw [lastStored, List.foldl_append]
  rfl

@[simp] theorem lastStored_stored (t' : Fin n) (key' value : Nat) :
    lastStored t key (trace ++ [.stored t' key' value]) = if t' = t ∧ key' = key then value else lastStored t key trace := by
  rw [lastStored, List.foldl_append]
  rfl

end append

def TlsEvent.KeepsKeys : TlsEvent n → Prop
  | .created .. => False
  | .deleted _ => False
  | _ => True

def TlsEvent.KeepsValues : TlsEvent n → Prop
  | .created .. => False
  | .stored .. => False
  | _ => True

theorem keyAt_keep (he : e.KeepsKeys) (key : Nat) (trace : List (TlsEvent n)) : keyAt key (trace ++ [e]) = keyAt key trace := by
  rw [keyAt, List.foldl_append]
  cases e <;> first | rfl | exact he.elim

theorem lastStored_keep (he : e.KeepsValues) (t : Fin n) (key : Nat) (trace : List (TlsEvent n)) :
    lastStored t key (trace ++ [e]) = lastStored t key trace := by
  rw [lastStored, List.foldl_append]
  cases e <;> first | rfl | exact he.elim

/-! ## The invariant -/

structure TlsWalk (trace : List (TlsEvent n)) (s : Tls n) (t : Fin n) (index : Nat) : Prop where
  area : (s.tls t).isSome
  bound : index ≤ pthreadKeyMax
  called : ∀ key < index, ∀ destructor, keyAt key trace = some (some destructor) → lastStored t key trace ≠ 0 →
    .destroyed t key destructor (lastStored t key trace) ∈ trace

structure TlsInv (trace : List (TlsEvent n)) (s : Tls n) : Prop where
  right : TlsRight trace
  keys : ∀ key, keyAt key trace = if s.IsKey key then some (s.keys key).destructor else none
  values : ∀ t key, s.IsKey key → (s.storing t).map Prod.fst ≠ some key → s.phase t ≠ .exited →
    s.word t key = lastStored t key trace
  storing : ∀ t key value, s.storing t = some (key, value) → (s.tls t).isSome ∧ s.phase t ≠ .exited ∧
    ∀ index, s.phase t = .exiting index → value = 0 ∨ index ≤ key
  walk : ∀ t index, s.phase t = .exiting index → TlsWalk trace s t index
  passed : ∀ t key destructor value, .destroyed t key destructor value ∈ trace →
    s.phase t = .exited ∨ ∃ index, s.phase t = .exiting index ∧ key < index

theorem TlsInv.init (n : Nat) : TlsInv [] (.init n) := by
  refine ⟨.nil, fun key => ?_, fun t key _ _ _ => rfl, fun t key value h => ?_, fun t index h => ?_, fun _ _ _ _ h => ?_⟩
  · rw [if_neg fun h => Bool.false_ne_true h.2]
    rfl
  · cases h
  · cases h
  · cases h

theorem TlsInv.get (h : TlsInv trace s) (hready : s.Ready t) (key : Nat) :
    pthreadGetspecific s t key = definedValue t key trace := by
  show _ = if (keyAt key trace).isSome then lastStored t key trace else 0
  have hvalue : s.IsKey key → s.word t key = lastStored t key trace := fun hkey =>
    h.values t key hkey (by rw [hready.1]; exact nofun) hready.2.1
  rw [pthreadGetspecific, h.keys]
  by_cases hkey : s.IsKey key
  · rw [if_pos hkey, Option.isSome_some, if_pos rfl, ← hvalue hkey, Tls.word]
    cases s.tls t with
    | none => rfl
    | some area => exact if_pos hkey
  · rw [if_neg hkey, Option.isSome_none, if_neg Bool.false_ne_true]
    cases s.tls t with
    | none => rfl
    | some area => exact if_neg hkey

theorem TlsInv.quiet (h : TlsInv trace s) (hright : TlsEventRight trace e) (hkeys : e.KeepsKeys) (hvalues : e.KeepsValues)
    (hcalls : ∀ t key destructor value, e ≠ .destroyed t key destructor value) : TlsInv (trace ++ [e]) s := by
  refine ⟨h.right.concat (fun _ _ _ h => h) hright, fun key => ?_, fun t key hkey hstoring hphase => ?_, h.storing,
    fun t index hphase => ?_, fun t key destructor value hmem => ?_⟩
  · rw [keyAt_keep hkeys]
    exact h.keys key
  · rw [lastStored_keep hvalues]
    exact h.values t key hkey hstoring hphase
  · obtain ⟨harea, hbound, hcalled⟩ := h.walk t index hphase
    refine ⟨harea, hbound, fun key hlt destructor hkey hne => ?_⟩
    rw [keyAt_keep hkeys] at hkey
    rw [lastStored_keep hvalues] at hne ⊢
    exact List.mem_append_left _ (hcalled key hlt destructor hkey hne)
  · rcases List.mem_append.1 hmem with hmem | hmem
    · exact h.passed t key destructor value hmem
    · exact absurd (List.mem_singleton.1 hmem).symm (hcalls t key destructor value)

/-! ## Steps -/

theorem Tls.tls_grow (s : Tls n) (t t' : Fin n) (area : Option (Nat → Nat)) :
    (s.grow t area).tls t' = if t' = t then (if (s.tls t).isNone then area else s.tls t) else s.tls t' :=
  update_apply ..

theorem Tls.word_grow (s : Tls n) (t t' : Fin n) (area : Option (Nat → Nat)) (key : Nat) :
    (s.grow t area).word t' key = if t' = t ∧ s.tls t = none then area.elim 0 (· key) else s.word t' key := by
  rw [word, word, tls_grow]
  by_cases ht : t' = t
  · subst ht
    cases s.tls t' <;> simp
  · rw [if_neg ht, if_neg fun h => ht h.1]

theorem Tls.isSome_grow {area : Option (Nat → Nat)} (h : (s.tls t').isSome) : ((s.grow t area).tls t').isSome := by
  rw [tls_grow]
  split_ifs with ht hnone
  · subst ht
    rw [Option.isNone_iff_eq_none.1 hnone] at h
    cases h
  · exact ht ▸ h
  · exact h

theorem TlsInv.grow (area : Option (Nat → Nat)) (pending : Option (Nat × Nat)) (h : TlsInv trace s) (hready : s.Ready t)
    (hclear : s.tls t = none → ∀ key, s.IsKey key → pending.map Prod.fst ≠ some key → area.elim 0 (· key) = 0)
    (hpending : ∀ key value, pending = some (key, value) → ((s.tls t).isNone → area.isSome) ∧
      ∀ index, s.phase t = .exiting index → value = 0 ∨ index ≤ key) :
    TlsInv trace { s.grow t area with storing := update s.storing t pending } := by
  refine ⟨h.right, h.keys, fun t' key hkey hstoring hphase => ?_, fun t' key value hstoring => ?_, fun t' index hphase => ?_, h.passed⟩
  · show (s.grow t area).word t' key = _
    rw [Tls.word_grow]
    by_cases ht : t' = t
    · subst ht
      have hstoring : (update s.storing t' pending t').map Prod.fst ≠ some key := hstoring
      rw [update_self] at hstoring
      have hvalue := h.values t' key hkey (by rw [hready.1]; exact nofun) hready.2.1
      split_ifs with hnone
      · rw [hclear hnone.2 key hkey hstoring, ← hvalue, Tls.word, hnone.2, Option.elim_none]
      · exact hvalue
    · rw [if_neg fun h => ht h.1]
      have hstoring : (update s.storing t pending t').map Prod.fst ≠ some key := hstoring
      rw [update_of_ne ht] at hstoring
      exact h.values t' key hkey hstoring hphase
  · have hstoring : update s.storing t pending t' = some (key, value) := hstoring
    by_cases ht : t' = t
    · subst ht
      rw [update_self] at hstoring
      obtain ⟨harea, hindex⟩ := hpending key value hstoring
      refine ⟨?_, hready.2.1, hindex⟩
      show ((s.grow t' area).tls t').isSome
      rw [Tls.tls_grow, if_pos rfl]
      split_ifs with hnone
      · exact harea hnone
      · exact Option.ne_none_iff_isSome.1 fun heq => hnone (heq ▸ rfl)
    · rw [update_of_ne ht] at hstoring
      obtain ⟨harea, hrest⟩ := h.storing t' key value hstoring
      exact ⟨Tls.isSome_grow harea, hrest⟩
  · obtain ⟨harea, hbound, hcalled⟩ := h.walk t' index hphase
    exact ⟨Tls.isSome_grow harea, hbound, hcalled⟩

theorem TlsInv.store {area : Nat → Nat} (h : TlsInv trace s) (hstoring : s.storing t = some (key, value))
    (harea : s.tls t = some area) :
    TlsInv (trace ++ [.stored t key value])
      { s with
        tls := update s.tls t (some (update area key value))
        storing := update s.storing t none } := by
  obtain ⟨-, hphase, hindex⟩ := h.storing t key value hstoring
  have hword : ∀ t' key', Tls.word { s with
      tls := update s.tls t (some (update area key value))
      storing := update s.storing t none } t' key' = if t = t' ∧ key = key' then value else s.word t' key' := by
    intro t' key'
    unfold Tls.word
    by_cases ht : t = t'
    · subst ht
      rw [harea]
      by_cases hkey : key = key'
      · subst hkey
        simp
      · simp [hkey, Ne.symm hkey]
    · rw [if_neg fun h => ht h.1]
      simp [Ne.symm ht]
  have hsome : ∀ t', (s.tls t').isSome → (update s.tls t (some (update area key value)) t').isSome := by
    intro t' hsome
    by_cases ht : t' = t
    · subst ht
      rw [update_self, Option.isSome_some]
    · rwa [update_of_ne ht]
  refine ⟨h.right.concat (fun _ _ _ h => h) trivial, fun key' => ?_, fun t' key' hkey hfree hphase' => ?_,
    fun t' key' value' hstoring' => ?_, fun t' index hphase' => ?_, fun t' key' destructor value' hmem => ?_⟩
  · rw [keyAt_keep (e := .stored t key value) trivial]
    exact h.keys key'
  · rw [hword, lastStored_stored]
    by_cases hsame : t = t' ∧ key = key'
    · rw [if_pos hsame, if_pos hsame]
    · rw [if_neg hsame, if_neg hsame]
      refine h.values t' key' hkey (fun hpending => ?_) hphase'
      have hfree : (update s.storing t none t').map Prod.fst ≠ some key' := hfree
      by_cases ht : t' = t
      · subst ht
        rw [hstoring] at hpending
        exact hsame ⟨rfl, Option.some.inj hpending⟩
      · rw [update_of_ne ht] at hfree
        exact hfree hpending
  · have hstoring' : update s.storing t none t' = some (key', value') := hstoring'
    by_cases ht : t' = t
    · subst ht
      rw [update_self] at hstoring'
      cases hstoring'
    · rw [update_of_ne ht] at hstoring'
      obtain ⟨hold, hrest⟩ := h.storing t' key' value' hstoring'
      exact ⟨hsome t' hold, hrest⟩
  · obtain ⟨hold, hbound, hcalled⟩ := h.walk t' index hphase'
    refine ⟨hsome t' hold, hbound, fun key' hlt destructor hkey hne => ?_⟩
    rw [keyAt_keep (e := .stored t key value) trivial] at hkey
    rw [lastStored_stored] at hne ⊢
    by_cases hsame : t = t' ∧ key = key'
    · -- the walk has passed the key: only `NULL` is stored there
      obtain ⟨rfl, rfl⟩ := hsame
      rw [if_pos ⟨rfl, rfl⟩] at hne
      rcases hindex index hphase' with hzero | hle
      · exact absurd hzero hne
      · exact absurd hlt (Nat.not_lt.2 hle)
    · rw [if_neg hsame] at hne ⊢
      exact List.mem_append_left _ (hcalled key' hlt destructor hkey hne)
  · rcases List.mem_append.1 hmem with hmem | hmem
    · exact h.passed t' key' destructor value' hmem
    · cases List.mem_singleton.1 hmem

theorem Tls.keys_setKey (s : Tls n) (key key' : Nat) (data : PthreadKeyData) :
    (s.setKey key data).keys key' = if key' = key then data else s.keys key' := update_apply ..

theorem pthreadKeyCreate_free (h : pthreadKeyCreate s = some index) :
    index < pthreadKeyMax ∧ (s.keys index).isUsed = false :=
  ⟨List.mem_range.1 (List.mem_of_find?_eq_some h), by simpa using List.find?_some h⟩

theorem TlsInv.create (h : TlsInv trace s) (hindex : pthreadKeyCreate s = some index)
    (hclear : ∀ t, (s.storing t).map Prod.fst ≠ some index → s.word t index = 0) :
    TlsInv (trace ++ [.created index destructor]) (s.setKey index ⟨true, destructor⟩) := by
  obtain ⟨hmax, -⟩ := pthreadKeyCreate_free hindex
  have hisKey : ∀ key, (s.setKey index ⟨true, destructor⟩).IsKey key ↔ key = index ∨ s.IsKey key := by
    intro key
    rw [Tls.IsKey, Tls.IsKey, Tls.keys_setKey]
    by_cases heq : key = index
    · subst heq
      simp [hmax]
    · simp [heq]
  refine ⟨h.right.concat (fun _ _ _ h => h) trivial, fun key => ?_, fun t key hkey hstoring hphase => ?_, h.storing,
    fun t i hphase => ?_, fun t key destructor' value hmem => ?_⟩
  · rw [keyAt_created, if_congr (hisKey key) rfl rfl, Tls.keys_setKey, h.keys]
    by_cases heq : key = index
    · rw [if_pos heq.symm, if_pos (.inl heq), if_pos heq]
    · rw [if_neg (Ne.symm heq), if_congr (or_iff_right heq) rfl rfl, if_neg heq]
  · rw [lastStored_created]
    by_cases heq : index = key
    · subst heq
      rw [if_pos rfl]
      exact hclear t hstoring
    · rw [if_neg heq]
      exact h.values t key (((hisKey key).1 hkey).resolve_left (Ne.symm heq)) hstoring hphase
  · obtain ⟨harea, hbound, hcalled⟩ := h.walk t i hphase
    refine ⟨harea, hbound, fun key hlt destructor' hkey hne => ?_⟩
    rw [lastStored_created] at hne ⊢
    by_cases heq : index = key
    · rw [if_pos heq] at hne
      exact absurd rfl hne
    · rw [keyAt_created, if_neg heq] at hkey
      rw [if_neg heq] at hne ⊢
      exact List.mem_append_left _ (hcalled key hlt destructor' hkey hne)
  · rcases List.mem_append.1 hmem with hmem | hmem
    · exact h.passed t key destructor' value hmem
    · cases List.mem_singleton.1 hmem

theorem TlsInv.delete (h : TlsInv trace s) (key : Nat) :
    TlsInv (trace ++ [.deleted key]) (s.setKey key ⟨false, none⟩) := by
  have hisKey : ∀ key', (s.setKey key ⟨false, none⟩).IsKey key' ↔ key' ≠ key ∧ s.IsKey key' := by
    intro key'
    rw [Tls.IsKey, Tls.IsKey, Tls.keys_setKey]
    by_cases heq : key' = key <;> simp [heq]
  refine ⟨h.right.concat (fun _ _ _ h => h) trivial, fun key' => ?_, fun t key' hkey hstoring hphase => ?_, h.storing,
    fun t i hphase => ?_, fun t key' destructor value hmem => ?_⟩
  · rw [keyAt_deleted, if_congr (hisKey key') rfl rfl, Tls.keys_setKey, h.keys]
    by_cases heq : key' = key
    · rw [if_pos heq.symm, if_neg fun h => h.1 heq]
    · rw [if_neg (Ne.symm heq), if_congr (and_iff_right heq) rfl rfl, if_neg heq]
  · rw [lastStored_keep (e := .deleted key) trivial]
    exact h.values t key' ((hisKey key').1 hkey).2 hstoring hphase
  · obtain ⟨harea, hbound, hcalled⟩ := h.walk t i hphase
    refine ⟨harea, hbound, fun key' hlt destructor hkey hne => ?_⟩
    rw [lastStored_keep (e := .deleted key) trivial] at hne ⊢
    rw [keyAt_deleted] at hkey
    split_ifs at hkey
    exact List.mem_append_left _ (hcalled key' hlt destructor hkey hne)
  · rcases List.mem_append.1 hmem with hmem | hmem
    · exact h.passed t key' destructor value hmem
    · cases List.mem_singleton.1 hmem

/-! ## Exiting -/

theorem Tls.phase_setPhase (s : Tls n) (t t' : Fin n) (phase : TlsPhase) :
    (s.setPhase t phase).phase t' = if t' = t then phase else s.phase t' := update_apply ..

theorem TlsInv.advance (phase : TlsPhase) (h : TlsInv trace s) (hfree : s.storing t = none) (hlive : s.phase t ≠ .exited)
    (hwalk : ∀ index, phase = .exiting index → TlsWalk trace s t index)
    (hpassed : ∀ key destructor value, .destroyed t key destructor value ∈ trace →
      phase = .exited ∨ ∃ index, phase = .exiting index ∧ key < index) :
    TlsInv trace (s.setPhase t phase) := by
  refine ⟨h.right, h.keys, fun t' key hkey hstoring hphase => ?_, fun t' key value hstoring => ?_, fun t' index hphase => ?_,
    fun t' key destructor value hmem => ?_⟩
  · by_cases ht : t' = t
    · exact h.values t' key hkey hstoring (ht ▸ hlive)
    · rw [Tls.phase_setPhase, if_neg ht] at hphase
      exact h.values t' key hkey hstoring hphase
  · obtain ⟨harea, hrest⟩ := h.storing t' key value hstoring
    have ht : t' ≠ t := fun heq => by
      have hnone : s.storing t' = none := heq ▸ hfree
      rw [show s.storing t' = some (key, value) from hstoring] at hnone
      cases hnone
    rw [Tls.phase_setPhase, if_neg ht]
    exact ⟨harea, hrest⟩
  · rw [Tls.phase_setPhase] at hphase
    by_cases ht : t' = t
    · rw [if_pos ht] at hphase
      obtain ⟨harea, hbound, hcalled⟩ := hwalk index hphase
      subst ht
      exact ⟨harea, hbound, hcalled⟩
    · rw [if_neg ht] at hphase
      obtain ⟨harea, hbound, hcalled⟩ := h.walk t' index hphase
      exact ⟨harea, hbound, hcalled⟩
  · rw [Tls.phase_setPhase]
    by_cases ht : t' = t
    · rw [if_pos ht]
      exact hpassed key destructor value (ht ▸ hmem)
    · rw [if_neg ht]
      exact h.passed t' key destructor value hmem

theorem TlsInv.exit_none (h : TlsInv trace s) (hfree : s.storing t = none) (hrunning : s.phase t = .running)
    (hnone : s.tls t = none) : TlsInv (trace ++ [.exited t]) (s.setPhase t .exited) := by
  have hlive : s.phase t ≠ .exited := by rw [hrunning]; exact nofun
  have hright : TlsEventRight trace (.exited t) := by
    intro key destructor hkey hne
    rw [h.keys] at hkey
    split_ifs at hkey with hisKey
    rw [← h.values t key hisKey (by rw [hfree]; exact nofun) hlive, Tls.word, hnone] at hne
    exact absurd rfl hne
  refine (h.quiet hright trivial trivial nofun).advance _ hfree hlive (fun index heq => ?_) fun _ _ _ _ => .inl rfl
  cases heq

theorem TlsInv.exit_some (h : TlsInv trace s) (hfree : s.storing t = none) (hrunning : s.phase t = .running)
    (hsome : (s.tls t).isSome) : TlsInv trace (s.setPhase t (.exiting 0)) := by
  refine h.advance _ hfree (by rw [hrunning]; exact nofun) (fun index heq => ?_) fun key destructor value hmem => ?_
  · cases heq
    exact ⟨hsome, Nat.zero_le _, fun key hlt => absurd hlt (Nat.not_lt_zero key)⟩
  · rcases h.passed t key destructor value hmem with hphase | ⟨index, hphase, -⟩ <;> rw [hrunning] at hphase <;> cases hphase

theorem TlsInv.pass (h : TlsInv trace s) (hfree : s.storing t = none) (hphase : s.phase t = .exiting index)
    (hindex : index < pthreadKeyMax) (hnone : ¬ ((s.keys index).isUsed = true ∧ s.word t index ≠ 0)) :
    TlsInv trace (s.setPhase t (.exiting (index + 1))) := by
  have hlive : s.phase t ≠ .exited := by rw [hphase]; exact nofun
  obtain ⟨harea, -, hcalled⟩ := h.walk t index hphase
  refine h.advance _ hfree hlive (fun i heq => ?_) fun key destructor value hmem => ?_
  · cases heq
    refine ⟨harea, hindex, fun key hlt destructor hkey hne => ?_⟩
    rcases Nat.lt_succ_iff_lt_or_eq.1 hlt with hlt | rfl
    · exact hcalled key hlt destructor hkey hne
    · rw [h.keys] at hkey
      split_ifs at hkey with hisKey
      rw [← h.values t key hisKey (by rw [hfree]; exact nofun) hlive] at hne
      exact absurd ⟨hisKey.2, hne⟩ hnone
  · rcases h.passed t key destructor value hmem with heq | ⟨i, heq, hlt⟩
    · exact absurd heq hlive
    · rw [hphase] at heq
      cases heq
      exact .inr ⟨index + 1, rfl, Nat.lt_succ_of_lt hlt⟩

theorem TlsInv.destroy {destructor : Nat} (h : TlsInv trace s) (hfree : s.storing t = none)
    (hphase : s.phase t = .exiting index) (hindex : index < pthreadKeyMax) (hused : (s.keys index).isUsed = true)
    (hne : s.word t index ≠ 0) (hdestructor : (s.keys index).destructor = some destructor) :
    TlsInv (trace ++ [.destroyed t index destructor (s.word t index)]) (s.setPhase t (.exiting (index + 1))) := by
  have hlive : s.phase t ≠ .exited := by rw [hphase]; exact nofun
  have hvalue := h.values t index ⟨hindex, hused⟩ (by rw [hfree]; exact nofun) hlive
  obtain ⟨harea, -, hcalled⟩ := h.walk t index hphase
  have hnew : ∀ destructor' value', TlsEvent.destroyed t index destructor' value' ∉ trace := fun destructor' value' hmem => by
    rcases h.passed t index destructor' value' hmem with heq | ⟨i, heq, hlt⟩
    · exact absurd heq hlive
    · rw [hphase] at heq
      cases heq
      exact absurd hlt (Nat.lt_irrefl _)
  have hright : TlsEventRight trace (.destroyed t index destructor (s.word t index)) :=
    ⟨by rw [h.keys, if_pos ⟨hindex, hused⟩, hdestructor], hvalue, hne, hnew⟩
  have hlast : ∀ t' key, lastStored t' key (trace ++ [.destroyed t index destructor (s.word t index)]) = lastStored t' key trace :=
    fun t' key => lastStored_keep (e := .destroyed t index destructor (s.word t index)) trivial t' key trace
  have hkeyAt : ∀ key, keyAt key (trace ++ [.destroyed t index destructor (s.word t index)]) = keyAt key trace := fun key =>
    keyAt_keep (e := .destroyed t index destructor (s.word t index)) trivial key trace
  refine ⟨h.right.concat (fun _ _ _ h => h) hright, fun key => ?_, fun t' key hkey hstoring hphase' => ?_,
    fun t' key value hstoring => ?_, fun t' i hphase' => ?_, fun t' key destructor' value hmem => ?_⟩
  · rw [hkeyAt]
    exact h.keys key
  · rw [hlast]
    refine h.values t' key hkey hstoring fun heq => ?_
    rw [Tls.phase_setPhase] at hphase'
    split_ifs at hphase' with ht
    · exact hlive (ht ▸ heq)
    · exact hphase' heq
  · obtain ⟨hsome, hrest⟩ := h.storing t' key value hstoring
    have ht : t' ≠ t := fun heq => by
      have hnone : s.storing t' = none := heq ▸ hfree
      rw [show s.storing t' = some (key, value) from hstoring] at hnone
      cases hnone
    rw [Tls.phase_setPhase, if_neg ht]
    exact ⟨hsome, hrest⟩
  · have hold : ∀ t' i, TlsWalk trace s t' i →
        TlsWalk (trace ++ [.destroyed t index destructor (s.word t index)]) (s.setPhase t (.exiting (index + 1))) t' i := by
      rintro t' i ⟨hsome, hbound, hcalled⟩
      refine ⟨hsome, hbound, fun key hlt destructor' hkey hne => ?_⟩
      rw [hkeyAt] at hkey
      rw [hlast] at hne ⊢
      exact List.mem_append_left _ (hcalled key hlt destructor' hkey hne)
    rw [Tls.phase_setPhase] at hphase'
    split_ifs at hphase' with ht
    · cases hphase'
      subst ht
      refine ⟨harea, hindex, fun key hlt destructor' hkey hne' => ?_⟩
      rcases Nat.lt_succ_iff_lt_or_eq.1 hlt with hlt | rfl
      · exact (hold t' index (h.walk t' index hphase)).called key hlt destructor' hkey hne'
      · rw [hkeyAt, h.keys, if_pos ⟨hindex, hused⟩, hdestructor] at hkey
        cases hkey
        rw [hlast, ← hvalue]
        exact List.mem_append_right _ List.mem_cons_self
    · exact hold t' i (h.walk t' i hphase')
  · rw [Tls.phase_setPhase]
    rcases List.mem_append.1 hmem with hmem | hmem
    · rcases h.passed t' key destructor' value hmem with heq | ⟨i, heq, hlt⟩
      · have ht : t' ≠ t := fun ht => hlive (ht ▸ heq)
        rw [if_neg ht]
        exact .inl heq
      · split_ifs with ht
        · subst ht
          rw [hphase] at heq
          cases heq
          exact .inr ⟨index + 1, rfl, Nat.lt_succ_of_lt hlt⟩
        · exact .inr ⟨i, heq, hlt⟩
    · cases List.mem_singleton.1 hmem
      exact .inr ⟨index + 1, if_pos rfl, Nat.lt_succ_self index⟩

theorem TlsInv.finish (h : TlsInv trace s) (hfree : s.storing t = none) (hphase : s.phase t = .exiting index)
    (hindex : ¬ index < pthreadKeyMax) :
    TlsInv (trace ++ [.exited t]) { s.setPhase t .exited with tls := update s.tls t none } := by
  obtain ⟨harea, -, hcalled⟩ := h.walk t index hphase
  have hright : TlsEventRight trace (.exited t) := by
    intro key destructor hkey hne
    refine hcalled key ?_ destructor hkey hne
    rw [h.keys] at hkey
    split_ifs at hkey with hisKey
    exact Nat.lt_of_lt_of_le hisKey.1 (Nat.le_of_not_lt hindex)
  have hexited := (h.quiet hright trivial trivial nofun).advance (t := t) .exited hfree (by rw [hphase]; exact nofun)
    (fun _ heq => by cases heq) fun _ _ _ _ => .inl rfl
  have hself : (s.setPhase t .exited).phase t = .exited := by rw [Tls.phase_setPhase, if_pos rfl]
  have htls : ∀ t', t' ≠ t → update s.tls t none t' = s.tls t' := fun t' ht => update_of_ne ht ..
  refine ⟨hexited.right, hexited.keys, fun t' key hkey hstoring hphase' => ?_, fun t' key value hstoring => ?_,
    fun t' i hphase' => ?_, hexited.passed⟩
  · have ht : t' ≠ t := fun heq => hphase' (heq ▸ hself)
    refine Eq.trans ?_ (hexited.values t' key hkey hstoring hphase')
    exact congrArg (fun area : Option (Nat → Nat) => area.elim 0 (· key)) (htls t' ht)
  · obtain ⟨hsome, hlive, hrest⟩ := hexited.storing t' key value hstoring
    have ht : t' ≠ t := fun heq => hlive (heq ▸ hself)
    exact ⟨(congrArg Option.isSome (htls t' ht)).trans hsome, hlive, hrest⟩
  · have ht : t' ≠ t := fun heq => by
      subst heq
      rw [show _ = TlsPhase.exited from hself] at hphase'
      cases hphase'
    obtain ⟨hsome, hbound, hcalled'⟩ := hexited.walk t' i hphase'
    exact ⟨(congrArg Option.isSome (htls t' ht)).trans hsome, hbound, hcalled'⟩

/-! ## The reads of the walk -/

theorem TlsInv.setReading (h : TlsInv trace s) (t : Fin n) (reading : WalkRead) : TlsInv trace (s.setReading t reading) :=
  ⟨h.right, h.keys, h.values, h.storing, fun t index hphase =>
    have ⟨harea, hbound, hcalled⟩ := h.walk t index hphase
    ⟨harea, hbound, hcalled⟩, h.passed⟩

/-- A walk that has read that its key is in use can rely on it where there is a value, and the value it has read is still there. -/
structure Tls.Held (s : Tls n) (t : Fin n) (index : Nat) : Prop where
  storing : s.storing t = none
  phase : s.phase t = .exiting index
  bound : index < pthreadKeyMax
  used : s.word t index ≠ 0 → s.IsKey index
  data : ∀ data, s.reading t = .call data → data = s.word t index ∧ data ≠ 0

def Tls.ReadsRight (s : Tls n) (t : Fin n) : Prop := s.reading t ≠ .key → ∃ index, s.Held t index

theorem Tls.ReadsRight.keep (h : s.ReadsRight t) (hreading : s'.reading t = s.reading t) (hstoring : s'.storing t = s.storing t)
    (hphase : s'.phase t = s.phase t) (hword : ∀ key, s'.word t key = s.word t key)
    (hkeys : ∀ index, s.Held t index → s.reading t ≠ .key → s.word t index ≠ 0 → s.IsKey index → s'.IsKey index) : s'.ReadsRight t := by
  intro hne
  rw [hreading] at hne
  obtain ⟨index, hheld⟩ := h hne
  refine ⟨index, hstoring.trans hheld.storing, hphase.trans hheld.phase, hheld.bound, fun hvalue => ?_, fun data hdata => ?_⟩
  · rw [hword] at hvalue
    exact hkeys index hheld hne hvalue (hheld.used hvalue)
  · rw [hword]
    exact hheld.data data (hreading ▸ hdata)

theorem Tls.Ready.readsRight (h : s.Ready t) (hreading : s'.reading t = s.reading t) : s'.ReadsRight t :=
  fun hne => absurd (hreading.trans h.2.2) hne

/-- A thread that is not in a read of its walk is in none afterwards. -/
theorem Tls.ReadsRight.of_not_held (h : s.ReadsRight t) (hnone : ∀ index, ¬ s.Held t index) (hreading : s'.reading t = s.reading t) :
    s'.ReadsRight t := fun hne => by
  obtain ⟨index, hheld⟩ := h (hreading ▸ hne)
  exact absurd hheld (hnone index)

theorem Tls.reading_setReading (s : Tls n) (t t' : Fin n) (reading : WalkRead) :
    (s.setReading t reading).reading t' = if t' = t then reading else s.reading t' := update_apply ..

theorem Tls.readsRight_set (h : s.ReadsRight t') (hready : s.Ready t) (area : Option (Nat → Nat)) (pending : Option (Nat × Nat)) :
    Tls.ReadsRight { s.grow t area with storing := update s.storing t pending } t' := by
  by_cases ht : t' = t
  · subst ht
    exact hready.readsRight rfl
  · refine h.keep rfl (update_of_ne ht ..) rfl (fun key => ?_) fun _ _ _ _ hkey => hkey
    exact (s.word_grow t t' area key).trans (if_neg fun hno => ht hno.1)

theorem Tls.readsRight_store {area : Nat → Nat} (h : s.ReadsRight t') (hstoring : s.storing t = some (key, value)) :
    Tls.ReadsRight { s with tls := update s.tls t (some area), storing := update s.storing t none } t' := by
  by_cases ht : t' = t
  · subst ht
    refine h.of_not_held (fun index hheld => ?_) rfl
    cases hstoring.symm.trans hheld.storing
  · refine h.keep rfl (update_of_ne ht ..) rfl (fun key => ?_) fun _ _ _ _ hkey => hkey
    exact congrArg (fun area : Option (Nat → Nat) => area.elim 0 (· key)) (update_of_ne ht ..)

theorem Tls.readsRight_setKey {data : PthreadKeyData} (h : s.ReadsRight t)
    (hkept : ∀ index, s.Held t index → s.reading t ≠ .key → s.word t index ≠ 0 → index = key → data.isUsed = true) :
    (s.setKey key data).ReadsRight t := by
  refine h.keep rfl rfl rfl (fun _ => rfl) fun index hheld hreading hvalue hkey => ⟨hkey.1, ?_⟩
  rw [Tls.keys_setKey]
  split_ifs with heq
  · exact hkept index hheld hreading hvalue heq
  · exact hkey.2

theorem Tls.readsRight_setPhase (h : s.ReadsRight t') (hnone : ∀ index, ¬ s.Held t index) (phase : TlsPhase) :
    (s.setPhase t phase).ReadsRight t' := by
  by_cases ht : t' = t
  · subst ht
    exact h.of_not_held hnone rfl
  · exact h.keep rfl rfl (by rw [Tls.phase_setPhase, if_neg ht]) (fun _ => rfl) fun _ _ _ _ hkey => hkey

theorem Tls.readsRight_nextKey (h : s.ReadsRight t') (index : Nat) : (s.nextKey t index).ReadsRight t' := by
  have hreading : (s.nextKey t index).reading t' = if t' = t then .key else s.reading t' := s.reading_setReading t t' .key
  by_cases ht : t' = t
  · rw [if_pos ht] at hreading
    exact fun hne => absurd hreading hne
  · rw [if_neg ht] at hreading
    exact h.keep hreading rfl (((s.setReading t .key).phase_setPhase t t' _).trans (if_neg ht)) (fun _ => rfl) fun _ _ _ _ hkey => hkey

theorem Tls.readsRight_setReading {reading : WalkRead} (h : s.ReadsRight t')
    (hheld : reading ≠ .key → ∃ index, (s.setReading t reading).Held t index) : (s.setReading t reading).ReadsRight t' := by
  by_cases ht : t' = t
  · subst ht
    intro hne
    rw [Tls.reading_setReading, if_pos rfl] at hne
    exact hheld hne
  · exact h.keep (by rw [Tls.reading_setReading, if_neg ht]) rfl rfl (fun _ => rfl) fun _ _ _ _ hkey => hkey

/-! ## Runs -/

theorem TlsInv.step (h : TlsInv trace s) (hreads : ∀ t, s.ReadsRight t) (hsafe : TlsSafe s op) (hstep : stepTls s op = some (s', events)) :
    TlsInv (trace ++ events) s' := by
  cases op with
  | get t key =>
    cases key with
    | ofNat key =>
      simp only [stepTls] at hstep
      split_ifs at hstep with hready
      cases hstep
      exact h.quiet (h.get hready key) trivial trivial nofun
    | negSucc key =>
      simp only [stepTls] at hstep
      split_ifs at hstep with hready hnone
      · cases hstep
        exact h.quiet rfl trivial trivial nofun
      · exact absurd (hsafe.resolve_left (by omega)) hnone
  | set t key value area =>
    obtain ⟨hkey, harea, hclear, hindex⟩ := hsafe
    cases key with
    | negSucc key => omega
    | ofNat key =>
      simp only [stepTls] at hstep
      split_ifs at hstep with hready hisKey
      · cases hstep
        rw [List.append_nil]
        refine h.grow _ _ hready (fun hnone key' hkey' hne => ?_) fun key' value' heq => ?_
        · refine hclear hnone key' hkey'.1 (fun heq => hne ?_) hkey'
          rw [Option.map_some, Int.ofNat.inj heq]
        · cases heq
          refine ⟨harea hisKey, fun index hphase => ?_⟩
          have := hindex index (Nat.lt_succ_of_le (h.walk t index hphase).bound) hphase hisKey
          exact this.imp id Int.ofNat_le.1
      · cases hstep
        have hgrown := h.grow area none hready (fun hnone key' hkey' _ => ?_) nofun
        · rw [show update s.storing t none = s.storing from Function.update_eq_self_iff.2 hready.1.symm] at hgrown
          exact TlsInv.quiet hgrown trivial trivial trivial nofun
        · exact hclear hnone key' hkey'.1 (fun heq => hisKey (Int.ofNat.inj heq ▸ hkey')) hkey'
  | store t =>
    rw [stepTls] at hstep
    split at hstep
    · cases hstep
    · rename_i key value hstoring
      obtain ⟨area, harea⟩ := Option.isSome_iff_exists.1 (h.storing t key value hstoring).1
      rw [harea] at hstep
      cases hstep
      exact h.store hstoring harea
  | create destructor =>
    rw [stepTls] at hstep
    split at hstep
    · cases hstep
      exact h.quiet trivial trivial trivial nofun
    · rename_i index hindex
      cases hstep
      exact h.create hindex (hsafe index (pthreadKeyCreate_free hindex).1 hindex)
  | delete key =>
    cases key with
    | negSucc key => exact absurd hsafe.1 (by omega)
    | ofNat key =>
      simp only [stepTls] at hstep
      split_ifs at hstep
      · cases hstep
        exact h.quiet trivial trivial trivial nofun
      · cases hstep
        exact h.delete key
  | exit t =>
    rw [stepTls] at hstep
    split_ifs at hstep with hrunning hnone
    · cases hstep
      exact h.exit_none hrunning.1 hrunning.2 (Option.isNone_iff_eq_none.1 hnone)
    · cases hstep
      rw [List.append_nil]
      exact h.exit_some hrunning.1 hrunning.2 (Option.ne_none_iff_isSome.1 fun heq => hnone (heq ▸ rfl))
  | exitStep t =>
    rw [stepTls] at hstep
    split at hstep
    · rename_i index hfree hphase
      by_cases hindex : index < pthreadKeyMax
      · rw [if_pos hindex] at hstep
        cases hreading : s.reading t with
        | key =>
          rw [hreading] at hstep
          cases hstep
          rw [List.append_nil]
          split_ifs with hused
          · exact h.setReading t .word
          · exact (h.setReading t .key).pass hfree hphase hindex fun hcall => hused hcall.1
        | word =>
          rw [hreading] at hstep
          cases hstep
          rw [List.append_nil]
          split_ifs with hvalue
          · exact h.setReading t _
          · exact (h.setReading t .key).pass hfree hphase hindex fun hcall => hvalue hcall.2
        | call data =>
          rw [hreading] at hstep
          cases hstep
          obtain ⟨index', hheld⟩ := hreads t (by rw [hreading]; exact WalkRead.noConfusion)
          obtain rfl : index' = index := TlsPhase.exiting.inj (hheld.phase.symm.trans hphase)
          obtain ⟨rfl, hne⟩ := hheld.data data hreading
          obtain ⟨destructor, hdestructor⟩ := Option.isSome_iff_exists.1 (hsafe index' hindex hphase
            (by rw [hreading]; exact WalkRead.noConfusion) (by rw [hreading]; exact WalkRead.noConfusion))
          rw [hdestructor]
          exact (h.setReading t .key).destroy hfree hphase hindex (hheld.used hne).2 hne hdestructor
      · rw [if_neg hindex] at hstep
        cases hstep
        exact h.finish hfree hphase hindex
    · cases hstep

theorem Tls.readsRight_step (h : ∀ t, s.ReadsRight t) (hsafe : TlsSafe s op) (hstep : stepTls s op = some (s', events)) (t' : Fin n) :
    s'.ReadsRight t' := by
  cases op with
  | get t key =>
    cases key <;>
    · simp only [stepTls] at hstep
      split_ifs at hstep <;> cases hstep <;> exact h t'
  | set t key value area =>
    have hgrown {area : Option (Nat → Nat)} (hready : s.Ready t) : (s.grow t area).ReadsRight t' := by
      have hset := Tls.readsRight_set (h t') hready area none
      rwa [Function.update_eq_self_iff.2 hready.1.symm] at hset
    cases key with
    | ofNat key =>
      simp only [stepTls] at hstep
      split_ifs at hstep with hready
      · cases hstep
        exact Tls.readsRight_set (h t') hready area _
      · cases hstep
        exact hgrown hready
    | negSucc key =>
      simp only [stepTls] at hstep
      split_ifs at hstep with hready
      cases hstep
      exact hgrown hready
  | store t =>
    rw [stepTls] at hstep
    split at hstep
    · cases hstep
    · rename_i key value hstoring
      cases harea : s.tls t with
      | none =>
        rw [harea] at hstep
        cases hstep
        by_cases ht : t' = t
        · subst ht
          exact (h t').of_not_held (fun index hheld => by cases hstoring.symm.trans hheld.storing) rfl
        · exact (h t').keep rfl (update_of_ne ht ..) rfl (fun _ => rfl) fun _ _ _ _ hkey => hkey
      | some area =>
        rw [harea] at hstep
        cases hstep
        exact Tls.readsRight_store (h t') hstoring
  | create destructor =>
    rw [stepTls] at hstep
    split at hstep <;> cases hstep
    · exact h t'
    · exact Tls.readsRight_setKey (h t') fun _ _ _ _ _ => rfl
  | delete key =>
    cases key with
    | negSucc key => exact absurd hsafe.1 (by omega)
    | ofNat key =>
      simp only [stepTls] at hstep
      split_ifs at hstep with hmax <;> cases hstep
      · exact h t'
      · refine Tls.readsRight_setKey (h t') fun index hheld hreading hvalue heq => absurd ?_ hvalue
        exact hsafe.2 t' index (heq ▸ Nat.lt_of_not_le hmax) hheld.phase hreading (congrArg Int.ofNat heq)
  | exit t =>
    rw [stepTls] at hstep
    split_ifs at hstep with hrunning <;> cases hstep
    all_goals
      refine Tls.readsRight_setPhase (h t') (fun index hheld => ?_) _
      cases hrunning.2.symm.trans hheld.phase
  | exitStep t =>
    rw [stepTls] at hstep
    split at hstep
    · rename_i index hfree hphase
      by_cases hindex : index < pthreadKeyMax
      · rw [if_pos hindex] at hstep
        cases hreading : s.reading t with
        | key =>
          rw [hreading] at hstep
          cases hstep
          split_ifs with hused
          · refine Tls.readsRight_setReading (h t') fun _ => ⟨index, hfree, hphase, hindex, fun _ => ⟨hindex, hused⟩, fun data hdata => ?_⟩
            rw [Tls.reading_setReading, if_pos rfl] at hdata
            cases hdata
          · exact Tls.readsRight_nextKey (h t') index
        | word =>
          rw [hreading] at hstep
          cases hstep
          split_ifs with hvalue
          · obtain ⟨index', hheld⟩ := h t (by rw [hreading]; exact WalkRead.noConfusion)
            obtain rfl : index' = index := TlsPhase.exiting.inj (hheld.phase.symm.trans hphase)
            refine Tls.readsRight_setReading (h t') fun _ => ⟨index', hfree, hphase, hindex, hheld.used, fun data hdata => ?_⟩
            rw [Tls.reading_setReading, if_pos rfl] at hdata
            exact WalkRead.call.inj hdata ▸ ⟨rfl, hvalue⟩
          · exact Tls.readsRight_nextKey (h t') index
        | call data =>
          rw [hreading] at hstep
          cases hstep
          exact Tls.readsRight_nextKey (h t') index
      · rw [if_neg hindex] at hstep
        cases hstep
        by_cases ht : t' = t
        · subst ht
          refine (h t').of_not_held (fun index' hheld => ?_) rfl
          obtain rfl : index' = index := TlsPhase.exiting.inj (hheld.phase.symm.trans hphase)
          exact hindex hheld.bound
        · exact (h t').keep rfl rfl ((s.phase_setPhase t t' _).trans (if_neg ht))
            (fun key => congrArg (fun area : Option (Nat → Nat) => area.elim 0 (· key)) (update_of_ne ht ..)) fun _ _ _ _ hkey => hkey
    · cases hstep

/-- Threads get what they have stored, and destructors are called for what is left, in every run whose steps are safe. -/
theorem tlsRight_of_run (hrun : TlsRun TlsSafe trace s) : TlsRight trace :=
  (hrun.invariant (I := fun trace s => TlsInv trace s ∧ ∀ t, s.ReadsRight t) ⟨TlsInv.init n, fun _ hne => absurd rfl hne⟩
    fun _ _ _ _ _ h hsafe hstep => ⟨h.1.step h.2 hsafe hstep, Tls.readsRight_step h.2 hsafe hstep⟩).1.right

theorem TlsRun.exists_of_exec (n : Nat) (ok : Tls n → TlsOp n → Prop) [∀ s op, Decidable (ok s op)] (ops : List (TlsOp n))
    (found : List (TlsEvent n) → Bool) (h : ((Transition.exec stepTls ok (.init n) ops).any fun r => found r.1) = true) :
    ∃ trace s, TlsRun ok trace s ∧ found trace = true := Transition.exists_run_of_exec ops (fun trace _ => found trace) h

theorem tlsRight_of_run_exit :
    ∃ trace s, TlsRun (n := 2) TlsSafe trace s ∧
      trace = [.created 0 (some 5), .stored 0 0 7, .get 0 0 7, .get 1 0 0, .destroyed 0 0 5 7, .exited 0] ∧ TlsRight trace := by
  obtain ⟨trace, s, hrun, hfound⟩ := TlsRun.exists_of_exec 2 TlsSafe
    ([.create (some 5), .set 0 0 7 (some fun _ => 0), .store 0, .get 0 0, .get 1 0, .exit 0] ++ List.replicate 11 (.exitStep 0))
    (fun trace => decide (trace =
      [.created 0 (some 5), .stored 0 0 7, .get 0 0 7, .get 1 0 0, .destroyed 0 0 5 7, .exited 0])) (by decide +kernel)
  exact ⟨trace, s, hrun, of_decide_eq_true hfound, tlsRight_of_run hrun⟩

/-- Runs with no condition. A thread gets what was in the memory of its area; it gets what it has stored under a key that was deleted; and `pthread_exit` calls a destructor that is `NULL`. -/
theorem tlsRight_fails :
    (∃ trace s, TlsRun (n := 1) (fun _ _ => True) trace s ∧
      trace = [.created 0 none, .created 1 none, .stored 0 0 7, .get 0 1 9] ∧ ¬ TlsRight trace) ∧
    (∃ trace s, TlsRun (n := 1) (fun _ _ => True) trace s ∧
      trace = [.created 0 none, .stored 0 0 7, .deleted 0, .created 0 none, .get 0 0 7] ∧ ¬ TlsRight trace) ∧
    ∃ trace s, TlsRun (n := 1) (fun _ _ => True) trace s ∧
      trace = [.created 0 none, .stored 0 0 7, .fault] ∧ ¬ TlsRight trace := by
  refine ⟨?_, ?_, ?_⟩
  · obtain ⟨trace, s, hrun, hfound⟩ := TlsRun.exists_of_exec 1 (fun _ _ => True)
      [.create none, .create none, .set 0 0 7 (some fun _ => 9), .store 0, .get 0 1]
      (fun trace => decide (trace = [.created 0 none, .created 1 none, .stored 0 0 7, .get 0 1 9])) (by decide +kernel)
    have htrace := of_decide_eq_true hfound
    refine ⟨trace, s, hrun, htrace, fun hright => ?_⟩
    have hget : 9 = definedValue (0 : Fin 1) 1 [.created 0 none, .created 1 none, .stored 0 0 7] :=
      hright [.created 0 none, .created 1 none, .stored 0 0 7] (.get 0 1 9) [] htrace
    exact absurd hget (by decide)
  · obtain ⟨trace, s, hrun, hfound⟩ := TlsRun.exists_of_exec 1 (fun _ _ => True)
      [.create none, .set 0 0 7 (some fun _ => 0), .store 0, .delete 0, .create none, .get 0 0]
      (fun trace => decide (trace = [.created 0 none, .stored 0 0 7, .deleted 0, .created 0 none, .get 0 0 7]))
      (by decide +kernel)
    have htrace := of_decide_eq_true hfound
    refine ⟨trace, s, hrun, htrace, fun hright => ?_⟩
    have hget : 7 = definedValue (0 : Fin 1) 0 [.created 0 none, .stored 0 0 7, .deleted 0, .created 0 none] :=
      hright [.created 0 none, .stored 0 0 7, .deleted 0, .created 0 none] (.get 0 0 7) [] htrace
    exact absurd hget (by decide)
  · obtain ⟨trace, s, hrun, hfound⟩ := TlsRun.exists_of_exec 1 (fun _ _ => True)
      [.create none, .set 0 0 7 (some fun _ => 0), .store 0, .exit 0, .exitStep 0, .exitStep 0, .exitStep 0]
      (fun trace => decide (trace = [.created 0 none, .stored 0 0 7, .fault])) (by decide +kernel)
    have htrace := of_decide_eq_true hfound
    exact ⟨trace, s, hrun, htrace, fun hright => hright [.created 0 none, .stored 0 0 7] .fault [] htrace⟩

end RtThread
