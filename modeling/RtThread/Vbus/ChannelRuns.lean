import RtThread.Vbus.Channels

/-!
# What the peer and the timeouts can do to the channel table

The table is safe as long as these things do not happen: a packet for channel 32, an acknowledgement of SET with a number beyond the table, and a request that fails in its handshake and finds in its slot the number of a connected channel that it has not taken. And nothing stops as long as no packet names a session without a request, no ENABLE of no length is answered, and no request ends well with channel 0.
-/

namespace RtThread

open Function

/-- The session in which `_chn0_actor` reads the request. -/
def namedSess (s : VbusTable) (dp : List UInt8) : Option (Fin 16) :=
  match Chn0Cmd.ofByte (dp.getD 0 0), Chn0Cmd.ofByte (dp.getD 1 0) with
  | some .enable, _ => sessFind s (cString dp.tail) .listening
  | some .set, _ => sessFind s (cString dp.tail) .establishing
  | some .ack, some .set => ackedSess s dp
  | some .nak, some .enable => sessFind s (cString (dp.drop 2)) .establishing
  | _, _ => none

/-- `dsize - 1` is below zero in the answer to an ENABLE. -/
def AnswersNothing (s : VbusTable) (dp : List UInt8) (dsize : Nat) (malloc : Bool) : Prop :=
  dsize = 0 ∧ malloc = true ∧ sessFind s (cString dp.tail) .listening ≠ none ∧
    ∃ chnr : Nat, chnr < 32 ∧ s.chnStatus chnr = .available

instance (s : VbusTable) (dp : List UInt8) (dsize : Nat) (malloc : Bool) : Decidable (AnswersNothing s dp dsize malloc) := by
  unfold AnswersNothing
  infer_instance

def ChnCond (s : VbusTable) : ChnOp → Prop
  | .receive id dp dsize malloc =>
    id ≠ 32 ∧
      (id = 0 ∧ dsize ≤ 60 →
        (Chn0Cmd.ofByte (dp.getD 0 0) = some .ack ∧ Chn0Cmd.ofByte (dp.getD 1 0) = some .set ∧ ackedSess s dp ≠ none →
          ackedChnr dp < 32) ∧
        (∀ i, namedSess s dp = some i → (s.sess i).req ≠ none) ∧
        ¬ (Chn0Cmd.ofByte (dp.getD 0 0) = some .enable ∧ AnswersNothing s dp dsize malloc))
  | .finish i =>
    ((s.sess i).failed = true → 0 ≤ (s.sess i).chnr ∧ (s.sess i).chnr < 32 ∧
      (chnConnected s (s.sess i).chnr = true → s.takenBy (s.sess i).chnr = some (s.sess i).serial)) ∧
      ((s.sess i).call = some (.ended 0) → (s.sess i).chnr ≠ 0)
  | _ => True

/-- The caller, the thread or the packet of the operation is there. -/
def ChnOp.Attempted (s : VbusTable) : ChnOp → Prop
  | .request .. => True
  | .posted i _ => (s.sess i).call = some .posting
  | .timeout i => (s.sess i).call = some .waiting
  | .finish i => ∃ err, (s.sess i).call = some (.ended err)
  | .close chnr => 0 < chnr ∧ chnr < 32
  | .receive .. => s.actor = .idle
  | .replied _ => s.actor ≠ .idle

instance (s : VbusTable) (op : ChnOp) : Decidable (ChnCond s op) := by
  cases op <;> unfold ChnCond <;> infer_instance

abbrev ChnRun (mem : Int → ChnStatus) : List ChnEvent → VbusTable → Prop :=
  Transition.Run stepChn ChnCond (.init mem)

def InTable (events : List ChnEvent) : Prop := ∀ chnr, .access chnr ∈ events → 0 ≤ chnr ∧ chnr < 32

/-- What a step from `s` to `s'` must not do. -/
structure SafeStep (s : VbusTable) (op : ChnOp) (s' : VbusTable) (events : List ChnEvent) : Prop where
  access : InTable events
  outside : ∀ chnr, chnr < 1 ∨ 32 ≤ chnr → s'.chnStatus chnr = s.chnStatus chnr
  /-- A request that ends resets a connected channel only where it took the channel itself. -/
  expiry : ∀ i, op = .finish i → ∀ chnr, chnConnected s chnr = true → chnConnected s' chnr = false →
    s.takenBy chnr = some (s.sess i).serial

/-! ## What an action does to the table -/

variable {s s' : VbusTable} {op : ChnOp} {events trace : List ChnEvent} {i : Fin 16} {chnr : Int} {mem : Int → ChnStatus}
  {dp : List UInt8} {dsize : Nat} {malloc : Bool} {st : ChnStatus} {f : VbusSess → VbusSess}

@[simp] theorem inTable_nil : InTable [] := fun _ h => by cases h

@[simp] theorem inTable_access : InTable (.access chnr :: events) ↔ (0 ≤ chnr ∧ chnr < 32) ∧ InTable events := by
  simp [InTable]

@[simp] theorem inTable_post {data : List UInt8} : InTable (.post data :: events) ↔ InTable events := by simp [InTable]

@[simp] theorem inTable_data {id : UInt8} : InTable (.data id :: events) ↔ InTable events := by simp [InTable]

@[simp] theorem inTable_returned {result : Int} : InTable (.returned result :: events) ↔ InTable events := by simp [InTable]

theorem InTable.append {events' : List ChnEvent} (h : InTable events) (h' : InTable events') : InTable (events ++ events') := by
  intro chnr hmem
  rcases List.mem_append.1 hmem with hmem | hmem
  · exact h chnr hmem
  · exact h' chnr hmem

/-- The table is as `rt_vbus_init` leaves it outside of the channels that are handed out. -/
structure ChnInv (mem : Int → ChnStatus) (s : VbusTable) : Prop where
  outside : ∀ chnr, chnr < 1 ∨ 32 ≤ chnr → s.chnStatus chnr = (VbusTable.init mem).chnStatus chnr
  enabling : ∀ i chnr, s.actor = .enabling i chnr → 1 ≤ chnr ∧ chnr < 32
  setting : ∀ i chnr, s.actor = .setting i chnr → 1 ≤ chnr ∧ chnr < 32
  zero_free : s.takenBy 0 = none

theorem ChnInv.zero (h : ChnInv mem s) : s.chnStatus 0 = .established := h.outside 0 (.inl (by decide))

theorem ChnInv.connected (h : ChnInv mem s) : chnConnected s 0 = true := by
  rw [chnConnected, h.zero]
  rfl

structure ChnFrame (s s' : VbusTable) (events : List ChnEvent) : Prop where
  access : InTable events
  outside : ∀ chnr, chnr < 1 ∨ 32 ≤ chnr → s'.chnStatus chnr = s.chnStatus chnr
  enabling : ∀ i chnr, s'.actor = .enabling i chnr → s.actor = .enabling i chnr ∨ 1 ≤ chnr ∧ chnr < 32
  setting : ∀ i chnr, s'.actor = .setting i chnr → s.actor = .setting i chnr ∨ 1 ≤ chnr ∧ chnr < 32
  taken : s'.takenBy 0 = s.takenBy 0

theorem ChnInv.step (h : ChnInv mem s) (ht : ChnFrame s s' events) : ChnInv mem s' := by
  refine ⟨fun chnr hout => (ht.outside chnr hout).trans (h.outside chnr hout), fun i chnr hactor => ?_,
    fun i chnr hactor => ?_, ht.taken.trans h.zero_free⟩
  · rcases ht.enabling i chnr hactor with hbefore | hrange
    · exact h.enabling i chnr hbefore
    · exact hrange
  · rcases ht.setting i chnr hactor with hbefore | hrange
    · exact h.setting i chnr hbefore
    · exact hrange

theorem setStatus_outside (hchnr : (1 ≤ chnr ∧ chnr < 32) ∨ s.chnStatus chnr = st) (other : Int)
    (hout : other < 1 ∨ 32 ≤ other) : (s.setStatus chnr st).chnStatus other = s.chnStatus other := by
  by_cases heq : other = chnr
  · subst heq
    rcases hchnr with hrange | hsame
    · omega
    · exact (update_self ..).trans hsame.symm
  · exact update_of_ne heq ..

@[simp] theorem take_chnStatus : (s.take i chnr).chnStatus = s.chnStatus := by
  unfold VbusTable.take
  split_ifs <;> rfl

@[simp] theorem take_actor : (s.take i chnr).actor = s.actor := by
  unfold VbusTable.take
  split_ifs <;> rfl

theorem take_zero (hzero : s.chnStatus 0 = .established) : (s.take i chnr).takenBy 0 = s.takenBy 0 := by
  unfold VbusTable.take
  split_ifs with havailable
  · refine update_of_ne (fun heq => ?_) ..
    rw [← heq, hzero] at havailable
    cases havailable
  · rfl

/-- The thread of `_bus_in_entry` does not get hold of a channel. -/
def QuietActor (s s' : VbusTable) : Prop := s'.actor = s.actor ∨ s'.actor = .replying ∨ s'.actor = .idle

theorem ChnFrame.of_quiet (hactor : QuietActor s s') (haccess : InTable events)
    (houtside : ∀ chnr, chnr < 1 ∨ 32 ≤ chnr → s'.chnStatus chnr = s.chnStatus chnr)
    (htaken : s'.takenBy 0 = s.takenBy 0) : ChnFrame s s' events := by
  refine ⟨haccess, houtside, fun i chnr h => ?_, fun i chnr h => ?_, htaken⟩
  all_goals rcases hactor with hactor | hactor | hactor <;> rw [hactor] at h
  · exact .inl h
  · cases h
  · cases h
  · exact .inl h
  · cases h
  · cases h

theorem ChnFrame.refl (haccess : InTable events) : ChnFrame s s events := .of_quiet (.inl rfl) haccess (fun _ _ => rfl) rfl

theorem ChnFrame.setSess (haccess : InTable events) : ChnFrame s (s.setSess i f) events :=
  .of_quiet (.inl rfl) haccess (fun _ _ => rfl) rfl

theorem ChnFrame.setStatus (hchnr : 1 ≤ chnr ∧ chnr < 32) (haccess : InTable events) :
    ChnFrame s (s.setStatus chnr st) events :=
  .of_quiet (.inl rfl) haccess (setStatus_outside (.inl hchnr)) rfl

theorem ChnFrame.echo {s₁ : VbusTable} {first : Chn0Cmd} (h : ChnFrame s s₁ []) :
    ChnFrame s (chn0EchoWith s₁ first dp dsize malloc .replying).1 (chn0EchoWith s₁ first dp dsize malloc .replying).2 := by
  unfold chn0EchoWith
  split_ifs
  · exact .of_quiet (.inr (.inl rfl)) (by simp) h.outside h.taken
  · exact h

theorem ChnFrame.access_cons (hchnr : 0 ≤ chnr ∧ chnr < 32) (h : ChnFrame s s' events) :
    ChnFrame s s' (.access chnr :: events) :=
  ⟨inTable_access.2 ⟨hchnr, h.access⟩, h.outside, h.enabling, h.setting, h.taken⟩

theorem ChnFrame.of_eq {r : VbusTable × List ChnEvent} (h : ChnFrame s r.1 r.2) (hs : some r = some (s', events)) :
    ChnFrame s s' events := by
  obtain rfl := Option.some.inj hs
  exact h

/-! ## The packets on channel 0 -/

theorem chnFrame_nak : ChnFrame s (chn0Nak s dp dsize malloc).1 (chn0Nak s dp dsize malloc).2 :=
  ChnFrame.echo (.refl inTable_nil)

theorem chnFrame_enable (hs : chn0Enable s dp dsize malloc = some (s', events)) : ChnFrame s s' events := by
  unfold chn0Enable at hs
  split at hs
  · exact chnFrame_nak.of_eq hs
  split at hs
  · cases hs
  split at hs
  · exact chnFrame_nak.of_eq hs
  rename_i free hfree
  have hlt : free < 32 := List.mem_range.1 (List.mem_of_find?_eq_some hfree)
  split_ifs at hs with hmalloc hassert
  · cases hs
    refine .access_cons (by omega) ⟨by simp, fun _ _ => rfl, fun j chnr hactor => .inr ?_, fun j chnr hactor => ?_, rfl⟩
    · obtain ⟨-, rfl⟩ := ActorCall.enabling.inj hactor
      omega
    · cases hactor
  · cases hs
    exact (ChnFrame.refl inTable_nil).access_cons (by omega)

theorem chnFrame_set (hs : chn0Set s dp dsize malloc = some (s', events)) : ChnFrame s s' events := by
  unfold chn0Set at hs
  split at hs
  · cases hs
    exact .refl inTable_nil
  split at hs
  · cases hs
  dsimp only at hs
  split_ifs at hs with hrange hbusy
  · cases hs
    exact .refl inTable_nil
  · cases hs
    exact chnFrame_nak.access_cons (by omega)
  · cases hs
    refine ChnFrame.access_cons (by omega) ?_
    unfold chn0EchoWith
    split_ifs
    · refine ⟨by simp, fun _ _ => rfl, fun j chnr hactor => ?_, fun j chnr hactor => .inr ?_, rfl⟩
      · cases hactor
      · obtain ⟨-, rfl⟩ := ActorCall.setting.inj hactor
        omega
    · exact .refl inTable_nil

theorem chnFrame_ack (h : ChnInv mem s)
    (hacked : Chn0Cmd.ofByte (dp.getD 1 0) = some .set → ackedSess s dp ≠ none → ackedChnr dp < 32)
    (hs : chn0Ack s dp = some (s', events)) : ChnFrame s s' events := by
  unfold chn0Ack at hs
  split at hs
  · rename_i hset
    split at hs
    · cases hs
      exact .refl inTable_nil
    rename_i j hj
    have hlt := hacked hset (by rw [hj]; exact Option.some_ne_none _)
    split at hs
    · cases hs
    cases hs
    have hchnr : (1 ≤ (ackedChnr dp : Int) ∧ (ackedChnr dp : Int) < 32) ∨ s.chnStatus (ackedChnr dp) = .established := by
      by_cases hzero : ackedChnr dp = 0
      · rw [hzero]
        exact .inr h.zero
      · exact .inl (by omega)
    refine .access_cons (by omega) (.of_quiet (.inl ?_) inTable_nil (fun other hout => ?_) ?_)
    · exact take_actor
    · refine (setStatus_outside (s := (s.take j (ackedChnr dp)).setSess j _) ?_ other hout).trans ?_
      · simpa [VbusTable.setSess] using hchnr
      · exact congrFun take_chnStatus other
    · exact take_zero h.zero
  · dsimp only at hs
    split_ifs at hs with hrange
    · cases hs
      exact .refl inTable_nil
    · cases hs
      exact (ChnFrame.setStatus (by omega) inTable_nil).access_cons (by omega)
  · cases hs
    exact .refl inTable_nil

theorem chnFrame_disable : ChnFrame s (chn0Disable s dp dsize malloc).1 (chn0Disable s dp dsize malloc).2 := by
  unfold chn0Disable
  dsimp only
  split_ifs with hrange
  · exact .refl inTable_nil
  · exact (ChnFrame.echo (.setStatus (by omega) inTable_nil)).access_cons (by omega)

theorem chnFrame_flow {before after : ChnStatus} :
    ChnFrame s (chn0Flow s dp before after).1 (chn0Flow s dp before after).2 := by
  unfold chn0Flow
  dsimp only
  split_ifs with hrange hstatus
  · exact .refl inTable_nil
  · exact (ChnFrame.refl inTable_nil).access_cons (by omega)
  · exact (ChnFrame.setStatus (by omega) inTable_nil).access_cons (by omega)

theorem chnFrame_nakActor (hs : chn0NakActor s dp = some (s', events)) : ChnFrame s s' events := by
  unfold chn0NakActor at hs
  split at hs
  · split at hs
    · cases hs
      exact .refl inTable_nil
    split at hs
    · cases hs
    cases hs
    exact .setSess inTable_nil
  · cases hs
    exact .refl inTable_nil

theorem chnFrame_actor (h : ChnInv mem s)
    (hacked : Chn0Cmd.ofByte (dp.getD 0 0) = some .ack → Chn0Cmd.ofByte (dp.getD 1 0) = some .set →
      ackedSess s dp ≠ none → ackedChnr dp < 32)
    (hs : chn0Actor s dp dsize malloc = some (s', events)) : ChnFrame s s' events := by
  unfold chn0Actor at hs
  split at hs
  · exact chnFrame_enable hs
  · exact chnFrame_set hs
  · rename_i hack
    exact chnFrame_ack h (hacked hack) hs
  · exact chnFrame_disable.of_eq hs
  · exact chnFrame_flow.of_eq hs
  · exact chnFrame_flow.of_eq hs
  · exact chnFrame_nakActor hs
  · cases hs
    exact .refl inTable_nil

theorem chnFrame_replied {err : Int} (h : ChnInv mem s) (hs : chn0Replied s err = some (s', events)) :
    ChnFrame s s' events := by
  unfold chn0Replied at hs
  dsimp only at hs
  split at hs
  · cases hs
  · cases hs
    exact .of_quiet (.inr (.inr rfl)) inTable_nil (fun _ _ => rfl) rfl
  · rename_i j chnr hactor
    have hrange := h.enabling j chnr hactor
    split_ifs at hs
    · cases hs
      refine .access_cons (by omega) (.of_quiet (.inr (.inr ?_)) inTable_nil (fun other hout => ?_) ?_)
      · exact take_actor
      · exact (setStatus_outside (.inl (by omega)) other hout).trans (congrFun take_chnStatus other)
      · exact take_zero h.zero
    · cases hs
      exact .of_quiet (.inr (.inr rfl)) inTable_nil (fun _ _ => rfl) rfl
  · rename_i j chnr hactor
    have hrange := h.setting j chnr hactor
    split_ifs at hs
    · cases hs
      refine .access_cons (by omega) (.of_quiet (.inr (.inr ?_)) inTable_nil (fun other hout => ?_) ?_)
      · exact take_actor
      · exact (setStatus_outside (.inl (by omega)) other hout).trans (congrFun take_chnStatus other)
      · exact take_zero h.zero
    · cases hs
      exact .of_quiet (.inr (.inr rfl)) inTable_nil (fun _ _ => rfl) rfl

theorem chnFrame_receive {id : UInt8} (h : ChnInv mem s) (hok : ChnCond s (.receive id dp dsize malloc))
    (hs : busInEntry s id dp dsize malloc = some (s', events)) : ChnFrame s s' events := by
  obtain ⟨hid, hacked⟩ := hok
  unfold busInEntry at hs
  split_ifs at hs with hlarge hconnected hzero hbig hmalloc
  · cases hs
    exact .refl inTable_nil
  all_goals
    have hlt : id.toNat < 32 := by
      have hne : id.toNat ≠ 32 := fun heq => hid (UInt8.toNat_inj.1 heq)
      rw [UInt8.lt_iff_toNat_lt] at hlarge
      simp only [UInt8.reduceToNat] at hlarge
      omega
  · cases hs
    exact (ChnFrame.refl inTable_nil).access_cons (by omega)
  · cases hs
    exact (ChnFrame.refl inTable_nil).access_cons (by omega)
  · obtain ⟨r, hr, heq⟩ := Option.map_eq_some_iff.1 hs
    cases heq
    refine .access_cons (by omega) (chnFrame_actor h (fun hack hset hsess => ?_) hr)
    exact (hacked ⟨hzero, by omega⟩).1 ⟨hack, hset, hsess⟩
  · cases hs
    exact (ChnFrame.refl (by simp)).access_cons (by omega)
  · cases hs
    exact (ChnFrame.refl inTable_nil).access_cons (by omega)

/-! ## The requests -/

theorem chnFrame_request {req : VbusRequest} :
    ChnFrame s (rtVbusRequestChn s req malloc).1 (rtVbusRequestChn s req malloc).2 := by
  unfold rtVbusRequestChn
  split
  · exact .refl (by simp)
  · dsimp only
    split_ifs
    all_goals exact .of_quiet (.inl rfl) (by simp) (fun _ _ => rfl) rfl

theorem chnFrame_close {c : UInt8} (hs : rtVbusCloseChn s c = some (s', events)) : ChnFrame s s' events := by
  unfold rtVbusCloseChn at hs
  split_ifs at hs with hrange
  all_goals
    obtain ⟨hpos, hlt⟩ := hrange
    rw [UInt8.lt_iff_toNat_lt] at hpos hlt
    simp only [UInt8.reduceToNat] at hpos hlt
    cases hs
  · exact (ChnFrame.setStatus (by omega) inTable_nil).access_cons (by omega)
  · exact (ChnFrame.refl inTable_nil).access_cons (by omega)
  · exact (ChnFrame.setStatus (by omega) (by simp)).access_cons (by omega)

theorem chnFrame_posted {err : Int} (hs : requestPosted s i err = some (s', events)) : ChnFrame s s' events := by
  unfold requestPosted at hs
  split at hs
  · cases hs
    exact .setSess inTable_nil
  · cases hs

theorem chnFrame_timeout (hs : requestTimeout s i = some (s', events)) : ChnFrame s s' events := by
  unfold requestTimeout at hs
  split at hs
  · cases hs
    exact .setSess inTable_nil
  · cases hs

theorem requestFinish_cases (hs : requestFinish s i = some (s', events)) :
    s'.actor = s.actor ∧ s'.takenBy = s.takenBy ∧ ∃ result,
      ((s.sess i).failed = true ∧ s'.chnStatus = (s.setStatus (s.sess i).chnr .available).chnStatus ∧
          events = [.access (s.sess i).chnr, .returned result] ∨
        (s.sess i).failed = false ∧ s'.chnStatus = s.chnStatus ∧ events = [.returned result]) := by
  unfold requestFinish at hs
  dsimp only at hs
  split at hs
  · rename_i err hcall
    split_ifs at hs with herr hst hchnr
    all_goals cases hs
    · exact ⟨rfl, rfl, _, .inl ⟨by simp [VbusSess.failed, hcall, herr, hst], rfl, rfl⟩⟩
    · exact ⟨rfl, rfl, _, .inr ⟨by simp [VbusSess.failed, hcall, hst], rfl, rfl⟩⟩
    · exact ⟨rfl, rfl, _, .inr ⟨by simp [VbusSess.failed, hcall, Decidable.not_not.1 herr], rfl, rfl⟩⟩
  · cases hs

theorem chnFrame_finish (h : ChnInv mem s) (hok : ChnCond s (.finish i)) (hs : requestFinish s i = some (s', events)) :
    ChnFrame s s' events := by
  obtain ⟨hactor, htakenBy, result, ⟨hfailed, hstatus, rfl⟩ | ⟨-, hstatus, rfl⟩⟩ := requestFinish_cases hs
  · obtain ⟨hlow, hhigh, htaken⟩ := hok.1 hfailed
    have hpos : (s.sess i).chnr ≠ 0 := by
      intro hzero
      rw [hzero, h.zero_free] at htaken
      cases htaken h.connected
    refine .access_cons ⟨hlow, hhigh⟩ (.of_quiet (.inl hactor) (by simp) (fun other hout => ?_) (congrFun htakenBy 0))
    rw [hstatus]
    exact setStatus_outside (.inl (by omega)) other hout
  · exact .of_quiet (.inl hactor) (by simp) (fun other _ => congrFun hstatus other) (congrFun htakenBy 0)

theorem chnFrame_step (h : ChnInv mem s) (hok : ChnCond s op) (hs : stepChn s op = some (s', events)) :
    ChnFrame s s' events := by
  cases op with
  | request req malloc => exact chnFrame_request.of_eq hs
  | posted i err => exact chnFrame_posted hs
  | timeout i => exact chnFrame_timeout hs
  | finish i => exact chnFrame_finish h hok hs
  | close chnr => exact chnFrame_close hs
  | receive id dp dsize malloc =>
    unfold stepChn at hs
    split_ifs at hs
    exact chnFrame_receive h hok hs
  | replied err => exact chnFrame_replied h hs

/-! ## Runs -/

theorem ChnInv.init : ChnInv mem (.init mem) := by
  refine ⟨fun _ _ => rfl, fun i chnr h => ?_, fun i chnr h => ?_, rfl⟩ <;> cases h

theorem ChnRun.inv (hrun : ChnRun mem trace s) : ChnInv mem s ∧ InTable trace := by
  refine hrun.invariant (I := fun trace s => ChnInv mem s ∧ InTable trace) ⟨.init, inTable_nil⟩ ?_
  intro trace s op s' events ⟨h, htrace⟩ hok hs
  have hframe := chnFrame_step h hok hs
  exact ⟨h.step hframe, htrace.append hframe.access⟩

theorem safeStep_of_cond (h : ChnInv mem s) (hok : ChnCond s op) (hs : stepChn s op = some (s', events)) :
    SafeStep s op s' events := by
  have hframe := chnFrame_step h hok hs
  refine ⟨hframe.access, hframe.outside, ?_⟩
  rintro i rfl chnr hbefore hafter
  obtain ⟨-, -, result, ⟨hfailed, hstatus, -⟩ | ⟨-, hstatus, -⟩⟩ := requestFinish_cases hs
  · have heq : chnr = (s.sess i).chnr := by
      by_contra hne
      rw [chnConnected, hstatus] at hafter
      simp only [VbusTable.setStatus, update_of_ne hne] at hafter
      rw [chnConnected, hafter] at hbefore
      cases hbefore
    rw [heq] at hbefore ⊢
    exact (hok.1 hfailed).2.2 hbefore
  · rw [chnConnected, hstatus, ← chnConnected, hbefore] at hafter
    cases hafter

theorem busInEntry_zero (h : ChnInv mem s) (hsize : dsize ≤ 60) : busInEntry s 0 dp dsize malloc =
    (chn0Actor s dp dsize malloc).map fun r => (r.1, .access 0 :: r.2) := by
  have hconnected : chnConnected s (0 : UInt8).toNat = true := h.connected
  unfold busInEntry
  rw [hconnected, if_neg (by decide), if_neg (by decide), if_pos rfl, if_neg (by omega)]
  rfl

theorem access_of_beyond (hs : busInEntry s 32 dp dsize malloc = some (s', events)) : .access 32 ∈ events := by
  have hne : (32 : UInt8) ≠ 0 := by decide
  unfold busInEntry at hs
  rw [if_neg (by decide), if_neg hne] at hs
  split_ifs at hs
  all_goals
    obtain ⟨-, rfl⟩ := Prod.mk.inj (Option.some.inj hs)
    exact List.mem_cons_self

theorem access_of_acked (hset : Chn0Cmd.ofByte (dp.getD 1 0) = some .set) (hsess : ackedSess s dp ≠ none)
    (hs : chn0Ack s dp = some (s', events)) : .access (ackedChnr dp : Int) ∈ events := by
  obtain ⟨j, hj⟩ := Option.ne_none_iff_exists'.1 hsess
  simp only [chn0Ack, hset, hj] at hs
  split at hs
  · cases hs
  · obtain ⟨-, rfl⟩ := Prod.mk.inj (Option.some.inj hs)
    exact List.mem_singleton_self _

/-! ## Where nothing stops -/

theorem chn0Enable_isSome_iff (h : ChnInv mem s) : (chn0Enable s dp dsize malloc).isSome ↔
    (∀ i, sessFind s (cString dp.tail) .listening = some i → (s.sess i).req ≠ none) ∧ ¬ AnswersNothing s dp dsize malloc := by
  unfold chn0Enable AnswersNothing
  cases hsess : sessFind s (cString dp.tail) .listening with
  | none => simp
  | some i =>
    cases hreq : (s.sess i).req with
    | none => simp [hreq]
    | some req =>
      cases hfree : (List.range 32).find? fun chnr : Nat => s.chnStatus chnr = .available with
      | none =>
        have hfull : ¬ ∃ chnr : Nat, chnr < 32 ∧ s.chnStatus chnr = .available := by
          rintro ⟨chnr, hlt, hst⟩
          exact List.find?_eq_none.1 hfree chnr (List.mem_range.2 hlt) (decide_eq_true hst)
        simp [hreq, hfull]
      | some chnr =>
        have hst : s.chnStatus chnr = .available := by simpa using List.find?_some hfree
        have hpos : chnr ≠ 0 := by
          rintro rfl
          rw [Nat.cast_zero, h.zero] at hst
          cases hst
        have hexists : ∃ chnr : Nat, chnr < 32 ∧ s.chnStatus chnr = .available :=
          ⟨chnr, List.mem_range.1 (List.mem_of_find?_eq_some hfree), hst⟩
        cases malloc <;> by_cases hsize : dsize = 0 <;> simp [hreq, hsize, hpos, hexists]

theorem chn0Actor_isSome_iff (h : ChnInv mem s) : (chn0Actor s dp dsize malloc).isSome ↔
    (∀ i, namedSess s dp = some i → (s.sess i).req ≠ none) ∧
      ¬ (Chn0Cmd.ofByte (dp.getD 0 0) = some .enable ∧ AnswersNothing s dp dsize malloc) := by
  have hread : ∀ (found : Option (Fin 16)) (r : Option (VbusTable × List ChnEvent)), (found = none → r.isSome) →
      (∀ i, found = some i → (s.sess i).req = none → r = none) → (∀ i req, found = some i → (s.sess i).req = some req → r.isSome) →
      (r.isSome ↔ ∀ i, found = some i → (s.sess i).req ≠ none) := by
    intro found r hnone hnull hsome
    cases found with
    | none => simpa using hnone rfl
    | some i =>
      cases hreq : (s.sess i).req with
      | none => simp [hnull i rfl hreq, hreq]
      | some req => simp [hsome i req rfl hreq, hreq]
  unfold chn0Actor namedSess
  cases hcmd : Chn0Cmd.ofByte (dp.getD 0 0) with
  | none => simp
  | some cmd =>
    cases cmd with
    | enable => simpa using chn0Enable_isSome_iff h
    | set =>
      simp only [reduceCtorEq, Option.some.injEq, false_and, not_false_eq_true, and_true]
      refine hread _ _ (fun hfound => ?_) (fun i hfound hreq => ?_) fun i req hfound hreq => ?_ <;> rw [chn0Set, hfound]
      · rfl
      · simp [hreq]
      · dsimp only
        rw [hreq]
        dsimp only
        split_ifs <;> rfl
    | ack =>
      simp only [reduceCtorEq, Option.some.injEq, false_and, not_false_eq_true, and_true]
      unfold chn0Ack
      cases hsecond : Chn0Cmd.ofByte (dp.getD 1 0) with
      | none => simp
      | some second =>
        cases second with
        | set =>
          dsimp only
          exact hread _ _ (fun hfound => by simp [hfound]) (fun i hfound hreq => by simp [hfound, hreq]) fun i req hfound hreq => by simp [hfound, hreq]
        | disable => dsimp only; split_ifs <;> simp
        | _ => simp
    | nak =>
      simp only [reduceCtorEq, Option.some.injEq, false_and, not_false_eq_true, and_true]
      unfold chn0NakActor
      cases hsecond : Chn0Cmd.ofByte (dp.getD 1 0) with
      | none => simp
      | some second =>
        cases second with
        | enable =>
          dsimp only
          exact hread _ _ (fun hfound => by simp [hfound]) (fun i hfound hreq => by simp [hfound, hreq]) fun i req hfound hreq => by simp [hfound, hreq]
        | _ => simp
    | _ => simp

theorem exists_step_of_cond (h : ChnInv mem s) (hop : op.Attempted s) (hok : ChnCond s op) :
    ∃ s' events, stepChn s op = some (s', events) := by
  suffices hsome : (stepChn s op).isSome by
    obtain ⟨⟨s', events⟩, hs⟩ := Option.isSome_iff_exists.1 hsome
    exact ⟨s', events, hs⟩
  cases op with
  | request req malloc => rfl
  | posted i err | timeout i =>
    simp only [ChnOp.Attempted] at hop
    simp only [stepChn, requestPosted, requestTimeout, hop]
    rfl
  | finish i =>
    obtain ⟨err, hcall⟩ := hop
    simp only [stepChn, requestFinish, hcall]
    split_ifs with herr hst hzero
    · rfl
    · rfl
    · rw [Decidable.not_not.1 herr] at hcall
      exact absurd hzero (hok.2 hcall)
    · rfl
  | close chnr =>
    simp only [ChnOp.Attempted] at hop
    simp only [stepChn, rtVbusCloseChn]
    rw [if_pos hop]
    split_ifs <;> rfl
  | receive id dp dsize malloc =>
    have hidle : s.actor = .idle := hop
    simp only [stepChn, busInEntry]
    rw [if_pos hidle]
    split_ifs with hlarge hconnected hzero hbig hmalloc
    · rfl
    · rfl
    · rfl
    · rw [Option.isSome_map]
      exact (chn0Actor_isSome_iff h).2 (hok.2 ⟨hzero, Nat.le_of_not_lt hbig⟩).2
    · rfl
    · rfl
  | replied err =>
    simp only [stepChn, chn0Replied]
    cases hactor : s.actor with
    | idle => exact absurd hactor hop
    | replying => rfl
    | enabling i chnr | setting i chnr =>
      dsimp only
      split_ifs <;> rfl

theorem cond_of_safeStep (h : ChnInv mem s) (hsafe : SafeStep s op s' events) (hs : stepChn s op = some (s', events)) :
    ChnCond s op := by
  cases op with
  | request _ _ => trivial
  | posted _ _ => trivial
  | timeout _ => trivial
  | close _ => trivial
  | replied _ => trivial
  | finish i =>
    refine ⟨fun hfailed => ?_, fun hended hzero => ?_⟩
    · obtain ⟨-, -, result, ⟨-, hstatus, rfl⟩ | ⟨hnot, -, -⟩⟩ := requestFinish_cases hs
      · obtain ⟨hlow, hhigh⟩ := hsafe.access (s.sess i).chnr (by simp)
        refine ⟨hlow, hhigh, fun hconnected => hsafe.expiry i rfl _ hconnected ?_⟩
        rw [chnConnected, hstatus]
        simp [VbusTable.setStatus]
      · rw [hfailed] at hnot
        cases hnot
    · simp [stepChn, requestFinish, hended, hzero] at hs
  | receive id dp dsize malloc =>
    unfold stepChn at hs
    dsimp only at hs
    split_ifs at hs with hidle
    refine ⟨?_, ?_⟩
    · rintro rfl
      exact absurd (hsafe.access 32 (access_of_beyond hs)).2 (by decide)
    · rintro ⟨rfl, hsize⟩
      rw [busInEntry_zero h hsize] at hs
      obtain ⟨r, hr, heq⟩ := Option.map_eq_some_iff.1 hs
      obtain ⟨-, rfl⟩ := Prod.mk.inj heq
      refine ⟨fun ⟨hack, hset, hsess⟩ => ?_, (chn0Actor_isSome_iff h).1 (hr ▸ rfl)⟩
      rw [chn0Actor, hack] at hr
      have hlt := (hsafe.access _ (List.mem_cons_of_mem _ (access_of_acked hset hsess hr))).2
      omega

/-- In every run that meets the condition, channel 0 is established, no other memory than that of channels 1 to 31 has changed and no table was indexed past its bounds. And the condition is exact: a further operation comes to its end and is safe if and only if it meets it. -/
theorem vbusTable_safe (hrun : ChnRun mem trace s) :
    s.chnStatus 0 = .established ∧
      (∀ chnr, chnr < 1 ∨ 32 ≤ chnr → s.chnStatus chnr = (VbusTable.init mem).chnStatus chnr) ∧
      (∀ chnr, .access chnr ∈ trace → 0 ≤ chnr ∧ chnr < 32) ∧
      ∀ op : ChnOp, op.Attempted s →
        ((∃ s' events, stepChn s op = some (s', events) ∧ SafeStep s op s' events) ↔ ChnCond s op) := by
  obtain ⟨h, htrace⟩ := ChnRun.inv hrun
  refine ⟨h.zero, h.outside, htrace, fun op hop => ⟨fun ⟨s', events, hs, hsafe⟩ => ?_, fun hok => ?_⟩⟩
  · exact cond_of_safeStep h hsafe hs
  · obtain ⟨s', events, hs⟩ := exists_step_of_cond h hop hok
    exact ⟨s', events, hs, safeStep_of_cond h hok hs⟩

theorem exists_chnRun (ok : VbusTable → ChnOp → Prop) [∀ s op, Decidable (ok s op)] (ops : List ChnOp)
    (found : List ChnEvent → VbusTable → Bool)
    (h : ((Transition.exec stepChn ok (.init fun _ => .available) ops).any fun r => found r.1 r.2) = true) :
    ∃ trace s, Transition.Run stepChn ok (.init fun _ => .available) trace s ∧ found trace s = true :=
  Transition.exists_run_of_exec ops found h

/-- A server named `a` listens, is enabled, answers with channel 1, and the client acknowledges it. -/
def establishOps : List ChnOp :=
  [.request ⟨[97], true⟩ true, .receive 0 [0, 97, 0] 3 true, .replied 0, .receive 0 [3, 2, 97, 0, 1] 5 true, .finish 0]

theorem vbusTable_safe_established : ∃ trace s, ChnRun (fun _ => .available) trace s ∧ .returned 1 ∈ trace ∧
    s.chnStatus 0 = .established ∧ s.chnStatus 1 = .established ∧
    ∀ chnr, .access chnr ∈ trace → 0 ≤ chnr ∧ chnr < 32 := by
  obtain ⟨trace, s, hrun, hfound⟩ := exists_chnRun ChnCond establishOps
    (fun trace s => .returned 1 ∈ trace ∧ s.chnStatus 1 = .established) (by decide +kernel)
  obtain ⟨hreturned, hone⟩ := of_decide_eq_true hfound
  obtain ⟨hzero, -, htrace, -⟩ := vbusTable_safe hrun
  exact ⟨trace, s, hrun, hreturned, hzero, hone, htrace⟩

abbrev AnyChnRun : List ChnEvent → VbusTable → Prop :=
  Transition.Run stepChn (fun _ _ => True) (.init fun _ => .available)

/-- The first request of a client that times out resets channel 0, whose number its slot has from the start. A packet for channel 32 and an acknowledgement with 200 index past the table. A later request in the slot of one that has returned resets the channel of that one. -/
theorem vbusTable_fails :
    (∃ trace s, AnyChnRun trace s ∧ s.chnStatus 0 = .available) ∧
      (∃ trace s, AnyChnRun trace s ∧ .access 32 ∈ trace) ∧
      (∃ trace s, AnyChnRun trace s ∧ .access 200 ∈ trace) ∧
      ∃ trace s s' events, AnyChnRun trace s ∧ stepChn s (.finish 0) = some (s', events) ∧ .returned 1 ∈ trace ∧
        s.chnStatus 1 = .established ∧ s'.chnStatus 1 = .available ∧ s.takenBy 1 ≠ some (s.sess 0).serial := by
  refine ⟨?_, ?_, ?_, ?_⟩
  · obtain ⟨trace, s, hrun, hfound⟩ := exists_chnRun (fun _ _ => True)
      [.request ⟨[97], false⟩ true, .posted 0 0, .timeout 0, .finish 0] (fun _ s => s.chnStatus 0 = .available)
      (by decide +kernel)
    exact ⟨trace, s, hrun, of_decide_eq_true hfound⟩
  · obtain ⟨trace, s, hrun, hfound⟩ := exists_chnRun (fun _ _ => True) [.receive 32 [] 0 true]
      (fun trace _ => .access 32 ∈ trace) (by decide +kernel)
    exact ⟨trace, s, hrun, of_decide_eq_true hfound⟩
  · obtain ⟨trace, s, hrun, hfound⟩ := exists_chnRun (fun _ _ => True)
      [.request ⟨[97], false⟩ true, .posted 0 0, .receive 0 [3, 2, 97, 0, 200] 5 true]
      (fun trace _ => .access 200 ∈ trace) (by decide +kernel)
    exact ⟨trace, s, hrun, of_decide_eq_true hfound⟩
  · obtain ⟨trace, s, hrun, hfound⟩ := exists_chnRun (fun _ _ => True)
      (establishOps ++ [.request ⟨[98], false⟩ true, .posted 0 0, .timeout 0])
      (fun trace s => .returned 1 ∈ trace ∧ s.chnStatus 1 = .established ∧ s.takenBy 1 ≠ some (s.sess 0).serial ∧
        (stepChn s (.finish 0)).any fun r => r.1.chnStatus 1 = .available) (by decide +kernel)
    obtain ⟨hreturned, hone, htaken, hfinish⟩ := of_decide_eq_true hfound
    obtain ⟨⟨s', events⟩, hs, hreset⟩ := Option.any_eq_true .. |>.1 hfinish
    exact ⟨trace, s, s', events, hrun, hs, hreturned, hone, of_decide_eq_true hreset, htaken⟩

end RtThread
