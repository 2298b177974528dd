import RtThread.Drivers.RtcAlarm

/-!
# Runs of RTC alarms

After an operation either the hardware alarm is off, or it is set to the current alarm, which is started. In the second case it is right if the current alarm comes first, in the first case only if no alarm is started. What the operation has to find so that this comes out is a condition on the state before.
-/

namespace RtThread

variable {cal : Calendar} {s s' : AlarmContainer} {op : AlarmOp} {P : Nat → Prop} {a b c now now' sec sec' t t₁ t₂ t₃ : Nat} {l : List Nat}
  {r : AlarmSearch} {tm : Tm} {alarm : RtAlarm}

/-! ## Times of day -/

theorem alarmMkdaysec_lt (h : tm.Clock) : alarmMkdaysec tm < 86400 := by
  obtain ⟨hsec, hmin, hhour⟩ := h
  rw [alarmMkdaysec, Int.emod_eq_of_lt (by omega) (by omega)]
  omega

theorem comesIn_of_lt (h : now < sec) (hsec : sec < 86400) : comesIn now sec = sec - now - 1 := by
  unfold comesIn
  omega

theorem comesIn_of_le (h : sec ≤ now) : comesIn now sec = sec + 86399 - now := by
  unfold comesIn
  omega

theorem comesIn_le_self (now sec : Nat) : comesIn now sec ≤ comesIn now now := by
  rw [comesIn_of_le (Nat.le_refl now)]
  unfold comesIn
  omega

theorem comesIn_inj (hnow : now < 86400) (hsec : sec < 86400) (hsec' : sec' < 86400) (h : comesIn now sec = comesIn now sec') :
    sec = sec' := by
  unfold comesIn at h
  omega

/-- The comparison of `rt_alarm_start` picks the new alarm if it comes before the current one, unless that one is at this very second. -/
theorem comesFirst_iff (hnow : now < 86400) (hsec : sec < 86400) (hsec' : sec' < 86400) :
    comesFirst sec sec' now = true ↔ comesIn now sec < comesIn now sec' ∧ sec' ≠ now := by
  simp only [comesFirst, Bool.or_eq_true, Bool.and_eq_true, decide_eq_true_eq]
  unfold comesIn
  omega

theorem careOr_bounds {low high value : Int} {now : Int} (h : low ≤ now ∧ now ≤ high) :
    low ≤ careOr low high now value ∧ careOr low high now value ≤ high := by
  unfold careOr
  split_ifs
  · exact h
  · omega

theorem alarmSetupDate_clock (type : Nat) (now : Tm) (h : tm.Clock) : (alarmSetupDate type tm now).1.Clock := by
  unfold alarmSetupDate
  split_ifs <;> exact h

theorem alarmSetup_clock (alarm : RtAlarm) (h : tm.Clock) : (alarmSetup alarm tm).1.wktime.Clock := by
  obtain ⟨hsec, hmin, hhour⟩ := h
  have hcare : Tm.Clock { alarm.wktime with
      tmSec := careOr 0 59 tm.tmSec alarm.wktime.tmSec
      tmMin := careOr 0 59 tm.tmMin alarm.wktime.tmMin
      tmHour := careOr 0 23 tm.tmHour alarm.wktime.tmHour } := ⟨careOr_bounds hsec, careOr_bounds hmin, careOr_bounds hhour⟩
  have hclock := alarmSetupDate_clock alarm.type tm hcare
  simp only [alarmSetup]
  split_ifs
  · obtain ⟨-, hmin, hhour⟩ := hclock
    refine ⟨?_, hmin, hhour⟩
    simp [rtAlarmDelay]
  · exact hclock
  · exact hclock

theorem alarmSetup_start (alarm : RtAlarm) (tm : Tm) : (alarmSetup alarm tm).1.start = alarm.start := by
  simp only [alarmSetup]
  split_ifs <;> rfl

theorem alarmSetup_inited (h : (alarmSetup alarm tm).2 = true) : (alarmSetup alarm tm).1.inited = true := by
  simp only [alarmSetup] at h ⊢
  split_ifs at h ⊢ <;> trivial

/-! ## The alarm that comes first -/

namespace AlarmContainer

theorem alarm_setAlarm (s : AlarmContainer) (a b : Nat) (alarm : RtAlarm) :
    (s.setAlarm a alarm).alarm b = if b = a then alarm else s.alarm b := Function.update_apply ..

theorem First.congr_sec (h : s.First P now a) (hc : c ∈ s.head) (hP : P c) (hsec : s.sec c = s.sec a) : s.First P now c :=
  ⟨hc, hP, fun b hb hPb => by rw [hsec]; exact h.2.2 b hb hPb⟩

def Tuned (s : AlarmContainer) (c : Nat) : Prop := s.current = some c ∧ c ∈ s.head ∧ s.Started c ∧ s.wkalarm = (s.alarm c).wkalarm

/-- `AlarmsRight` at a time of day. -/
def RightAt (s : AlarmContainer) (now : Nat) : Prop :=
  (∃ a ∈ s.head, s.Started a) → s.wkalarm.enable = true ∧ ∃ a, s.First s.Started now a ∧ s.wkalarm = (s.alarm a).wkalarm

theorem sec_of_wkalarm (h : (s.alarm a).wkalarm = (s.alarm b).wkalarm) : s.sec a = s.sec b := by
  simp only [RtAlarm.wkalarm, WkAlarm.mk.injEq] at h
  obtain ⟨-, hsec, hmin, hhour⟩ := h
  rw [AlarmContainer.sec, AlarmContainer.sec, alarmMkdaysec, alarmMkdaysec, hsec, hmin, hhour]

theorem Tuned.rightAt (h : s.Tuned c) : s.RightAt now ↔ s.First s.Started now c := by
  obtain ⟨-, hc, hstarted, hwkalarm⟩ := h
  constructor
  · intro hright
    obtain ⟨-, a, hfirst, ha⟩ := hright ⟨c, hc, hstarted⟩
    exact hfirst.congr_sec hc hstarted (sec_of_wkalarm (hwkalarm.symm.trans ha))
  · intro hfirst _
    refine ⟨?_, c, hfirst, hwkalarm⟩
    rw [hwkalarm]
    exact hstarted

theorem rightAt_of_off (h : s.wkalarm.enable = false) : s.RightAt now ↔ ∀ a ∈ s.head, ¬ s.Started a := by
  constructor
  · intro hright a ha hstarted
    rw [(hright ⟨a, ha, hstarted⟩).1] at h
    cases h
  · rintro hnone ⟨a, ha, hstarted⟩
    exact absurd hstarted (hnone a ha)

end AlarmContainer

structure AlarmBase (s : AlarmContainer) : Prop where
  clock : ∀ a, (s.alarm a).inited = true → (s.alarm a).wktime.Clock
  inited : ∀ a, s.Started a → (s.alarm a).inited = true
  current : ∀ c ∈ s.current, c ∈ s.head ∧ (s.alarm c).wktime.Clock

def AlarmSettled (s : AlarmContainer) : Prop := s.wkalarm.enable = false ∨ ∃ c, s.Tuned c

structure AlarmInv (s : AlarmContainer) : Prop extends AlarmBase s where
  tuned : (s.wkalarm.enable = false ∧ ∀ a ∈ s.head, ¬ s.Started a) ∨ ∃ c, s.Tuned c

theorem AlarmBase.inv (h : AlarmBase s) (hsettled : AlarmSettled s) (hright : s.RightAt now) : AlarmInv s := by
  refine ⟨h, hsettled.imp_left fun hoff => ⟨hoff, ?_⟩⟩
  exact (AlarmContainer.rightAt_of_off hoff).1 hright

theorem AlarmInv.settled (h : AlarmInv s) : AlarmSettled s := h.tuned.imp_left And.left

theorem AlarmBase.sec_lt (h : AlarmBase s) (ha : s.Started a) : s.sec a < 86400 := alarmMkdaysec_lt (h.clock a (h.inited a ha))

theorem AlarmInv.rightAt (h : AlarmInv s) : s.RightAt now ↔ CurrentFirst s s.Started now := by
  rcases h.tuned with ⟨hoff, hnone⟩ | ⟨c, htuned⟩
  · rw [AlarmContainer.rightAt_of_off hoff]
    exact iff_of_true hnone (.inl hnone)
  · rw [htuned.rightAt]
    constructor
    · exact fun hfirst => .inr ⟨c, htuned.1, hfirst⟩
    · rintro (hnone | ⟨c', hc', hfirst⟩)
      · exact absurd htuned.2.2.1 (hnone c htuned.2.1)
      · rw [Option.mem_def, htuned.1, Option.some.injEq] at hc'
        rwa [hc']

/-! ## The first loop of `alarm_update` -/

/-- What the loop does to the alarms of a list: one-shot alarms that are due are switched off, and the hardware alarm with them. -/
structure Wakened (cal : Calendar) (s : AlarmContainer) (t : Nat) (l : List Nat) (s' : AlarmContainer) : Prop where
  alarm : ∀ b, s'.alarm b = if b ∈ l ∧ FiresOnce cal s t b then { s.alarm b with start := false } else s.alarm b
  head : s'.head = s.head
  current : s'.current = s.current
  off : (∃ b ∈ l, FiresOnce cal s t b) ∨ s.wkalarm.enable = false → s'.wkalarm.enable = false
  kept : (∀ b ∈ l, ¬ FiresOnce cal s t b) → s'.wkalarm = s.wkalarm

theorem alarmWakeup_eq (cal : Calendar) (t : Nat) (s : AlarmContainer) (a : Nat) :
    (alarmWakeup cal (cal.localtime t) s a).1 =
      if FiresOnce cal s t a then (s.setAlarm a { s.alarm a with start := false }).alarmSet a else s := by
  by_cases hfires : FiresOnce cal s t a
  · obtain ⟨hstart, hdue⟩ := id hfires
    simp only [alarmWakeup]
    rw [if_pos hfires, if_pos (show (s.alarm a).start = true from hstart), if_pos hdue]
  · simp only [alarmWakeup]
    rw [if_neg hfires]
    split_ifs with hstart hdue
    · exact absurd ⟨hstart, hdue⟩ hfires
    · rfl
    · rfl

theorem wakened_alarmWakeups (cal : Calendar) (t : Nat) (l : List Nat) (s : AlarmContainer) :
    Wakened cal s t l (alarmWakeups cal (cal.localtime t) s l).1 := by
  induction l generalizing s with
  | nil => exact ⟨fun b => by simp [alarmWakeups], rfl, rfl, by simp [alarmWakeups], fun _ => rfl⟩
  | cons a l ih =>
    have hrest := ih (alarmWakeup cal (cal.localtime t) s a).1
    rw [alarmWakeup_eq] at hrest
    simp only [alarmWakeups]
    rw [alarmWakeup_eq]
    split_ifs at hrest ⊢ with hfires
    · have halarm : ∀ b, ((s.setAlarm a { s.alarm a with start := false }).alarmSet a).alarm b =
          if b = a then { s.alarm a with start := false } else s.alarm b := fun b => s.alarm_setAlarm a b _
      have hoff : ((s.setAlarm a { s.alarm a with start := false }).alarmSet a).wkalarm.enable = false := by
        show ((s.setAlarm a { s.alarm a with start := false }).alarm a).start = false
        rw [s.alarm_setAlarm, if_pos rfl]
      have hiff : ∀ b, FiresOnce cal ((s.setAlarm a { s.alarm a with start := false }).alarmSet a) t b ↔ b ≠ a ∧ FiresOnce cal s t b := by
        intro b
        unfold FiresOnce AlarmContainer.Started
        rw [halarm]
        split_ifs with hb <;> simp [hb]
      refine ⟨fun b => ?_, hrest.head, hrest.current, fun _ => hrest.off (.inr hoff), fun hnone => absurd hfires (hnone a List.mem_cons_self)⟩
      rw [hrest.alarm, halarm, if_congr (and_congr_right' (hiff b)) rfl rfl]
      by_cases hb : b = a
      · subst hb
        simp [hfires]
      · simp [hb]
    · refine ⟨fun b => ?_, hrest.head, hrest.current, fun hoff => hrest.off ?_, fun hnone => hrest.kept fun b hb => hnone b (List.mem_cons_of_mem a hb)⟩
      · rw [hrest.alarm]
        by_cases hb : b = a
        · subst hb
          simp [hfires]
        · simp [hb]
      · rcases hoff with ⟨b, hb, hfiresb⟩ | hoff
        · rcases List.mem_cons.1 hb with rfl | hb
          · exact absurd hfiresb hfires
          · exact .inl ⟨b, hb, hfiresb⟩
        · exact .inr hoff

/-! ## The second loop -/

def Eligible (s : AlarmContainer) (b : Nat) : Prop := s.Started b ∧ s.current ≠ some b

structure Found (s : AlarmContainer) (now : Nat) (l : List Nat) (r : AlarmSearch) : Prop where
  next : r.secNext < 86400 → ∃ b ∈ l, r.almNext = some b ∧ Eligible s b ∧ (s.sec b : Int) - now = r.secNext
  nextLe : ∀ b ∈ l, Eligible s b → now < s.sec b → r.secNext ≤ (s.sec b : Int) - now
  nextPos : 0 < r.secNext
  prev : r.secPrev < 0 → ∃ b ∈ l, r.almPrev = some b ∧ Eligible s b ∧ (s.sec b : Int) - now = r.secPrev
  prevLe : ∀ b ∈ l, Eligible s b → s.sec b ≤ now → r.secPrev ≤ (s.sec b : Int) - now

theorem Found.visit (h : Found s now l r) (a : Nat) : Found s now (l ++ [a]) (AlarmSearch.visit s now r a) := by
  have hmono : ∀ b ∈ l, b ∈ l ++ [a] := fun b => List.mem_append_left [a]
  have hkeep (hle : Eligible s a → (now < s.sec a → r.secNext ≤ (s.sec a : Int) - now) ∧
      (s.sec a ≤ now → r.secPrev ≤ (s.sec a : Int) - now)) : Found s now (l ++ [a]) r := by
    refine ⟨fun hlt => ?_, fun b hb hb' hlt => ?_, h.nextPos, fun hlt => ?_, fun b hb hb' hlt => ?_⟩
    · obtain ⟨b, hb, hfound⟩ := h.next hlt
      exact ⟨b, hmono b hb, hfound⟩
    · rcases List.mem_append.1 hb with hb | hb
      · exact h.nextLe b hb hb' hlt
      · cases List.mem_singleton.1 hb
        exact (hle hb').1 hlt
    · obtain ⟨b, hb, hfound⟩ := h.prev hlt
      exact ⟨b, hmono b hb, hfound⟩
    · rcases List.mem_append.1 hb with hb | hb
      · exact h.prevLe b hb hb' hlt
      · cases List.mem_singleton.1 hb
        exact (hle hb').2 hlt
  unfold AlarmSearch.visit
  split_ifs with heligible
  · dsimp only
    split_ifs with hpos hlt hlt
    · -- the alarm is after now, and the nearest
      refine ⟨fun _ => ⟨a, by simp, rfl, heligible, rfl⟩, fun b hb hb' hafter => ?_, hpos, fun hneg => ?_, fun b hb hb' hbefore => ?_⟩
      · rcases List.mem_append.1 hb with hb | hb
        · exact Int.le_trans (Int.le_of_lt hlt) (h.nextLe b hb hb' hafter)
        · cases List.mem_singleton.1 hb
          exact Int.le_refl _
      · obtain ⟨b, hb, hfound⟩ := h.prev hneg
        exact ⟨b, hmono b hb, hfound⟩
      · rcases List.mem_append.1 hb with hb | hb
        · exact h.prevLe b hb hb' hbefore
        · cases List.mem_singleton.1 hb
          omega
    · exact hkeep fun _ => ⟨fun _ => Int.not_lt.1 hlt, fun hbefore => by omega⟩
    · -- it is before now, and the furthest
      refine ⟨fun hsec => ?_, fun b hb hb' hafter => ?_, h.nextPos, fun _ => ⟨a, by simp, rfl, heligible, rfl⟩, fun b hb hb' hbefore => ?_⟩
      · obtain ⟨b, hb, hfound⟩ := h.next hsec
        exact ⟨b, hmono b hb, hfound⟩
      · rcases List.mem_append.1 hb with hb | hb
        · exact h.nextLe b hb hb' hafter
        · cases List.mem_singleton.1 hb
          omega
      · rcases List.mem_append.1 hb with hb | hb
        · exact Int.le_trans (Int.le_of_lt hlt) (h.prevLe b hb hb' hbefore)
        · cases List.mem_singleton.1 hb
          exact Int.le_refl _
    · exact hkeep fun _ => ⟨fun hafter => by omega, fun _ => Int.not_lt.1 hlt⟩
  · exact hkeep fun heligible' => absurd heligible' heligible

theorem found_foldl (s : AlarmContainer) (now : Nat) (l : List Nat) :
    Found s now l (l.foldl (AlarmSearch.visit s now) ⟨24 * 3600, none, 0, none⟩) := by
  induction l using List.reverseRecOn with
  | nil =>
    have hlt : ¬ (24 * 3600 : Int) < 86400 := by decide
    exact ⟨fun h => absurd h hlt, by simp, by simp, fun h => absurd h (Int.lt_irrefl 0), by simp⟩
  | append_singleton l a ih =>
    rw [List.foldl_append]
    exact ih.visit a

theorem alarmSelect_eq (h : AlarmBase s) (hnow : now < 86400) :
    (∃ b, s.First (Eligible s) now b ∧ s.sec b ≠ now ∧ alarmSelect now s = s.makeCurrent b) ∨
      (∀ b ∈ s.head, Eligible s b → s.sec b = now) ∧ alarmSelect now s = s := by
  have hfound := found_foldl s now s.head
  unfold alarmSelect
  dsimp only
  split_ifs with hnext hprev
  · obtain ⟨b, hb, hsome, heligible, hsec⟩ := hfound.next hnext
    have hpos := hfound.nextPos
    have hlt := h.sec_lt heligible.1
    refine .inl ⟨b, ⟨hb, heligible, fun b' hb' heligible' => ?_⟩, by omega, by rw [hsome]; rfl⟩
    have hlt' := h.sec_lt heligible'.1
    rw [comesIn_of_lt (by omega) hlt]
    rcases Nat.lt_or_ge now (s.sec b') with hafter | hbefore
    · have := hfound.nextLe b' hb' heligible' hafter
      rw [comesIn_of_lt hafter hlt']
      omega
    · rw [comesIn_of_le hbefore]
      omega
  · have hafter : ∀ b' ∈ s.head, Eligible s b' → s.sec b' ≤ now := fun b' hb' heligible' => by
      by_contra hafter
      have := hfound.nextLe b' hb' heligible' (by omega)
      have := h.sec_lt heligible'.1
      omega
    obtain ⟨b, hb, hsome, heligible, hsec⟩ := hfound.prev hprev
    refine .inl ⟨b, ⟨hb, heligible, fun b' hb' heligible' => ?_⟩, by omega, by rw [hsome]; rfl⟩
    have hle' := hafter b' hb' heligible'
    have := hfound.prevLe b' hb' heligible' hle'
    rw [comesIn_of_le (hafter b hb heligible), comesIn_of_le hle']
    omega
  · refine .inr ⟨fun b' hb' heligible' => ?_, rfl⟩
    have hlt' := h.sec_lt heligible'.1
    rcases Nat.lt_trichotomy now (s.sec b') with hafter | heq | hbefore
    · have := hfound.nextLe b' hb' heligible' hafter
      omega
    · exact heq.symm
    · have := hfound.prevLe b' hb' heligible' (Nat.le_of_lt hbefore)
      omega

/-! ## Alarm events -/

structure AlarmOutcome (s' : AlarmContainer) (now : Nat) (fits : Prop) : Prop extends AlarmBase s' where
  settled : AlarmSettled s'
  right : s'.RightAt now ↔ fits

theorem AlarmOutcome.inv {fits : Prop} (h : AlarmOutcome s now fits) (hfits : fits) : AlarmInv s :=
  h.toAlarmBase.inv h.settled (h.right.2 hfits)

theorem AlarmBase.makeCurrent (h : AlarmBase s) (hb : b ∈ s.head) (hclock : (s.alarm b).wktime.Clock) : AlarmBase (s.makeCurrent b) := by
  refine ⟨h.clock, h.inited, fun c hc => ?_⟩
  cases hc
  exact ⟨hb, hclock⟩

theorem AlarmContainer.tuned_makeCurrent (hb : b ∈ s.head) (hstarted : s.Started b) : (s.makeCurrent b).Tuned b :=
  ⟨rfl, hb, hstarted, rfl⟩

namespace Wakened

variable (h : Wakened cal s t s.head s')

include h

theorem started (hb : b ∈ s.head) : s'.Started b ↔ Remains cal s t b := by
  unfold AlarmContainer.Started Remains
  rw [h.alarm]
  split_ifs with hfires
  · simp [hfires.2]
  · have : ¬ FiresOnce cal s t b := fun hb' => hfires ⟨hb, hb'⟩
    simp [this, AlarmContainer.Started]

theorem sec_eq (b : Nat) : s'.sec b = s.sec b := by
  unfold AlarmContainer.sec
  rw [h.alarm]
  split_ifs <;> rfl

theorem base (hbase : AlarmBase s) : AlarmBase s' := by
  refine ⟨fun b hb => ?_, fun b hb => ?_, fun c hc => ?_⟩
  · rw [h.alarm] at hb ⊢
    split_ifs at hb ⊢ <;> exact hbase.clock b hb
  · unfold AlarmContainer.Started at hb
    rw [h.alarm] at hb ⊢
    split_ifs at hb ⊢
    exact hbase.inited b hb
  · rw [h.current] at hc
    rw [h.head, h.alarm]
    have := hbase.current c hc
    split_ifs <;> exact this

end Wakened

theorem AlarmInv.event (h : AlarmInv s) (t₁ t₂ : Nat) :
    AlarmOutcome (alarmUpdate cal s t₁ t₂).1 (alarmMkdaysec (cal.localtime t₂)) (EventFits cal s t₁ t₂) := by
  obtain ⟨s₃, hs₃⟩ : ∃ s₃, (alarmWakeups cal (cal.localtime t₁) s s.head).1 = s₃ := ⟨_, rfl⟩
  have hwake := wakened_alarmWakeups cal t₁ s.head s
  have hnow := alarmMkdaysec_lt (cal.clock t₂)
  simp only [alarmUpdate, EventFits]
  generalize alarmMkdaysec (cal.localtime t₂) = now at hnow ⊢
  rw [hs₃] at hwake ⊢
  have hbase := hwake.base h.toAlarmBase
  have heligible : ∀ b ∈ s.head, Eligible s₃ b ↔ Remains cal s t₁ b ∧ s.current ≠ some b := fun b hb => by
    rw [Eligible, hwake.started hb, hwake.current]
  rcases alarmSelect_eq hbase hnow with ⟨b, hfirst, hsec, hselect⟩ | ⟨hall, hselect⟩ <;> rw [hselect]
  · -- another alarm becomes the current one
    obtain ⟨hb, hb', hle⟩ := hfirst
    have hmem := hwake.head ▸ hb
    obtain ⟨hremains, hother⟩ := (heligible b hmem).1 hb'
    have htuned := AlarmContainer.tuned_makeCurrent hb hb'.1
    refine ⟨hbase.makeCurrent hb (hbase.clock b (hbase.inited b hb'.1)), .inr ⟨b, htuned⟩, htuned.rightAt.trans ⟨fun hright => ?_, fun hfits => ?_⟩⟩
    · refine .inr (.inl ⟨b, hmem, hremains, hother, hwake.sec_eq b ▸ hsec, fun c hc hcr => ?_⟩)
      have hcmem := (h.current c hc).1
      have := hright.2.2 c (hwake.head ▸ hcmem) ((hwake.started hcmem).2 hcr)
      rwa [← hwake.sec_eq, ← hwake.sec_eq]
    · refine ⟨hb, hb'.1, fun b' hb'' hstarted => ?_⟩
      show comesIn now (s₃.sec b) ≤ comesIn now (s₃.sec b')
      by_cases hcurrent : s₃.current = some b'
      · have hmem' := hwake.head ▸ hb''
        have hremains' := (hwake.started hmem').1 hstarted
        rcases hfits with hnone | ⟨b₂, hb₂, hr₂, ho₂, hs₂, hle₂⟩ | ⟨-, c, hc, -, hothers⟩
        · exact absurd hremains (hnone b hmem)
        · have hbest := hle b₂ (hwake.head ▸ hb₂) ((heligible b₂ hb₂).2 ⟨hr₂, ho₂⟩)
          have := hle₂ b' (hwake.current ▸ hcurrent) hremains'
          rw [← hwake.sec_eq, ← hwake.sec_eq] at this
          exact Nat.le_trans hbest this
        · refine absurd (hothers b hmem hremains fun heq => hother (heq ▸ hc)) ?_
          rwa [← hwake.sec_eq]
      · exact hle b' hb'' ⟨hstarted, hcurrent⟩
  · -- all others are at this very second
    have hothers : ∀ b ∈ s.head, Remains cal s t₁ b → s.current ≠ some b → s.sec b = now := fun b hb hremains hother => by
      rw [← hwake.sec_eq]
      exact hall b (hwake.head ▸ hb) ((heligible b hb).2 ⟨hremains, hother⟩)
    have hnone : (∀ b ∈ s₃.head, ¬ s₃.Started b) ↔ ∀ b ∈ s.head, ¬ Remains cal s t₁ b := by
      rw [hwake.head]
      exact forall₂_congr fun b hb => not_congr (hwake.started hb)
    by_cases hfires : ∃ b ∈ s.head, FiresOnce cal s t₁ b
    · have hoff := hwake.off (.inl hfires)
      refine ⟨hbase, .inl hoff, (AlarmContainer.rightAt_of_off hoff).trans (hnone.trans ⟨.inl, fun hfits => ?_⟩)⟩
      rcases hfits with hnone | ⟨b₂, hb₂, hr₂, ho₂, hs₂, -⟩ | ⟨hnofires, -⟩
      · exact hnone
      · exact absurd (hothers b₂ hb₂ hr₂ ho₂) hs₂
      · obtain ⟨b, hb, hfires⟩ := hfires
        exact absurd hfires (hnofires b hb)
    · have hnofires : ∀ b ∈ s.head, ¬ FiresOnce cal s t₁ b := fun b hb hfiresb => hfires ⟨b, hb, hfiresb⟩
      have hkept := hwake.kept hnofires
      rcases h.tuned with ⟨hoff, hidle⟩ | ⟨c, hcurrent, hc, hstarted, hwkalarm⟩
      · have hidle' : ∀ b ∈ s.head, ¬ Remains cal s t₁ b := fun b hb hremains => hidle b hb hremains.1
        have hoff' := hwake.off (.inr hoff)
        exact ⟨hbase, .inl hoff', (AlarmContainer.rightAt_of_off hoff').trans (iff_of_true (hnone.2 hidle') (.inl hidle'))⟩
      · -- the hardware alarm stays as it is
        have hremains : Remains cal s t₁ c := ⟨hstarted, hnofires c hc⟩
        have hsame : (s₃.alarm c).wkalarm = (s.alarm c).wkalarm := by
          rw [hwake.alarm, if_neg fun hfiresc => hnofires c hc hfiresc.2]
        have htuned : s₃.Tuned c :=
          ⟨hwake.current.trans hcurrent, hwake.head ▸ hc, (hwake.started hc).2 hremains, hkept.trans (hwkalarm.trans hsame.symm)⟩
        refine ⟨hbase, .inr ⟨c, htuned⟩, htuned.rightAt.trans (iff_of_true ?_ (.inr (.inr ⟨hnofires, c, hcurrent, hremains, ?_⟩)))⟩
        · refine ⟨htuned.2.1, htuned.2.2.1, fun b hb hstartedb => ?_⟩
          by_cases heq : b = c
          · exact Nat.le_of_eq (by rw [heq])
          · have hmem := hwake.head ▸ hb
            have hother : s.current ≠ some b := fun hb => heq (Option.some.inj (hb.symm.trans hcurrent))
            rw [hwake.sec_eq b, hothers b hmem ((hwake.started hmem).1 hstartedb) hother]
            exact comesIn_le_self now _
        · intro b hb hremainsb hne
          exact hothers b hb hremainsb fun hb => hne (Option.some.inj (hb.symm.trans hcurrent))

/-! ## One alarm is changed -/

namespace AlarmContainer

theorem started_setAlarm : (s.setAlarm a alarm).Started b ↔ if b = a then alarm.start = true else s.Started b := by
  unfold Started
  rw [alarm_setAlarm]
  split_ifs <;> exact Iff.rfl

theorem sec_setAlarm (htm : alarm.wktime = (s.alarm a).wktime) (b : Nat) : (s.setAlarm a alarm).sec b = s.sec b := by
  unfold sec
  rw [alarm_setAlarm]
  split_ifs with hb
  · rw [hb, htm]
  · rfl

theorem Tuned.setAlarm (h : s.Tuned c) (hne : c ≠ a) : (s.setAlarm a alarm).Tuned c := by
  obtain ⟨hcurrent, hc, hstarted, hwkalarm⟩ := h
  refine ⟨hcurrent, hc, started_setAlarm.2 ?_, ?_⟩
  · rwa [if_neg hne]
  · rw [alarm_setAlarm, if_neg hne]
    exact hwkalarm

theorem First.congr {Q : Nat → Prop} (h : s.First P now b) (hhead : s'.head = s.head) (hP : ∀ b ∈ s.head, P b ↔ Q b)
    (hsec : ∀ b ∈ s.head, P b → s'.sec b = s.sec b) : s'.First Q now b := by
  obtain ⟨hb, hPb, hle⟩ := h
  refine ⟨hhead ▸ hb, (hP b hb).1 hPb, fun b' hb' hQ => ?_⟩
  rw [hhead] at hb'
  have hPb' := (hP b' hb').2 hQ
  rw [hsec b hb hPb, hsec b' hb' hPb']
  exact hle b' hb' hPb'

theorem first_congr {Q : Nat → Prop} (hhead : s'.head = s.head) (hP : ∀ b ∈ s.head, P b ↔ Q b)
    (hsec : ∀ b ∈ s.head, P b → s'.sec b = s.sec b) : s'.First Q now b ↔ s.First P now b := by
  refine ⟨fun h => h.congr hhead.symm ?_ ?_, fun h => h.congr hhead hP hsec⟩
  · rw [hhead]
    exact fun b hb => (hP b hb).symm
  · rw [hhead]
    exact fun b hb hQ => (hsec b hb ((hP b hb).2 hQ)).symm

end AlarmContainer

theorem AlarmBase.setAlarm (h : AlarmBase s) (hclock : alarm.wktime.Clock) (hinited : alarm.start = true → alarm.inited = true) :
    AlarmBase (s.setAlarm a alarm) := by
  refine ⟨fun b hb => ?_, fun b hb => ?_, fun c hc => ?_⟩
  · rw [s.alarm_setAlarm] at hb ⊢
    split_ifs at hb ⊢
    · exact hclock
    · exact h.clock b hb
  · rw [AlarmContainer.started_setAlarm] at hb
    rw [s.alarm_setAlarm]
    split_ifs at hb ⊢
    · exact hinited hb
    · exact h.inited b hb
  · obtain ⟨hmem, hclockc⟩ := h.current c hc
    rw [s.alarm_setAlarm]
    split_ifs
    · exact ⟨hmem, hclock⟩
    · exact ⟨hmem, hclockc⟩

theorem AlarmContainer.started_setAlarm_idle (hidle : ¬ s.Started a) (hstart : alarm.start = false) (b : Nat) :
    (s.setAlarm a alarm).Started b ↔ s.Started b := by
  rw [started_setAlarm]
  split_ifs with hb
  · rw [hb, hstart]
    exact iff_of_false Bool.false_ne_true hidle
  · rfl

theorem AlarmOutcome.setAlarm {fits : Prop} (h : AlarmOutcome s now fits) (hidle : ¬ s.Started a) (hclock : alarm.wktime.Clock)
    (hstart : alarm.start = false) : AlarmOutcome (s.setAlarm a alarm) now fits := by
  have hbase : AlarmBase (s.setAlarm a alarm) := h.toAlarmBase.setAlarm hclock fun hstarted => by
    rw [hstart] at hstarted
    cases hstarted
  have hstarted := AlarmContainer.started_setAlarm_idle hidle hstart
  rcases h.settled with hoff | ⟨c, htuned⟩
  · refine ⟨hbase, .inl hoff, Iff.trans ?_ h.right⟩
    rw [AlarmContainer.rightAt_of_off (s := s.setAlarm a alarm) hoff, AlarmContainer.rightAt_of_off hoff]
    exact forall₂_congr fun b _ => not_congr (hstarted b)
  · have hne : c ≠ a := fun hca => hidle (hca ▸ htuned.2.2.1)
    have htuned' : (s.setAlarm a alarm).Tuned c := htuned.setAlarm hne
    refine ⟨hbase, .inr ⟨c, htuned'⟩, Iff.trans ?_ h.right⟩
    rw [htuned'.rightAt, htuned.rightAt]
    refine AlarmContainer.first_congr rfl (fun b _ => (hstarted b).symm) fun b _ hb => ?_
    have hba : b ≠ a := fun hba => hidle (hba ▸ hb)
    rw [AlarmContainer.sec, s.alarm_setAlarm, if_neg hba]
    rfl

theorem AlarmInv.outcome (h : AlarmInv s) : AlarmOutcome s now (CurrentFirst s s.Started now) :=
  ⟨h.toAlarmBase, h.settled, h.rightAt⟩

theorem AlarmInv.setAlarm (h : AlarmInv s) (hidle : ¬ s.Started a) (hclock : alarm.wktime.Clock) (hstart : alarm.start = false) :
    AlarmInv (s.setAlarm a alarm) := by
  have hbase : AlarmBase (s.setAlarm a alarm) := h.toAlarmBase.setAlarm hclock fun hstarted => by
    rw [hstart] at hstarted
    cases hstarted
  refine ⟨hbase, h.tuned.imp (fun hoff => ⟨hoff.1, fun b hb => ?_⟩) fun ⟨c, htuned⟩ => ⟨c, htuned.setAlarm fun hca => ?_⟩⟩
  · rw [AlarmContainer.started_setAlarm_idle hidle hstart]
    exact hoff.2 b hb
  · exact hidle (hca ▸ htuned.2.2.1)

/-! ## `rt_alarm_start` -/

theorem AlarmInv.prepare (cal : Calendar) (h : AlarmInv s) (a t : Nat) :
    AlarmInv (alarmPrepare cal s a t).1 ∧ (alarmPrepare cal s a t).1.current = s.current ∧ (alarmPrepare cal s a t).1.head = s.head ∧
      ((alarmPrepare cal s a t).2 = true → ((alarmPrepare cal s a t).1.alarm a).inited = true) := by
  unfold alarmPrepare
  split_ifs with hinited
  · exact ⟨h, rfl, rfl, fun _ => hinited⟩
  · have hidle : ¬ s.Started a := fun hstarted => hinited (h.inited a hstarted)
    refine ⟨h.setAlarm hidle (alarmSetup_clock _ (cal.clock t)) ?_, rfl, rfl, fun hok => ?_⟩
    · rw [alarmSetup_start]
      simpa [AlarmContainer.Started] using hidle
    · rw [s.alarm_setAlarm, if_pos rfl]
      exact alarmSetup_inited hok

/-- Some alarms or one more: this one comes first. -/
theorem AlarmContainer.first_or_self : s.First (fun b => P b ∨ b = a) now a ↔
    a ∈ s.head ∧ ∀ b ∈ s.head, P b → comesIn now (s.sec a) ≤ comesIn now (s.sec b) := by
  constructor
  · exact fun h => ⟨h.1, fun b hb hP => h.2.2 b hb (.inl hP)⟩
  · refine fun h => ⟨h.1, .inr rfl, fun b hb hP => ?_⟩
    rcases hP with hP | rfl
    · exact h.2 b hb hP
    · exact Nat.le_refl _

/-- Another one comes first. -/
theorem AlarmContainer.first_or (hc : c ∈ s.head) (hP : P c) (ha : a ∈ s.head) : s.First (fun b => P b ∨ b = a) now c ↔
    comesIn now (s.sec c) ≤ comesIn now (s.sec a) ∧ ∀ b ∈ s.head, P b → comesIn now (s.sec c) ≤ comesIn now (s.sec b) := by
  constructor
  · exact fun h => ⟨h.2.2 a ha (.inr rfl), fun b hb hP => h.2.2 b hb (.inl hP)⟩
  · refine fun h => ⟨hc, .inl hP, fun b hb hP => ?_⟩
    rcases hP with hP | rfl
    · exact h.2 b hb hP
    · exact h.1

theorem AlarmInv.start (h : AlarmInv s) (ha : a ∈ s.head) (t₁ t₂ : Nat) :
    AlarmOutcome (rtAlarmStart cal s a t₁ t₂).1 (alarmMkdaysec (cal.localtime t₂)) (StartFits cal s a t₁ t₂) := by
  obtain ⟨hprepared, hcurrent, hhead, hinited⟩ := h.prepare cal a t₁
  unfold rtAlarmStart StartFits
  generalize alarmPrepare cal s a t₁ = prepared at hprepared hcurrent hhead hinited ⊢
  obtain ⟨s₁, ok⟩ := prepared
  dsimp only at hprepared hcurrent hhead hinited ⊢
  have hnow := alarmMkdaysec_lt (cal.clock t₂)
  generalize alarmMkdaysec (cal.localtime t₂) = now at hnow ⊢
  by_cases hguard : ok = true ∧ ¬ s₁.Started a
  · simp only [if_pos hguard]
    obtain ⟨hok, hidle⟩ := hguard
    have hclock := hprepared.clock a (hinited hok)
    obtain ⟨s₂, hs₂⟩ : ∃ s₂, s₁.setAlarm a { s₁.alarm a with start := true } = s₂ := ⟨_, rfl⟩
    have hbase : AlarmBase s₂ := hs₂ ▸ hprepared.toAlarmBase.setAlarm hclock fun _ => hinited hok
    have hstarted : ∀ b, s₂.Started b ↔ s₁.Started b ∨ b = a := fun b => by
      rw [← hs₂, AlarmContainer.started_setAlarm]
      split_ifs with hb <;> simp [hb]
    have hsec : ∀ b, s₂.sec b = s₁.sec b := fun b => by
      rw [← hs₂]
      exact AlarmContainer.sec_setAlarm (show { s₁.alarm a with start := true }.wktime = (s₁.alarm a).wktime from rfl) b
    have hhead₂ : s₂.head = s₁.head := by rw [← hs₂]; rfl
    have hcurrent₂ : s₂.current = s.current := by rw [← hs₂]; exact hcurrent
    have hfirst : ∀ b, s₂.First s₂.Started now b ↔ s₁.First (fun b => s₁.Started b ∨ b = a) now b := fun b =>
      AlarmContainer.first_congr hhead₂ (fun b _ => (hstarted b).symm) fun b _ _ => hsec b
    have hmem : a ∈ s₂.head := by rw [hhead₂, hhead]; exact ha
    have hnew : s₂.Started a := (hstarted a).2 (.inr rfl)
    have htuned := AlarmContainer.tuned_makeCurrent hmem hnew
    have hset : AlarmOutcome (s₂.makeCurrent a) now (∀ b ∈ s.head, s₁.Started b → comesIn now (s₁.sec a) ≤ comesIn now (s₁.sec b)) := by
      refine ⟨hbase.makeCurrent hmem (hbase.clock a (hbase.inited a hnew)), .inr ⟨a, htuned⟩, htuned.rightAt.trans ((hfirst a).trans ?_)⟩
      rw [AlarmContainer.first_or_self, hhead]
      exact and_iff_right ha
    rw [hs₂, hcurrent₂]
    cases hc : s.current with
    | none => simpa using hset
    | some c =>
      have hmemc := hprepared.current c (hcurrent.trans hc)
      have hcomesFirst := comesFirst_iff hnow (alarmMkdaysec_lt hclock) (alarmMkdaysec_lt hmemc.2)
      dsimp only
      simp only [hsec, Option.mem_def, Option.some.injEq, forall_eq', exists_eq_left']
      by_cases hcomes : comesFirst (s₁.sec a) (s₁.sec c) now = true
      · have hbefore := hcomesFirst.1 hcomes
        rw [if_pos hcomes]
        refine ⟨hset.toAlarmBase, hset.settled, hset.right.trans ⟨fun hnoLater => .inl ⟨hbefore, hnoLater⟩, ?_⟩⟩
        rintro (⟨-, hnoLater⟩ | ⟨-, hle, -⟩)
        · exact hnoLater
        · exact absurd hbefore.1 (Nat.not_lt.2 hle)
      · -- the hardware alarm stays as it is
        have hnot : ∀ {noLater : Prop}, ¬ ((comesIn now (s₁.sec a) < comesIn now (s₁.sec c) ∧ s₁.sec c ≠ now) ∧ noLater) := fun hboth =>
          hcomes (hcomesFirst.2 hboth.1)
        rw [if_neg hcomes, or_iff_right hnot]
        rcases hprepared.tuned with ⟨hoff, hnone⟩ | ⟨c', htuned'⟩
        · have hoff₂ : s₂.wkalarm.enable = false := by rw [← hs₂]; exact hoff
          refine ⟨hbase, .inl hoff₂, (AlarmContainer.rightAt_of_off hoff₂).trans (iff_of_false (fun hnone' => hnone' a hmem hnew) ?_)⟩
          rintro ⟨hstartedc, -⟩
          exact hnone c hmemc.1 hstartedc
        · have hcc : c' = c := by
            have := htuned'.1
            rw [hcurrent, hc] at this
            exact (Option.some.inj this).symm
          subst hcc
          have hne : c' ≠ a := fun hca => hidle (hca ▸ htuned'.2.2.1)
          have htuned₂ : s₂.Tuned c' := hs₂ ▸ htuned'.setAlarm hne
          refine ⟨hbase, .inr ⟨c', htuned₂⟩, htuned₂.rightAt.trans ((hfirst c').trans ?_)⟩
          rw [AlarmContainer.first_or htuned'.2.1 htuned'.2.2.1 (hhead ▸ ha), hhead]
          exact (and_iff_right htuned'.2.2.1).symm
  · simp only [if_neg hguard]
    exact hprepared.outcome

/-! ## `rt_alarm_stop` and `rt_alarm_control` -/

theorem AlarmInv.stopCurrent (h : AlarmInv s) (ha : a ∈ s.head) (hstarted : s.Started a) (t₁ t₂ t₃ : Nat)
    (hs' : (alarmUpdate cal { (s.setAlarm a { s.alarm a with start := false }).alarmSet a with current := none } t₁ t₂).1 = s') :
    AlarmOutcome s' (alarmMkdaysec (cal.localtime t₃))
      ((∀ b ∈ s.head, ¬ (Remains cal s t₁ b ∧ b ≠ a)) ∨ ∃ b ∈ s.head, s.sec b ≠ alarmMkdaysec (cal.localtime t₂) ∧
        s.First (fun b => Remains cal s t₁ b ∧ b ≠ a) (alarmMkdaysec (cal.localtime t₂)) b ∧
        s.First (fun b => Remains cal s t₁ b ∧ b ≠ a) (alarmMkdaysec (cal.localtime t₃)) b) ∧ ¬ s'.Started a := by
  obtain ⟨s₀, hs₀⟩ : ∃ s₀, { (s.setAlarm a { s.alarm a with start := false }).alarmSet a with current := none } = s₀ := ⟨_, rfl⟩
  rw [hs₀] at hs'
  have halarm : ∀ b, s₀.alarm b = if b = a then { s.alarm a with start := false } else s.alarm b := fun b => by
    rw [← hs₀]
    exact s.alarm_setAlarm a b _
  have hhead : s₀.head = s.head := by rw [← hs₀]; rfl
  have hnone : s₀.current = none := by rw [← hs₀]
  have hoff : s₀.wkalarm.enable = false := by
    rw [← hs₀]
    show ((s.setAlarm a { s.alarm a with start := false }).alarm a).start = false
    rw [s.alarm_setAlarm, if_pos rfl]
  have hbase : AlarmBase s₀ := by
    have hset : AlarmBase (s.setAlarm a { s.alarm a with start := false }) :=
      h.toAlarmBase.setAlarm (h.clock a (h.inited a hstarted)) fun _ => h.inited a hstarted
    rw [← hs₀]
    exact ⟨hset.clock, hset.inited, nofun⟩
  have hremains : ∀ b, Remains cal s₀ t₁ b ↔ Remains cal s t₁ b ∧ b ≠ a := fun b => by
    unfold Remains FiresOnce AlarmContainer.Started
    rw [halarm]
    split_ifs with hb <;> simp [hb]
  have hsec₀ : ∀ b, s₀.sec b = s.sec b := fun b => by
    rw [AlarmContainer.sec, halarm]
    split_ifs with hb
    · rw [hb]
      rfl
    · rfl
  obtain ⟨s₃, hs₃⟩ : ∃ s₃, (alarmWakeups cal (cal.localtime t₁) s₀ s₀.head).1 = s₃ := ⟨_, rfl⟩
  have hwake := wakened_alarmWakeups cal t₁ s₀.head s₀
  have hnow := alarmMkdaysec_lt (cal.clock t₂)
  simp only [alarmUpdate] at hs'
  rw [hs₃] at hwake hs'
  have hbase₃ := hwake.base hbase
  have hoff₃ := hwake.off (.inr hoff)
  have hsec : ∀ b, s₃.sec b = s.sec b := fun b => (hwake.sec_eq b).trans (hsec₀ b)
  have hhead₃ : s₃.head = s.head := hwake.head.trans hhead
  have hstarted₃ : ∀ b ∈ s.head, s₃.Started b ↔ Remains cal s t₁ b ∧ b ≠ a := fun b hb => by
    rw [hwake.started (hhead ▸ hb), hremains]
  have heligible : ∀ b ∈ s.head, Eligible s₃ b ↔ Remains cal s t₁ b ∧ b ≠ a := fun b hb => by
    rw [Eligible, hstarted₃ b hb, hwake.current, hnone]
    exact and_iff_left nofun
  have hstopped : ¬ s₃.Started a := fun hstarteda => ((hstarted₃ a ha).1 hstarteda).2 rfl
  have hfirst : ∀ now b, s₃.First s₃.Started now b ↔ s.First (fun b => Remains cal s t₁ b ∧ b ≠ a) now b := fun now b =>
    AlarmContainer.first_congr hhead₃ (fun b hb => (hstarted₃ b hb).symm) fun b _ _ => hsec b
  rcases alarmSelect_eq hbase₃ hnow with ⟨b, hbest, hother, hselect⟩ | ⟨hall, hselect⟩ <;> rw [hselect] at hs' <;> rw [← hs']
  · have hbestP : s.First (fun b => Remains cal s t₁ b ∧ b ≠ a) (alarmMkdaysec (cal.localtime t₂)) b :=
      hbest.congr hhead₃.symm (fun b hb => heligible b (hhead₃ ▸ hb)) fun b _ _ => (hsec b).symm
    have htuned := AlarmContainer.tuned_makeCurrent hbest.1 hbest.2.1.1
    refine ⟨⟨hbase₃.makeCurrent hbest.1 (hbase₃.clock b (hbase₃.inited b hbest.2.1.1)), .inr ⟨b, htuned⟩,
      htuned.rightAt.trans ((hfirst _ b).trans ⟨fun hright => ?_, fun hfits => ?_⟩)⟩, hstopped⟩
    · exact .inr ⟨b, hbestP.1, hsec b ▸ hother, hbestP, hright⟩
    · rcases hfits with hnone | ⟨b', hb', -, hbest', hright⟩
      · exact absurd hbestP.2.1 (hnone b hbestP.1)
      · -- both come first at the time of the update, so they have the same second
        have hlt := h.sec_lt hbestP.2.1.1.1
        have hlt' := h.sec_lt hbest'.2.1.1.1
        have hle := Nat.le_antisymm (hbestP.2.2 b' hb' hbest'.2.1) (hbest'.2.2 b hbestP.1 hbestP.2.1)
        exact hright.congr_sec hbestP.1 hbestP.2.1 (comesIn_inj hnow hlt hlt' hle)
  · refine ⟨⟨hbase₃, .inl hoff₃, (AlarmContainer.rightAt_of_off hoff₃).trans ?_⟩, hstopped⟩
    rw [hhead₃]
    refine (forall₂_congr fun b hb => not_congr (hstarted₃ b hb)).trans ⟨.inl, fun hfits => hfits.resolve_right ?_⟩
    rintro ⟨b, hb, hother, hbest, -⟩
    exact hother (hsec b ▸ hall b (hhead₃ ▸ hb) ((heligible b hb).2 hbest.2.1))

theorem AlarmInv.stop (cal : Calendar) (h : AlarmInv s) (ha : a ∈ s.head) (t₁ t₂ t₃ : Nat) :
    AlarmOutcome (rtAlarmStop cal s a t₁ t₂).1 (alarmMkdaysec (cal.localtime t₃)) (StopFits cal s a t₁ t₂ t₃) ∧
      ¬ (rtAlarmStop cal s a t₁ t₂).1.Started a := by
  unfold rtAlarmStop StopFits
  by_cases hstarted : s.Started a
  · by_cases hcurrent : s.current = some a
    · simp only [if_pos hstarted, if_pos hcurrent, if_pos (And.intro hstarted hcurrent)]
      exact h.stopCurrent ha hstarted t₁ t₂ t₃ rfl
    · have hnot : ¬ (s.Started a ∧ s.current = some a) := fun hboth => hcurrent hboth.2
      simp only [if_pos hstarted, if_neg hcurrent, if_neg hnot]
      have hbase : AlarmBase (s.setAlarm a { s.alarm a with start := false }) :=
        h.toAlarmBase.setAlarm (h.clock a (h.inited a hstarted)) fun _ => h.inited a hstarted
      have hiff : ∀ b, (s.setAlarm a { s.alarm a with start := false }).Started b ↔ s.Started b ∧ b ≠ a := fun b => by
        rw [AlarmContainer.started_setAlarm]
        split_ifs with hb <;> simp [hb]
      rcases h.tuned with ⟨-, hidle⟩ | ⟨c, htuned⟩
      · exact absurd hstarted (hidle a ha)
      · have hne : c ≠ a := fun hca => hcurrent (hca ▸ htuned.1)
        have htuned' : (s.setAlarm a { s.alarm a with start := false }).Tuned c := htuned.setAlarm hne
        refine ⟨⟨hbase, .inr ⟨c, htuned'⟩, htuned'.rightAt.trans ?_⟩, fun hstarteda => ((hiff a).1 hstarteda).2 rfl⟩
        have hsec : ∀ b, (s.setAlarm a { s.alarm a with start := false }).sec b = s.sec b :=
          AlarmContainer.sec_setAlarm (show { s.alarm a with start := false }.wktime = (s.alarm a).wktime from rfl)
        have hfirst (now : Nat) : (s.setAlarm a { s.alarm a with start := false }).First
            (s.setAlarm a { s.alarm a with start := false }).Started now c ↔ s.First (fun b => s.Started b ∧ b ≠ a) now c :=
          AlarmContainer.first_congr rfl (fun b _ => (hiff b).symm) fun b _ _ => hsec b
        rw [hfirst]
        constructor
        · exact fun hfirst => .inr ⟨c, htuned.1, hfirst⟩
        · rintro (hnone | ⟨c', hc', hfirst⟩)
          · exact absurd ⟨htuned.2.2.1, hne⟩ (hnone c htuned.2.1)
          · rw [Option.mem_def, htuned.1, Option.some.injEq] at hc'
            rwa [hc']
  · have hnot : ¬ (s.Started a ∧ s.current = some a) := fun hboth => hstarted hboth.1
    simp only [if_neg hstarted, if_neg hnot]
    refine ⟨?_, hstarted⟩
    have hiff : (fun b => s.Started b ∧ b ≠ a) = s.Started := by
      funext b
      exact propext (and_iff_left_of_imp fun hb hba => hstarted (hba ▸ hb))
    rw [hiff]
    exact h.outcome

theorem AlarmInv.modify (h : AlarmInv s) (ha : a ∈ s.head) (flag : Nat) (wktime : Tm) (t₁ t₂ t₃ : Nat) :
    AlarmOutcome (rtAlarmModify cal s a flag wktime t₁ t₂ t₃).1 (alarmMkdaysec (cal.localtime t₃)) (StopFits cal s a t₁ t₂ t₃) := by
  obtain ⟨hstop, hidle⟩ := h.stop cal ha t₁ t₂ t₃
  refine hstop.setAlarm hidle (alarmSetup_clock _ (cal.clock t₃)) ?_
  rw [alarmSetup_start]

/-! ## Runs -/

theorem AlarmOutcome.atTime {fits : Prop} (h : AlarmOutcome s now fits) (t : Nat) : AlarmOutcome { s with time := t } now fits :=
  ⟨⟨h.clock, h.inited, h.current⟩, h.settled, h.right⟩

theorem AlarmInv.step {events : List AlarmEvent} (h : AlarmInv s) (hstep : stepAlarm cal s op = some (s', events)) :
    AlarmOutcome s' (alarmMkdaysec (cal.localtime s'.time)) (AlarmsSafe cal s op) := by
  cases op with
  | start a t₁ t₂ =>
    simp only [stepAlarm] at hstep
    split_ifs at hstep with hguard
    cases hstep
    exact (h.start hguard.1 t₁ t₂).atTime t₂
  | stop a t₁ t₂ =>
    simp only [stepAlarm] at hstep
    split_ifs at hstep with hguard
    cases hstep
    exact (h.stop cal hguard.1 t₁ t₂ t₂).1.atTime t₂
  | modify a flag wktime t₁ t₂ t₃ =>
    simp only [stepAlarm] at hstep
    split_ifs at hstep with hguard
    cases hstep
    exact (h.modify hguard.1 flag wktime t₁ t₂ t₃).atTime t₃
  | event t₁ t₂ =>
    simp only [stepAlarm] at hstep
    split_ifs at hstep
    cases hstep
    exact (h.event t₁ t₂).atTime t₂

theorem not_started_init (alarms : List (Bool × Nat × Tm)) (a : Nat) : ¬ (AlarmContainer.init alarms).Started a := by
  unfold AlarmContainer.Started AlarmContainer.init
  dsimp only
  cases alarms[a]? <;> exact Bool.false_ne_true

theorem AlarmInv.init (alarms : List (Bool × Nat × Tm)) : AlarmInv (.init alarms) := by
  refine ⟨⟨fun a ha => ?_, fun a ha => absurd ha (not_started_init alarms a), nofun⟩, .inl ⟨rfl, fun a _ => not_started_init alarms a⟩⟩
  have hinited : ((AlarmContainer.init alarms).alarm a).inited = false := by
    unfold AlarmContainer.init
    dsimp only
    cases alarms[a]? <;> rfl
  rw [hinited] at ha
  cases ha

section runs

variable {alarms : List (Bool × Nat × Tm)} {trace events : List AlarmEvent}

theorem alarmInv_of_run (hrun : AlarmRun cal (AlarmsSafe cal) alarms trace s) : AlarmInv s :=
  hrun.state_invariant (.init alarms) fun _ _ _ _ h hsafe hstep => (h.step hstep).inv hsafe

/-- The first step that does not meet its condition leaves a hardware alarm that is not right. -/
theorem alarmsRight_step_iff (hrun : AlarmRun cal (AlarmsSafe cal) alarms trace s) (hstep : stepAlarm cal s op = some (s', events)) :
    AlarmsRight cal s' ↔ AlarmsSafe cal s op :=
  ((alarmInv_of_run hrun).step hstep).right

/-- In a run whose steps meet the conditions, the hardware alarm is always right. -/
theorem alarmsRight_of_run (hrun : AlarmRun cal (AlarmsSafe cal) alarms trace s) : AlarmsRight cal s := by
  cases hrun with
  | start =>
    rintro ⟨a, -, hstarted⟩
    exact absurd hstarted (not_started_init alarms a)
  | next hbefore hsafe hstep => exact ((alarmInv_of_run hbefore).step hstep).right.2 hsafe

end runs

/-! ## Examples -/

def secondDay (tmHour tmMin : Int) : Tm := ⟨0, tmMin, tmHour, 2, 0, 70, 5⟩

theorem AlarmRun.exists_of_exec (ok : AlarmContainer → AlarmOp → Prop) [∀ s op, Decidable (ok s op)] (alarms : List (Bool × Nat × Tm))
    (ops : List AlarmOp) (found : AlarmContainer → Bool)
    (h : ((Transition.exec (stepAlarm minilibc) ok (.init alarms) ops).any fun r => found r.2) = true) :
    ∃ trace s, AlarmRun minilibc ok alarms trace s ∧ found s = true := Transition.exists_run_of_exec ops (fun _ => found) h

/-- Daily alarms at ten and at twelve are started, the first goes off, the second is stopped; a one-shot alarm at eight of the next day is started and goes off. -/
theorem alarmsRight_of_run_oneshot : ∃ trace s,
    AlarmRun minilibc (AlarmsSafe minilibc) [(true, 0x100, secondDay 10 0), (true, 0x100, secondDay 12 0), (true, 0, secondDay 8 0)] trace s ∧
      s.wkalarm = ⟨true, 0, 0, 10⟩ ∧ AlarmsRight minilibc s := by
  obtain ⟨trace, s, hrun, hfound⟩ := AlarmRun.exists_of_exec (AlarmsSafe minilibc)
    [(true, 0x100, secondDay 10 0), (true, 0x100, secondDay 12 0), (true, 0, secondDay 8 0)]
    [.start 0 32400 32400, .start 1 34200 34200, .event 36000 36000, .stop 1 39600 39600, .start 2 41400 41400, .event 115200 115201]
    (fun s => decide (s.wkalarm = ⟨true, 0, 0, 10⟩)) (by decide +kernel)
  exact ⟨trace, s, hrun, of_decide_eq_true hfound, alarmsRight_of_run hrun⟩

/-- A daily alarm is started after a one-shot alarm has gone off: the hardware alarm stays disabled. An alarm is started after one was to go off and before its event is handled: the hardware alarm is set to the one that has passed. -/
theorem alarms_fail :
    (∃ trace s, AlarmRun minilibc (fun _ _ => True) [(true, 0, secondDay 8 0), (true, 0x100, secondDay 8 30)] trace s ∧
      s.Started 1 ∧ s.wkalarm.enable = false ∧ ¬ AlarmsRight minilibc s) ∧
    ∃ trace s, AlarmRun minilibc (fun _ _ => True) [(true, 0x100, secondDay 8 0), (true, 0x100, secondDay 9 0)] trace s ∧
      s.time = 28806 ∧ s.Started 1 ∧ s.wkalarm = ⟨true, 0, 0, 8⟩ ∧ ¬ AlarmsRight minilibc s := by
  constructor
  · obtain ⟨trace, s, hrun, hfound⟩ := AlarmRun.exists_of_exec (fun _ _ => True) [(true, 0, secondDay 8 0), (true, 0x100, secondDay 8 30)]
      [.start 0 0 0, .event 115200 115200, .start 1 118800 118800]
      (fun s => decide (1 ∈ s.head ∧ s.Started 1 ∧ s.wkalarm.enable = false)) (by decide +kernel)
    obtain ⟨hmem, hstarted, hoff⟩ := of_decide_eq_true hfound
    refine ⟨trace, s, hrun, hstarted, hoff, fun hright => ?_⟩
    rw [(hright ⟨1, hmem, hstarted⟩).1] at hoff
    cases hoff
  · obtain ⟨trace, s, hrun, hfound⟩ := AlarmRun.exists_of_exec (fun _ _ => True) [(true, 0x100, secondDay 8 0), (true, 0x100, secondDay 9 0)]
      [.start 0 0 0, .start 1 28805 28805, .event 28806 28806]
      (fun s => decide (s.time = 28806 ∧ 1 ∈ s.head ∧ s.Started 1 ∧ s.wkalarm = ⟨true, 0, 0, 8⟩ ∧ s.sec 1 = 32400)) (by decide +kernel)
    obtain ⟨htime, hmem, hstarted, hwkalarm, hsec⟩ := of_decide_eq_true hfound
    refine ⟨trace, s, hrun, htime, hstarted, hwkalarm, fun hright => ?_⟩
    obtain ⟨-, a, hfirst, ha⟩ := hright ⟨1, hmem, hstarted⟩
    have hle := hfirst.2.2 1 hmem hstarted
    have hsec' : s.sec a = 28800 := by
      have heq : (s.alarm a).wkalarm = ⟨true, 0, 0, 8⟩ := ha.symm.trans hwkalarm
      simp only [RtAlarm.wkalarm, WkAlarm.mk.injEq] at heq
      rw [AlarmContainer.sec, alarmMkdaysec, heq.2.1, heq.2.2.1, heq.2.2.2]
      rfl
    rw [htime, hsec, hsec'] at hle
    exact absurd hle (by decide)

end RtThread
