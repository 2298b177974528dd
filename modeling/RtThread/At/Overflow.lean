import RtThread.At.ClientRuns

/-!
# Lines that find no room

A line that the buffer of a response has no room for is left out, and `resp_status` says so. The line that ends the response writes `resp_status` again: the command returns `RT_EOK` when that line ends it well, whatever was left out before.
-/

namespace RtThread

def roomFor (used bufSize : Nat) (lines : List (List AtByte)) : List (List AtByte) :=
  lines.foldl (fun kept l => if used + (kept.map List.length).sum + l.length < bufSize then kept ++ [l] else kept) []

namespace AtClient

def parseLines (s : AtClient) (lines : List (List AtByte)) : AtClient := lines.foldl parseLine s

def Drops (s : AtClient) (lines : List (List AtByte)) : Prop :=
  ∃ early l later point resp, lines = early ++ l :: later ∧ (s.parseLines early).respSet = true ∧
    (s.parseLines early).command = some ⟨point, some resp⟩ ∧ ¬(s.parseLines early).respBufLen + l.length < resp.buf.length

def Returns (s : AtClient) (result : AtResult) : Prop :=
  ∃ resp s', Transition.exec stepAt (fun _ _ => True) s (if s.respNotice = 0 then [.timeout, .go] else [.go, .go, .go]) =
    some ([.returned result resp], s')

def lineEnds (s : AtClient) (resp : AtResp) (early : List (List AtByte)) (l : List AtByte) : Option AtStatus :=
  checkResult resp.lineNum (s.lineCounts + (roomFor s.respBufLen resp.buf.length (early ++ [l])).length) (lineData l)

def GoesOn (s : AtClient) (resp : AtResp) (lines : List (List AtByte)) : Prop :=
  ∀ early l later, lines = early ++ l :: later → s.lineEnds resp early l = none

def RoomIfOk (s : AtClient) (resp : AtResp) (lines : List (List AtByte)) : Prop :=
  ∀ early l later, lines = early ++ l :: later → s.GoesOn resp early → s.lineEnds resp early l = some .ok →
    s.respBufLen + ((early ++ [l]).map List.length).sum < resp.buf.length

end AtClient

section

variable {used bufSize : Nat} {lines : List (List AtByte)} {l : List AtByte}

theorem roomFor_concat (used bufSize : Nat) (lines : List (List AtByte)) (l : List AtByte) :
    roomFor used bufSize (lines ++ [l]) =
      if used + ((roomFor used bufSize lines).map List.length).sum + l.length < bufSize then roomFor used bufSize lines ++ [l]
      else roomFor used bufSize lines := by
  rw [roomFor, List.foldl_append]
  rfl

theorem roomFor_le (used bufSize : Nat) (lines : List (List AtByte)) :
    (roomFor used bufSize lines).length ≤ lines.length ∧
      ((roomFor used bufSize lines).map List.length).sum ≤ (lines.map List.length).sum := by
  induction lines using List.reverseRecOn with
  | nil => exact ⟨Nat.le_refl _, Nat.le_refl _⟩
  | append_singleton lines l ih =>
    obtain ⟨hlength, hsum⟩ := ih
    rw [roomFor_concat, List.length_append, List.map_append, List.sum_append]
    by_cases hroom : used + ((roomFor used bufSize lines).map List.length).sum + l.length < bufSize
    · rw [if_pos hroom, List.length_append, List.map_append, List.sum_append]
      exact ⟨Nat.add_le_add_right hlength _, Nat.add_le_add_right hsum _⟩
    · rw [if_neg hroom]
      exact ⟨Nat.le_add_right_of_le hlength, Nat.le_add_right_of_le hsum⟩

theorem roomFor_eq_self (h : lines ≠ [] → used + (lines.map List.length).sum < bufSize) : roomFor used bufSize lines = lines := by
  induction lines using List.reverseRecOn with
  | nil => rfl
  | append_singleton lines l ih =>
    have htotal := h (List.append_ne_nil_of_right_ne_nil _ (List.cons_ne_nil _ _))
    rw [List.map_append, List.sum_append, List.map_singleton, List.sum_singleton] at htotal
    rw [roomFor_concat, ih fun _ => by omega, if_pos (by omega)]

theorem roomFor_concat_eq_iff :
    roomFor used bufSize (lines ++ [l]) = lines ++ [l] ↔ used + ((lines ++ [l]).map List.length).sum < bufSize := by
  constructor
  · intro heq
    rw [roomFor_concat] at heq
    by_cases hroom : used + ((roomFor used bufSize lines).map List.length).sum + l.length < bufSize
    · rw [if_pos hroom] at heq
      rw [(List.append_left_inj _).mp heq] at hroom
      rw [List.map_append, List.sum_append, List.map_singleton, List.sum_singleton]
      omega
    · rw [if_neg hroom] at heq
      have hle := (roomFor_le used bufSize lines).1
      rw [heq, List.length_append, List.length_singleton] at hle
      omega
  · intro htotal
    exact roomFor_eq_self fun _ => htotal

theorem roomFor_ne_iff : roomFor used bufSize lines ≠ lines ↔ ∃ early l later, lines = early ++ l :: later ∧
    ¬used + ((roomFor used bufSize early).map List.length).sum + l.length < bufSize := by
  constructor
  · intro hne
    induction lines using List.reverseRecOn with
    | nil => exact absurd rfl hne
    | append_singleton lines l ih =>
      by_cases hkept : roomFor used bufSize lines = lines
      · refine ⟨lines, l, [], rfl, fun hroom => hne ?_⟩
        rw [roomFor_concat, if_pos hroom, hkept]
      · obtain ⟨early, l', later, rfl, hroom⟩ := ih hkept
        exact ⟨early, l', later ++ [l], by rw [List.append_assoc, List.cons_append], hroom⟩
  · rintro ⟨early, l, later, rfl, hroom⟩ hkept
    have hle := (roomFor_le used bufSize early).2
    have htotal : used + ((early ++ l :: later).map List.length).sum < bufSize := by
      rcases List.eq_nil_or_concat (l :: later) with hnil | ⟨front, last, hlast⟩
      · cases hnil
      · rw [hlast, List.concat_eq_append, ← List.append_assoc] at hkept ⊢
        exact roomFor_concat_eq_iff.mp hkept
    rw [List.map_append, List.sum_append, List.map_cons, List.sum_cons] at htotal
    omega

end

namespace AtClient

variable {s t : AtClient} {resp resp' : AtResp} {lines early : List (List AtByte)} {l : List AtByte} {point : AtPoint}

theorem parseLines_concat (s : AtClient) (lines : List (List AtByte)) (l : List AtByte) :
    s.parseLines (lines ++ [l]) = (s.parseLines lines).parseLine l := by
  rw [parseLines, List.foldl_append]
  rfl

theorem parseLines_append (s : AtClient) (lines later : List (List AtByte)) :
    s.parseLines (lines ++ later) = (s.parseLines lines).parseLines later := List.foldl_append

theorem parseLines_of_not_respSet (h : s.respSet = false) (lines : List (List AtByte)) : s.parseLines lines = s := by
  induction lines with
  | nil => rfl
  | cons l lines ih => rw [parseLines, List.foldl_cons, parseLine_of_not_respSet h]; exact ih

theorem returns_iff (hcommand : s.command = some ⟨.wait, some resp⟩) {result : AtResult} :
    s.Returns result ↔ result = if s.respNotice = 0 then .etimeout else if s.respStatus = .ok then .eok else .error := by
  by_cases hnotice : s.respNotice = 0
  · simp [Returns, Transition.exec, stepAt, commandGo, setPoint, hcommand, hnotice, eq_comm]
  · simp [Returns, Transition.exec, stepAt, commandGo, setPoint, hcommand, hnotice, eq_comm]

/-- Where the lines leave the client that none of them ends the response of. -/
structure Filled (s : AtClient) (resp : AtResp) (point : AtPoint) (lines : List (List AtByte)) (t : AtClient) (resp' : AtResp) : Prop where
  command : t.command = some ⟨point, some resp'⟩
  respSet : t.respSet = true
  notice : t.respNotice = s.respNotice
  lineNum : resp'.lineNum = resp.lineNum
  size : resp'.buf.length = resp.buf.length
  used : t.respBufLen = s.respBufLen + ((roomFor s.respBufLen resp.buf.length lines).map List.length).sum
  count : t.lineCounts = s.lineCounts + (roomFor s.respBufLen resp.buf.length lines).length
  status : roomFor s.respBufLen resp.buf.length lines ≠ lines → t.respStatus = .buffFull

structure Ended (s : AtClient) (point : AtPoint) (status : AtStatus) (t : AtClient) : Prop where
  command : ∃ resp', t.command = some ⟨point, some resp'⟩
  respSet : t.respSet = false
  notice : t.respNotice = s.respNotice + 1
  status : t.respStatus = status

theorem Filled.store (h : Filled s resp point lines t resp') (hl : l ≠ []) :
    Filled s resp point (lines ++ [l]) { (t.store resp' l).2 with command := some ⟨point, some (t.store resp' l).1⟩ } (t.store resp' l).1 := by
  have hsize := t.store_buf_length resp' hl
  have hnum := t.store_lineNum resp' l
  have hroom_iff : t.respBufLen + l.length < resp'.buf.length ↔
      s.respBufLen + ((roomFor s.respBufLen resp.buf.length lines).map List.length).sum + l.length < resp.buf.length := by
    rw [h.used, h.size]
  by_cases hroom : t.respBufLen + l.length < resp'.buf.length
  · have hkept := roomFor_concat s.respBufLen resp.buf.length lines l
    rw [if_pos (hroom_iff.mp hroom)] at hkept
    rw [AtClient.store, if_pos hroom] at hsize hnum ⊢
    refine ⟨rfl, h.respSet, h.notice, hnum.trans h.lineNum, hsize.trans h.size, ?_, ?_, ?_⟩
    · rw [hkept, List.map_append, List.sum_append, List.map_singleton, List.sum_singleton, ← Nat.add_assoc, ← h.used]
    · rw [hkept, List.length_append, List.length_singleton, ← Nat.add_assoc, ← h.count]
    · rw [hkept]
      intro hne
      exact h.status fun heq => hne (by rw [heq])
  · have hkept := roomFor_concat s.respBufLen resp.buf.length lines l
    rw [if_neg (mt hroom_iff.mpr hroom)] at hkept
    rw [AtClient.store, if_neg hroom] at hsize hnum ⊢
    refine ⟨rfl, h.respSet, h.notice, h.lineNum, h.size, ?_, ?_, fun _ => rfl⟩
    · rw [hkept]
      exact h.used
    · rw [hkept]
      exact h.count

theorem Filled.parseLine (h : Filled s resp point lines t resp') (hl : l ≠ []) :
    (s.lineEnds resp lines l = none → ∃ resp'', Filled s resp point (lines ++ [l]) (t.parseLine l) resp'') ∧
    (∀ status, s.lineEnds resp lines l = some status → Ended s point status (t.parseLine l)) := by
  have hstored := h.store hl
  have heq : t.parseLine l = (t.store resp' l).2.finish ⟨point, some resp'⟩ (t.store resp' l).1 l := by
    rw [AtClient.parseLine, h.respSet, h.command]
  have hcheck : checkResult (t.store resp' l).1.lineNum (t.store resp' l).2.lineCounts (lineData l) = s.lineEnds resp lines l := by
    rw [lineEnds, hstored.lineNum]
    exact congrArg (checkResult resp.lineNum · (lineData l)) hstored.count
  rw [heq, finish, hcheck]
  constructor
  · intro hends
    rw [hends]
    exact ⟨_, hstored⟩
  · intro status hends
    rw [hends]
    exact ⟨⟨_, rfl⟩, rfl, congrArg (· + 1) hstored.notice, rfl⟩

theorem GoesOn.concat_iff : s.GoesOn resp (lines ++ [l]) ↔ s.GoesOn resp lines ∧ s.lineEnds resp lines l = none := by
  constructor
  · intro h
    refine ⟨fun early l' later heq => h early l' (later ++ [l]) ?_, h lines l [] rfl⟩
    rw [heq, List.append_assoc, List.cons_append]
  · rintro ⟨h, hl⟩ early l' later heq
    rcases List.eq_nil_or_concat later with rfl | ⟨later, last, rfl⟩
    · obtain ⟨rfl, hlast⟩ := List.append_inj' heq rfl
      obtain rfl := List.singleton_inj.1 hlast
      exact hl
    · rw [List.concat_eq_append, ← List.cons_append, ← List.append_assoc] at heq
      exact h early l' later (List.append_inj' heq rfl).1

theorem parseLines_filled (hcommand : s.command = some ⟨point, some resp⟩) (hset : s.respSet = true) (hlines : ∀ l ∈ lines, l ≠ [])
    (hgoes : s.GoesOn resp lines) : ∃ resp', Filled s resp point lines (s.parseLines lines) resp' := by
  induction lines using List.reverseRecOn with
  | nil => exact ⟨resp, hcommand, hset, rfl, rfl, rfl, rfl, rfl, fun hne => absurd rfl hne⟩
  | append_singleton lines l ih =>
    obtain ⟨hbefore, hends⟩ := GoesOn.concat_iff.mp hgoes
    obtain ⟨resp', hfilled⟩ := ih (fun l' hl' => hlines l' (List.mem_append_left _ hl')) hbefore
    rw [parseLines_concat]
    exact (hfilled.parseLine (hlines l (List.mem_append_right _ (List.mem_singleton_self l)))).1 hends

theorem goesOn_or_ends (s : AtClient) (resp : AtResp) (lines : List (List AtByte)) :
    s.GoesOn resp lines ∨ ∃ early l later status, lines = early ++ l :: later ∧ s.GoesOn resp early ∧ s.lineEnds resp early l = some status := by
  induction lines using List.reverseRecOn with
  | nil =>
    left
    intro early l later heq
    cases early <;> cases heq
  | append_singleton lines l ih =>
    rcases ih with hgoes | ⟨early, l', later, status, rfl, hearly, hends⟩
    · cases hends : s.lineEnds resp lines l with
      | none => exact Or.inl (GoesOn.concat_iff.mpr ⟨hgoes, hends⟩)
      | some status => exact Or.inr ⟨lines, l, [], status, rfl, hgoes, hends⟩
    · exact Or.inr ⟨early, l', later ++ [l], status, by rw [List.append_assoc, List.cons_append], hearly, hends⟩

theorem ends_unique {early' later later' : List (List AtByte)} {l' : List AtByte} {status : AtStatus}
    (heq : early ++ l :: later = early' ++ l' :: later') (hgoes : s.GoesOn resp early) (hends : s.lineEnds resp early l = some status)
    (hgoes' : s.GoesOn resp early') {status' : AtStatus} (hends' : s.lineEnds resp early' l' = some status') :
    early = early' ∧ l = l' := by
  rcases List.append_eq_append_iff.mp heq with ⟨mid, hearly, hlater⟩ | ⟨mid, hearly, hlater⟩
  · cases mid with
    | nil =>
      obtain ⟨hl, -⟩ := List.cons.inj hlater
      exact ⟨by rw [hearly, List.append_nil], hl⟩
    | cons m mid =>
      obtain ⟨rfl, -⟩ := List.cons.inj hlater
      rw [hgoes' early l mid hearly] at hends
      cases hends
  · cases mid with
    | nil =>
      obtain ⟨hl, -⟩ := List.cons.inj hlater
      exact ⟨by rw [hearly, List.append_nil], hl.symm⟩
    | cons m mid =>
      obtain ⟨rfl, -⟩ := List.cons.inj hlater
      rw [hgoes early' l' mid hearly] at hends'
      cases hends'

theorem drops_iff (hcommand : s.command = some ⟨point, some resp⟩) (hset : s.respSet = true) (hlines : ∀ l ∈ lines, l ≠ [])
    (hgoes : ∀ early l later, lines = early ++ l :: later → s.GoesOn resp early) :
    s.Drops lines ↔ roomFor s.respBufLen resp.buf.length lines ≠ lines := by
  rw [roomFor_ne_iff]
  constructor
  · rintro ⟨early, l, later, point', resp', rfl, -, hcommand', hroom⟩
    obtain ⟨resp'', hfilled⟩ := parseLines_filled hcommand hset (fun l' hl' => hlines l' (List.mem_append_left _ hl')) (hgoes early l later rfl)
    obtain ⟨-, hresp⟩ := AtCommand.mk.inj (Option.some.inj (hcommand'.symm.trans hfilled.command))
    obtain rfl := Option.some.inj hresp
    refine ⟨early, l, later, rfl, ?_⟩
    rwa [hfilled.used, hfilled.size] at hroom
  · rintro ⟨early, l, later, rfl, hroom⟩
    obtain ⟨resp', hfilled⟩ := parseLines_filled hcommand hset (fun l' hl' => hlines l' (List.mem_append_left _ hl')) (hgoes early l later rfl)
    refine ⟨early, l, later, point, resp', rfl, hfilled.respSet, hfilled.command, ?_⟩
    rwa [hfilled.used, hfilled.size]

theorem drops_append_iff {point : AtPoint} {status : AtStatus} {later : List (List AtByte)}
    (hended : Ended s point status (s.parseLines lines)) : s.Drops (lines ++ later) ↔ s.Drops lines := by
  constructor
  · rintro ⟨early, l, rest, point', resp', heq, hset, hcommand, hroom⟩
    rcases List.append_eq_append_iff.mp heq with ⟨mid, hearly, -⟩ | ⟨mid, hlines, hrest⟩
    · rw [hearly, parseLines_append, parseLines_of_not_respSet hended.respSet, hended.respSet] at hset
      cases hset
    · cases mid with
      | nil =>
        rw [← (hlines.trans (List.append_nil early)), hended.respSet] at hset
        cases hset
      | cons m mid =>
        obtain ⟨rfl, -⟩ := List.cons.inj hrest
        exact ⟨early, l, mid, point', resp', hlines, hset, hcommand, hroom⟩
  · rintro ⟨early, l, rest, point', resp', rfl, hset, hcommand, hroom⟩
    exact ⟨early, l, rest ++ later, point', resp', by rw [List.append_assoc, List.cons_append], hset, hcommand, hroom⟩

theorem roomIfOk_iff {later : List (List AtByte)} {status : AtStatus} (hgoes : s.GoesOn resp early)
    (hends : s.lineEnds resp early l = some status) :
    s.RoomIfOk resp (early ++ l :: later) ↔ (status = .ok → s.respBufLen + ((early ++ [l]).map List.length).sum < resp.buf.length) := by
  constructor
  · intro h hok
    exact h early l later rfl hgoes (hok ▸ hends)
  · intro h early' l' later' heq hgoes' hends'
    obtain ⟨rfl, rfl⟩ := ends_unique heq hgoes hends hgoes' hends'
    exact h (Option.some.inj (hends.symm.trans hends'))

/-- A command whose response has lost a line does not return `RT_EOK` exactly when a response that ends well has room for all its lines. -/
theorem atObjExecCmd_drops_iff (hcommand : s.command = some ⟨.wait, some resp⟩) (hset : s.respSet = true) (hlines : ∀ l ∈ lines, l ≠ []) :
    (s.Drops lines → ¬(s.parseLines lines).Returns .eok) ↔ s.RoomIfOk resp lines := by
  rcases goesOn_or_ends s resp lines with hgoes | ⟨early, l, later, status, rfl, hgoes, hends⟩
  · -- no line ends the response: the command fails by the status of the line that was left out, or times out
    obtain ⟨resp', hfilled⟩ := parseLines_filled hcommand hset hlines hgoes
    have hleft : s.RoomIfOk resp lines := by
      intro early l later heq _ hends
      rw [hgoes early l later heq] at hends
      cases hends
    have hearly : ∀ early l later, lines = early ++ l :: later → s.GoesOn resp early := by
      rintro early l later rfl early' l' later' rfl
      exact hgoes early' l' (later' ++ l :: later) (by rw [List.append_assoc, List.cons_append])
    refine iff_of_true (fun hdrops hreturns => ?_) hleft
    have hstatus := hfilled.status ((drops_iff hcommand hset hlines hearly).mp hdrops)
    rw [returns_iff hfilled.command, hstatus, if_neg (by decide : AtStatus.buffFull ≠ .ok)] at hreturns
    by_cases hnotice : (s.parseLines lines).respNotice = 0
    · rw [if_pos hnotice] at hreturns
      cases hreturns
    · rw [if_neg hnotice] at hreturns
      cases hreturns
  · -- the first line that ends the response decides
    have hfront : early ++ l :: later = (early ++ [l]) ++ later := by rw [List.append_assoc, List.singleton_append]
    have hfrontLines : ∀ l' ∈ early ++ [l], l' ≠ [] := fun l' hl' => hlines l' (hfront ▸ List.mem_append_left _ hl')
    obtain ⟨resp', hfilled⟩ := parseLines_filled hcommand hset (fun l' hl' => hfrontLines l' (List.mem_append_left _ hl')) hgoes
    have hended : Ended s .wait status (s.parseLines (early ++ [l])) := by
      rw [parseLines_concat]
      exact (hfilled.parseLine (hfrontLines l (List.mem_append_right _ (List.mem_singleton_self l)))).2 status hends
    have hearly : ∀ early' l' later', early ++ [l] = early' ++ l' :: later' → s.GoesOn resp early' := by
      intro early' l' later' heq early'' l'' later'' hsplit
      subst hsplit
      rcases List.eq_nil_or_concat later' with rfl | ⟨front, last, rfl⟩
      · obtain ⟨rfl, -⟩ := List.append_inj' heq rfl
        exact hgoes early'' l'' later'' rfl
      · rw [List.concat_eq_append, ← List.cons_append, ← List.append_assoc] at heq
        obtain ⟨rfl, -⟩ := List.append_inj' heq rfl
        exact hgoes early'' l'' (later'' ++ l' :: front) (by simp only [List.append_assoc, List.cons_append])
    have hdrops : s.Drops (early ++ l :: later) ↔ ¬s.respBufLen + ((early ++ [l]).map List.length).sum < resp.buf.length := by
      rw [hfront, drops_append_iff hended, drops_iff hcommand hset hfrontLines hearly]
      exact not_congr roomFor_concat_eq_iff
    have hreturns : (s.parseLines (early ++ l :: later)).Returns .eok ↔ status = .ok := by
      obtain ⟨resp'', hcommand'⟩ := hended.command
      rw [hfront, parseLines_append, parseLines_of_not_respSet hended.respSet, returns_iff hcommand', hended.notice,
        if_neg (Nat.succ_ne_zero _), hended.status]
      by_cases hok : status = .ok
      · simp [hok]
      · simp [hok]
    rw [hdrops, hreturns, roomIfOk_iff hgoes hends]
    constructor
    · intro h hok
      exact not_not.mp fun hroom => h hroom hok
    · intro h hroom hok
      exact hroom (h hok)

end AtClient

def atWaits : AtClient :=
  { AtClient.init 64 0 [] with respSet := true, command := some ⟨.wait, some ⟨[0, 0], 0, 0⟩⟩, sent := 1 }

def atLine (l : List UInt8) : List AtByte := l.map fun ch => ⟨ch, 1⟩

theorem atWaits_run : ∃ trace, AtRun (fun _ _ => True) 64 0 [] trace atWaits := by
  obtain ⟨trace, s, hrun, hfound⟩ := exists_atRun (fun _ _ => True) (atSends ⟨[0, 0], 0, 0⟩) (fun _ s => decide (s = atWaits)) (by decide +kernel)
  exact ⟨trace, of_decide_eq_true hfound ▸ hrun⟩

/-- Neither the line `a` nor the line `ERROR` finds room, and the command fails. -/
theorem atObjExecCmd_drops_iff_error :
    atWaits.Drops [atLine [0x61, 0x0D, 0x0A], atLine (atRespEndError ++ [0x0D, 0x0A])] ∧
      ¬(atWaits.parseLines [atLine [0x61, 0x0D, 0x0A], atLine (atRespEndError ++ [0x0D, 0x0A])]).Returns .eok := by
  have hdrops : atWaits.Drops [atLine [0x61, 0x0D, 0x0A], atLine (atRespEndError ++ [0x0D, 0x0A])] :=
    ⟨[], _, _, .wait, ⟨[0, 0], 0, 0⟩, rfl, rfl, rfl, by decide⟩
  have hroom : atWaits.RoomIfOk ⟨[0, 0], 0, 0⟩ [atLine [0x61, 0x0D, 0x0A], atLine (atRespEndError ++ [0x0D, 0x0A])] := by
    intro early l later heq _ hends
    rcases early with _ | ⟨first, _ | ⟨second, early⟩⟩
    · obtain ⟨rfl, -⟩ := List.cons.inj heq
      exact absurd hends (by decide)
    · obtain ⟨rfl, hrest⟩ := List.cons.inj heq
      obtain ⟨rfl, -⟩ := List.cons.inj hrest
      exact absurd hends (by decide)
    · obtain ⟨-, hrest⟩ := List.cons.inj heq
      obtain ⟨-, hrest⟩ := List.cons.inj hrest
      cases early <;> cases hrest
  exact ⟨hdrops, (AtClient.atObjExecCmd_drops_iff rfl rfl (by decide)).mpr hroom hdrops⟩

/-- The line `OK` finds no room, and the command returns `RT_EOK`. -/
theorem atObjExecCmd_drops_fails : (∃ trace, AtRun (fun _ _ => True) 64 0 [] trace atWaits) ∧
    atWaits.Drops [atLine atOkLine] ∧ (atWaits.parseLines [atLine atOkLine]).Returns .eok := by
  refine ⟨atWaits_run, ⟨[], _, [], .wait, ⟨[0, 0], 0, 0⟩, rfl, rfl, rfl, by decide⟩, ?_⟩
  have hcommand : (atWaits.parseLines [atLine atOkLine]).command = some ⟨.wait, some ⟨[0, 0], 0, 0⟩⟩ := by decide
  exact (AtClient.returns_iff hcommand).mpr (by decide)

end RtThread
