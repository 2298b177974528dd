import RtThread.At.Client

/-!
# The lines of a response

What a command gets when it returns `RT_EOK`: of the complete lines since it was sent, those up to the result line, as far as the buffer had room for them. The task keeps how much of a response it has filled, and the notice is not taken back, when a command times out; what the next command then gets is not its own. The steps at which that matters are `OwnSteps`.
-/

namespace RtThread

open Transition

/-! ## What a response is to hold -/

def linesSince (trace : List AtEvent) : List (List AtByte) :=
  trace.foldl (fun lines e => match e with
    | .sent => []
    | .line l => lines ++ [l]
    | .returned _ _ => lines) []

def sentCount (trace : List AtEvent) : Nat := trace.count .sent

def keptLines (bufSize : Nat) (lines : List (List AtByte)) : List (List AtByte) :=
  lines.foldl (fun kept l => if (kept.map List.length).sum + l.length < bufSize then kept ++ [l] else kept) []

def lineResult (lineNum bufSize : Nat) (early : List (List AtByte)) (l : List AtByte) : Option AtStatus :=
  checkResult lineNum (keptLines bufSize (early ++ [l])).length (lineData l)

def NoResult (lineNum bufSize : Nat) (lines : List (List AtByte)) : Prop :=
  ∀ early l later, lines = early ++ l :: later → lineResult lineNum bufSize early l = none

/-- Of these lines, `result` is the first that ends the response. -/
structure EndedBy (lineNum bufSize : Nat) (lines init : List (List AtByte)) (result : List AtByte) (status : AtStatus) : Prop where
  rest : ∃ rest, lines = init ++ result :: rest
  early : NoResult lineNum bufSize init
  ended : lineResult lineNum bufSize init result = some status

/-- What `at_resp_get_line` shows, line by line. -/
def AtResp.lines (resp : AtResp) : List (Option (List UInt8)) :=
  (List.range resp.lineCounts).map fun n => atRespGetLine resp (n + 1)

/-- A command that returns `RT_EOK` has a response with its own lines up to the result line. -/
def OwnLines (before : List AtEvent) : AtEvent → List AtEvent → Prop
  | .returned .eok (some resp), _ =>
    ∃ init result, EndedBy resp.lineNum resp.buf.length (linesSince before) init result .ok ∧
      (∀ l ∈ init ++ [result], ∀ b ∈ l, b.sent = sentCount before) ∧
      resp.lines = (keptLines resp.buf.length (init ++ [result])).map fun l => some (lineText l)
  | _, _ => True

namespace AtClient

def Idle (s : AtClient) : Prop :=
  s.rx = [] ∧ s.recvBuffer = [] ∧ s.respBufLen = 0 ∧ s.lineCounts = 0 ∧ s.respNotice = 0

def ReadsLine (s : AtClient) (b : AtByte) : Prop :=
  s.EndsLine b ∧ ¬(s.isFull = true ∨ s.recvBufsz ≤ s.recvBuffer.length) ∧ s.getUrcObj (s.received b) = none

end AtClient

/-- A command with a response is sent by an idle client, its response is not over before `line_counts` is cleared, and a line that is
read for a response has no null character in it. -/
def OwnSteps (s : AtClient) : AtOp → Prop
  | .go => ∀ c ∈ s.command, c.resp ≠ none → (c.point = .send → s.Idle) ∧ (c.point = .clear → s.respNotice = 0)
  | .parse => ∀ b ∈ s.rx.head?, s.respSet = true → s.ReadsLine b → 0 ∉ chars s.recvBuffer
  | _ => True

instance (s : AtClient) : Decidable s.Idle := by
  unfold AtClient.Idle
  infer_instance

instance (s : AtClient) (b : AtByte) : Decidable (s.ReadsLine b) := by
  unfold AtClient.ReadsLine
  infer_instance

instance (s : AtClient) (a : AtOp) : Decidable (OwnSteps s a) := by
  cases a <;> unfold OwnSteps <;> infer_instance

/-! ## Traces and lines -/

@[simp] theorem linesSince_sent (trace : List AtEvent) : linesSince (trace ++ [.sent]) = [] := by
  simp [linesSince]

@[simp] theorem linesSince_line (trace : List AtEvent) (l : List AtByte) :
    linesSince (trace ++ [.line l]) = linesSince trace ++ [l] := by
  simp [linesSince]

theorem keptLines_concat (bufSize : Nat) (lines : List (List AtByte)) (l : List AtByte) :
    keptLines bufSize (lines ++ [l]) =
      if ((keptLines bufSize lines).map List.length).sum + l.length < bufSize then keptLines bufSize lines ++ [l]
      else keptLines bufSize lines := by
  rw [keptLines, List.foldl_append]
  rfl

theorem keptLines_length_le (bufSize : Nat) (lines : List (List AtByte)) : (keptLines bufSize lines).length ≤ lines.length := by
  induction lines using List.reverseRecOn with
  | nil => exact Nat.le_refl _
  | append_singleton lines l ih =>
    rw [keptLines_concat, List.length_append]
    by_cases hroom : ((keptLines bufSize lines).map List.length).sum + l.length < bufSize
    · rw [if_pos hroom, List.length_append]
      exact Nat.add_le_add_right ih _
    · rw [if_neg hroom]
      exact Nat.le_add_right_of_le ih

theorem NoResult.concat {lineNum bufSize : Nat} {lines : List (List AtByte)} {l : List AtByte}
    (h : NoResult lineNum bufSize lines) (hl : lineResult lineNum bufSize lines l = none) :
    NoResult lineNum bufSize (lines ++ [l]) := by
  intro early l' later heq
  rcases List.eq_nil_or_concat later with rfl | ⟨later, last, rfl⟩
  · obtain ⟨rfl, hlast⟩ := List.append_inj' heq rfl
    obtain rfl := List.singleton_inj.1 hlast
    exact hl
  · rw [List.concat_eq_append, ← List.cons_append, ← List.append_assoc] at heq
    exact h early l' later (List.append_inj' heq rfl).1

theorem lineData_length {l : List AtByte} (hl : l ≠ []) : (lineData l).length = l.length := by
  have hpos := List.length_pos_of_ne_nil hl
  simp only [lineData, lineText, chars, List.length_append, List.length_dropLast, List.length_map, List.length_singleton]
  omega

/-! ## Reading a response -/

structure Shows (resp : AtResp) (kept : List (List AtByte)) : Prop where
  buf : ∃ tail, resp.buf = kept.flatMap lineData ++ tail
  text : ∀ l ∈ kept, 0 ∉ lineText l

theorem atString_lineData {l : List AtByte} (hl : 0 ∉ lineText l) (rest : List UInt8) :
    atString (lineData l ++ rest) = lineText l := by
  rw [atString, lineData, List.append_assoc, List.takeWhile_append_of_pos]
  · simp
  · intro c hc
    simp only [ne_eq, decide_eq_true_eq]
    rintro rfl
    exact hl hc

theorem skipString_lineData {l : List AtByte} (hl : 0 ∉ lineText l) (rest : List UInt8) :
    skipString (lineData l ++ rest) = rest := by
  rw [skipString, lineData, List.append_assoc, List.dropWhile_append_of_pos]
  · simp
  · intro c hc
    simp only [ne_eq, decide_eq_true_eq]
    rintro rfl
    exact hl hc

theorem skipString_iterate (tail : List UInt8) (n : Nat) :
    ∀ kept : List (List AtByte), (∀ l ∈ kept, 0 ∉ lineText l) → n ≤ kept.length →
      skipString^[n] (kept.flatMap lineData ++ tail) = (kept.drop n).flatMap lineData ++ tail := by
  induction n with
  | zero =>
    intro kept _ _
    rfl
  | succ n ih =>
    intro kept htext hn
    cases kept with
    | nil => simp at hn
    | cons l kept =>
      rw [Function.iterate_succ_apply, List.flatMap_cons, List.append_assoc,
        skipString_lineData (htext l List.mem_cons_self), List.drop_succ_cons]
      exact ih kept (fun l' hl' => htext l' (List.mem_cons_of_mem _ hl')) (Nat.le_of_succ_le_succ hn)

theorem Shows.lines {resp : AtResp} {kept : List (List AtByte)} (h : Shows resp kept) (hcount : resp.lineCounts = kept.length) :
    resp.lines = kept.map fun l => some (lineText l) := by
  obtain ⟨tail, hbuf⟩ := h.buf
  apply List.ext_getElem
  · simp [AtResp.lines, hcount]
  · intro i hi hi'
    have hlt : i < kept.length := by simpa using hi'
    have hline : ¬(i + 1 > resp.lineCounts ∨ i + 1 = 0) := by omega
    simp only [AtResp.lines, List.getElem_map, List.getElem_range]
    rw [atRespGetLine, if_neg hline, Nat.add_sub_cancel, hbuf, skipString_iterate tail i kept h.text (Nat.le_of_lt hlt),
      List.drop_eq_getElem_cons hlt, List.flatMap_cons, List.append_assoc,
      atString_lineData (h.text _ (List.getElem_mem hlt))]

/-! ## Storing a line -/

theorem Shows.store {resp : AtResp} {kept : List (List AtByte)} (h : Shows resp kept) {l : List AtByte}
    (htext : 0 ∉ lineText l) (n : Nat) :
    Shows { resp with buf := resp.buf.take (kept.flatMap lineData).length ++ (lineData l ++ resp.buf.drop n) } (kept ++ [l]) where
  buf := by
    obtain ⟨tail, hbuf⟩ := h.buf
    refine ⟨resp.buf.drop n, ?_⟩
    rw [hbuf, List.take_left, List.flatMap_append, List.flatMap_singleton, List.append_assoc]
  text := by
    intro l' hl'
    rcases List.mem_append.1 hl' with hl' | hl'
    · exact h.text l' hl'
    · rwa [List.mem_singleton.1 hl']

structure Stored (lines : List (List AtByte)) (s : AtClient) (resp : AtResp) : Prop where
  notice : s.respNotice = 0
  respSet : s.respSet = true
  count : s.lineCounts = (keptLines resp.buf.length lines).length
  sizes : ((keptLines resp.buf.length lines).map List.length).sum = s.respBufLen
  used : ((keptLines resp.buf.length lines).flatMap lineData).length = s.respBufLen
  shows : Shows resp (keptLines resp.buf.length lines)

structure Collected (trace : List AtEvent) (s : AtClient) (resp : AtResp) : Prop where
  stored : Stored (linesSince trace) s resp
  noResult : NoResult resp.lineNum resp.buf.length (linesSince trace)

def Finished (trace : List AtEvent) (status : AtStatus) (resp : AtResp) : Prop :=
  ∃ init result, EndedBy resp.lineNum resp.buf.length (linesSince trace) init result status ∧
    resp.lineCounts = (keptLines resp.buf.length (init ++ [result])).length ∧
    Shows resp (keptLines resp.buf.length (init ++ [result]))

structure Noticed (trace : List AtEvent) (s : AtClient) (resp : AtResp) : Prop where
  notice : s.respNotice = 1
  respSet : s.respSet = false
  finished : Finished trace s.respStatus resp

theorem Finished.line {trace : List AtEvent} {status : AtStatus} {resp : AtResp} (h : Finished trace status resp)
    (l : List AtByte) : Finished (trace ++ [.line l]) status resp := by
  obtain ⟨init, result, hended, hrest⟩ := h
  refine ⟨init, result, ⟨?_, hended.early, hended.ended⟩, hrest⟩
  obtain ⟨rest, hlines⟩ := hended.rest
  exact ⟨rest ++ [l], by rw [linesSince_line, hlines, List.append_assoc, List.cons_append]⟩

namespace AtClient

theorem store_lineNum (s : AtClient) (resp : AtResp) (l : List AtByte) : (s.store resp l).1.lineNum = resp.lineNum := by
  rw [store]
  by_cases hroom : s.respBufLen + l.length < resp.buf.length
  · rw [if_pos hroom]
  · rw [if_neg hroom]

theorem store_buf_length (s : AtClient) (resp : AtResp) {l : List AtByte} (hl : l ≠ []) :
    (s.store resp l).1.buf.length = resp.buf.length := by
  rw [store]
  by_cases hroom : s.respBufLen + l.length < resp.buf.length
  · rw [if_pos hroom]
    simp only [List.length_append, List.length_take, List.length_drop, lineData_length hl]
    omega
  · rw [if_neg hroom]

end AtClient

theorem Stored.store {lines : List (List AtByte)} {s : AtClient} {resp : AtResp} (h : Stored lines s resp) {l : List AtByte}
    (hl : l ≠ []) (htext : 0 ∉ lineText l) : Stored (lines ++ [l]) (s.store resp l).2 (s.store resp l).1 := by
  have hlength := s.store_buf_length resp hl
  have hkept := keptLines_concat resp.buf.length lines l
  rw [h.sizes] at hkept
  by_cases hroom : s.respBufLen + l.length < resp.buf.length
  · rw [if_pos hroom] at hkept
    have hshows := h.shows.store htext (s.respBufLen + l.length)
    rw [h.used] at hshows
    rw [AtClient.store, if_pos hroom] at hlength ⊢
    refine ⟨h.notice, h.respSet, ?_, ?_, ?_, ?_⟩
    · rw [hlength, hkept, List.length_append, h.count]
      rfl
    · rw [hlength, hkept, List.map_append, List.sum_append, h.sizes]
      rfl
    · rw [hlength, hkept, List.flatMap_append, List.length_append, h.used, List.flatMap_singleton, lineData_length hl]
    · rw [hlength, hkept]
      exact hshows
  · rw [if_neg hroom] at hkept
    rw [AtClient.store, if_neg hroom]
    refine ⟨h.notice, h.respSet, ?_, ?_, ?_, ?_⟩
    · rw [hkept]
      exact h.count
    · rw [hkept]
      exact h.sizes
    · rw [hkept]
      exact h.used
    · rw [hkept]
      exact h.shows

theorem Collected.parseLine {trace : List AtEvent} {s : AtClient} {resp : AtResp} {point : AtPoint} (h : Collected trace s resp)
    (hcommand : s.command = some ⟨point, some resp⟩) {l : List AtByte} (hl : l ≠ []) (htext : 0 ∉ lineText l) :
    ∃ resp', (s.parseLine l).command = some ⟨point, some resp'⟩ ∧
      (Collected (trace ++ [.line l]) (s.parseLine l) resp' ∨ Noticed (trace ++ [.line l]) (s.parseLine l) resp') := by
  have hstored := h.stored.store hl htext
  have hnum := s.store_lineNum resp l
  have hlength := s.store_buf_length resp hl
  have heq : s.parseLine l = (s.store resp l).2.finish ⟨point, some resp⟩ (s.store resp l).1 l := by
    rw [AtClient.parseLine, h.stored.respSet, hcommand]
  have hresult : checkResult (s.store resp l).1.lineNum (s.store resp l).2.lineCounts (lineData l) =
      lineResult resp.lineNum resp.buf.length (linesSince trace) l := by
    rw [hstored.count, hlength, hnum]
    rfl
  rw [heq, AtClient.finish, hresult]
  cases hends : lineResult resp.lineNum resp.buf.length (linesSince trace) l with
  | none =>
    refine ⟨(s.store resp l).1, rfl, Or.inl ⟨?_, ?_⟩⟩
    · rw [linesSince_line]
      exact ⟨hstored.notice, hstored.respSet, hstored.count, hstored.sizes, hstored.used, hstored.shows⟩
    · rw [linesSince_line, hnum, hlength]
      exact h.noResult.concat hends
  | some status =>
    refine ⟨{ (s.store resp l).1 with lineCounts := (s.store resp l).2.lineCounts }, rfl, Or.inr ⟨?_, rfl, ?_⟩⟩
    · rw [hstored.notice]
    · refine ⟨linesSince trace, l, ⟨⟨[], ?_⟩, ?_, ?_⟩, hstored.count, ⟨hstored.shows.buf, hstored.shows.text⟩⟩
      · rw [linesSince_line]
      · rw [hnum, hlength]
        exact h.noResult
      · rw [hnum, hlength]
        exact hends

/-! ## What a step does -/

namespace AtClient

theorem parseLine_of_not_respSet {s : AtClient} (h : s.respSet = false) (l : List AtByte) : s.parseLine l = s := by
  rw [parseLine, h]

theorem parseLine_cases (s : AtClient) (l : List AtByte) :
    s.parseLine l = s ∨ ∃ point resp resp', s.command = some ⟨point, some resp⟩ ∧
      (s.parseLine l).command = some ⟨point, some resp'⟩ ∧ (s.parseLine l).rx = s.rx ∧
      (s.parseLine l).recvBuffer = s.recvBuffer ∧ (s.parseLine l).sent = s.sent ∧
      ((s.parseLine l).respSet = true ∨ 0 < (s.parseLine l).respNotice) := by
  cases hset : s.respSet with
  | false => exact Or.inl (parseLine_of_not_respSet hset l)
  | true =>
    rcases hcommand : s.command with _ | ⟨point, _ | resp⟩
    · left
      simp only [parseLine, hset, hcommand]
    · left
      simp only [parseLine, hset, hcommand]
    · right
      have hstore : (s.store resp l).2.rx = s.rx ∧ (s.store resp l).2.recvBuffer = s.recvBuffer ∧
          (s.store resp l).2.sent = s.sent ∧ (s.store resp l).2.respSet = s.respSet := by
        rw [store]
        by_cases hroom : s.respBufLen + l.length < resp.buf.length
        · rw [if_pos hroom]
          exact ⟨rfl, rfl, rfl, rfl⟩
        · rw [if_neg hroom]
          exact ⟨rfl, rfl, rfl, rfl⟩
      obtain ⟨hrx, hrecv, hsent, hrespSet⟩ := hstore
      simp only [parseLine, hset, hcommand, finish]
      cases checkResult (s.store resp l).1.lineNum (s.store resp l).2.lineCounts (lineData l) with
      | none => exact ⟨point, resp, _, rfl, rfl, hrx, hrecv, hsent, Or.inl (hrespSet.trans hset)⟩
      | some status => exact ⟨point, resp, _, rfl, rfl, hrx, hrecv, hsent, Or.inr (Nat.succ_pos _)⟩

theorem parseByte_cases (s : AtClient) (b : AtByte) :
    (∃ recv lastCh isFull inUrc, (∀ b' ∈ recv, b' ∈ s.recvBuffer ++ [b]) ∧
      s.parseByte b = ({ s with recvBuffer := recv, lastCh := lastCh, isFull := isFull, inUrc := inUrc }, [])) ∨
    (s.ReadsLine b ∧
      s.parseByte b = (s.newLine.parseLine (s.recvBuffer ++ [b]), [.line (s.recvBuffer ++ [b])])) := by
  by_cases hends : s.EndsLine b
  · by_cases hfull : s.isFull = true ∨ s.recvBufsz ≤ s.recvBuffer.length
    · left
      refine ⟨[], 0, false, s.inUrc, by simp, ?_⟩
      rw [parseByte, if_neg (not_not_intro hends), if_pos hfull]
      rfl
    · have hreceived : s.received b = s.recvBuffer ++ [b] := by
        rw [received, if_pos]
        omega
      cases hurc : s.getUrcObj (s.received b) with
      | some urc =>
        left
        refine ⟨[], 0, false, urc.func, by simp, ?_⟩
        rw [parseByte, if_neg (not_not_intro hends), if_neg hfull, hurc]
        rfl
      | none =>
        right
        refine ⟨⟨hends, hfull, hurc⟩, ?_⟩
        rw [parseByte, if_neg (not_not_intro hends), if_neg hfull, hurc, hreceived]
  · left
    refine ⟨s.received b, b.ch, s.isFull || decide (s.recvBufsz ≤ s.recvBuffer.length), s.inUrc, ?_, ?_⟩
    · intro b' hb'
      rw [received] at hb'
      by_cases hroom : s.recvBuffer.length < s.recvBufsz
      · rwa [if_pos hroom] at hb'
      · rw [if_neg hroom] at hb'
        exact List.mem_append_left _ hb'
    · rw [parseByte, if_pos hends]

end AtClient

/-! ## What holds in every run -/

/-- Every byte that is around, and every byte of a line since the last command, has come after that command. -/
structure Fresh (trace : List AtEvent) (s : AtClient) : Prop where
  rx : ∀ b ∈ s.rx, b.sent = s.sent
  recvBuffer : ∀ b ∈ s.recvBuffer, b.sent = s.sent
  lines : ∀ l ∈ linesSince trace, ∀ b ∈ l, b.sent = s.sent

def AtPoint.Awaits : AtPoint → Prop
  | .send | .exit .etimeout | .exit .error => False
  | _ => True

def Relies (trace : List AtEvent) (s : AtClient) (resp : AtResp) : AtPoint → Prop
  | .send => s.respSet = true ∨ 0 < s.respNotice
  | .clear | .wait => Collected trace s resp ∨ Noticed trace s resp
  | .check => s.respSet = false ∧ Finished trace s.respStatus resp
  | .exit .eok => s.respSet = false ∧ Finished trace .ok resp
  | .exit _ => True

structure AtInv (trace : List AtEvent) (s : AtClient) : Prop where
  sent : s.sent = sentCount trace
  fresh : ∀ point resp, s.command = some ⟨point, some resp⟩ → point.Awaits → Fresh trace s
  relies : ∀ point resp, s.command = some ⟨point, some resp⟩ → Relies trace s resp point
  own : EachEvent OwnLines trace

theorem Relies.receive {trace : List AtEvent} {s : AtClient} {resp : AtResp} {point : AtPoint} (h : Relies trace s resp point)
    (rx recv : List AtByte) (lastCh : UInt8) (isFull inUrc : Bool) :
    Relies trace { s with rx := rx, recvBuffer := recv, lastCh := lastCh, isFull := isFull, inUrc := inUrc } resp point := by
  have hresp (h : Collected trace s resp ∨ Noticed trace s resp) :
      Collected trace { s with rx := rx, recvBuffer := recv, lastCh := lastCh, isFull := isFull, inUrc := inUrc } resp ∨
        Noticed trace { s with rx := rx, recvBuffer := recv, lastCh := lastCh, isFull := isFull, inUrc := inUrc } resp := by
    refine h.imp (fun h => ⟨?_, h.noResult⟩) fun h => ⟨h.notice, h.respSet, h.finished⟩
    exact ⟨h.stored.notice, h.stored.respSet, h.stored.count, h.stored.sizes, h.stored.used, h.stored.shows⟩
  rcases point with _ | _ | _ | _ | _ | _ | _
  · exact h
  · exact hresp h
  · exact hresp h
  · exact h
  · exact h
  · trivial
  · trivial

theorem Relies.parseLine {trace : List AtEvent} {s : AtClient} {point : AtPoint} {resp : AtResp} {l : List AtByte}
    (h : Relies trace s resp point) (hcommand : s.command = some ⟨point, some resp⟩) (hl : l ≠ [])
    (htext : s.respSet = true → 0 ∉ lineText l) :
    ∃ resp', (s.parseLine l).command = some ⟨point, some resp'⟩ ∧ Relies (trace ++ [.line l]) (s.parseLine l) resp' point := by
  have hwaits (h : Collected trace s resp ∨ Noticed trace s resp) :
      ∃ resp', (s.parseLine l).command = some ⟨point, some resp'⟩ ∧
        (Collected (trace ++ [.line l]) (s.parseLine l) resp' ∨ Noticed (trace ++ [.line l]) (s.parseLine l) resp') := by
    rcases h with hcollected | hnoticed
    · exact hcollected.parseLine hcommand hl (htext hcollected.stored.respSet)
    · rw [AtClient.parseLine_of_not_respSet hnoticed.respSet]
      exact ⟨resp, hcommand, Or.inr ⟨hnoticed.notice, hnoticed.respSet, hnoticed.finished.line l⟩⟩
  have hfails : ∃ resp', (s.parseLine l).command = some ⟨point, some resp'⟩ := by
    rcases s.parseLine_cases l with hself | ⟨point₀, _, resp', hpoint, hcommand', _⟩
    · rw [hself]
      exact ⟨resp, hcommand⟩
    · obtain ⟨rfl, -⟩ := AtCommand.mk.inj (Option.some.inj (hpoint.symm.trans hcommand))
      exact ⟨resp', hcommand'⟩
  rcases point with _ | _ | _ | _ | _ | _ | _
  · rcases s.parseLine_cases l with hself | ⟨point, _, resp', hpoint, hcommand', _, _, _, hset⟩
    · rw [hself]
      exact ⟨resp, hcommand, h⟩
    · obtain ⟨rfl, -⟩ := AtCommand.mk.inj (Option.some.inj (hpoint.symm.trans hcommand))
      exact ⟨resp', hcommand', hset⟩
  · exact hwaits h
  · exact hwaits h
  · rw [AtClient.parseLine_of_not_respSet h.1]
    exact ⟨resp, hcommand, h.1, h.2.line l⟩
  · rw [AtClient.parseLine_of_not_respSet h.1]
    exact ⟨resp, hcommand, h.1, h.2.line l⟩
  · exact hfails.imp fun _ hcommand' => ⟨hcommand', trivial⟩
  · exact hfails.imp fun _ hcommand' => ⟨hcommand', trivial⟩

theorem OwnLines.later {before after after' : List AtEvent} {e : AtEvent} (h : OwnLines before e after) :
    OwnLines before e after' := by
  rcases e with _ | _ | ⟨_ | _ | _, _ | resp⟩ <;> exact h

namespace AtInv

variable {trace : List AtEvent} {s : AtClient}

theorem own_concat (h : AtInv trace s) {e : AtEvent} (hnew : OwnLines trace e []) : EachEvent OwnLines (trace ++ [e]) :=
  h.own.concat (fun _ _ _ hown => hown.later) hnew

theorem receive (h : AtInv trace s) {rx recv : List AtByte} (hrx : ∀ b ∈ rx, b ∈ s.rx ∨ b.sent = s.sent)
    (hrecv : ∀ b ∈ recv, b ∈ s.recvBuffer ∨ b ∈ s.rx) (lastCh : UInt8) (isFull inUrc : Bool) :
    AtInv trace { s with rx := rx, recvBuffer := recv, lastCh := lastCh, isFull := isFull, inUrc := inUrc } where
  sent := h.sent
  fresh := by
    intro point resp hcommand hawaits
    have hfresh := h.fresh point resp hcommand hawaits
    exact ⟨fun b hb => (hrx b hb).elim (hfresh.rx b) id, fun b hb => (hrecv b hb).elim (hfresh.recvBuffer b) (hfresh.rx b),
      hfresh.lines⟩
  relies := fun point resp hcommand => (h.relies point resp hcommand).receive rx recv lastCh isFull inUrc
  own := h.own

theorem line (h : AtInv trace s) {b : AtByte} {rest : List AtByte} (hrx : s.rx = b :: rest)
    (htext : s.respSet = true → 0 ∉ chars s.recvBuffer) :
    AtInv (trace ++ [.line (s.recvBuffer ++ [b])])
      (({ s with rx := rest } : AtClient).newLine.parseLine (s.recvBuffer ++ [b])) := by
  set l := s.recvBuffer ++ [b] with hl
  set s₁ := ({ s with rx := rest } : AtClient).newLine with hs₁
  have hlineText : lineText l = chars s.recvBuffer := by simp [hl, lineText, chars]
  have hkeeps : (s₁.parseLine l).rx = rest ∧ (s₁.parseLine l).recvBuffer = [] ∧ (s₁.parseLine l).sent = s.sent := by
    rcases s₁.parseLine_cases l with hself | ⟨_, _, _, _, _, hrx', hrecv, hsent, _⟩
    · rw [hself]
      exact ⟨rfl, rfl, rfl⟩
    · exact ⟨hrx', hrecv, hsent⟩
  have hbefore (point : AtPoint) (resp : AtResp) (hcommand : (s₁.parseLine l).command = some ⟨point, some resp⟩) :
      ∃ resp₀, s.command = some ⟨point, some resp₀⟩ := by
    rcases s₁.parseLine_cases l with hself | ⟨_, resp₀, _, hpoint, hcommand', _⟩
    · rw [hself] at hcommand
      exact ⟨resp, hcommand⟩
    · obtain ⟨rfl, -⟩ := AtCommand.mk.inj (Option.some.inj (hcommand'.symm.trans hcommand))
      exact ⟨resp₀, hpoint⟩
  obtain ⟨hrx', hrecv, hsent⟩ := hkeeps
  refine ⟨?_, ?_, ?_, h.own_concat trivial⟩
  · rw [hsent, h.sent]
    simp [sentCount]
  · intro point resp hcommand hawaits
    obtain ⟨resp₀, hbefore⟩ := hbefore point resp hcommand
    have hfresh := h.fresh point resp₀ hbefore hawaits
    refine ⟨?_, ?_, ?_⟩
    · rw [hrx', hsent]
      exact fun b' hb' => hfresh.rx b' (hrx ▸ List.mem_cons_of_mem _ hb')
    · rw [hrecv]
      exact fun _ hb' => absurd hb' List.not_mem_nil
    · rw [linesSince_line, hsent]
      intro l' hl' b' hb'
      rcases List.mem_append.1 hl' with hl' | hl'
      · exact hfresh.lines l' hl' b' hb'
      · rw [List.mem_singleton.1 hl', hl] at hb'
        rcases List.mem_append.1 hb' with hb' | hb'
        · exact hfresh.recvBuffer b' hb'
        · exact hfresh.rx b' (hrx ▸ List.mem_singleton.1 hb' ▸ List.mem_cons_self)
  · intro point resp hcommand
    obtain ⟨resp₀, hbefore⟩ := hbefore point resp hcommand
    have hrelies : Relies trace s₁ resp₀ point := (h.relies point resp₀ hbefore).receive rest [] 0 false s.inUrc
    obtain ⟨resp', hcommand', hrelies'⟩ := hrelies.parseLine hbefore (List.append_ne_nil_of_right_ne_nil _ (List.cons_ne_nil b []))
      fun hset => hlineText ▸ htext hset
    obtain ⟨-, hresp⟩ := AtCommand.mk.inj (Option.some.inj (hcommand'.symm.trans hcommand))
    exact Option.some.inj hresp ▸ hrelies'

theorem of_no_resp (hsent : s.sent = sentCount trace) (hnone : ∀ point resp, s.command ≠ some ⟨point, some resp⟩)
    (hown : EachEvent OwnLines trace) : AtInv trace s :=
  ⟨hsent, fun point resp heq => absurd heq (hnone point resp), fun point resp heq => absurd heq (hnone point resp), hown⟩

theorem exec (h : AtInv trace s) (resp : Option AtResp) :
    AtInv trace { s with respStatus := .ok, respSet := resp.isSome, command := some ⟨.send, resp⟩ } := by
  refine ⟨h.sent, ?_, ?_, h.own⟩
  · intro point resp' hcommand hawaits
    obtain ⟨rfl, -⟩ := AtCommand.mk.inj (Option.some.inj hcommand)
    exact hawaits.elim
  · intro point resp' hcommand
    obtain ⟨rfl, rfl⟩ := AtCommand.mk.inj (Option.some.inj hcommand)
    exact Or.inl rfl

theorem send (h : AtInv trace s) {resp : Option AtResp} (hcommand : s.command = some ⟨.send, resp⟩)
    (hidle : resp ≠ none → s.Idle) :
    AtInv (trace ++ [.sent]) (({ s with sent := s.sent + 1 } : AtClient).setPoint ⟨.send, resp⟩ (if resp = none then .exit .eok else .clear)) := by
  have hsent : s.sent + 1 = sentCount (trace ++ [.sent]) := by
    rw [h.sent]
    simp [sentCount]
  cases resp with
  | none => exact of_no_resp hsent (fun _ _ heq => nomatch heq) (h.own_concat trivial)
  | some resp =>
    obtain ⟨hrx, hrecv, hused, hcount, hnotice⟩ := hidle (Option.some_ne_none resp)
    have hset : s.respSet = true := (h.relies .send resp hcommand).resolve_right (by omega)
    refine ⟨hsent, ?_, ?_, h.own_concat trivial⟩
    · intro _ _ _ _
      refine ⟨?_, ?_, ?_⟩
      · intro b hb
        have hnil : b ∈ [] := hrx ▸ hb
        exact absurd hnil List.not_mem_nil
      · intro b hb
        have hnil : b ∈ [] := hrecv ▸ hb
        exact absurd hnil List.not_mem_nil
      · rw [linesSince_sent]
        exact fun _ hl => absurd hl List.not_mem_nil
    · intro point resp' heq
      obtain ⟨rfl, hresp⟩ := AtCommand.mk.inj (Option.some.inj heq)
      obtain rfl := Option.some.inj hresp
      refine Or.inl ⟨?_, ?_⟩
      · rw [linesSince_sent]
        exact ⟨hnotice, hset, hcount, hused.symm, hused.symm, ⟨resp.buf, rfl⟩, fun _ hl => absurd hl List.not_mem_nil⟩
      · rw [linesSince_sent]
        intro early l later heq'
        cases early <;> cases heq'

theorem commandGo (h : AtInv trace s) {c : AtCommand} (hcommand : s.command = some c) (hok : OwnSteps s .go) {s' : AtClient}
    {events : List AtEvent} (hs : s.commandGo c c.point = some (s', events)) : AtInv (trace ++ events) s' := by
  obtain ⟨point, resp⟩ := c
  have hok' := hok _ hcommand
  cases point with
  | send =>
    obtain ⟨rfl, rfl⟩ := Prod.mk.inj (Option.some.inj hs)
    exact h.send hcommand fun hresp => (hok' hresp).1 rfl
  | clear =>
    obtain ⟨rfl, rfl⟩ := Prod.mk.inj (Option.some.inj hs)
    rw [List.append_nil]
    cases resp with
    | none => exact of_no_resp h.sent (fun _ _ heq => nomatch heq) h.own
    | some resp =>
      have hnotice := (hok' (Option.some_ne_none resp)).2 rfl
      refine ⟨h.sent, ?_, ?_, h.own⟩
      · intro _ _ _ _
        have hfresh := h.fresh _ _ hcommand trivial
        exact ⟨hfresh.rx, hfresh.recvBuffer, hfresh.lines⟩
      · intro point resp' heq
        obtain ⟨rfl, hresp⟩ := AtCommand.mk.inj (Option.some.inj heq)
        obtain rfl := Option.some.inj hresp
        rcases h.relies _ _ hcommand with hcollected | hnoticed
        · have hst := hcollected.stored
          exact Or.inl ⟨⟨hst.notice, hst.respSet, hst.count, hst.sizes, hst.used, hst.shows.buf, hst.shows.text⟩, hcollected.noResult⟩
        · rw [hnoticed.notice] at hnotice
          cases hnotice
  | wait =>
    have hnotice : s.respNotice ≠ 0 := by
      intro hzero
      rw [AtClient.commandGo, if_pos hzero] at hs
      cases hs
    rw [AtClient.commandGo, if_neg hnotice] at hs
    obtain ⟨rfl, rfl⟩ := Prod.mk.inj (Option.some.inj hs)
    rw [List.append_nil]
    refine ⟨h.sent, ?_, ?_, h.own⟩
    · intro point' resp' heq _
      obtain ⟨-, rfl⟩ := AtCommand.mk.inj (Option.some.inj heq)
      have hfresh := h.fresh _ _ hcommand trivial
      exact ⟨hfresh.rx, hfresh.recvBuffer, hfresh.lines⟩
    · intro point' resp' heq
      obtain ⟨rfl, rfl⟩ := AtCommand.mk.inj (Option.some.inj heq)
      rcases h.relies _ _ hcommand with hcollected | hnoticed
      · exact absurd hcollected.stored.notice hnotice
      · exact ⟨hnoticed.respSet, hnoticed.finished⟩
  | check =>
    obtain ⟨rfl, rfl⟩ := Prod.mk.inj (Option.some.inj hs)
    rw [List.append_nil]
    refine ⟨h.sent, ?_, ?_, h.own⟩
    · intro point' resp' heq _
      obtain ⟨-, rfl⟩ := AtCommand.mk.inj (Option.some.inj heq)
      have hfresh := h.fresh _ _ hcommand trivial
      exact ⟨hfresh.rx, hfresh.recvBuffer, hfresh.lines⟩
    · intro point' resp' heq
      obtain ⟨rfl, rfl⟩ := AtCommand.mk.inj (Option.some.inj heq)
      obtain ⟨hset, hfinished⟩ := h.relies _ _ hcommand
      by_cases hstatus : s.respStatus = .ok
      · rw [if_pos hstatus]
        exact ⟨hset, hstatus ▸ hfinished⟩
      · rw [if_neg hstatus]
        trivial
  | exit result =>
    obtain ⟨rfl, rfl⟩ := Prod.mk.inj (Option.some.inj hs)
    have hown : OwnLines trace (.returned result resp) [] := by
      rcases result with _ | _ | _ <;> rcases resp with _ | resp <;> try trivial
      obtain ⟨-, init, last, hended, hcount, hshows⟩ := h.relies _ _ hcommand
      refine ⟨init, last, hended, ?_, hshows.lines hcount⟩
      obtain ⟨rest, hlines⟩ := hended.rest
      intro l hl b hb
      rw [← h.sent]
      apply (h.fresh _ _ hcommand trivial).lines l _ b hb
      rw [hlines, ← List.singleton_append, ← List.append_assoc]
      exact List.mem_append_left _ hl
    refine of_no_resp ?_ (fun _ _ heq => nomatch heq) (h.own_concat hown)
    rw [sentCount, List.count_append, ← sentCount, ← h.sent]
    rfl

theorem timeout (h : AtInv trace s) (c : AtCommand) :
    AtInv trace (({ s with respStatus := .timeout } : AtClient).setPoint c (.exit .etimeout)) := by
  refine ⟨h.sent, ?_, ?_, h.own⟩
  · intro point resp heq hawaits
    obtain ⟨rfl, -⟩ := AtCommand.mk.inj (Option.some.inj heq)
    exact hawaits.elim
  · intro point resp heq
    obtain ⟨rfl, -⟩ := AtCommand.mk.inj (Option.some.inj heq)
    trivial

end AtInv

theorem stepAt_parse {s s' : AtClient} {events : List AtEvent} (hs : stepAt s .parse = some (s', events)) :
    ∃ b rest, s.rx = b :: rest ∧ ({ s with rx := rest } : AtClient).parseByte b = (s', events) := by
  rw [stepAt] at hs
  split at hs
  · exact ⟨_, _, ‹_›, Option.some.inj hs⟩
  · cases hs

theorem stepAt_urcRecv {s s' : AtClient} {events : List AtEvent} (hs : stepAt s .urcRecv = some (s', events)) :
    ∃ b rest, s.rx = b :: rest ∧ { s with rx := rest } = s' ∧ [] = events := by
  rw [stepAt] at hs
  split at hs
  · obtain ⟨hs', hevents⟩ := Prod.mk.inj (Option.some.inj hs)
    exact ⟨_, _, ‹_›, hs', hevents⟩
  · cases hs

theorem stepAt_inv {trace events : List AtEvent} {s s' : AtClient} {a : AtOp} (h : AtInv trace s) (hok : OwnSteps s a)
    (hs : stepAt s a = some (s', events)) : AtInv (trace ++ events) s' := by
  cases a with
  | arrive ch =>
    obtain ⟨rfl, rfl⟩ := Prod.mk.inj (Option.some.inj hs)
    rw [List.append_nil]
    refine h.receive (fun b hb => ?_) (fun b hb => Or.inl hb) s.lastCh s.isFull s.inUrc
    rcases List.mem_append.1 hb with hb | hb
    · exact Or.inl hb
    · exact Or.inr (congrArg AtByte.sent (List.mem_singleton.1 hb))
  | parse =>
    obtain ⟨b, rest, hrx, hparsed⟩ := stepAt_parse hs
    rcases ({ s with rx := rest } : AtClient).parseByte_cases b with ⟨recv, lastCh, isFull, inUrc, hrecv, heq⟩ | ⟨hreads, heq⟩
    · obtain ⟨rfl, rfl⟩ := Prod.mk.inj (heq.symm.trans hparsed)
      rw [List.append_nil]
      refine h.receive (fun b' hb' => Or.inl (hrx ▸ List.mem_cons_of_mem _ hb')) (fun b' hb' => ?_) lastCh isFull inUrc
      rw [hrx]
      exact (List.mem_append.1 (hrecv b' hb')).imp id fun hb' => List.mem_cons.2 (Or.inl (List.mem_singleton.1 hb'))
    · obtain ⟨rfl, rfl⟩ := Prod.mk.inj (heq.symm.trans hparsed)
      exact h.line hrx fun hset => hok b (by rw [hrx]; rfl) hset hreads
  | urcRecv =>
    obtain ⟨b, rest, hrx, rfl, rfl⟩ := stepAt_urcRecv hs
    rw [List.append_nil]
    exact h.receive (fun b' hb' => Or.inl (hrx ▸ List.mem_cons_of_mem _ hb')) (fun b' hb' => Or.inl hb') s.lastCh s.isFull s.inUrc
  | urcReturn =>
    rw [stepAt] at hs
    by_cases hurc : s.inUrc = true
    · rw [if_pos hurc] at hs
      obtain ⟨rfl, rfl⟩ := Prod.mk.inj (Option.some.inj hs)
      rw [List.append_nil]
      exact h.receive (fun b hb => Or.inl hb) (fun b hb => Or.inl hb) s.lastCh s.isFull false
    · rw [if_neg hurc] at hs
      cases hs
  | exec resp =>
    rw [stepAt] at hs
    by_cases hcommand : s.command = none
    · rw [if_pos hcommand] at hs
      obtain ⟨rfl, rfl⟩ := Prod.mk.inj (Option.some.inj hs)
      rw [List.append_nil]
      exact h.exec resp
    · rw [if_neg hcommand] at hs
      cases hs
  | go =>
    obtain ⟨c, hcommand, hgo⟩ := Option.bind_eq_some_iff.1 hs
    exact h.commandGo hcommand hok hgo
  | timeout =>
    rw [stepAt] at hs
    cases hcommand : s.command with
    | none =>
      rw [hcommand] at hs
      cases hs
    | some c =>
      simp only [hcommand] at hs
      by_cases hwaits : c.point = .wait ∧ s.respNotice = 0
      · rw [if_pos hwaits] at hs
        obtain ⟨rfl, rfl⟩ := Prod.mk.inj (Option.some.inj hs)
        rw [List.append_nil]
        exact h.timeout c
      · rw [if_neg hwaits] at hs
        cases hs

/-! ## The result -/

section

variable {recvBufsz : Nat} {endSign : UInt8} {urcTable : List AtUrc}

/-- Whatever is received and whenever commands time out: a command that returns `RT_EOK` shows its own lines up to the result line. -/
theorem atObjExecCmd_isolated {trace : List AtEvent} {s : AtClient} (hrun : AtRun OwnSteps recvBufsz endSign urcTable trace s) :
    EachEvent OwnLines trace :=
  (hrun.invariant (I := AtInv) (.of_no_resp rfl (fun _ _ heq => by cases heq) .nil)
    fun _ _ _ _ _ h hok hs => stepAt_inv h hok hs).own

end

def atReceives (bytes : List UInt8) : List AtOp := bytes.flatMap fun ch => [.arrive ch, .parse]

/-- `OK` and the end of its line. -/
def atOkLine : List UInt8 := atRespEndOk ++ [0x0D, 0x0A]

def atSends (resp : AtResp) : List AtOp := [.exec (some resp), .go, .go]

theorem exists_atRun (Ok : AtClient → AtOp → Prop) [∀ s a, Decidable (Ok s a)] (ops : List AtOp)
    (found : List AtEvent → AtClient → Bool)
    (h : ((Transition.exec stepAt Ok (.init 64 0 []) ops).any fun r => found r.1 r.2) = true) :
    ∃ trace s, AtRun Ok 64 0 [] trace s ∧ found trace s = true :=
  exists_run_of_exec ops found h

/-- A command times out; the next one is answered by two lines. -/
theorem atObjExecCmd_isolated_answered : ∃ trace s, AtRun OwnSteps 64 0 [] trace s ∧
    .returned .eok (some ⟨[0x61, 0x0D, 0, 0x4F, 0x4B, 0x0D, 0, 0], 0, 2⟩) ∈ trace ∧ EachEvent OwnLines trace := by
  obtain ⟨trace, s, hrun, hfound⟩ := exists_atRun OwnSteps
    (atSends ⟨List.replicate 8 0, 0, 0⟩ ++ [.timeout, .go] ++ atSends ⟨List.replicate 8 0, 0, 0⟩ ++
      atReceives ([0x61, 0x0D, 0x0A] ++ atOkLine) ++ [.go, .go, .go])
    (fun trace _ => decide (.returned .eok (some ⟨[0x61, 0x0D, 0, 0x4F, 0x4B, 0x0D, 0, 0], 0, 2⟩) ∈ trace)) (by decide +kernel)
  exact ⟨trace, s, hrun, of_decide_eq_true hfound, atObjExecCmd_isolated hrun⟩

theorem OwnLines.lineCounts_le {before after : List AtEvent} {resp : AtResp}
    (h : OwnLines before (.returned .eok (some resp)) after) : resp.lineCounts ≤ (linesSince before).length := by
  obtain ⟨init, result, hended, -, hlines⟩ := h
  obtain ⟨rest, hrest⟩ := hended.rest
  have hlength := congrArg List.length hlines
  have hle := keptLines_length_le resp.buf.length (init ++ [result])
  simp only [AtResp.lines, List.length_map, List.length_range] at hlength
  rw [hrest]
  simp only [List.length_append, List.length_cons, List.length_nil] at hle ⊢
  omega

/-- A command times out behind the first line of its response; the next one is answered by one line, and returns two. -/
theorem atObjExecCmd_isolated_fails : ∃ trace s, AtRun (fun _ _ => True) 64 0 [] trace s ∧ ¬EachEvent OwnLines trace := by
  obtain ⟨trace, s, hrun, hfound⟩ := exists_atRun (fun _ _ => True)
    (atSends ⟨List.replicate 8 0, 0, 0⟩ ++ atReceives [0x61, 0x0D, 0x0A] ++ [.timeout, .go] ++
      atSends ⟨List.replicate 8 0, 0, 0⟩ ++ atReceives atOkLine ++ [.go, .go, .go])
    (fun trace _ => decide (trace.getLast? = some (.returned .eok (some ⟨[0, 0, 0, 0x4F, 0x4B, 0x0D, 0, 0], 0, 2⟩)) ∧
      (linesSince trace.dropLast).length = 1)) (by decide +kernel)
  obtain ⟨hlast, hlines⟩ := of_decide_eq_true hfound
  refine ⟨trace, s, hrun, fun heach => ?_⟩
  have hown := heach _ _ [] (List.dropLast_append_getLast? _ hlast).symm
  have hle : 2 ≤ (linesSince trace.dropLast).length := hown.lineCounts_le
  omega

end RtThread
