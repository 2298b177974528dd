import Mathlib

/-!
# The line editor of the shell

`finsh_thread_entry` of `shell.c` behind the authentication, one byte at a time, with the history. What is printed is left out.

A command that is executed has the whole buffer before it, not only the line.
-/

namespace RtThread

/-- `FINSH_CMD_SIZE` and `FINSH_HISTORY_LINES`. The counters of the history have 16 bits. -/
structure ShellSizes where
  cmdSize : Nat
  historyLines : Nat
  cmdSize_pos : 0 < cmdSize
  historyLines_pos : 0 < historyLines
  historyLines_lt : historyLines < 2 ^ 16

inductive InputStat
  | waitNormal | waitSpecKey | waitFuncKey
  deriving DecidableEq

/-- `struct finsh_shell` -/
structure FinshShell where
  stat : InputStat
  currentHistory : Nat
  historyCount : Nat
  cmdHistory : List (List UInt8)
  line : List UInt8
  linePosition : Nat
  lineCurpos : Nat

inductive ShellCall
  | mshExec (line : List UInt8) (length : Nat)
  | finshRunLine (line : List UInt8)
  deriving DecidableEq

/-- What is outside of the editor: whether `char` is signed, and what Tab makes of the buffer. -/
structure ShellPort where
  signedChar : Bool
  autoComplete : List UInt8 → List UInt8

/-- A byte of the console, with what `msh_is_used` returns at that time. -/
structure KeyByte where
  ch : UInt8
  msh : Bool

/-- `strlen`, in an array. -/
def strlen (line : List UInt8) : Nat := (line.takeWhile (· ≠ 0)).length

/-- `rt_memmove`, inside of an array. -/
def memmove (line : List UInt8) (dst src count : Nat) : List UInt8 :=
  line.take dst ++ ((line.drop src).take count ++ line.drop (dst + count))

namespace FinshShell

variable (sizes : ShellSizes)

def init : FinshShell :=
  ⟨.waitNormal, 0, 0, List.replicate sizes.historyLines (List.replicate sizes.cmdSize 0), List.replicate sizes.cmdSize 0, 0, 0⟩

def historyEntry (s : FinshShell) : List UInt8 :=
  s.line.take s.linePosition ++ List.replicate (sizes.cmdSize - s.linePosition) 0

def shellPushHistory (s : FinshShell) : FinshShell :=
  let s :=
    if s.linePosition ≠ 0 then
      if sizes.historyLines ≤ s.historyCount then
        if s.cmdHistory.getD (sizes.historyLines - 1) [] ≠ s.line then
          { s with cmdHistory := s.cmdHistory.drop 1 ++ [s.historyEntry sizes], historyCount := sizes.historyLines }
        else s
      else if s.historyCount = 0 ∨ s.cmdHistory.getD (s.historyCount - 1) [] ≠ s.line then
        { s with
          currentHistory := s.historyCount
          cmdHistory := s.cmdHistory.set s.historyCount (s.historyEntry sizes)
          historyCount := s.historyCount + 1 }
      else s
    else s
  { s with currentHistory := s.historyCount }

def recallLine (s : FinshShell) (index : Nat) : FinshShell :=
  let line := s.cmdHistory.getD index []
  { s with currentHistory := index, line := line, linePosition := strlen line % 2 ^ 8, lineCurpos := strlen line % 2 ^ 8 }

def prevHistory (s : FinshShell) : FinshShell :=
  if 0 < s.currentHistory then s.recallLine (s.currentHistory - 1) else { s with currentHistory := 0 }

def nextHistory (s : FinshShell) : FinshShell :=
  if s.currentHistory + 1 < s.historyCount then s.recallLine (s.currentHistory + 1)
  else if s.historyCount ≠ 0 then s.recallLine (s.historyCount - 1) else s

def left (s : FinshShell) : FinshShell :=
  if s.lineCurpos ≠ 0 then { s with lineCurpos := s.lineCurpos - 1 } else s

def right (s : FinshShell) : FinshShell :=
  if s.lineCurpos < s.linePosition then { s with lineCurpos := s.lineCurpos + 1 } else s

def backspace (s : FinshShell) : FinshShell :=
  if s.lineCurpos = 0 then s
  else
    let s := { s with linePosition := (s.linePosition + 255) % 2 ^ 8, lineCurpos := s.lineCurpos - 1 }
    let line :=
      if s.lineCurpos < s.linePosition then memmove s.line s.lineCurpos (s.lineCurpos + 1) (s.linePosition - s.lineCurpos)
      else s.line
    { s with line := line.set s.linePosition 0 }

/-- The end of the line, behind `shell_push_history`. -/
def execLine (s : FinshShell) (msh : Bool) : FinshShell × List ShellCall :=
  let calls :=
    if msh then [.mshExec s.line s.linePosition]
    else if s.linePosition ≠ 0 then [.finshRunLine (s.line.set s.linePosition 59)]
    else []
  ({ s with line := List.replicate sizes.cmdSize 0, linePosition := 0, lineCurpos := 0 }, calls)

def insert (s : FinshShell) (ch : UInt8) : FinshShell :=
  -- a large line is discarded
  let s := if sizes.cmdSize ≤ s.linePosition then { s with linePosition := 0 } else s
  let line :=
    if s.lineCurpos < s.linePosition then
      (memmove s.line (s.lineCurpos + 1) s.lineCurpos (s.linePosition - s.lineCurpos)).set s.lineCurpos ch
    else s.line.set s.linePosition ch
  let s := { s with line := line, linePosition := (s.linePosition + 1) % 2 ^ 8, lineCurpos := (s.lineCurpos + 1) % 2 ^ 8 }
  if sizes.cmdSize ≤ s.linePosition then { s with linePosition := 0, lineCurpos := 0 } else s

variable (port : ShellPort)

def normalByte (s : FinshShell) (key : KeyByte) : FinshShell × List ShellCall :=
  if key.ch = 0 ∨ port.signedChar = false ∧ key.ch = 0xFF then (s, [])
  else if key.ch = 9 then
    let line := port.autoComplete s.line
    ({ s with line := line, linePosition := strlen line % 2 ^ 8, lineCurpos := strlen line % 2 ^ 8 }, [])
  else if key.ch = 0x7F ∨ key.ch = 0x08 then (s.backspace, [])
  else if key.ch = 13 ∨ key.ch = 10 then (s.shellPushHistory sizes).execLine sizes key.msh
  else (s.insert sizes key.ch, [])

/-- One turn of the loop of `finsh_thread_entry`. -/
def step (s : FinshShell) (key : KeyByte) : FinshShell × List ShellCall :=
  if key.ch = 0x1B then ({ s with stat := .waitSpecKey }, [])
  else
    match s.stat with
    | .waitSpecKey =>
      if key.ch = 0x5B then ({ s with stat := .waitFuncKey }, []) else { s with stat := .waitNormal }.normalByte sizes port key
    | .waitFuncKey =>
      let s := { s with stat := .waitNormal }
      if key.ch = 0x41 then (s.prevHistory, [])
      else if key.ch = 0x42 then (s.nextHistory, [])
      else if key.ch = 0x44 then (s.left, [])
      else if key.ch = 0x43 then (s.right, [])
      else s.normalByte sizes port key
    | .waitNormal => s.normalByte sizes port key

def run (s : FinshShell) : List KeyByte → FinshShell × List ShellCall
  | [] => (s, [])
  | key :: keys =>
    let (s, calls) := s.step sizes port key
    let (s, later) := s.run keys
    (s, calls ++ later)

end FinshShell

end RtThread
