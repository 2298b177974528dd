import RtThread.Lib.Traces
import RtThread.Lib.Transition

/-!
# Thread-specific data

`pthread_tls.c` and the walk over the keys in `pthread_exit`. A key is an index into a table that all threads share; a thread gets its area, one word for every key, with the first `pthread_setspecific`. A call of `pthread_setspecific` and the walk can be interrupted by other threads, and the functions the walk calls may use thread-specific data themselves.
-/

namespace RtThread

open Function

def pthreadKeyMax : Nat := 8

/-- `struct _pthread_key_data`; functions are numbered. -/
structure PthreadKeyData where
  isUsed : Bool
  destructor : Option Nat
  deriving DecidableEq

/-- How far a thread is: in `pthread_exit` it has walked over the keys below an index. -/
inductive TlsPhase
  | running
  | exiting (index : Nat)
  | exited
  deriving DecidableEq

/-- What the walk of `pthread_exit` reads next at its key: `is_used`, the word in the area, or, with that word, the destructor. -/
inductive WalkRead
  | key
  | word
  | call (data : Nat)
  deriving DecidableEq

/-- The table of keys; for every thread its area, or `NULL`, and the store it is about to do. Values are words, and 0 is `NULL`. -/
structure Tls (n : Nat) where
  keys : Nat → PthreadKeyData
  tls : Fin n → Option (Nat → Nat)
  storing : Fin n → Option (Nat × Nat)
  phase : Fin n → TlsPhase
  reading : Fin n → WalkRead

inductive TlsOp (n : Nat)
  | get (t : Fin n) (key : Int)
  /-- `area` is what `rt_malloc` returns. -/
  | set (t : Fin n) (key : Int) (value : Nat) (area : Option (Nat → Nat))
  | store (t : Fin n)
  | create (destructor : Option Nat)
  | delete (key : Int)
  | exit (t : Fin n)
  | exitStep (t : Fin n)

inductive TlsEvent (n : Nat)
  | get (t : Fin n) (key : Int) (value : Nat)
  | stored (t : Fin n) (key value : Nat)
  | created (key : Nat) (destructor : Option Nat)
  | deleted (key : Nat)
  | destroyed (t : Fin n) (key destructor value : Nat)
  | exited (t : Fin n)
  | refused
  /-- An address outside the tables is used, or `NULL`. -/
  | fault
  deriving DecidableEq

variable {n : Nat}

namespace Tls

/-- The test of a key in `pthread_getspecific` and `pthread_setspecific`. -/
def IsKey (s : Tls n) (key : Nat) : Prop := key < pthreadKeyMax ∧ (s.keys key).isUsed = true

instance decidableIsKey (s : Tls n) (key : Nat) : Decidable (s.IsKey key) := inferInstanceAs (Decidable (_ ∧ _))

def word (s : Tls n) (t : Fin n) (key : Nat) : Nat := (s.tls t).elim 0 (· key)

/-- The first `pthread_setspecific` of a thread gets it an area. -/
def grow (s : Tls n) (t : Fin n) (area : Option (Nat → Nat)) : Tls n :=
  { s with tls := update s.tls t (if (s.tls t).isNone then area else s.tls t) }

def setKey (s : Tls n) (key : Nat) (data : PthreadKeyData) : Tls n := { s with keys := update s.keys key data }

def setPhase (s : Tls n) (t : Fin n) (phase : TlsPhase) : Tls n := { s with phase := update s.phase t phase }

def setReading (s : Tls n) (t : Fin n) (reading : WalkRead) : Tls n := { s with reading := update s.reading t reading }

/-- The walk goes on to the next key. -/
def nextKey (s : Tls n) (t : Fin n) (index : Nat) : Tls n := (s.setReading t .key).setPhase t (.exiting (index + 1))

def Ready (s : Tls n) (t : Fin n) : Prop := s.storing t = none ∧ s.phase t ≠ .exited ∧ s.reading t = .key

instance decidableReady (s : Tls n) (t : Fin n) : Decidable (s.Ready t) := inferInstanceAs (Decidable (_ ∧ _ ∧ _))

end Tls

def pthreadGetspecific (s : Tls n) (t : Fin n) (key : Nat) : Nat :=
  match s.tls t with
  | none => 0
  | some area => if s.IsKey key then area key else 0

/-- `pthread_key_create` takes the first index that is not used. -/
def pthreadKeyCreate (s : Tls n) : Option Nat := (List.range pthreadKeyMax).find? fun index => ¬ (s.keys index).isUsed

def stepTls (s : Tls n) : TlsOp n → Option (Tls n × List (TlsEvent n))
  | .get t key =>
    if s.Ready t then
      match key with
      | .ofNat key => some (s, [.get t key (pthreadGetspecific s t key)])
      | .negSucc _ => some (s, [if (s.tls t).isNone then .get t key 0 else .fault])
    else none
  | .set t key value area =>
    if s.Ready t then
      match key with
      | .ofNat key =>
        if s.IsKey key then some ({ s.grow t area with storing := update s.storing t (some (key, value)) }, [])
        else some (s.grow t area, [.refused])
      | .negSucc _ => some (s.grow t area, [.fault])
    else none
  | .store t =>
    match s.storing t with
    | none => none
    | some (key, value) =>
      match s.tls t with
      | none => some ({ s with storing := update s.storing t none }, [.fault])
      | some area =>
        some ({ s with
            tls := update s.tls t (some (update area key value))
            storing := update s.storing t none },
          [.stored t key value])
  | .create destructor =>
    match pthreadKeyCreate s with
    | none => some (s, [.refused])
    | some index => some (s.setKey index ⟨true, destructor⟩, [.created index destructor])
  | .delete key =>
    match key with
    | .ofNat key =>
      if pthreadKeyMax ≤ key then some (s, [.refused])
      else some (s.setKey key ⟨false, none⟩, [.deleted key])
    | .negSucc _ => some (s, [.fault])
  | .exit t =>
    if s.storing t = none ∧ s.phase t = .running then
      if (s.tls t).isNone then some (s.setPhase t .exited, [.exited t])
      else some (s.setPhase t (.exiting 0), [])
    else none
  | .exitStep t =>
    match s.storing t, s.phase t with
    | none, .exiting index =>
      if index < pthreadKeyMax then
        match s.reading t with
        | .key => some (if (s.keys index).isUsed = true then s.setReading t .word else s.nextKey t index, [])
        | .word => some (if s.word t index ≠ 0 then s.setReading t (.call (s.word t index)) else s.nextKey t index, [])
        | .call data =>
          some (s.nextKey t index,
            [match (s.keys index).destructor with
              | none => .fault
              | some destructor => .destroyed t index destructor data])
      else
        -- "release tls area"
        some ({ s.setPhase t .exited with tls := update s.tls t none }, [.exited t])
    | _, _ => none

def Tls.init (n : Nat) : Tls n where
  keys := fun _ => ⟨false, none⟩
  tls := fun _ => none
  storing := fun _ => none
  phase := fun _ => .running
  reading := fun _ => .key

/-! ## What the calls are for -/

/-- The destructor of a key, as the calls so far have left it: `none` for a key that is not in use. -/
def keyAt (key : Nat) (trace : List (TlsEvent n)) : Option (Option Nat) :=
  trace.foldl (fun now e =>
    match e with
    | .created key' destructor => if key' = key then some destructor else now
    | .deleted key' => if key' = key then none else now
    | _ => now) none

/-- The last value that a thread has stored under a key since the key was created, `NULL` if there is none. -/
def lastStored (t : Fin n) (key : Nat) (trace : List (TlsEvent n)) : Nat :=
  trace.foldl (fun now e =>
    match e with
    | .created key' _ => if key' = key then 0 else now
    | .stored t' key' value => if t' = t ∧ key' = key then value else now
    | _ => now) 0

/-- What `pthread_getspecific` is to return. -/
def definedValue (t : Fin n) (key : Int) (trace : List (TlsEvent n)) : Nat :=
  match key with
  | .ofNat key => if (keyAt key trace).isSome then lastStored t key trace else 0
  | .negSucc _ => 0

/-- What is right after the calls so far: a thread gets the value it has stored; a destructor that is called is the key's and gets the value, and is called once; when a thread has exited, none has been left out. -/
def TlsEventRight (before : List (TlsEvent n)) : TlsEvent n → Prop
  | .get t key value => value = definedValue t key before
  | .destroyed t key destructor value =>
    keyAt key before = some (some destructor) ∧ value = lastStored t key before ∧ value ≠ 0 ∧
      ∀ destructor' value', .destroyed t key destructor' value' ∉ before
  | .exited t => ∀ key destructor, keyAt key before = some (some destructor) → lastStored t key before ≠ 0 →
    .destroyed t key destructor (lastStored t key before) ∈ before
  | .fault => False
  | _ => True

abbrev TlsRight (trace : List (TlsEvent n)) : Prop := EachEvent (fun before e _ => TlsEventRight before e) trace

/-- The conditions under which the calls do what they are for: memory is there and has `NULL` for the other keys in use; the areas of all threads have `NULL` at a key that is created; a key with a value has a destructor when its thread exits; destructors store nothing under keys that the walk has passed; no key is deleted between the reads of a walk that is to call its destructor; and keys are not negative. -/
def TlsSafe (s : Tls n) : TlsOp n → Prop
  | .get t key => 0 ≤ key ∨ (s.tls t).isNone
  | .set t key value area =>
    0 ≤ key ∧ (s.IsKey key.toNat → (s.tls t).isNone → area.isSome) ∧
      (s.tls t = none → ∀ key' < pthreadKeyMax, (key' : Int) ≠ key → s.IsKey key' → area.elim 0 (· key') = 0) ∧
      ∀ index < pthreadKeyMax + 1, s.phase t = .exiting index → s.IsKey key.toNat → value = 0 ∨ (index : Int) ≤ key
  | .create _ => ∀ key < pthreadKeyMax, pthreadKeyCreate s = some key → ∀ t,
    (s.storing t).map Prod.fst ≠ some key → s.word t key = 0
  | .delete key => 0 ≤ key ∧ ∀ t, ∀ index < pthreadKeyMax, s.phase t = .exiting index → s.reading t ≠ .key → (index : Int) = key →
    s.word t index = 0
  | .exitStep t => ∀ index < pthreadKeyMax, s.phase t = .exiting index → s.reading t ≠ .key → s.reading t ≠ .word →
    (s.keys index).destructor.isSome
  | _ => True

instance TlsSafe.decidable (s : Tls n) (op : TlsOp n) : Decidable (TlsSafe s op) := by
  cases op <;> unfold TlsSafe <;> infer_instance

abbrev TlsRun (ok : Tls n → TlsOp n → Prop) : List (TlsEvent n) → Tls n → Prop := Transition.Run stepTls ok (.init n)

end RtThread
