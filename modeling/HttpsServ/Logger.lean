import HttpsServ.Library.ByteString
import HttpsServ.Library.LockProgram

/-!
# logger.c

The three logging functions as programs over the two mutexes, and what any
number of threads that call them do to the mutexes.
-/

namespace HttpsServ.Logger

open ByteString LockProgram

def loggerError : Int := -1

inductive Mutex
  | serverMutex
  | stdoutMutex
  deriving DecidableEq

/-- What the functions do between locking and unlocking. -/
inductive Action
  | fopen (filename : Bytes) (opened : Bool)
  | printf (text : Bytes)
  | fprintf (message : Bytes)
  | fclose
  | perror (msg : Bytes)
  | vprintf (text : Bytes)

abbrev Program := List (Instr Mutex Action)

/-- `LogMessage` when `fopen` has this result: the program it runs through, and
what it returns. -/
def logMessage (filename message : Bytes) (opened : Bool) : Program × Int :=
  if opened then
    ([.lock .serverMutex, .act (.fopen filename true), .act (.fprintf message), .act .fclose,
      .unlock .serverMutex], 0)
  else
    ([.lock .serverMutex, .act (.fopen filename false),
      .act (.printf (bytes "Error opening file"))], loggerError)

def logPerror (msg : Bytes) : Program :=
  [.lock .stdoutMutex, .act (.perror msg), .unlock .serverMutex]

/-- `log_printf` on a text that is already formatted. -/
def logPrintf (text : Bytes) : Program :=
  [.lock .stdoutMutex, .act (.vprintf text), .unlock .stdoutMutex]

inductive LoggerCall
  | logMessage (filename message : Bytes) (opened : Bool)
  | logPerror (msg : Bytes)
  | logPrintf (text : Bytes)

def LoggerCall.program : LoggerCall → Program
  | .logMessage filename message opened => (Logger.logMessage filename message opened).1
  | .logPerror msg => Logger.logPerror msg
  | .logPrintf text => Logger.logPrintf text

/-- The calls without an error to report: the file opens, and it is no `log_perror`. -/
def LoggerCall.Plain : LoggerCall → Prop
  | .logMessage _ _ opened => opened = true
  | .logPerror _ => False
  | .logPrintf _ => True

/-- A call releases the mutex it acquired, and no other, exactly when it has no
error to report. -/
theorem LoggerCall.disciplined_iff (call : LoggerCall) :
    Disciplined call.program ↔ call.Plain := by
  cases call with
  | logMessage filename message opened =>
      cases opened with
      | true => exact ⟨fun _ => rfl, fun _ => rfl⟩
      | false =>
          constructor
          · intro h
            cases h
          · intro h
            cases h
  | logPerror msg =>
      constructor
      · intro h
        cases h
      · intro h
        cases h
  | logPrintf text => exact ⟨fun _ => trivial, fun _ => rfl⟩

/-- The programs of a kind of calls. -/
def programs (kind : LoggerCall → Prop) : Set Program :=
  {program | ∃ call, kind call ∧ call.program = program}

/-- What the logger promises about its mutexes. -/
structure LocksInOrder {T : Type} [DecidableEq T] (s : State T Mutex Action) : Prop where
  released_by_owner : ∀ t m program, s.rest t = .unlock m :: program → s.owner m = some t
  returned_without : ∀ t, s.rest t = [] → ∀ m, s.owner m ≠ some t
  free : (∀ t, s.rest t = []) → ∀ m, s.owner m = none
  finish : ∀ t, ∃ s', Runs ∅ s s' ∧ s'.rest t = []

theorem locksInOrder_of_ordered {T : Type} [DecidableEq T] {s : State T Mutex Action}
    (h : Ordered s) : LocksInOrder s :=
  ⟨fun _ _ _ hrest => h.owner_of_unlock hrest, fun _ hrest => h.owner_ne hrest,
    h.owner_eq_none, h.finish⟩

/-- Exactly the calls without an error to report give back what they took. While
the threads make only such calls, the mutexes are in order in every state. -/
theorem logger_locksInOrder {T : Type} [DecidableEq T] {s : State T Mutex Action}
    (hruns : Runs (programs LoggerCall.Plain) State.idle s) :
    (∀ call : LoggerCall, Disciplined call.program ↔ call.Plain) ∧ LocksInOrder s := by
  refine ⟨LoggerCall.disciplined_iff, ?_⟩
  apply locksInOrder_of_ordered
  apply ordered_idle.runs _ hruns
  rintro program ⟨call, hplain, rfl⟩
  exact call.disciplined_iff.mpr hplain

/-- Two threads in `log_printf`: the second one waits for the mutex of the first. -/
theorem logger_locksInOrder_waiting :
    ∃ s : State (Fin 2) Mutex Action, s.owner .stdoutMutex = some 0 ∧
      (∃ program, s.rest 1 = .lock .stdoutMutex :: program) ∧
      (∀ call : LoggerCall, Disciplined call.program ↔ call.Plain) ∧ LocksInOrder s := by
  have hcall : logPrintf (bytes "x") ∈ programs LoggerCall.Plain :=
    ⟨.logPrintf (bytes "x"), trivial, rfl⟩
  refine ⟨_, ?_, ?_, logger_locksInOrder (((Relation.ReflTransGen.single ⟨0, .call hcall rfl⟩).tail
    ⟨0, .lock rfl rfl⟩).tail ⟨1, .call hcall rfl⟩)⟩
  · rfl
  · exact ⟨_, rfl⟩

/-- After a `LogMessage` that could not open its file, the mutex is owned though
nobody is inside a call, and the next `LogMessage` waits for ever. A `log_perror`
unlocks a mutex that its thread does not own. -/
theorem logger_locks_up :
    (∃ s s' : State (Fin 2) Mutex Action,
      Runs (programs fun _ => True) State.idle s ∧ (∀ t, s.rest t = []) ∧
        s.owner .serverMutex = some 0 ∧
        Step (programs fun _ => True) 1 s s' ∧ ∀ s'', Runs ∅ s' s'' → s''.rest 1 ≠ []) ∧
      ∃ s : State (Fin 2) Mutex Action, Runs (programs fun _ => True) State.idle s ∧
        s.rest 0 = [.unlock .serverMutex] ∧ s.owner .serverMutex ≠ some 0 := by
  have hcall : ∀ call : LoggerCall, call.program ∈ programs fun _ => True :=
    fun call => ⟨call, trivial, rfl⟩
  constructor
  · have hfailing := hcall (.logMessage (bytes "log.txt") (bytes "x") false)
    refine ⟨_, _, (((Relation.ReflTransGen.single ⟨0, .call hfailing rfl⟩).tail
      ⟨0, .lock rfl rfl⟩).tail ⟨0, .act rfl⟩).tail ⟨0, .act rfl⟩, ?_, rfl,
      .call hfailing rfl, ?_⟩
    · intro t
      match t with
      | 0 => rfl
      | 1 => rfl
    · intro s'' hruns
      rw [runs_of_stuck _ hruns]
      · exact List.cons_ne_nil _ _
      · intro t
        match t with
        | 0 => exact .inl rfl
        | 1 => exact .inr ⟨_, _, rfl, Option.some_ne_none 0⟩
  · have hperror := hcall (.logPerror (bytes "x"))
    refine ⟨_, ((Relation.ReflTransGen.single ⟨0, .call hperror rfl⟩).tail
      ⟨0, .lock rfl rfl⟩).tail ⟨0, .act rfl⟩, rfl, ?_⟩
    decide

end HttpsServ.Logger
