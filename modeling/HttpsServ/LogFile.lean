import HttpsServ.Library.AtomicSections
import HttpsServ.Logger
import Mathlib.Data.List.Infix

/-!
# The log file under concurrent calls

Any number of threads call `LogMessage` and `log_printf` in any order of steps,
and `fprintf` may reach the file in any number of pieces. The file still holds
whole messages, one behind the other, and at most one torn one at its end.
-/

namespace HttpsServ.LogFile

open ByteString Logger LockProgram AtomicSections

/-- A message and the file it is appended to. -/
structure LogRecord where
  filename : Bytes
  message : Bytes

/-- What a call appends to a file. -/
def LoggerCall.record : LoggerCall → Option LogRecord
  | .logMessage filename message true => some { filename, message }
  | _ => none

/-- The text of a program reaches the file in these pieces. -/
def inPieces (pieces : List Bytes) (program : Program) : Program :=
  program.flatMap fun instr =>
    match instr with
    | .act (.fprintf _) => pieces.map fun piece => .act (.fprintf piece)
    | instr => [instr]

/-- The program of a call, its message cut into pieces. -/
def PiecesOf (call : LoggerCall) (program : Program) : Prop :=
  ∃ pieces : List Bytes, (∀ r, LoggerCall.record call = some r → pieces.flatten = r.message) ∧
    program = inPieces pieces call.program

def plainPrograms : Set Program := {program | ∃ call : LoggerCall, call.Plain ∧ PiecesOf call program}

/-- The contents of the files, and the `log_fd` of each thread. -/
structure Disk (T : Type) where
  files : Bytes → Bytes
  logFd : T → Option Bytes

section Disks

variable {T : Type} [DecidableEq T]

def Disk.append (d : Disk T) (filename text : Bytes) : Disk T :=
  { d with files := Function.update d.files filename (d.files filename ++ text) }

/-- The calls of a thread on its `FILE`, which is in append mode. -/
def Disk.act (d : Disk T) (entry : T × Action) : Disk T :=
  match entry.2 with
  | .fopen filename true => { d with logFd := Function.update d.logFd entry.1 (some filename) }
  | .fprintf piece => (d.logFd entry.1).elim d fun filename => d.append filename piece
  | .fclose => { d with logFd := Function.update d.logFd entry.1 none }
  | _ => d

def Disk.run (d : Disk T) (entries : List (T × Action)) : Disk T := entries.foldl Disk.act d

/-- The actions that concern a file. -/
def fileAction : Action → Option Action
  | .fopen filename opened => some (.fopen filename opened)
  | .fprintf piece => some (.fprintf piece)
  | .fclose => some .fclose
  | _ => none

/-- The file system after a trace. -/
def diskAfter (files : Bytes → Bytes) (trace : List (T × Event Mutex Action)) : Disk T :=
  Disk.run { files, logFd := fun _ => none } (effects fileAction trace)

theorem Disk.run_append (d : Disk T) (first second : List (T × Action)) :
    d.run (first ++ second) = (d.run first).run second :=
  List.foldl_append

/-- What `LogMessage` does to the file between locking and unlocking. -/
def recordSection (filename : Bytes) (pieces : List Bytes) : List Action :=
  .fopen filename true :: (pieces.map .fprintf ++ [.fclose])

omit [DecidableEq T] in
theorem Disk.append_nil (d : Disk T) (filename : Bytes) : d.append filename [] = d := by
  simp [Disk.append]

omit [DecidableEq T] in
theorem Disk.append_append (d : Disk T) (filename first second : Bytes) :
    (d.append filename first).append filename second = d.append filename (first ++ second) := by
  simp [Disk.append]

/-- Pieces written into an open file. -/
theorem run_fprintf {d : Disk T} {t : T} {filename : Bytes} (hfd : d.logFd t = some filename)
    (pieces : List Bytes) :
    d.run (Tagged (t, pieces.map .fprintf)) = d.append filename pieces.flatten := by
  induction pieces generalizing d with
  | nil => exact (d.append_nil filename).symm
  | cons piece pieces ih =>
      have hstep : d.act (t, .fprintf piece) = d.append filename piece := by
        simp only [Disk.act, hfd, Option.elim]
      calc
        d.run (Tagged (t, (piece :: pieces).map .fprintf)) =
            (d.act (t, .fprintf piece)).run (Tagged (t, pieces.map .fprintf)) := rfl
        _ = (d.append filename piece).append filename pieces.flatten := by
            rw [hstep]
            exact ih hfd
        _ = d.append filename (piece :: pieces).flatten := by
            rw [Disk.append_append, List.flatten_cons]

/-- A whole section appends its message and leaves the file closed. -/
theorem run_section {d : Disk T} {t : T} (hclosed : d.logFd t = none) (filename : Bytes)
    (pieces : List Bytes) :
    d.run (Tagged (t, recordSection filename pieces)) = d.append filename pieces.flatten := by
  let opened : Disk T := { d with logFd := Function.update d.logFd t (some filename) }
  have hfd : opened.logFd t = some filename := Function.update_self _ _ _
  calc
    d.run (Tagged (t, recordSection filename pieces)) =
        opened.run (Tagged (t, pieces.map .fprintf ++ [.fclose])) := rfl
    _ = (opened.append filename pieces.flatten).run (Tagged (t, [.fclose])) := by
        rw [Tagged, List.map_append, Disk.run_append]
        exact congrArg (Disk.run · _) (run_fprintf hfd pieces)
    _ = d.append filename pieces.flatten := by
        simp [Disk.run, Tagged, Disk.act, Disk.append, opened, ← hclosed]

/-- A section that has not been finished has appended a part of its message. -/
theorem run_section_prefix (d : Disk T) (t : T) {filename : Bytes} {pieces : List Bytes}
    {done : List Action} (hdone : done <+: recordSection filename pieces) :
    ∃ text, text <+: pieces.flatten ∧
      (d.run (Tagged (t, done))).files = (d.append filename text).files := by
  let opened : Disk T := { d with logFd := Function.update d.logFd t (some filename) }
  have hfd : opened.logFd t = some filename := Function.update_self _ _ _
  rcases List.prefix_cons_iff.mp hdone with rfl | ⟨written, rfl, hwritten⟩
  · refine ⟨[], List.nil_prefix, ?_⟩
    rw [Disk.append_nil]
    rfl
  · have hopened : d.run (Tagged (t, .fopen filename true :: written)) =
        opened.run (Tagged (t, written)) := rfl
    rw [hopened]
    rcases List.prefix_concat_iff.mp hwritten with rfl | hwritten
    · refine ⟨pieces.flatten, List.prefix_rfl, ?_⟩
      rw [Tagged, List.map_append, Disk.run_append]
      exact congrArg (fun d' : Disk T => (d'.run [(t, .fclose)]).files) (run_fprintf hfd pieces)
    · obtain ⟨first, hfirst, rfl⟩ := List.prefix_map_iff.mp hwritten
      refine ⟨first.flatten, ?_, ?_⟩
      · exact List.IsPrefix.flatten hfirst
      · rw [run_fprintf hfd]
        rfl

/-- The record that a section writes. -/
def sectionRecord : List Action → LogRecord
  | .fopen filename _ :: rest =>
      { filename := filename
        message := rest.flatMap fun action =>
          match action with
          | .fprintf piece => piece
          | _ => [] }
  | _ => { filename := [], message := [] }

theorem sectionRecord_recordSection (filename : Bytes) (pieces : List Bytes) :
    sectionRecord (recordSection filename pieces) =
      { filename := filename, message := pieces.flatten } := by
  rw [recordSection, sectionRecord]
  simp [List.flatMap_map]

def IsRecordSection (actions : List Action) : Prop :=
  ∃ filename pieces, actions = recordSection filename pieces

/-- The messages of one file, one behind the other. -/
def textOf (filename : Bytes) (records : List LogRecord) : Bytes :=
  records.flatMap fun r => if r.filename = filename then r.message else []

theorem textOf_singleton (filename : Bytes) (r : LogRecord) :
    textOf filename [r] = if r.filename = filename then r.message else [] :=
  List.flatMap_singleton _ _

omit [DecidableEq T] in
theorem append_files (d : Disk T) (r : LogRecord) (filename : Bytes) :
    (d.append r.filename r.message).files filename =
      d.files filename ++ textOf filename [r] := by
  rw [textOf_singleton]
  rcases eq_or_ne filename r.filename with rfl | hne
  · simp [Disk.append]
  · simp [Disk.append, hne, hne.symm]

theorem run_sections {d : Disk T} (hclosed : ∀ t, d.logFd t = none)
    (order : List (T × List Action)) (horder : ∀ entry ∈ order, IsRecordSection entry.2) :
    (∀ t, (d.run (order.flatMap Tagged)).logFd t = none) ∧
      ∀ filename, (d.run (order.flatMap Tagged)).files filename =
        d.files filename ++ textOf filename (order.map fun entry => sectionRecord entry.2) := by
  induction order generalizing d with
  | nil => exact ⟨hclosed, fun filename => (List.append_nil _).symm⟩
  | cons entry order ih =>
      obtain ⟨t, actions⟩ := entry
      obtain ⟨filename, pieces, rfl⟩ := horder _ List.mem_cons_self
      rw [List.flatMap_cons, Disk.run_append, run_section (hclosed t)]
      obtain ⟨hstill, hfiles⟩ := ih (d := d.append filename pieces.flatten) hclosed
        fun entry hmem => horder entry (List.mem_cons_of_mem _ hmem)
      refine ⟨hstill, fun name => ?_⟩
      rw [hfiles, append_files d { filename := filename, message := pieces.flatten },
        List.append_assoc, List.map_cons, sectionRecord_recordSection]
      simp [textOf]

/-- The part of a record that is written when its section has been begun. -/
theorem run_begun (d : Disk T) (t : T) {current : List Action} {pending : List (List Action)}
    (hshape : ∀ first ∈ pending, IsRecordSection first)
    (hcurrent : current = [] ∨ ∃ first ∈ pending, current <+: first) :
    ∃ torn : Bytes → Bytes,
      (∀ filename, (d.run (Tagged (t, current))).files filename =
        d.files filename ++ torn filename) ∧
      ∀ filename, torn filename ≠ [] → ∃ first ∈ pending,
        (sectionRecord first).filename = filename ∧
          torn filename <+: (sectionRecord first).message := by
  rcases hcurrent with rfl | ⟨first, hmem, hprefix⟩
  · exact ⟨fun _ => [], fun _ => (List.append_nil _).symm, fun _ htorn => absurd rfl htorn⟩
  · obtain ⟨name, pieces, rfl⟩ := hshape first hmem
    obtain ⟨text, htext, happended⟩ := run_section_prefix d t hprefix
    refine ⟨fun filename => textOf filename [{ filename := name, message := text }], ?_, ?_⟩
    · intro filename
      rw [happended]
      exact append_files d { filename := name, message := text } filename
    · intro filename htorn
      refine ⟨_, hmem, ?_⟩
      simp only [textOf_singleton] at htorn ⊢
      rw [sectionRecord_recordSection]
      split at htorn
      · rename_i hname
        rw [if_pos hname]
        exact ⟨hname, htext⟩
      · exact absurd rfl htorn

end Disks

theorem logMessage_inPieces (pieces : List Bytes) (filename message : Bytes) :
    inPieces pieces (logMessage filename message true).1 =
      sectionProgram .serverMutex (recordSection filename pieces) := by
  simp [inPieces, logMessage, sectionProgram, recordSection]

theorem logPrintf_inPieces (pieces : List Bytes) (text : Bytes) :
    inPieces pieces (logPrintf text) = sectionProgram .stdoutMutex [.vprintf text] := rfl

/-- A plain call is one section of one of the two mutexes. -/
theorem PiecesOf.cases {call : LoggerCall} {program : Program} (h : PiecesOf call program)
    (hplain : call.Plain) :
    (∃ r pieces, LoggerCall.record call = some r ∧ pieces.flatten = r.message ∧
        program = sectionProgram .serverMutex (recordSection r.filename pieces)) ∨
      (∃ text, LoggerCall.record call = none ∧
        program = sectionProgram .stdoutMutex [.vprintf text]) := by
  obtain ⟨pieces, hpieces, rfl⟩ := h
  cases call with
  | logMessage filename message opened =>
      obtain rfl : opened = true := hplain
      exact .inl ⟨_, pieces, rfl, hpieces _ rfl, logMessage_inPieces pieces filename message⟩
  | logPerror msg => exact absurd hplain id
  | logPrintf text => exact .inr ⟨text, rfl, logPrintf_inPieces pieces text⟩

theorem plainPrograms_orderly {program : Program} (h : program ∈ plainPrograms) :
    Disciplined program ∧ Protected Mutex.serverMutex fileAction false program := by
  obtain ⟨call, hplain, hpieces⟩ := h
  obtain ⟨r, pieces, -, -, rfl⟩ | ⟨text, -, rfl⟩ := hpieces.cases hplain
  · exact ⟨sectionProgram_disciplined _ _, sectionProgram_protected fun _ _ _ => rfl⟩
  · refine ⟨sectionProgram_disciplined _ _, sectionProgram_protected ?_⟩
    intro action hmem heffect
    rw [List.mem_singleton.mp hmem] at heffect
    exact absurd rfl heffect

theorem filterMap_recordSection (filename : Bytes) (pieces : List Bytes) :
    (recordSection filename pieces).filterMap fileAction = recordSection filename pieces := by
  have hpieces : (pieces.map Action.fprintf).filterMap fileAction = pieces.map .fprintf := by
    rw [List.filterMap_map, ← List.filterMap_eq_map]
    rfl
  rw [recordSection, List.filterMap_cons_some (by rfl), List.filterMap_append, hpieces]
  rfl

/-- The sections that calls close are their records, in order. -/
theorem closed_of_pieces {calls : List LoggerCall} {programs : List Program}
    (hpieces : List.Forall₂ PiecesOf calls programs) (hplain : ∀ call ∈ calls, call.Plain)
    (closed : List (List Action)) :
    ∃ sections, Sections.run .serverMutex fileAction { closed := closed } programs.flatten =
        { closed := closed ++ sections } ∧
      (∀ actions ∈ sections, IsRecordSection actions) ∧
      sections.map sectionRecord = calls.filterMap LoggerCall.record := by
  induction hpieces generalizing closed with
  | nil => exact ⟨[], by simp, by simp, rfl⟩
  | cons hfirst hrest ih =>
      rename_i call program calls programs
      rw [List.flatten_cons, Sections.run_append]
      obtain ⟨hcall, hcalls⟩ := List.forall_mem_cons.mp hplain
      obtain ⟨r, pieces, hrecord, hmessage, rfl⟩ | ⟨text, hrecord, rfl⟩ := hfirst.cases hcall
      · obtain ⟨sections, hrun, hshape, hmap⟩ :=
          ih hcalls (closed ++ [recordSection r.filename pieces])
        refine ⟨recordSection r.filename pieces :: sections, ?_, ?_, ?_⟩
        · rw [Sections.run_sectionProgram, if_pos rfl, filterMap_recordSection, hrun]
          simp
        · exact List.forall_mem_cons.mpr ⟨⟨r.filename, pieces, rfl⟩, hshape⟩
        · rw [List.map_cons, sectionRecord_recordSection, hmap, hmessage,
            List.filterMap_cons_some hrecord]
      · obtain ⟨sections, hrun, hshape, hmap⟩ := ih hcalls closed
        refine ⟨sections, ?_, hshape, ?_⟩
        · rw [Sections.run_sectionProgram, if_neg (by decide)]
          exact hrun
        · rw [hmap, List.filterMap_cons_none hrecord]

section Runs

variable {T : Type} [DecidableEq T]

/-- The files hold whole records in a common order, which keeps the order of each
thread, and behind them a part of the record that is being written. -/
structure Logged (calls : T → List LoggerCall) (files after : Bytes → Bytes)
    (s : State T Mutex Action) (order : List (T × LogRecord)) (pending : T → List LogRecord)
    (torn : Bytes → Bytes) : Prop where
  contents : ∀ filename, after filename =
    files filename ++ textOf filename (order.map Prod.snd) ++ torn filename
  torn_part : ∀ filename, torn filename ≠ [] → ∃ t r, s.owner .serverMutex = some t ∧
    r ∈ pending t ∧ r.filename = filename ∧ torn filename <+: r.message
  records : ∀ t, (calls t).filterMap LoggerCall.record = onlyOf t order ++ pending t
  atMostOne : ∀ t, (pending t).length ≤ 1
  settled : ∀ t, s.rest t = [] → pending t = []

/-- One release of a mutex at most is left of a plain call. -/
theorem countP_releases_le {trace : List (T × Event Mutex Action)} {s : State T Mutex Action}
    (h : Traced plainPrograms [] .idle trace s) (t : T) :
    (s.rest t).countP (releases Mutex.serverMutex) ≤ 1 := by
  have hsection : ∀ (m : Mutex) (actions : List Action),
      (sectionProgram m actions).countP (releases Mutex.serverMutex) ≤ 1 := by
    intro m actions
    have hacts : (actions.map Instr.act).countP (releases Mutex.serverMutex) = 0 := by
      rw [List.countP_map]
      exact List.countP_eq_zero.mpr fun _ _ => Bool.false_ne_true
    rw [sectionProgram, List.countP_cons_of_neg Bool.false_ne_true, List.countP_append, hacts,
      Nat.zero_add]
    exact List.countP_le_length
  obtain hnil | ⟨program, ⟨call, hplain, hpieces⟩, hsuffix⟩ := h.rest_suffix t
  · rw [hnil]
    exact Nat.zero_le 1
  · apply (hsuffix.sublist.countP_le).trans
    obtain ⟨r, pieces, -, -, rfl⟩ | ⟨text, -, rfl⟩ := hpieces.cases hplain
    · exact hsection _ _
    · exact hsection _ _

/-- The common order of the sections is one of whole records. -/
theorem logged_of_between (files : Bytes → Bytes) {calls : T → List LoggerCall}
    (hplain : ∀ t, ∀ call ∈ calls t, call.Plain) {trace : List (T × Event Mutex Action)}
    {s : State T Mutex Action} (h : Traced plainPrograms [] .idle trace s)
    (hcalls : ∀ t, List.Forall₂ PiecesOf (calls t) (called t trace))
    {order : List (T × List Action)}
    (hbetween : Between Mutex.serverMutex fileAction trace s order) :
    ∃ pending torn, Logged calls files (diskAfter files trace : Disk T).files s
      (order.map fun entry => (entry.1, sectionRecord entry.2)) pending torn := by
  choose sections hrun hshape hrecords using fun t => closed_of_pieces (hcalls t) (hplain t) []
  choose pending hpending hlength hcurrent using fun t => h.closed_of_calls t (hrun t)
  have hsections : ∀ t, sections t = onlyOf t order ++ pending t := by
    intro t
    rw [hbetween.turns.order_eq]
    exact hpending t
  have horder : ∀ entry ∈ order, IsRecordSection entry.2 := by
    intro entry hmem
    apply hshape entry.1
    rw [hsections]
    exact List.mem_append_left _ (mem_onlyOf hmem)
  obtain ⟨hclosed, hfiles⟩ := run_sections (d := { files, logFd := fun _ : T => none })
    (fun _ => rfl) order horder
  obtain ⟨torn, hcontents, hpart⟩ : ∃ torn : Bytes → Bytes,
      (∀ filename, (diskAfter files trace : Disk T).files filename = files filename ++
        textOf filename (order.map fun entry => sectionRecord entry.2) ++ torn filename) ∧
      ∀ filename, torn filename ≠ [] → ∃ t, s.owner .serverMutex = some t ∧
        ∃ actions ∈ pending t, (sectionRecord actions).filename = filename ∧
          torn filename <+: (sectionRecord actions).message := by
    rw [diskAfter, hbetween.turns.effects_eq, Disk.run_append]
    cases hown : s.owner .serverMutex with
    | none =>
        refine ⟨fun _ => [], fun filename => ?_, fun filename htorn => absurd rfl htorn⟩
        rw [openSection, hown, List.append_nil]
        exact hfiles filename
    | some t =>
        have hbegun : ∀ first ∈ pending t, IsRecordSection first := by
          intro first hmem
          apply hshape t
          rw [hsections]
          exact List.mem_append_right _ hmem
        obtain ⟨torn, hrun, hpart⟩ := run_begun
          (Disk.run { files, logFd := fun _ => none } (order.flatMap Tagged)) t hbegun (hcurrent t)
        refine ⟨torn, fun filename => ?_, fun filename htorn => ⟨t, rfl, hpart filename htorn⟩⟩
        rw [openSection, hown, hrun, hfiles]
  refine ⟨fun t => (pending t).map sectionRecord, torn, ?_, ?_, ?_, ?_, ?_⟩
  · intro filename
    rw [hcontents, List.map_map]
    rfl
  · intro filename htorn
    obtain ⟨t, hown, actions, hmem, hname, hprefix⟩ := hpart filename htorn
    exact ⟨t, _, hown, List.mem_map_of_mem hmem, hname, hprefix⟩
  · intro t
    rw [← hrecords, hsections, List.map_append, onlyOf_map]
  · intro t
    rw [List.length_map, hlength]
    exact countP_releases_le h t
  · intro t hrest
    have hnone := hlength t
    rw [hrest] at hnone
    rw [List.eq_nil_of_length_eq_zero hnone, List.map_nil]

/-- In whatever order the calls of the threads are executed, and in whatever
pieces their messages are written, no record is lost, doubled or cut, but for
the one that is being written, and a record that is written keeps its place. -/
theorem logFile_keeps_records (files : Bytes → Bytes) {calls calls' : T → List LoggerCall}
    (hplain : ∀ t, ∀ call ∈ calls t, call.Plain) (hplain' : ∀ t, ∀ call ∈ calls' t, call.Plain)
    {trace trace' : List (T × Event Mutex Action)} {s s' : State T Mutex Action}
    (h : Traced plainPrograms [] .idle trace s) (h' : Traced plainPrograms trace s trace' s')
    (hcalls : ∀ t, List.Forall₂ PiecesOf (calls t) (called t trace))
    (hcalls' : ∀ t, List.Forall₂ PiecesOf (calls' t) (called t trace')) :
    ∃ order more pending torn pending' torn',
      Logged calls files (diskAfter files trace : Disk T).files s order pending torn ∧
      Logged calls' files (diskAfter files trace' : Disk T).files s' (order ++ more) pending'
        torn' := by
  obtain ⟨order, hbetween⟩ := h.exists_between fun _ => plainPrograms_orderly
  obtain ⟨more, hbetween'⟩ := hbetween.run (fun _ => plainPrograms_orderly) h'
  obtain ⟨pending, torn, hlogged⟩ := logged_of_between files hplain h hcalls hbetween
  obtain ⟨pending', torn', hlogged'⟩ :=
    logged_of_between files hplain' (h.trans h') hcalls' hbetween'
  rw [List.map_append] at hlogged'
  exact ⟨_, _, pending, torn, pending', torn', hlogged, hlogged'⟩

/-- `LogMessage` in two pieces. -/
def twoPieces : Program :=
  inPieces [bytes "a", bytes "b"] (logMessage (bytes "log.txt") (bytes "ab") true).1

theorem twoPieces_piecesOf :
    PiecesOf (.logMessage (bytes "log.txt") (bytes "ab") true) twoPieces := by
  refine ⟨[bytes "a", bytes "b"], ?_, rfl⟩
  intro r hr
  cases hr
  rfl

theorem twoPieces_mem : twoPieces ∈ plainPrograms :=
  ⟨.logMessage (bytes "log.txt") (bytes "ab") true, rfl, twoPieces_piecesOf⟩

/-- Two threads: the first has written one piece of its message when the second one comes
to wait for the mutex. -/
theorem logFile_keeps_records_torn :
    ∃ (trace trace' : List (Fin 2 × Event Mutex Action)) (s s' : State (Fin 2) Mutex Action),
      (diskAfter (fun _ => []) trace : Disk (Fin 2)).files (bytes "log.txt") = bytes "a" ∧
      s'.owner .serverMutex = some 0 ∧ s'.rest 1 = twoPieces ∧
      ∃ order more pending torn pending' torn',
        Logged (fun t => if t = 0 then [.logMessage (bytes "log.txt") (bytes "ab") true] else [])
          (fun _ => []) (diskAfter (fun _ => []) trace : Disk (Fin 2)).files s order pending torn ∧
        Logged (fun _ => [.logMessage (bytes "log.txt") (bytes "ab") true])
          (fun _ => []) (diskAfter (fun _ => []) trace' : Disk (Fin 2)).files s' (order ++ more)
          pending' torn' := by
  refine ⟨_, _, _, _, ?_, ?_, ?_, logFile_keeps_records (fun _ => []) ?_ ?_
    ((((Traced.start.step (t := 0) (.call twoPieces_mem rfl)).step (t := 0) (.lock rfl rfl)).step
      (t := 0) (.act rfl)).step (t := 0) (.act rfl))
    (Traced.start.step (t := 1) (.call twoPieces_mem rfl)) ?_ ?_⟩
  · rfl
  · rfl
  · rfl
  · exact Fin.forall_fin_two.mpr ⟨by simp [LoggerCall.Plain], by simp⟩
  · simp [LoggerCall.Plain]
  · exact Fin.forall_fin_two.mpr ⟨.cons twoPieces_piecesOf .nil, .nil⟩
  · exact Fin.forall_fin_two.mpr
      ⟨.cons twoPieces_piecesOf .nil, .cons twoPieces_piecesOf .nil⟩

end Runs

end HttpsServ.LogFile
