import HttpsServ.ConnectionEnd
import HttpsServ.RequestLog
import HttpsServ.LogFile

/-!
# The log of the server

`LogInit` writes a header of three lines where there is no log yet. Behind it
comes one line for each request that a connection has accepted. The connections
run in threads, and their lines come in an order that keeps each connection's.
-/

namespace HttpsServ.ServerLog

open ByteString Utility Numeral HttpParser Http Logger LockProgram AtomicSections LogFile
  RequestHeader RequestGrammar RequestLog Segments TlsAdapter Transport ResponseFrame KeepAlive
  ReadBoundaries ConnectionEnd

def dateStringSize : Nat := 30
def loggerVersion : Bytes := bytes "#Version: 1.0\n"
def loggerFields : Bytes := bytes "#Fields: time cs-method cs-uri\n"

/-- `%b` in the C locale. -/
def monthNames : List Bytes :=
  [bytes "Jan", bytes "Feb", bytes "Mar", bytes "Apr", bytes "May", bytes "Jun", bytes "Jul",
    bytes "Aug", bytes "Sep", bytes "Oct", bytes "Nov", bytes "Dec"]

/-- A `struct tm`, with the year in full. -/
structure LocalTime where
  mday : Nat
  mon : Nat
  year : Nat
  time : LogTime
  mday_le : mday ≤ 31
  mon_lt : mon < 12
  year_le : year ≤ 9999
  hour_lt : time.hour < 24
  min_lt : time.min < 60
  sec_le : time.sec ≤ 60

/-- `"#Date: %d-%b-%Y %H:%M:%S"`. -/
def LocalTime.dateLine (t : LocalTime) : Bytes :=
  bytes "#Date: " ++ twoDigits t.mday ++ bytes "-" ++ monthNames.getD t.mon [] ++ bytes "-" ++
    decNumeral t.year ++ bytes " " ++ t.time.text

/-- `strftime` into `logger_date`; `none` when the text and its zero do not fit. -/
def strftimeDate (t : LocalTime) : Option Bytes :=
  if (t.dateLine ++ bytes "\n").length + 1 ≤ dateStringSize then some (t.dateLine ++ bytes "\n")
  else none

/-- The message of `LogInit`. -/
def loggerHeader (t : LocalTime) : Bytes :=
  loggerVersion ++ (strftimeDate t).getD [] ++ loggerFields

/-- `LogInit`: what is in the file afterwards, when it can be opened. -/
def logInit (t : LocalTime) (file : Option Bytes) : Bytes :=
  match file with
  | some content => content
  | none => appendedText (logMessage loggerFilename (loggerHeader t) true).1

theorem length_decNumeral_le_iff {n : Nat} (hn : n ≠ 0) (width : Nat) :
    (decNumeral n).length ≤ width ↔ n < 10 ^ width := by
  rw [decNumeral, if_neg (by omega), Int.natAbs_natCast]
  exact length_numeral_le_iff (by decide) hn

theorem length_twoDigits {n : Nat} (h : n < 100) : (twoDigits n).length = 2 := by
  have hshort : (decNumeral n).length ≤ 2 := by
    rcases eq_or_ne n 0 with rfl | hn
    · decide
    · exact (length_decNumeral_le_iff hn 2).mpr h
  rw [twoDigits, List.length_append, List.length_replicate]
  omega

theorem length_monthName {mon : Nat} (h : mon < 12) : (monthNames.getD mon []).length = 3 := by
  have hall : ∀ mon < 12, (monthNames.getD mon []).length = 3 := by decide
  exact hall mon h

theorem LogTime.length_text {t : LogTime} (hhour : t.hour < 100) (hmin : t.min < 100)
    (hsec : t.sec < 100) : t.text.length = 8 := by
  have hcolon : (bytes ":").length = 1 := rfl
  simp only [LogTime.text, List.length_append, length_twoDigits hhour, length_twoDigits hmin,
    length_twoDigits hsec, hcolon]

/-- The date fits into the array of `LogInit`. -/
theorem strftimeDate_eq (t : LocalTime) : strftimeDate t = some (t.dateLine ++ bytes "\n") := by
  have hyear : (decNumeral t.year).length ≤ 4 := by
    rcases eq_or_ne t.year 0 with hzero | hn
    · rw [hzero]
      decide
    · exact (length_decNumeral_le_iff hn 4).mpr (by have := t.year_le; omega)
  have htime : t.time.text.length = 8 := by
    have := t.hour_lt
    have := t.min_lt
    have := t.sec_le
    apply LogTime.length_text <;> omega
  have hday : (twoDigits t.mday).length = 2 := length_twoDigits (by have := t.mday_le; omega)
  have hliterals : (bytes "#Date: ").length = 7 ∧ (bytes "-").length = 1 ∧
      (bytes " ").length = 1 ∧ (bytes "\n").length = 1 := ⟨rfl, rfl, rfl, rfl⟩
  rw [strftimeDate, if_pos]
  simp only [LocalTime.dateLine, List.length_append, hliterals.1, hliterals.2.1, hliterals.2.2.1,
    hliterals.2.2.2, length_monthName t.mon_lt, htime, hday, dateStringSize]
  omega

theorem LocalTime.dateLine_plain (t : LocalTime) : 10 ∉ t.dateLine := by
  have hmonth : ∀ mon < 12, (10 : UInt8) ∉ monthNames.getD mon [] := by decide
  have hyear : (10 : UInt8) ∉ decNumeral t.year := by
    intro hmem
    rw [decNumeral, if_neg (by omega), Int.natAbs_natCast] at hmem
    obtain ⟨d, hd, heq⟩ := mem_numeral (by decide) hmem
    have hdigit : ∀ d < 10, digitByte d ≠ 10 := by decide
    exact hdigit d hd heq.symm
  have hday : (10 : UInt8) ∉ twoDigits t.mday := twoDigits_plain (by decide)
  have hliterals : (10 : UInt8) ∉ bytes "#Date: " ∧ (10 : UInt8) ∉ bytes "-" ∧
      (10 : UInt8) ∉ bytes " " := by decide
  simp only [LocalTime.dateLine, List.mem_append, hliterals.1, hliterals.2.1, hliterals.2.2,
    hmonth _ t.mon_lt, hyear, hday, t.time.text_plain.2, or_self, not_false_eq_true]

def headerLines (t : LocalTime) : List Bytes :=
  [bytes "#Version: 1.0", t.dateLine, bytes "#Fields: time cs-method cs-uri"]

theorem loggerHeader_eq (t : LocalTime) :
    loggerHeader t = (headerLines t).flatMap (· ++ [10]) := by
  have hversion : loggerVersion = bytes "#Version: 1.0" ++ [10] := by decide
  have hfields : loggerFields = bytes "#Fields: time cs-method cs-uri" ++ [10] := by decide
  have hline : bytes "\n" = [10] := by decide
  rw [loggerHeader, strftimeDate_eq, hversion, hfields, hline, headerLines]
  simp only [Option.getD_some, List.flatMap_cons, List.flatMap_nil, List.append_assoc,
    List.append_nil]

def isMessage : Event → Bool
  | .logMessage _ _ => true
  | _ => false

/-- A call of the logger, whose file can be opened. -/
def loggerCall : Event → Option LoggerCall
  | .logMessage filename message => some (.logMessage filename message true)
  | .logPerror message => some (.logPerror message)
  | .logPrintf message => some (.logPrintf message)
  | _ => none

/-- The records that a run of events appends to log files. -/
def recordsOf (events : List Event) : List LogRecord :=
  (events.filterMap loggerCall).filterMap LoggerCall.record

theorem recordsOf_append (events events' : List Event) :
    recordsOf (events ++ events') = recordsOf events ++ recordsOf events' := by
  rw [recordsOf, List.filterMap_append, List.filterMap_append]
  rfl

/-- The calls between two connections append these records. -/
def Logs (records : List LogRecord) (c c' : Conn) : Prop :=
  ∃ events, c'.log = c.log ++ events ∧ recordsOf events = records

theorem Logs.trans {records records' : List LogRecord} {c c' c'' : Conn} (h : Logs records c c')
    (h' : Logs records' c' c'') : Logs (records ++ records') c c'' := by
  obtain ⟨events, hlog, hrecords⟩ := h
  obtain ⟨events', hlog', hrecords'⟩ := h'
  refine ⟨events ++ events', ?_, ?_⟩
  · rw [hlog', hlog, List.append_assoc]
  · rw [recordsOf_append, hrecords, hrecords']

def Quiet (c c' : Conn) : Prop := Calls (fun e => isMessage e = false) c c'

theorem recordsOf_quiet {events : List Event} (h : ∀ e ∈ events, isMessage e = false) :
    recordsOf events = [] := by
  rw [recordsOf, List.filterMap_filterMap, List.filterMap_eq_nil_iff]
  intro e he
  cases e with
  | logMessage filename message => cases h _ he
  | _ => rfl

theorem Quiet.logs {c c' : Conn} (h : Quiet c c') : Logs [] c c' := by
  obtain ⟨events, hlog, hquiet⟩ := h
  exact ⟨events, hlog, recordsOf_quiet hquiet⟩

/-- Calls in front that append nothing. -/
theorem Quiet.after {records : List LogRecord} {c c' c'' : Conn} (h : Quiet c c')
    (h' : Logs records c' c'') : Logs records c c'' := h.logs.trans h'

/-- Calls behind that append nothing. -/
theorem Logs.quiet {records : List LogRecord} {c c' c'' : Conn} (h : Logs records c c')
    (h' : Quiet c' c'') : Logs records c c'' := by
  have hall := h.trans h'.logs
  rwa [List.append_nil] at hall

theorem Transfers.quiet {c c' : Conn} (h : Transfers c c') : Quiet c c' := by
  apply h.log.mono
  intro e he
  cases e with
  | logMessage filename message => cases he
  | _ => rfl

theorem freeThreadData_quiet (c : Conn) : Quiet c (freeThreadData c) := by
  refine ⟨_, freeThreadData_log_eq c, ?_⟩
  cases c.td.staticFile with
  | none => decide
  | some file => simp [closingCalls, isMessage]

theorem failRequest_quiet (env : Env) (errorCode : Int) (problemName : Bytes) (c : Conn) :
    Quiet c (failRequest env errorCode problemName c).conn := by
  rw [failRequest]
  split
  · exact Calls.of_log_eq rfl
  · rename_i c' hsome
    obtain ⟨-, buffer, result, hlog⟩ := handleError_log hsome
    have hwritten : Quiet c c' := Calls.snoc hlog rfl
    exact hwritten.trans (freeThreadData_quiet c')

theorem afterSend_quiet (sent : Int × Conn) : Quiet sent.2 (afterSend sent).conn := by
  have hemit : ∀ e, isMessage e = false → Quiet sent.2 (sent.2.emit e) :=
    fun e he => Calls.snoc rfl he
  rw [afterSend]
  split
  · exact (hemit _ rfl).trans (freeThreadData_quiet _)
  · split
    · exact hemit .fclose rfl
    · exact freeThreadData_quiet _

theorem respond_quiet (env : Env) (c : Conn) : Quiet c (respond env c).conn := by
  cases hbody : c.td.httpHeader.body with
  | none =>
      simp only [respond, hbody]
      exact Calls.of_log_eq rfl
  | some body =>
      obtain ⟨keep, chunked, hrespond⟩ := respond_eq env c.td hbody
      have heq := hrespond c.td.isKeepAlive c.td.requestBuffer c.log
      have hsent := Transfers.quiet (sendStaticData_transfers env
        { td := { c.td with isKeepAlive := keep, isChunkEncoding := chunked }, log := c.log })
      exact heq ▸ hsent.trans (afterSend_quiet _)

theorem openRequestedFile_quiet (env : Env) (c : Conn) : Quiet c (openRequestedFile env c) := by
  simp only [openRequestedFile]
  split
  · exact Calls.of_log_eq rfl
  · exact Calls.snoc rfl rfl

theorem closeConnection_quiet (env : Env) (c : Conn) : Quiet c (closeConnection env c) :=
  Transfers.quiet (sendHttpHeader_transfers env .close _ _ _ c)

/-- The record of a request: the clock's text, and the bytes it was parsed from. -/
def acceptedRecord (defaultDocument : Bytes) (request : Bytes × Bytes) : LogRecord where
  filename := loggerFilename
  message := logData request.1
    (setDefaultDocument (fillHttpRequestHeader {} request.2).2 defaultDocument)

/-- The request that `FillHttpRequestHeader` accepts in a pass of the loop: the bytes that
were read, and the clock's text behind the parse. -/
def acceptedRequest (env : Env) (r : ReadResult) (c : Conn) : Option (Bytes × Bytes) :=
  match r with
  | .data piece =>
      if (fillHttpRequestHeader {} piece.data).1 = 0 then
        some (env.logTime (c.log ++ [.read (some r.value), .parse]), piece.data)
      else none
  | .code _ _ => none

/-- The requests that are accepted in the passes that the loop comes to. -/
def acceptedRequests (env : Env) : List ReadResult → Conn → List (Bytes × Bytes)
  | [], _ => []
  | r :: reads, c =>
      (acceptedRequest env r c).toList ++
        match serveRead env r c with
        | .loopHead c => acceptedRequests env reads c
        | _ => []

theorem accepted_logs (env : Env) {c : Conn} {buffer : Bytes} {header : HttpRequestHeader}
    (hparse : fillHttpRequestHeader {} buffer = (0, header)) :
    Logs [acceptedRecord c.td.defaultDocument (env.logTime (c.log ++ [.parse]), buffer)] c
      (accepted env header c) := by
  refine ⟨[.parse, .logMessage loggerFilename (logData (env.logTime (c.log ++ [.parse]))
    (setDefaultDocument header c.td.defaultDocument))], ?_, ?_⟩
  · rw [accepted, logHttpRequestHeader_eq, Conn.emit, List.append_assoc]
    rfl
  · rw [acceptedRecord, hparse]
    rfl

theorem handleRequest_logs (env : Env) {c : Conn} (hheader : c.td.httpHeader = {}) {buffer : Bytes}
    (hbuffer : cstr (c.td.requestBuffer.cells ++ c.td.responseBuffer.cells) = cstr buffer) :
    Logs (if (fillHttpRequestHeader {} buffer).1 = 0 then
        [acceptedRecord c.td.defaultDocument (env.logTime (c.log ++ [.parse]), buffer)] else []) c
      (handleRequest env c).conn := by
  obtain ⟨code, header, hparse⟩ : ∃ code header,
      fillHttpRequestHeader {} buffer = (code, header) := ⟨_, _, rfl⟩
  have hcode := fillHttpRequestHeader_code {} buffer
  have hread : fillHttpRequestHeader c.td.httpHeader
      (c.td.requestBuffer.cells ++ c.td.responseBuffer.cells) = (code, header) := by
    rw [hheader, fillHttpRequestHeader_congr hbuffer, hparse]
  have hresult : (fillHttpRequestHeader {} buffer).1 = code := congrArg Prod.fst hparse
  rw [hresult] at hcode ⊢
  rcases hcode with rfl | ⟨e, rfl⟩
  · rw [if_pos rfl, handleRequest_opens env hread (lt_irrefl 0)]
    have hopened := (accepted_logs env hparse).quiet
      (openRequestedFile_quiet env (accepted env header c))
    split
    · exact hopened.quiet (failRequest_quiet env _ _ _)
    · exact hopened.quiet (respond_quiet env _)
  · rw [if_neg e.code_neg.ne, handleRequest_refused env hread e.code_neg]
    have hparsed : Quiet c ({ c with td := { c.td with httpHeader := header } }.emit .parse) :=
      Calls.snoc rfl rfl
    exact Quiet.logs (hparsed.trans (failRequest_quiet env _ _ _))

/-- What one pass through the loop logs. -/
theorem serveRead_logs (env : Env) (r : ReadResult) {defaultDocument rootFolder : Bytes}
    {c : Conn} (h : AtHead defaultDocument rootFolder c) :
    Logs ((acceptedRequest env r c).toList.map (acceptedRecord defaultDocument)) c
      (serveRead env r c).conn := by
  have hread : Quiet c (sslRead r c) := Calls.snoc (e := .read (some r.value)) rfl rfl
  obtain ⟨isKeepAlive, htd⟩ := h.idle
  cases r with
  | data piece =>
      have hheader : (sslRead (.data piece) c).td.httpHeader = {} := by
        simp only [sslRead, Conn.emit, htd]
        rfl
      have hbuffer : cstr ((sslRead (.data piece) c).td.requestBuffer.cells ++
          (sslRead (.data piece) c).td.responseBuffer.cells) = cstr piece.data := by
        simp only [sslRead, Conn.emit, htd]
        exact cstr_received piece
      have hparsed := handleRequest_logs env hheader hbuffer
      have hrecord : (acceptedRequest env (.data piece) c).toList.map
          (acceptedRecord defaultDocument) = if (fillHttpRequestHeader {} piece.data).1 = 0 then
            [acceptedRecord (sslRead (.data piece) c).td.defaultDocument
              (env.logTime ((sslRead (.data piece) c).log ++ [.parse]), piece.data)] else [] := by
        have hsame : (sslRead (.data piece) c).td.defaultDocument = defaultDocument ∧
            (sslRead (.data piece) c).log ++ [.parse] =
              c.log ++ [.read (some (ReadResult.data piece).value), .parse] := by
          simp only [sslRead, Conn.emit, htd, List.append_assoc]
          exact ⟨rfl, rfl⟩
        rw [hsame.1, hsame.2, acceptedRequest]
        split <;> rfl
      rw [serveRead_data, hrecord]
      exact hread.after hparsed
  | code value nonpos =>
      have hnothing : (acceptedRequest env (.code value nonpos) c).toList = [] := rfl
      rw [hnothing, List.map_nil]
      by_cases herror : (ReadResult.code value nonpos).value = otherError
      · simp only [serveRead, if_pos herror]
        have hlogged : Quiet (sslRead (.code value nonpos) c)
            ((sslRead (.code value nonpos) c).emit (.logPerror (bytes "server recv error"))) :=
          Calls.snoc rfl rfl
        exact Quiet.logs (hread.trans (hlogged.trans (freeThreadData_quiet _)))
      · by_cases hzero : (ReadResult.code value nonpos).value = 0
        · simp only [serveRead, if_neg herror, if_pos hzero]
          split
          · exact Quiet.logs
              (hread.trans ((closeConnection_quiet env _).trans (freeThreadData_quiet _)))
          · exact Quiet.logs (hread.trans (freeThreadData_quiet _))
        · rw [serveRead_of_ne env herror hzero]
          -- the empty buffer is parsed
          have hheader : (sslRead (.code value nonpos) c).td.httpHeader = {} := by
            simp only [sslRead, Conn.emit, htd]
            rfl
          have hbuffer : cstr ((sslRead (.code value nonpos) c).td.requestBuffer.cells ++
              (sslRead (.code value nonpos) c).td.responseBuffer.cells) = cstr [] := by
            simp only [sslRead, Conn.emit, htd]
            rfl
          have hparsed := handleRequest_logs env hheader hbuffer
          have hrefused : (fillHttpRequestHeader {} []).1 ≠ 0 := by decide
          rw [if_neg hrefused] at hparsed
          exact hread.after hparsed

/-- What a whole run logs. -/
theorem serveReads_logs (env : Env) (reads : List ReadResult)
    {defaultDocument rootFolder : Bytes} {c : Conn} (h : AtHead defaultDocument rootFolder c) :
    Logs ((acceptedRequests env reads c).map (acceptedRecord defaultDocument)) c
      (serveReads env reads c).conn := by
  induction reads generalizing c with
  | nil => exact Quiet.logs (Calls.of_log_eq rfl)
  | cons r reads ih =>
      have hpass := serveRead_logs env r h
      have hhead := serveRead_accounted env r h
      rw [serveReads, acceptedRequests, List.map_append]
      cases houtcome : serveRead env r c with
      | loopHead c' =>
          rw [houtcome] at hpass hhead
          exact hpass.trans (ih hhead)
      | _ =>
          rw [houtcome] at hpass
          rw [List.map_nil, List.append_nil]
          exact hpass

/-- The clock of an environment gives times of the day. -/
def KeepsTime (env : Env) : Prop := ∀ log, ∃ t : LogTime, env.logTime log = t.text

/-- A connection, from the results of its calls. -/
structure ConnectionRun where
  env : Env
  reads : List ReadResult
  defaultDocument : Bytes
  rootFolder : Bytes
  keepsTime : KeepsTime env

def ConnectionRun.log (run : ConnectionRun) : List Event :=
  (handleConnection run.env run.reads
    (ThreadData.fresh run.defaultDocument run.rootFolder)).conn.log

/-- The calls of a connection on the logger, in order. -/
def ConnectionRun.calls (run : ConnectionRun) : List LoggerCall := run.log.filterMap loggerCall

/-- The requests that a connection accepts from its reads, once its session stands. -/
def ConnectionRun.accepted (run : ConnectionRun) : List (Bytes × Bytes) :=
  if serverTlsSessionInit run.env.sslSetup run.env.sslHandshake = some 0 then
    acceptedRequests run.env run.reads
      { td := ThreadData.fresh run.defaultDocument run.rootFolder, log := [] }
  else []

/-- A connection appends a record for each request that it accepts, and no other. -/
theorem ConnectionRun.calls_records (run : ConnectionRun) :
    run.calls.filterMap LoggerCall.record =
      run.accepted.map (acceptedRecord run.defaultDocument) := by
  have hstart := fresh_atHead run.defaultDocument run.rootFolder
  have hlogs : Logs (run.accepted.map (acceptedRecord run.defaultDocument))
      { td := ThreadData.fresh run.defaultDocument run.rootFolder, log := [] }
      (handleConnection run.env run.reads
        (ThreadData.fresh run.defaultDocument run.rootFolder)).conn := by
    rw [ConnectionRun.accepted, handleConnection]
    cases hinit : serverTlsSessionInit run.env.sslSetup run.env.sslHandshake with
    | none =>
        rw [if_neg (Option.some_ne_none 0).symm]
        exact Quiet.logs (Calls.of_log_eq rfl)
    | some ret =>
        rcases serverTlsSessionInit_result hinit with rfl | rfl
        · have hserved := serveReads_logs run.env run.reads hstart
          rw [if_pos rfl]
          dsimp only
          rw [if_neg (show ¬ (0 : Int) = networkError by decide)]
          cases houtcome : serveReads run.env run.reads
              { td := ThreadData.fresh run.defaultDocument run.rootFolder, log := [] } with
          | loopHead c =>
              rw [houtcome] at hserved
              exact hserved.quiet (Calls.snoc rfl rfl)
          | _ =>
              rw [houtcome] at hserved
              exact hserved
        · rw [if_neg (by decide)]
          dsimp only
          rw [if_pos rfl]
          have hlogged : Quiet { td := ThreadData.fresh run.defaultDocument run.rootFolder, log := [] }
              (Conn.emit
                { td := ThreadData.fresh run.defaultDocument run.rootFolder, log := [] }
                (.logPrintf (bytes "server session init error\n"))) := Calls.snoc rfl rfl
          exact Quiet.logs (hlogged.trans (freeThreadData_quiet _))
  obtain ⟨events, hlog, hrecords⟩ := hlogs
  rw [← hrecords, ConnectionRun.calls, ConnectionRun.log, hlog]
  rfl

def reportsError : Event → Bool
  | .logPerror _ => true
  | _ => false

theorem ConnectionRun.calls_plain {run : ConnectionRun}
    (h : ∀ e ∈ run.log, reportsError e = false) :
    ∀ call ∈ run.calls, call.Plain := by
  intro call hcall
  obtain ⟨e, he, heq⟩ := List.mem_filterMap.mp hcall
  cases e with
  | logMessage filename message =>
      cases heq
      rfl
  | logPerror message => cases h _ he
  | logPrintf message =>
      cases heq
      trivial
  | _ => cases heq

def requestRecord (r : LoggedRequest) : LogRecord where
  filename := loggerFilename
  message := r.line ++ [10]

/-- What the log keeps of an accepted request is that request, logged then and there. -/
structure Entered (defaultDocument : Bytes) (r : LoggedRequest) (request : Bytes × Bytes) :
    Prop where
  time : r.time.text = request.1
  buffer : r.buffer = request.2
  document : r.defaultDocument = defaultDocument

theorem Entered.record_eq {defaultDocument : Bytes} {r : LoggedRequest}
    {request : Bytes × Bytes} (h : Entered defaultDocument r request) :
    acceptedRecord defaultDocument request = requestRecord r := by
  obtain ⟨time, buffer⟩ := request
  obtain ⟨rfl, rfl, rfl⟩ := h
  rfl

/-- What is accepted in a pass is accepted by the parser, at a time of the day. -/
theorem exists_entered {env : Env} (htime : KeepsTime env) (defaultDocument : Bytes)
    (r : ReadResult) (c : Conn) :
    ∃ requests : List LoggedRequest,
      List.Forall₂ (Entered defaultDocument) requests (acceptedRequest env r c).toList := by
  cases r with
  | code value nonpos => exact ⟨[], .nil⟩
  | data piece =>
      rw [acceptedRequest]
      by_cases haccepted : (fillHttpRequestHeader {} piece.data).1 = 0
      · obtain ⟨t, ht⟩ := htime (c.log ++ [.read (some (ReadResult.data piece).value), .parse])
        rw [if_pos haccepted]
        exact ⟨[⟨t, piece.data, defaultDocument, haccepted⟩], .cons ⟨ht.symm, rfl, rfl⟩ .nil⟩
      · rw [if_neg haccepted]
        exact ⟨[], .nil⟩

theorem exists_entered_all {env : Env} (htime : KeepsTime env) (defaultDocument : Bytes)
    (reads : List ReadResult) (c : Conn) :
    ∃ requests : List LoggedRequest,
      List.Forall₂ (Entered defaultDocument) requests (acceptedRequests env reads c) := by
  induction reads generalizing c with
  | nil => exact ⟨[], .nil⟩
  | cons r reads ih =>
      obtain ⟨first, hfirst⟩ := exists_entered htime defaultDocument r c
      rw [acceptedRequests]
      cases serveRead env r c with
      | loopHead c' =>
          obtain ⟨rest, hrest⟩ := ih c'
          exact ⟨first ++ rest, List.rel_append hfirst hrest⟩
      | _ =>
          refine ⟨first, ?_⟩
          rwa [List.append_nil]

theorem ConnectionRun.exists_requests (run : ConnectionRun) :
    ∃ requests : List LoggedRequest,
      List.Forall₂ (Entered run.defaultDocument) requests run.accepted := by
  rw [ConnectionRun.accepted]
  split
  · exact exists_entered_all run.keepsTime run.defaultDocument run.reads _
  · exact ⟨[], .nil⟩

theorem records_eq {defaultDocument : Bytes} {requests : List LoggedRequest}
    {accepted : List (Bytes × Bytes)}
    (h : List.Forall₂ (Entered defaultDocument) requests accepted) :
    accepted.map (acceptedRecord defaultDocument) = requests.map requestRecord := by
  induction h with
  | nil => rfl
  | cons hfirst hrest ih => rw [List.map_cons, List.map_cons, hfirst.record_eq, ih]

/-- The entries of a log: its lines behind the header. -/
def readLog (content : Bytes) : List (Bytes × Bytes × Bytes) :=
  ((content.splitOn 10).dropLast.drop 3).map readLine

/-- The log of these requests. -/
def serverLog (start : LocalTime) (requests : List LoggedRequest) : Bytes :=
  loggerHeader start ++ logText requests

/-- A log file before a start of the server: there is none yet, or it is the log of
earlier requests. -/
def LogBefore (now start : LocalTime) (earlier : List LoggedRequest) (file : Option Bytes) :
    Prop :=
  (file = none ∧ start = now ∧ earlier = []) ∨ file = some (serverLog start earlier)

theorem LogBefore.logInit_eq {now start : LocalTime} {earlier : List LoggedRequest}
    {file : Option Bytes} (h : LogBefore now start earlier file) :
    logInit now file = serverLog start earlier := by
  obtain ⟨rfl, rfl, rfl⟩ | rfl := h
  · simp [logInit, logMessage, appendedText, serverLog, logText]
  · rfl

theorem readLog_serverLog (start : LocalTime) {requests : List LoggedRequest}
    (hplain : ∀ r ∈ requests, 10 ∉ r.method ∧ 10 ∉ r.path) :
    readLog (serverLog start requests) =
      requests.map fun r => (r.time.text, r.method, r.path) := by
  have hlines : (serverLog start requests).splitOn 10 =
      headerLines start ++ requests.map LoggedRequest.line ++ [[]] := by
    rw [serverLog, loggerHeader_eq, logText_eq, ← List.flatMap_append, splitOn_lines_iff]
    intro line hline
    rcases List.mem_append.mp hline with hheader | hrequest
    · have hliterals : (10 : UInt8) ∉ bytes "#Version: 1.0" ∧
          (10 : UInt8) ∉ bytes "#Fields: time cs-method cs-uri" := by decide
      simp only [headerLines, List.mem_cons, List.not_mem_nil, or_false] at hheader
      rcases hheader with rfl | rfl | rfl
      · exact hliterals.1
      · exact start.dateLine_plain
      · exact hliterals.2
    · obtain ⟨r, hr, rfl⟩ := List.mem_map.mp hrequest
      rw [r.lineFeed_in_line_iff, not_or]
      exact hplain r hr
  have hdrop : (headerLines start ++ requests.map LoggedRequest.line).drop 3 =
      requests.map LoggedRequest.line := rfl
  rw [readLog, hlines, List.dropLast_concat, hdrop, List.map_map]
  apply List.map_congr_left
  intro r _
  exact r.readLine_line

theorem textOf_requests (requests : List LoggedRequest) :
    textOf loggerFilename (requests.map requestRecord) = logText requests := by
  rw [textOf, logText_eq, List.flatMap_map, List.flatMap_map]
  apply List.flatMap_congr
  intro r _
  exact if_pos rfl

section Threads

variable {T : Type} [DecidableEq T]

/-- The log after the connections have run: a line for each request that a connection has
accepted from its reads, whole, in an order that keeps the order of each connection. -/
structure LogsConnections (run : T → ConnectionRun) (start : LocalTime)
    (earlier : List LoggedRequest) (content : Bytes) (requests : T → List LoggedRequest)
    (order : List (T × LoggedRequest)) : Prop where
  accepted : ∀ t, List.Forall₂ (Entered (run t).defaultDocument) (requests t) (run t).accepted
  inOrder : ∀ t, onlyOf t order = requests t
  wholeLines : content = serverLog start (earlier ++ order.map Prod.snd)
  entries : (∀ r ∈ earlier ++ order.map Prod.snd, 10 ∉ r.method ∧ 10 ∉ r.path) →
    readLog content =
      (earlier ++ order.map Prod.snd).map fun r => (r.time.text, r.method, r.path)

/-- Connections that report no error can run in any number of threads, in any
order of steps: the log is read back as the requests they have accepted. -/
theorem logsConnections_of_traced {run : T → ConnectionRun}
    (hquiet : ∀ t, ∀ e ∈ (run t).log, reportsError e = false) {now start : LocalTime}
    {earlier : List LoggedRequest} {file : Option Bytes} (hbefore : LogBefore now start earlier file)
    {files : Bytes → Bytes} (hfile : files loggerFilename = logInit now file)
    {trace : List (T × AtomicSections.Event Mutex Action)} {s : State T Mutex Action}
    (h : Traced plainPrograms [] .idle trace s)
    (hcalls : ∀ t, List.Forall₂ PiecesOf (run t).calls (called t trace))
    (hdone : ∀ t, s.rest t = []) :
    ∃ requests order, LogsConnections run start earlier
      ((diskAfter files trace : Disk T).files loggerFilename) requests order := by
  obtain ⟨sections, hbetween⟩ := h.exists_between fun _ => plainPrograms_orderly
  obtain ⟨pending, torn, hlogged⟩ := logged_of_between files
    (fun t => ConnectionRun.calls_plain (hquiet t)) h hcalls hbetween
  choose requests hrequests using fun t => (run t).exists_requests
  have hrecords : ∀ t, onlyOf t (sections.map fun entry => (entry.1, sectionRecord entry.2)) =
      (requests t).map requestRecord := by
    intro t
    rw [← records_eq (hrequests t), ← ConnectionRun.calls_records, hlogged.records,
      hlogged.settled t (hdone t), List.append_nil]
  obtain ⟨order, hsections, horder⟩ := exists_onlyOf_of_map hrecords
  rw [hsections] at hlogged
  have hwhole : torn loggerFilename = [] := by
    by_contra htorn
    obtain ⟨t, r, -, hmem, -⟩ := hlogged.torn_part loggerFilename htorn
    rw [hlogged.settled t (hdone t)] at hmem
    cases hmem
  have hsecond : (order.map fun entry => (entry.1, requestRecord entry.2)).map Prod.snd =
      (order.map Prod.snd).map requestRecord := by
    rw [List.map_map, List.map_map]
    rfl
  have hcontent : (diskAfter files trace : Disk T).files loggerFilename =
      serverLog start (earlier ++ order.map Prod.snd) := by
    rw [hlogged.contents, hwhole, List.append_nil, hfile, hbefore.logInit_eq, hsecond,
      textOf_requests]
    simp only [serverLog, logText, List.flatMap_append, List.append_assoc]
  refine ⟨requests, order, hrequests, horder, hcontent, fun hplain => ?_⟩
  rw [hcontent]
  exact readLog_serverLog start hplain

end Threads

/-- A request for a file that is not there. -/
def missingRequest : Piece where
  data := bytes "GET /a HTTP/1.1\r\n\r\n"
  nonempty := by decide
  fits := by decide

theorem steady_keepsTime (files : Bytes → Option FileImage) : KeepsTime (Env.steady files) := by
  intro log
  have hmidnight : bytes "00:00:00" = LogTime.text ⟨0, 0, 0⟩ := by decide
  exact ⟨_, hmidnight⟩

def missingRun : ConnectionRun where
  env := Env.steady fun _ => none
  reads := [.data missingRequest]
  defaultDocument := bytes "index.html"
  rootFolder := []
  keepsTime := steady_keepsTime _

def firstDay : LocalTime where
  mday := 1
  mon := 0
  year := 2024
  time := ⟨0, 0, 0⟩
  mday_le := by decide
  mon_lt := by decide
  year_le := by decide
  hour_lt := by decide
  min_lt := by decide
  sec_le := by decide

deriving instance DecidableEq for LoggerCall

/-- The call of `missingRun` on the logger. -/
def missingCall : LoggerCall :=
  .logMessage (bytes "log.txt") (bytes "00:00:00 GET /a\n") true

theorem missingRun_calls : missingRun.calls = [missingCall] := by decide +kernel

def missingProgram : Program := inPieces [bytes "00:00:00 GET /a\n"] missingCall.program

/-- Two connections log their requests: the second one calls the logger while the first one
has the file. -/
def missingTrace : List (Bool × AtomicSections.Event Mutex Action) :=
  [(true, .call missingProgram), (false, .call missingProgram)] ++
    missingProgram.map (fun instr => (true, .exec instr)) ++
      missingProgram.map fun instr => (false, .exec instr)

theorem logsConnections_of_traced_missing :
    ∃ requests order, LogsConnections (fun _ : Bool => missingRun) firstDay []
      ((diskAfter (fun _ => logInit firstDay none) missingTrace : Disk Bool).files loggerFilename)
      requests order := by
  have hpieces : PiecesOf missingCall missingProgram := by
    refine ⟨_, ?_, rfl⟩
    intro r hr
    cases hr
    decide
  have hprogram : missingProgram ∈ plainPrograms := ⟨missingCall, rfl, hpieces⟩
  have hstart : Traced plainPrograms [] (.idle : State Bool Mutex Action) [] .idle := .start
  have hcalled := (hstart.step (t := true) (.call hprogram rfl)).step (t := false)
    (.call hprogram rfl)
  have hfirst := ((((hcalled.step (t := true) (.lock rfl rfl)).step (t := true) (.act rfl)).step
    (t := true) (.act rfl)).step (t := true) (.act rfl)).step (t := true) (.unlock rfl)
  have htrace : Traced plainPrograms [] .idle missingTrace _ :=
    ((((hfirst.step (t := false) (.lock rfl rfl)).step (t := false) (.act rfl)).step
      (t := false) (.act rfl)).step (t := false) (.act rfl)).step (t := false) (.unlock rfl)
  have hquiet : ∀ e ∈ missingRun.log, reportsError e = false := by
    have hall : (missingRun.log.all fun e => !reportsError e) = true := by decide +kernel
    intro e he
    simpa using List.all_eq_true.mp hall e he
  refine logsConnections_of_traced (fun _ => hquiet) (.inl ⟨rfl, rfl, rfl⟩) rfl htrace ?_ ?_
  · intro t
    rw [missingRun_calls]
    cases t with
    | true => exact .cons hpieces .nil
    | false => exact .cons hpieces .nil
  · intro t
    cases t with
    | true => rfl
    | false => rfl

end HttpsServ.ServerLog
