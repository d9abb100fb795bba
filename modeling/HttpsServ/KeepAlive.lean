import HttpsServ.ResponseFrame
import HttpsServ.ResponseBytes

/-!
# Requests on one connection

`FlushThreadData` leaves nothing of a request behind but the flag that keeps
the connection open, and the next request sets that flag anew. So each read is
answered as it would be on a connection of its own.
-/

namespace HttpsServ.KeepAlive

open ByteString Utility HttpParser TlsAdapter Http StaticTransfer Transport ResponseFrame
  ResponseBytes

/-- What the peer has received after each read, up to the next one. -/
def answers (log : List Event) : List Bytes := ((log.splitOnP isRead).tail).map acceptedBytes

theorem answers_read (log : List Event) (value : Int) {events : List Event}
    (hquiet : ∀ e ∈ events, isRead e = false) :
    answers (log ++ .read (some value) :: events) = answers log ++ [acceptedBytes events] := by
  rw [answers, List.splitOnP_append_cons _ _ rfl, List.splitOnP_eq_singleton hquiet,
    List.tail_append_of_ne_nil (List.splitOnP_ne_nil _ _), List.map_append]
  rfl

/-- An event behind a list is in its last segment. -/
theorem splitOnP_snoc (log : List Event) {e : Event} (he : isRead e = false) :
    ∃ front last, log.splitOnP isRead = front ++ [last] ∧
      (log ++ [e]).splitOnP isRead = front ++ [last ++ [e]] := by
  induction log with
  | nil =>
      refine ⟨[], [], rfl, ?_⟩
      apply List.splitOnP_eq_singleton
      simpa using he
  | cons a log ih =>
      obtain ⟨front, last, hlog, hsnoc⟩ := ih
      rw [List.cons_append, List.splitOnP_cons_eq_if_modifyHead,
        List.splitOnP_cons_eq_if_modifyHead, hlog, hsnoc]
      cases ha : isRead a with
      | true => exact ⟨[] :: front, last, rfl, rfl⟩
      | false =>
          cases front with
          | nil => exact ⟨[], a :: last, rfl, rfl⟩
          | cons segment front => exact ⟨(a :: segment) :: front, last, rfl, rfl⟩

/-- A call that is no read and writes nothing adds nothing to the answers. -/
theorem answers_snoc (log : List Event) {e : Event} (he : isRead e = false)
    (hsilent : acceptedOf e = none) : answers (log ++ [e]) = answers log := by
  obtain ⟨front, last, hlog, hsnoc⟩ := splitOnP_snoc log he
  have hlast : acceptedBytes (last ++ [e]) = acceptedBytes last := by
    simp [acceptedBytes, acceptedPieces, hsilent]
  rw [answers, answers, hlog, hsnoc]
  cases front with
  | nil => rfl
  | cons segment front => simp [hlast]

/-- The writes are taken whole and the files do not change. -/
structure Steadfast (env : Env) (files : Bytes → Option FileImage) : Prop where
  writes : FullWrites env
  files : ∀ log, env.fopen log = files

/-- The log went on without a read, and the transport took these bytes. -/
def Answered (log : List Event) (answer : Bytes) (log' : List Event) : Prop :=
  ∃ events, log' = log ++ events ∧ (∀ e ∈ events, isRead e = false) ∧
    acceptedBytes events = answer

theorem Answered.refl (log : List Event) : Answered log [] log := by
  refine ⟨[], ?_, ?_, rfl⟩
  · rw [List.append_nil]
  · intro e he
    cases he

theorem Answered.trans {log log' log'' : List Event} {first second : Bytes}
    (h : Answered log first log') (h' : Answered log' second log'') :
    Answered log (first ++ second) log'' := by
  obtain ⟨events, rfl, hquiet, rfl⟩ := h
  obtain ⟨events', rfl, hquiet', rfl⟩ := h'
  refine ⟨events ++ events', ?_, ?_, ?_⟩
  · rw [List.append_assoc]
  · intro e he
    rcases List.mem_append.mp he with he | he
    · exact hquiet e he
    · exact hquiet' e he
  · rw [acceptedBytes, acceptedPieces, List.filterMap_append, List.flatten_append]
    rfl

theorem Answered.emit (log : List Event) {e : Event} (he : isRead e = false) :
    Answered log (acceptedBytes [e]) (log ++ [e]) := by
  refine ⟨[e], rfl, ?_, rfl⟩
  intro e' he'
  rw [List.mem_singleton.mp he']
  exact he

/-- An event that is no read and writes nothing. -/
theorem Answered.silent {log log' : List Event} {answer : Bytes} (h : Answered log answer log')
    {e : Event} (he : isRead e = false) (hsilent : acceptedOf e = none) :
    Answered log answer (log' ++ [e]) := by
  have hboth := h.trans (Answered.emit log' he)
  have hnothing : acceptedBytes [e] = [] := by
    simp [acceptedBytes, acceptedPieces, hsilent]
  rwa [hnothing, List.append_nil] at hboth

theorem freeThreadData_answered {log : List Event} {answer : Bytes} {c : Conn}
    (h : Answered log answer c.log) : Answered log answer (freeThreadData c).log := by
  have hclosed : Answered log answer
      (if c.td.staticFile.isSome then c.emit .fclose else c).log := by
    split
    · exact h.silent rfl rfl
    · exact h
  exact (((hclosed.silent rfl rfl).silent rfl rfl).silent rfl rfl).silent rfl rfl

/-- The data of a connection between two requests. -/
def idle (defaultDocument rootFolder : Bytes) (isKeepAlive : Bool) : ThreadData :=
  { ThreadData.fresh defaultDocument rootFolder with isKeepAlive := isKeepAlive }

def isLoopHead : Outcome → Bool
  | .loopHead _ => true
  | _ => false

/-- A pass that sends an answer, and leaves nothing behind if it goes on. -/
structure Serves (defaultDocument rootFolder : Bytes) (log : List Event) (answer : Bytes)
    (goesOn : Bool) (outcome : Outcome) : Prop where
  answered : Answered log answer outcome.conn.log
  ends : isLoopHead outcome = goesOn
  flushed : goesOn = true → outcome.conn.td = idle defaultDocument rootFolder true

theorem Serves.after {defaultDocument rootFolder : Bytes} {log log' : List Event}
    {answer : Bytes} {goesOn : Bool} {outcome : Outcome}
    (h : Serves defaultDocument rootFolder log' answer goesOn outcome)
    (hlog : Answered log [] log') :
    Serves defaultDocument rootFolder log answer goesOn outcome :=
  ⟨hlog.trans h.answered, h.ends, h.flushed⟩

theorem sslWrite_answered {env : Env} (henv : FullWrites env) (site : WriteSite)
    (buffer : Bytes) (c : Conn) : Answered c.log buffer (sslWrite env site buffer c).2.log := by
  have hwrite := Answered.emit c.log (e := .write site buffer (env.sslWrite c.log buffer)) rfl
  have htaken : acceptedBytes [.write site buffer (env.sslWrite c.log buffer)] = buffer := by
    simp [acceptedBytes, acceptedPieces, acceptedOf, henv _ _]
  rwa [htaken] at hwrite

/-- `HandleError` does not look at the flag of the last request. -/
theorem handleError_answered {env : Env} (henv : FullWrites env) (errorCode : Int)
    (problemName : Bytes) (td : ThreadData) :
    (∀ isKeepAlive log, handleError env errorCode problemName
        { td := { td with isKeepAlive := isKeepAlive }, log := log } = none) ∨
      ∃ answer, ∀ isKeepAlive log, ∃ c, handleError env errorCode problemName
        { td := { td with isKeepAlive := isKeepAlive }, log := log } = some c ∧
          Answered log answer c.log := by
  cases hdescription : findErrorDescription errorCode with
  | none =>
      left
      intro _ _
      simp only [handleError, hdescription]
  | some description =>
      cases hbuff : responseToBuff (errorHeader description) with
      | none =>
          left
          intro _ _
          simp only [handleError, hdescription, hbuff]
      | some headerBuff =>
          right
          refine ⟨td.requestBuffer.cells.take (cstr (td.responseBuffer.store 0
            (headerBuff ++ (problemName ++ bytes " " ++ description.errorStatus) ++
              [0])).cells).length, fun isKeepAlive log => ?_⟩
          simp only [handleError, hdescription, hbuff]
          exact ⟨_, rfl, sslWrite_answered henv _ _ _⟩

theorem failRequest_serves {env : Env} (henv : FullWrites env) (errorCode : Int)
    (problemName : Bytes) (td : ThreadData) :
    ∃ answer, ∀ defaultDocument rootFolder isKeepAlive log,
      Serves defaultDocument rootFolder log answer false (failRequest env errorCode problemName
        { td := { td with isKeepAlive := isKeepAlive }, log := log }) := by
  rcases handleError_answered henv errorCode problemName td with hnone | ⟨answer, hsome⟩
  · refine ⟨[], fun _ _ isKeepAlive log => ?_⟩
    rw [failRequest, hnone]
    exact ⟨Answered.refl log, rfl, fun h => absurd h (by decide)⟩
  · refine ⟨answer, fun _ _ isKeepAlive log => ?_⟩
    obtain ⟨c, hc, hanswered⟩ := hsome isKeepAlive log
    rw [failRequest, hc]
    exact ⟨freeThreadData_answered hanswered, rfl, fun h => absurd h (by decide)⟩

/-- What `HandleConnection` does with the result of `SendStaticData`. -/
def afterSend (sent : Int × Conn) : Outcome :=
  if sent.1 = -1 then
    .returned (freeThreadData (sent.2.emit (.logPerror (bytes "server send error"))))
  else if sent.2.td.isKeepAlive then .loopHead (flushThreadData sent.2)
  else .returned (freeThreadData sent.2)

theorem afterSend_serves (sent : Int × Conn) {log : List Event} {answer : Bytes}
    (hanswered : Answered log answer sent.2.log) :
    Serves sent.2.td.defaultDocument sent.2.td.rootFolder log answer
      (decide (sent.1 ≠ -1) && sent.2.td.isKeepAlive) (afterSend sent) := by
  rw [afterSend]
  split
  · rename_i herror
    refine ⟨freeThreadData_answered (hanswered.silent rfl rfl), ?_, ?_⟩
    · simp [herror, isLoopHead]
    · simp [herror]
  · rename_i hsuccess
    split
    · rename_i hopen
      refine ⟨hanswered.silent rfl rfl, ?_, fun _ => ?_⟩
      · simp [hsuccess, hopen, isLoopHead]
      · rw [idle, ← hopen]
        rfl
    · rename_i hclose
      refine ⟨freeThreadData_answered hanswered, ?_, ?_⟩
      · simp [hclose, isLoopHead]
      · simp [hclose]

/-- The flags of a response come from its request, or are what they were before. -/
theorem respond_eq (env : Env) (td : ThreadData) {body : Bytes}
    (hbody : td.httpHeader.body = some body) :
    ∃ keep chunked, ∀ isKeepAlive requestBuffer log,
      respond env
          { td := { td with isKeepAlive := isKeepAlive, requestBuffer := requestBuffer }
            log := log } =
        afterSend (sendStaticData env
          { td := { td with
              requestBuffer := requestBuffer
              isKeepAlive := keep
              isChunkEncoding := chunked }
            log := log }) := by
  refine ⟨(stristr body (bytes "Keep-Alive")).isSome,
    (stristr body (bytes "Accept-Encoding: ")).elim td.isChunkEncoding fun acceptEncoding =>
      (stristr acceptEncoding (bytes "chunked")).isSome, fun _ _ _ => ?_⟩
  simp only [respond, hbody]
  cases stristr body (bytes "Accept-Encoding: ") with
  | none => rfl
  | some acceptEncoding => rfl

/-- A response depends neither on the flag of the last request nor on what else
is in the request buffer. -/
theorem respond_serves {env : Env} (henv : FullWrites env) (td : ThreadData) :
    ∃ answer goesOn, ∀ isKeepAlive requestBuffer log,
      Serves td.defaultDocument td.rootFolder log answer goesOn (respond env
        { td := { td with isKeepAlive := isKeepAlive, requestBuffer := requestBuffer }
          log := log }) := by
  cases hbody : td.httpHeader.body with
  | none =>
      refine ⟨[], false, fun _ _ log => ?_⟩
      simp only [respond, hbody]
      exact ⟨Answered.refl log, rfl, fun h => absurd h (by decide)⟩
  | some body =>
      obtain ⟨keep, chunked, hrespond⟩ := respond_eq env td hbody
      -- the same request as the first thing on a connection
      let first : Conn :=
        { td := { td with isKeepAlive := keep, isChunkEncoding := chunked }
          log := [] }
      have htransfers := sendStaticData_transfers env first
      have htd := htransfers.td
      obtain ⟨events, hlog, hquiet⟩ := htransfers.noReads
      have hsent : ∀ requestBuffer log, sendStaticData env
          { td := { td with
              requestBuffer := requestBuffer
              isKeepAlive := keep
              isChunkEncoding := chunked }
            log := log } =
          ((sendStaticData env first).1,
            Conn.behind log requestBuffer (sendStaticData env first).2) := by
        intro requestBuffer log
        rw [← sendStaticData_behind henv]
        simp only [Conn.behind, first, List.append_nil]
      have hanswered : ∀ requestBuffer log, Answered log (acceptedBytes events)
          (Conn.behind log requestBuffer (sendStaticData env first).2).log := by
        intro requestBuffer log
        refine ⟨events, ?_, hquiet, rfl⟩
        rw [Conn.behind, hlog]
        rfl
      have hfolders : ∀ requestBuffer log,
          (Conn.behind log requestBuffer (sendStaticData env first).2).td.defaultDocument =
              td.defaultDocument ∧
            (Conn.behind log requestBuffer (sendStaticData env first).2).td.rootFolder =
              td.rootFolder := by
        intro requestBuffer log
        rw [Conn.behind, htd]
        exact ⟨rfl, rfl⟩
      refine ⟨acceptedBytes events, decide ((sendStaticData env first).1 ≠ -1) &&
        (sendStaticData env first).2.td.isKeepAlive, fun _ requestBuffer log => ?_⟩
      have hserves := afterSend_serves ((sendStaticData env first).1,
        Conn.behind log requestBuffer (sendStaticData env first).2) (hanswered requestBuffer log)
      rw [hrespond, hsent requestBuffer log]
      simp only [(hfolders requestBuffer log).1, (hfolders requestBuffer log).2] at hserves
      exact hserves

/-- The data of a connection that has found the file for a parsed request. -/
def opened (files : Bytes → Option FileImage) (td : ThreadData) (header : HttpRequestHeader) :
    ThreadData :=
  let header := setDefaultDocument header td.defaultDocument
  let path := header.path.getD []
  let file := openStaticFile files path td.rootFolder td.staticFile
  { td with
    httpHeader := { header with path := some (getFilePosition path).src }
    staticFile := file.2
    staticFileSize := file.1 }

theorem openRequestedFile_opened {env : Env} {files : Bytes → Option FileImage}
    (hfiles : ∀ log, env.fopen log = files) (td : ThreadData) (header : HttpRequestHeader)
    (log : List Event) :
    ∃ log', Answered log [] log' ∧ openRequestedFile env
        { td := { td with httpHeader := setDefaultDocument header td.defaultDocument }
          log := log } = { td := opened files td header, log := log' } := by
  simp only [openRequestedFile, hfiles]
  split
  · exact ⟨log, Answered.refl log, rfl⟩
  · exact ⟨_, (Answered.refl log).silent rfl rfl, rfl⟩

/-- A request that the parser accepts: its file is opened, and then it is
answered with an error or with the file. -/
theorem handleRequest_accepted {env : Env} {files : Bytes → Option FileImage}
    (hfiles : ∀ log, env.fopen log = files) {c : Conn} {code : Int}
    {header : HttpRequestHeader}
    (hparse : fillHttpRequestHeader c.td.httpHeader
      (c.td.requestBuffer.cells ++ c.td.responseBuffer.cells) = (code, header))
    (hcode : ¬ code < 0) :
    ∃ log, Answered c.log [] log ∧ handleRequest env c =
      if (opened files c.td header).staticFileSize < 0 then
        failRequest env (toInt32 (opened files c.td header).staticFileSize)
          ((opened files c.td header).httpHeader.path.getD [])
          { td := opened files c.td header, log := log }
      else respond env { td := opened files c.td header, log := log } := by
  have hlogged : Answered c.log [] (accepted env header c).log :=
    ((Answered.refl c.log).silent (e := .parse) rfl rfl).silent rfl rfl
  obtain ⟨log, hanswered, hopened⟩ :=
    openRequestedFile_opened hfiles c.td header (accepted env header c).log
  have hopens : openRequestedFile env (accepted env header c) =
      { td := opened files c.td header, log := log } := hopened
  refine ⟨log, hlogged.trans hanswered, ?_⟩
  rw [handleRequest_opens env hparse hcode, hopens]

theorem handleRequest_missing {env : Env} {files : Bytes → Option FileImage}
    (hfiles : ∀ log, env.fopen log = files) {c : Conn} {code : Int}
    {header : HttpRequestHeader}
    (hparse : fillHttpRequestHeader c.td.httpHeader
      (c.td.requestBuffer.cells ++ c.td.responseBuffer.cells) = (code, header))
    (hcode : ¬ code < 0) (hsize : (opened files c.td header).staticFileSize < 0) :
    ∃ log, Answered c.log [] log ∧ handleRequest env c =
      failRequest env (toInt32 (opened files c.td header).staticFileSize)
        ((opened files c.td header).httpHeader.path.getD [])
        { td := opened files c.td header, log := log } := by
  obtain ⟨log, hlog, hrequest⟩ := handleRequest_accepted hfiles hparse hcode
  rw [if_pos hsize] at hrequest
  exact ⟨log, hlog, hrequest⟩

theorem handleRequest_found {env : Env} {files : Bytes → Option FileImage}
    (hfiles : ∀ log, env.fopen log = files) {c : Conn} {code : Int}
    {header : HttpRequestHeader}
    (hparse : fillHttpRequestHeader c.td.httpHeader
      (c.td.requestBuffer.cells ++ c.td.responseBuffer.cells) = (code, header))
    (hcode : ¬ code < 0) (hsize : ¬ (opened files c.td header).staticFileSize < 0) :
    ∃ log, Answered c.log [] log ∧
      handleRequest env c = respond env { td := opened files c.td header, log := log } := by
  obtain ⟨log, hlog, hrequest⟩ := handleRequest_accepted hfiles hparse hcode
  rw [if_neg hsize] at hrequest
  exact ⟨log, hlog, hrequest⟩

theorem handleRequest_serves {env : Env} {files : Bytes → Option FileImage}
    (henv : Steadfast env files) (td : ThreadData) :
    ∃ answer goesOn, ∀ isKeepAlive log,
      Serves td.defaultDocument td.rootFolder log answer goesOn (handleRequest env
        { td := { td with isKeepAlive := isKeepAlive }, log := log }) := by
  obtain ⟨code, header, hparse⟩ : ∃ code header, fillHttpRequestHeader td.httpHeader
      (td.requestBuffer.cells ++ td.responseBuffer.cells) = (code, header) := ⟨_, _, rfl⟩
  by_cases hcode : code < 0
  · obtain ⟨answer, hfail⟩ := failRequest_serves henv.writes code (bytes "Your request")
      { td with httpHeader := header }
    refine ⟨answer, false, fun isKeepAlive log => ?_⟩
    rw [handleRequest_refused env
      (c := { td := { td with isKeepAlive := isKeepAlive }, log := log }) hparse hcode]
    exact (hfail _ _ isKeepAlive (log ++ [.parse])).after ((Answered.refl log).silent rfl rfl)
  · by_cases hsize : (opened files td header).staticFileSize < 0
    · obtain ⟨answer, hfail⟩ := failRequest_serves henv.writes
        (toInt32 (opened files td header).staticFileSize)
        ((opened files td header).httpHeader.path.getD []) (opened files td header)
      refine ⟨answer, false, fun isKeepAlive log => ?_⟩
      obtain ⟨log', hlog, hrequest⟩ := handleRequest_missing henv.files
        (c := { td := { td with isKeepAlive := isKeepAlive }, log := log }) hparse hcode hsize
      rw [hrequest]
      exact (hfail _ _ isKeepAlive log').after hlog
    · obtain ⟨answer, goesOn, hrespond⟩ := respond_serves henv.writes (opened files td header)
      refine ⟨answer, goesOn, fun isKeepAlive log => ?_⟩
      obtain ⟨log', hlog, hrequest⟩ := handleRequest_found henv.files
        (c := { td := { td with isKeepAlive := isKeepAlive }, log := log }) hparse hcode hsize
      rw [hrequest]
      exact (hrespond isKeepAlive _ log').after hlog

/-- The data of a connection whose first read has returned this piece. -/
def requested (defaultDocument rootFolder : Bytes) (piece : Piece) : ThreadData :=
  { ThreadData.fresh defaultDocument rootFolder with
    requestBuffer := Buffer.zero.store 0 piece.data }

theorem serveRead_piece (env : Env) (defaultDocument rootFolder : Bytes) (piece : Piece)
    (isKeepAlive : Bool) (log : List Event) :
    serveRead env (.data piece) { td := idle defaultDocument rootFolder isKeepAlive, log := log } =
      handleRequest env
        { td := { requested defaultDocument rootFolder piece with isKeepAlive := isKeepAlive }
          log := log ++ [.read (some piece.data.length)] } := by
  rw [serveRead_data]
  rfl

/-- The connection with these pieces as its reads, one request a piece. -/
def connection (env : Env) (defaultDocument rootFolder : Bytes) (pieces : List Piece) :
    Outcome :=
  handleConnection env (pieces.map .data) (ThreadData.fresh defaultDocument rootFolder)

/-- The answers to the pieces one by one, up to the first that ends its connection. -/
def readByRead (alone : Piece → Outcome) : List Piece → List Bytes
  | [] => []
  | piece :: pieces =>
      answers (alone piece).conn.log ++
        if isLoopHead (alone piece) then readByRead alone pieces else []

theorem answers_quiet {log : List Event} (hquiet : ∀ e ∈ log, isRead e = false) :
    answers log = [] := by
  rw [answers, List.splitOnP_eq_singleton hquiet]
  rfl

theorem Answered.answers_eq {log log' : List Event} {value : Int} {answer : Bytes}
    (h : Answered (log ++ [.read (some value)]) answer log') :
    answers log' = answers log ++ [answer] := by
  obtain ⟨events, rfl, hquiet, rfl⟩ := h
  rw [List.append_assoc]
  exact answers_read log value hquiet

/-- Two outcomes with the same answers, the same end and the same data. -/
structure Alike (outcome outcome' : Outcome) : Prop where
  answers : answers outcome.conn.log = answers outcome'.conn.log
  ends : isLoopHead outcome = isLoopHead outcome'
  td : outcome.conn.td = outcome'.conn.td

/-- The loop is entered on an idle connection, or nothing is read at all. -/
theorem connection_cases (env : Env) (defaultDocument rootFolder : Bytes) :
    (∀ pieces, answers (connection env defaultDocument rootFolder pieces).conn.log = [] ∧
        isLoopHead (connection env defaultDocument rootFolder pieces) = false) ∨
      ∀ pieces, Alike (connection env defaultDocument rootFolder pieces)
        (serveReads env (pieces.map .data)
          { td := idle defaultDocument rootFolder false, log := [] }) := by
  cases hinit : serverTlsSessionInit env.sslSetup env.sslHandshake with
  | none =>
      left
      intro pieces
      simp only [connection, handleConnection, hinit]
      exact ⟨rfl, rfl⟩
  | some ret =>
      by_cases hret : ret = networkError
      · left
        intro pieces
        simp only [connection, handleConnection, hinit, hret, if_true]
        obtain ⟨events, hlog, hquiet, -⟩ := freeThreadData_answered
          (c := { td := ThreadData.fresh defaultDocument rootFolder, log := _ })
          ((Answered.refl []).silent (e := .logPrintf (bytes "server session init error\n"))
            rfl rfl)
        exact ⟨(congrArg answers hlog).trans (answers_quiet hquiet), rfl⟩
      · right
        intro pieces
        have hidle : ThreadData.fresh defaultDocument rootFolder =
            idle defaultDocument rootFolder false := rfl
        simp only [connection, handleConnection, hinit, if_neg hret, hidle]
        cases serveReads env (pieces.map .data)
            { td := idle defaultDocument rootFolder false, log := [] } with
        | loopHead c => exact ⟨answers_snoc _ rfl rfl, rfl, rfl⟩
        | handshake c => exact ⟨rfl, rfl, rfl⟩
        | returned c => exact ⟨rfl, rfl, rfl⟩
        | crashed c => exact ⟨rfl, rfl, rfl⟩

/-- What each piece gets on an idle connection: its answer, and whether the
connection goes on. -/
structure Passes (env : Env) (defaultDocument rootFolder : Bytes) (pass : Piece → Bytes × Bool) :
    Prop where
  serves : ∀ piece isKeepAlive log, Serves defaultDocument rootFolder
    (log ++ [.read (some piece.data.length)]) (pass piece).1 (pass piece).2
    (serveRead env (.data piece)
      { td := idle defaultDocument rootFolder isKeepAlive, log := log })

theorem exists_passes {env : Env} {files : Bytes → Option FileImage}
    (henv : Steadfast env files) (defaultDocument rootFolder : Bytes) :
    ∃ pass, Passes env defaultDocument rootFolder pass := by
  have hserves := fun piece =>
    handleRequest_serves henv (requested defaultDocument rootFolder piece)
  choose answer goesOn hserves using hserves
  refine ⟨fun piece => (answer piece, goesOn piece), ⟨fun piece isKeepAlive log => ?_⟩⟩
  rw [serveRead_piece]
  exact hserves piece isKeepAlive _

theorem serveReads_of_ends {env : Env} {r : ReadResult} {c : Conn}
    (h : isLoopHead (serveRead env r c) = false) (reads : List ReadResult) :
    serveReads env (r :: reads) c = serveRead env r c := by
  rw [serveReads]
  cases hpass : serveRead env r c with
  | loopHead c =>
      rw [hpass] at h
      cases h
  | handshake c => rfl
  | returned c => rfl
  | crashed c => rfl

section Run

variable {env : Env} {defaultDocument rootFolder : Bytes} {pass : Piece → Bytes × Bool}

/-- The first piece of a run is answered, and either ends it or is forgotten. -/
theorem Passes.step (h : Passes env defaultDocument rootFolder pass) (piece : Piece)
    (pieces : List Piece) (isKeepAlive : Bool) (log : List Event) :
    ((pass piece).2 = true ∧ ∃ log', answers log' = answers log ++ [(pass piece).1] ∧
        serveReads env ((piece :: pieces).map .data)
            { td := idle defaultDocument rootFolder isKeepAlive, log := log } =
          serveReads env (pieces.map .data)
            { td := idle defaultDocument rootFolder true, log := log' }) ∨
      ((pass piece).2 = false ∧ ∃ outcome,
        answers outcome.conn.log = answers log ++ [(pass piece).1] ∧
        isLoopHead outcome = false ∧
        serveReads env ((piece :: pieces).map .data)
          { td := idle defaultDocument rootFolder isKeepAlive, log := log } = outcome) := by
  have hserves := h.serves piece isKeepAlive log
  have hanswers := hserves.answered.answers_eq
  have hends := hserves.ends
  cases hgoesOn : (pass piece).2 with
  | false =>
      rw [hgoesOn] at hends
      exact .inr ⟨rfl, _, hanswers, hends, serveReads_of_ends hends _⟩
  | true =>
      left
      have hflushed := hserves.flushed hgoesOn
      rw [List.map_cons, serveReads]
      cases hpass : serveRead env (.data piece)
          { td := idle defaultDocument rootFolder isKeepAlive, log := log } with
      | loopHead c =>
          rw [hpass] at hanswers hflushed
          exact ⟨rfl, c.log, hanswers, by rw [← hflushed]; rfl⟩
      | _ =>
          rw [hpass, hgoesOn] at hends
          cases hends

/-- Along a run the answers are those of the pieces alone. -/
theorem Passes.run_answers (h : Passes env defaultDocument rootFolder pass)
    {alone : Piece → Outcome}
    (halone : ∀ piece, answers (alone piece).conn.log = [(pass piece).1] ∧
      isLoopHead (alone piece) = (pass piece).2)
    (pieces : List Piece) (isKeepAlive : Bool) (log : List Event) :
    answers (serveReads env (pieces.map .data)
        { td := idle defaultDocument rootFolder isKeepAlive, log := log }).conn.log =
      answers log ++ readByRead alone pieces := by
  induction pieces generalizing isKeepAlive log with
  | nil => rw [readByRead, List.append_nil, List.map_nil, serveReads, Outcome.conn]
  | cons piece pieces ih =>
      obtain ⟨hanswer, hends⟩ := halone piece
      rw [readByRead, hanswer, hends]
      rcases h.step piece pieces isKeepAlive log with
        ⟨hgoesOn, log', hlog', hrun⟩ | ⟨hgoesOn, outcome, hlog', -, hrun⟩
      · rw [hrun, ih, hlog', hgoesOn, if_pos rfl, List.append_assoc]
      · rw [hrun, hlog', hgoesOn, if_neg (by decide), List.append_nil]

/-- Between two requests nothing is left of the first. -/
theorem Passes.run_flushed (h : Passes env defaultDocument rootFolder pass)
    (pieces : List Piece) (isKeepAlive : Bool) (log : List Event)
    (hhead : isLoopHead (serveReads env (pieces.map .data)
      { td := idle defaultDocument rootFolder isKeepAlive, log := log }) = true) :
    ∃ keep, (serveReads env (pieces.map .data)
        { td := idle defaultDocument rootFolder isKeepAlive, log := log }).conn.td =
      idle defaultDocument rootFolder keep := by
  induction pieces generalizing isKeepAlive log with
  | nil => exact ⟨isKeepAlive, rfl⟩
  | cons piece pieces ih =>
      rcases h.step piece pieces isKeepAlive log with
        ⟨-, log', -, hrun⟩ | ⟨-, outcome, -, hends, hrun⟩
      · rw [hrun] at hhead ⊢
        exact ih true log' hhead
      · rw [hrun, hends] at hhead
        cases hhead

end Run

theorem serveReads_singleton (env : Env) (r : ReadResult) (c : Conn) :
    serveReads env [r] c = serveRead env r c := by
  rw [serveReads]
  cases serveRead env r c <;> rfl

/-- What a piece gets on a connection of its own. -/
theorem Serves.alone {env : Env} {defaultDocument rootFolder : Bytes} {piece : Piece}
    {answer : Bytes} {goesOn : Bool}
    (h : Serves defaultDocument rootFolder ([] ++ [.read (some piece.data.length)]) answer goesOn
      (serveRead env (.data piece)
        { td := idle defaultDocument rootFolder false, log := [] }))
    (halike : Alike (connection env defaultDocument rootFolder [piece])
      (serveReads env ([piece].map .data)
        { td := idle defaultDocument rootFolder false, log := [] })) :
    answers (connection env defaultDocument rootFolder [piece]).conn.log = [answer] ∧
      isLoopHead (connection env defaultDocument rootFolder [piece]) = goesOn := by
  obtain ⟨hanswers, hends, -⟩ := halike
  rw [List.map_cons, List.map_nil, serveReads_singleton] at hanswers hends
  exact ⟨hanswers.trans h.answered.answers_eq, hends.trans h.ends⟩

/-- A connection answers read by read. -/
theorem answers_connection {env : Env} {files : Bytes → Option FileImage}
    (henv : Steadfast env files) (defaultDocument rootFolder : Bytes) (pieces : List Piece) :
    answers (connection env defaultDocument rootFolder pieces).conn.log =
      readByRead (fun piece => connection env defaultDocument rootFolder [piece]) pieces := by
  obtain ⟨pass, hpass⟩ := exists_passes henv defaultDocument rootFolder
  rcases connection_cases env defaultDocument rootFolder with hnothing | halike
  · rw [(hnothing pieces).1]
    cases pieces with
    | nil => rfl
    | cons piece pieces =>
        obtain ⟨hanswers, hends⟩ := hnothing [piece]
        rw [readByRead, hanswers, hends]
        rfl
  · rw [(halike pieces).answers]
    exact hpass.run_answers (fun piece => (hpass.serves piece false []).alone (halike [piece]))
      pieces false []

/-- An answer of a run belongs to the piece at its place. -/
theorem readByRead_getElem? {alone : Piece → Outcome}
    (halone : ∀ piece, (answers (alone piece).conn.log = [] ∧ isLoopHead (alone piece) = false) ∨
      ∃ answer, answers (alone piece).conn.log = [answer])
    (pieces : List Piece) (i : Nat) {answer : Bytes}
    (h : (readByRead alone pieces)[i]? = some answer) :
    ∃ piece, pieces[i]? = some piece ∧ answers (alone piece).conn.log = [answer] := by
  induction pieces generalizing i with
  | nil => cases h
  | cons piece pieces ih =>
      rw [readByRead] at h
      rcases halone piece with ⟨hnone, hends⟩ | ⟨first, hfirst⟩
      · rw [hnone, hends] at h
        cases h
      · rw [hfirst] at h
        cases i with
        | zero => exact ⟨piece, rfl, hfirst.trans (congrArg (fun a => [a]) (Option.some.inj h))⟩
        | succ i =>
            have hrest : (if isLoopHead (alone piece) then readByRead alone pieces
                else [])[i]? = some answer := h
            split at hrest
            · exact ih i hrest
            · cases hrest

/-- Nothing of an earlier request is left. -/
structure Clean (td : ThreadData) : Prop where
  requestBuffer : td.requestBuffer = .zero
  responseBuffer : td.responseBuffer = .zero
  staticFile : td.staticFile = none
  method : td.httpHeader.method = none
  path : td.httpHeader.path = none
  version : td.httpHeader.version = none
  body : td.httpHeader.body = none
  staticFileSize : td.staticFileSize = 0
  isChunkEncoding : td.isChunkEncoding = false

theorem clean_idle (defaultDocument rootFolder : Bytes) (isKeepAlive : Bool) :
    Clean (idle defaultDocument rootFolder isKeepAlive) :=
  ⟨rfl, rfl, rfl, rfl, rfl, rfl, rfl, rfl, rfl⟩

/-- Requests on one connection do not influence each other: the answer to each
is the one it gets as the first on a fresh connection, and at every loop head
nothing is left of the requests before it. -/
theorem connection_independent {env : Env} {files : Bytes → Option FileImage}
    (henv : Steadfast env files) (defaultDocument rootFolder : Bytes) (pieces : List Piece) :
    (∀ (i : Nat) (answer : Bytes),
      (answers (connection env defaultDocument rootFolder pieces).conn.log)[i]? = some answer →
        ∃ piece, pieces[i]? = some piece ∧
          answers (connection env defaultDocument rootFolder [piece]).conn.log = [answer]) ∧
      ∀ c, connection env defaultDocument rootFolder pieces = .loopHead c → Clean c.td := by
  obtain ⟨pass, hpass⟩ := exists_passes henv defaultDocument rootFolder
  have hcases := connection_cases env defaultDocument rootFolder
  constructor
  · intro i answer h
    rw [answers_connection henv] at h
    apply readByRead_getElem? _ pieces i h
    intro piece
    rcases hcases with hnothing | halike
    · exact .inl (hnothing [piece])
    · exact .inr ⟨_, ((hpass.serves piece false []).alone (halike [piece])).1⟩
  · intro c hhead
    rcases hcases with hnothing | halike
    · have hends := (hnothing pieces).2
      rw [hhead] at hends
      cases hends
    · obtain ⟨-, hends, htd⟩ := halike pieces
      rw [hhead] at hends htd
      obtain ⟨keep, hkeep⟩ := hpass.run_flushed pieces false [] hends.symm
      rw [show c.td = _ from htd, hkeep]
      exact clean_idle _ _ keep

theorem Env.steady_steadfast (files : Bytes → Option FileImage) :
    Steadfast (Env.steady files) files :=
  ⟨Env.steady_fullWrites files, fun _ => rfl⟩

def indexRequest : Piece where
  data := bytes "GET / HTTP/1.1\r\nConnection: Keep-Alive\r\n\r\n"
  nonempty := by decide
  fits := by decide

theorem connection_independent_index :
    (∀ (i : Nat) (answer : Bytes),
      (answers (connection (Env.steady fun _ => some ⟨bytes "hello", 5⟩) (bytes "index.html") []
        [indexRequest, indexRequest]).conn.log)[i]? = some answer →
          ∃ piece, [indexRequest, indexRequest][i]? = some piece ∧
            answers (connection (Env.steady fun _ => some ⟨bytes "hello", 5⟩)
              (bytes "index.html") [] [piece]).conn.log = [answer]) ∧
      ∀ c, connection (Env.steady fun _ => some ⟨bytes "hello", 5⟩) (bytes "index.html") []
        [indexRequest, indexRequest] = .loopHead c → Clean c.td :=
  connection_independent (Env.steady_steadfast _) _ _ _

end HttpsServ.KeepAlive
