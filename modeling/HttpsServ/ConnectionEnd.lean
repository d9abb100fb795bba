import HttpsServ.ReadBoundaries
import HttpsServ.RequestGrammar

/-!
# The end of a connection

The calls of a run on the open file and on the session are followed through the
log. The pointer to the file says whether one is open, the calls that close the
session come once, at the very end, and the socket is the first thing to go.
-/

namespace HttpsServ.ConnectionEnd

open ByteString Utility HttpParser TlsAdapter Http Transport ResponseFrame KeepAlive
  ReadBoundaries ErrorResponse RequestWords RequestGrammar

/-- One call on the file: a second file is not opened while one is open, and a
file is read and closed only while it is open. -/
def handleStep (isOpen : Bool) : Event → Option Bool
  | .fopen _ opened => if isOpen then none else some opened
  | .fread _ _ => if isOpen then some true else none
  | .fclose => if isOpen then some false else none
  | _ => some isOpen

/-- Whether a file is open after the calls of a log; `none` for a misuse. -/
def handleAfter (log : List Event) : Option Bool := log.foldlM handleStep false

theorem handleAfter_snoc (log : List Event) (e : Event) :
    handleAfter (log ++ [e]) = (handleAfter log).bind fun isOpen => handleStep isOpen e := by
  simp [handleAfter, List.foldlM_append]

/-- The calls of a response keep an open file open. -/
theorem handleAfter_transfers {log events : List Event} (h : handleAfter log = some true)
    (htransfers : ∀ e ∈ events, isTransfer e = true) :
    handleAfter (log ++ events) = some true := by
  induction events using List.reverseRecOn with
  | nil => rwa [List.append_nil]
  | append_singleton events e ih =>
      have hbefore := ih fun e' he' => htransfers e' (List.mem_append_left _ he')
      have he := htransfers e (List.mem_append_right _ (List.mem_singleton_self e))
      rw [← List.append_assoc, handleAfter_snoc, hbefore]
      cases e with
      | chunkCall total budget => rfl
      | fread offset slice => rfl
      | write site buffer result => rfl
      | _ => cases he

/-- The calls that close the session and give the memory back. -/
def isClosing : Event → Bool
  | .netFree => true
  | .closeNotify => true
  | .sslFree => true
  | .freeThreadData => true
  | _ => false

/-- A connection that is not being closed, with its file where the pointer says. -/
structure Tracked (c : Conn) : Prop where
  running : ∀ e ∈ c.log, isClosing e = false
  handle : handleAfter c.log = some c.td.staticFile.isSome

/-- A call that has nothing to do with the file or the end. -/
theorem Tracked.snoc {c c' : Conn} (h : Tracked c) {e : Event} (hlog : c'.log = c.log ++ [e])
    (hclosing : isClosing e = false)
    (hstep : handleStep c.td.staticFile.isSome e = some c'.td.staticFile.isSome) :
    Tracked c' := by
  constructor
  · intro e' he'
    rw [hlog] at he'
    rcases List.mem_append.mp he' with he' | he'
    · exact h.running e' he'
    · rw [List.mem_singleton.mp he']
      exact hclosing
  · rw [hlog, handleAfter_snoc, h.handle]
    exact hstep

theorem Tracked.of_eq {c c' : Conn} (h : Tracked c) (hlog : c'.log = c.log)
    (hfile : c'.td.staticFile = c.td.staticFile) : Tracked c' := by
  constructor
  · rw [hlog]
    exact h.running
  · rw [hlog, hfile]
    exact h.handle

theorem Tracked.transfers {c c' : Conn} (h : Tracked c) (hopen : c.td.staticFile.isSome = true)
    (htransfers : Transfers c c') : Tracked c' := by
  obtain ⟨events, hlog, hall⟩ := htransfers.log
  have hhandle := h.handle
  rw [hopen] at hhandle
  constructor
  · intro e he
    rw [hlog] at he
    rcases List.mem_append.mp he with he | he
    · exact h.running e he
    · have htransfer := hall e he
      cases e with
      | chunkCall total budget => rfl
      | fread offset slice => rfl
      | write site buffer result => rfl
      | _ => cases htransfer
  · rw [hlog, htransfers.file, hopen]
    exact handleAfter_transfers hhandle hall

/-- The calls that end a connection, behind a run with no file left open. -/
def Ended (log : List Event) : Prop :=
  ∃ before, log = before ++ [.netFree, .closeNotify, .sslFree, .freeThreadData] ∧
    (∀ e ∈ before, isClosing e = false) ∧ handleAfter before = some false

/-- `FreeThreadData` closes the file that the pointer stands for. -/
theorem Tracked.ended {c : Conn} (h : Tracked c) : Ended (freeThreadData c).log := by
  have hlog := freeThreadData_log_eq c
  have hhandle := h.handle
  cases hfile : c.td.staticFile with
  | none =>
      rw [hfile] at hlog hhandle
      exact ⟨c.log, hlog, h.running, hhandle⟩
  | some file =>
      rw [hfile] at hlog hhandle
      refine ⟨c.log ++ [.fclose], ?_, ?_, ?_⟩
      · rw [hlog, List.append_assoc]
        rfl
      · intro e he
        rcases List.mem_append.mp he with he | he
        · exact h.running e he
        · rw [List.mem_singleton.mp he]
          rfl
      · rw [handleAfter_snoc, hhandle]
        rfl

/-- Between two requests: nothing is left of the last one. -/
structure AtHead (defaultDocument rootFolder : Bytes) (c : Conn) : Prop where
  tracked : Tracked c
  idle : ∃ isKeepAlive, c.td = idle defaultDocument rootFolder isKeepAlive

/-- A run that breaks off does so with its file open. -/
def Accounted (defaultDocument rootFolder : Bytes) : Outcome → Prop
  | .handshake c | .loopHead c => AtHead defaultDocument rootFolder c
  | .returned c => Ended c.log
  | .crashed c => Tracked c ∧ c.td.staticFile.isSome = true

/-- An error without a description is one of an open file. -/
theorem failRequest_accounted (env : Env) {errorCode : Int} (problemName : Bytes) {c : Conn}
    (h : Tracked c) (defaultDocument rootFolder : Bytes)
    (hcode : errorCode.natAbs < kErrorDescriptions.length ∨ c.td.staticFile.isSome = true) :
    Accounted defaultDocument rootFolder (failRequest env errorCode problemName c) := by
  rw [failRequest]
  split
  · rename_i hnone
    refine ⟨h, hcode.resolve_left fun hdescribed => ?_⟩
    have hsome := (handleError_isSome_iff env errorCode problemName c).mpr hdescribed
    rw [hnone] at hsome
    cases hsome
  · rename_i c' hsome
    obtain ⟨hfile, buffer, result, hlog⟩ := handleError_log hsome
    have htracked : Tracked c' := h.snoc hlog rfl (by rw [hfile]; rfl)
    exact htracked.ended

/-- `FlushThreadData` closes the file, and every other exit frees the data. -/
theorem afterSend_accounted {sent : Int × Conn} (h : Tracked sent.2)
    (hopen : sent.2.td.staticFile.isSome = true) :
    Accounted sent.2.td.defaultDocument sent.2.td.rootFolder (afterSend sent) := by
  rw [afterSend]
  split
  · have hlogged : Tracked (sent.2.emit (.logPerror (bytes "server send error"))) :=
      h.snoc rfl rfl rfl
    exact hlogged.ended
  · split
    · rename_i hkeep
      constructor
      · apply h.snoc (e := .fclose) rfl rfl
        rw [hopen]
        rfl
      · refine ⟨true, ?_⟩
        rw [KeepAlive.idle, ← hkeep]
        rfl
    · exact h.ended

theorem respond_accounted (env : Env) {c : Conn} (h : Tracked c)
    (hopen : c.td.staticFile.isSome = true) :
    Accounted c.td.defaultDocument c.td.rootFolder (respond env c) := by
  cases hbody : c.td.httpHeader.body with
  | none =>
      simp only [respond, hbody]
      exact ⟨h, hopen⟩
  | some body =>
      obtain ⟨keep, chunked, hrespond⟩ := respond_eq env c.td hbody
      have heq := hrespond c.td.isKeepAlive c.td.requestBuffer c.log
      have hstart : Tracked
          { td := { c.td with isKeepAlive := keep, isChunkEncoding := chunked }
            log := c.log } := h.of_eq rfl rfl
      have htransfers := sendStaticData_transfers env
        { td := { c.td with isKeepAlive := keep, isChunkEncoding := chunked }, log := c.log }
      have hsent := hstart.transfers hopen htransfers
      have haccounted := afterSend_accounted hsent (htransfers.file.trans hopen)
      rw [htransfers.td] at haccounted
      exact heq ▸ haccounted

/-- The file that `OpenStaticFile` finds for the request of a connection. -/
def foundImage (env : Env) (c : Conn) : Option FileImage :=
  (staticFileName (c.td.httpHeader.path.getD []) c.td.rootFolder).bind (env.fopen c.log)

/-- What `OpenStaticFile` leaves: the file that it finds, with its size, or none
and a code. -/
structure Opens (env : Env) (c : Conn) : Prop where
  tracked : Tracked (openRequestedFile env c)
  missing : foundImage env c = none →
    ∃ e : HttpError, (openRequestedFile env c).td.staticFileSize = e.code
  found : ∀ image, foundImage env c = some image →
    (openRequestedFile env c).td.staticFileSize = image.size ∧
      (openRequestedFile env c).td.staticFile.isSome = true

theorem openRequestedFile_opens (env : Env) {c : Conn} (h : Tracked c)
    (hnone : c.td.staticFile = none) : Opens env c := by
  have hstep : ∀ name opened,
      handleStep c.td.staticFile.isSome (.fopen name opened) = some opened := by
    intro name opened
    rw [hnone]
    rfl
  cases hname : staticFileName (c.td.httpHeader.path.getD []) c.td.rootFolder with
  | none =>
      have himage : foundImage env c = none := by
        rw [foundImage, hname]
        rfl
      constructor
      · simp only [openRequestedFile, openStaticFile, hname]
        exact h.of_eq rfl rfl
      · simp only [openRequestedFile, openStaticFile, hname]
        exact fun _ => ⟨.badRequest, rfl⟩
      · intro image hfound
        rw [himage] at hfound
        cases hfound
  | some name =>
      have himage : foundImage env c = env.fopen c.log name := by
        rw [foundImage, hname]
        rfl
      constructor
      · simp only [openRequestedFile, hname]
        apply h.snoc (e := .fopen name _) rfl rfl
        exact hstep name _
      · intro hmissing
        rw [himage] at hmissing
        simp only [openRequestedFile, openStaticFile, hname, hmissing]
        exact ⟨.notFound, rfl⟩
      · intro image hfound
        rw [himage] at hfound
        simp only [openRequestedFile, openStaticFile, hname, hfound]
        exact ⟨rfl, rfl⟩

theorem openRequestedFile_folders (env : Env) (c : Conn) :
    (openRequestedFile env c).td.defaultDocument = c.td.defaultDocument ∧
      (openRequestedFile env c).td.rootFolder = c.td.rootFolder := by
  simp only [openRequestedFile]
  split <;> exact ⟨rfl, rfl⟩

theorem Tracked.accepted {c : Conn} (h : Tracked c) (env : Env) (header : HttpRequestHeader) :
    Tracked (accepted env header c) := by
  have hparsed : Tracked
      { td := { c.td with httpHeader := setDefaultDocument header c.td.defaultDocument }
        log := c.log ++ [.parse] } := h.snoc (e := .parse) rfl rfl rfl
  exact hparsed.snoc rfl rfl rfl

theorem handleRequest_accounted (env : Env) {c : Conn} (h : Tracked c)
    (hnone : c.td.staticFile = none) :
    Accounted c.td.defaultDocument c.td.rootFolder (handleRequest env c) := by
  obtain ⟨code, header, hparse⟩ : ∃ code header, fillHttpRequestHeader c.td.httpHeader
      (c.td.requestBuffer.cells ++ c.td.responseBuffer.cells) = (code, header) := ⟨_, _, rfl⟩
  have hcode := fillHttpRequestHeader_code c.td.httpHeader
    (c.td.requestBuffer.cells ++ c.td.responseBuffer.cells)
  rw [hparse] at hcode
  rcases hcode with rfl | ⟨e, rfl⟩
  · have hopens := openRequestedFile_opens env (h.accepted env header) hnone
    have hfolders := openRequestedFile_folders env (accepted env header c)
    rw [handleRequest_opens env hparse (lt_irrefl 0)]
    split
    · apply failRequest_accounted env _ hopens.tracked
      cases himage : foundImage env (accepted env header c) with
      | none =>
          obtain ⟨e, hsize⟩ := hopens.missing himage
          rw [hsize]
          exact .inl e.described.2
      | some image => exact .inr (hopens.found image himage).2
    · rename_i hsize
      cases himage : foundImage env (accepted env header c) with
      | none =>
          obtain ⟨e, hcode⟩ := hopens.missing himage
          rw [hcode] at hsize
          exact absurd (e.code_neg) hsize
      | some image =>
          have haccounted := respond_accounted env hopens.tracked (hopens.found image himage).2
          rw [hfolders.1, hfolders.2] at haccounted
          exact haccounted
  · rw [handleRequest_refused env hparse (e.code_neg)]
    apply failRequest_accounted env _ _ _ _ (.inl e.described.1)
    exact h.snoc (e := .parse) rfl rfl rfl

theorem closeConnection_tracked (env : Env) {c : Conn} (h : Tracked c) :
    Tracked (closeConnection env c) := by
  simp only [closeConnection]
  rcases sendHttpHeader_log env .close
    (setResponseProperty (setResponseProperty (setResponseStatusLine {} httpVersion
      (bytes "200") (bytes "OK")) (bytes "Connection: close\r\n"))
      (bytes "Content-Length: 0\r\n"))
    (some c.td.responseBuffer.cells) (toInt32 c.td.staticFileSize) c with
    hsame | ⟨_, _, hwrite⟩
  · rw [hsame]
    exact h
  · rw [hwrite]
    exact h.snoc rfl rfl rfl

theorem serveRead_accounted (env : Env) (r : ReadResult) {defaultDocument rootFolder : Bytes}
    {c : Conn} (h : AtHead defaultDocument rootFolder c) :
    Accounted defaultDocument rootFolder (serveRead env r c) := by
  obtain ⟨isKeepAlive, htd⟩ := h.idle
  have hread : Tracked (sslRead r c) := h.tracked.snoc (e := .read (some r.value)) rfl rfl rfl
  have hfolders : (sslRead r c).td.defaultDocument = defaultDocument ∧
      (sslRead r c).td.rootFolder = rootFolder ∧ (sslRead r c).td.staticFile = none := by
    simp only [sslRead, Conn.emit, htd]
    exact ⟨rfl, rfl, rfl⟩
  by_cases herror : r.value = otherError
  · simp only [serveRead, if_pos herror]
    have hlogged : Tracked ((sslRead r c).emit (.logPerror (bytes "server recv error"))) :=
      hread.snoc rfl rfl rfl
    exact hlogged.ended
  · by_cases hzero : r.value = 0
    · simp only [serveRead, if_neg herror, if_pos hzero]
      split
      · exact (closeConnection_tracked env hread).ended
      · exact hread.ended
    · rw [serveRead_of_ne env herror hzero]
      have haccounted := handleRequest_accounted env hread hfolders.2.2
      rwa [hfolders.1, hfolders.2.1] at haccounted

theorem serveReads_accounted (env : Env) (reads : List ReadResult)
    {defaultDocument rootFolder : Bytes} {c : Conn} (h : AtHead defaultDocument rootFolder c) :
    Accounted defaultDocument rootFolder (serveReads env reads c) := by
  induction reads generalizing c with
  | nil => exact h
  | cons r reads ih =>
      have hpass := serveRead_accounted env r h
      rw [serveReads]
      split
      · rename_i hhead
        rw [hhead] at hpass
        exact ih hpass
      · exact hpass

theorem fresh_atHead (defaultDocument rootFolder : Bytes) :
    AtHead defaultDocument rootFolder
      { td := ThreadData.fresh defaultDocument rootFolder, log := [] } := by
  refine ⟨⟨?_, rfl⟩, false, rfl⟩
  intro e he
  cases he

/-- Every run keeps account of its file, and closes the session last. -/
theorem handleConnection_accounted (env : Env) (reads : List ReadResult)
    (defaultDocument rootFolder : Bytes) :
    Accounted defaultDocument rootFolder
      (handleConnection env reads (ThreadData.fresh defaultDocument rootFolder)) := by
  have hstart := fresh_atHead defaultDocument rootFolder
  simp only [handleConnection]
  split
  · exact hstart
  · split
    · have hlogged : Tracked (Conn.emit
          { td := ThreadData.fresh defaultDocument rootFolder, log := [] }
          (.logPrintf (bytes "server session init error\n"))) := hstart.tracked.snoc rfl rfl rfl
      exact hlogged.ended
    · have hserved := serveReads_accounted env reads hstart
      split
      · rename_i hhead
        rw [hhead] at hserved
        exact ⟨hserved.tracked.snoc rfl rfl rfl, hserved.idle⟩
      · exact hserved

/-- The calls that use the session's socket. -/
def usesSocket : Event → Bool
  | .read _ => true
  | .write _ _ _ => true
  | .closeNotify => true
  | _ => false

/-- Nothing is attempted on the session once its socket is closed. -/
def SilentAfterClose (log : List Event) : Prop :=
  ∀ before after, log = before ++ .netFree :: after → ∀ e ∈ after, usesSocket e = false

/-- The close notification is handed over while the socket is open. -/
def NotifiedWhileOpen (log : List Event) : Prop :=
  ∃ before after, log = before ++ .closeNotify :: after ∧ .netFree ∉ before

/-- Every connection that ends closes its socket first and notifies then. -/
theorem Ended.notifies_late {log : List Event} (h : Ended log) :
    ¬ SilentAfterClose log ∧ ¬ NotifiedWhileOpen log := by
  obtain ⟨before, rfl, hrunning, -⟩ := h
  constructor
  · intro hsilent
    have hnotify := hsilent before _ rfl .closeNotify List.mem_cons_self
    cases hnotify
  · rintro ⟨before', after, hlog, hopen⟩
    have hnone : .closeNotify ∉ before := fun hmem => Bool.false_ne_true (hrunning _ hmem).symm
    rcases List.append_eq_append_iff.mp hlog with
      ⟨between, rfl, hrest⟩ | ⟨between, rfl, hrest⟩
    · cases between with
      | nil => cases hrest
      | cons e between =>
          obtain rfl := (List.cons.inj hrest).1
          exact hopen (List.mem_append_right _ List.mem_cons_self)
    · cases between with
      | nil => cases hrest
      | cons e between =>
          obtain rfl := (List.cons.inj hrest).1
          exact hnone (List.mem_append_right _ List.mem_cons_self)

/-- No run ends with a notification that its socket can carry. -/
theorem handleConnection_notifies_late {env : Env} {reads : List ReadResult}
    {defaultDocument rootFolder : Bytes} {c : Conn}
    (h : handleConnection env reads (ThreadData.fresh defaultDocument rootFolder) = .returned c) :
    ¬ SilentAfterClose c.log ∧ ¬ NotifiedWhileOpen c.log := by
  have haccounted := handleConnection_accounted env reads defaultDocument rootFolder
  rw [h] at haccounted
  exact haccounted.notifies_late

/-- The peer has closed the connection before it sent a request. -/
theorem handleConnection_notifies_late_closed :
    ∃ c, handleConnection (Env.steady fun _ => none) [.code 0 (by decide)]
        (ThreadData.fresh [] []) = .returned c ∧
      ¬ SilentAfterClose c.log ∧ ¬ NotifiedWhileOpen c.log := by
  obtain ⟨c, hreturned⟩ : ∃ c, handleConnection (Env.steady fun _ => none)
      [.code 0 (by decide)] (ThreadData.fresh [] []) = .returned c := ⟨_, rfl⟩
  exact ⟨c, hreturned, handleConnection_notifies_late hreturned⟩

/-- The first read has failed. -/
theorem handleConnection_failed_notifies_late :
    ∃ c, handleConnection (Env.steady fun _ => none) [.code (-1) (by decide)]
        (ThreadData.fresh [] []) = .returned c ∧
      ¬ SilentAfterClose c.log ∧ ¬ NotifiedWhileOpen c.log := by
  refine ⟨_, rfl, Ended.notifies_late ?_⟩
  exact ⟨[.read (some (-1)), .logPerror (bytes "server recv error")], rfl, by decide, rfl⟩

end HttpsServ.ConnectionEnd
