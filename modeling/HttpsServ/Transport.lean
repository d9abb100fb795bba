import HttpsServ.ErrorResponse

/-!
# Transport failures

What a connection does after `mbedtls_ssl_read` or `mbedtls_ssl_write` has
returned a negative code. The log of a run is followed function by function:
it is clear while no transfer has failed for good, and it stays sound when
nothing is transferred after that. Both are conditional on the results at the
three places where `HandleConnection` does not look closely enough.
-/

namespace HttpsServ.Transport

open ByteString Utility HttpParser TlsAdapter Http ErrorResponse

/-- A negative code other than the two that ask for another call. -/
def Fatal (code : Int) : Prop := code < 0 ∧ code ≠ wantRead ∧ code ≠ wantWrite

instance (code : Int) : Decidable (Fatal code) := inferInstanceAs (Decidable (_ ∧ _))

/-- Calls that move application data. -/
def IsTransfer : Event → Prop
  | .read _ => True
  | .write _ _ _ => True
  | _ => False

/-- Transfers that have failed for good. -/
def Failed : Event → Prop
  | .read (some code) => Fatal code
  | .write _ _ code => Fatal code
  | _ => False

/-- Every parse comes right after a read that returned a positive count. -/
def ParsedAfterRead (log : List Event) : Prop :=
  ∀ pre post, log = pre ++ .parse :: post →
    ∃ before count, pre = before ++ [.read (some count)] ∧ 0 < count

/-- Nothing is transferred after a failed transfer. -/
def StopsAfterFailure (log : List Event) : Prop :=
  log.Pairwise fun earlier later => Failed earlier → ¬ IsTransfer later

structure Sound (log : List Event) : Prop where
  parsed : ParsedAfterRead log
  stops : StopsAfterFailure log

theorem sound_nil : Sound [] := by
  refine ⟨fun pre post h => ?_, List.Pairwise.nil⟩
  have := congrArg List.length h
  simp at this

theorem ParsedAfterRead.snoc {log : List Event} (h : ParsedAfterRead log) {e : Event}
    (he : e = .parse → ∃ before count, log = before ++ [.read (some count)] ∧ 0 < count) :
    ParsedAfterRead (log ++ [e]) := by
  intro pre post hsplit
  rcases List.eq_nil_or_concat post with rfl | ⟨front, last, rfl⟩
  · obtain ⟨hlog, hlast⟩ := List.append_inj' hsplit rfl
    rw [← hlog]
    exact he (List.singleton_inj.mp hlast)
  · rw [List.concat_eq_append, ← List.cons_append, ← List.append_assoc] at hsplit
    exact h pre front (List.append_inj' hsplit rfl).1

theorem StopsAfterFailure.snoc {log : List Event} (h : StopsAfterFailure log) {e : Event}
    (he : IsTransfer e → ∀ earlier ∈ log, ¬ Failed earlier) :
    StopsAfterFailure (log ++ [e]) := by
  apply List.pairwise_append.mpr
  refine ⟨h, List.pairwise_singleton _ _, ?_⟩
  intro earlier hmem later hlater hfailed htransfer
  rw [List.mem_singleton.mp hlater] at htransfer
  exact he htransfer earlier hmem hfailed

/-- The results that `HandleConnection` copes with: no read code below the one
it compares with, and no failure of the header write or of the terminator of a
connection that stays open. -/
def Handled : Event → Prop
  | .read (some code) => otherError ≤ code
  | .write .header _ code => ¬ Fatal code
  | .write (.terminator true) _ code => ¬ Fatal code
  | _ => True

instance : DecidablePred Handled := fun
  | .read (some code) => inferInstanceAs (Decidable (otherError ≤ code))
  | .write .header _ code => inferInstanceAs (Decidable (¬ Fatal code))
  | .write (.terminator true) _ code => inferInstanceAs (Decidable (¬ Fatal code))
  | .write (.terminator false) _ _ | .write .body _ _ | .write .trailer _ _ => .isTrue trivial
  | .write .error _ _ | .write .close _ _ | .read none | .parse => .isTrue trivial
  | .logMessage _ _ | .logPerror _ | .logPrintf _ | .fopen _ _ => .isTrue trivial
  | .chunkCall _ _ | .fread _ _ | .fclose | .netFree => .isTrue trivial
  | .closeNotify | .sslFree | .freeThreadData => .isTrue trivial

/-- Sound, and no transfer has failed. -/
def Clear (log : List Event) : Prop :=
  (∀ e ∈ log, Handled e) → Sound log ∧ ∀ e ∈ log, ¬ Failed e

def Safe (log : List Event) : Prop := (∀ e ∈ log, Handled e) → Sound log

theorem Clear.safe {log : List Event} (h : Clear log) : Safe log := fun hall => (h hall).1

theorem clear_nil : Clear [] := fun _ => ⟨sound_nil, fun _ h => absurd h (by simp)⟩

theorem handled_append {log : List Event} {e : Event} (h : ∀ e' ∈ log ++ [e], Handled e') :
    (∀ e' ∈ log, Handled e') ∧ Handled e :=
  ⟨fun e' he' => h e' (List.mem_append_left _ he'), h e (by simp)⟩

/-- After a clear log one more call is safe, whatever its result. -/
theorem Clear.snoc_safe {log : List Event} (h : Clear log) {e : Event} (he : e ≠ .parse) :
    Safe (log ++ [e]) := by
  intro hall
  obtain ⟨hsound, hlive⟩ := h (handled_append hall).1
  exact ⟨hsound.parsed.snoc fun hparse => absurd hparse he, hsound.stops.snoc fun _ => hlive⟩

theorem Clear.snoc {log : List Event} (h : Clear log) {e : Event} (he : e ≠ .parse)
    (hlive : Handled e → ¬ Failed e) : Clear (log ++ [e]) := by
  intro hall
  obtain ⟨hlog, hlast⟩ := handled_append hall
  refine ⟨h.snoc_safe he hall, ?_⟩
  intro e' hmem
  rcases List.mem_append.mp hmem with hmem | hmem
  · exact (h hlog).2 e' hmem
  · rw [List.mem_singleton.mp hmem]
    exact hlive hlast

/-- The parse that follows a read. -/
theorem Clear.snoc_parse {log : List Event} {value : Int} (h : Clear (log ++ [.read (some value)]))
    (hvalue : otherError ≤ value → 0 < value) :
    Clear (log ++ [.read (some value)] ++ [.parse]) := by
  intro hall
  obtain ⟨hlog, -⟩ := handled_append hall
  obtain ⟨hsound, hlive⟩ := h hlog
  have hpos : 0 < value := hvalue (handled_append hlog).2
  refine ⟨⟨hsound.parsed.snoc fun _ => ⟨log, value, rfl, hpos⟩,
    hsound.stops.snoc fun htransfer => absurd htransfer id⟩, ?_⟩
  intro e hmem
  rcases List.mem_append.mp hmem with hmem | hmem
  · exact hlive e hmem
  · rw [List.mem_singleton.mp hmem]
    exact id

/-- Calls that transfer nothing are safe at any time. -/
theorem Safe.snoc {log : List Event} (h : Safe log) {e : Event} (he : e ≠ .parse)
    (hquiet : ¬ IsTransfer e) : Safe (log ++ [e]) := by
  intro hall
  obtain ⟨hparsed, hstops⟩ := h (handled_append hall).1
  exact ⟨hparsed.snoc fun hparse => absurd hparse he,
    hstops.snoc fun htransfer => absurd htransfer hquiet⟩

/-- `SendHttpHeader` makes one write, or none when the header is too long. -/
theorem sendHttpHeader_log (env : Env) (site : WriteSite) (resp : HttpResponseHeader)
    (appendData : Option Bytes) (dataSize : Int) (c : Conn) :
    (sendHttpHeader env site resp appendData dataSize c).2.2 = c ∨
      ∃ buffer result, (sendHttpHeader env site resp appendData dataSize c).2.2 =
        c.emit (.write site buffer result) := by
  simp only [sendHttpHeader]
  split
  · exact .inl rfl
  · right
    split <;> exact ⟨_, _, rfl⟩

theorem sendHttpHeader_safe {c : Conn} (h : Clear c.log) (env : Env) (site : WriteSite)
    (resp : HttpResponseHeader) (appendData : Option Bytes) (dataSize : Int) :
    Safe (sendHttpHeader env site resp appendData dataSize c).2.2.log := by
  rcases sendHttpHeader_log env site resp appendData dataSize c with hsame | ⟨_, _, hwrite⟩
  · rw [hsame]
    exact h.safe
  · rw [hwrite]
    exact h.snoc_safe (by simp)

/-- The result of the header write is not looked at. -/
theorem sendHttpHeader_clear {c : Conn} (h : Clear c.log) (env : Env)
    (resp : HttpResponseHeader) (appendData : Option Bytes) (dataSize : Int) :
    Clear (sendHttpHeader env .header resp appendData dataSize c).2.2.log := by
  rcases sendHttpHeader_log env .header resp appendData dataSize c with hsame | ⟨_, _, hwrite⟩
  · rw [hsame]
    exact h
  · rw [hwrite]
    exact h.snoc (by simp) id

theorem readSlice_clear {s : Sending} (h : Clear s.conn.log) : Clear s.readSlice.conn.log :=
  h.snoc (by simp) fun _ => id

theorem computeChunk_clear {s : Sending} (h : Clear s.conn.log) (budget : Int) :
    Clear (s.computeChunk budget).conn.log :=
  h.snoc (by simp) fun _ => id

theorem nextSlice_clear {s : Sending} (h : Clear s.conn.log) : Clear s.nextSlice.conn.log := by
  rw [Sending.nextSlice]
  apply readSlice_clear
  split
  · exact computeChunk_clear h _
  · exact h

theorem beginStatic_clear {c : Conn} (h : Clear c.log) : Clear (beginStatic c).2.conn.log := by
  simp only [beginStatic]
  split
  · exact readSlice_clear (computeChunk_clear h _)
  · exact h.snoc (by simp) fun _ => id

theorem writeSlice_clear {env : Env} {s : Sending} (h : Clear s.conn.log)
    (hwrite : ¬ (s.writeSlice env).1 < 0) : Clear (s.writeSlice env).2.log :=
  h.snoc (by simp) fun _ hfailed => hwrite hfailed.1

/-- The loop looks at the result of each of its writes. -/
theorem sendLoop_clear (env : Env) (s : Sending) (h : Clear s.conn.log) :
    Safe (sendLoop env s).2.log ∧ (0 ≤ (sendLoop env s).1 → Clear (sendLoop env s).2.log) := by
  induction s using sendLoop.induct env with
  | case1 s hfailed =>
      rw [sendLoop_of_failed hfailed]
      refine ⟨(nextSlice_clear h).snoc_safe (by simp), fun hresult => ?_⟩
      exact absurd (show 0 ≤ networkError from hresult) (by decide)
  | case2 s hwrite hempty =>
      have hwritten := writeSlice_clear (nextSlice_clear h) hwrite
      rw [sendLoop_of_empty hwrite hempty]
      exact ⟨hwritten.safe, fun _ => hwritten⟩
  | case3 s hwrite hmore ih =>
      rw [sendLoop_of_more hwrite hmore]
      exact ih (writeSlice_clear (nextSlice_clear h) hwrite)

/-- What a response leaves: a clear log when the connection stays open. -/
structure Settled (result : Int × Conn) : Prop where
  safe : Safe result.2.log
  clear : result.1 ≠ networkError → result.2.td.isKeepAlive = true → Clear result.2.log

theorem finishStatic_settled (env : Env) (resp : HttpResponseHeader) {looped : Int × Conn}
    (hsafe : Safe looped.2.log) (hclear : 0 ≤ looped.1 → Clear looped.2.log) :
    Settled (finishStatic env resp looped) := by
  rw [finishStatic]
  split
  · exact ⟨hsafe, fun hne => absurd rfl hne⟩
  · rename_i hresult
    have hlooped := hclear (Int.not_lt.mp hresult)
    split
    · refine ⟨hlooped.snoc_safe (by simp), fun _ hkeep => hlooped.snoc (by simp) ?_⟩
      have hopen : looped.2.td.isKeepAlive = true := hkeep
      rw [hopen]
      exact id
    · split
      · rename_i hclose
        refine ⟨sendHttpHeader_safe hlooped env _ _ _ _, fun _ hkeep => ?_⟩
        -- the connection whose header block is sent again does not stay open
        have hsame : looped.2.td.isKeepAlive = true := by
          rcases sendHttpHeader_log env .trailer
            (setResponseProperty resp (bytes "Connection: close\r\n")) none 0 looped.2 with
            heq | ⟨_, _, heq⟩
          · rwa [heq] at hkeep
          · rwa [heq] at hkeep
        rw [hsame] at hclose
        cases hclose
      · exact ⟨hlooped.safe, fun _ _ => hlooped⟩

theorem sendStaticData_settled (env : Env) {c : Conn} (h : Clear c.log) :
    Settled (sendStaticData env c) := by
  have hheader := sendHttpHeader_clear (beginStatic_clear h) env (beginStatic c).1
    (some (beginStatic c).2.conn.td.responseBuffer.cells)
    ((beginStatic c).2.amountOfData + (beginStatic c).2.sizeOfChunkedDelim)
  rw [sendStaticData]
  split
  · obtain ⟨hsafe, hclear⟩ := sendLoop_clear env
      { (beginStatic c).2 with conn := _ } hheader
    exact finishStatic_settled env _ hsafe hclear
  · exact finishStatic_settled env _ hheader.safe fun _ => hheader

/-- A connection at the head of its loop is clear, any other sound. -/
def Outcome.Guarded : Outcome → Prop
  | .loopHead c => Clear c.log
  | .handshake c | .returned c | .crashed c => Safe c.log

theorem freeThreadData_safe {c : Conn} (h : Safe c.log) : Safe (freeThreadData c).log := by
  have hclosed : Safe (if c.td.staticFile.isSome then c.emit .fclose else c).log := by
    split
    · exact h.snoc (by simp) id
    · exact h
  exact (((hclosed.snoc (by simp) id).snoc (by simp) id).snoc (by simp) id).snoc (by simp) id

theorem closeConnection_safe (env : Env) {c : Conn} (h : Clear c.log) :
    Safe (closeConnection env c).log :=
  sendHttpHeader_safe h env _ _ _ _

theorem handleError_safe {env : Env} {errorCode : Int} {problemName : Bytes} {c c' : Conn}
    (h : Clear c.log) (hsome : handleError env errorCode problemName c = some c') :
    Safe c'.log := by
  simp only [handleError] at hsome
  split at hsome
  · cases hsome
  · split at hsome
    · cases hsome
    · rw [← Option.some.inj hsome]
      exact h.snoc_safe (by simp)

theorem failRequest_guarded (env : Env) (errorCode : Int) (problemName : Bytes) {c : Conn}
    (h : Clear c.log) : Outcome.Guarded (failRequest env errorCode problemName c) := by
  rw [failRequest]
  split
  · exact h.safe
  · rename_i hsome
    exact freeThreadData_safe (handleError_safe h hsome)

theorem respond_guarded (env : Env) {c : Conn} (h : Clear c.log) :
    Outcome.Guarded (respond env c) := by
  simp only [respond]
  split
  · exact h.safe
  · have hanswer : ∀ sent : Int × Conn, Settled sent → Outcome.Guarded
        (if sent.1 = -1 then
          .returned (freeThreadData (sent.2.emit (.logPerror (bytes "server send error"))))
        else if sent.2.td.isKeepAlive then .loopHead (flushThreadData sent.2)
        else .returned (freeThreadData sent.2)) := by
      intro sent hsent
      split
      · exact freeThreadData_safe (hsent.safe.snoc (by simp) id)
      · rename_i hresult
        split
        · rename_i hkeep
          exact (hsent.clear hresult hkeep).snoc (by simp) fun _ => id
        · exact freeThreadData_safe hsent.safe
    apply hanswer
    apply sendStaticData_settled
    exact h

theorem openRequestedFile_clear (env : Env) {c : Conn} (h : Clear c.log) :
    Clear (openRequestedFile env c).log := by
  simp only [openRequestedFile]
  split
  · exact h
  · exact h.snoc (by simp) fun _ => id

/-- From the parse on. -/
theorem handleRequest_guarded (env : Env) {c : Conn} (h : Clear (c.log ++ [.parse])) :
    Outcome.Guarded (handleRequest env c) := by
  simp only [handleRequest]
  split
  · exact failRequest_guarded env _ _ h
  · have hopened : ∀ td, Clear (openRequestedFile env
        (logHttpRequestHeader env { td := td, log := c.log ++ [.parse] })).log :=
      fun td => openRequestedFile_clear env (h.snoc (by simp) fun _ => id)
    split
    · exact failRequest_guarded env _ _ (hopened _)
    · exact respond_guarded env (hopened _)

/-- One pass through the loop. -/
theorem serveRead_guarded (env : Env) (r : ReadResult) {c : Conn} (h : Clear c.log) :
    Outcome.Guarded (serveRead env r c) := by
  have hread : r.value ≠ otherError → Clear (c.log ++ [.read (some r.value)]) :=
    fun hne => h.snoc (by simp) fun hhandled hfailed => by
      have hlow : otherError ≤ r.value := hhandled
      have hneg : r.value < 0 := hfailed.1
      simp only [otherError, networkError] at hne hlow
      omega
  simp only [serveRead]
  split
  · exact freeThreadData_safe ((h.snoc_safe (by simp)).snoc (by simp) id)
  · rename_i hother
    split
    · apply freeThreadData_safe
      split
      · exact closeConnection_safe env (hread hother)
      · exact (hread hother).safe
    · rename_i hnonzero
      apply handleRequest_guarded
      apply Clear.snoc_parse (hread hother)
      intro hlow
      simp only [otherError, networkError] at hother hlow
      omega

theorem serveReads_guarded (env : Env) (reads : List ReadResult) {c : Conn} (h : Clear c.log) :
    Outcome.Guarded (serveReads env reads c) := by
  induction reads generalizing c with
  | nil => exact h
  | cons r reads ih =>
      have hpass := serveRead_guarded env r h
      rw [serveReads]
      split
      · rename_i hhead
        rw [hhead] at hpass
        exact ih hpass
      · exact hpass

theorem handleConnection_safe (env : Env) (reads : List ReadResult) (td : ThreadData) :
    Safe (handleConnection env reads td).conn.log := by
  simp only [handleConnection]
  split
  · exact clear_nil.safe
  · split
    · exact freeThreadData_safe (clear_nil.safe.snoc (by simp) id)
    · have hserved := serveReads_guarded env reads (c := { td := td, log := [] }) clear_nil
      split
      · rename_i hhead
        rw [hhead] at hserved
        exact Clear.snoc_safe hserved (by simp)
      · generalize serveReads env reads { td := td, log := [] } = outcome at hserved ⊢
        cases outcome with
        | loopHead c => exact Clear.safe hserved
        | handshake c => exact hserved
        | returned c => exact hserved
        | crashed c => exact hserved

/-- In every run whose transfers all return results that `HandleConnection`
copes with, requests are parsed only after reads that brought bytes, and nothing
is transferred after a failure. -/
theorem handleConnection_stops (env : Env) (reads : List ReadResult) (td : ThreadData)
    (hresults : ∀ e ∈ (handleConnection env reads td).conn.log, Handled e) :
    ParsedAfterRead (handleConnection env reads td).conn.log ∧
      StopsAfterFailure (handleConnection env reads td).conn.log := by
  obtain ⟨hparsed, hstops⟩ := handleConnection_safe env reads td hresults
  exact ⟨hparsed, hstops⟩

def keptRequest : Piece where
  data := bytes "GET /hello.txt HTTP/1.1\r\nConnection: Keep-Alive\r\n\r\n"
  nonempty := by decide
  fits := by decide

/-- A request is served on a connection that is kept, and the next read fails. -/
theorem handleConnection_stops_served :
    ParsedAfterRead (handleConnection (Env.steady fun _ => some ⟨bytes "hello", 5⟩)
        [.data keptRequest, .code (-1) (by decide)]
        (ThreadData.fresh (bytes "index.html") [])).conn.log ∧
      StopsAfterFailure (handleConnection (Env.steady fun _ => some ⟨bytes "hello", 5⟩)
        [.data keptRequest, .code (-1) (by decide)]
        (ThreadData.fresh (bytes "index.html") [])).conn.log :=
  handleConnection_stops _ _ _ (by decide +kernel)

/-- Any read result but the two that the loop looks for leads to the parser. -/
theorem serveRead_of_ne (env : Env) {r : ReadResult} (hother : r.value ≠ otherError)
    (hnonzero : r.value ≠ 0) (c : Conn) :
    serveRead env r c = handleRequest env (sslRead r c) := by
  rw [serveRead, if_neg hother, if_neg hnonzero]

/-- What was received is parsed. -/
theorem serveRead_data (env : Env) (piece : Piece) (c : Conn) :
    serveRead env (.data piece) c = handleRequest env (sslRead (.data piece) c) := by
  have hpos : 0 < piece.data.length := List.length_pos_iff.mpr piece.nonempty
  apply serveRead_of_ne
  · simp only [ReadResult.value, otherError, networkError]
    omega
  · simp only [ReadResult.value]
    omega

/-- A request that the parser refuses. -/
theorem handleRequest_refused (env : Env) {c : Conn} {code : Int} {header : HttpRequestHeader}
    (hparse : fillHttpRequestHeader c.td.httpHeader
      (c.td.requestBuffer.cells ++ c.td.responseBuffer.cells) = (code, header))
    (hcode : code < 0) :
    handleRequest env c = failRequest env code (bytes "Your request")
      ({ c with td := { c.td with httpHeader := header } }.emit .parse) := by
  simp only [handleRequest, hparse]
  rw [if_pos hcode]

/-- The connection that opens the file of an accepted request: it has the header
with its default document, and the request is in the log file. -/
def accepted (env : Env) (header : HttpRequestHeader) (c : Conn) : Conn :=
  logHttpRequestHeader env
    { td := { c.td with httpHeader := setDefaultDocument header c.td.defaultDocument }
      log := c.log ++ [.parse] }

/-- A request that the parser accepts is answered with an error or with the file. -/
theorem handleRequest_opens (env : Env) {c : Conn} {code : Int} {header : HttpRequestHeader}
    (hparse : fillHttpRequestHeader c.td.httpHeader
      (c.td.requestBuffer.cells ++ c.td.responseBuffer.cells) = (code, header))
    (hcode : ¬ code < 0) :
    handleRequest env c =
      if (openRequestedFile env (accepted env header c)).td.staticFileSize < 0 then
        failRequest env
          (toInt32 (openRequestedFile env (accepted env header c)).td.staticFileSize)
          ((openRequestedFile env (accepted env header c)).td.httpHeader.path.getD [])
          (openRequestedFile env (accepted env header c))
      else respond env (openRequestedFile env (accepted env header c)) := by
  simp only [handleRequest, hparse]
  rw [if_neg hcode]
  rfl

/-- An empty request buffer is a bad request. -/
theorem fillHttpRequestHeader_zero (header : HttpRequestHeader) (behind : Bytes) :
    fillHttpRequestHeader header (Buffer.zero.cells ++ behind) =
      (HttpError.badRequest.code, header) := by
  have hempty : cstr (Buffer.zero.cells ++ behind) = [] := rfl
  have habsent : getKeywordIndex [] (bytes "\r\n\r\n") = otherError := by decide
  rw [fillHttpRequestHeader, hempty, habsent, if_pos rfl]
  rfl

/-- The calls of `FreeThreadData`. -/
def closingCalls (staticFile : Option OpenFile) : List Event :=
  (if staticFile.isSome then [.fclose] else []) ++
    [.netFree, .closeNotify, .sslFree, .freeThreadData]

theorem freeThreadData_log_eq (c : Conn) :
    (freeThreadData c).log = c.log ++ closingCalls c.td.staticFile := by
  cases hfile : c.td.staticFile <;>
    simp [freeThreadData, serverTlsSessionFree, Conn.emit, closingCalls, hfile]

/-- The calls that end a connection come after those it has made. -/
theorem freeThreadData_log (c : Conn) : c.log <+: (freeThreadData c).log := by
  rw [freeThreadData_log_eq]
  exact List.prefix_append _ _

/-- `HandleError` makes one write and leaves the file alone. -/
theorem handleError_log {env : Env} {errorCode : Int} {problemName : Bytes} {c c' : Conn}
    (hsome : handleError env errorCode problemName c = some c') :
    c'.td.staticFile = c.td.staticFile ∧
      ∃ buffer result, c'.log = c.log ++ [.write .error buffer result] := by
  simp only [handleError] at hsome
  split at hsome
  · cases hsome
  · split at hsome
    · cases hsome
    · rw [← Option.some.inj hsome]
      exact ⟨rfl, _, _, rfl⟩

/-- A first read that fails, other than with the code the loop looks for, is
followed by a parse of the empty buffer and by an error response. -/
theorem handleConnection_failedRead {code : Int} (hcode : code < otherError) (hnonpos : code ≤ 0)
    (defaultDocument rootFolder : Bytes) :
    ∃ buffer result, [.read (some code), .parse, .write .error buffer result] <+:
      (handleConnection (Env.steady fun _ => none) [.code code hnonpos]
        (ThreadData.fresh defaultDocument rootFolder)).conn.log := by
  have hname : (0 : UInt8) ∉ bytes "Your request" := by decide
  obtain ⟨c, result, hsome, hlog⟩ := handleError_eq (Env.steady fun _ => none) .badRequest hname
    { td := ThreadData.fresh defaultDocument rootFolder
      log := [.read (some code), .parse] } (by decide)
  have hfail : failRequest (Env.steady fun _ => none) HttpError.badRequest.code
      (bytes "Your request")
      { td := ThreadData.fresh defaultDocument rootFolder
        log := [.read (some code), .parse] } = .returned (freeThreadData c) := by
    rw [failRequest, hsome]
  have hpass : serveRead (Env.steady fun _ => none) (.code code hnonpos)
      { td := ThreadData.fresh defaultDocument rootFolder, log := [] } =
        .returned (freeThreadData c) := by
    have hother : (ReadResult.code code hnonpos).value ≠ otherError :=
      hcode.ne
    have hnonzero : (ReadResult.code code hnonpos).value ≠ 0 :=
      (hcode.trans (by decide)).ne
    rw [serveRead_of_ne _ hother hnonzero,
      handleRequest_refused _ (fillHttpRequestHeader_zero {} Buffer.zero.cells) (by decide)]
    exact hfail
  have hconn : (handleConnection (Env.steady fun _ => none)
      [.code code (hcode.le.trans (by decide))]
      (ThreadData.fresh defaultDocument rootFolder)).conn = freeThreadData c := by
    have hinit : serverTlsSessionInit (Env.steady fun _ => none).sslSetup
        (Env.steady fun _ => none).sslHandshake = some 0 := rfl
    simp only [handleConnection, hinit, serveReads, hpass]
    rfl
  have hended := freeThreadData_log c
  rw [hlog] at hended
  rw [hconn]
  exact ⟨_, result, hended⟩

/-- `MBEDTLS_ERR_SSL_PEER_CLOSE_NOTIFY` from the first read: the empty buffer is
parsed, and its error is answered. -/
theorem handleConnection_parses_failedRead :
    ¬ ParsedAfterRead (handleConnection (Env.steady fun _ => none)
        [.code (-0x7880) (by decide)] (ThreadData.fresh [] [])).conn.log ∧
      ¬ StopsAfterFailure (handleConnection (Env.steady fun _ => none)
        [.code (-0x7880) (by decide)] (ThreadData.fresh [] [])).conn.log := by
  obtain ⟨buffer, result, rest, hlog⟩ := handleConnection_failedRead
    (show -0x7880 < otherError by decide) (by decide) [] []
  rw [← hlog]
  constructor
  · intro hparsed
    obtain ⟨before, count, hread, hpos⟩ := hparsed [.read (some (-0x7880))] _ rfl
    have hsingle := (List.append_inj' (show [] ++ [_] = before ++ [_] from hread) rfl).2
    rw [← Option.some.inj (Event.read.inj (List.singleton_inj.mp hsingle))] at hpos
    exact absurd hpos (by decide)
  · intro hstops
    have hwrite := (List.pairwise_cons.mp hstops).1 (.write .error buffer result) (by simp)
    exact hwrite (show Fatal (-0x7880) by decide) trivial

end HttpsServ.Transport
