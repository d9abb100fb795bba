import HttpsServ.KeepAlive
import HttpsServ.ErrorResponse

/-!
# Reads and requests

The loop takes each read for one request. A request that arrives in two reads
is refused at the first of them, and what a read holds behind its first blank
line is not looked at.
-/

namespace HttpsServ.ReadBoundaries

open ByteString Utility HttpParser TlsAdapter Http StaticTransfer Transport ResponseFrame
  ResponseBytes KeepAlive ResponseHeader ErrorResponse
open HeaderBlock (blankLine)

/-- The parser sees the buffer as a C string. -/
theorem fillHttpRequestHeader_congr {buffer buffer' : Bytes} (h : cstr buffer = cstr buffer')
    (header : HttpRequestHeader) :
    fillHttpRequestHeader header buffer = fillHttpRequestHeader header buffer' := by
  simp only [fillHttpRequestHeader, h]

/-- What stands behind the first blank line is not looked at. -/
theorem fillHttpRequestHeader_append {request : Bytes}
    (hcomplete : firstOccurrence blankLine (cstr request) ≠ none) (header : HttpRequestHeader)
    (surplus : Bytes) :
    fillHttpRequestHeader header (request ++ surplus) =
      fillHttpRequestHeader header request := by
  by_cases hzero : 0 ∈ request
  · exact fillHttpRequestHeader_congr (cstr_append_of_mem hzero surplus) header
  · have hrequest := cstr_of_notMem hzero
    obtain ⟨i, hi⟩ := Option.ne_none_iff_exists'.mp hcomplete
    rw [hrequest] at hi
    have hlong : i + blankLine.length ≤ request.length := firstOccurrence_le hi (by decide)
    have hindex : ∀ rest, getKeywordIndex (request ++ rest) (bytes "\r\n\r\n") =
        (i + blankLine.length : Nat) := by
      intro rest
      have hfound : firstOccurrence (bytes "\r\n\r\n") (request ++ rest) = some i :=
        firstOccurrence_append hi (by decide) rest
      rw [getKeywordIndex, hfound]
      rfl
    have hsame := hindex []
    rw [List.append_nil] at hsame
    simp only [fillHttpRequestHeader, cstr_append_of_notMem hzero, hrequest, hindex, hsame,
      Int.toNat_natCast, List.take_append_of_le_length hlong]

/-- The request buffer after a read into an empty one. -/
theorem received_cells (piece : Piece) :
    (Buffer.zero.store 0 piece.data).cells =
      piece.data ++ List.replicate (maxChunkSize - piece.data.length) 0 := by
  have hfits : 0 + piece.data.length ≤ Buffer.zero.cells.length := by
    rw [Buffer.size, Nat.zero_add]
    exact piece.fits
  rw [Buffer.store]
  simp only [overwrite_of_le hfits]
  simp [Buffer.zero]

theorem cstr_received (piece : Piece) :
    cstr ((Buffer.zero.store 0 piece.data).cells ++ Buffer.zero.cells) = cstr piece.data := by
  rw [received_cells, List.append_assoc, Buffer.zero, List.replicate_append_replicate,
    cstr_append_zeros]

/-- The parser's result on a first read. -/
theorem fillHttpRequestHeader_requested (defaultDocument rootFolder : Bytes) (piece : Piece) :
    fillHttpRequestHeader (requested defaultDocument rootFolder piece).httpHeader
        ((requested defaultDocument rootFolder piece).requestBuffer.cells ++
          (requested defaultDocument rootFolder piece).responseBuffer.cells) =
      fillHttpRequestHeader {} piece.data :=
  fillHttpRequestHeader_congr (cstr_received piece) {}

/-- A piece in which no request ends. -/
def Unfinished (piece : Piece) : Prop := firstOccurrence blankLine (cstr piece.data) = none

theorem fillHttpRequestHeader_unfinished {piece : Piece} (h : Unfinished piece) :
    fillHttpRequestHeader {} piece.data = (kBadRequest, {}) := by
  have hindex : getKeywordIndex (cstr piece.data) (bytes "\r\n\r\n") = otherError := by
    rw [getKeywordIndex, show firstOccurrence (bytes "\r\n\r\n") (cstr piece.data) = none from h]
  rw [fillHttpRequestHeader, hindex, if_pos rfl]

theorem failRequest_ends (env : Env) (errorCode : Int) (problemName : Bytes) (c : Conn) :
    isLoopHead (failRequest env errorCode problemName c) = false := by
  rw [failRequest]
  split <;> rfl

/-- A connection whose only read is not the head of a loop again. -/
theorem connection_of_ends {env : Env} (hinit : serverTlsSessionInit env.sslSetup
      env.sslHandshake = some 0) (defaultDocument rootFolder : Bytes) (piece : Piece)
    (hends : isLoopHead (handleRequest env
      { td := requested defaultDocument rootFolder piece
        log := [.read (some piece.data.length)] }) = false) :
    connection env defaultDocument rootFolder [piece] = handleRequest env
      { td := requested defaultDocument rootFolder piece
        log := [.read (some piece.data.length)] } := by
  have hread := serveRead_piece env defaultDocument rootFolder piece false []
  have hpass : serveReads env ([piece].map .data)
      { td := ThreadData.fresh defaultDocument rootFolder, log := [] } =
        handleRequest env
          { td := requested defaultDocument rootFolder piece
            log := [.read (some piece.data.length)] } := by
    rw [List.map_cons, List.map_nil, serveReads_singleton]
    exact hread
  have hzero : ¬ (0 : Int) = networkError := by decide
  simp only [connection, handleConnection, hinit, if_neg hzero, hpass]
  generalize handleRequest env
    { td := requested defaultDocument rootFolder piece
      log := [.read (some piece.data.length)] } = outcome at hends
  cases outcome with
  | loopHead c => cases hends
  | _ => rfl

/-- An unfinished request is a bad request, and ends its connection. -/
theorem connection_unfinished {env : Env} (hinit : serverTlsSessionInit env.sslSetup
      env.sslHandshake = some 0) (defaultDocument rootFolder : Bytes) {piece : Piece}
    (h : Unfinished piece) :
    connection env defaultDocument rootFolder [piece] =
      failRequest env kBadRequest (bytes "Your request")
        { td := requested defaultDocument rootFolder piece
          log := [.read (some piece.data.length), .parse] } := by
  have hrefused := handleRequest_refused env
    (c := { td := requested defaultDocument rootFolder piece
            log := [.read (some piece.data.length)] })
    ((fillHttpRequestHeader_requested defaultDocument rootFolder piece).trans
      (fillHttpRequestHeader_unfinished h)) (by decide)
  rw [connection_of_ends hinit]
  · exact hrefused
  · rw [hrefused]
    exact failRequest_ends _ _ _ _

/-- The request in a piece is accepted, and its file is opened. -/
def Finds (files : Bytes → Option FileImage) (defaultDocument rootFolder : Bytes)
    (piece : Piece) : Prop :=
  0 ≤ (fillHttpRequestHeader {} piece.data).1 ∧
    0 ≤ (opened files (ThreadData.fresh defaultDocument rootFolder)
      (fillHttpRequestHeader {} piece.data).2).staticFileSize

/-- Opening the file leaves the request buffer as it is. -/
theorem opened_requested (files : Bytes → Option FileImage) (defaultDocument rootFolder : Bytes)
    (piece : Piece) (header : HttpRequestHeader) :
    opened files { requested defaultDocument rootFolder piece with isKeepAlive := false } header =
      { opened files (ThreadData.fresh defaultDocument rootFolder) header with
        isKeepAlive := false
        requestBuffer := Buffer.zero.store 0 piece.data } := by
  simp only [opened, requested, ThreadData.fresh]

/-- Pieces with the same request, whose file is found, are answered alike. -/
theorem connection_found {env : Env} {files : Bytes → Option FileImage}
    (henv : Steadfast env files) (defaultDocument rootFolder : Bytes) {piece request : Piece}
    (hparse : fillHttpRequestHeader {} piece.data = fillHttpRequestHeader {} request.data)
    (hfinds : Finds files defaultDocument rootFolder request) :
    answers (connection env defaultDocument rootFolder [piece]).conn.log =
        answers (connection env defaultDocument rootFolder [request]).conn.log ∧
      isLoopHead (connection env defaultDocument rootFolder [piece]) =
        isLoopHead (connection env defaultDocument rootFolder [request]) := by
  obtain ⟨hcode, hsize⟩ := hfinds
  obtain ⟨code, header, heq⟩ : ∃ code header,
      fillHttpRequestHeader {} request.data = (code, header) := ⟨_, _, rfl⟩
  rw [heq] at hparse hcode hsize
  obtain ⟨answer, goesOn, hrespond⟩ := respond_serves henv.writes
    (opened files (ThreadData.fresh defaultDocument rootFolder) header)
  have hserves : ∀ p : Piece, fillHttpRequestHeader {} p.data = (code, header) →
      Serves defaultDocument rootFolder ([] ++ [.read (some p.data.length)]) answer goesOn
        (serveRead env (.data p)
          { td := idle defaultDocument rootFolder false, log := [] }) := by
    intro p hp
    have hopened := opened_requested files defaultDocument rootFolder p header
    have hopen : ¬ (opened files { requested defaultDocument rootFolder p with
        isKeepAlive := false } header).staticFileSize < 0 := by
      rw [hopened]
      exact Int.not_lt.mpr hsize
    obtain ⟨log, hlog, hrequest⟩ := handleRequest_found henv.files
      (c :=
        { td := { requested defaultDocument rootFolder p with isKeepAlive := false }
          log := [] ++ [.read (some p.data.length)] })
      ((fillHttpRequestHeader_requested defaultDocument rootFolder p).trans hp)
      (Int.not_lt.mpr hcode) hopen
    rw [serveRead_piece, hrequest, hopened]
    exact (hrespond false _ log).after hlog
  rcases connection_cases env defaultDocument rootFolder with hnothing | halike
  · rw [(hnothing [piece]).1, (hnothing [piece]).2, (hnothing [request]).1,
      (hnothing [request]).2]
    exact ⟨rfl, rfl⟩
  · obtain ⟨hanswer, hends⟩ := (hserves piece hparse).alone (halike [piece])
    obtain ⟨hanswer', hends'⟩ := (hserves request heq).alone (halike [request])
    exact ⟨hanswer.trans hanswer'.symm, hends.trans hends'.symm⟩

/-- How a connection takes the pieces that its reads return. -/
structure ReadsAreRequests (env : Env) (files : Bytes → Option FileImage)
    (defaultDocument rootFolder : Bytes) (pieces : List Piece) : Prop where
  /-- Every piece is answered as on a connection of its own, up to the first that
  ends it. -/
  alone : answers (connection env defaultDocument rootFolder pieces).conn.log =
    readByRead (fun piece => connection env defaultDocument rootFolder [piece]) pieces
  /-- A piece in which no request ends is a bad request, and ends the connection. -/
  unfinished : ∀ piece ∈ pieces, Unfinished piece →
    connection env defaultDocument rootFolder [piece] =
        failRequest env kBadRequest (bytes "Your request")
          { td := requested defaultDocument rootFolder piece
            log := [.read (some piece.data.length), .parse] } ∧
      isLoopHead (connection env defaultDocument rootFolder [piece]) = false
  /-- What a piece holds behind a request that finds its file is dropped. -/
  surplus : ∀ piece ∈ pieces, ∀ request : Piece, ∀ rest, piece.data = request.data ++ rest →
    ¬ Unfinished request → Finds files defaultDocument rootFolder request →
      answers (connection env defaultDocument rootFolder [piece]).conn.log =
          answers (connection env defaultDocument rootFolder [request]).conn.log ∧
        isLoopHead (connection env defaultDocument rootFolder [piece]) =
          isLoopHead (connection env defaultDocument rootFolder [request])

theorem connection_readsAreRequests {env : Env} {files : Bytes → Option FileImage}
    (henv : Steadfast env files)
    (hinit : serverTlsSessionInit env.sslSetup env.sslHandshake = some 0)
    (defaultDocument rootFolder : Bytes) (pieces : List Piece) :
    ReadsAreRequests env files defaultDocument rootFolder pieces := by
  refine ⟨answers_connection henv defaultDocument rootFolder pieces, ?_, ?_⟩
  · intro piece _ hunfinished
    have hrefused := connection_unfinished hinit defaultDocument rootFolder hunfinished
    refine ⟨hrefused, ?_⟩
    rw [hrefused]
    exact failRequest_ends _ _ _ _
  · intro piece _ request rest hdata hfinished hfinds
    apply connection_found henv defaultDocument rootFolder _ hfinds
    rw [hdata]
    exact fillHttpRequestHeader_append hfinished {} rest

/-- A request, two of them in one read, and a part of one. -/
def mixedPieces : List Piece :=
  [indexRequest, ⟨indexRequest.data ++ indexRequest.data, by decide, by decide⟩,
    ⟨bytes "GET / HT", by decide, by decide⟩]

theorem connection_readsAreRequests_mixed :
    ReadsAreRequests (Env.steady fun _ => some ⟨bytes "hello", 5⟩)
      (fun _ => some ⟨bytes "hello", 5⟩) (bytes "index.html") [] mixedPieces :=
  connection_readsAreRequests (Env.steady_steadfast _) rfl _ _ _

/-- An error response is a piece of the request buffer. -/
theorem failRequest_answered {env : Env} (henv : FullWrites env) (e : HttpError)
    (problemName : Bytes) (c : Conn) :
    ∃ n, Answered c.log (c.td.requestBuffer.cells.take n)
        (failRequest env e.code problemName c).conn.log ∧
      (0 ∉ problemName → (errorText e problemName).length ≤ maxChunkSize →
        n = (errorText e problemName).length) := by
  refine ⟨(cstr (c.td.responseBuffer.store 0 (headerText e.description errorFields ++
    (problemName ++ bytes " " ++ e.description.errorStatus) ++ [0])).cells).length, ?_, ?_⟩
  · simp only [failRequest, handleError, findErrorDescription_code,
      (errorHeader_built _).responseToBuff]
    exact freeThreadData_answered (sslWrite_answered henv .error _ _)
  · intro hname hfits
    rw [cstr_assembled e hname _ hfits]

/-- The answer to an unfinished request. -/
theorem answers_unfinished {env : Env} (henv : FullWrites env)
    (hinit : serverTlsSessionInit env.sslSetup env.sslHandshake = some 0)
    (defaultDocument rootFolder : Bytes) {piece : Piece} (h : Unfinished piece) :
    answers (connection env defaultDocument rootFolder [piece]).conn.log =
      [(Buffer.zero.store 0 piece.data).cells.take
        (errorText .badRequest (bytes "Your request")).length] := by
  obtain ⟨n, hanswered, hn⟩ := failRequest_answered henv .badRequest (bytes "Your request")
    { td := requested defaultDocument rootFolder piece
      log := [.read (some piece.data.length), .parse] }
  rw [connection_unfinished hinit defaultDocument rootFolder h, ← hn (by decide) (by decide)]
  have hparsed : Answered ([] ++ [.read (some piece.data.length)]) []
      [.read (some piece.data.length), .parse] := (Answered.refl _).silent rfl rfl
  exact (hparsed.trans hanswered).answers_eq

/-- Without files, an accepted request is answered with a piece of its buffer. -/
theorem answers_accepted {env : Env} (henv : Steadfast env fun _ => none)
    (hinit : serverTlsSessionInit env.sslSetup env.sslHandshake = some 0)
    (defaultDocument rootFolder : Bytes) {piece : Piece}
    (haccepted : 0 ≤ (fillHttpRequestHeader {} piece.data).1) :
    ∃ n, answers (connection env defaultDocument rootFolder [piece]).conn.log =
      [(Buffer.zero.store 0 piece.data).cells.take n] := by
  obtain ⟨code, header, hparse⟩ : ∃ code header,
      fillHttpRequestHeader {} piece.data = (code, header) := ⟨_, _, rfl⟩
  rw [hparse] at haccepted
  obtain ⟨e, hsize⟩ : ∃ e : HttpError, (opened (fun _ => none)
      (requested defaultDocument rootFolder piece) header).staticFileSize = e.code := by
    simp only [opened, openStaticFile]
    split
    · exact ⟨.badRequest, rfl⟩
    · exact ⟨.notFound, rfl⟩
  have hmissing : (opened (fun _ => none)
      (requested defaultDocument rootFolder piece) header).staticFileSize < 0 := by
    rw [hsize]
    cases e <;> decide
  obtain ⟨log, hlog, hrequest⟩ := handleRequest_missing henv.files
    (c := { td := requested defaultDocument rootFolder piece
            log := [.read (some piece.data.length)] })
    ((fillHttpRequestHeader_requested defaultDocument rootFolder piece).trans hparse)
    (Int.not_lt.mpr haccepted) hmissing
  have hcode : toInt32 e.code = e.code := by
    cases e <;> decide
  rw [hsize, hcode] at hrequest
  have hends : isLoopHead (handleRequest env
      { td := requested defaultDocument rootFolder piece
        log := [.read (some piece.data.length)] }) = false := by
    rw [hrequest]
    exact failRequest_ends _ _ _ _
  obtain ⟨n, hanswered, -⟩ := failRequest_answered henv.writes e
    ((opened (fun _ => none) (requested defaultDocument rootFolder piece)
      header).httpHeader.path.getD [])
    { td := opened (fun _ => none) (requested defaultDocument rootFolder piece) header
      log := log }
  refine ⟨n, ?_⟩
  have hwhole : Answered ([] ++ [.read (some piece.data.length)])
      ([] ++ (Buffer.zero.store 0 piece.data).cells.take n) _ := hlog.trans hanswered
  rw [connection_of_ends hinit defaultDocument rootFolder piece hends, hrequest]
  exact hwhole.answers_eq

def wholeRequest : Piece where
  data := bytes "GET /x HTTP/1.1\r\nHost: a\r\n\r\n"
  nonempty := by decide
  fits := by decide

def requestFront : Piece where
  data := bytes "GET /x HTTP/1.1\r\n"
  nonempty := by decide
  fits := by decide

def requestBack : Piece where
  data := bytes "Host: a\r\n\r\n"
  nonempty := by decide
  fits := by decide

/-- One request in two reads: the first is answered as a bad request, with other
bytes than the request gets in one read. -/
theorem connection_splits_request :
    wholeRequest.data = requestFront.data ++ requestBack.data ∧
      answers (connection (Env.steady fun _ => none) [] [] [wholeRequest]).conn.log ≠
        answers (connection (Env.steady fun _ => none) [] []
          [requestFront, requestBack]).conn.log := by
  refine ⟨by decide, fun heq => ?_⟩
  have henv := Env.steady_steadfast fun _ => none
  have hunfinished : Unfinished requestFront :=
    show firstOccurrence blankLine (cstr requestFront.data) = none by decide
  have haccepted : 0 ≤ (fillHttpRequestHeader {} wholeRequest.data).1 := by decide
  obtain ⟨n, hwhole⟩ := answers_accepted henv rfl [] [] haccepted
  have hfront := answers_unfinished henv.writes rfl [] [] hunfinished
  have hends : isLoopHead (connection (Env.steady fun _ => none) [] [] [requestFront]) =
      false := by
    rw [connection_unfinished rfl [] [] hunfinished]
    exact failRequest_ends _ _ _ _
  rw [answers_connection henv [] [] [requestFront, requestBack], readByRead, hwhole, hfront,
    hends] at heq
  -- the bytes differ behind the line of the request
  have hbytes := congrArg (fun s : Bytes => s[17]?) (List.singleton_inj.mp heq)
  have hlong : 17 < (errorText .badRequest (bytes "Your request")).length := by decide
  have hhost : ∀ zeros : Bytes, (wholeRequest.data ++ zeros)[17]? = some 72 := by
    intro zeros
    rw [List.getElem?_append_left (by decide)]
    decide
  have hzero : ∀ m, 0 < m → (requestFront.data ++ List.replicate m (0 : UInt8))[17]? =
      some 0 := by
    intro m hm
    have hlength : 17 - requestFront.data.length = 0 := by decide
    rw [List.getElem?_append_right (by decide), List.getElem?_replicate, hlength, if_pos hm]
  simp only [received_cells, List.getElem?_take, if_pos hlong, hhost] at hbytes
  rw [hzero _ (by decide)] at hbytes
  split at hbytes
  · exact absurd (Option.some.inj hbytes) (by decide)
  · cases hbytes

end HttpsServ.ReadBoundaries
