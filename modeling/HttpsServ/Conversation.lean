import HttpsServ.Library.MessageStream
import HttpsServ.ConnectionOptions
import HttpsServ.ReadBoundaries
import HttpsServ.RequestRendering
import HttpsServ.SanitizedPath

/-!
# A conversation with the server

A client sends requests on one connection and takes the bytes that come back
apart into messages. What it reads are the files it has asked for, in order.
-/

namespace HttpsServ.Conversation

open ByteString Utility Numeral HttpParser TlsAdapter Http Chunked HeaderBlock MessageStream
  ResponseHeader ChunkFrames StaticTransfer ResponseFrame ResponseBytes KeepAlive ReadBoundaries
  RequestRendering ConnectionOptions SanitizedPath PathContainment

/-- A key stands in front of a line exactly in the field of its name. -/
theorem key_isPrefixOf_line {name : Bytes} (hname : 58 ∉ name) (f : Field) :
    (name ++ bytes ": ").isPrefixOf f.line = decide (f.name = name) := by
  have hcolon : bytes ": " = 58 :: [32] := rfl
  have hline : f.line = f.name ++ 58 :: (32 :: f.value) := by
    simp only [Field.line, Field.key, hcolon, List.append_assoc, List.cons_append, List.nil_append]
  rw [Bool.eq_iff_iff, List.isPrefixOf_iff_prefix, decide_eq_true_iff, hline, hcolon]
  constructor
  · rintro ⟨rest, hrest⟩
    have hfront : ∀ {w : Bytes}, 58 ∉ w → ∀ tail : Bytes,
        (w ++ 58 :: tail).takeWhile (· ≠ 58) = w := by
      intro w hw tail
      rw [List.takeWhile_append_of_pos]
      · simp
      · intro b hb
        simpa using ne_of_mem_of_not_mem hb hw
    rw [List.append_assoc, List.cons_append] at hrest
    have hcut := congrArg (List.takeWhile (· ≠ 58)) hrest
    rw [hfront hname, hfront f.name_plain.1] at hcut
    exact hcut.symm
  · rintro rfl
    exact ⟨f.value, by simp⟩

theorem headerValue_fields {name : Bytes} (hname : 58 ∉ name) (fields : List Field) :
    headerValue name (fields.map Field.line) =
      (fields.find? fun f => f.name = name).map Field.value := by
  induction fields with
  | nil => rfl
  | cons f fields ih =>
      have hkey := key_isPrefixOf_line hname f
      by_cases hf : f.name = name
      · have hvalue : f.line.drop (name ++ bytes ": ").length = f.value := by
          rw [Field.line, Field.key, hf, List.drop_left]
        rw [hf, decide_eq_true rfl] at hkey
        rw [headerValue, List.map_cons, List.find?_cons_of_pos hkey,
          List.find?_cons_of_pos (by simpa using hf), Option.map_some, hvalue, Option.map_some]
      · rw [decide_eq_false hf] at hkey
        rw [headerValue, List.map_cons, List.find?_cons_of_neg (by simp [hkey]), ← headerValue, ih,
          List.find?_cons_of_neg (by simpa using hf)]

theorem mime_no_lf (extension : String) {type : List Char}
    (hplain : (type.all fun c => UInt8.ofNat c.toNat != 10) = true) :
    10 ∉ (mime extension (String.ofList type)).type := by
  simp only [List.all_eq_true, bne_iff_ne] at hplain
  simp only [mime, bytes_ofList, List.mem_map, not_exists, not_and]
  exact hplain

theorem kMimeTypes_no_lf : ∀ mime ∈ kMimeTypes, 10 ∉ mime.type := by
  unfold kMimeTypes
  repeat
    refine List.forall_mem_cons.mpr ⟨mime_no_lf _ (by decide), ?_⟩
  exact List.forall_mem_nil _

theorem chosenType_no_lf (filename : Bytes) : 10 ∉ chosenType filename := by
  rw [chosenType]
  cases h : (kMimeTypes.filter fun mime => (stristr filename mime.extension).isSome).getLast? with
  | none => decide
  | some mime => exact kMimeTypes_no_lf mime (List.mem_filter.mp (List.mem_of_getLast? h)).1

/-- The lines of the header block of a response. -/
def responseLines (path : Bytes) (isKeepAlive isChunkEncoding : Bool) (size : Nat) : List Bytes :=
  statusLine okDescription ::
    (responseFields path isKeepAlive isChunkEncoding size).map Field.line

theorem responseHeader_eq (path : Bytes) (isKeepAlive isChunkEncoding : Bool) (size : Nat) :
    responseHeader path isKeepAlive isChunkEncoding size =
      headerBlock (responseLines path isKeepAlive isChunkEncoding size) := rfl

theorem Field.line_no_lf {f : Field} (hname : 10 ∉ f.name) (hvalue : 10 ∉ f.value) :
    10 ∉ f.line := by
  have hsep : (10 : UInt8) ∉ bytes ": " := by decide
  simp [Field.line, Field.key, hname, hvalue, hsep]

theorem responseFields_no_lf (path : Bytes) (isKeepAlive isChunkEncoding : Bool) (size : Nat) :
    ∀ f ∈ responseFields path isKeepAlive isChunkEncoding size, 10 ∉ f.line := by
  have hnumeral : (10 : UInt8) ∉ decNumeral size := by
    intro hmem
    rw [decNumeral, if_neg (by omega), Int.natAbs_natCast] at hmem
    obtain ⟨d, hd, heq⟩ := mem_numeral (by decide) hmem
    have hdigit : ∀ d < 10, digitByte d ≠ 10 := by decide
    exact hdigit d hd heq.symm
  have htype : 10 ∉ (contentTypeField path).line :=
    Field.line_no_lf (f := contentTypeField path) (show 10 ∉ bytes "Content-Type" by decide)
      (chosenType_no_lf path)
  have hserver : 10 ∉ serverField.line := by decide
  have hconnection : 10 ∉ (connectionField isKeepAlive).line := by
    cases isKeepAlive <;> decide
  have hlast : 10 ∉ (if isChunkEncoding then transferEncodingField
      else contentLengthField size).line := by
    cases isChunkEncoding with
    | true =>
        show 10 ∉ transferEncodingField.line
        decide
    | false =>
        exact Field.line_no_lf (f := contentLengthField size)
          (show 10 ∉ bytes "Content-Length" by decide) hnumeral
  intro f hf
  simp only [responseFields, staticFields, List.mem_append, List.mem_cons, List.not_mem_nil,
    or_false] at hf
  obtain (rfl | rfl | rfl) | rfl := hf
  · exact htype
  · exact hserver
  · exact hconnection
  · exact hlast

theorem responseLines_lines (path : Bytes) (isKeepAlive isChunkEncoding : Bool) (size : Nat) :
    ∀ line ∈ responseLines path isKeepAlive isChunkEncoding size, IsLine line ∧ 10 ∉ line := by
  intro line hline
  rcases List.mem_cons.mp hline with rfl | hline
  · exact ⟨⟨by decide, by decide⟩, by decide⟩
  · obtain ⟨f, hf, rfl⟩ := List.mem_map.mp hline
    exact ⟨f.line_isLine, responseFields_no_lf path isKeepAlive isChunkEncoding size f hf⟩

/-- What a client finds in a response header. -/
theorem headerValue_responseLines {name : Bytes} (hname : 58 ∉ name)
    (hstatus : (name ++ bytes ": ").isPrefixOf (statusLine okDescription) = false)
    (path : Bytes) (isKeepAlive isChunkEncoding : Bool) (size : Nat) :
    headerValue name (responseLines path isKeepAlive isChunkEncoding size) =
      ((responseFields path isKeepAlive isChunkEncoding size).find? fun f => f.name = name).map
        Field.value := by
  rw [← headerValue_fields hname, headerValue, responseLines,
    List.find?_cons_of_neg (by simp [hstatus]), headerValue]

theorem headerValue_type (path : Bytes) (isKeepAlive isChunkEncoding : Bool) (size : Nat) :
    headerValue (bytes "Content-Type") (responseLines path isKeepAlive isChunkEncoding size) =
      some (chosenType path) := by
  rw [headerValue_responseLines (by decide) (by decide)]
  rfl

theorem headerValue_encoding (path : Bytes) (isKeepAlive isChunkEncoding : Bool) (size : Nat) :
    headerValue (bytes "Transfer-Encoding")
        (responseLines path isKeepAlive isChunkEncoding size) =
      if isChunkEncoding then some (bytes "chunked") else none := by
  rw [headerValue_responseLines (by decide) (by decide)]
  cases isChunkEncoding with
  | true => rfl
  | false => rfl

theorem headerValue_contentLength (path : Bytes) (isKeepAlive : Bool) (size : Nat) :
    headerValue (bytes "Content-Length") (responseLines path isKeepAlive false size) =
      some (decNumeral size) := by
  rw [headerValue_responseLines (by decide) (by decide)]
  rfl

/-- What a client can read whole: with chunks, a file that goes out with its header
in one chunk whose size line has room. -/
def Readable (path : Bytes) (isChunkEncoding : Bool) (content : Bytes) : Prop :=
  isChunkEncoding = true → 0 < content.length ∧
    content.length ≤
      sliceLimit true (firstBudget (responseHeader path true true content.length)) ∧
    content.length ∉ narrowSizes

/-- The bytes of a response on a connection that is kept. -/
def responseText (path : Bytes) (isChunkEncoding : Bool) (content : Bytes) : Bytes :=
  responseHeader path true isChunkEncoding content.length ++
    if isChunkEncoding then encodeChunk content ++ zeroChunk else content

theorem readMessage_responseText {path : Bytes} {isChunkEncoding : Bool} {content : Bytes}
    (h : Readable path isChunkEncoding content) (rest : Bytes) :
    readMessage (responseText path isChunkEncoding content ++ rest) =
      some ({ lines := responseLines path true isChunkEncoding content.length, body := content },
        rest) := by
  rw [responseText, responseHeader_eq]
  apply readMessage_headerBlock (List.cons_ne_nil _ _) (responseLines_lines _ _ _ _)
  have hencoding := headerValue_encoding path true isChunkEncoding content.length
  cases isChunkEncoding with
  | true => exact cutBody_chunked_field (List.length_pos_iff.mp (h rfl).1) hencoding rest
  | false => exact cutBody_length_field hencoding (headerValue_contentLength path true _) rest

/-- What the peer gets of a response is one message. -/
theorem acceptedBytes_response {env : Env} (henv : FullWrites env) {c : Conn} {content : Bytes}
    (h : Ready c content) (hkeep : c.td.isKeepAlive = true)
    (hreadable : Readable (c.td.httpHeader.path.getD []) c.td.isChunkEncoding content) :
    ∃ events, (sendStaticData env c).2.log = c.log ++ events ∧
      acceptedBytes events =
        responseText (c.td.httpHeader.path.getD []) c.td.isChunkEncoding content := by
  obtain ⟨events, hlog, hpieces⟩ := sendStaticData_pieces henv h
  refine ⟨events, hlog, ?_⟩
  rw [acceptedBytes, hpieces, headerOf, firstLimit, headerOf, hkeep, responseText]
  cases hencoding : c.td.isChunkEncoding with
  | true =>
      rw [hencoding] at hreadable
      obtain ⟨hpos, hfits, hwide⟩ := hreadable rfl
      have hsmall : content.length < 16 ^ 4 := by
        have hroom : sliceLimit true (firstBudget (responseHeader (c.td.httpHeader.path.getD [])
            true true content.length)) ≤ maxChunkSize := by
          rw [sliceLimit, if_pos rfl, firstBudget]
          omega
        have hmax : maxChunkSize = 8192 := rfl
        omega
      rw [restScript_short hfits, List.take_of_length_le hfits]
      simp only [frame, if_true, chunkFrame_eq_encodeChunk hsmall hwide]
      simp [buffers]
  | false =>
      have hbody := buffers_rest_identity (sliceLimit false (firstBudget (responseHeader
        (c.td.httpHeader.path.getD []) true false content.length))) content
      simp only [frame, Bool.false_eq_true, if_false, if_true, List.append_nil, List.flatten_cons,
        List.append_assoc, hbody]

/-- A `GET` request as a client writes it. -/
structure Request where
  path : Bytes
  header : Bytes
  isPlain : IsPlain path
  isHeaderText : IsHeaderText header
  fits : (render (bytes "GET") path (bytes "HTTP/1.1") header).length ≤ maxChunkSize

/-- The request in one read. -/
def Request.piece (r : Request) : Piece where
  data := render (bytes "GET") r.path (bytes "HTTP/1.1") r.header
  nonempty := by simp [render]
  fits := r.fits

/-- The path under the root folder that a request is served from. -/
def servedPath (defaultDocument path : Bytes) : Bytes :=
  sanitized (if path = bytes "/" then bytes "/" ++ defaultDocument else path)

/-- What a client wants to know of a response. -/
structure Reply where
  status : Bytes
  contentType : Option Bytes
  content : Bytes

def Message.reply (message : Message) : Reply where
  status := message.lines.headD []
  contentType := headerValue (bytes "Content-Type") message.lines
  content := message.body

/-- A request and the file that it asks for. -/
structure Exchange (files : Bytes → Option FileImage) (defaultDocument rootFolder : Bytes) where
  request : Request
  content : Bytes
  served : servedPath defaultDocument request.path ≠ []
  short : (servedPath defaultDocument request.path).length < 2 ^ 15
  found : files (rootFolder ++ servedPath defaultDocument request.path) =
    some { content := content, size := content.length }
  fits : content.length ≤ intMax
  keeps : isKeepAlive (fields request.header) = true
  readable : Readable (servedPath defaultDocument request.path)
    (isChunkEncoding (fields request.header)) content

/-- What a file service owes to a request. -/
def Exchange.reply {files : Bytes → Option FileImage} {defaultDocument rootFolder : Bytes}
    (e : Exchange files defaultDocument rootFolder) : Reply where
  status := bytes "HTTP/1.1 200 OK"
  contentType := some (chosenType (servedPath defaultDocument e.request.path))
  content := e.content

def Exchange.text {files : Bytes → Option FileImage} {defaultDocument rootFolder : Bytes}
    (e : Exchange files defaultDocument rootFolder) : Bytes :=
  responseText (servedPath defaultDocument e.request.path)
    (isChunkEncoding (fields e.request.header)) e.content

def Exchange.message {files : Bytes → Option FileImage} {defaultDocument rootFolder : Bytes}
    (e : Exchange files defaultDocument rootFolder) : Message where
  lines := responseLines (servedPath defaultDocument e.request.path) true
    (isChunkEncoding (fields e.request.header)) e.content.length
  body := e.content

theorem Exchange.message_reply {files : Bytes → Option FileImage}
    {defaultDocument rootFolder : Bytes} (e : Exchange files defaultDocument rootFolder) :
    Message.reply e.message = e.reply := by
  have hstatus : statusLine okDescription = bytes "HTTP/1.1 200 OK" := by decide
  rw [Message.reply, Exchange.message, headerValue_type, responseLines, hstatus]
  rfl

section Runs

variable {env : Env} {files : Bytes → Option FileImage} {defaultDocument rootFolder : Bytes}

theorem Request.parsed (r : Request) :
    fillHttpRequestHeader {} r.piece.data =
      (0,
        { method := some (bytes "GET")
          path := some r.path
          version := some (bytes "HTTP/1.1")
          body := some (fields r.header) }) := by
  have hmethod : IsPlain (bytes "GET") := by constructor <;> decide
  have hversion : IsPlain (bytes "HTTP/1.1") := by constructor <;> decide
  have h := fillHttpRequestHeader_render hmethod (by decide) r.isPlain hversion r.isHeaderText {} []
  rwa [List.append_nil] at h

/-- The header of a request after the default document is put in. -/
def requestedHeader (defaultDocument : Bytes) (r : Request) : HttpRequestHeader where
  method := some (bytes "GET")
  path := some (if r.path = bytes "/" then bytes "/" ++ defaultDocument else r.path)
  version := some (bytes "HTTP/1.1")
  body := some (fields r.header)

/-- The request of an exchange leaves the connection ready to send the file. -/
theorem Exchange.opened_eq (e : Exchange files defaultDocument rootFolder) (td : ThreadData)
    (hdocument : td.defaultDocument = defaultDocument) (hroot : td.rootFolder = rootFolder) :
    opened files td (fillHttpRequestHeader {} e.request.piece.data).2 =
      { td with
        httpHeader := { requestedHeader defaultDocument e.request with
          path := some (servedPath defaultDocument e.request.path) }
        staticFile := some { unread := e.content }
        staticFileSize := e.content.length } := by
  have hdefault : setDefaultDocument (fillHttpRequestHeader {} e.request.piece.data).2
      td.defaultDocument = requestedHeader defaultDocument e.request := by
    rw [e.request.parsed, hdocument, setDefaultDocument, requestedHeader]
    simp only [Option.some.injEq]
    split <;> rfl
  have hkept : keptPath ((requestedHeader defaultDocument e.request).path.getD []) =
      servedPath defaultDocument e.request.path := keptPath_eq _
  have hsrc : (getFilePosition ((requestedHeader defaultDocument e.request).path.getD [])).src =
      servedPath defaultDocument e.request.path := by
    rw [(getFilePosition_eq _).1, hkept]
  have hname : staticFileName ((requestedHeader defaultDocument e.request).path.getD [])
      rootFolder = some (rootFolder ++ servedPath defaultDocument e.request.path) := by
    rw [staticFileName_eq, hkept, if_neg e.served, lengthWindow_of_short e.short]
  have hopen : openStaticFile files ((requestedHeader defaultDocument e.request).path.getD [])
      rootFolder td.staticFile = ((e.content.length : Int), some { unread := e.content }) := by
    simp only [openStaticFile, hname, e.found]
  simp only [opened, hdefault, hroot, hopen, hsrc]

/-- A connection about to send the file of an exchange. -/
def Exchange.sending (e : Exchange files defaultDocument rootFolder) (td : ThreadData)
    (log : List Event) : Conn where
  td := { td with
    httpHeader := { requestedHeader defaultDocument e.request with
      path := some (servedPath defaultDocument e.request.path) }
    staticFile := some { unread := e.content }
    staticFileSize := e.content.length
    isKeepAlive := true
    isChunkEncoding := isChunkEncoding (fields e.request.header) }
  log := log

theorem Exchange.afterSend_serves (henv : FullWrites env)
    (e : Exchange files defaultDocument rootFolder) (td : ThreadData)
    (hclear : td.responseBuffer = .zero) (hdocument : td.defaultDocument = defaultDocument)
    (hroot : td.rootFolder = rootFolder) (log : List Event) :
    Serves defaultDocument rootFolder log e.text true
      (afterSend (sendStaticData env (e.sending td log))) := by
  have hready : Ready (e.sending td log) e.content := ⟨rfl, rfl, e.fits, hclear⟩
  obtain ⟨events, hlog, hbytes⟩ := acceptedBytes_response henv hready rfl e.readable
  have htransfers := sendStaticData_transfers env (e.sending td log)
  have htd := htransfers.td
  obtain ⟨events', hlog', hquiet⟩ := htransfers.noReads
  obtain rfl : events = events' := List.append_cancel_left (hlog.symm.trans hlog')
  have hanswered : Answered log e.text (sendStaticData env (e.sending td log)).2.log :=
    ⟨events, hlog, hquiet, hbytes⟩
  have hserves := KeepAlive.afterSend_serves (sendStaticData env (e.sending td log)) hanswered
  have hdone := sendStaticData_succeeds henv.noWriteFails (e.sending td log)
  have hsuccess : (sendStaticData env (e.sending td log)).1 ≠ -1 := by omega
  have hsettings : (sendStaticData env (e.sending td log)).2.td.defaultDocument =
        defaultDocument ∧
      (sendStaticData env (e.sending td log)).2.td.rootFolder = rootFolder ∧
      (sendStaticData env (e.sending td log)).2.td.isKeepAlive = true := by
    rw [htd]
    exact ⟨hdocument, hroot, rfl⟩
  rw [hsettings.1, hsettings.2.1, hsettings.2.2, decide_eq_true hsuccess] at hserves
  exact hserves

/-- The answer to the request of an exchange is its response, and the connection
goes on. -/
theorem Exchange.serves (henv : Steadfast env files)
    (e : Exchange files defaultDocument rootFolder) (wasKeepAlive : Bool) (log : List Event) :
    Serves defaultDocument rootFolder (log ++ [.read (some e.request.piece.data.length)]) e.text
      true (serveRead env (.data e.request.piece)
        { td := idle defaultDocument rootFolder wasKeepAlive, log := log }) := by
  have hparse : (fillHttpRequestHeader (requested defaultDocument rootFolder
      e.request.piece).httpHeader ((requested defaultDocument rootFolder
        e.request.piece).requestBuffer.cells ++ (requested defaultDocument rootFolder
          e.request.piece).responseBuffer.cells)) =
      (0, (fillHttpRequestHeader {} e.request.piece.data).2) := by
    rw [fillHttpRequestHeader_requested, e.request.parsed]
  have hopened := e.opened_eq
    { requested defaultDocument rootFolder e.request.piece with isKeepAlive := wasKeepAlive }
    rfl rfl
  have hsize : ¬ (opened files { requested defaultDocument rootFolder e.request.piece with
      isKeepAlive := wasKeepAlive } (fillHttpRequestHeader {}
        e.request.piece.data).2).staticFileSize < 0 := by
    rw [hopened]
    exact Int.not_lt.mpr (Int.natCast_nonneg _)
  obtain ⟨log', hlog, hrequest⟩ := handleRequest_found henv.files
    (c := { td := { requested defaultDocument rootFolder e.request.piece with
              isKeepAlive := wasKeepAlive }
            log := log ++ [.read (some e.request.piece.data.length)] })
    hparse (lt_irrefl 0) hsize
  have hserves := e.afterSend_serves henv.writes
    { requested defaultDocument rootFolder e.request.piece with isKeepAlive := wasKeepAlive }
    rfl rfl rfl log'
  rw [serveRead_piece, hrequest, hopened, respond_options env _ rfl]
  simp only [requestedHeader, Option.elim_some, e.keeps]
  exact hserves.after hlog

theorem acceptedBytes_append (first second : List Event) :
    acceptedBytes (first ++ second) = acceptedBytes first ++ acceptedBytes second := by
  rw [acceptedBytes, acceptedPieces, List.filterMap_append, List.flatten_append]
  rfl

/-- What one pass adds to the stream. -/
theorem Exchange.step (henv : Steadfast env files)
    (e : Exchange files defaultDocument rootFolder) (wasKeepAlive : Bool) (log : List Event) :
    ∃ log', serveRead env (.data e.request.piece)
        { td := idle defaultDocument rootFolder wasKeepAlive, log := log } =
          .loopHead { td := idle defaultDocument rootFolder true, log := log' } ∧
      acceptedBytes log' = acceptedBytes log ++ e.text := by
  obtain ⟨⟨events, hlog, -, hbytes⟩, hends, hflushed⟩ := e.serves henv wasKeepAlive log
  cases hpass : serveRead env (.data e.request.piece)
      { td := idle defaultDocument rootFolder wasKeepAlive, log := log } with
  | loopHead c =>
      rw [hpass] at hlog hflushed
      refine ⟨c.log, ?_, ?_⟩
      · rw [← hflushed rfl]
        rfl
      · rw [show c.log = _ from hlog, acceptedBytes_append, acceptedBytes_append, hbytes,
          List.append_assoc]
        rfl
  | _ =>
      rw [hpass] at hends
      cases hends

/-- What a whole run adds to the stream. -/
theorem serveReads_exchanges (henv : Steadfast env files)
    (exchanges : List (Exchange files defaultDocument rootFolder)) (wasKeepAlive : Bool)
    (log : List Event) :
    ∃ c, serveReads env ((exchanges.map fun e => e.request.piece).map .data)
        { td := idle defaultDocument rootFolder wasKeepAlive, log := log } = .loopHead c ∧
      acceptedBytes c.log = acceptedBytes log ++ exchanges.flatMap Exchange.text := by
  induction exchanges generalizing wasKeepAlive log with
  | nil => exact ⟨_, rfl, (List.append_nil _).symm⟩
  | cons e exchanges ih =>
      obtain ⟨log', hpass, hbytes⟩ := e.step henv wasKeepAlive log
      obtain ⟨c, hrun, hstream⟩ := ih true log'
      refine ⟨c, ?_, ?_⟩
      · rw [List.map_cons, List.map_cons, serveReads, hpass]
        exact hrun
      · rw [hstream, hbytes, List.flatMap_cons, List.append_assoc]

/-- What a connection has sent when all its exchanges are done. -/
theorem connection_stream (henv : Steadfast env files)
    (hinit : serverTlsSessionInit env.sslSetup env.sslHandshake = some 0)
    (exchanges : List (Exchange files defaultDocument rootFolder)) :
    ∃ c, connection env defaultDocument rootFolder (exchanges.map fun e => e.request.piece) =
        .loopHead c ∧
      acceptedBytes c.log = exchanges.flatMap Exchange.text := by
  obtain ⟨c, hrun, hbytes⟩ := serveReads_exchanges henv exchanges false []
  refine ⟨c.emit (.read none), ?_, ?_⟩
  · have hzero : ¬ (0 : Int) = networkError := by decide
    simp only [connection, handleConnection, hinit, if_neg hzero]
    have hidle : ThreadData.fresh defaultDocument rootFolder =
        idle defaultDocument rootFolder false := rfl
    rw [hidle, hrun]
  · rw [Conn.emit, acceptedBytes_append, hbytes]
    exact List.append_nil _

/-- The stream is read back as the replies. -/
theorem readMessages_exchanges (exchanges : List (Exchange files defaultDocument rootFolder)) :
    (readMessages (exchanges.flatMap Exchange.text)).map (List.map Message.reply) =
      some (exchanges.map Exchange.reply) := by
  have hread : ∀ e ∈ exchanges, ∀ rest, readMessage (e.text ++ rest) = some (e.message, rest) :=
    fun e _ rest => readMessage_responseText e.readable rest
  rw [readMessages_flatMap exchanges hread, Option.map_some, List.map_map]
  simp only [Function.comp_def, Exchange.message_reply]

/-- Whatever files a client asks for on one connection, it reads their replies off
the bytes that it receives, in order and nothing else. -/
theorem connection_replies (henv : Steadfast env files)
    (hinit : serverTlsSessionInit env.sslSetup env.sslHandshake = some 0)
    (exchanges : List (Exchange files defaultDocument rootFolder)) :
    ∃ c, connection env defaultDocument rootFolder (exchanges.map fun e => e.request.piece) =
        .loopHead c ∧
      (readMessages (acceptedBytes c.log)).map (List.map Message.reply) =
        some (exchanges.map Exchange.reply) := by
  obtain ⟨c, hrun, hstream⟩ := connection_stream henv hinit exchanges
  refine ⟨c, hrun, ?_⟩
  rw [hstream]
  exact readMessages_exchanges exchanges

end Runs

def helloFiles : Bytes → Option FileImage := fun _ => some ⟨bytes "hello", 5⟩

/-- The default document with a length. -/
def indexExchange : Exchange helloFiles (bytes "index.html") (bytes "root") where
  request :=
    { path := bytes "/"
      header := bytes "Connection: keep-alive"
      isPlain := by constructor <;> decide
      isHeaderText := by constructor <;> decide
      fits := by decide }
  content := bytes "hello"
  served := by decide
  short := by decide
  found := rfl
  fits := by decide
  keeps := by decide
  readable := by
    intro h
    revert h
    decide

/-- A file in chunks. -/
def chunkedExchange : Exchange helloFiles (bytes "index.html") (bytes "root") where
  request :=
    { path := bytes "/a.css"
      header := bytes "Connection: Keep-Alive\r\nAccept-Encoding: chunked"
      isPlain := by constructor <;> decide
      isHeaderText := by constructor <;> decide
      fits := by decide }
  content := bytes "hello"
  served := by decide
  short := by decide
  found := rfl
  fits := by decide
  keeps := by decide
  readable := fun _ => by decide +kernel

theorem connection_replies_hello :
    ∃ c, connection (Env.steady helloFiles) (bytes "index.html") (bytes "root")
        ([indexExchange, chunkedExchange].map fun e => e.request.piece) = .loopHead c ∧
      (readMessages (acceptedBytes c.log)).map (List.map Message.reply) =
        some ([indexExchange, chunkedExchange].map Exchange.reply) :=
  connection_replies (Env.steady_steadfast _) rfl _

end HttpsServ.Conversation
