import HttpsServ.HttpParser
import HttpsServ.TlsAdapter
import HttpsServ.Library.Chunked

/-!
# http.c

A connection is its `ThreadData` and the log of the calls it has made on the
outside world. The environment answers each call from the log so far, so every
sequence of results is the behaviour of some environment. Dereferencing `NULL`
ends a connection as crashed.
-/

namespace HttpsServ.Http

open ByteString Utility Numeral HttpParser TlsAdapter

def maxChunkSize : Nat := 8192
def sizeofCrlf : Int := 2
def sizeofTwoCrlf : Int := sizeofCrlf * 2
def httpVersion : Bytes := bytes "HTTP/1.1"
def loggerFilename : Bytes := bytes "log.txt"

/-- A `char[MAX_CHUNK_SIZE]`. -/
structure Buffer where
  cells : Bytes
  size : cells.length = maxChunkSize

def Buffer.zero : Buffer := ⟨List.replicate maxChunkSize 0, List.length_replicate⟩

/-- Store bytes into a buffer; what falls behind its end is dropped. -/
def Buffer.store (b : Buffer) (off : Nat) (data : Bytes) : Buffer :=
  ⟨overwrite b.cells off data, (length_overwrite _ _ _).trans b.size⟩

/-- `struct ThreadData` without the handles of the TLS library. -/
structure ThreadData where
  requestBuffer : Buffer
  responseBuffer : Buffer
  httpHeader : HttpRequestHeader
  staticFile : Option OpenFile
  staticFileSize : Int
  defaultDocument : Bytes
  rootFolder : Bytes
  isKeepAlive : Bool
  isChunkEncoding : Bool

/-- The zeroed `ThreadData` that `RunServer` fills for a new connection. -/
def ThreadData.fresh (defaultDocument rootFolder : Bytes) : ThreadData where
  requestBuffer := .zero
  responseBuffer := .zero
  httpHeader := {}
  staticFile := none
  staticFileSize := 0
  defaultDocument := defaultDocument
  rootFolder := rootFolder
  isKeepAlive := false
  isChunkEncoding := false

/-- The places that call `mbedtls_ssl_write`. A terminator is marked with the
`isKeepAlive` of the connection that sends it. -/
inductive WriteSite
  | header
  | body
  | terminator (isKeepAlive : Bool)
  | trailer
  | error
  | close
  deriving DecidableEq

inductive Event
  /-- `mbedtls_ssl_read`, with its result once it has returned. -/
  | read (result : Option Int)
  /-- `FillHttpRequestHeader` on the request buffer. -/
  | parse
  | logMessage (filename message : Bytes)
  | logPerror (message : Bytes)
  | logPrintf (message : Bytes)
  | fopen (name : Bytes) (opened : Bool)
  /-- `ComputeChunkEncodingData` with the values of its integer arguments. -/
  | chunkCall (totalDataSize maxChunkSize : Int)
  | fread (offset : Nat) (slice : Bytes)
  | write (site : WriteSite) (buffer : Bytes) (result : Int)
  | fclose
  | netFree
  | closeNotify
  | sslFree
  | freeThreadData
  deriving DecidableEq

/-- The outside world of one connection. -/
structure Env where
  sslSetup : Int
  sslHandshake : List Int
  sslWrite : List Event → Bytes → Int
  fopen : List Event → Bytes → Option FileImage
  logTime : List Event → Bytes

/-- A peer that completes the handshake and takes every write whole, over files
that do not change. -/
def Env.steady (files : Bytes → Option FileImage) : Env where
  sslSetup := 0
  sslHandshake := [0]
  sslWrite := fun _ buffer => buffer.length
  fopen := fun _ => files
  logTime := fun _ => bytes "00:00:00"

structure Conn where
  td : ThreadData
  log : List Event

def Conn.emit (c : Conn) (e : Event) : Conn := { c with log := c.log ++ [e] }

/-- `mbedtls_ssl_write`. -/
def sslWrite (env : Env) (site : WriteSite) (buffer : Bytes) (c : Conn) : Int × Conn :=
  let ret := env.sslWrite c.log buffer
  (ret, c.emit (.write site buffer ret))

/-- The `memcpy` of `SendHttpHeader`, when there is something to append. -/
def appendPayload (payload : Bytes) (offset : Int) (appendData : Option Bytes)
    (dataSize : Int) : Bytes :=
  match appendData with
  | some data =>
      if dataSize ≠ 0 then overwrite payload offset.toNat (data.take dataSize.toNat)
      else payload
  | none => payload

/-- `SendHttpHeader`: its result, the header it leaves, the connection. The
cells of the payload block that nothing stores into are shown as zero. -/
def sendHttpHeader (env : Env) (site : WriteSite) (resp : HttpResponseHeader)
    (appendData : Option Bytes) (dataSize : Int) (c : Conn) :
    Int × HttpResponseHeader × Conn :=
  let resp := { resp with totalByteLength := toInt32 (resp.totalByteLength + dataSize) }
  let restored :=
    { resp with totalByteLength := toInt32 (resp.totalByteLength - dataSize) }
  if (maxChunkSize : Int) < resp.totalByteLength then (networkError, restored, c)
  else
    let header := (responseToBuff resp).getD []
    let payload := overwrite (List.replicate resp.totalByteLength.toNat 0) 0 (header ++ [0])
    let payload :=
      appendPayload payload (resp.totalByteLength - dataSize - 1) appendData dataSize
    let (ret, c) := sslWrite env site (payload.take (resp.totalByteLength - 1).toNat) c
    if ret < 0 then (networkError, restored, c) else (0, restored, c)

/-- What `ComputeChunkEncodingData` assigns and the blocks it stores. -/
structure ChunkLayout where
  sizeOfChunkedDelim : Int
  sizeThatShouldBeReaded : Int
  totalDataSize : Int
  stores : List (Nat × Bytes)

def computeChunkEncodingData (totalDataSize maxChunkSize : Int) : ChunkLayout :=
  let saturatedSize := saturateValue totalDataSize maxChunkSize
  let sizeOfChunkedDelim := sizeofTwoCrlf +
    powerOfHex (saturatedSize - sizeofTwoCrlf + powerOfHex saturatedSize)
  let sizeThatShouldBeReaded :=
    saturateValue saturatedSize (maxChunkSize - sizeOfChunkedDelim)
  let width := (sizeOfChunkedDelim - sizeofTwoCrlf).toNat
  { sizeOfChunkedDelim := sizeOfChunkedDelim
    sizeThatShouldBeReaded := sizeThatShouldBeReaded
    totalDataSize := totalDataSize - sizeThatShouldBeReaded
    stores :=
      [(0, (hexNumeral sizeThatShouldBeReaded.toNat).take width ++ [0]),
       (width, crlf),
       ((sizeOfChunkedDelim - sizeofCrlf + sizeThatShouldBeReaded).toNat, crlf ++ [0])] }

/-- Store a list of blocks one after the other. -/
def Buffer.storeAll (b : Buffer) (stores : List (Nat × Bytes)) : Buffer :=
  stores.foldl (fun b block => b.store block.1 block.2) b

/-- `fread` from the static file into the response buffer. -/
def freadResponse (offset : Nat) (size : Int) (c : Conn) : Int × Conn :=
  let unread := (c.td.staticFile.elim [] OpenFile.unread)
  let slice := unread.take size.toNat
  let td := { c.td with
    responseBuffer := c.td.responseBuffer.store offset slice
    staticFile := c.td.staticFile.map fun _ => { unread := unread.drop size.toNat } }
  (slice.length, { c with td := td }.emit (.fread offset slice))

/-- The local variables of `SendStaticData` that its loop works on. -/
structure Sending where
  sizeOfChunkedDelim : Int
  sizeThatShouldBeReaded : Int
  totalDataSize : Int
  amountOfData : Int
  conn : Conn

/-- `ComputeChunkEncodingData` on the variables and the response buffer. -/
def Sending.computeChunk (s : Sending) (maxChunkSize : Int) : Sending :=
  let layout := computeChunkEncodingData s.totalDataSize maxChunkSize
  let td := { s.conn.td with
    responseBuffer := s.conn.td.responseBuffer.storeAll layout.stores }
  { s with
    sizeOfChunkedDelim := layout.sizeOfChunkedDelim
    sizeThatShouldBeReaded := layout.sizeThatShouldBeReaded
    totalDataSize := layout.totalDataSize
    conn := { s.conn with td := td }.emit (.chunkCall s.totalDataSize maxChunkSize) }

/-- `fread` behind the size line, or at the start when there is none. -/
def Sending.readSlice (s : Sending) : Sending :=
  let offset := saturateValue (s.sizeOfChunkedDelim - sizeofCrlf) s.sizeOfChunkedDelim
  let (amount, c) := freadResponse offset.toNat s.sizeThatShouldBeReaded s.conn
  { s with amountOfData := amount, conn := c }

/-- The loop body of `SendStaticData` up to the write. -/
def Sending.nextSlice (s : Sending) : Sending :=
  (if s.conn.td.isChunkEncoding then s.computeChunk maxChunkSize else s).readSlice

def Sending.unread (s : Sending) : Bytes := s.conn.td.staticFile.elim [] OpenFile.unread

theorem Sending.readSlice_unread (s : Sending) :
    s.readSlice.unread = s.unread.drop s.sizeThatShouldBeReaded.toNat ∧
      s.readSlice.amountOfData = (s.unread.take s.sizeThatShouldBeReaded.toNat).length := by
  refine ⟨?_, rfl⟩
  cases h : s.conn.td.staticFile <;>
    simp [Sending.readSlice, freadResponse, Sending.unread, Conn.emit, h]

/-- A slice that is not empty brings the end of the file closer. -/
theorem Sending.nextSlice_unread_lt (s : Sending) (h : s.nextSlice.amountOfData ≠ 0) :
    s.nextSlice.unread.length < s.unread.length := by
  have hkeep : (if s.conn.td.isChunkEncoding then s.computeChunk maxChunkSize
      else s).unread = s.unread := by
    split <;> rfl
  simp only [Sending.nextSlice] at h ⊢
  rw [(Sending.readSlice_unread _).2, hkeep, List.length_take] at h
  rw [(Sending.readSlice_unread _).1, hkeep, List.length_drop]
  omega

/-- `memset(thread_data->response_buffer, 0, MAX_CHUNK_SIZE)`. -/
def Conn.clearResponse (c : Conn) : Conn :=
  { c with td := { c.td with responseBuffer := .zero } }

/-- The write of the loop body: the slice with its chunk frame. -/
def Sending.writeSlice (env : Env) (s : Sending) : Int × Conn :=
  sslWrite env .body
    (s.conn.td.responseBuffer.cells.take (s.amountOfData + s.sizeOfChunkedDelim).toNat) s.conn

/-- The `do ... while (amount_of_data)` loop of `SendStaticData`. -/
def sendLoop (env : Env) (s : Sending) : Int × Conn :=
  if (s.nextSlice.writeSlice env).1 < 0 then
    (networkError, (s.nextSlice.writeSlice env).2)
  else if _h : s.nextSlice.amountOfData = 0 then
    (0, (s.nextSlice.writeSlice env).2.clearResponse)
  else
    sendLoop env
      { s.nextSlice with conn := (s.nextSlice.writeSlice env).2.clearResponse }
termination_by s.unread.length
decreasing_by exact s.nextSlice_unread_lt _h

theorem sendLoop_of_failed {env : Env} {s : Sending}
    (hfailed : (s.nextSlice.writeSlice env).1 < 0) :
    sendLoop env s = (networkError, (s.nextSlice.writeSlice env).2) := by
  rw [sendLoop, if_pos hfailed]

theorem sendLoop_of_empty {env : Env} {s : Sending}
    (hwrite : ¬ (s.nextSlice.writeSlice env).1 < 0) (hempty : s.nextSlice.amountOfData = 0) :
    sendLoop env s = (0, (s.nextSlice.writeSlice env).2.clearResponse) := by
  rw [sendLoop, if_neg hwrite, dif_pos hempty]

theorem sendLoop_of_more {env : Env} {s : Sending}
    (hwrite : ¬ (s.nextSlice.writeSlice env).1 < 0) (hmore : s.nextSlice.amountOfData ≠ 0) :
    sendLoop env s = sendLoop env
      { s.nextSlice with conn := (s.nextSlice.writeSlice env).2.clearResponse } := by
  rw [sendLoop, if_neg hwrite, dif_neg hmore]

/-- The header that `SendStaticData` builds before it knows the encoding. -/
def staticDataHeader (path : Bytes) (isKeepAlive : Bool) : HttpResponseHeader :=
  let resp := setResponseStatusLine {} httpVersion (bytes "200") (bytes "OK")
  let resp := setResponseContentType resp path
  let resp := setResponseProperty resp (bytes "Server: IhorWebServer_2004\r\n")
  if isKeepAlive then setResponseProperty resp (bytes "Connection: Keep-Alive\r\n")
  else setResponseProperty resp (bytes "Connection: close\r\n")

/-- `SendStaticData` up to the loop, in the chunked case: the header, and the
variables after the first slice is in the buffer. -/
def beginChunked (resp : HttpResponseHeader) (c : Conn) : HttpResponseHeader × Sending :=
  let resp := setResponseProperty resp (bytes "Transfer-Encoding: chunked\r\n")
  let s : Sending :=
    { sizeOfChunkedDelim := 0
      sizeThatShouldBeReaded := maxChunkSize
      totalDataSize := toInt32 c.td.staticFileSize
      amountOfData := 0
      conn := c }
  (resp, (s.computeChunk (maxChunkSize - resp.totalByteLength)).readSlice)

/-- The same in the identity case. -/
def beginIdentity (resp : HttpResponseHeader) (c : Conn) : HttpResponseHeader × Sending :=
  let resp := setResponseContentLength resp (toInt32 c.td.staticFileSize)
  let (amount, conn) := freadResponse (cstr c.td.responseBuffer.cells).length
    (maxChunkSize - resp.totalByteLength) c
  (resp,
    { sizeOfChunkedDelim := 0
      sizeThatShouldBeReaded := maxChunkSize
      totalDataSize := toInt32 c.td.staticFileSize
      amountOfData := amount
      conn := conn })

/-- `SendStaticData` up to the header write. -/
def beginStatic (c : Conn) : HttpResponseHeader × Sending :=
  let resp := staticDataHeader (c.td.httpHeader.path.getD []) c.td.isKeepAlive
  if c.td.isChunkEncoding then beginChunked resp c else beginIdentity resp c

/-- `SendStaticData` behind its loop, on the loop's result. -/
def finishStatic (env : Env) (resp : HttpResponseHeader) (looped : Int × Conn) : Int × Conn :=
  if looped.1 < 0 then (networkError, looped.2)
  else if looped.2.td.isChunkEncoding then
    (0, (sslWrite env (.terminator looped.2.td.isKeepAlive) (bytes "0\r\n\r\n") looped.2).2)
  else if !looped.2.td.isKeepAlive then
    (0, (sendHttpHeader env .trailer (setResponseProperty resp (bytes "Connection: close\r\n"))
      none 0 looped.2).2.2)
  else (0, looped.2)

def sendStaticData (env : Env) (c : Conn) : Int × Conn :=
  let begun := beginStatic c
  let s := begun.2
  -- the result of the header write is not looked at
  let sent := (sendHttpHeader env .header begun.1 (some s.conn.td.responseBuffer.cells)
    (s.amountOfData + s.sizeOfChunkedDelim) s.conn).2
  finishStatic env sent.1
    (if s.totalDataSize > 0 then sendLoop env { s with conn := sent.2 } else (0, sent.2))

/-- The entry of `kErrorDescriptions` that the loop of `HandleError` picks. -/
def findErrorDescription (errorCode : Int) : Option ErrorDescription :=
  kErrorDescriptions[errorCode.natAbs]?

/-- The header that `HandleError` builds for a description. -/
def errorHeader (description : ErrorDescription) : HttpResponseHeader :=
  let resp := setResponseStatusLine {} httpVersion description.errorCode
    description.errorStatus
  let resp := setResponseProperty resp (bytes "Content-Type: text/plain\r\n")
  setResponseProperty resp (bytes "Connection: close\r\n")

/-- `HandleError`; `none` when no description fits, where it copies from `NULL`. -/
def handleError (env : Env) (errorCode : Int) (problemName : Bytes) (c : Conn) :
    Option Conn :=
  match findErrorDescription errorCode with
  | none => none
  | some description =>
      let errorPayload := problemName ++ bytes " " ++ description.errorStatus
      match responseToBuff (errorHeader description) with
      | none => none
      | some headerBuff =>
          let responseBuffer :=
            c.td.responseBuffer.store 0 (headerBuff ++ errorPayload ++ [0])
          let c := { c with td := { c.td with responseBuffer := responseBuffer } }
          some (sslWrite env .error
            (c.td.requestBuffer.cells.take (cstr c.td.responseBuffer.cells).length) c).2

/-- `ServerTlsSessionFree`. -/
def serverTlsSessionFree (c : Conn) : Conn :=
  ((c.emit .netFree).emit .closeNotify).emit .sslFree

def freeThreadData (c : Conn) : Conn :=
  let c := if c.td.staticFile.isSome then c.emit .fclose else c
  let c := serverTlsSessionFree c
  let c := { c with td := { c.td with httpHeader := freeHttpRequestHeader c.td.httpHeader } }
  c.emit .freeThreadData

def flushThreadData (c : Conn) : Conn :=
  let td := { c.td with
    requestBuffer := .zero
    responseBuffer := .zero
    staticFile := none
    staticFileSize := 0
    isChunkEncoding := false
    httpHeader := freeHttpRequestHeader c.td.httpHeader }
  { c.emit .fclose with td := td }

def closeConnection (env : Env) (c : Conn) : Conn :=
  let resp := setResponseStatusLine {} httpVersion (bytes "200") (bytes "OK")
  let resp := setResponseProperty resp (bytes "Connection: close\r\n")
  let resp := setResponseProperty resp (bytes "Content-Length: 0\r\n")
  (sendHttpHeader env .close resp (some c.td.responseBuffer.cells)
    (toInt32 c.td.staticFileSize) c).2.2

def setDefaultDocument (header : HttpRequestHeader) (defaultDocument : Bytes) :
    HttpRequestHeader :=
  if header.path = some (bytes "/") then
    { header with path := some (bytes "/" ++ defaultDocument) }
  else header

def logHttpRequestHeader (env : Env) (c : Conn) : Conn :=
  c.emit (.logMessage loggerFilename (env.logTime c.log ++ bytes " " ++
    c.td.httpHeader.method.getD [] ++ bytes " " ++ c.td.httpHeader.path.getD [] ++
    bytes "\n"))

/-- Where one pass through the loop of `HandleConnection` ends. -/
inductive Outcome
  /-- `ServerTlsSessionInit` is still waiting for the peer. -/
  | handshake (c : Conn)
  /-- At the head of the loop. -/
  | loopHead (c : Conn)
  | returned (c : Conn)
  | crashed (c : Conn)

def Outcome.conn : Outcome → Conn
  | .handshake c | .loopHead c | .returned c | .crashed c => c

/-- The bytes of one successful read. -/
structure Piece where
  data : Bytes
  nonempty : data ≠ []
  fits : data.length ≤ maxChunkSize

/-- A result of `mbedtls_ssl_read`: a positive count with its bytes, or a code. -/
inductive ReadResult
  | data (piece : Piece)
  | code (value : Int) (nonpos : value ≤ 0)

def ReadResult.value : ReadResult → Int
  | .data piece => piece.data.length
  | .code value _ => value

/-- `mbedtls_ssl_read` into the request buffer. -/
def sslRead (r : ReadResult) (c : Conn) : Conn :=
  let requestBuffer :=
    match r with
    | .data piece => c.td.requestBuffer.store 0 piece.data
    | .code _ _ => c.td.requestBuffer
  { c with td := { c.td with requestBuffer := requestBuffer } }.emit (.read (some r.value))

/-- An exit of the loop through `HandleError`. -/
def failRequest (env : Env) (errorCode : Int) (problemName : Bytes) (c : Conn) : Outcome :=
  match handleError env errorCode problemName c with
  | none => .crashed c
  | some c => .returned (freeThreadData c)

/-- The loop body after the file is open: the flags, the response, the end. -/
def respond (env : Env) (c : Conn) : Outcome :=
  match c.td.httpHeader.body with
  | none => .crashed c
  | some body =>
      let isKeepAlive := (stristr body (bytes "Keep-Alive")).isSome
      let isChunkEncoding :=
        match stristr body (bytes "Accept-Encoding: ") with
        | some acceptEncoding => (stristr acceptEncoding (bytes "chunked")).isSome
        | none => c.td.isChunkEncoding
      let td := { c.td with isKeepAlive := isKeepAlive, isChunkEncoding := isChunkEncoding }
      let (ret, c) := sendStaticData env { c with td := td }
      if ret = -1 then
        .returned (freeThreadData (c.emit (.logPerror (bytes "server send error"))))
      else if c.td.isKeepAlive then .loopHead (flushThreadData c)
      else .returned (freeThreadData c)

/-- `OpenStaticFile` on the path of the request, which it sanitizes in place. -/
def openRequestedFile (env : Env) (c : Conn) : Conn :=
  let path := c.td.httpHeader.path.getD []
  let (size, file) :=
    openStaticFile (env.fopen c.log) path c.td.rootFolder c.td.staticFile
  let td := { c.td with
    httpHeader := { c.td.httpHeader with path := some (getFilePosition path).src }
    staticFile := file
    staticFileSize := size }
  match staticFileName path c.td.rootFolder with
  | none => { c with td := td }
  | some name => { c with td := td }.emit (.fopen name file.isSome)

/-- The loop body after the read: parse, open the file, answer. -/
def handleRequest (env : Env) (c : Conn) : Outcome :=
  -- the strings of the request buffer run on into the response buffer behind it
  let (ret, header) := fillHttpRequestHeader c.td.httpHeader
    (c.td.requestBuffer.cells ++ c.td.responseBuffer.cells)
  let c := { c with td := { c.td with httpHeader := header } }.emit .parse
  if ret < 0 then failRequest env ret (bytes "Your request") c
  else
    let header := setDefaultDocument c.td.httpHeader c.td.defaultDocument
    let c := logHttpRequestHeader env { c with td := { c.td with httpHeader := header } }
    let c := openRequestedFile env c
    if c.td.staticFileSize < 0 then
      failRequest env (toInt32 c.td.staticFileSize) (c.td.httpHeader.path.getD []) c
    else respond env c

/-- One pass through the loop of `HandleConnection`. -/
def serveRead (env : Env) (r : ReadResult) (c : Conn) : Outcome :=
  let c := sslRead r c
  if r.value = otherError then
    .returned (freeThreadData (c.emit (.logPerror (bytes "server recv error"))))
  else if r.value = 0 then
    .returned (freeThreadData (if c.td.isKeepAlive then closeConnection env c else c))
  else handleRequest env c

/-- The loop of `HandleConnection` on the results of its reads. -/
def serveReads (env : Env) : List ReadResult → Conn → Outcome
  | [], c => .loopHead c
  | r :: reads, c =>
      match serveRead env r c with
      | .loopHead c => serveReads env reads c
      | outcome => outcome

/-- `HandleConnection`. When the given reads are used up at the head of the
loop, the next read has been called and has not returned. -/
def handleConnection (env : Env) (reads : List ReadResult) (td : ThreadData) : Outcome :=
  let c : Conn := { td := td, log := [] }
  match serverTlsSessionInit env.sslSetup env.sslHandshake with
  | none => .handshake c
  | some ret =>
      if ret = networkError then
        .returned (freeThreadData (c.emit (.logPrintf (bytes "server session init error\n"))))
      else
        match serveReads env reads c with
        | .loopHead c => .loopHead (c.emit (.read none))
        | outcome => outcome

end HttpsServ.Http
