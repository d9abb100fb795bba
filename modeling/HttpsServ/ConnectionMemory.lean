import HttpsServ.ResourceBalance
import HttpsServ.RequestMemory
import HttpsServ.SendMemory

/-!
# The memory of a connection

`HandleConnection` with every block that it takes, fills and gives back, from the
three blocks that `RunServer` hands over to their release. The strings of the
request are read from their blocks. A run does what the run on values does, but a
request that is refused behind its blank line frees a pointer that has been moved, one
that needs a full chunk of the loop stores behind the response buffer, and one with
another method keeps the working copy.
-/

namespace HttpsServ.ConnectionMemory

open ByteString Utility TlsAdapter Http Transport StaticTransfer KeepAlive ReadBoundaries
  ErrorResponse RequestWords RequestGrammar PathContainment PathSanitizer ConnectionEnd
  ResourceBalance HeapProgram ResponseMemory SendMemory
open ChunkBounds (StaysInside)
open HttpParser (HttpRequestHeader maxUrlSize httpHeadCount isHeadDelim)
open RequestMemory (strtokAt tokenLoop)

/-- `struct HttpRequestHeader`; a pointer is the address of its block. -/
structure HeldRequest where
  method : Option Nat := none
  path : Option Nat := none
  version : Option Nat := none
  body : Option Nat := none

/-- The blocks of a `ThreadData`. -/
structure HeldData where
  threadData : Nat
  rootFolder : Option Nat
  defaultDocument : Option Nat
  httpHeader : HeldRequest

def freeHttpRequestHeader (header : HeldRequest) : Program HeldRequest := do
  freeNullable header.method
  freeNullable header.path
  freeNullable header.version
  freeNullable header.body
  pure {}

/-- The token loop of `FillHttpRequestHeader`: the copies, unless it gives up, and the
place that `http_header_raw` points to afterwards. -/
def copyTokens (raw : Bytes) : Nat → Nat → Program (Option (List Nat) × Nat)
  | 0, cursor => pure (some [], cursor)
  | count + 1, cursor =>
      match strtokAt isHeadDelim raw cursor with
      | (none, cursor) => pure (none, cursor)
      | (some token, cursor) =>
          if token.length > maxUrlSize then pure (none, cursor)
          else do
            let copy ← mallocChars (token.length + 1)
            strcpy copy token
            let (copies, cursor) ← copyTokens raw count cursor
            pure (copies.map (copy :: ·), cursor)

/-- The end of `FillHttpRequestHeader`, for a request that is supported. -/
def copyBody (header : HeldRequest) (httpHeaderRaw : Nat) (rest : Bytes) :
    Program (Int × HeldRequest) :=
  match firstOccurrence (bytes "\n") rest with
  | some bodyStart => do
      let text := rest.drop (bodyStart + 1)
      let body ← mallocChars (text.length + 1)
      strcpy body text
      free httpHeaderRaw
      pure (0, { header with body := some body })
  | none => do
      free httpHeaderRaw
      pure (0, { header with body := none })

/-- The working copy: `strncpy` copies one character more, and a zero takes its place. -/
def copyHead (buffer : Bytes) (httpHeaderLength : Nat) : Program Nat := do
  let httpHeaderRaw ← mallocChars (httpHeaderLength + 1)
  memcpy httpHeaderRaw 0 ((cstr buffer ++ [0]).take (httpHeaderLength + 1))
  memcpy httpHeaderRaw httpHeaderLength [0]
  pure httpHeaderRaw

/-- `FillHttpRequestHeader` behind its token loop, which has left the working copy at
a cursor. -/
def storeTokens (header : HeldRequest) (httpHeaderRaw : Nat) (raw : Bytes) (cursor : Nat) :
    Option (List Nat) → Program (Int × HeldRequest)
  | some [method, path, version] => do
      let header := { header with
        method := some method, path := some path, version := some version }
      let name ← loadText method
      if (stristr name (bytes "GET")).isNone then pure (kNotImplemented, header)
      else copyBody header httpHeaderRaw (raw.drop cursor)
  | _ => do
      freeAt httpHeaderRaw cursor
      let header ← freeHttpRequestHeader header
      pure (kBadRequest, header)

def fillHttpRequestHeader (header : HeldRequest) (buffer : Bytes) :
    Program (Int × HeldRequest) :=
  let httpHeaderLength := getKeywordIndex (cstr buffer) (bytes "\r\n\r\n")
  if httpHeaderLength = otherError then pure (kBadRequest, header)
  else do
    let httpHeaderRaw ← copyHead buffer httpHeaderLength.toNat
    let raw ← loadText httpHeaderRaw
    let (copies, cursor) ← copyTokens raw httpHeadCount 0
    storeTokens header httpHeaderRaw raw cursor copies

/-- A string of the header as it stands in its block. -/
def loadNullable : Option Nat → Program (Option Bytes)
  | none => pure none
  | some address => do
      let text ← loadText address
      pure (some text)

/-- The connection, with the strings that its pointers lead to. -/
def view (header : HeldRequest) (c : Conn) : Program Conn := do
  let method ← loadNullable header.method
  let path ← loadNullable header.path
  let version ← loadNullable header.version
  let body ← loadNullable header.body
  pure { c with td := { c.td with
    httpHeader := { method := method, path := path, version := version, body := body } } }

def setDefaultDocument (header : HeldRequest) (defaultDocument : Option Nat) :
    Program HeldRequest := do
  let path ← deref header.path
  let text ← loadText path
  if text = bytes "/" then do
    free path
    let document ← deref defaultDocument
    let name ← loadText document
    let path ← mallocChars (name.length + 2)
    strcpy path (bytes "/")
    strcat path name
    pure { header with path := some path }
  else pure header

def logHttpRequestHeader (env : Env) (header : HeldRequest) (c : Conn) : Program Conn := do
  let t ← malloc .object
  let logTime := env.logTime c.log
  let methodCopy ← deref header.method
  let method ← loadText methodCopy
  let pathCopy ← deref header.path
  let path ← loadText pathCopy
  let logData ← mallocChars (logTime.length + method.length + path.length + 4)
  free t
  strcpy logData logTime
  strcat logData (bytes " ")
  strcat logData method
  strcat logData (bytes " ")
  strcat logData path
  strcat logData (bytes "\n")
  let message ← loadText logData
  free logData
  pure (c.emit (.logMessage loggerFilename message))

/-- `OpenStaticFile` on the path of the request, which it sanitizes in its block. -/
def openRequestedFile (env : Env) (held : HeldData) (c : Conn) : Program Conn := do
  let pathCopy ← deref held.httpHeader.path
  let path ← loadText pathCopy
  let scanned := getFilePosition path
  strcpy pathCopy scanned.src
  let header := { c.td.httpHeader with path := some scanned.src }
  if scanned.position = 0 then
    pure { c with td := { c.td with httpHeader := header, staticFileSize := kBadRequest } }
  else do
    let start := scanned.position >>> 16
    let length := (intMax >>> 16) &&& scanned.position
    let rootFolder ← deref held.rootFolder
    let staticFileDir ← loadText rootFolder
    let filename ← mallocChars (staticFileDir.length + length + 1)
    strcpy filename staticFileDir
    strcat filename ((scanned.src.drop start).take (length + 1))
    let name ← loadText filename
    let opened := env.fopen c.log name
    free filename
    let td := { c.td with
      httpHeader := header
      staticFile := opened.map fun image => { unread := image.content }
      staticFileSize := opened.elim kNotFound FileImage.size }
    pure ({ c with td := td }.emit (.fopen name opened.isSome))

/-- Where one pass through the loop of `HandleConnection` ends, with the blocks that are
still held. -/
inductive HeldOutcome
  | handshake (held : HeldData) (c : Conn)
  | loopHead (held : HeldData) (c : Conn)
  | returned (c : Conn)

def HeldOutcome.value : HeldOutcome → Outcome
  | .handshake _ c => .handshake c
  | .loopHead _ c => .loopHead c
  | .returned c => .returned c

def freeThreadData (held : HeldData) (c : Conn) : Program HeldOutcome := do
  freeNullable held.rootFolder
  freeNullable held.defaultDocument
  let _ ← freeHttpRequestHeader held.httpHeader
  free held.threadData
  pure (.returned (Http.freeThreadData c))

def flushThreadData (held : HeldData) (c : Conn) : Program HeldOutcome := do
  let header ← freeHttpRequestHeader held.httpHeader
  pure (.loopHead { held with httpHeader := header } (Http.flushThreadData c))

def failRequest (env : Env) (errorCode : Int) (problemName : Bytes) (held : HeldData)
    (c : Conn) : Program HeldOutcome := do
  let c ← SendMemory.handleError env errorCode problemName c
  freeThreadData held c

/-- The loop body behind `SendStaticData`. -/
def afterSend (held : HeldData) (sent : Int × Conn) : Program HeldOutcome :=
  if sent.1 = -1 then freeThreadData held (sent.2.emit (.logPerror (bytes "server send error")))
  else if sent.2.td.isKeepAlive then flushThreadData held sent.2
  else freeThreadData held sent.2

/-- What `SendStaticData` finds: the flags are those of the request's body. -/
def answering (body : Bytes) (td : ThreadData) : ThreadData :=
  { td with
    isKeepAlive := (stristr body (bytes "Keep-Alive")).isSome
    isChunkEncoding :=
      match stristr body (bytes "Accept-Encoding: ") with
      | some acceptEncoding => (stristr acceptEncoding (bytes "chunked")).isSome
      | none => td.isChunkEncoding }

/-- The loop body after the file is open. -/
def respond (env : Env) (held : HeldData) (c : Conn) : Program HeldOutcome := do
  let bodyCopy ← deref held.httpHeader.body
  let body ← loadText bodyCopy
  let sent ← SendMemory.sendStaticData env { c with td := answering body c.td }
  afterSend held sent

/-- The loop body between the parser and the file's size. -/
def openAccepted (env : Env) (held : HeldData) (c : Conn) : Program (HeldData × Conn) := do
  let header ← setDefaultDocument held.httpHeader held.defaultDocument
  let held := { held with httpHeader := header }
  let c ← view header c
  let c ← logHttpRequestHeader env header c
  let c ← openRequestedFile env held c
  pure (held, c)

/-- The call of the parser in the loop body. -/
def parseRequest (held : HeldData) (c : Conn) : Program (Int × HeldData × Conn) := do
  let (ret, header) ← fillHttpRequestHeader held.httpHeader
    (c.td.requestBuffer.cells ++ c.td.responseBuffer.cells)
  let c ← view header c
  pure (ret, { held with httpHeader := header }, c.emit .parse)

/-- The loop body after the read. -/
def handleRequest (env : Env) (held : HeldData) (c : Conn) : Program HeldOutcome := do
  let (ret, held, c) ← parseRequest held c
  if ret < 0 then failRequest env ret (bytes "Your request") held c
  else do
    let (held, c) ← openAccepted env held c
    if c.td.staticFileSize < 0 then
      failRequest env (toInt32 c.td.staticFileSize) (c.td.httpHeader.path.getD []) held c
    else respond env held c

def serveRead (env : Env) (r : ReadResult) (held : HeldData) (c : Conn) : Program HeldOutcome :=
  let c := sslRead r c
  if r.value = otherError then
    freeThreadData held (c.emit (.logPerror (bytes "server recv error")))
  else if r.value = 0 then
    if c.td.isKeepAlive then do
      let c ← SendMemory.closeConnection env c
      freeThreadData held c
    else freeThreadData held c
  else handleRequest env held c

def serveReads (env : Env) : List ReadResult → HeldData → Conn → Program HeldOutcome
  | [], held, c => pure (.loopHead held c)
  | r :: reads, held, c => do
      match ← serveRead env r held c with
      | .loopHead held c => serveReads env reads held c
      | outcome => pure outcome

/-- `ServerTlsSessionInit`, with the block for the text of an error. -/
def sessionInit (env : Env) : Program (Option Int) :=
  match serverTlsSessionInit env.sslSetup env.sslHandshake with
  | none => pure none
  | some ret =>
      if ret = networkError then do
        let errorString ← malloc .object
        free errorString
        pure (some ret)
      else pure (some ret)

def handleConnection (env : Env) (reads : List ReadResult) (held : HeldData) (td : ThreadData) :
    Program HeldOutcome := do
  let c : Conn := { td := td, log := [] }
  match ← sessionInit env with
  | none => pure (.handshake held c)
  | some ret =>
      if ret = networkError then
        freeThreadData held (c.emit (.logPrintf (bytes "server session init error\n")))
      else
        match ← serveReads env reads held c with
        | .loopHead held c => pure (.loopHead held (c.emit (.read none)))
        | outcome => pure outcome

/-- The part of `RunServer` that fills the data of an accepted connection. -/
def newThreadData (defaultDocument rootFolder : Bytes) : Program HeldData := do
  let threadData ← malloc .object
  let document ← mallocChars (defaultDocument.length + 1)
  strcpy document defaultDocument
  let root ← mallocChars (rootFolder.length + 1)
  strcpy root rootFolder
  pure ⟨threadData, some root, some document, {}⟩

/-- An accepted connection, from its `ThreadData` on. -/
def acceptedConnection (env : Env) (reads : List ReadResult) (defaultDocument rootFolder : Bytes) :
    Program HeldOutcome := do
  let held ← newThreadData defaultDocument rootFolder
  handleConnection env reads held (ThreadData.fresh defaultDocument rootFolder)

/-- A string in a block that may be larger than it. -/
inductive NullableCell : Option Nat → Option Bytes → Multiset (Nat × Block) → Prop
  | null : NullableCell none none 0
  | text {address size : Nat} {text : Bytes} (fits : text.length < size) :
      NullableCell (some address) (some text) (cell address (.chars size (text ++ [0])))

inductive HeaderCells (held : HeldRequest) (header : HttpRequestHeader) :
    Multiset (Nat × Block) → Prop
  | intro {m p v b : Multiset (Nat × Block)} (method : NullableCell held.method header.method m)
      (path : NullableCell held.path header.path p)
      (version : NullableCell held.version header.version v)
      (body : NullableCell held.body header.body b) : HeaderCells held header (m + p + v + b)

theorem headerCells_zeroed : HeaderCells {} {} 0 := by
  have h : HeaderCells {} {} (0 + 0 + 0 + 0) := .intro .null .null .null .null
  rwa [add_zero] at h

section Cells

variable {s t : Multiset (Nat × Block)}

theorem nullable_stringCell (address : Nat) (text : Bytes) :
    NullableCell (some address) (some text) (stringCell address text) :=
  .text (Nat.lt_succ_self _)

theorem NullableCell.unset {pointer : Option Nat} {m : Multiset (Nat × Block)}
    (h : NullableCell pointer none m) : pointer = none ∧ m = 0 := by
  cases h with
  | null => exact ⟨rfl, rfl⟩

theorem NullableCell.free {pointer : Option Nat} {text : Option Bytes} {m : Multiset (Nat × Block)}
    (h : NullableCell pointer text m) (hs : s = t + m) :
    Triple s (freeNullable pointer) fun _ u => u = t := by
  cases h with
  | null => exact Triple.pure (hs.trans (add_zero t))
  | text fits => exact free_triple hs

theorem NullableCell.load {pointer : Option Nat} {text : Option Bytes} {m : Multiset (Nat × Block)}
    (h : NullableCell pointer text m) (hs : s = t + m) :
    Triple s (loadNullable pointer) fun r u => r = text ∧ u = s := by
  cases h with
  | null => exact Triple.pure ⟨rfl, rfl⟩
  | text fits =>
      apply (loadText_triple hs).value
      exact Triple.pure ⟨rfl, rfl⟩

/-- A string that is there is read from its block. -/
theorem NullableCell.deref {pointer : Option Nat} {text : Bytes} {m : Multiset (Nat × Block)}
    (h : NullableCell pointer (some text) m) {β : Type} {f : Nat → Bytes → Program β}
    {post : β → Multiset (Nat × Block) → Prop} (hs : s = t + m)
    (hnext : ∀ address size, pointer = some address → m = cell address (.chars size (text ++ [0])) →
      text.length < size → Triple s (f address text) post) :
    Triple s (deref pointer >>= fun address => loadText address >>= fun text => f address text)
      post := by
  cases h with
  | text fits =>
      apply Triple.skip
      apply (loadText_triple hs).value
      exact hnext _ _ rfl rfl fits

variable {held : HeldRequest} {header : HttpRequestHeader} {m : Multiset (Nat × Block)}

/-- There is nothing in a header that is not filled. -/
theorem HeaderCells.unfilled (h : HeaderCells held {} m) : held = {} ∧ m = 0 := by
  cases h with
  | intro method path version body =>
      obtain ⟨hmethod, rfl⟩ := method.unset
      obtain ⟨hpath, rfl⟩ := path.unset
      obtain ⟨hversion, rfl⟩ := version.unset
      obtain ⟨hbody, rfl⟩ := body.unset
      cases held
      subst hmethod hpath hversion hbody
      exact ⟨rfl, rfl⟩

theorem HeaderCells.free (h : HeaderCells held header m) (hs : s = t + m) :
    Triple s (freeHttpRequestHeader held) fun held' u => held' = {} ∧ u = t := by
  cases h with
  | @intro m p v b method path version body =>
      have hm : s = t + p + v + b + m := by
        rw [hs]
        abel
      have hp : t + p + v + b = t + v + b + p := by abel
      have hv : t + v + b = t + b + v := by abel
      apply (method.free hm).step
      intro _
      apply (path.free hp).step
      intro _
      apply (version.free hv).step
      intro _
      apply (body.free rfl).step
      exact fun _ => Triple.pure ⟨rfl, rfl⟩

theorem HeaderCells.view (h : HeaderCells held header m) (hs : s = t + m) (c : Conn) :
    Triple s (view held c) fun c' u =>
      c' = { c with td := { c.td with httpHeader := header } } ∧ u = s := by
  cases h with
  | @intro m p v b method path version body =>
      have hm : s = t + p + v + b + m := by
        rw [hs]
        abel
      have hp : s = t + m + v + b + p := by
        rw [hs]
        abel
      have hv : s = t + m + p + b + v := by
        rw [hs]
        abel
      have hb : s = t + (m + p + v) + b := by
        rw [hs]
        abel
      apply (method.load hm).value
      apply (path.load hp).value
      apply (version.load hv).value
      apply (body.load hb).value
      exact Triple.pure ⟨rfl, rfl⟩

end Cells

section Parser

variable {s t : Multiset (Nat × Block)}

theorem copyHead_triple (s : Multiset (Nat × Block)) {buffer : Bytes} {n : Nat}
    (hn : n ≤ (cstr buffer).length) :
    Triple s (copyHead buffer n) fun address u =>
      u = s + stringCell address ((cstr buffer).take n) := by
  have hlength : ((cstr buffer ++ [0]).take (n + 1)).length = n + 1 := by
    rw [List.length_take, List.length_append, List.length_singleton]
    omega
  apply (malloc_triple s _).bind
  rintro address _ rfl
  apply (memcpy_triple rfl (Nat.zero_le _) (by omega)).step
  intro _
  rw [List.take_nil, List.nil_append, List.drop_nil, List.append_nil]
  apply (memcpy_triple rfl (by omega) (Nat.le_refl (n + 1))).step
  intro _
  apply Triple.pure
  rw [List.take_take, Nat.min_eq_left n.le_succ, List.take_append_of_le_length hn,
    List.length_singleton, List.drop_eq_nil_of_le hlength.le, List.append_nil, stringCell,
    List.length_take_of_le hn]

/-- The copies of the tokens, and the cursor, are those of the token loop. -/
theorem copyTokens_triple (raw : Bytes) (count i cursor : Nat) (s : Multiset (Nat × Block)) :
    Triple s (copyTokens raw count cursor) fun r u => ∃ copies : List (Nat × Bytes),
      r = (if (tokenLoop raw count i cursor).finished then some (copies.map Prod.fst) else none,
        (tokenLoop raw count i cursor).cursor) ∧
      copies.map Prod.snd = (tokenLoop raw count i cursor).copies.map RequestMemory.Copy.text ∧
      u = s + fieldCells copies := by
  have hnil : s = s + fieldCells [] := (add_zero s).symm
  induction count generalizing i cursor s with
  | zero => exact Triple.pure ⟨[], rfl, rfl, hnil⟩
  | succ count ih =>
      rw [copyTokens, tokenLoop]
      cases strtokAt isHeadDelim raw cursor with
      | mk token cursor =>
          cases token with
          | none => exact Triple.pure ⟨[], rfl, rfl, hnil⟩
          | some token =>
              by_cases hlong : token.length > maxUrlSize
              · simp only [if_pos hlong]
                exact Triple.pure ⟨[], rfl, rfl, hnil⟩
              · simp only [if_neg hlong]
                apply (malloc_triple s _).bind
                rintro copy _ rfl
                apply (strcpy_triple rfl (Nat.lt_succ_self _)).step
                intro _
                apply (ih (i + 1) cursor _ (add_zero _).symm).bind
                rintro _ _ ⟨copies, rfl, htexts, rfl⟩
                apply Triple.pure
                refine ⟨(copy, token) :: copies, ?_, congrArg (token :: ·) htexts, ?_⟩
                · cases (tokenLoop raw count (i + 1) cursor).finished with
                  | true => rfl
                  | false => rfl
                · rw [fieldCells, fieldCells, List.map_cons, List.sum_cons, stringCell, add_assoc]

/-- A token loop that does not give up has made all its copies. -/
theorem tokenLoop_length {raw : Bytes} {count i cursor : Nat}
    (h : (tokenLoop raw count i cursor).finished = true) :
    (tokenLoop raw count i cursor).copies.length = count := by
  induction count generalizing i cursor with
  | zero => rfl
  | succ count ih =>
      rw [tokenLoop] at h ⊢
      cases htoken : strtokAt isHeadDelim raw cursor with
      | mk token cursor' =>
          rw [htoken] at h
          cases token with
          | none => cases h
          | some token =>
              by_cases hlong : token.length > maxUrlSize
              · simp only [if_pos hlong] at h
                cases h
              · simp only [if_neg hlong] at h ⊢
                exact congrArg (· + 1) (ih h)

/-- A request that is refused behind its blank line: the working copy is freed through
a pointer that `strtok_r` has moved. -/
def FreesMoved (buffer : Bytes) : Prop :=
  headText buffer ≠ none ∧ (HttpParser.fillHttpRequestHeader {} buffer).1 = kBadRequest

/-- The blocks behind a parse: the strings of the header, and the working copy where the
method is not supported. -/
def FilledCells (buffer : Bytes) (s : Multiset (Nat × Block)) (r : Int × HeldRequest)
    (u : Multiset (Nat × Block)) : Prop :=
  r.1 = (HttpParser.fillHttpRequestHeader {} buffer).1 ∧
    ∃ kept m, u = s + kept + m ∧
      kept.card = (if (HttpParser.fillHttpRequestHeader {} buffer).1 = kNotImplemented then 1
        else 0) ∧
      HeaderCells r.2 (HttpParser.fillHttpRequestHeader {} buffer).2 m

section Head

variable {buffer text : Bytes} (hhead : headText buffer = some text)
include hhead

theorem head_found : getKeywordIndex (cstr buffer) (bytes "\r\n\r\n") ≠ otherError := by
  rw [(headText_spec hhead).1]
  simp only [otherError, networkError]
  omega

theorem head_fits :
    (getKeywordIndex (cstr buffer) (bytes "\r\n\r\n")).toNat ≤ (cstr buffer).length := by
  obtain ⟨hindex, hraw⟩ := headText_spec hhead
  have hlength := congrArg List.length hraw
  have hfour : HeaderBlock.blankLine.length = 4 := rfl
  rw [List.length_take, List.length_append, hfour] at hlength
  rw [hindex, Int.toNat_natCast]
  omega

theorem head_copy :
    (cstr buffer).take (getKeywordIndex (cstr buffer) (bytes "\r\n\r\n")).toNat =
      text ++ HeaderBlock.blankLine := by
  rw [(headText_spec hhead).1, Int.toNat_natCast, (headText_spec hhead).2]

theorem fill_of_unfinished
    (hloop : (tokenLoop (text ++ HeaderBlock.blankLine) httpHeadCount 0 0).finished = false) :
    HttpParser.fillHttpRequestHeader {} buffer = (kBadRequest, {}) := by
  have htokens := RequestMemory.headerTokens_drop (text ++ HeaderBlock.blankLine) httpHeadCount 0 0
  rw [List.drop_zero, hloop, if_neg Bool.false_ne_true] at htokens
  simp only [HttpParser.fillHttpRequestHeader, if_neg (head_found hhead), head_copy hhead, htokens]
  rfl

theorem fill_of_finished {method path version rest : Bytes}
    (hloop : (tokenLoop (text ++ HeaderBlock.blankLine) httpHeadCount 0 0).finished = true)
    (htexts : (tokenLoop (text ++ HeaderBlock.blankLine) httpHeadCount 0 0).copies.map
      RequestMemory.Copy.text = [method, path, version])
    (hrest : (text ++ HeaderBlock.blankLine).drop
      (tokenLoop (text ++ HeaderBlock.blankLine) httpHeadCount 0 0).cursor = rest) :
    HttpParser.fillHttpRequestHeader {} buffer =
      if (stristr method (bytes "GET")).isNone then
        (kNotImplemented, { method := some method, path := some path, version := some version })
      else
        (0,
          { method := some method
            path := some path
            version := some version
            body := (firstOccurrence (bytes "\n") rest).map fun bodyStart =>
              rest.drop (bodyStart + 1) }) := by
  have htokens := RequestMemory.headerTokens_drop (text ++ HeaderBlock.blankLine) httpHeadCount 0 0
  rw [List.drop_zero, if_pos hloop, htexts, hrest] at htokens
  simp only [HttpParser.fillHttpRequestHeader, if_neg (head_found hhead), head_copy hhead, htokens]
  split
  · rfl
  · cases firstOccurrence (bytes "\n") rest with
    | none => rfl
    | some bodyStart => rfl

end Head

/-- What is stored for a request that is supported. -/
theorem copyBody_triple {method path version rawText : Bytes} {a b c raw : Nat}
    (hs : s = t + stringCell a method + stringCell b path + stringCell c version +
      stringCell raw rawText) (rest : Bytes) :
    Triple s (copyBody { method := some a, path := some b, version := some c } raw rest)
      fun r u => r.1 = 0 ∧ ∃ m, u = t + m ∧ HeaderCells r.2
        { method := some method
          path := some path
          version := some version
          body := (firstOccurrence (bytes "\n") rest).map fun bodyStart =>
            rest.drop (bodyStart + 1) } m := by
  have hcells : ∀ {body : Option Nat} {text : Option Bytes} {m : Multiset (Nat × Block)},
      NullableCell body text m →
      HeaderCells { method := some a, path := some b, version := some c, body := body }
        { method := some method, path := some path, version := some version, body := text }
        (stringCell a method + stringCell b path + stringCell c version + m) :=
    fun hbody => .intro (nullable_stringCell a method) (nullable_stringCell b path)
      (nullable_stringCell c version) hbody
  rw [copyBody]
  cases firstOccurrence (bytes "\n") rest with
  | none =>
      apply (free_triple hs).step
      intro _
      refine Triple.pure ⟨rfl, _, ?_, hcells .null⟩
      abel
  | some bodyStart =>
      apply (malloc_triple s _).bind
      rintro body _ rfl
      apply (strcpy_triple rfl (Nat.lt_succ_self _)).step
      intro _
      have hraw : s + stringCell body (rest.drop (bodyStart + 1)) =
          t + stringCell a method + stringCell b path + stringCell c version +
            stringCell body (rest.drop (bodyStart + 1)) + stringCell raw rawText := by
        rw [hs]
        abel
      apply (free_triple hraw).step
      intro _
      refine Triple.pure ⟨rfl, _, ?_, hcells (nullable_stringCell body _)⟩
      abel

theorem fillHttpRequestHeader_triple {buffer : Bytes} (hstays : ¬ FreesMoved buffer)
    (s : Multiset (Nat × Block)) :
    Triple s (fillHttpRequestHeader {} buffer) (FilledCells buffer s) := by
  have hcodes : kBadRequest ≠ kNotImplemented ∧ (0 : Int) ≠ kNotImplemented := by decide
  cases hhead : headText buffer with
  | none =>
      rw [fillHttpRequestHeader, getKeywordIndex_of_no_head hhead, if_pos rfl]
      apply Triple.pure
      rw [FilledCells, fillHttpRequestHeader_of_no_head hhead, if_neg hcodes.1]
      exact ⟨rfl, 0, 0, by rw [add_zero, add_zero], rfl, headerCells_zeroed⟩
  | some text =>
      have hfinished : (tokenLoop (text ++ HeaderBlock.blankLine) httpHeadCount 0 0).finished =
          true := by
        rw [← Bool.not_eq_false]
        intro hloop
        apply hstays
        rw [FreesMoved, hhead, fill_of_unfinished hhead hloop]
        exact ⟨Option.some_ne_none text, rfl⟩
      rw [fillHttpRequestHeader, if_neg (head_found hhead)]
      apply (copyHead_triple s (head_fits hhead)).bind
      rintro httpHeaderRaw _ rfl
      apply (loadText_triple rfl).value
      rw [head_copy hhead]
      apply (copyTokens_triple _ httpHeadCount 0 0 _).bind
      rintro _ _ ⟨copies, rfl, htexts, rfl⟩
      have hlength := congrArg List.length htexts
      rw [List.length_map, List.length_map, tokenLoop_length hfinished] at hlength
      obtain ⟨⟨a, method⟩, ⟨b, path⟩, ⟨c, version⟩, rfl⟩ := List.length_eq_three.mp hlength
      have hfill := fill_of_finished hhead hfinished htexts.symm rfl
      rw [if_pos hfinished]
      have hcells : s + stringCell httpHeaderRaw (text ++ HeaderBlock.blankLine) +
          fieldCells [(a, method), (b, path), (c, version)] =
          s + stringCell a method + stringCell b path + stringCell c version +
            stringCell httpHeaderRaw (text ++ HeaderBlock.blankLine) := by
        simp only [fieldCells, List.map_cons, List.map_nil, List.sum_cons, List.sum_nil]
        abel
      have hname : s + stringCell httpHeaderRaw (text ++ HeaderBlock.blankLine) +
          fieldCells [(a, method), (b, path), (c, version)] =
          s + stringCell b path + stringCell c version +
            stringCell httpHeaderRaw (text ++ HeaderBlock.blankLine) + stringCell a method := by
        rw [hcells]
        abel
      show Triple _ (storeTokens {} httpHeaderRaw (text ++ HeaderBlock.blankLine) _
        (some [a, b, c])) _
      rw [storeTokens]
      apply (loadText_triple hname).value
      by_cases hget : (stristr method (bytes "GET")).isNone = true
      · rw [if_pos hget] at hfill ⊢
        apply Triple.pure
        rw [FilledCells, hfill, if_pos rfl]
        refine ⟨rfl, stringCell httpHeaderRaw (text ++ HeaderBlock.blankLine), _, ?_, rfl,
          .intro (nullable_stringCell a method) (nullable_stringCell b path)
            (nullable_stringCell c version) .null⟩
        rw [hcells]
        abel
      · rw [if_neg hget] at hfill ⊢
        apply (copyBody_triple hcells _).mono
        rintro r _ ⟨hr, m, rfl, hheader⟩
        rw [FilledCells, hfill, if_neg hcodes.2]
        exact ⟨hr, 0, m, by rw [add_zero], rfl, hheader⟩

/-- The pointer that is freed is not the one that was taken. -/
theorem fillHttpRequestHeader_faults {buffer : Bytes} (h : FreesMoved buffer)
    (s : Multiset (Nat × Block)) : Faults s (fillHttpRequestHeader {} buffer) := by
  obtain ⟨hne, hresult⟩ := h
  obtain ⟨text, hhead⟩ := Option.ne_none_iff_exists'.mp hne
  have hraw : text ++ HeaderBlock.blankLine ≠ [] := by simp [HeaderBlock.blankLine]
  have hmoved : (tokenLoop (text ++ HeaderBlock.blankLine) httpHeadCount 0 0).cursor ≠ 0 :=
    (RequestMemory.tokenLoop_cursor hraw 2 0 0).ne'
  have hunfinished : (tokenLoop (text ++ HeaderBlock.blankLine) httpHeadCount 0 0).finished =
      false := by
    rw [← Bool.not_eq_true]
    intro hfinished
    have hlength := tokenLoop_length hfinished
    rw [← List.length_map RequestMemory.Copy.text] at hlength
    obtain ⟨method, path, version, htexts⟩ := List.length_eq_three.mp hlength
    rw [fill_of_finished hhead hfinished htexts rfl] at hresult
    have hcodes : kNotImplemented ≠ kBadRequest ∧ (0 : Int) ≠ kBadRequest := by decide
    split at hresult
    · exact absurd hresult hcodes.1
    · exact absurd hresult hcodes.2
  rw [fillHttpRequestHeader, if_neg (head_found hhead)]
  apply (copyHead_triple s (head_fits hhead)).bind_faults
  rintro httpHeaderRaw _ rfl
  apply (loadText_triple rfl).bind_faults
  rintro raw _ ⟨rfl, rfl⟩
  rw [head_copy hhead]
  apply (copyTokens_triple _ httpHeadCount 0 0 _).bind_faults
  rintro _ _ ⟨copies, rfl, -, rfl⟩
  rw [hunfinished]
  exact (freeAt_faults hmoved _ _).bind

end Parser

section Pass

variable {held : HeldRequest} {header : HttpRequestHeader} {s t m : Multiset (Nat × Block)}

/-- The default document takes the place of a path that is a slash. -/
theorem setDefaultDocument_triple {document : Nat} {defaultDocument path : Bytes}
    (h : HeaderCells held header m) (hpath : header.path = some path)
    (hs : s = t + stringCell document defaultDocument + m) :
    Triple s (setDefaultDocument held (some document)) fun held' u => ∃ m',
      u = t + stringCell document defaultDocument + m' ∧
      HeaderCells held' (Http.setDefaultDocument header defaultDocument) m' := by
  cases h with
  | @intro m p v b method pathCell version body =>
      rw [hpath] at pathCell
      have hp : s = t + stringCell document defaultDocument + m + v + b + p := by
        rw [hs]
        abel
      apply pathCell.deref hp
      rintro address size heldPath rfl hfits
      by_cases hroot : path = bytes "/"
      · rw [if_pos hroot, Http.setDefaultDocument, if_pos (hpath.trans (congrArg some hroot))]
        apply (free_triple hp).step
        intro _
        apply Triple.skip
        have hdocument : t + stringCell document defaultDocument + m + v + b =
            t + m + v + b + stringCell document defaultDocument := by abel
        apply (loadText_triple hdocument).value
        apply (malloc_triple _ _).bind
        rintro address' _ rfl
        have hslash : (bytes "/").length = 1 := by decide
        apply (strcpy_triple rfl (by omega)).step
        intro _
        apply (strcat_triple rfl (by omega)).step
        intro _
        have hcell : cell address' (.chars (defaultDocument.length + 2)
            (bytes "/" ++ defaultDocument ++ [0])) =
            stringCell address' (bytes "/" ++ defaultDocument) := by
          rw [stringCell, List.length_append, hslash, Nat.add_comm 1]
        refine Triple.pure ⟨_, ?_, .intro method (nullable_stringCell address' _) version body⟩
        rw [hcell]
        abel
      · rw [if_neg hroot, Http.setDefaultDocument,
          if_neg (fun heq => hroot (Option.some.inj (hpath.symm.trans heq)))]
        refine Triple.pure ⟨m + cell address (.chars size (path ++ [0])) + v + b, hs, ?_⟩
        exact .intro method (hpath ▸ pathCell) version body

theorem logHttpRequestHeader_triple {c : Conn} {method path : Bytes}
    (h : HeaderCells held c.td.httpHeader m) (hmethod : c.td.httpHeader.method = some method)
    (hpath : c.td.httpHeader.path = some path) (env : Env) (hs : s = t + m) :
    Triple s (logHttpRequestHeader env held c) fun c' u =>
      c' = Http.logHttpRequestHeader env c ∧ u = s := by
  cases h with
  | @intro m p v b methodCell pathCell version body =>
      rw [hmethod] at methodCell
      rw [hpath] at pathCell
      rw [Http.logHttpRequestHeader, hmethod, hpath, Option.getD_some, Option.getD_some]
      apply (malloc_triple s _).bind
      rintro time _ rfl
      have hm : s + cell time .object = t + p + v + b + cell time .object + m := by
        rw [hs]
        abel
      have hp : s + cell time .object = t + m + v + b + cell time .object + p := by
        rw [hs]
        abel
      apply methodCell.deref hm
      intro _ _ _ _ _
      apply pathCell.deref hp
      intro _ _ _ _ _
      apply (malloc_triple _ _).bind
      rintro logData _ rfl
      have htime : s + cell time .object +
          cell logData (.chars ((env.logTime c.log).length + method.length + path.length + 4) []) =
          s + cell logData (.chars ((env.logTime c.log).length + method.length + path.length + 4)
            []) + cell time .object := by abel
      have hblank : (bytes " ").length = 1 ∧ (bytes "\n").length = 1 := by decide
      apply (free_triple htime).step
      intro _
      apply (strcpy_triple rfl (by omega)).step
      intro _
      apply (strcat_triple rfl (by omega)).step
      intro _
      apply (strcat_triple rfl (by simp only [List.length_append]; omega)).step
      intro _
      apply (strcat_triple rfl (by simp only [List.length_append]; omega)).step
      intro _
      apply (strcat_triple rfl (by simp only [List.length_append]; omega)).step
      intro _
      apply (strcat_triple rfl (by simp only [List.length_append]; omega)).step
      intro _
      apply (loadText_triple rfl).value
      apply (free_triple rfl).step
      exact fun _ => Triple.pure ⟨rfl, rfl⟩

/-- What the sanitizer leaves is no longer than the path. -/
theorem length_keptPath_le (path : Bytes) : (keptPath path).length ≤ path.length := by
  rw [← (getFilePosition_eq path).1, getFilePosition_src]
  exact (List.length_filter_le _ _).trans_eq (length_blanked path)

/-- The path is sanitized in its block, and the name of the file given back. -/
theorem openRequestedFile_triple (threadData : Nat) {c : Conn} {path : Bytes} {root : Nat}
    {document : Option Nat} (h : HeaderCells held c.td.httpHeader m)
    (hpath : c.td.httpHeader.path = some path) (hshort : path.length ≤ maxUrlSize) (env : Env)
    (hs : s = t + stringCell root c.td.rootFolder + m) :
    Triple s (openRequestedFile env ⟨threadData, some root, document, held⟩ c) fun c' u =>
      c' = Http.openRequestedFile env c ∧ ∃ m',
        u = t + stringCell root c.td.rootFolder + m' ∧ HeaderCells held c'.td.httpHeader m' := by
  obtain ⟨hsrc, hposition⟩ := getFilePosition_eq path
  have hle := length_keptPath_le path
  have hmax : maxUrlSize = 2048 := rfl
  have hwindow := lengthWindow_of_short (s := keptPath path) (by omega)
  have hmask : (intMax >>> 16) &&& (keptPath path).length = (keptPath path).length := by
    rw [show intMax >>> 16 = 2 ^ 15 - 1 by decide, Nat.and_comm, Nat.and_two_pow_sub_one_eq_mod,
      Nat.mod_eq_of_lt (by omega)]
  cases h with
  | @intro m p v b method pathCell version body =>
      rw [hpath] at pathCell
      have hp : s = t + stringCell root c.td.rootFolder + m + v + b + p := by
        rw [hs]
        abel
      apply pathCell.deref hp
      rintro address size heldPath rfl hfits
      have hcells : ∀ (td : ThreadData) (log : List Event),
          td.httpHeader = { c.td.httpHeader with path := some (keptPath path) } → ∃ m',
          t + stringCell root c.td.rootFolder + m + v + b +
              cell address (.chars size (keptPath path ++ [0])) =
            t + stringCell root c.td.rootFolder + m' ∧
          HeaderCells held (Conn.mk td log).td.httpHeader m' := by
        intro td log htd
        refine ⟨m + cell address (.chars size (keptPath path ++ [0])) + v + b, by abel, ?_⟩
        dsimp only
        rw [htd]
        refine .intro method ?_ version body
        rw [heldPath]
        exact .text (hle.trans_lt hfits)
      simp only [hsrc, hposition]
      apply (strcpy_triple hp (hle.trans_lt hfits)).step
      intro _
      rw [Http.openRequestedFile, hpath, Option.getD_some, openStaticFile, staticFileName_eq, hsrc]
      by_cases hnone : keptPath path = []
      · rw [if_pos (by rw [hnone]; rfl)]
        simp only [if_pos hnone]
        exact Triple.pure ⟨rfl, hcells _ _ rfl⟩
      · rw [if_neg fun hzero => hnone (List.length_eq_zero_iff.mp hzero)]
        simp only [if_neg hnone, hmask]
        apply Triple.skip
        have hroot : t + stringCell root c.td.rootFolder + m + v + b +
            cell address (.chars size (keptPath path ++ [0])) =
            t + m + v + b + cell address (.chars size (keptPath path ++ [0])) +
              stringCell root c.td.rootFolder := by abel
        apply (loadText_triple hroot).value
        apply (malloc_triple _ _).bind
        rintro filename _ rfl
        apply (strcpy_triple rfl (by omega)).step
        intro _
        rw [lengthWindow, hmask] at hwindow
        rw [hwindow]
        apply (strcat_triple rfl (by omega)).step
        intro _
        apply (loadText_triple rfl).value
        apply (free_triple rfl).step
        intro _
        apply Triple.pure
        refine ⟨?_, hcells _ _ rfl⟩
        rw [lengthWindow, hmask, hwindow]
        cases env.fopen c.log (c.td.rootFolder ++ keptPath path) with
        | none => rfl
        | some image => rfl

end Pass

/-- The blocks of a `ThreadData`: its own and those of its strings. -/
inductive DataCells : HeldData → ThreadData → Multiset (Nat × Block) → Prop
  | intro {threadData root document : Nat} {held : HeldRequest} {td : ThreadData}
      {m : Multiset (Nat × Block)} (header : HeaderCells held td.httpHeader m) :
      DataCells ⟨threadData, some root, some document, held⟩ td
        (cell threadData .object + stringCell root td.rootFolder +
          stringCell document td.defaultDocument + m)

/-- The blocks that an outcome leaves behind; `kept` of them are in no record. -/
def Leaves (kept : Nat) : HeldOutcome → Multiset (Nat × Block) → Prop
  | .handshake held c, u | .loopHead held c, u => DataCells held c.td u ∧ kept = 0
  | .returned _, u => u.card = kept

section Exits

variable {held : HeldData} {c : Conn} {s t m : Multiset (Nat × Block)}

/-- Only the strings of a `ThreadData` are in blocks of their own. -/
theorem DataCells.congr {td td' : ThreadData} (h : DataCells held td m)
    (hheader : td'.httpHeader = td.httpHeader) (hroot : td'.rootFolder = td.rootFolder)
    (hdocument : td'.defaultDocument = td.defaultDocument) : DataCells held td' m := by
  cases h with
  | intro header =>
      rw [← hroot, ← hdocument]
      exact .intro (hheader ▸ header)

theorem DataCells.view {td : ThreadData} (h : DataCells held td m) (hs : s = t + m) (c : Conn) :
    Triple s (view held.httpHeader c) fun c' u =>
      c' = { c with td := { c.td with httpHeader := td.httpHeader } } ∧ u = s := by
  cases h with
  | @intro threadData root document header _ m hcells =>
      rw [← add_assoc] at hs
      exact hcells.view hs c

theorem freeThreadData_triple (h : DataCells held c.td m) (hs : s = t + m) :
    Triple s (freeThreadData held c) fun r u =>
      r = .returned (Http.freeThreadData c) ∧ u = t := by
  cases h with
  | @intro threadData root document header _ m hcells =>
      have hroot : s = t + cell threadData .object + stringCell document c.td.defaultDocument + m +
          stringCell root c.td.rootFolder := by
        rw [hs]
        abel
      have hdocument : t + cell threadData .object + stringCell document c.td.defaultDocument + m =
          t + cell threadData .object + m + stringCell document c.td.defaultDocument := by abel
      apply (free_triple hroot).step
      intro _
      apply (free_triple hdocument).step
      intro _
      apply (hcells.free rfl).value
      apply (free_triple rfl).step
      exact fun _ => Triple.pure ⟨rfl, rfl⟩

theorem flushThreadData_triple (h : DataCells held c.td s) :
    Triple s (flushThreadData held c) fun r u =>
      r.value = .loopHead (Http.flushThreadData c) ∧ Leaves 0 r u := by
  cases h with
  | @intro threadData root document header _ m hcells =>
      apply (hcells.free rfl).value
      refine Triple.pure ⟨rfl, ?_, rfl⟩
      have hflushed : DataCells ⟨threadData, some root, some document, {}⟩
          (Http.flushThreadData c).td (cell threadData .object +
            stringCell root c.td.rootFolder + stringCell document c.td.defaultDocument + 0) :=
        .intro headerCells_zeroed
      rwa [add_zero] at hflushed

/-- `HandleError` leaves the strings of the connection as they are. -/
theorem handleError_strings {env : Env} {errorCode : Int} {problemName : Bytes} {c' : Conn}
    (hsome : Http.handleError env errorCode problemName c = some c') :
    c'.td.httpHeader = c.td.httpHeader ∧ c'.td.rootFolder = c.td.rootFolder ∧
      c'.td.defaultDocument = c.td.defaultDocument := by
  simp only [Http.handleError] at hsome
  split at hsome
  · cases hsome
  · split at hsome
    · cases hsome
    · rw [← Option.some.inj hsome]
      exact ⟨rfl, rfl, rfl⟩

/-- An error that has a description ends the connection. -/
theorem failRequest_triple (env : Env) {errorCode : Int} {problemName : Bytes}
    (h : DataCells held c.td m) (hs : s = t + m)
    (hcode : errorCode.natAbs < kErrorDescriptions.length)
    (hname : problemName.length + 128 ≤ maxChunkSize) :
    Triple s (failRequest env errorCode problemName held c) fun r u =>
      r.value = Http.failRequest env errorCode problemName c ∧ Leaves t.card r u := by
  obtain ⟨c', hsome⟩ := Option.isSome_iff_exists.mp
    ((handleError_isSome_iff env errorCode problemName c).mpr hcode)
  obtain ⟨hheader, hroot, hdocument⟩ := handleError_strings hsome
  rw [Http.failRequest, hsome]
  have hframe := (handleError_triple env errorCode hname hsome).frame s
  rw [zero_add] at hframe
  apply hframe.bind
  rintro c'' _ ⟨u, rfl, rfl, rfl⟩
  rw [zero_add]
  apply (freeThreadData_triple (h.congr hheader hroot hdocument) hs).mono
  rintro _ _ ⟨rfl, rfl⟩
  exact ⟨rfl, rfl⟩

theorem afterSend_triple {sent : Int × Conn} (h : DataCells held sent.2.td s) :
    Triple s (afterSend held sent) fun r u => r.value = KeepAlive.afterSend sent ∧ Leaves 0 r u := by
  have hfree : ∀ c : Conn, DataCells held c.td s → Triple s (freeThreadData held c) fun r u =>
      r.value = .returned (Http.freeThreadData c) ∧ Leaves 0 r u := by
    intro c hcells
    apply (freeThreadData_triple hcells (zero_add s).symm).mono
    rintro _ _ ⟨rfl, rfl⟩
    exact ⟨rfl, rfl⟩
  rw [afterSend, KeepAlive.afterSend]
  split
  · exact hfree (sent.2.emit _) h
  · split
    · exact flushThreadData_triple h
    · exact hfree sent.2 h

/-- The body of a request is read from its block. -/
theorem loadBody_triple {body : Bytes} (hbody : c.td.httpHeader.body = some body)
    (h : DataCells held c.td s) :
    Triple s (deref held.httpHeader.body >>= loadText) fun b u => b = body ∧ u = s := by
  cases h with
  | @intro threadData root document header _ m hcells =>
      cases hcells with
      | @intro m p v b method path version bodyCell =>
          rw [hbody] at bodyCell
          have hb : cell threadData .object + stringCell root c.td.rootFolder +
              stringCell document c.td.defaultDocument + (m + p + v + b) =
              cell threadData .object + stringCell root c.td.rootFolder +
                stringCell document c.td.defaultDocument + (m + p + v) + b := by abel
          have hload : loadText = fun address => loadText address >>= fun text => Pure.pure text := by
            simp only [bind_pure]
          rw [hload]
          exact bodyCell.deref hb fun _ _ _ _ _ => Triple.pure ⟨rfl, rfl⟩

theorem Ready.answering {content : Bytes} (h : Ready c content) (body : Bytes) :
    Ready { c with td := answering body c.td } content := ⟨h.file, h.size, h.fits, h.clear⟩

/-- A response that has a body to search, and whose stores are inside, is sent and leaves
nothing behind. -/
theorem respond_triple (env : Env) {content body : Bytes} (hready : Ready c content)
    (hbody : c.td.httpHeader.body = some body) (hinside : StaysInside (answering body c.td))
    (h : DataCells held c.td s) :
    Triple s (respond env held c) fun r u =>
      r.value = Http.respond env c ∧ Leaves 0 r u := by
  have hvalue : Http.respond env c = KeepAlive.afterSend (Http.sendStaticData env
      { c with td := answering body c.td }) := by
    simp only [Http.respond, hbody]
    rfl
  rw [respond, ← bind_assoc, hvalue]
  apply (loadBody_triple hbody h).value
  have hframe := (sendStaticData_triple (Ready.answering hready body) hinside env).frame s
  rw [zero_add] at hframe
  apply hframe.bind
  rintro sent _ ⟨u, rfl, rfl, rfl⟩
  rw [zero_add]
  have htransfers := (ResponseFrame.sendStaticData_transfers env
    { c with td := answering body c.td }).td
  apply afterSend_triple
  apply h.congr
  · rw [htransfers]
    rfl
  · rw [htransfers]
    rfl
  · rw [htransfers]
    rfl

/-- A response that needs a full slice of the loop stores behind its buffer. -/
theorem respond_overflows (env : Env) {content body : Bytes} (hready : Ready c content)
    (hbody : c.td.httpHeader.body = some body) (houtside : ¬ StaysInside (answering body c.td))
    (h : DataCells held c.td s) : Faults s (respond env held c) := by
  rw [respond, ← bind_assoc]
  apply (loadBody_triple hbody h).bind_faults
  rintro _ _ ⟨rfl, rfl⟩
  exact (sendStaticData_faults (Ready.answering hready _) houtside env _).bind

/-- Without a body there is nothing to search. -/
theorem respond_faults (env : Env) (hbody : c.td.httpHeader.body = none)
    (h : DataCells held c.td m) (s : Multiset (Nat × Block)) : Faults s (respond env held c) := by
  have hnull : held.httpHeader.body = none := by
    cases h with
    | intro header =>
        cases header with
        | intro _ _ _ bodyCell =>
            rw [hbody] at bodyCell
            exact bodyCell.unset.1
  rw [respond, hnull]
  exact (undefined_faults s).bind

/-- The connection whose request has its default document. -/
def withDocument (c : Conn) : Conn :=
  { c with td := { c.td with
      httpHeader := Http.setDefaultDocument c.td.httpHeader c.td.defaultDocument } }

theorem withDocument_strings {method path : Bytes}
    (hmethod : c.td.httpHeader.method = some method) (hpath : c.td.httpHeader.path = some path)
    (hshort : path.length ≤ maxUrlSize) (hdocument : c.td.defaultDocument.length < maxUrlSize) :
    (withDocument c).td.httpHeader.method = some method ∧ ∃ path',
      (withDocument c).td.httpHeader.path = some path' ∧ path'.length ≤ maxUrlSize := by
  rw [withDocument, Http.setDefaultDocument]
  split
  · refine ⟨hmethod, _, rfl, ?_⟩
    have hslash : (bytes "/").length = 1 := by decide
    rw [List.length_append, hslash]
    omega
  · exact ⟨hmethod, path, hpath, hshort⟩

/-- From the parser to the open file. -/
theorem openAccepted_triple (env : Env) {method path : Bytes} (h : DataCells held c.td s)
    (hmethod : c.td.httpHeader.method = some method) (hpath : c.td.httpHeader.path = some path)
    (hshort : path.length ≤ maxUrlSize) (hdocument : c.td.defaultDocument.length < maxUrlSize) :
    Triple s (openAccepted env held c) fun r u =>
      r.2 = Http.openRequestedFile env (Http.logHttpRequestHeader env (withDocument c)) ∧
      DataCells r.1 r.2.td u := by
  obtain ⟨hmethod', path', hpath', hshort'⟩ :=
    withDocument_strings hmethod hpath hshort hdocument
  cases h with
  | @intro threadData root document header _ m hcells =>
      apply (setDefaultDocument_triple hcells hpath rfl).bind
      rintro header' _ ⟨m', rfl, hcells'⟩
      apply (hcells'.view rfl c).value
      apply (logHttpRequestHeader_triple (c := withDocument c) hcells' hmethod' hpath' env
        rfl).value
      have hroot : cell threadData .object + stringCell root c.td.rootFolder +
          stringCell document c.td.defaultDocument + m' =
          cell threadData .object + stringCell document c.td.defaultDocument +
            stringCell root c.td.rootFolder + m' := by abel
      have hfolders := openRequestedFile_folders env (Http.logHttpRequestHeader env (withDocument c))
      apply (openRequestedFile_triple threadData
        (c := Http.logHttpRequestHeader env (withDocument c)) hcells' hpath' hshort' env hroot).bind
      rintro _ _ ⟨rfl, m'', rfl, hcells''⟩
      apply Triple.pure
      refine ⟨rfl, ?_⟩
      have hdata : DataCells ⟨threadData, some root, some document, header'⟩ _ _ := .intro hcells''
      rw [hfolders.1, hfolders.2] at hdata
      have hback : cell threadData .object + stringCell document c.td.defaultDocument +
          stringCell root c.td.rootFolder + m'' =
          cell threadData .object + stringCell root c.td.rootFolder +
            stringCell document c.td.defaultDocument + m'' := by abel
      exact hback ▸ hdata

end Exits

end HttpsServ.ConnectionMemory
