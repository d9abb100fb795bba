import HttpsServ.ErrorResponse
import HttpsServ.HeaderLife
import HttpsServ.ResponseFrame
import HttpsServ.ChunkBounds

/-!
# The memory of sending

The functions of http.c that send a response, with the blocks of the header, of the
payload and of the error text. They do on the heap what they do on header values,
and give back everything that they take, on each of their ways out.
-/

namespace HttpsServ.SendMemory

open ByteString Utility Numeral Http ResponseHeader StaticTransfer ResponseFrame ErrorResponse
  HeapProgram ResponseMemory HeaderLife ChunkBounds
open HttpParser (HttpResponseHeader)
open HeaderUpdates (HeaderUpdate runUpdates)

/-- The `memcpy` of `SendHttpHeader`, when there is something to append. -/
def appendPayload (payload : Nat) (offset : Int) (appendData : Option Bytes) (dataSize : Int) :
    Program Unit :=
  match appendData with
  | some data =>
      if dataSize ≠ 0 then memcpy payload offset.toNat (data.take dataSize.toNat) else pure ()
  | none => pure ()

def sendHttpHeader (env : Env) (site : WriteSite) (resp : HeldResponse)
    (appendData : Option Bytes) (dataSize : Int) (c : Conn) :
    Program (Int × HeldResponse × Conn) :=
  let resp := { resp with totalByteLength := toInt32 (resp.totalByteLength + dataSize) }
  let restored := { resp with totalByteLength := toInt32 (resp.totalByteLength - dataSize) }
  if (maxChunkSize : Int) < resp.totalByteLength then pure (networkError, restored, c)
  else do
    let found ← responseToBuff resp
    let payload ← deref found
    appendPayload payload (resp.totalByteLength - dataSize - 1) appendData dataSize
    let buffer ← loadChars payload (resp.totalByteLength - 1).toNat
    let (ret, c) := sslWrite env site buffer c
    free payload
    pure (if ret < 0 then networkError else 0, restored, c)

/-- The header of `SendStaticData` before the encoding is known. -/
def staticDataHeader (path : Bytes) (isKeepAlive : Bool) : Program HeldResponse := do
  let resp ← setResponseStatusLine {} httpVersion (bytes "200") (bytes "OK")
  let resp ← setResponseContentType resp path
  let resp ← setResponseProperty resp (bytes "Server: IhorWebServer_2004\r\n")
  if isKeepAlive then setResponseProperty resp (bytes "Connection: Keep-Alive\r\n")
  else setResponseProperty resp (bytes "Connection: close\r\n")

/-- The first slice in the chunked case, beside a header that is counted. -/
def firstChunk (totalByteLength : Int) (c : Conn) : Sending :=
  let s : Sending :=
    { sizeOfChunkedDelim := 0
      sizeThatShouldBeReaded := maxChunkSize
      totalDataSize := toInt32 c.td.staticFileSize
      amountOfData := 0
      conn := c }
  (s.computeChunk (maxChunkSize - totalByteLength)).readSlice

/-- The first slice in the identity case. -/
def firstSlice (totalByteLength : Int) (c : Conn) : Sending :=
  let (amount, conn) := freadResponse (cstr c.td.responseBuffer.cells).length
    (maxChunkSize - totalByteLength) c
  { sizeOfChunkedDelim := 0
    sizeThatShouldBeReaded := maxChunkSize
    totalDataSize := toInt32 c.td.staticFileSize
    amountOfData := amount
    conn := conn }

/-- `SendStaticData` up to the header write. -/
def beginStatic (c : Conn) : Program (HeldResponse × Sending) := do
  let resp ← staticDataHeader (c.td.httpHeader.path.getD []) c.td.isKeepAlive
  if c.td.isChunkEncoding then do
    let resp ← setResponseProperty resp (bytes "Transfer-Encoding: chunked\r\n")
    pure (resp, firstChunk resp.totalByteLength c)
  else do
    let resp ← setResponseContentLength resp (toInt32 c.td.staticFileSize)
    pure (resp, firstSlice resp.totalByteLength c)

/-- `SendStaticData` behind its loop, on the loop's result. -/
def finishStatic (env : Env) (resp : HeldResponse) (looped : Int × Conn) :
    Program (Int × Conn) :=
  if looped.1 < 0 then do
    freeHttpResponsetHeader resp
    pure (networkError, looped.2)
  else if looped.2.td.isChunkEncoding then do
    let (_, c) := sslWrite env (.terminator looped.2.td.isKeepAlive) (bytes "0\r\n\r\n") looped.2
    freeHttpResponsetHeader resp
    pure (0, c)
  else if !looped.2.td.isKeepAlive then do
    let resp ← setResponseProperty resp (bytes "Connection: close\r\n")
    let (_, resp, c) ← sendHttpHeader env .trailer resp none 0 looped.2
    freeHttpResponsetHeader resp
    pure (0, c)
  else do
    freeHttpResponsetHeader resp
    pure (0, looped.2)

/-- The stores of the calls between two connections: one behind the end of the response
buffer is undefined. -/
def storeCalls (c c' : Conn) : Program Unit :=
  if ∀ e ∈ c'.log.drop c.log.length, InBounds e then pure () else undefined

/-- `SendStaticData` up to its loop. -/
def sendFirst (env : Env) (c : Conn) : Program (HeldResponse × Sending) := do
  let (resp, s) ← beginStatic c
  storeCalls c s.conn
  let (_, resp, sent) ← sendHttpHeader env .header resp (some s.conn.td.responseBuffer.cells)
    (s.amountOfData + s.sizeOfChunkedDelim) s.conn
  pure (resp, { s with conn := sent })

def sendStaticData (env : Env) (c : Conn) : Program (Int × Conn) := do
  let (resp, s) ← sendFirst env c
  let looped := if s.totalDataSize > 0 then sendLoop env s else (0, s.conn)
  storeCalls s.conn looped.2
  finishStatic env resp looped

/-- The loop of `HandleError` over the descriptions, with the text of the error. -/
def describeError (errorCode : Int) (problemName : Bytes) :
    Program (HeldResponse × Option Nat) :=
  match findErrorDescription errorCode with
  | none => pure ({}, none)
  | some description => do
      let resp ← setResponseStatusLine {} httpVersion description.errorCode
        description.errorStatus
      let errorPayload ← mallocChars (problemName.length + description.errorStatus.length + 2)
      strcpy errorPayload problemName
      strcat errorPayload (bytes " ")
      strcat errorPayload description.errorStatus
      pure (resp, some errorPayload)

/-- `HandleError`; without a description it copies from `NULL`, and a text that is too
long for the response buffer runs over its end. -/
def handleError (env : Env) (errorCode : Int) (problemName : Bytes) (c : Conn) :
    Program Conn := do
  let (resp, errorPayload) ← describeError errorCode problemName
  let resp ← setResponseProperty resp (bytes "Content-Type: text/plain\r\n")
  let resp ← setResponseProperty resp (bytes "Connection: close\r\n")
  let found ← responseToBuff resp
  let headerBuff ← deref found
  let header ← loadText headerBuff
  let errorPayload ← deref errorPayload
  let payload ← loadText errorPayload
  if maxChunkSize < (header ++ payload ++ [0]).length then undefined
  else do
    let responseBuffer := c.td.responseBuffer.store 0 (header ++ payload ++ [0])
    let c := { c with td := { c.td with responseBuffer := responseBuffer } }
    let (_, c) := sslWrite env .error
      (c.td.requestBuffer.cells.take (cstr c.td.responseBuffer.cells).length) c
    free headerBuff
    free errorPayload
    freeHttpResponsetHeader resp
    pure c

def closeConnection (env : Env) (c : Conn) : Program Conn := do
  let resp ← setResponseStatusLine {} httpVersion (bytes "200") (bytes "OK")
  let resp ← setResponseProperty resp (bytes "Connection: close\r\n")
  let resp ← setResponseProperty resp (bytes "Content-Length: 0\r\n")
  let (_, resp, c) ← sendHttpHeader env .close resp (some c.td.responseBuffer.cells)
    (toInt32 c.td.staticFileSize) c
  freeHttpResponsetHeader resp
  pure c

section Header

variable {held : HeldResponse} {resp : HttpResponseHeader} {s : Multiset (Nat × Block)}

theorem stands_of_holds (h : Holds held resp 0 s) : Stands held resp s := by
  obtain ⟨own, garbage, rfl, hstands, hcard⟩ := h
  rwa [Multiset.card_eq_zero.mp hcard, add_zero]

theorem holds_zeroed : Holds {} {} 0 0 := ⟨0, 0, rfl, stands_zeroed, rfl⟩

/-- A run that sets one status line and properties with a key loses nothing. -/
theorem lostAlong_eq_zero {updates : List HeaderUpdate} (hone : statusLines updates ≤ 1)
    (hkeys : ∀ line ∈ propertyLines updates, 32 ∈ line) : lostAlong {} updates = 0 := by
  rw [(reached_runUpdates updates).lost]
  have htaken : arraysTaken (propertyLines updates) ≤ 1 := by
    generalize propertyLines updates = lines at hkeys
    cases lines with
    | nil => exact Nat.zero_le 1
    | cons line lines => rw [arraysTaken, if_pos (hkeys line List.mem_cons_self)]
  omega

theorem addProperty_triple (h : Stands held resp s) (hsound : Sound resp)
    (hlost : lostArrays resp = 0) (line : Bytes) :
    Triple s (setResponseProperty held line) fun held' u =>
      Stands held' (HttpParser.setResponseProperty resp line) u := by
  apply (h.setResponseProperty hsound line).mono
  intro held' u hholds
  rw [hlost] at hholds
  exact stands_of_holds hholds

/-- A header that has fields loses nothing with one more. -/
theorem lostArrays_of_ne (hne : resp.body ≠ []) : lostArrays resp = 0 :=
  if_neg fun hlost => hne hlost.1

theorem lostArrays_statusLine (version statusCode status : Bytes) :
    lostArrays (HttpParser.setResponseStatusLine {} version statusCode status) = 0 := rfl

theorem contentTypeProperties_keyed (filename : Bytes) :
    ∀ line ∈ HeaderUpdates.contentTypeProperties filename, 32 ∈ line := by
  intro line hline
  rw [HeaderUpdates.contentTypeProperties] at hline
  split at hline
  · rw [List.mem_singleton.mp hline]
    decide
  · obtain ⟨mime, -, rfl⟩ := List.mem_map.mp hline
    have hkey : (32 : UInt8) ∈ bytes "Content-Type: " := by decide
    simp [HttpParser.contentTypeProperty, hkey]

/-- The calls of a run that sets a status line first. -/
def firstUpdates (d : ErrorDescription) (lines : List Bytes) : List HeaderUpdate :=
  .statusLine httpVersion d.errorCode d.errorStatus :: lines.map .property

theorem propertyLines_firstUpdates (d : ErrorDescription) (lines : List Bytes) :
    propertyLines (firstUpdates d lines) = lines := by
  rw [propertyLines, firstUpdates, List.filterMap_cons, List.filterMap_map]
  exact List.filterMap_some

theorem statusLines_firstUpdates (d : ErrorDescription) (lines : List Bytes) :
    statusLines (firstUpdates d lines) = 1 := by
  simp [statusLines, firstUpdates]

/-- A program that makes such a run on a new header loses nothing. -/
theorem built_triple {program : HeldResponse → Program HeldResponse} (d : ErrorDescription)
    {lines : List Bytes} (hkeys : ∀ line ∈ lines, 32 ∈ line)
    (h : Follows program (firstUpdates d lines)) :
    Triple 0 (program {}) fun held u => Stands held (runUpdates {} (firstUpdates d lines)) u := by
  apply (h holds_zeroed sound_zeroed).mono
  intro held u hholds
  rw [Nat.zero_add, lostAlong_eq_zero (statusLines_firstUpdates d lines).le
    (by rwa [propertyLines_firstUpdates])] at hholds
  exact stands_of_holds hholds

/-- The properties of a file's response before its encoding is known. -/
def staticLines (path : Bytes) (isKeepAlive : Bool) : List Bytes :=
  HeaderUpdates.contentTypeProperties path ++ [bytes "Server: IhorWebServer_2004\r\n",
    if isKeepAlive then bytes "Connection: Keep-Alive\r\n" else bytes "Connection: close\r\n"]

theorem staticLines_keyed (path : Bytes) (isKeepAlive : Bool) :
    ∀ line ∈ staticLines path isKeepAlive, 32 ∈ line := by
  intro line hline
  rcases List.mem_append.mp hline with hline | hline
  · exact contentTypeProperties_keyed path line hline
  · have hkeyed : ∀ line ∈ [bytes "Server: IhorWebServer_2004\r\n",
        if isKeepAlive then bytes "Connection: Keep-Alive\r\n"
        else bytes "Connection: close\r\n"], 32 ∈ line := by
      cases isKeepAlive <;> decide
    exact hkeyed line hline

theorem runUpdates_staticLines (path : Bytes) (isKeepAlive : Bool) :
    runUpdates {} (firstUpdates okDescription (staticLines path isKeepAlive)) =
      Http.staticDataHeader path isKeepAlive := by
  rw [Http.staticDataHeader, HeaderUpdates.setResponseContentType_eq, runUpdates, firstUpdates,
    staticLines, List.foldl_cons, List.foldl_map, List.foldl_append]
  cases isKeepAlive with
  | true => rfl
  | false => rfl

theorem staticDataHeader_triple (path : Bytes) (isKeepAlive : Bool) :
    Triple 0 (staticDataHeader path isKeepAlive) fun held u =>
      Stands held (Http.staticDataHeader path isKeepAlive) u := by
  have hlast : ∀ line, Follows (fun held => do
      let held ← setResponseStatusLine held httpVersion (bytes "200") (bytes "OK")
      let held ← setResponseContentType held path
      let held ← setResponseProperty held (bytes "Server: IhorWebServer_2004\r\n")
      setResponseProperty held line)
      (firstUpdates okDescription (HeaderUpdates.contentTypeProperties path ++
        [bytes "Server: IhorWebServer_2004\r\n", line])) := by
    intro line
    have hfollows := (follows_statusLine httpVersion (bytes "200") (bytes "OK")).andThen
      ((follows_contentType path).andThen
        ((follows_property (bytes "Server: IhorWebServer_2004\r\n")).andThen
          (follows_property line)))
    rw [firstUpdates, List.map_append]
    exact hfollows
  have hkeyed := staticLines_keyed path isKeepAlive
  rw [← runUpdates_staticLines path isKeepAlive]
  cases isKeepAlive with
  | true => exact built_triple okDescription hkeyed (hlast _)
  | false => exact built_triple okDescription hkeyed (hlast _)

theorem staticDataHeader_sound (path : Bytes) (isKeepAlive : Bool) :
    Sound (Http.staticDataHeader path isKeepAlive) := by
  rw [← runUpdates_staticLines]
  exact sound_zeroed.runUpdates _

theorem staticDataHeader_body_ne (path : Bytes) (isKeepAlive : Bool) :
    (Http.staticDataHeader path isKeepAlive).body ≠ [] := by
  rw [(staticDataHeader_built path isKeepAlive).body_eq]
  exact List.cons_ne_nil _ _

end Header

section Send

variable {held : HeldResponse} {resp : HttpResponseHeader} {text : Bytes}
  {s : Multiset (Nat × Block)}

/-- The count of a header is not in any block. -/
theorem stands_recount (h : Stands held resp s) (total : Int) :
    Stands { held with totalByteLength := total } { resp with totalByteLength := total } s := by
  cases h with
  | intro fields hstatus hbody hfields hcount _ =>
      exact .intro fields (hstatus.congr rfl rfl) hbody hfields hcount rfl

theorem stands_total (h : Stands held resp s) :
    held.totalByteLength = resp.totalByteLength := by
  cases h with
  | intro _ _ _ _ _ htotal => exact htotal

/-- The data goes over the zero of the text and behind it. -/
theorem appendPayload_triple {t : Multiset (Nat × Block)} {payload size : Nat} {n : Nat}
    {appendData : Option Bytes} (hdata : n ≤ (appendData.getD []).length)
    (hsize : text.length + 1 + n ≤ size)
    (hs : s = t + cell payload (.chars size (text ++ [0]))) :
    Triple s (appendPayload payload text.length appendData n) fun _ u => ∃ rest,
      u = t + cell payload (.chars size (text ++ (appendData.getD []).take n ++ rest)) := by
  cases appendData with
  | none => exact Triple.pure ⟨[0], by rw [hs, Option.getD_none, List.take_nil, List.append_nil]⟩
  | some data =>
      by_cases hzero : (n : Int) = 0
      · have hnone : n = 0 := Int.ofNat_eq_zero.mp hzero
        rw [appendPayload, if_neg (not_not.mpr hzero)]
        exact Triple.pure ⟨[0], by rw [hs, hnone, List.take_zero, List.append_nil]⟩
      · have htaken : (data.take n).length = n := List.length_take_of_le hdata
        rw [appendPayload, if_pos hzero, Int.toNat_natCast, Int.toNat_natCast]
        apply (memcpy_triple hs (by simp) (by rw [htaken]; omega)).mono
        intro _ u hu
        rw [List.take_left] at hu
        exact ⟨_, hu⟩

/-- The payload is taken, filled, written and given back. -/
theorem sendHttpHeader_triple (h : Stands held resp s) (hexact : Exact resp text) (env : Env)
    (site : WriteSite) (c : Conn) {appendData : Option Bytes} {n : Nat}
    (hdata : n ≤ (appendData.getD []).length) (hint : text.length + 1 + n ≤ intMax) :
    Triple s (sendHttpHeader env site held appendData n c) fun sent u =>
      sent = ((Http.sendHttpHeader env site resp appendData n c).1, held,
        (Http.sendHttpHeader env site resp appendData n c).2.2) ∧ u = s := by
  have htotal := stands_total h
  have hgrown : toInt32 (held.totalByteLength + n) = (text.length + 1 + n : Nat) := by
    rw [htotal]
    exact hexact.grown hint
  have hrestored : toInt32 ((text.length + 1 + n : Nat) - n : Int) = held.totalByteLength := by
    rw [htotal]
    exact hexact.restored hint
  simp only [sendHttpHeader, hgrown, hrestored]
  by_cases hroom : maxChunkSize < text.length + 1 + n
  · rw [if_pos (by exact_mod_cast hroom), hexact.sendHttpHeader_refused env site c appendData hint
      hroom]
    exact Triple.pure ⟨rfl, rfl⟩
  · rw [if_neg (by exact_mod_cast hroom),
      hexact.sendHttpHeader_written env site c hdata (Nat.not_lt.mp hroom)]
    have hbuff : HttpParser.responseToBuff
        { resp with totalByteLength := ((text.length + 1 + n : Nat) : Int) } = some text :=
      hexact.buff_eq
    have hfits : ∀ text', HttpParser.responseToBuff
        { resp with totalByteLength := ((text.length + 1 + n : Nat) : Int) } = some text' →
        text'.length < ((text.length + 1 + n : Nat) : Int).toNat := by
      intro text' htext'
      rw [hbuff] at htext'
      rw [← Option.some.inj htext', Int.toNat_natCast]
      omega
    apply ((stands_recount h _).responseToBuff hfits).bind
    intro found u hfound
    rw [hbuff] at hfound
    obtain ⟨payload, rfl, rfl⟩ := hfound
    apply Triple.skip
    have hoffset : ((text.length + 1 + n : Nat) : Int) - n - 1 = (text.length : Nat) := by omega
    have hlast : (((text.length + 1 + n : Nat) : Int) - 1).toNat = text.length + n := by omega
    rw [hoffset, hlast]
    apply (appendPayload_triple hdata (Int.toNat_natCast _).ge rfl).bind
    rintro _ _ ⟨rest, rfl⟩
    have htaken : ((appendData.getD []).take n).length = n := List.length_take_of_le hdata
    have hlength : (text ++ (appendData.getD []).take n).length = text.length + n := by
      rw [List.length_append, htaken]
    apply (loadChars_triple rfl (by rw [List.length_append, hlength]; omega)).value
    rw [List.take_left' hlength]
    apply (free_triple rfl).step
    exact fun _ => Triple.pure ⟨rfl, rfl⟩

end Send

section Static

variable {env : Env} {c : Conn} {content : Bytes}

/-- The header is built, and the first slice read, as on header values. -/
theorem beginStatic_triple (h : Ready c content) :
    Triple 0 (beginStatic c) fun begun u =>
      Stands begun.1 (Http.beginStatic c).1 u ∧ begun.2 = (Http.beginStatic c).2 := by
  apply (staticDataHeader_triple (c.td.httpHeader.path.getD []) c.td.isKeepAlive).bind
  intro held u hstands
  have hsound := staticDataHeader_sound (c.td.httpHeader.path.getD []) c.td.isKeepAlive
  have hne := staticDataHeader_body_ne (c.td.httpHeader.path.getD []) c.td.isKeepAlive
  rw [Http.beginStatic]
  cases hencoding : c.td.isChunkEncoding with
  | true =>
      rw [if_pos rfl, if_pos rfl]
      apply (addProperty_triple hstands hsound (lostArrays_of_ne hne) _).bind
      intro held' u hstands'
      apply Triple.pure
      rw [stands_total hstands']
      exact ⟨hstands', rfl⟩
  | false =>
      rw [if_neg Bool.false_ne_true, if_neg Bool.false_ne_true]
      have hholds : Holds held (Http.staticDataHeader (c.td.httpHeader.path.getD [])
          c.td.isKeepAlive) 0 u := ⟨u, 0, (add_zero u).symm, hstands, rfl⟩
      have hlost : lostAlong (Http.staticDataHeader (c.td.httpHeader.path.getD [])
          c.td.isKeepAlive) [.property (bytes "Content-Length: " ++ decNumeral content.length ++
            crlf)] = 0 := by
        rw [lostAlong, updateLost, lostArrays_of_ne hne]
        rfl
      rw [h.toInt32_size]
      apply (follows_contentLength content.length hholds hsound).bind
      intro held' u hholds'
      rw [hlost] at hholds'
      have hstands' := stands_of_holds hholds'
      apply Triple.pure
      rw [stands_total hstands', beginIdentity, h.toInt32_size]
      refine ⟨hstands', ?_⟩
      rw [firstSlice, h.toInt32_size]
      rfl

theorem beginStatic_sound (c : Conn) : Sound (Http.beginStatic c).1 := by
  have hsound := staticDataHeader_sound (c.td.httpHeader.path.getD []) c.td.isKeepAlive
  rw [Http.beginStatic]
  split
  · exact hsound.apply (.property _)
  · exact hsound.apply (.property _)

theorem freeing_triple {held : HeldResponse} {resp : HttpResponseHeader}
    {s : Multiset (Nat × Block)} {β : Type} (h : Stands held resp s) (result : β) :
    Triple s (freeHttpResponsetHeader held >>= fun _ => pure result) fun r u =>
      r = result ∧ u = 0 := by
  apply h.freeHttpResponsetHeader.step
  exact fun _ => Triple.pure ⟨rfl, rfl⟩

/-- On each way out the header is freed. -/
theorem finishStatic_triple {held : HeldResponse} {resp : HttpResponseHeader} {path : Bytes}
    {size : Nat} {s : Multiset (Nat × Block)} (hstands : Stands held resp s)
    (hsound : Sound resp) (looped : Int × Conn) (hsize : size ≤ intMax)
    (hbuilt : Built resp okDescription (responseFields path looped.2.td.isKeepAlive
      looped.2.td.isChunkEncoding size)) :
    Triple s (finishStatic env held looped) fun r u =>
      r = Http.finishStatic env resp looped ∧ u = 0 := by
  rw [finishStatic, Http.finishStatic]
  by_cases hfailed : looped.1 < 0
  · rw [if_pos hfailed, if_pos hfailed]
    exact freeing_triple hstands _
  · rw [if_neg hfailed, if_neg hfailed]
    cases hencoding : looped.2.td.isChunkEncoding with
    | true => exact freeing_triple hstands _
    | false =>
        cases hkeep : looped.2.td.isKeepAlive with
        | true => exact freeing_triple hstands _
        | false =>
            rw [hencoding, hkeep] at hbuilt
            have hne : resp.body ≠ [] := by
              rw [hbuilt.body_eq]
              exact List.cons_ne_nil _ _
            have hlen := length_responseHeader_le path false false hsize
            have hmax : maxChunkSize = 8192 := rfl
            have hroom : (headerText okDescription (responseFields path false false size)).length +
                1 ≤ maxChunkSize := by
              rw [← responseHeader]
              omega
            have hexact : Exact _ (headerText okDescription (responseFields path false false size)) :=
              (trailerHeader_built hbuilt).exact hroom
            apply (addProperty_triple hstands hsound (lostArrays_of_ne hne) _).bind
            intro held' u hstands'
            have hint : (headerText okDescription (responseFields path false false size)).length +
                1 + 0 ≤ intMax := hroom.trans (by decide)
            have hnone : 0 ≤ ((none : Option Bytes).getD []).length := le_rfl
            apply (sendHttpHeader_triple hstands' hexact env .trailer looped.2 hnone hint).value
            exact freeing_triple hstands' _

theorem storeCalls_inside {c c' : Conn} (h : Calls InBounds c c') : storeCalls c c' = pure () := by
  obtain ⟨events, hlog, hinside⟩ := h
  rw [storeCalls, hlog, List.drop_left, if_pos hinside]

theorem storeCalls_outside {c c' : Conn} (hextends : c.log <+: c'.log)
    (h : ¬ Calls InBounds c c') : storeCalls c c' = undefined := by
  obtain ⟨events, hlog⟩ := hextends
  rw [storeCalls, ← hlog, List.drop_left, if_neg fun hinside => h ⟨events, hlog.symm, hinside⟩]

/-- The first slice stays inside, whatever the file. -/
theorem beginStatic_inside (h : Ready c content) : Calls InBounds c (Http.beginStatic c).2.conn := by
  cases hencoding : c.td.isChunkEncoding with
  | true => exact (beginStatic_inBounds hencoding).2
  | false => exact (beginStatic_inBounds_whole h hencoding).2

/-- The variables of `SendStaticData` behind the header write. -/
def headerSent (env : Env) (c : Conn) : Sending :=
  { (Http.beginStatic c).2 with
    conn := (Http.sendHttpHeader env .header (Http.beginStatic c).1
      (some (Http.beginStatic c).2.conn.td.responseBuffer.cells)
      ((Http.beginStatic c).2.amountOfData + (Http.beginStatic c).2.sizeOfChunkedDelim)
      (Http.beginStatic c).2.conn).2.2 }

/-- The end of the loop. -/
def loopEnd (env : Env) (c : Conn) : Int × Conn :=
  if (headerSent env c).totalDataSize > 0 then sendLoop env (headerSent env c)
  else (0, (headerSent env c).conn)

theorem headerSent_transfers (env : Env) (c : Conn) : Transfers c (headerSent env c).conn :=
  (beginStatic_transfers c).trans (sendHttpHeader_transfers env .header _ _ _ _)

theorem loopEnd_transfers (env : Env) (c : Conn) :
    Transfers (headerSent env c).conn (loopEnd env c).2 := by
  rw [loopEnd]
  split
  · exact sendLoop_transfers env (headerSent env c)
  · exact Transfers.refl _

theorem sendStaticData_loopEnd (h : Ready c content) (env : Env) :
    Http.sendStaticData env c = Http.finishStatic env (Http.beginStatic c).1 (loopEnd env c) := by
  have hresp : (Http.sendHttpHeader env .header (Http.beginStatic c).1
      (some (Http.beginStatic c).2.conn.td.responseBuffer.cells)
      ((Http.beginStatic c).2.amountOfData + (Http.beginStatic c).2.sizeOfChunkedDelim)
      (Http.beginStatic c).2.conn).2.1 = (Http.beginStatic c).1 :=
    congrArg Prod.fst ((beginStatic_begun h).header_write h.fits env)
  simp only [Http.sendStaticData, hresp]
  rfl

/-- All stores are inside exactly if those of the loop are. -/
theorem loopEnd_inside_iff (h : Ready c content) (env : Env) :
    Calls InBounds c (Http.sendStaticData env c).2 ↔
      Calls InBounds (headerSent env c).conn (loopEnd env c).2 := by
  have hfirst : Calls InBounds c (headerSent env c).conn :=
    (beginStatic_inside h).trans (sendHttpHeader_inBounds env .header _ _ _ _)
  have hend := finishStatic_inBounds env (Http.beginStatic c).1 (loopEnd env c)
  rw [sendStaticData_loopEnd h]
  constructor
  · rintro ⟨events, hlog, hinside⟩
    obtain ⟨first, hfirst', -⟩ := hfirst
    obtain ⟨looped, hlooped, -⟩ := (loopEnd_transfers env c).log
    obtain ⟨last, hlast, -⟩ := hend
    rw [hlast, hlooped, hfirst', List.append_assoc, List.append_assoc,
      List.append_cancel_left_eq] at hlog
    refine ⟨looped, hlooped, fun e he => hinside e ?_⟩
    rw [← hlog]
    simp [he]
  · exact fun hloop => (hfirst.trans hloop).trans hend

/-- Up to the loop the header is built and sent, and the first slice is inside. -/
theorem sendFirst_triple (h : Ready c content) (env : Env) :
    Triple 0 (sendFirst env c) fun r u =>
      Stands r.1 (Http.beginStatic c).1 u ∧ r.2 = headerSent env c := by
  have hbegun := beginStatic_begun h
  obtain ⟨hlow, hroom⟩ := firstBudget_bounds c.td h.fits
  have hframe : (frame c.td.isChunkEncoding (content.take (firstLimit c.td content))).length ≤
      firstBudget (headerOf c.td content) := length_frame_le (by omega) (by omega) content
  have htext : headerText okDescription (responseFields (c.td.httpHeader.path.getD [])
      c.td.isKeepAlive c.td.isChunkEncoding content.length) = headerOf c.td content := rfl
  have hexact := hbegun.built.exact (by rw [htext]; omega)
  have hcells := (Http.beginStatic c).2.conn.td.responseBuffer.size
  have hmax : maxChunkSize ≤ intMax := by decide
  apply (beginStatic_triple h).bind
  rintro ⟨held, s⟩ u ⟨hstands, rfl⟩
  rw [htext] at hexact
  have hsent := sendHttpHeader_triple hstands hexact env .header (Http.beginStatic c).2.conn
    (show (frame c.td.isChunkEncoding (content.take (firstLimit c.td content))).length ≤
      ((some (Http.beginStatic c).2.conn.td.responseBuffer.cells).getD []).length by
      rw [Option.getD_some]; omega) (by omega)
  rw [← hbegun.slice.size] at hsent
  dsimp only
  rw [storeCalls_inside (beginStatic_inside h)]
  apply Triple.skip
  apply hsent.value
  exact Triple.pure ⟨hstands, rfl⟩

/-- A response whose stores are inside does on the heap what it does on header values, and
gives back all that it takes, whether the writes succeed or not. -/
theorem sendStaticData_triple (h : Ready c content) (hinside : StaysInside c.td) (env : Env) :
    Triple 0 (sendStaticData env c) fun r u => r = Http.sendStaticData env c ∧ u = 0 := by
  have hloop := (loopEnd_inside_iff h env).mp ((sendStaticData_staysInside_iff env h).mpr hinside)
  apply (sendFirst_triple h env).bind
  rintro ⟨held, _⟩ u ⟨hstands, rfl⟩
  have htransfers := (headerSent_transfers env c).trans (loopEnd_transfers env c)
  have hflags : (loopEnd env c).2.td.isKeepAlive = c.td.isKeepAlive ∧
      (loopEnd env c).2.td.isChunkEncoding = c.td.isChunkEncoding := by
    rw [htransfers.td]
    exact ⟨rfl, rfl⟩
  rw [sendStaticData_loopEnd h]
  change Triple u (storeCalls _ (loopEnd env c).2 >>= fun _ =>
    finishStatic env held (loopEnd env c)) _
  rw [storeCalls_inside hloop]
  apply Triple.skip
  apply finishStatic_triple hstands (beginStatic_sound c) (loopEnd env c) h.fits
  rw [hflags.1, hflags.2]
  exact (beginStatic_begun h).built

/-- A full slice of the loop has its zero stored behind the buffer. -/
theorem sendStaticData_faults (h : Ready c content) (houtside : ¬ StaysInside c.td) (env : Env)
    (s : Multiset (Nat × Block)) : Faults s (sendStaticData env c) := by
  have hloop := mt (loopEnd_inside_iff h env).mpr
    (mt (sendStaticData_staysInside_iff env h).mp houtside)
  have hfirst := ((sendFirst_triple h env).frame s).of_eq (zero_add s).symm
  apply hfirst.bind_faults
  rintro ⟨held, _⟩ _ ⟨u, rfl, hstands, rfl⟩
  change Faults _ (storeCalls _ (loopEnd env c).2 >>= fun _ =>
    finishStatic env held (loopEnd env c))
  rw [storeCalls_outside (loopEnd_transfers env c).log.log_extends hloop]
  exact (undefined_faults _).bind

end Static

theorem exact_of_built {resp : HttpResponseHeader} {d : ErrorDescription} {fields : List Field}
    (h : Built resp d fields) (hroom : (headerText d fields).length + 1 ≤ maxChunkSize) :
    ∀ text, HttpParser.responseToBuff resp = some text →
      text.length < resp.totalByteLength.toNat := by
  intro text htext
  have hexact := h.exact hroom
  rw [hexact.buff_eq] at htext
  rw [hexact.total_eq, ← Option.some.inj htext, Int.toNat_natCast]
  exact Nat.lt_succ_self _

theorem length_errorHeader_le : ∀ d ∈ kErrorDescriptions,
    (headerText d errorFields).length + d.errorStatus.length + 2 ≤ 128 := by decide

/-- The two properties of a header that ends the connection. -/
theorem twoProperties_triple {held : HeldResponse} {own : Multiset (Nat × Block)}
    {version statusCode status first : Bytes} (hfirst : 32 ∈ first) (second : Bytes)
    (h : Stands held (HttpParser.setResponseStatusLine {} version statusCode status) own) :
    Triple own (setResponseProperty held first >>= fun held' => setResponseProperty held' second)
      fun held' u => Stands held' (HttpParser.setResponseProperty (HttpParser.setResponseProperty
        (HttpParser.setResponseStatusLine {} version statusCode status) first) second) u := by
  have hsound := sound_zeroed.apply (.statusLine version statusCode status)
  apply (addProperty_triple h hsound (lostArrays_statusLine _ _ _) first).bind
  intro held' u hstands
  have hne : (HttpParser.setResponseProperty
      (HttpParser.setResponseStatusLine {} version statusCode status) first).body ≠ [] := by
    have heffect := HeaderUpdates.setResponseProperty_effect
      (HttpParser.setResponseStatusLine {} version statusCode status) first
    generalize HttpParser.setResponseProperty
      (HttpParser.setResponseStatusLine {} version statusCode status) first = resp at heffect ⊢
    cases heffect with
    | ignored _ hcase =>
        have hroom : (0 : Nat) ≠ HttpParser.httpBodyFieldLimit := by decide
        exact absurd hfirst (hcase.resolve_left hroom)
    | overwritten => simp
    | appended => simp
  exact addProperty_triple hstands (hsound.apply (.property first)) (lostArrays_of_ne hne) second

/-- The text of an error stands in a block of its own size. -/
theorem describeError_triple {errorCode : Int} {d : ErrorDescription}
    (hd : findErrorDescription errorCode = some d) (problemName : Bytes) :
    Triple 0 (describeError errorCode problemName) fun described u => ∃ errorPayload own,
      described.2 = some errorPayload ∧
      u = own + cell errorPayload (.chars (problemName.length + d.errorStatus.length + 2)
        (problemName ++ bytes " " ++ d.errorStatus ++ [0])) ∧
      Stands described.1 (HttpParser.setResponseStatusLine {} httpVersion d.errorCode
        d.errorStatus) own := by
  rw [describeError, hd]
  have hblank : (bytes " ").length = 1 := by decide
  apply (stands_zeroed.setResponseStatusLine httpVersion d.errorCode d.errorStatus).bind
  intro held own hholds
  have hstands := stands_of_holds hholds
  apply (malloc_triple own _).bind
  rintro errorPayload _ rfl
  apply (strcpy_triple rfl (by omega)).step
  intro _
  apply (strcat_triple rfl (by omega)).step
  intro _
  apply (strcat_triple rfl (by rw [List.length_append]; omega)).step
  intro _
  exact Triple.pure ⟨errorPayload, own, rfl, rfl, hstands⟩

/-- `HandleError` with a description gives back all that it takes. -/
theorem handleError_triple (env : Env) (errorCode : Int) {problemName : Bytes} {c c' : Conn}
    (hname : problemName.length + 128 ≤ maxChunkSize)
    (h : Http.handleError env errorCode problemName c = some c') :
    Triple 0 (handleError env errorCode problemName c) fun r u => r = c' ∧ u = 0 := by
  rw [Http.handleError] at h
  cases hd : findErrorDescription errorCode with
  | none =>
      rw [hd] at h
      cases h
  | some d =>
      rw [hd] at h
      apply (describeError_triple hd problemName).bind
      rintro ⟨held, _⟩ _ ⟨errorPayload, own, rfl, rfl, hstands⟩
      have hmem : d ∈ kErrorDescriptions := List.mem_of_getElem? hd
      have hbuilt := errorHeader_built d
      have hlength := length_errorHeader_le d hmem
      have hroom : (headerText d errorFields).length + 1 ≤ maxChunkSize := by omega
      have hblank : (bytes " ").length = 1 := by decide
      have hfits : ¬ maxChunkSize < (headerText d errorFields ++
          (problemName ++ bytes " " ++ d.errorStatus) ++ [0]).length := by
        simp only [List.length_append, List.length_singleton, hblank]
        omega
      have hbuff := hbuilt.responseToBuff
      simp only [hbuff, Option.some.injEq] at h
      have hkey : (32 : UInt8) ∈ bytes "Content-Type: text/plain\r\n" := by decide
      dsimp only at hstands ⊢
      rw [← bind_assoc]
      apply ((twoProperties_triple hkey (bytes "Connection: close\r\n") hstands).frame _).bind
      rintro held' _ ⟨own', rfl, hstands'⟩
      have hheader : Stands held' (errorHeader d) own' := hstands'
      apply ((hheader.responseToBuff (exact_of_built hbuilt hroom)).frame _).bind
      rintro found _ ⟨v, rfl, hfound⟩
      rw [hbuff] at hfound
      obtain ⟨headerBuff, rfl, rfl⟩ := hfound
      apply Triple.skip
      have hblocks : ∀ block block' : Multiset (Nat × Block),
          own' + block + block' = own' + block' + block := by
        intro block block'
        abel
      apply (loadText_triple (hblocks _ _)).value
      apply Triple.skip
      apply (loadText_triple rfl).value
      rw [if_neg hfits]
      apply (free_triple (hblocks _ _)).step
      intro _
      apply (free_triple rfl).step
      intro _
      rw [← h]
      exact freeing_triple hstands' _

/-- `CloseConnection` behind a request that is answered gives back all that it takes. -/
theorem closeConnection_triple (env : Env) {c : Conn} (hsize : c.td.staticFileSize = 0) :
    Triple 0 (closeConnection env c) fun r u => r = Http.closeConnection env c ∧ u = 0 := by
  apply (stands_zeroed.setResponseStatusLine httpVersion (bytes "200") (bytes "OK")).bind
  intro held own hholds
  have hstands := stands_of_holds hholds
  have hkey : (32 : UInt8) ∈ bytes "Connection: close\r\n" := by decide
  rw [← bind_assoc]
  apply (twoProperties_triple hkey (bytes "Content-Length: 0\r\n") hstands).bind
  intro held' u hstands'
  have hexact : Exact (HttpParser.setResponseProperty (HttpParser.setResponseProperty
      (HttpParser.setResponseStatusLine {} httpVersion (bytes "200") (bytes "OK"))
      (bytes "Connection: close\r\n")) (bytes "Content-Length: 0\r\n"))
      (bytes "HTTP/1.1 200 OK\r\nConnection: close\r\nContent-Length: 0\r\n\r\n") :=
    ⟨by decide, by decide⟩
  have hzero : toInt32 c.td.staticFileSize = (0 : Nat) := by
    rw [hsize]
    rfl
  have hint : (bytes "HTTP/1.1 200 OK\r\nConnection: close\r\nContent-Length: 0\r\n\r\n").length +
      1 + 0 ≤ intMax := by decide
  rw [Http.closeConnection, hzero]
  apply (sendHttpHeader_triple hstands' hexact env .close c (Nat.zero_le _) hint).value
  exact freeing_triple hstands' _

end HttpsServ.SendMemory
