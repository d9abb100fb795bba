import HttpsServ.ResponseHeader
import HttpsServ.ChunkFrames
import HttpsServ.Library.Script

/-!
# The script of a response

While no write fails, what `SendStaticData` does is settled by the request and
the file alone: a list of reads and writes, in which only the results of the
writes are still open. The script is stated on the file, slice by slice, and
the code's run is its performance.
-/

namespace HttpsServ.StaticTransfer

open ByteString Utility Http HttpParser ResponseHeader ChunkFrames Chunked IntegerHelpers
  Script

/-- The result that the environment gives to an event. -/
def answered (env : Env) (log : List Event) : Event → Event
  | .write site buffer _ => .write site buffer (env.sslWrite log buffer)
  | e => e

/-- No write of the environment reports an error. -/
def NoWriteFails (env : Env) : Prop := ∀ log buffer, 0 ≤ env.sslWrite log buffer

/-- Every write is taken whole. -/
def FullWrites (env : Env) : Prop := ∀ log buffer, env.sslWrite log buffer = buffer.length

theorem FullWrites.noWriteFails {env : Env} (h : FullWrites env) : NoWriteFails env := by
  intro log buffer
  rw [h]
  exact Int.natCast_nonneg _

theorem Env.steady_fullWrites (files : Bytes → Option FileImage) : FullWrites (Env.steady files) :=
  fun _ _ => rfl

/-- What goes on the wire for a slice. -/
def frame (isChunkEncoding : Bool) (slice : Bytes) : Bytes :=
  if isChunkEncoding then chunkFrame slice else slice

/-- How many bytes of the file one write takes at most, out of a buffer budget. -/
def sliceLimit (isChunkEncoding : Bool) (budget : Nat) : Nat :=
  if isChunkEncoding then budget - 8 else budget

/-- The calls that bring the next slice of the unread file into the buffer. -/
def sliceReads (isChunkEncoding : Bool) (budget : Nat) (unread : Bytes) : List Event :=
  let slice := unread.take (sliceLimit isChunkEncoding budget)
  if isChunkEncoding then
    [.chunkCall unread.length budget, .fread (sizeWidth slice.length + 2) slice]
  else [.fread 0 slice]

/-- The reads and the write for the next slice, with bytes in front of it. -/
def sliceScript (isChunkEncoding : Bool) (budget : Nat) (site : WriteSite) (before : Bytes)
    (unread : Bytes) : List Event :=
  sliceReads isChunkEncoding budget unread ++
    [.write site
      (before ++ frame isChunkEncoding (unread.take (sliceLimit isChunkEncoding budget))) 0]

/-- The loop: slices until one is empty. -/
def loopScript (isChunkEncoding : Bool) (unread : Bytes) : List Event :=
  if _h : unread = [] then sliceScript isChunkEncoding maxChunkSize .body [] []
  else
    sliceScript isChunkEncoding maxChunkSize .body [] unread ++
      loopScript isChunkEncoding (unread.drop (sliceLimit isChunkEncoding maxChunkSize))
termination_by unread.length
decreasing_by
  have hpos := List.length_pos_iff.mpr _h
  have hlimit : 0 < sliceLimit isChunkEncoding maxChunkSize := by
    cases isChunkEncoding <;> decide
  rw [List.length_drop]
  omega

theorem loopScript_nil (isChunkEncoding : Bool) :
    loopScript isChunkEncoding [] = sliceScript isChunkEncoding maxChunkSize .body [] [] := by
  rw [loopScript, dif_pos rfl]

theorem loopScript_of_ne (isChunkEncoding : Bool) {unread : Bytes} (h : unread ≠ []) :
    loopScript isChunkEncoding unread =
      sliceScript isChunkEncoding maxChunkSize .body [] unread ++
        loopScript isChunkEncoding (unread.drop (sliceLimit isChunkEncoding maxChunkSize)) := by
  rw [loopScript, dif_neg h]

/-- What the first write has left for the file. -/
def firstBudget (header : Bytes) : Nat := maxChunkSize - (header.length + 1)

/-- The end of a response behind the loop. -/
def endScript (isChunkEncoding isKeepAlive : Bool) (header : Bytes) : List Event :=
  if isChunkEncoding then [.write (.terminator isKeepAlive) (bytes "0\r\n\r\n") 0]
  else if isKeepAlive then [] else [.write .trailer header 0]

/-- What follows the header write, for a file of which it took `limit` bytes. The
loop is entered on the bytes that are left, or in identity mode on the size. -/
def restScript (isChunkEncoding : Bool) (limit : Nat) (content : Bytes) : List Event :=
  let counted := if isChunkEncoding then content.drop limit else content
  if counted = [] then [] else loopScript isChunkEncoding (content.drop limit)

theorem drop_eq_nil_of_counted {isChunkEncoding : Bool} {limit : Nat} {content : Bytes}
    (h : (if isChunkEncoding then content.drop limit else content) = []) :
    content.drop limit = [] := by
  cases isChunkEncoding with
  | true => exact h
  | false => rw [show content = [] from h, List.drop_nil]

theorem restScript_cases (isChunkEncoding : Bool) (limit : Nat) (content : Bytes) :
    (content.drop limit = [] ∧ restScript isChunkEncoding limit content = []) ∨
      restScript isChunkEncoding limit content =
        loopScript isChunkEncoding (content.drop limit) := by
  by_cases hcounted : (if isChunkEncoding then content.drop limit else content) = []
  · exact .inl ⟨drop_eq_nil_of_counted hcounted, if_pos hcounted⟩
  · exact .inr (if_neg hcounted)

/-- A whole response for a file. -/
def responseScript (path : Bytes) (isKeepAlive isChunkEncoding : Bool) (content : Bytes) :
    List Event :=
  let header := responseHeader path isKeepAlive isChunkEncoding content.length
  sliceScript isChunkEncoding (firstBudget header) .header header content ++
    restScript isChunkEncoding (sliceLimit isChunkEncoding (firstBudget header)) content ++
    endScript isChunkEncoding isKeepAlive header

/-- The variables of the loop while `unread` is left of the file. -/
structure Reading (s : Sending) (isChunkEncoding : Bool) (unread : Bytes) : Prop where
  encoding : s.conn.td.isChunkEncoding = isChunkEncoding
  file : s.conn.td.staticFile = some { unread := unread }
  total : isChunkEncoding = true → s.totalDataSize = unread.length
  whole : isChunkEncoding = false → s.sizeOfChunkedDelim = 0 ∧
    s.sizeThatShouldBeReaded = maxChunkSize

/-- What the reads for one slice do: they are logged, the slice is taken off the
file, and the buffer begins with the bytes to send. -/
structure SliceRead (c : Conn) (s' : Sending) (isChunkEncoding : Bool) (budget : Nat)
    (unread slice : Bytes) : Prop where
  reading : Reading s' isChunkEncoding (unread.drop (sliceLimit isChunkEncoding budget))
  amount : s'.amountOfData = slice.length
  size : s'.amountOfData + s'.sizeOfChunkedDelim = (frame isChunkEncoding slice).length
  cells : s'.conn.td.responseBuffer.cells.take (frame isChunkEncoding slice).length =
    frame isChunkEncoding slice
  others : s'.conn.td = { c.td with
    responseBuffer := s'.conn.td.responseBuffer, staticFile := s'.conn.td.staticFile }
  log : s'.conn.log = c.log ++ sliceReads isChunkEncoding budget unread

theorem drop_length_take (n : Nat) (s : Bytes) : s.drop (s.take n).length = s.drop n := by
  rw [List.length_take]
  rcases Nat.le_total s.length n with hle | hle
  · rw [Nat.min_eq_right hle, List.drop_eq_nil_of_le hle, List.drop_length]
  · rw [Nat.min_eq_left hle]

theorem take_length_take (n : Nat) (s : Bytes) : s.take (s.take n).length = s.take n :=
  (List.prefix_iff_eq_take.mp (List.take_prefix _ _)).symm

/-- The place of the slice behind the size line. -/
theorem sliceOffset (width : Nat) :
    saturateValue (((width + 4 : Nat) : Int) - sizeofCrlf) (width + 4 : Nat) =
      (width + 2 : Nat) := by
  have hcrlf : ((width + 4 : Nat) : Int) - sizeofCrlf = (width + 2 : Nat) := by
    rw [sizeofCrlf]
    omega
  rw [hcrlf, saturateValue_eq_min _ (by omega), Nat.min_eq_left (by omega)]

theorem freadResponse_eq {c : Conn} {unread : Bytes}
    (hfile : c.td.staticFile = some { unread := unread }) (offset size : Nat) :
    freadResponse offset size c =
      (((unread.take size).length : Int),
        { td := { c.td with
            responseBuffer := c.td.responseBuffer.store offset (unread.take size)
            staticFile := some { unread := unread.drop size } }
          log := c.log ++ [.fread offset (unread.take size)] }) := by
  simp only [freadResponse, hfile, Option.elim_some, Option.map_some, Int.toNat_natCast, Conn.emit]

/-- `ComputeChunkEncodingData` announces the slice that fits and stores its frame. -/
theorem computeChunk_eq {s : Sending} {total budget : Nat} (htotal : s.totalDataSize = total)
    (hlow : 16 ^ 3 + 8 ≤ budget) (hhigh : budget ≤ maxChunkSize) :
    let size := min total (budget - 8)
    s.computeChunk budget =
      { sizeOfChunkedDelim := (sizeWidth size + 4 : Nat)
        sizeThatShouldBeReaded := size
        totalDataSize := (total - size : Nat)
        amountOfData := s.amountOfData
        conn :=
          { td := { s.conn.td with
              responseBuffer := s.conn.td.responseBuffer.storeAll (frameStores size) }
            log := s.conn.log ++ [.chunkCall total budget] } } := by
  have hmax : maxChunkSize = 8192 := rfl
  have hlayout := computeChunkEncodingData_eq total hlow (by omega)
  simp only [Sending.computeChunk, htotal, hlayout, Conn.emit]

/-- `ComputeChunkEncodingData` and the read behind the size line. -/
theorem computeChunk_readSlice {s : Sending} {unread : Bytes}
    (htotal : s.totalDataSize = unread.length)
    (hfile : s.conn.td.staticFile = some { unread := unread })
    (hencoding : s.conn.td.isChunkEncoding = true)
    {budget : Nat} (hlow : 16 ^ 3 + 8 ≤ budget) (hhigh : budget ≤ maxChunkSize) :
    SliceRead s.conn (s.computeChunk budget).readSlice true budget unread
      (unread.take (sliceLimit true budget)) := by
  have hmax : maxChunkSize = 8192 := rfl
  have hlimit : sliceLimit true budget = budget - 8 := rfl
  have htake := take_length_take (sliceLimit true budget) unread
  have hdrop := drop_length_take (sliceLimit true budget) unread
  have hsize : (unread.take (sliceLimit true budget)).length =
      min unread.length (budget - 8) := by
    rw [hlimit, List.length_take, Nat.min_comm]
  have hreads : sliceReads true budget unread =
      [.chunkCall unread.length budget,
        .fread (sizeWidth (unread.take (sliceLimit true budget)).length + 2)
          (unread.take (sliceLimit true budget))] := rfl
  have hchunk := computeChunk_eq htotal hlow hhigh
  simp only [← hsize] at hchunk
  generalize unread.take (sliceLimit true budget) = slice at htake hdrop hsize hreads hchunk ⊢
  have hread : (s.computeChunk budget).readSlice =
      { sizeOfChunkedDelim := (sizeWidth slice.length + 4 : Nat)
        sizeThatShouldBeReaded := slice.length
        totalDataSize := (unread.length - slice.length : Nat)
        amountOfData := slice.length
        conn :=
          { td := { s.conn.td with
              responseBuffer :=
                (s.conn.td.responseBuffer.storeAll (frameStores slice.length)).store
                  (sizeWidth slice.length + 2) slice
              staticFile := some { unread := unread.drop (sliceLimit true budget) } }
            log := s.conn.log ++ [.chunkCall unread.length budget] ++
              [.fread (sizeWidth slice.length + 2) slice] } } := by
    simp only [hchunk, Sending.readSlice, sliceOffset, freadResponse, Conn.emit, hfile,
      Option.elim_some, Option.map_some, Int.toNat_natCast, htake, hdrop]
  have hframe : (frame true slice).length = sizeWidth slice.length + 4 + slice.length :=
    length_chunkFrame (by omega)
  rw [hread]
  refine ⟨⟨hencoding, rfl, ?_, ?_⟩, rfl, ?_, ?_, rfl, ?_⟩
  · intro _
    simp only [List.length_drop, hsize, hlimit]
    omega
  · intro h
    cases h
  · simp only [hframe]
    omega
  · apply take_storedFrame_buffer
    have hwidth : sizeWidth slice.length ≤ 4 := sizeWidth_le (by omega)
    have hchunkFrame : (chunkFrame slice).length = (frame true slice).length := rfl
    omega
  · rw [hreads, List.append_assoc]
    rfl

/-- A slice that goes out as it is, from the start of the buffer. -/
theorem freadResponse_whole {s : Sending} {unread : Bytes}
    (hfile : s.conn.td.staticFile = some { unread := unread })
    (hencoding : s.conn.td.isChunkEncoding = false) (hdelim : s.sizeOfChunkedDelim = 0)
    (hread : s.sizeThatShouldBeReaded = maxChunkSize) {budget : Nat}
    (hhigh : budget ≤ maxChunkSize) :
    SliceRead s.conn
      { s with
        amountOfData := (freadResponse 0 budget s.conn).1
        conn := (freadResponse 0 budget s.conn).2 }
      false budget unread (unread.take (sliceLimit false budget)) := by
  have hlimit : sliceLimit false budget = budget := rfl
  have hframe : frame false (unread.take budget) = unread.take budget := rfl
  have hlength : (unread.take budget).length ≤ budget := by
    rw [List.length_take]
    exact Nat.min_le_left _ _
  rw [freadResponse_eq hfile, hlimit]
  refine ⟨⟨hencoding, rfl, ?_, fun _ => ⟨hdelim, hread⟩⟩, rfl, ?_, ?_, rfl, rfl⟩
  · intro h
    cases h
  · simp only [hdelim, hframe, Int.add_zero]
  · have hfits : 0 + (unread.take budget).length ≤ s.conn.td.responseBuffer.cells.length := by
      rw [s.conn.td.responseBuffer.size]
      omega
    have hstored := take_drop_overwrite le_rfl hfits
    rwa [List.take_length, List.drop_zero] at hstored

/-- The loop body up to the write, in either encoding. -/
theorem nextSlice_read {s : Sending} {isChunkEncoding : Bool} {unread : Bytes}
    (h : Reading s isChunkEncoding unread) :
    SliceRead s.conn s.nextSlice isChunkEncoding maxChunkSize unread
      (unread.take (sliceLimit isChunkEncoding maxChunkSize)) := by
  cases isChunkEncoding with
  | true =>
      rw [Sending.nextSlice, if_pos h.encoding]
      exact computeChunk_readSlice (h.total rfl) h.file h.encoding (by decide) le_rfl
  | false =>
      obtain ⟨hdelim, hread⟩ := h.whole rfl
      have hoff : saturateValue (s.sizeOfChunkedDelim - sizeofCrlf) s.sizeOfChunkedDelim = 0 := by
        rw [hdelim]
        decide
      have hnext : s.nextSlice =
          { s with
            amountOfData := (freadResponse 0 maxChunkSize s.conn).1
            conn := (freadResponse 0 maxChunkSize s.conn).2 } := by
        rw [Sending.nextSlice, h.encoding, if_neg (by decide), Sending.readSlice, hoff, hread]
        rfl
      rw [hnext]
      exact freadResponse_whole h.file h.encoding hdelim hread le_rfl

theorem perform_sliceScript (env : Env) (log : List Event) (isChunkEncoding : Bool)
    (budget : Nat) (site : WriteSite) (before unread : Bytes) :
    perform (answered env) log (sliceScript isChunkEncoding budget site before unread) =
      sliceReads isChunkEncoding budget unread ++
        [answered env (log ++ sliceReads isChunkEncoding budget unread)
          (.write site (before ++
            frame isChunkEncoding (unread.take (sliceLimit isChunkEncoding budget))) 0)] := by
  have hreads : perform (answered env) log (sliceReads isChunkEncoding budget unread) =
      sliceReads isChunkEncoding budget unread := by
    cases isChunkEncoding <;> rfl
  rw [sliceScript, perform_append, hreads]
  rfl

/-- The write of the loop body sends the slice in its frame. -/
theorem writeSlice_eq (env : Env) {c : Conn} {s' : Sending} {isChunkEncoding : Bool}
    {budget : Nat} {unread slice : Bytes}
    (h : SliceRead c s' isChunkEncoding budget unread slice) :
    s'.writeSlice env = sslWrite env .body (frame isChunkEncoding slice) s'.conn := by
  rw [Sending.writeSlice, h.size, Int.toNat_natCast, h.cells]

/-- One pass through the loop body while no write fails. -/
theorem writeSlice_conn (env : Env) {s : Sending} {isChunkEncoding : Bool} {unread : Bytes}
    (h : Reading s isChunkEncoding unread) :
    ((s.nextSlice.writeSlice env).2.clearResponse) =
      { td := { s.conn.td with
          responseBuffer := .zero
          staticFile :=
            some { unread := unread.drop (sliceLimit isChunkEncoding maxChunkSize) } }
        log := s.conn.log ++ perform (answered env) s.conn.log
          (sliceScript isChunkEncoding maxChunkSize .body [] unread) } := by
  have hnext := nextSlice_read h
  rw [writeSlice_eq env hnext, perform_sliceScript, List.nil_append]
  simp only [sslWrite, Conn.emit, Conn.clearResponse, answered]
  rw [hnext.log, hnext.others, hnext.reading.file, List.append_assoc]

/-- Without a failed write the loop comes to its end. -/
theorem sendLoop_succeeds {env : Env} (henv : NoWriteFails env) (s : Sending) :
    0 ≤ (sendLoop env s).1 := by
  induction s using sendLoop.induct env with
  | case1 s hfailed => exact absurd (henv _ _) (Int.not_le.mpr hfailed)
  | case2 s hwrite hempty =>
      rw [sendLoop_of_empty hwrite hempty]
  | case3 s hwrite hmore ih =>
      rw [sendLoop_of_more hwrite hmore]
      exact ih

/-- A loop that comes to its end performs its script and reads the whole file. -/
theorem sendLoop_eq {env : Env} {s : Sending} {isChunkEncoding : Bool} {unread : Bytes}
    (h : Reading s isChunkEncoding unread) (hdone : 0 ≤ (sendLoop env s).1) :
    sendLoop env s =
      (0,
        { td := { s.conn.td with
            responseBuffer := .zero
            staticFile := some { unread := [] } }
          log := s.conn.log ++
            perform (answered env) s.conn.log (loopScript isChunkEncoding unread) }) := by
  induction hlen : unread.length using Nat.strong_induction_on generalizing s unread with
  | _ n ih =>
      have hnext := nextSlice_read h
      have hwrite : ¬ (s.nextSlice.writeSlice env).1 < 0 := by
        intro hfailed
        rw [sendLoop_of_failed hfailed] at hdone
        exact absurd (show 0 ≤ networkError from hdone) (by decide)
      have hlimit : 0 < sliceLimit isChunkEncoding maxChunkSize := by
        cases isChunkEncoding <;> decide
      by_cases hempty : unread = []
      · have hzero : s.nextSlice.amountOfData = 0 := by
          rw [hnext.amount, hempty, List.take_nil]
          rfl
        subst hempty
        rw [sendLoop_of_empty hwrite hzero, writeSlice_conn env h, loopScript_nil, List.drop_nil]
      · have hpos := List.length_pos_iff.mpr hempty
        have hnonzero : s.nextSlice.amountOfData ≠ 0 := by
          rw [hnext.amount, List.length_take]
          omega
        have hreading : Reading
            { s.nextSlice with
              conn :=
                { td := { s.conn.td with
                    responseBuffer := .zero
                    staticFile :=
                      some { unread := unread.drop (sliceLimit isChunkEncoding maxChunkSize) } }
                  log := s.conn.log ++ perform (answered env) s.conn.log
                    (sliceScript isChunkEncoding maxChunkSize .body [] unread) } }
            isChunkEncoding (unread.drop (sliceLimit isChunkEncoding maxChunkSize)) :=
          ⟨h.encoding, rfl, hnext.reading.total, hnext.reading.whole⟩
        have hshort : (unread.drop (sliceLimit isChunkEncoding maxChunkSize)).length < n := by
          rw [List.length_drop]
          omega
        rw [sendLoop_of_more hwrite hnonzero, writeSlice_conn env h] at hdone ⊢
        rw [ih _ hshort hreading hdone rfl, loopScript_of_ne _ hempty, perform_append,
          List.append_assoc]

/-- What `HandleConnection` hands to `SendStaticData`: an open file at its start
with its size, and an empty response buffer. -/
structure Ready (c : Conn) (content : Bytes) : Prop where
  file : c.td.staticFile = some { unread := content }
  size : c.td.staticFileSize = content.length
  fits : content.length ≤ intMax
  clear : c.td.responseBuffer = .zero

/-- A connection that is about to answer with a file. -/
def Conn.serving (path content : Bytes) (isKeepAlive isChunkEncoding : Bool) : Conn where
  td := { ThreadData.fresh [] [] with
    httpHeader := { path := some path }
    staticFile := some { unread := content }
    staticFileSize := content.length
    isKeepAlive := isKeepAlive
    isChunkEncoding := isChunkEncoding }
  log := []

theorem Conn.serving_ready (path content : Bytes) (isKeepAlive isChunkEncoding : Bool)
    (h : content.length ≤ intMax) :
    Ready (Conn.serving path content isKeepAlive isChunkEncoding) content :=
  ⟨rfl, rfl, h, rfl⟩

theorem length_frame_le {isChunkEncoding : Bool} {budget : Nat} (hlow : 8 ≤ budget)
    (hhigh : budget ≤ maxChunkSize) (unread : Bytes) :
    (frame isChunkEncoding (unread.take (sliceLimit isChunkEncoding budget))).length ≤
      budget := by
  have hmax : maxChunkSize = 8192 := rfl
  cases isChunkEncoding with
  | false =>
      simp only [frame, sliceLimit, Bool.false_eq_true, if_false, List.length_take]
      omega
  | true =>
      have hslice : (unread.take (sliceLimit true budget)).length ≤ budget - 8 := by
        rw [List.length_take]
        exact Nat.min_le_left _ _
      have hwidth : sizeWidth (unread.take (sliceLimit true budget)).length ≤ 4 :=
        sizeWidth_le (by omega)
      have hframe : (frame true (unread.take (sliceLimit true budget))).length =
          sizeWidth (unread.take (sliceLimit true budget)).length + 4 +
            (unread.take (sliceLimit true budget)).length := length_chunkFrame (by omega)
      omega

/-- The header block of the response to a connection's request. -/
def headerOf (td : ThreadData) (content : Bytes) : Bytes :=
  responseHeader (td.httpHeader.path.getD []) td.isKeepAlive td.isChunkEncoding content.length

/-- Enough room is left beside the header. -/
theorem firstBudget_bounds (td : ThreadData) {content : Bytes} (h : content.length ≤ intMax) :
    16 ^ 3 + 8 ≤ firstBudget (headerOf td content) ∧
      (headerOf td content).length + 1 + firstBudget (headerOf td content) = maxChunkSize := by
  have hlen : (headerOf td content).length ≤ 188 := length_responseHeader_le _ _ _ h
  have hmax : maxChunkSize = 8192 := rfl
  rw [firstBudget]
  omega

theorem Ready.toInt32_size {c : Conn} {content : Bytes} (h : Ready c content) :
    toInt32 c.td.staticFileSize = content.length := by
  rw [h.size]
  exact ResponseHeader.toInt32_size h.fits

/-- What a finished header has left of the buffer. -/
theorem Ready.budget_eq {c : Conn} {content : Bytes} (h : Ready c content)
    {resp : HttpResponseHeader}
    (hbuilt : Built resp okDescription (responseFields (c.td.httpHeader.path.getD [])
      c.td.isKeepAlive c.td.isChunkEncoding content.length)) :
    (maxChunkSize : Int) - resp.totalByteLength = firstBudget (headerOf c.td content) := by
  have hroom := (firstBudget_bounds c.td h.fits).2
  have htext : headerText okDescription (responseFields (c.td.httpHeader.path.getD [])
      c.td.isKeepAlive c.td.isChunkEncoding content.length) = headerOf c.td content := rfl
  rw [(hbuilt.exact (by rw [htext]; omega)).total_eq, htext]
  omega

/-- How much of the file goes out with the header. -/
def firstLimit (td : ThreadData) (content : Bytes) : Nat :=
  sliceLimit td.isChunkEncoding (firstBudget (headerOf td content))

/-- The header and the variables of `SendStaticData` before the header write. -/
structure Begun (c : Conn) (content : Bytes) (begun : HttpResponseHeader × Sending) :
    Prop where
  built : Built begun.1 okDescription (responseFields (c.td.httpHeader.path.getD [])
    c.td.isKeepAlive c.td.isChunkEncoding content.length)
  slice : SliceRead c begun.2 c.td.isChunkEncoding (firstBudget (headerOf c.td content)) content
    (content.take (firstLimit c.td content))
  more : begun.2.totalDataSize > 0 ↔
    (if c.td.isChunkEncoding then content.drop (firstLimit c.td content) else content) ≠ []

theorem beginChunked_begun {c : Conn} {content : Bytes} (h : Ready c content)
    (hencoding : c.td.isChunkEncoding = true) :
    Begun c content (beginChunked
      (staticDataHeader (c.td.httpHeader.path.getD []) c.td.isKeepAlive) c) := by
  have hbuilt : Built (setResponseProperty (staticDataHeader (c.td.httpHeader.path.getD [])
      c.td.isKeepAlive) (bytes "Transfer-Encoding: chunked\r\n")) okDescription
        (responseFields (c.td.httpHeader.path.getD []) c.td.isKeepAlive c.td.isChunkEncoding
          content.length) := by
    rw [hencoding]
    exact chunkedHeader_built _ _
  have hbudget := h.budget_eq hbuilt
  obtain ⟨hlow, hroom⟩ := firstBudget_bounds c.td h.fits
  have hslice := computeChunk_readSlice (s :=
    { sizeOfChunkedDelim := 0, sizeThatShouldBeReaded := maxChunkSize
      totalDataSize := toInt32 c.td.staticFileSize, amountOfData := 0, conn := c })
    h.toInt32_size h.file hencoding hlow (by omega)
  have hmore := hslice.reading.total rfl
  simp only [← hbudget] at hslice hmore
  refine ⟨hbuilt, ?_, ?_⟩
  · rw [firstLimit, hencoding]
    exact hslice
  · rw [if_pos hencoding, ← List.length_pos_iff, firstLimit, hencoding]
    have hbegun : (beginChunked (staticDataHeader (c.td.httpHeader.path.getD [])
        c.td.isKeepAlive) c).2.totalDataSize =
          (content.drop (sliceLimit true (firstBudget (headerOf c.td content)))).length := hmore
    omega

theorem beginIdentity_begun {c : Conn} {content : Bytes} (h : Ready c content)
    (hencoding : c.td.isChunkEncoding = false) :
    Begun c content (beginIdentity
      (staticDataHeader (c.td.httpHeader.path.getD []) c.td.isKeepAlive) c) := by
  have hbuilt : Built (setResponseContentLength (staticDataHeader
      (c.td.httpHeader.path.getD []) c.td.isKeepAlive) content.length) okDescription
        (responseFields (c.td.httpHeader.path.getD []) c.td.isKeepAlive c.td.isChunkEncoding
          content.length) := by
    rw [hencoding]
    exact identityHeader_built _ _ _
  have hbudget := h.budget_eq hbuilt
  have hsize := h.toInt32_size
  obtain ⟨-, hroom⟩ := firstBudget_bounds c.td h.fits
  have hstart : (cstr c.td.responseBuffer.cells).length = 0 := by
    rw [h.clear]
    rfl
  have hslice := freadResponse_whole (s :=
    { sizeOfChunkedDelim := 0, sizeThatShouldBeReaded := maxChunkSize
      totalDataSize := toInt32 c.td.staticFileSize, amountOfData := 0, conn := c })
    h.file hencoding rfl rfl (show firstBudget (headerOf c.td content) ≤ maxChunkSize by omega)
  have hbegun : beginIdentity (staticDataHeader (c.td.httpHeader.path.getD [])
      c.td.isKeepAlive) c =
        (setResponseContentLength (staticDataHeader (c.td.httpHeader.path.getD [])
          c.td.isKeepAlive) content.length,
        { sizeOfChunkedDelim := 0, sizeThatShouldBeReaded := maxChunkSize
          totalDataSize := toInt32 c.td.staticFileSize
          amountOfData := (freadResponse 0 (firstBudget (headerOf c.td content)) c).1
          conn := (freadResponse 0 (firstBudget (headerOf c.td content)) c).2 }) := by
    simp only [beginIdentity, hsize, hbudget, hstart]
  rw [hbegun]
  refine ⟨hbuilt, ?_, ?_⟩
  · rw [firstLimit, hencoding]
    exact hslice
  · rw [hencoding, if_neg (by decide), ← List.length_pos_iff]
    simp only [hsize]
    omega

theorem beginStatic_begun {c : Conn} {content : Bytes} (h : Ready c content) :
    Begun c content (beginStatic c) := by
  rw [beginStatic]
  cases hencoding : c.td.isChunkEncoding with
  | true => exact beginChunked_begun h hencoding
  | false => exact beginIdentity_begun h hencoding

/-- The header write takes the first slice with it. -/
theorem Begun.header_write {c : Conn} {content : Bytes} {begun : HttpResponseHeader × Sending}
    (h : Begun c content begun) (hfits : content.length ≤ intMax) (env : Env) :
    (sendHttpHeader env .header begun.1 (some begun.2.conn.td.responseBuffer.cells)
        (begun.2.amountOfData + begun.2.sizeOfChunkedDelim) begun.2.conn).2 =
      (begun.1,
        { td := begun.2.conn.td
          log := c.log ++ perform (answered env) c.log
            (sliceScript c.td.isChunkEncoding (firstBudget (headerOf c.td content)) .header
              (headerOf c.td content) content) }) := by
  obtain ⟨hlow, hroom⟩ := firstBudget_bounds c.td hfits
  have hframe : (frame c.td.isChunkEncoding (content.take (firstLimit c.td content))).length ≤
      firstBudget (headerOf c.td content) := length_frame_le (by omega) (by omega) content
  have htext : headerText okDescription (responseFields (c.td.httpHeader.path.getD [])
      c.td.isKeepAlive c.td.isChunkEncoding content.length) = headerOf c.td content := rfl
  have hcells := begun.2.conn.td.responseBuffer.size
  rw [h.slice.size, sendHttpHeader_eq _ _ _ h.built (by rw [Option.getD_some]; omega)
    (by rw [htext]; omega), htext, Option.getD_some, h.slice.cells, perform_sliceScript,
    ← List.append_assoc, ← h.slice.log]
  rfl

/-- The end of a response performs its script. -/
theorem finishStatic_eq {env : Env} {resp : HttpResponseHeader} {path : Bytes} {size : Nat}
    {c : Conn} (hsize : size ≤ intMax)
    (hbuilt : Built resp okDescription
      (responseFields path c.td.isKeepAlive c.td.isChunkEncoding size)) :
    finishStatic env resp (0, c) =
      (0,
        { td := c.td
          log := c.log ++ perform (answered env) c.log
            (endScript c.td.isChunkEncoding c.td.isKeepAlive
              (responseHeader path c.td.isKeepAlive c.td.isChunkEncoding size)) }) := by
  have hzero : ¬ (0 : Int) < 0 := by decide
  simp only [finishStatic, hzero, if_false]
  cases hencoding : c.td.isChunkEncoding with
  | true => rfl
  | false =>
      cases hkeep : c.td.isKeepAlive with
      | true => simp [endScript]
      | false =>
          rw [hencoding, hkeep] at hbuilt
          have hlen := length_responseHeader_le path false false hsize
          have hroom : (headerText okDescription (responseFields path false false size)).length +
              1 + 0 ≤ maxChunkSize := by
            have hmax : maxChunkSize = 8192 := rfl
            rw [← responseHeader]
            omega
          have hsend := sendHttpHeader_eq env .trailer c (trailerHeader_built hbuilt)
            (show 0 ≤ ((none : Option Bytes).getD []).length from le_rfl) hroom
          rw [List.take_zero, List.append_nil] at hsend
          have hconn : (sendHttpHeader env .trailer
              (setResponseProperty resp (bytes "Connection: close\r\n")) none 0 c).2.2 =
              (sslWrite env .trailer (responseHeader path false false size) c).2 :=
            congrArg (fun result => result.2.2) hsend
          simp only [Bool.false_eq_true, if_false, Bool.not_false, if_true, hconn]
          rfl

theorem responseScript_eq (td : ThreadData) (content : Bytes) :
    responseScript (td.httpHeader.path.getD []) td.isKeepAlive td.isChunkEncoding content =
      sliceScript td.isChunkEncoding (firstBudget (headerOf td content)) .header
          (headerOf td content) content ++
        restScript td.isChunkEncoding (firstLimit td content) content ++
        endScript td.isChunkEncoding td.isKeepAlive (headerOf td content) := rfl

/-- The end of a response succeeds when its loop has. -/
theorem finishStatic_succeeds_iff (env : Env) (resp : HttpResponseHeader) (looped : Int × Conn) :
    0 ≤ (finishStatic env resp looped).1 ↔ 0 ≤ looped.1 := by
  rw [finishStatic]
  split
  · rename_i hfailed
    have herror : ¬ 0 ≤ networkError := by decide
    exact ⟨fun hdone => absurd hdone herror, fun hdone => absurd hdone (Int.not_le.mpr hfailed)⟩
  · rename_i hlooped
    have hdone : 0 ≤ looped.1 := Int.not_lt.mp hlooped
    refine ⟨fun _ => hdone, fun _ => ?_⟩
    split
    · exact le_rfl
    · split <;> exact le_rfl

theorem sendStaticData_succeeds {env : Env} (henv : NoWriteFails env) (c : Conn) :
    0 ≤ (sendStaticData env c).1 := by
  rw [sendStaticData, finishStatic_succeeds_iff]
  split
  · exact sendLoop_succeeds henv _
  · exact le_rfl

/-- A response that is not broken off performs its script, whatever the writes
report short of an error in the loop. -/
theorem sendStaticData_performs {env : Env} {c : Conn} {content : Bytes} (h : Ready c content)
    (hdone : 0 ≤ (sendStaticData env c).1) :
    ∃ responseBuffer, sendStaticData env c =
      (0,
        { td := { c.td with
            responseBuffer := responseBuffer
            staticFile := some { unread := [] } }
          log := c.log ++ perform (answered env) c.log
            (responseScript (c.td.httpHeader.path.getD []) c.td.isKeepAlive
              c.td.isChunkEncoding content) }) := by
  have hbegun := beginStatic_begun h
  have hwrite := hbegun.header_write h.fits env
  have hmore := hbegun.more
  have hreading := hbegun.slice.reading
  have hbuilt := hbegun.built
  obtain ⟨buffer, htd⟩ : ∃ buffer, (beginStatic c).2.conn.td = { c.td with
      responseBuffer := buffer
      staticFile := some { unread := content.drop (firstLimit c.td content) } } := by
    refine ⟨(beginStatic c).2.conn.td.responseBuffer, ?_⟩
    have hothers := hbegun.slice.others
    rw [hreading.file] at hothers
    exact hothers
  rw [sendStaticData, finishStatic_succeeds_iff] at hdone
  rw [sendStaticData]
  simp only [hwrite] at hdone ⊢
  rw [responseScript_eq, perform_append, perform_append]
  generalize (beginStatic c).1 = resp at hbuilt ⊢
  generalize (beginStatic c).2 = s at hmore htd hreading hdone ⊢
  have hfinish : ∀ responseBuffer staticFile log,
      finishStatic env resp
          (0,
            { td := { c.td with responseBuffer := responseBuffer, staticFile := staticFile }
              log := log }) =
        (0,
          { td := { c.td with responseBuffer := responseBuffer, staticFile := staticFile }
            log := log ++ perform (answered env) log
              (endScript c.td.isChunkEncoding c.td.isKeepAlive (headerOf c.td content)) }) :=
    fun _ _ _ => finishStatic_eq h.fits hbuilt
  by_cases hloop : s.totalDataSize > 0
  · refine ⟨.zero, ?_⟩
    have hreading' : ∀ log, Reading { s with conn := { td := s.conn.td, log := log } }
        c.td.isChunkEncoding (content.drop (firstLimit c.td content)) :=
      fun log => ⟨hreading.encoding, hreading.file, hreading.total, hreading.whole⟩
    rw [if_pos hloop] at hdone
    rw [if_pos hloop, sendLoop_eq (hreading' _) hdone, restScript, if_neg (hmore.mp hloop)]
    simp only [htd, hfinish, List.append_assoc]
  · refine ⟨buffer, ?_⟩
    have hcounted : (if c.td.isChunkEncoding then content.drop (firstLimit c.td content)
        else content) = [] := not_not.mp fun hne => hloop (hmore.mpr hne)
    have hscript : restScript c.td.isChunkEncoding (firstLimit c.td content) content = [] :=
      if_pos hcounted
    have hrest := drop_eq_nil_of_counted hcounted
    rw [if_neg hloop, hscript, htd, hrest, perform_nil, List.append_nil, hfinish,
      List.append_assoc]

/-- Where no write reports an error, the code performs the script. -/
theorem sendStaticData_eq {env : Env} (henv : NoWriteFails env) {c : Conn} {content : Bytes}
    (h : Ready c content) :
    ∃ responseBuffer, sendStaticData env c =
      (0,
        { td := { c.td with
            responseBuffer := responseBuffer
            staticFile := some { unread := [] } }
          log := c.log ++ perform (answered env) c.log
            (responseScript (c.td.httpHeader.path.getD []) c.td.isKeepAlive
              c.td.isChunkEncoding content) }) :=
  sendStaticData_performs h (sendStaticData_succeeds henv c)

end HttpsServ.StaticTransfer
