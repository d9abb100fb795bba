import HttpsServ.StaticTransfer
import HttpsServ.ChunkedBody

/-!
# The bytes of a response

What the peer has received after a response: whether a chunk reader gets the
file out of it, whether it is one message, and what is lost when writes are
taken in part.
-/

namespace HttpsServ.ResponseBytes

open ByteString Http ResponseHeader StaticTransfer ChunkFrames ChunkedBody Chunked HeaderBlock
  IntegerHelpers Script

/-- The buffer that an event hands to the transport. -/
def bufferOf : Event → Option Bytes
  | .write _ buffer _ => some buffer
  | _ => none

/-- The part of it that the transport took. -/
def acceptedOf : Event → Option Bytes
  | .write _ buffer result => some (buffer.take result.toNat)
  | _ => none

def buffers (events : List Event) : List Bytes := events.filterMap bufferOf

def acceptedPieces (events : List Event) : List Bytes := events.filterMap acceptedOf

/-- The bytes the transport took, in order. -/
def acceptedBytes (events : List Event) : Bytes := (acceptedPieces events).flatten

theorem buffers_append (s t : List Event) : buffers (s ++ t) = buffers s ++ buffers t :=
  List.filterMap_append

theorem buffers_sliceScript (isChunkEncoding : Bool) (budget : Nat) (site : WriteSite)
    (before unread : Bytes) :
    buffers (sliceScript isChunkEncoding budget site before unread) =
      [before ++ frame isChunkEncoding
        (unread.take (sliceLimit isChunkEncoding budget))] := by
  cases isChunkEncoding <;> rfl

/-- Where every write is taken whole, the peer receives the buffers of the script. -/
theorem acceptedPieces_perform {env : Env} (henv : FullWrites env) (log script : List Event) :
    acceptedPieces (perform (answered env) log script) = buffers script := by
  apply filterMap_perform
  intro log e
  cases e with
  | write site buffer result =>
      have hwhole : buffer.take (env.sslWrite log buffer).toNat = buffer := by
        rw [henv, Int.toNat_natCast, List.take_length]
      rw [answered, acceptedOf, bufferOf, hwhole]
  | _ => rfl

/-- How much of the file one chunk behind the header carries. -/
def loopLimit : Nat := sliceLimit true maxChunkSize

/-- The size of the last chunk, when the header write takes `limit` bytes. -/
def lastChunkSize (limit size : Nat) : Nat :=
  if size ≤ limit then size else (size - limit) % loopLimit

theorem loopLimit_eq : loopLimit = 8184 := by decide

theorem eight_kilobytes_wide {size : Nat} (h : 16 ^ 3 ≤ size) : size ∉ narrowSizes := by
  simp only [narrowSizes, List.mem_cons, List.not_mem_nil, or_false]
  omega

/-- The last pass of the loop writes an empty chunk. -/
theorem buffers_loopScript_nil : (buffers (loopScript true [])).flatten = zeroChunk := by
  rw [loopScript_nil, buffers_sliceScript, List.take_nil, ← chunkFrame_nil]
  simp [frame]

/-- Every other pass writes a chunk with the next slice. -/
theorem buffers_loopScript_of_ne {unread : Bytes} (hne : unread ≠ []) :
    (buffers (loopScript true unread)).flatten =
      chunkFrame (unread.take loopLimit) ++
        (buffers (loopScript true (unread.drop loopLimit))).flatten := by
  have hlimit : sliceLimit true maxChunkSize = loopLimit := rfl
  rw [loopScript_of_ne _ hne, buffers_append, buffers_sliceScript, List.flatten_append, hlimit]
  simp [frame]

/-- A slice of a bad size is the last one: it breaks the body of the loop. -/
theorem decodeChunked_loop_narrow {unread : Bytes} (hne : unread ≠ [])
    (hnarrow : (unread.take loopLimit).length ∈ narrowSizes) :
    unread.length % loopLimit ∈ narrowSizes ∧ ∀ after,
      decodeChunked ((buffers (loopScript true unread)).flatten ++ zeroChunk) ≠
        some (unread, after) := by
  have height := loopLimit_eq
  have hshort : unread.length < loopLimit := by
    by_contra hge
    have hfull : (unread.take loopLimit).length = loopLimit := by
      rw [List.length_take]
      omega
    exact eight_kilobytes_wide (by omega) hnarrow
  rw [buffers_loopScript_of_ne hne, List.drop_eq_nil_of_le hshort.le, buffers_loopScript_nil,
    List.append_assoc]
  rw [List.take_of_length_le hshort.le] at hnarrow ⊢
  rw [Nat.mod_eq_of_lt hshort]
  -- the empty chunk and the terminator follow it
  exact ⟨hnarrow, fun after => decodeChunked_narrow hnarrow (.inr rfl)⟩

/-- A slice of any other size is read, and the rest is read behind it. -/
theorem decodeChunked_loop_wide {unread : Bytes} (hne : unread ≠ [])
    (hwide : (unread.take loopLimit).length ∉ narrowSizes) (after : Bytes) :
    decodeChunked ((buffers (loopScript true unread)).flatten ++ zeroChunk) =
        some (unread, after) ↔
      decodeChunked ((buffers (loopScript true (unread.drop loopLimit))).flatten ++ zeroChunk) =
        some (unread.drop loopLimit, after) := by
  have height := loopLimit_eq
  have hpos := List.length_pos_iff.mpr hne
  have hslice : (unread.take loopLimit).length = min loopLimit unread.length :=
    List.length_take
  have hne' : unread.take loopLimit ≠ [] := by
    rw [← List.length_pos_iff]
    omega
  have hstep := decodeChunked_chunkFrame_iff (by omega) hne' hwide
    ((buffers (loopScript true (unread.drop loopLimit))).flatten ++ zeroChunk)
    (unread.drop loopLimit) after
  rw [List.take_append_drop] at hstep
  rw [buffers_loopScript_of_ne hne, List.append_assoc]
  exact hstep

/-- The chunks of the loop with the terminator behind them. -/
theorem decodeChunked_loop (unread : Bytes) :
    (∃ after, decodeChunked ((buffers (loopScript true unread)).flatten ++ zeroChunk) =
        some (unread, after)) ↔
      unread.length % loopLimit ∉ narrowSizes := by
  induction unread using loopScript.induct true with
  | case1 =>
      have hwide : ([] : Bytes).length % loopLimit ∉ narrowSizes := by decide
      rw [buffers_loopScript_nil, decodeChunked_zeroChunk]
      exact ⟨fun _ => hwide, fun _ => ⟨_, rfl⟩⟩
  | case2 unread hne ih =>
      have hlimit : sliceLimit true maxChunkSize = loopLimit := rfl
      rw [hlimit] at ih
      by_cases hnarrow : (unread.take loopLimit).length ∈ narrowSizes
      · obtain ⟨hlast, hbroken⟩ := decodeChunked_loop_narrow hne hnarrow
        constructor
        · rintro ⟨after, hdecoded⟩
          exact absurd hdecoded (hbroken after)
        · intro hwide
          exact absurd hlast hwide
      · simp only [decodeChunked_loop_wide hne hnarrow, ih, List.length_drop]
        rcases Nat.lt_or_ge unread.length loopLimit with hshort | hlong
        · rw [List.take_of_length_le hshort.le] at hnarrow
          rw [Nat.sub_eq_zero_of_le hshort.le, Nat.zero_mod, Nat.mod_eq_of_lt hshort]
          exact ⟨fun _ => hnarrow, fun _ => by decide⟩
        · rw [Nat.mod_eq_sub_mod hlong]

/-- The body of a chunked response, behind the header. -/
def chunkedBody (limit : Nat) (content : Bytes) : Bytes :=
  chunkFrame (content.take limit) ++
    ((buffers (restScript true limit content)).flatten ++ zeroChunk)

/-- Behind a full first slice the loop sends the rest. -/
theorem restScript_long {limit : Nat} {content : Bytes} (h : limit < content.length) :
    restScript true limit content = loopScript true (content.drop limit) :=
  if_neg (mt List.drop_eq_nil_iff.mp (Nat.not_le.mpr h))

/-- A first slice that is the whole file leaves nothing to the loop. -/
theorem restScript_short {limit : Nat} {content : Bytes} (h : content.length ≤ limit) :
    restScript true limit content = [] :=
  if_pos (List.drop_eq_nil_of_le h)

/-- Behind a full first chunk the reader goes on with the chunks of the loop. -/
theorem decodeChunked_body_long {limit : Nat} (hlow : 16 ^ 3 ≤ limit) (hhigh : limit < 16 ^ 4)
    {content : Bytes} (hlong : limit < content.length) (after : Bytes) :
    decodeChunked (chunkedBody limit content) = some (content, after) ↔
      decodeChunked ((buffers (loopScript true (content.drop limit))).flatten ++ zeroChunk) =
        some (content.drop limit, after) := by
  have hlen : (content.take limit).length = limit := by
    rw [List.length_take, Nat.min_eq_left hlong.le]
  have hne : content.take limit ≠ [] := by
    rw [← List.length_pos_iff]
    omega
  have h := decodeChunked_chunkFrame_iff (by omega) hne (eight_kilobytes_wide (by omega))
    ((buffers (loopScript true (content.drop limit))).flatten ++ zeroChunk)
    (content.drop limit) after
  rw [List.take_append_drop] at h
  rw [chunkedBody, restScript_long hlong]
  exact h

/-- A first chunk that carries the whole file is followed by one zero chunk. -/
theorem decodeChunked_body_short {limit : Nat} (hhigh : limit < 16 ^ 4) {content : Bytes}
    (hne : content ≠ []) (hshort : content.length ≤ limit) (hwide : content.length ∉ narrowSizes) :
    decodeChunked (chunkedBody limit content) = some (content, []) := by
  have hzero : decodeChunked ((buffers []).flatten ++ zeroChunk) = some ([], []) := by
    have h := decodeChunked_zeroChunk []
    rwa [List.append_nil] at h
  rw [chunkedBody, restScript_short hshort, List.take_of_length_le hshort,
    decodeChunked_chunkFrame (by omega) hne hwide, hzero]
  simp

/-- A file that is empty is followed by a second zero chunk. -/
theorem decodeChunked_body_nil (limit : Nat) :
    decodeChunked (chunkedBody limit []) = some ([], zeroChunk) := by
  rw [chunkedBody, restScript_short (Nat.zero_le _), List.take_nil, chunkFrame_nil,
    decodeChunked_zeroChunk]
  rfl

/-- A chunk reader gets the file out of the body unless the last chunk is one of
the narrow sizes. -/
theorem decodeChunked_body_iff {limit : Nat} (hlow : 16 ^ 3 ≤ limit) (hhigh : limit < 16 ^ 4)
    (content : Bytes) :
    (∃ after, decodeChunked (chunkedBody limit content) = some (content, after)) ↔
      lastChunkSize limit content.length ∉ narrowSizes := by
  rw [lastChunkSize]
  rcases Nat.lt_or_ge limit content.length with hlong | hshort
  · -- the header write is full, and the loop sends the rest
    rw [if_neg (by omega)]
    simp only [decodeChunked_body_long hlow hhigh hlong, decodeChunked_loop, List.length_drop]
  · -- the whole file goes out with the header
    rw [if_pos hshort]
    by_cases hnarrow : content.length ∈ narrowSizes
    · constructor
      · rintro ⟨after, h⟩
        rw [chunkedBody, restScript_short hshort, List.take_of_length_le hshort] at h
        exact absurd h (decodeChunked_narrow hnarrow (.inl rfl))
      · intro h
        exact absurd hnarrow h
    · refine ⟨fun _ => hnarrow, fun _ => ?_⟩
      by_cases hempty : content = []
      · rw [hempty]
        exact ⟨_, decodeChunked_body_nil limit⟩
      · exact ⟨[], decodeChunked_body_short hhigh hempty hshort hnarrow⟩

/-- Behind the zero chunk of the loop the explicit one is left over. -/
theorem decodeChunked_loop_after {unread after : Bytes}
    (h : decodeChunked ((buffers (loopScript true unread)).flatten ++ zeroChunk) =
      some (unread, after)) : after = zeroChunk := by
  induction unread using loopScript.induct true with
  | case1 =>
      rw [buffers_loopScript_nil, decodeChunked_zeroChunk] at h
      exact (Prod.mk.inj (Option.some.inj h)).2.symm
  | case2 unread hne ih =>
      have hlimit : sliceLimit true maxChunkSize = loopLimit := rfl
      rw [hlimit] at ih
      by_cases hnarrow : (unread.take loopLimit).length ∈ narrowSizes
      · exact absurd h ((decodeChunked_loop_narrow hne hnarrow).2 after)
      · exact ih ((decodeChunked_loop_wide hne hnarrow after).mp h)

/-- The reader leaves nothing of the body exactly where the file is not empty and goes
out with the header, in a chunk whose size line has room. -/
theorem decodeChunked_body_whole_iff {limit : Nat} (hlow : 16 ^ 3 ≤ limit)
    (hhigh : limit < 16 ^ 4) (content : Bytes) :
    decodeChunked (chunkedBody limit content) = some (content, []) ↔
      0 < content.length ∧ content.length ≤ limit ∧ content.length ∉ narrowSizes := by
  constructor
  · intro h
    have hwide := (decodeChunked_body_iff hlow hhigh content).mp ⟨[], h⟩
    have hshort : content.length ≤ limit := by
      by_contra hlong
      have hloop := (decodeChunked_body_long hlow hhigh (Nat.not_le.mp hlong) []).mp h
      exact absurd (decodeChunked_loop_after hloop) (by decide)
    rw [lastChunkSize, if_pos hshort] at hwide
    refine ⟨?_, hshort, hwide⟩
    rw [List.length_pos_iff]
    rintro rfl
    rw [decodeChunked_body_nil] at h
    exact absurd (Prod.mk.inj (Option.some.inj h)).2 (by decide)
  · rintro ⟨hpos, hshort, hwide⟩
    exact decodeChunked_body_short hhigh (List.length_pos_iff.mp hpos) hshort hwide

/-- The writes of a response, in order. -/
theorem buffers_responseScript (path : Bytes) (isKeepAlive isChunkEncoding : Bool)
    (content : Bytes) :
    let header := responseHeader path isKeepAlive isChunkEncoding content.length
    let limit := sliceLimit isChunkEncoding (firstBudget header)
    buffers (responseScript path isKeepAlive isChunkEncoding content) =
      (header ++ frame isChunkEncoding (content.take limit)) ::
        (buffers (restScript isChunkEncoding limit content) ++
          (if isChunkEncoding then [zeroChunk] else if isKeepAlive then [] else [header])) := by
  intro header limit
  have hend : buffers (endScript isChunkEncoding isKeepAlive header) =
      if isChunkEncoding then [zeroChunk] else if isKeepAlive then [] else [header] := by
    rw [zeroChunk_eq]
    cases isChunkEncoding <;> cases isKeepAlive <;> rfl
  rw [responseScript, buffers_append, buffers_append, buffers_sliceScript, hend]
  rfl

/-- The run of a response, as the peer sees it. -/
theorem sendStaticData_pieces {env : Env} (henv : FullWrites env) {c : Conn} {content : Bytes}
    (h : Ready c content) :
    ∃ events, (sendStaticData env c).2.log = c.log ++ events ∧
      acceptedPieces events =
        (headerOf c.td content ++
            frame c.td.isChunkEncoding (content.take (firstLimit c.td content))) ::
          (buffers (restScript c.td.isChunkEncoding (firstLimit c.td content) content) ++
            (if c.td.isChunkEncoding then [zeroChunk]
              else if c.td.isKeepAlive then [] else [headerOf c.td content])) := by
  obtain ⟨buffer, hsend⟩ := sendStaticData_eq henv.noWriteFails h
  refine ⟨_, by rw [hsend], ?_⟩
  rw [acceptedPieces_perform henv, buffers_responseScript]
  rfl

theorem firstLimit_bounds {c : Conn} {content : Bytes} (h : Ready c content)
    (hchunked : c.td.isChunkEncoding = true) :
    16 ^ 3 ≤ firstLimit c.td content ∧ firstLimit c.td content < 16 ^ 4 := by
  obtain ⟨hlow, hroom⟩ := firstBudget_bounds c.td h.fits
  have hmax : maxChunkSize = 8192 := rfl
  have hlimit : firstLimit c.td content = firstBudget (headerOf c.td content) - 8 := by
    rw [firstLimit, hchunked]
    rfl
  omega

/-- The bytes of a chunked response are its header and its body. -/
theorem sendStaticData_body {env : Env} (henv : FullWrites env) {c : Conn}
    {content : Bytes} (h : Ready c content) (hchunked : c.td.isChunkEncoding = true) :
    ∃ events, (sendStaticData env c).2.log = c.log ++ events ∧
      splitMessage (acceptedBytes events) =
        some (headerOf c.td content, chunkedBody (firstLimit c.td content) content) := by
  obtain ⟨events, hlog, hpieces⟩ := sendStaticData_pieces henv h
  refine ⟨events, hlog, ?_⟩
  have hbytes : acceptedBytes events =
      headerOf c.td content ++ chunkedBody (firstLimit c.td content) content := by
    rw [acceptedBytes, hpieces, hchunked, chunkedBody]
    simp only [frame, if_true, List.flatten_cons, List.flatten_append, List.flatten_nil,
      List.append_nil, List.append_assoc]
  rw [hbytes]
  exact splitMessage_responseHeader ..

/-- What a chunk reader makes of the bytes behind the header: the file, exactly
when the last chunk is wide enough for its size line. -/
theorem sendStaticData_decodes_iff {env : Env} (henv : FullWrites env) {c : Conn}
    {content : Bytes} (h : Ready c content) (hchunked : c.td.isChunkEncoding = true) :
    ∃ events body, (sendStaticData env c).2.log = c.log ++ events ∧
      splitMessage (acceptedBytes events) = some (headerOf c.td content, body) ∧
      ((∃ after, decodeChunked body = some (content, after)) ↔
        lastChunkSize (firstLimit c.td content) content.length ∉ narrowSizes) := by
  obtain ⟨events, hlog, hsplit⟩ := sendStaticData_body henv h hchunked
  obtain ⟨hlow, hhigh⟩ := firstLimit_bounds h hchunked
  exact ⟨events, _, hlog, hsplit, decodeChunked_body_iff hlow hhigh content⟩

theorem sendStaticData_decodes_iff_hello :
    ∃ events body,
      (sendStaticData (Env.steady fun _ => none)
        (Conn.serving (bytes "/hello.txt") (bytes "hello") true true)).2.log = [] ++ events ∧
      splitMessage (acceptedBytes events) = some (headerOf (Conn.serving (bytes "/hello.txt")
        (bytes "hello") true true).td (bytes "hello"), body) ∧
      ((∃ after, decodeChunked body = some (bytes "hello", after)) ↔
        lastChunkSize (firstLimit (Conn.serving (bytes "/hello.txt") (bytes "hello")
          true true).td (bytes "hello")) (bytes "hello").length ∉ narrowSizes) :=
  sendStaticData_decodes_iff (Env.steady_fullWrites _) (Conn.serving_ready _ _ true true (by decide))
    rfl

/-- A file of three bytes goes out in a chunk without a size. -/
theorem sendStaticData_malformed_abc :
    ∃ events body,
      (sendStaticData (Env.steady fun _ => none)
        (Conn.serving (bytes "/abc.txt") (bytes "abc") true true)).2.log = [] ++ events ∧
      splitMessage (acceptedBytes events) = some (headerOf (Conn.serving (bytes "/abc.txt")
        (bytes "abc") true true).td (bytes "abc"), body) ∧
      ¬ ∃ after, decodeChunked body = some (bytes "abc", after) := by
  have hready := Conn.serving_ready (bytes "/abc.txt") (bytes "abc") true true
    (by decide)
  obtain ⟨events, hlog, hsplit⟩ := sendStaticData_body
    (Env.steady_fullWrites fun _ => none) hready rfl
  obtain ⟨hlow, hhigh⟩ := firstLimit_bounds hready rfl
  refine ⟨events, _, hlog, hsplit, ?_⟩
  have hlen : (bytes "abc").length = 3 := by decide
  rw [decodeChunked_body_iff hlow hhigh, lastChunkSize, if_pos (by omega), hlen]
  decide

/-- One header block and the body that it announces, to the last byte: with chunks what a
reader takes apart into the file and leaves nothing of, with a length the file. -/
def OneMessage (isChunkEncoding : Bool) (header content sent : Bytes) : Prop :=
  ∃ body, splitMessage sent = some (header, body) ∧
    if isChunkEncoding then decodeChunked body = some (content, []) else body = content

/-- There is one way to cut off the header. -/
theorem oneMessage_iff {isChunkEncoding : Bool} {header content sent body : Bytes}
    (h : splitMessage sent = some (header, body)) :
    OneMessage isChunkEncoding header content sent ↔
      if isChunkEncoding then decodeChunked body = some (content, []) else body = content := by
  constructor
  · rintro ⟨body', hsplit, hbody⟩
    have heq := h.symm.trans hsplit
    rw [Option.some.injEq, Prod.mk.injEq] at heq
    rwa [heq.2]
  · exact fun hbody => ⟨body, h, hbody⟩

/-- Without chunks the loop sends what is unread. -/
theorem buffers_loop_identity (unread : Bytes) :
    (buffers (loopScript false unread)).flatten = unread := by
  induction unread using loopScript.induct false with
  | case1 =>
      rw [loopScript_nil, buffers_sliceScript]
      rfl
  | case2 unread hne ih =>
      rw [loopScript_of_ne _ hne, buffers_append, buffers_sliceScript, List.flatten_append, ih]
      simp [frame]

theorem buffers_rest_identity (limit : Nat) (content : Bytes) :
    content.take limit ++ (buffers (restScript false limit content)).flatten = content := by
  rcases restScript_cases false limit content with ⟨hrest, hscript⟩ | hscript
  · rw [hscript]
    conv_rhs => rw [← List.take_append_drop limit content, hrest]
    rfl
  · rw [hscript, buffers_loop_identity, List.take_append_drop]

theorem four_le_length_headerOf (td : ThreadData) (content : Bytes) :
    4 ≤ (headerOf td content).length := by
  rw [headerOf, responseHeader, length_headerText]
  omega

theorem headerOf_ne_nil (td : ThreadData) (content : Bytes) : headerOf td content ≠ [] := by
  have hlen := four_le_length_headerOf td content
  rw [← List.length_pos_iff]
  omega

/-- The bytes of a response with a length: the header and the file, and the header once
more when the connection is to be closed. -/
theorem sendStaticData_identity {env : Env} (henv : FullWrites env) {c : Conn}
    {content : Bytes} (h : Ready c content) (hidentity : c.td.isChunkEncoding = false) :
    ∃ events, (sendStaticData env c).2.log = c.log ++ events ∧
      splitMessage (acceptedBytes events) = some (headerOf c.td content,
        content ++ if c.td.isKeepAlive then [] else headerOf c.td content) := by
  obtain ⟨events, hlog, hpieces⟩ := sendStaticData_pieces henv h
  refine ⟨events, hlog, ?_⟩
  have hbytes : acceptedBytes events = headerOf c.td content ++
      (content ++ if c.td.isKeepAlive then [] else headerOf c.td content) := by
    have hbody := buffers_rest_identity (firstLimit c.td content) content
    rw [acceptedBytes, hpieces, hidentity, List.flatten_cons, List.flatten_append,
      List.append_assoc, ← List.append_assoc (frame ..), frame, if_neg Bool.false_ne_true, hbody]
    cases c.td.isKeepAlive <;> simp
  rw [hbytes]
  exact splitMessage_responseHeader ..

/-- One request is answered by one message exactly with a length on a connection
that is kept, or with chunks for a file that is not empty, fits beside the header and
has a size whose line has room. -/
theorem sendStaticData_oneMessage_iff {env : Env} (henv : FullWrites env) {c : Conn}
    {content : Bytes} (h : Ready c content) :
    ∃ events, (sendStaticData env c).2.log = c.log ++ events ∧
      (OneMessage c.td.isChunkEncoding (headerOf c.td content) content (acceptedBytes events) ↔
        (c.td.isChunkEncoding = false ∧ c.td.isKeepAlive = true) ∨
        (c.td.isChunkEncoding = true ∧ 0 < content.length ∧
          content.length ≤ firstLimit c.td content ∧ content.length ∉ narrowSizes)) := by
  cases hencoding : c.td.isChunkEncoding with
  | false =>
      obtain ⟨events, hlog, hsplit⟩ := sendStaticData_identity henv h hencoding
      refine ⟨events, hlog, ?_⟩
      rw [oneMessage_iff hsplit]
      have hne := headerOf_ne_nil c.td content
      cases c.td.isKeepAlive <;> simp [hne]
  | true =>
      obtain ⟨events, hlog, hsplit⟩ := sendStaticData_body henv h hencoding
      obtain ⟨hlow, hhigh⟩ := firstLimit_bounds h hencoding
      refine ⟨events, hlog, ?_⟩
      rw [oneMessage_iff hsplit, if_pos rfl, decodeChunked_body_whole_iff hlow hhigh]
      simp

theorem sendStaticData_oneMessage_iff_hello :
    ∃ events,
      (sendStaticData (Env.steady fun _ => none)
        (Conn.serving (bytes "/hello.txt") (bytes "hello") true true)).2.log = [] ++ events ∧
      (OneMessage true (headerOf (Conn.serving (bytes "/hello.txt") (bytes "hello") true
          true).td (bytes "hello")) (bytes "hello") (acceptedBytes events) ↔
        (true = false ∧ true = true) ∨
        (true = true ∧ 0 < (bytes "hello").length ∧
          (bytes "hello").length ≤ firstLimit (Conn.serving (bytes "/hello.txt")
            (bytes "hello") true true).td (bytes "hello") ∧
          (bytes "hello").length ∉ narrowSizes)) :=
  sendStaticData_oneMessage_iff (Env.steady_fullWrites _)
    (Conn.serving_ready _ _ true true (by decide))

/-- An empty file with chunks ends in two zero chunks. -/
theorem sendStaticData_two_terminators :
    ∃ events,
      (sendStaticData (Env.steady fun _ => none)
        (Conn.serving (bytes "/empty.txt") [] true true)).2.log = [] ++ events ∧
      ¬ OneMessage true (headerOf (Conn.serving (bytes "/empty.txt") [] true true).td []) []
        (acceptedBytes events) := by
  obtain ⟨events, hlog, hsplit⟩ := sendStaticData_body (Env.steady_fullWrites fun _ => none)
    (Conn.serving_ready (bytes "/empty.txt") [] true true (by decide)) rfl
  refine ⟨events, hlog, ?_⟩
  rw [oneMessage_iff hsplit, if_pos rfl, decodeChunked_body_nil]
  intro hone
  exact absurd (Prod.mk.inj (Option.some.inj hone)).2 (by decide)

/-- The contract of `mbedtls_ssl_write` short of errors. -/
def WriteContract (env : Env) : Prop :=
  ∀ log buffer, 0 ≤ env.sslWrite log buffer ∧ env.sslWrite log buffer ≤ buffer.length ∧
    (buffer ≠ [] → 0 < env.sslWrite log buffer)

/-- The bytes the transport takes during one response. -/
def received (env : Env) (c : Conn) : Bytes :=
  acceptedBytes ((sendStaticData env c).2.log.drop c.log.length)

/-- The event is no write, or a write that was taken whole. -/
def TakenWhole : Event → Prop
  | .write _ buffer result => result = buffer.length
  | _ => True

theorem take_eq_self_iff {buffer : Bytes} {result : Int} (hlow : 0 ≤ result)
    (hhigh : result ≤ buffer.length) :
    buffer.take result.toNat = buffer ↔ result = buffer.length := by
  rw [List.take_eq_self_iff]
  omega

/-- The transport takes every write of a script whole. -/
def TakesWhole (env : Env) (log script : List Event) : Prop :=
  ∀ e ∈ perform (answered env) log script, TakenWhole e

/-- What is taken is shorter than what is sent, unless every write is taken whole. -/
theorem acceptedPieces_flatten_eq_iff {env : Env} (henv : WriteContract env)
    (log script : List Event) :
    (acceptedPieces (perform (answered env) log script)).flatten.length ≤
        (buffers script).flatten.length ∧
      ((acceptedPieces (perform (answered env) log script)).flatten =
          (buffers script).flatten ↔
        TakesWhole env log script) := by
  simp only [TakesWhole]
  induction script generalizing log with
  | nil => simp [acceptedPieces, buffers]
  | cons e script ih =>
      rw [perform]
      obtain ⟨hle, hiff⟩ := ih (log ++ [answered env log e])
      cases e with
      | write site buffer result =>
          obtain ⟨hlow, hhigh, -⟩ := henv log buffer
          have hpieces : (acceptedPieces (answered env log (.write site buffer result) ::
              perform (answered env) (log ++ [answered env log (.write site buffer result)])
                script)).flatten =
              buffer.take (env.sslWrite log buffer).toNat ++ (acceptedPieces (perform
                (answered env) (log ++ [answered env log (.write site buffer result)])
                  script)).flatten := rfl
          have hbuffers : (buffers (.write site buffer result :: script)).flatten =
              buffer ++ (buffers script).flatten := rfl
          have htake : (buffer.take (env.sslWrite log buffer).toNat).length ≤ buffer.length :=
            (List.take_sublist _ _).length_le
          rw [hpieces, hbuffers]
          refine ⟨by simp only [List.length_append]; omega, ?_⟩
          rw [List.forall_mem_cons, ← hiff]
          have hwhole : TakenWhole (answered env log (.write site buffer result)) ↔
              buffer.take (env.sslWrite log buffer).toNat = buffer :=
            (take_eq_self_iff hlow hhigh).symm
          rw [hwhole]
          constructor
          · intro heq
            have hlen := congrArg List.length heq
            simp only [List.length_append] at hlen
            exact List.append_inj heq (by omega)
          · rintro ⟨hfirst, hrest⟩
            rw [hfirst, hrest]
      | _ =>
          refine ⟨hle, ?_⟩
          rw [List.forall_mem_cons]
          exact hiff.trans ⟨fun hall => ⟨trivial, hall⟩, fun hall => hall.2⟩

theorem received_eq {env : Env} (henv : NoWriteFails env) {c : Conn} {content : Bytes}
    (h : Ready c content) :
    (sendStaticData env c).2.log.drop c.log.length =
      perform (answered env) c.log (responseScript (c.td.httpHeader.path.getD [])
        c.td.isKeepAlive c.td.isChunkEncoding content) := by
  obtain ⟨buffer, hsend⟩ := sendStaticData_eq henv h
  rw [hsend, List.drop_left]

/-- A peer that takes every write whole receives all the buffers. -/
theorem received_steady (files : Bytes → Option Utility.FileImage) {c : Conn} {content : Bytes}
    (h : Ready c content) :
    received (Env.steady files) c =
      (buffers (responseScript (c.td.httpHeader.path.getD []) c.td.isKeepAlive
        c.td.isChunkEncoding content)).flatten := by
  have hfull := Env.steady_fullWrites files
  rw [received, received_eq hfull.noWriteFails h, acceptedBytes, acceptedPieces_perform hfull]

/-- The transport takes all the bytes of a response, as a peer gets them that
takes every write whole, exactly when every write is taken whole. -/
theorem received_eq_steady_iff {env : Env} (henv : WriteContract env) {c : Conn}
    {content : Bytes} (h : Ready c content) :
    received env c = received (Env.steady fun _ => none) c ↔
      TakesWhole env c.log (responseScript (c.td.httpHeader.path.getD []) c.td.isKeepAlive
        c.td.isChunkEncoding content) := by
  have hno : NoWriteFails env := fun log buffer => (henv log buffer).1
  rw [received_steady _ h, received, acceptedBytes, received_eq hno h]
  exact (acceptedPieces_flatten_eq_iff henv _ _).2

/-- The steady peer, except that every write takes one byte at most. -/
def Env.trickling : Env :=
  { Env.steady (fun _ => none) with sslWrite := fun _ buffer => min buffer.length 1 }

theorem Env.trickling_contract : WriteContract Env.trickling := by
  intro log buffer
  have hmin : Env.trickling.sslWrite log buffer = (min buffer.length 1 : Nat) := by
    simp [Env.trickling]
  rw [hmin]
  refine ⟨by omega, by omega, fun hne => ?_⟩
  have hpos := List.length_pos_iff.mpr hne
  omega

theorem received_eq_steady_iff_hello :
    received Env.trickling (Conn.serving (bytes "/hello.txt") (bytes "hello") true false) =
        received (Env.steady fun _ => none)
          (Conn.serving (bytes "/hello.txt") (bytes "hello") true false) ↔
      TakesWhole Env.trickling [] (responseScript (bytes "/hello.txt") true false
        (bytes "hello")) :=
  received_eq_steady_iff Env.trickling_contract (Conn.serving_ready _ _ true false (by decide))

/-- Where each write takes one byte, the rest of the header is lost. -/
theorem received_loses_header :
    WriteContract Env.trickling ∧
      received Env.trickling (Conn.serving (bytes "/hello.txt") (bytes "hello") true false) ≠
        received (Env.steady fun _ => none)
          (Conn.serving (bytes "/hello.txt") (bytes "hello") true false) := by
  refine ⟨Env.trickling_contract, fun heq => ?_⟩
  have hready := Conn.serving_ready (bytes "/hello.txt") (bytes "hello") true false
    (by decide)
  have hno : NoWriteFails Env.trickling := fun log buffer =>
    (Env.trickling_contract log buffer).1
  rw [received_steady _ hready, received, acceptedBytes, received_eq hno hready,
    (acceptedPieces_flatten_eq_iff Env.trickling_contract _ _).2, TakesWhole, responseScript_eq,
    perform_append, perform_append, perform_sliceScript] at heq
  have hheader := heq (answered Env.trickling _ _) (by
    simp only [List.mem_append, List.mem_singleton]
    exact .inl (.inl (.inr rfl)))
  simp only [answered, TakenWhole, Env.trickling, List.length_append] at hheader
  have hlen := four_le_length_headerOf
    (Conn.serving (bytes "/hello.txt") (bytes "hello") true false).td (bytes "hello")
  omega

end HttpsServ.ResponseBytes
