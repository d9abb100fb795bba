import HttpsServ.ResponseFrame

/-!
# The chunk layout in the response buffer

For the two budgets that `SendStaticData` passes, the layout of a chunk is that
of its size line, its slice and its line ends, except for four sizes. A slice
that fills the whole budget of the loop has the zero of the last store behind
the end of the buffer.
-/

namespace HttpsServ.ChunkBounds

open ByteString Utility Numeral HttpParser Http ResponseHeader ChunkFrames StaticTransfer Transport
  ResponseFrame

/-- The header that `SendStaticData` builds in front of a chunked body. -/
def chunkedHeader (path : Bytes) (isKeepAlive : Bool) : HttpResponseHeader :=
  setResponseProperty (staticDataHeader path isKeepAlive) (bytes "Transfer-Encoding: chunked\r\n")

/-- The values that `SendStaticData` passes for `max_chunk_size`. -/
inductive PassedBudget : Int → Prop
  | first (path : Bytes) (isKeepAlive : Bool) :
      PassedBudget (maxChunkSize - (chunkedHeader path isKeepAlive).totalByteLength)
  | loop : PassedBudget maxChunkSize

/-- What the header leaves of the buffer: more than any size line, but not all. -/
theorem firstBudget_chunkedHeader (path : Bytes) (isKeepAlive : Bool) :
    (maxChunkSize : Int) - (chunkedHeader path isKeepAlive).totalByteLength =
        firstBudget (responseHeader path isKeepAlive true 0) ∧
      16 ^ 3 + 8 ≤ firstBudget (responseHeader path isKeepAlive true 0) ∧
      firstBudget (responseHeader path isKeepAlive true 0) < maxChunkSize := by
  have hlen : (responseHeader path isKeepAlive true 0).length ≤ 188 :=
    length_responseHeader_le path isKeepAlive true (Nat.zero_le _)
  have hmax : maxChunkSize = 8192 := rfl
  have hbuilt : Built (chunkedHeader path isKeepAlive) okDescription
      (responseFields path isKeepAlive true 0) := chunkedHeader_built path isKeepAlive
  have htotal : (chunkedHeader path isKeepAlive).totalByteLength =
      ((responseHeader path isKeepAlive true 0).length + 1 : Nat) :=
    (hbuilt.exact (by rw [← responseHeader]; omega)).total_eq
  rw [htotal, firstBudget]
  omega

theorem PassedBudget.bounds {budget : Int} (h : PassedBudget budget) :
    ∃ n : Nat, budget = n ∧ 16 ^ 3 + 8 ≤ n ∧ n ≤ maxChunkSize := by
  cases h with
  | first path isKeepAlive =>
      obtain ⟨hbudget, hlow, hhigh⟩ := firstBudget_chunkedHeader path isKeepAlive
      exact ⟨_, hbudget, hlow, hhigh.le⟩
  | loop => exact ⟨maxChunkSize, rfl, by decide, le_rfl⟩

/-- A layout for some of `total` bytes in a budget: the slice makes progress, the
chunk fits, and its frame is laid around the slice whatever was in the buffer. -/
structure FrameLaw (total budget : Int) (layout : ChunkLayout) : Prop where
  progress : 0 < layout.sizeThatShouldBeReaded ∧ layout.sizeThatShouldBeReaded ≤ total
  fits : layout.sizeOfChunkedDelim + layout.sizeThatShouldBeReaded ≤ budget
  left : layout.totalDataSize = total - layout.sizeThatShouldBeReaded
  digits : ((hexNumeral layout.sizeThatShouldBeReaded.toNat).length : Int) =
    layout.sizeOfChunkedDelim - sizeofTwoCrlf
  frame : ∀ (buffer : Buffer) (slice : Bytes), slice.length = layout.sizeThatShouldBeReaded →
    ((buffer.storeAll layout.stores).store (layout.sizeOfChunkedDelim - sizeofCrlf).toNat
        slice).cells.take
        (layout.sizeOfChunkedDelim + layout.sizeThatShouldBeReaded).toNat =
      hexNumeral layout.sizeThatShouldBeReaded.toNat ++ (crlf ++ (slice ++ crlf))

/-- A slice that fills the budget is none of the four sizes. -/
theorem min_mem_narrowSizes {total budget : Nat} (hlow : 16 ^ 3 + 8 ≤ budget) :
    min total (budget - 8) ∈ narrowSizes ↔ total ∈ narrowSizes := by
  simp only [narrowSizes, List.mem_cons, List.not_mem_nil, or_false]
  omega

/-- The stores and the slice behind the size line give the chunk of the slice. -/
theorem storedFrame_eq (buffer : Buffer) {slice : Bytes}
    (hfits : sizeWidth slice.length + 4 + slice.length ≤ maxChunkSize)
    (hwide : slice.length ∉ narrowSizes) :
    ((buffer.storeAll (frameStores slice.length)).store (sizeWidth slice.length + 2)
        slice).cells.take (sizeWidth slice.length + 4 + slice.length) =
      hexNumeral slice.length ++ (crlf ++ (slice ++ crlf)) := by
  have hmax : maxChunkSize = 8192 := rfl
  have hsize : slice.length < 16 ^ 4 := by omega
  have hlength := length_chunkFrame hsize
  have hstored := take_storedFrame_buffer buffer (hlength.trans_le hfits)
  rw [hlength] at hstored
  rw [hstored, chunkFrame_eq_encodeChunk hsize hwide]
  rfl

/-- The digits of a narrow size do not fit in front of its slice. -/
theorem not_frameLaw_of_narrow {total room : Nat} (hlow : 16 ^ 3 + 8 ≤ room)
    (hhigh : room ≤ maxChunkSize) (hnarrow : min total (room - 8) ∈ narrowSizes) :
    ¬ FrameLaw total room (computeChunkEncodingData total room) := by
  have hmax : maxChunkSize = 8192 := rfl
  have htwo : sizeofTwoCrlf = 4 := by decide
  have hle : min total (room - 8) ≤ room - 8 := Nat.min_le_right _ _
  have hlayout := computeChunkEncodingData_eq total hlow (by omega)
  simp only at hlayout
  rw [hlayout]
  generalize min total (room - 8) = size at *
  have hwidth := sizeWidth_eq (show size < 16 ^ 4 by omega)
  rw [if_pos hnarrow] at hwidth
  intro h
  have hdigits := h.digits
  simp only [Int.toNat_natCast, htwo] at hdigits
  omega

theorem frameLaw_of_wide {total room : Nat} (hpos : 0 < total) (hlow : 16 ^ 3 + 8 ≤ room)
    (hhigh : room ≤ maxChunkSize) (hwide : min total (room - 8) ∉ narrowSizes) :
    FrameLaw total room (computeChunkEncodingData total room) := by
  have hmax : maxChunkSize = 8192 := rfl
  have htwo : sizeofTwoCrlf = 4 := by decide
  have hone : sizeofCrlf = 2 := rfl
  have hle : min total (room - 8) ≤ room - 8 := Nat.min_le_right _ _
  have hle' : min total (room - 8) ≤ total := Nat.min_le_left _ _
  have hprogress : 0 < min total (room - 8) := by omega
  have hlayout := computeChunkEncodingData_eq total hlow (by omega)
  simp only at hlayout
  rw [hlayout]
  generalize min total (room - 8) = size at *
  have hwidth := sizeWidth_eq (show size < 16 ^ 4 by omega)
  have hwidth_le : sizeWidth size ≤ 4 := sizeWidth_le (by omega)
  rw [if_neg hwide] at hwidth
  constructor
  · simp only
    omega
  · simp only
    omega
  · simp only
    omega
  · simp only [Int.toNat_natCast, htwo]
    omega
  · intro buffer slice hslice
    simp only [Nat.cast_inj] at hslice
    subst hslice
    have hoff : (((sizeWidth slice.length + 4 : Nat) : Int) - sizeofCrlf).toNat =
        sizeWidth slice.length + 2 := by omega
    have hend : (((sizeWidth slice.length + 4 : Nat) : Int) + slice.length).toNat =
        sizeWidth slice.length + 4 + slice.length := by omega
    simp only [hoff, hend, Int.toNat_natCast]
    exact storedFrame_eq buffer (by omega) hwide

/-- A chunk is laid out as it is meant to be unless all that remains is one of the
four sizes whose size line is too narrow. -/
theorem computeChunkEncodingData_frameLaw_iff {total budget : Int} (hpos : 0 < total)
    (hbudget : PassedBudget budget) :
    FrameLaw total budget (computeChunkEncodingData total budget) ↔
      total.toNat ∉ narrowSizes := by
  obtain ⟨n, rfl⟩ := Int.eq_ofNat_of_zero_le hpos.le
  obtain ⟨room, rfl, hlow, hhigh⟩ := hbudget.bounds
  rw [Int.toNat_natCast, ← min_mem_narrowSizes hlow]
  constructor
  · intro h hnarrow
    exact not_frameLaw_of_narrow hlow hhigh hnarrow h
  · intro hwide
    exact frameLaw_of_wide (by omega) hlow hhigh hwide

theorem computeChunkEncodingData_frameLaw_five :
    FrameLaw 5 maxChunkSize (computeChunkEncodingData 5 maxChunkSize) :=
  (computeChunkEncodingData_frameLaw_iff (by decide) .loop).mpr (by decide)

/-- The size line of three bytes is left out. -/
theorem computeChunkEncodingData_three :
    ¬ FrameLaw 3 maxChunkSize (computeChunkEncodingData 3 maxChunkSize) :=
  not_frameLaw_of_narrow (show 16 ^ 3 + 8 ≤ maxChunkSize by decide) le_rfl
    (show min 3 (maxChunkSize - 8) ∈ narrowSizes by decide)

/-- Every byte that a call stores into the response buffer stays inside it. -/
def InBounds : Event → Prop
  | .chunkCall total budget =>
      ∀ block ∈ (computeChunkEncodingData total budget).stores,
        block.1 + block.2.length ≤ maxChunkSize
  | .fread offset slice => offset + slice.length ≤ maxChunkSize
  | _ => True

instance : DecidablePred InBounds
  | .chunkCall total budget =>
      inferInstanceAs (Decidable (∀ block ∈ (computeChunkEncodingData total budget).stores,
        block.1 + block.2.length ≤ maxChunkSize))
  | .fread offset slice => inferInstanceAs (Decidable (offset + slice.length ≤ maxChunkSize))
  | .fopen .. | .parse | .write .. | .read _ | .logMessage .. | .logPerror _ | .logPrintf _
  | .fclose | .netFree | .closeNotify | .sslFree | .freeThreadData =>
      inferInstanceAs (Decidable True)

/-- The zero behind the last line end is the farthest store around a slice. -/
theorem frameStores_inBounds_iff {size : Nat} (h : size < 16 ^ 4) :
    (∀ block ∈ frameStores size, block.1 + block.2.length ≤ maxChunkSize) ↔
      sizeWidth size + size + 5 ≤ maxChunkSize := by
  have hmax : maxChunkSize = 8192 := rfl
  have hwidth : sizeWidth size ≤ 4 := sizeWidth_le h
  have hcrlf : crlf.length = 2 := rfl
  simp only [frameStores, List.forall_mem_cons, List.length_append, List.length_take,
    List.length_singleton, hcrlf, List.not_mem_nil, false_imp_iff, implies_true, and_true]
  omega

/-- The layout for any count of what remains; a count below zero is none. -/
theorem computeChunkEncodingData_toNat (total : Int) {room : Nat} (hlow : 16 ^ 3 + 8 ≤ room)
    (hhigh : room ≤ maxChunkSize) :
    computeChunkEncodingData total room =
      { sizeOfChunkedDelim := (sizeWidth (min total.toNat (room - 8)) + 4 : Nat)
        sizeThatShouldBeReaded := (min total.toNat (room - 8) : Nat)
        totalDataSize := total - (min total.toNat (room - 8) : Nat)
        stores := frameStores (min total.toNat (room - 8)) } := by
  have hmax : maxChunkSize = 8192 := rfl
  have hlayout := fun n => computeChunkEncodingData_eq n hlow (show room < 16 ^ 4 by omega)
  rcases Int.le_total total 0 with hneg | hpos
  · have hzero : saturateValue total room = 0 := by rw [saturateValue, if_pos (.inl hneg)]
    have hempty : saturateValue (0 : Nat) room = 0 := by rw [saturateValue, if_pos (.inl le_rfl)]
    have hnone : total.toNat = 0 := Int.toNat_eq_zero.mpr hneg
    have hlayout₀ := hlayout 0
    rw [computeChunkEncodingData, hempty, ChunkLayout.mk.injEq] at hlayout₀
    obtain ⟨hdelim, hread, -, hstores⟩ := hlayout₀
    rw [computeChunkEncodingData, hzero, hnone, ChunkLayout.mk.injEq]
    exact ⟨hdelim, hread, by rw [hread], hstores⟩
  · obtain ⟨n, rfl⟩ := Int.eq_ofNat_of_zero_le hpos
    have hle : min n (room - 8) ≤ n := Nat.min_le_left _ _
    rw [hlayout n, Int.toNat_natCast, ChunkLayout.mk.injEq]
    exact ⟨rfl, rfl, by omega, rfl⟩

/-- One call stays inside the buffer unless its slice fills the buffer. -/
theorem inBounds_chunkCall_iff (total : Int) {room : Nat} (hlow : 16 ^ 3 + 8 ≤ room)
    (hhigh : room ≤ maxChunkSize) :
    InBounds (.chunkCall total room) ↔ room < maxChunkSize ∨ total < (maxChunkSize - 8 : Nat) := by
  have hmax : maxChunkSize = 8192 := rfl
  have hsize : min total.toNat (room - 8) < 16 ^ 4 := (Nat.min_le_right _ _).trans_lt (by omega)
  have hwidth : sizeWidth (min total.toNat (room - 8)) ≤ 4 := sizeWidth_le hsize
  have hfull : room = maxChunkSize → room - 8 ≤ total.toNat →
      sizeWidth (min total.toNat (room - 8)) = 4 := by
    intro hroom htotal
    rw [Nat.min_eq_right htotal]
    exact sizeWidth_of_ge (by omega) (by omega)
  rw [InBounds, computeChunkEncodingData_toNat total hlow hhigh, frameStores_inBounds_iff hsize]
  omega

/-- The calls for one chunk. -/
theorem computeChunk_readSlice_calls (s : Sending) {room : Nat} (hlow : 16 ^ 3 + 8 ≤ room)
    (hhigh : room ≤ maxChunkSize) :
    (s.computeChunk room).readSlice.totalDataSize =
        s.totalDataSize - (min s.totalDataSize.toNat (room - 8) : Nat) ∧
      ∃ offset slice,
        (s.computeChunk room).readSlice.conn.log =
            s.conn.log ++ [.chunkCall s.totalDataSize room, .fread offset slice] ∧
          InBounds (.fread offset slice) := by
  have hmax : maxChunkSize = 8192 := rfl
  have hlayout := computeChunkEncodingData_toNat s.totalDataSize hlow hhigh
  have hle : min s.totalDataSize.toNat (room - 8) ≤ room - 8 := Nat.min_le_right _ _
  generalize min s.totalDataSize.toNat (room - 8) = size at *
  have hwidth : sizeWidth size ≤ 4 := sizeWidth_le (by omega)
  refine ⟨by simp only [Sending.readSlice, Sending.computeChunk, hlayout],
    sizeWidth size + 2, s.unread.take size, ?_, ?_⟩
  · simp only [Sending.readSlice, freadResponse, Sending.computeChunk, Conn.emit, hlayout,
      sliceOffset, Int.toNat_natCast, List.append_assoc]
    rfl
  · have htake : (s.unread.take size).length ≤ size := List.length_take_le _ _
    rw [InBounds]
    omega

/-- The calls for a chunk are in bounds if the layout is. -/
theorem computeChunk_readSlice_inBounds (s : Sending) {room : Nat} (hlow : 16 ^ 3 + 8 ≤ room)
    (hhigh : room ≤ maxChunkSize) (hcall : InBounds (.chunkCall s.totalDataSize room)) :
    Calls InBounds s.conn (s.computeChunk room).readSlice.conn := by
  obtain ⟨-, offset, slice, hlog, hfread⟩ := computeChunk_readSlice_calls s hlow hhigh
  refine ⟨_, hlog, ?_⟩
  simp only [List.forall_mem_cons, List.not_mem_nil, false_imp_iff, implies_true, and_true]
  exact ⟨hcall, hfread⟩

/-- A pass of the loop with less than a full slice left. -/
theorem writeSlice_inBounds (env : Env) {s : Sending} (hchunk : s.conn.td.isChunkEncoding = true)
    (htotal : s.totalDataSize < (maxChunkSize - 8 : Nat)) :
    s.nextSlice.totalDataSize < (maxChunkSize - 8 : Nat) ∧
      Calls InBounds s.conn (s.nextSlice.writeSlice env).2 := by
  have hlow : 16 ^ 3 + 8 ≤ maxChunkSize := by decide
  have hcall := (inBounds_chunkCall_iff s.totalDataSize hlow le_rfl).mpr (.inr htotal)
  have hleft := (computeChunk_readSlice_calls s hlow le_rfl).1
  rw [Sending.nextSlice, if_pos hchunk]
  constructor
  · omega
  · have hread := computeChunk_readSlice_inBounds s hlow le_rfl hcall
    exact hread.trans (Calls.snoc rfl trivial)

/-- Every call of a loop that starts with less than a full slice stays in bounds. -/
theorem sendLoop_inBounds (env : Env) {s : Sending} (hchunk : s.conn.td.isChunkEncoding = true)
    (htotal : s.totalDataSize < (maxChunkSize - 8 : Nat)) :
    Calls InBounds s.conn (sendLoop env s).2 := by
  induction s using sendLoop.induct env with
  | case1 s hfailed =>
      rw [sendLoop_of_failed hfailed]
      exact (writeSlice_inBounds env hchunk htotal).2
  | case2 s hwrite hempty =>
      rw [sendLoop_of_empty hwrite hempty]
      exact (writeSlice_inBounds env hchunk htotal).2.trans (Calls.of_log_eq rfl)
  | case3 s hwrite hmore ih =>
      obtain ⟨hless, hcalls⟩ := writeSlice_inBounds env hchunk htotal
      have hkeep : (s.nextSlice.writeSlice env).2.clearResponse.td.isChunkEncoding =
          s.conn.td.isChunkEncoding := (nextSlice_transfers s).isChunkEncoding
      rw [sendLoop_of_more hwrite hmore]
      exact (hcalls.trans (Calls.of_log_eq rfl)).trans (ih (hkeep.trans hchunk) hless)

/-- The first call of the loop is for all that remains. -/
theorem sendLoop_first_call (env : Env) {s : Sending}
    (hchunk : s.conn.td.isChunkEncoding = true) :
    s.conn.log ++ [.chunkCall s.totalDataSize maxChunkSize] <+: (sendLoop env s).2.log := by
  obtain ⟨-, offset, slice, hlog, -⟩ :=
    computeChunk_readSlice_calls s (show 16 ^ 3 + 8 ≤ maxChunkSize by decide) le_rfl
  have hwritten : s.conn.log ++ [.chunkCall s.totalDataSize maxChunkSize] <+:
      (s.nextSlice.writeSlice env).2.log := by
    have hnext : s.nextSlice.conn.log = s.conn.log ++
        [.chunkCall s.totalDataSize maxChunkSize, .fread offset slice] := by
      rw [Sending.nextSlice, if_pos hchunk]
      exact hlog
    rw [Sending.writeSlice, sslWrite, Conn.emit, hnext]
    simp
  by_cases hfailed : (s.nextSlice.writeSlice env).1 < 0
  · rw [sendLoop_of_failed hfailed]
    exact hwritten
  · by_cases hempty : s.nextSlice.amountOfData = 0
    · rw [sendLoop_of_empty hfailed hempty]
      exact hwritten
    · rw [sendLoop_of_more hfailed hempty]
      apply hwritten.trans
      exact (sendLoop_transfers env
        { s.nextSlice with conn := (s.nextSlice.writeSlice env).2.clearResponse }).log.log_extends

/-- How much of the file a chunked response takes along with its header. -/
def firstSlice (td : ThreadData) : Nat :=
  firstBudget (responseHeader (td.httpHeader.path.getD []) td.isKeepAlive true 0) - 8

/-- The call for the slice that goes out with the header. -/
theorem beginStatic_inBounds {c : Conn} (hchunk : c.td.isChunkEncoding = true) :
    (beginStatic c).2.totalDataSize = toInt32 c.td.staticFileSize -
        (min (toInt32 c.td.staticFileSize).toNat (firstSlice c.td) : Nat) ∧
      Calls InBounds c (beginStatic c).2.conn := by
  obtain ⟨hbudget, hlow, hless⟩ :=
    firstBudget_chunkedHeader (c.td.httpHeader.path.getD []) c.td.isKeepAlive
  have hcall := (inBounds_chunkCall_iff (toInt32 c.td.staticFileSize) hlow hless.le).mpr
    (.inl hless)
  have hbegin : (beginStatic c).2 = (Sending.computeChunk
      { sizeOfChunkedDelim := 0
        sizeThatShouldBeReaded := maxChunkSize
        totalDataSize := toInt32 c.td.staticFileSize
        amountOfData := 0
        conn := c }
      (firstBudget (responseHeader (c.td.httpHeader.path.getD []) c.td.isKeepAlive true
        0) : Nat)).readSlice := by
    rw [beginStatic, if_pos hchunk, ← hbudget]
    rfl
  rw [hbegin]
  constructor
  · exact (computeChunk_readSlice_calls _ hlow hless.le).1
  · exact computeChunk_readSlice_inBounds _ hlow hless.le hcall

theorem sendHttpHeader_inBounds (env : Env) (site : WriteSite) (resp : HttpResponseHeader)
    (appendData : Option Bytes) (dataSize : Int) (c : Conn) :
    Calls InBounds c (sendHttpHeader env site resp appendData dataSize c).2.2 := by
  rcases sendHttpHeader_log env site resp appendData dataSize c with hsame | ⟨_, _, hwrite⟩
  · rw [hsame]
    exact Calls.of_log_eq rfl
  · rw [hwrite]
    exact Calls.snoc rfl trivial

theorem finishStatic_inBounds (env : Env) (resp : HttpResponseHeader) (looped : Int × Conn) :
    Calls InBounds looped.2 (finishStatic env resp looped).2 := by
  rw [finishStatic]
  split
  · exact Calls.of_log_eq rfl
  · split
    · exact Calls.snoc rfl trivial
    · split
      · exact sendHttpHeader_inBounds env _ _ _ _ _
      · exact Calls.of_log_eq rfl

/-- The connection in front of the loop of a chunked response. -/
theorem headerSent_inBounds (env : Env) {c : Conn} (hchunk : c.td.isChunkEncoding = true) :
    let s := (beginStatic c).2
    let sent := (sendHttpHeader env .header (beginStatic c).1
      (some s.conn.td.responseBuffer.cells) (s.amountOfData + s.sizeOfChunkedDelim) s.conn).2.2
    Calls InBounds c sent ∧ sent.td.isChunkEncoding = true := by
  intro s sent
  have hbegin := beginStatic_transfers c
  have hheader : Transfers s.conn sent := sendHttpHeader_transfers env .header _ _ _ _
  constructor
  · exact (beginStatic_inBounds hchunk).2.trans (sendHttpHeader_inBounds env .header _ _ _ _)
  · exact ((hbegin.trans hheader).isChunkEncoding).trans hchunk

/-- With less than a full slice behind the header write all stores are inside. -/
theorem sendStaticData_inBounds (env : Env) {c : Conn} (hchunk : c.td.isChunkEncoding = true)
    (hless : toInt32 c.td.staticFileSize < firstSlice c.td + (maxChunkSize - 8 : Nat)) :
    Calls InBounds c (sendStaticData env c).2 := by
  have hmax : maxChunkSize = 8192 := rfl
  obtain ⟨hleft, -⟩ := beginStatic_inBounds hchunk
  obtain ⟨hheader, hkeep⟩ := headerSent_inBounds env hchunk
  have htotal : (beginStatic c).2.totalDataSize < (maxChunkSize - 8 : Nat) := by omega
  rw [sendStaticData]
  apply Calls.trans _ (finishStatic_inBounds env _ _)
  split
  · exact hheader.trans (sendLoop_inBounds env (s := { (beginStatic c).2 with conn := _ })
      hkeep htotal)
  · exact hheader

/-- With a full slice behind the header write the loop's first call stores behind
the end. -/
theorem sendStaticData_overflows (env : Env) {c : Conn} (hchunk : c.td.isChunkEncoding = true)
    (hfull : (firstSlice c.td + (maxChunkSize - 8) : Nat) ≤ toInt32 c.td.staticFileSize) :
    ¬ Calls InBounds c (sendStaticData env c).2 := by
  have hmax : maxChunkSize = 8192 := rfl
  obtain ⟨hleft, -⟩ := beginStatic_inBounds hchunk
  obtain ⟨hheader, hkeep⟩ := headerSent_inBounds env hchunk
  have htotal : (maxChunkSize - 8 : Nat) ≤ (beginStatic c).2.totalDataSize := by omega
  intro hcalls
  rw [sendStaticData, if_pos (by omega)] at hcalls
  have hmade := sendLoop_first_call env (s := { (beginStatic c).2 with conn := _ }) hkeep
  have hcall : InBounds (.chunkCall (beginStatic c).2.totalDataSize (maxChunkSize : Nat)) :=
    hcalls.holds hheader.log_extends
      (hmade.trans (finishStatic_inBounds env _ _).log_extends)
  rw [inBounds_chunkCall_iff _ (by decide) le_rfl] at hcall
  omega

/-- A chunked response stays inside its buffer exactly if what is left of the file
behind the header write is less than a full slice. -/
theorem sendStaticData_inBounds_iff (env : Env) {c : Conn}
    (hchunk : c.td.isChunkEncoding = true) :
    Calls InBounds c (sendStaticData env c).2 ↔
      toInt32 c.td.staticFileSize < firstSlice c.td + (maxChunkSize - 8 : Nat) := by
  constructor
  · intro hcalls
    by_contra hfull
    exact sendStaticData_overflows env hchunk (by omega) hcalls
  · exact sendStaticData_inBounds env hchunk

/-- A file of 10000 bytes needs the loop, but no full chunk of it. -/
theorem sendStaticData_inBounds_10000 :
    Calls InBounds (Conn.serving (bytes "/zero.bin") (List.replicate 10000 0) true true)
      (sendStaticData (Env.steady fun _ => none)
        (Conn.serving (bytes "/zero.bin") (List.replicate 10000 0) true true)).2 := by
  refine (sendStaticData_inBounds_iff (Env.steady fun _ => none) rfl).mpr ?_
  have hmax : maxChunkSize = 8192 := rfl
  have hsize : toInt32 (Conn.serving (bytes "/zero.bin") (List.replicate 10000 0) true
      true).td.staticFileSize = 10000 := by
    rw [Conn.serving, List.length_replicate]
    decide
  obtain ⟨-, hlow, -⟩ := firstBudget_chunkedHeader (bytes "/zero.bin") true
  have hfirst : ∀ content, firstSlice (Conn.serving (bytes "/zero.bin") content true true).td =
      firstBudget (responseHeader (bytes "/zero.bin") true true 0) - 8 := fun _ => rfl
  rw [hsize, hfirst]
  omega

/-- For a file of 20000 bytes the first full chunk has a zero behind the buffer. -/
theorem sendStaticData_overflows_20000 :
    ¬ Calls InBounds (Conn.serving (bytes "/zero.bin") (List.replicate 20000 0) true true)
      (sendStaticData (Env.steady fun _ => none)
        (Conn.serving (bytes "/zero.bin") (List.replicate 20000 0) true true)).2 := by
  apply sendStaticData_overflows _ rfl
  have hmax : maxChunkSize = 8192 := rfl
  have hsize : toInt32 (Conn.serving (bytes "/zero.bin") (List.replicate 20000 0) true
      true).td.staticFileSize = 20000 := by
    rw [Conn.serving, List.length_replicate]
    decide
  rw [hsize, firstSlice, firstBudget]
  omega

/-- A pass of the loop that reads as much as the buffer holds, from its start. -/
structure ReadsWhole (s : Sending) : Prop where
  identity : s.conn.td.isChunkEncoding = false
  delim : s.sizeOfChunkedDelim = 0
  size : s.sizeThatShouldBeReaded = maxChunkSize

theorem ReadsWhole.pass {s : Sending} (h : ReadsWhole s) (env : Env) :
    ReadsWhole { s.nextSlice with conn := (s.nextSlice.writeSlice env).2.clearResponse } ∧
      Calls InBounds s.conn (s.nextSlice.writeSlice env).2 := by
  obtain ⟨hidentity, hdelim, hsize⟩ := h
  have hnext : s.nextSlice = s.readSlice := by
    rw [Sending.nextSlice, hidentity, if_neg Bool.false_ne_true]
  have hkeep : s.readSlice.conn.td.isChunkEncoding = false :=
    (readSlice_transfers s).isChunkEncoding.trans hidentity
  have hstart : (saturateValue (0 - sizeofCrlf) 0).toNat = 0 := by decide
  rw [hnext]
  constructor
  · exact ⟨hkeep, hdelim, hsize⟩
  · have hlog : s.readSlice.conn.log = s.conn.log ++ [.fread 0 (s.unread.take maxChunkSize)] := by
      simp only [Sending.readSlice, freadResponse, Conn.emit, hdelim, hsize, hstart,
        Int.toNat_natCast]
      rfl
    have hinside : InBounds (.fread 0 (s.unread.take maxChunkSize)) := by
      rw [InBounds, Nat.zero_add]
      exact List.length_take_le _ _
    exact (Calls.snoc hlog hinside).trans (Calls.snoc rfl trivial)

theorem sendLoop_inBounds_whole (env : Env) {s : Sending} (h : ReadsWhole s) :
    Calls InBounds s.conn (sendLoop env s).2 := by
  induction s using sendLoop.induct env with
  | case1 s hfailed =>
      rw [sendLoop_of_failed hfailed]
      exact (h.pass env).2
  | case2 s hwrite hempty =>
      rw [sendLoop_of_empty hwrite hempty]
      exact (h.pass env).2.trans (Calls.of_log_eq rfl)
  | case3 s hwrite hmore ih =>
      obtain ⟨hnext, hcalls⟩ := h.pass env
      rw [sendLoop_of_more hwrite hmore]
      exact (hcalls.trans (Calls.of_log_eq rfl)).trans (ih hnext)

/-- The first slice stands at the start of a clear buffer. -/
theorem beginStatic_inBounds_whole {c : Conn} {content : Bytes} (h : Ready c content)
    (hidentity : c.td.isChunkEncoding = false) :
    ReadsWhole (beginStatic c).2 ∧ Calls InBounds c (beginStatic c).2.conn := by
  have hstart : (cstr c.td.responseBuffer.cells).length = 0 := by
    rw [h.clear]
    rfl
  have hbuilt : Built (setResponseContentLength (staticDataHeader
      (c.td.httpHeader.path.getD []) c.td.isKeepAlive) content.length) okDescription
        (responseFields (c.td.httpHeader.path.getD []) c.td.isKeepAlive c.td.isChunkEncoding
          content.length) := by
    rw [hidentity]
    exact identityHeader_built _ _ _
  have hbudget := h.budget_eq hbuilt
  obtain ⟨-, hroom⟩ := firstBudget_bounds c.td h.fits
  rw [beginStatic, hidentity, if_neg Bool.false_ne_true]
  refine ⟨⟨hidentity, rfl, rfl⟩, Calls.snoc rfl ?_⟩
  rw [InBounds, hstart, Nat.zero_add, h.toInt32_size, hbudget, Int.toNat_natCast]
  have hlen := List.length_take_le (firstBudget (headerOf c.td content))
    (c.td.staticFile.elim [] OpenFile.unread)
  omega

theorem sendStaticData_inBounds_whole (env : Env) {c : Conn} {content : Bytes}
    (h : Ready c content) (hidentity : c.td.isChunkEncoding = false) :
    Calls InBounds c (sendStaticData env c).2 := by
  obtain ⟨⟨hkeep, hdelim, hsize⟩, hbegin⟩ := beginStatic_inBounds_whole h hidentity
  have hheader := hbegin.trans (sendHttpHeader_inBounds env .header (beginStatic c).1
    (some (beginStatic c).2.conn.td.responseBuffer.cells)
    ((beginStatic c).2.amountOfData + (beginStatic c).2.sizeOfChunkedDelim) _)
  rw [sendStaticData]
  apply Calls.trans _ (finishStatic_inBounds env _ _)
  split
  · have hsent : Transfers (beginStatic c).2.conn _ := sendHttpHeader_transfers env .header
      (beginStatic c).1 (some (beginStatic c).2.conn.td.responseBuffer.cells)
      ((beginStatic c).2.amountOfData + (beginStatic c).2.sizeOfChunkedDelim) _
    exact hheader.trans (sendLoop_inBounds_whole env
      ⟨hsent.isChunkEncoding.trans hkeep, hdelim, hsize⟩)
  · exact hheader

/-- With chunks a response needs less than a full slice behind the header write. -/
def StaysInside (td : ThreadData) : Prop :=
  td.isChunkEncoding = true →
    toInt32 td.staticFileSize < firstSlice td + (maxChunkSize - 8 : Nat)

/-- Every store of a response is inside the buffer exactly if no slice fills it. -/
theorem sendStaticData_staysInside_iff (env : Env) {c : Conn} {content : Bytes}
    (h : Ready c content) : Calls InBounds c (sendStaticData env c).2 ↔ StaysInside c.td := by
  cases hencoding : c.td.isChunkEncoding with
  | true =>
      have hneeds : StaysInside c.td ↔
          toInt32 c.td.staticFileSize < firstSlice c.td + (maxChunkSize - 8 : Nat) :=
        forall_prop_of_true hencoding
      rw [hneeds]
      constructor
      · intro hcalls
        by_contra hfull
        exact sendStaticData_overflows env hencoding (by omega) hcalls
      · exact sendStaticData_inBounds env hencoding
  | false =>
      have hnone : StaysInside c.td := by
        intro hchunked
        rw [hencoding] at hchunked
        cases hchunked
      exact ⟨fun _ => hnone, fun _ => sendStaticData_inBounds_whole env h hencoding⟩

end HttpsServ.ChunkBounds
