import HttpsServ.StaticTransfer
import HttpsServ.Transport

/-!
# What a response touches

`SendStaticData` works on the response buffer, the open file and the log, and
makes no read. Where every write is taken whole, neither the log in front of it
nor the request buffer has a part in it.
-/

namespace HttpsServ.ResponseFrame

open ByteString Utility HttpParser Http StaticTransfer Transport

/-- Reads that have returned. -/
def isRead : Event → Bool
  | .read (some _) => true
  | _ => false

/-- The calls that a response is made of. -/
def isTransfer : Event → Bool
  | .chunkCall _ _ => true
  | .fread _ _ => true
  | .write _ _ _ => true
  | _ => false

/-- All calls between two connections have a property. -/
def Calls (p : Event → Prop) (c c' : Conn) : Prop :=
  ∃ events, c'.log = c.log ++ events ∧ ∀ e ∈ events, p e

theorem Calls.of_log_eq {p : Event → Prop} {c c' : Conn} (h : c'.log = c.log) : Calls p c c' := by
  refine ⟨[], ?_, ?_⟩
  · rw [h, List.append_nil]
  · intro e he
    cases he

theorem Calls.trans {p : Event → Prop} {c c' c'' : Conn} (h : Calls p c c')
    (h' : Calls p c' c'') : Calls p c c'' := by
  obtain ⟨events, hlog, hall⟩ := h
  obtain ⟨events', hlog', hall'⟩ := h'
  refine ⟨events ++ events', ?_, ?_⟩
  · rw [hlog', hlog, List.append_assoc]
  · intro e he
    rcases List.mem_append.mp he with he | he
    · exact hall e he
    · exact hall' e he

/-- One call. -/
theorem Calls.snoc {p : Event → Prop} {c c' : Conn} {e : Event} (h : c'.log = c.log ++ [e])
    (he : p e) : Calls p c c' := by
  refine ⟨[e], h, ?_⟩
  intro e' he'
  rw [List.mem_singleton.mp he']
  exact he

theorem Calls.mono {p q : Event → Prop} {c c' : Conn} (h : Calls p c c')
    (hpq : ∀ e, p e → q e) : Calls q c c' := by
  obtain ⟨events, hlog, hall⟩ := h
  exact ⟨events, hlog, fun e he => hpq e (hall e he)⟩

theorem Calls.log_extends {p : Event → Prop} {c c' : Conn} (h : Calls p c c') :
    c.log <+: c'.log := by
  obtain ⟨events, hlog, -⟩ := h
  exact ⟨events, hlog.symm⟩

/-- A call that was made in between has the property. -/
theorem Calls.holds {p : Event → Prop} {c c' : Conn} (h : Calls p c c') {log : List Event}
    {e : Event} (hbefore : c.log <+: log) (hmade : log ++ [e] <+: c'.log) : p e := by
  obtain ⟨events, hlog, hall⟩ := h
  obtain ⟨between, rfl⟩ := hbefore
  obtain ⟨rest, hrest⟩ := hmade
  rw [hlog, List.append_assoc, List.append_assoc, List.append_cancel_left_eq] at hrest
  apply hall
  rw [← hrest]
  simp

/-- From the first connection to the second only the response was worked on. -/
structure Transfers (c c' : Conn) : Prop where
  td : c'.td = { c.td with
    responseBuffer := c'.td.responseBuffer, staticFile := c'.td.staticFile }
  file : c'.td.staticFile.isSome = c.td.staticFile.isSome
  log : Calls (fun e => isTransfer e = true) c c'

theorem Transfers.isChunkEncoding {c c' : Conn} (h : Transfers c c') :
    c'.td.isChunkEncoding = c.td.isChunkEncoding := by
  rw [h.td]

theorem Transfers.refl (c : Conn) : Transfers c c := ⟨rfl, rfl, Calls.of_log_eq rfl⟩

theorem Transfers.trans {c c' c'' : Conn} (h : Transfers c c') (h' : Transfers c' c'') :
    Transfers c c'' := by
  refine ⟨?_, h'.file.trans h.file, h.log.trans h'.log⟩
  rw [h'.td, h.td]

/-- A change of the buffer and of an open file, with one call. -/
theorem Transfers.step (c : Conn) (responseBuffer : Buffer) {staticFile : Option OpenFile}
    (hfile : staticFile.isSome = c.td.staticFile.isSome) {e : Event} (he : isTransfer e = true) :
    Transfers c ({ c with td := { c.td with
      responseBuffer := responseBuffer, staticFile := staticFile } }.emit e) :=
  ⟨rfl, hfile, Calls.snoc rfl he⟩

theorem Transfers.emit (c : Conn) {e : Event} (he : isTransfer e = true) :
    Transfers c (c.emit e) :=
  Transfers.step c c.td.responseBuffer rfl he

theorem sendHttpHeader_transfers (env : Env) (site : WriteSite) (resp : HttpResponseHeader)
    (appendData : Option Bytes) (dataSize : Int) (c : Conn) :
    Transfers c (sendHttpHeader env site resp appendData dataSize c).2.2 := by
  rcases sendHttpHeader_log env site resp appendData dataSize c with hsame | ⟨_, _, hwrite⟩
  · rw [hsame]
    exact Transfers.refl c
  · rw [hwrite]
    exact Transfers.emit c rfl

theorem freadResponse_transfers (offset : Nat) (size : Int) (c : Conn) :
    Transfers c (freadResponse offset size c).2 :=
  Transfers.step c _ (Option.isSome_map ..) rfl

theorem readSlice_transfers (s : Sending) : Transfers s.conn s.readSlice.conn :=
  freadResponse_transfers _ _ s.conn

theorem computeChunk_transfers (s : Sending) (budget : Int) :
    Transfers s.conn (s.computeChunk budget).conn :=
  Transfers.step s.conn _ rfl rfl

theorem nextSlice_transfers (s : Sending) : Transfers s.conn s.nextSlice.conn := by
  rw [Sending.nextSlice]
  split
  · exact (computeChunk_transfers s _).trans (readSlice_transfers _)
  · exact readSlice_transfers s

theorem beginStatic_transfers (c : Conn) : Transfers c (beginStatic c).2.conn := by
  simp only [beginStatic]
  split
  · exact (computeChunk_transfers { conn := c, .. } _).trans (readSlice_transfers _)
  · exact freadResponse_transfers _ _ c

theorem clearResponse_transfers (c : Conn) : Transfers c c.clearResponse :=
  ⟨rfl, rfl, Calls.of_log_eq rfl⟩

theorem sendLoop_transfers (env : Env) (s : Sending) : Transfers s.conn (sendLoop env s).2 := by
  have hwritten : ∀ s : Sending, Transfers s.conn (s.nextSlice.writeSlice env).2 :=
    fun s => (nextSlice_transfers s).trans (Transfers.emit _ rfl)
  induction s using sendLoop.induct env with
  | case1 s hfailed =>
      rw [sendLoop_of_failed hfailed]
      exact hwritten s
  | case2 s hwrite hempty =>
      rw [sendLoop_of_empty hwrite hempty]
      exact (hwritten s).trans (clearResponse_transfers _)
  | case3 s hwrite hmore ih =>
      rw [sendLoop_of_more hwrite hmore]
      exact ((hwritten s).trans (clearResponse_transfers _)).trans ih

theorem finishStatic_transfers (env : Env) (resp : HttpResponseHeader) (looped : Int × Conn) :
    Transfers looped.2 (finishStatic env resp looped).2 := by
  rw [finishStatic]
  split
  · exact Transfers.refl _
  · split
    · exact Transfers.emit _ rfl
    · split
      · exact sendHttpHeader_transfers env _ _ _ _ _
      · exact Transfers.refl _

/-- The frame of a response. -/
theorem sendStaticData_transfers (env : Env) (c : Conn) :
    Transfers c (sendStaticData env c).2 := by
  have hheader := (beginStatic_transfers c).trans (sendHttpHeader_transfers env .header
    (beginStatic c).1 (some (beginStatic c).2.conn.td.responseBuffer.cells)
    ((beginStatic c).2.amountOfData + (beginStatic c).2.sizeOfChunkedDelim) _)
  rw [sendStaticData]
  apply Transfers.trans _ (finishStatic_transfers env _ _)
  split
  · exact hheader.trans (sendLoop_transfers env { (beginStatic c).2 with conn := _ })
  · exact hheader

theorem isRead_of_isTransfer {e : Event} (h : isTransfer e = true) : isRead e = false := by
  cases e with
  | read result => cases h
  | _ => rfl

/-- Nothing is read while a response is worked on. -/
theorem Transfers.noReads {c c' : Conn} (h : Transfers c c') :
    Calls (fun e => isRead e = false) c c' :=
  h.log.mono fun _ => isRead_of_isTransfer

/-- The same connection with another request buffer, behind an earlier log. -/
def Conn.behind (log : List Event) (requestBuffer : Buffer) (c : Conn) : Conn where
  td := { c.td with requestBuffer := requestBuffer }
  log := log ++ c.log

def Sending.behind (log : List Event) (requestBuffer : Buffer) (s : Sending) : Sending :=
  { s with conn := Conn.behind log requestBuffer s.conn }

section Independence

variable {env : Env} (henv : FullWrites env) (log : List Event) (requestBuffer : Buffer)

theorem emit_behind (c : Conn) (e : Event) :
    (Conn.behind log requestBuffer c).emit e = Conn.behind log requestBuffer (c.emit e) := by
  simp only [Conn.behind, Conn.emit, List.append_assoc]

include henv in
theorem sslWrite_behind (site : WriteSite) (buffer : Bytes) (c : Conn) :
    sslWrite env site buffer (Conn.behind log requestBuffer c) =
      ((sslWrite env site buffer c).1,
        Conn.behind log requestBuffer (sslWrite env site buffer c).2) := by
  simp only [sslWrite, henv _ _, emit_behind]

include henv in
theorem sendHttpHeader_behind (site : WriteSite) (resp : HttpResponseHeader)
    (appendData : Option Bytes) (dataSize : Int) (c : Conn) :
    sendHttpHeader env site resp appendData dataSize (Conn.behind log requestBuffer c) =
      ((sendHttpHeader env site resp appendData dataSize c).1,
        (sendHttpHeader env site resp appendData dataSize c).2.1,
        Conn.behind log requestBuffer
          (sendHttpHeader env site resp appendData dataSize c).2.2) := by
  simp only [sendHttpHeader, sslWrite_behind henv]
  split
  · rfl
  · split <;> rfl

theorem readSlice_behind (s : Sending) :
    (Sending.behind log requestBuffer s).readSlice =
      Sending.behind log requestBuffer s.readSlice := by
  simp only [Sending.readSlice, freadResponse, Sending.behind, Conn.behind, Conn.emit,
    List.append_assoc]

theorem computeChunk_behind (s : Sending) (budget : Int) :
    (Sending.behind log requestBuffer s).computeChunk budget =
      Sending.behind log requestBuffer (s.computeChunk budget) := by
  simp only [Sending.computeChunk, Sending.behind, Conn.behind, Conn.emit, List.append_assoc]

theorem nextSlice_behind (s : Sending) :
    (Sending.behind log requestBuffer s).nextSlice =
      Sending.behind log requestBuffer s.nextSlice := by
  have hencoding : (Sending.behind log requestBuffer s).conn.td.isChunkEncoding =
      s.conn.td.isChunkEncoding := rfl
  simp only [Sending.nextSlice, hencoding]
  split
  · rw [computeChunk_behind, readSlice_behind]
  · rw [readSlice_behind]

theorem beginStatic_behind (c : Conn) :
    beginStatic (Conn.behind log requestBuffer c) =
      ((beginStatic c).1, Sending.behind log requestBuffer (beginStatic c).2) := by
  have hencoding : (Conn.behind log requestBuffer c).td.isChunkEncoding =
      c.td.isChunkEncoding := rfl
  simp only [beginStatic, hencoding]
  split
  · have hchunked := fun s budget => congrArg Sending.readSlice
      (computeChunk_behind log requestBuffer s budget)
    simp only [readSlice_behind] at hchunked
    simp only [beginChunked]
    rw [← hchunked]
    rfl
  · simp only [beginIdentity, freadResponse, Sending.behind, Conn.behind, Conn.emit,
      List.append_assoc]

include henv in
theorem sendLoop_behind (s : Sending) :
    sendLoop env (Sending.behind log requestBuffer s) =
      ((sendLoop env s).1, Conn.behind log requestBuffer (sendLoop env s).2) := by
  have hwritten : ∀ s : Sending, (Sending.behind log requestBuffer s).nextSlice.writeSlice env =
      ((s.nextSlice.writeSlice env).1,
        Conn.behind log requestBuffer (s.nextSlice.writeSlice env).2) := by
    intro s
    rw [nextSlice_behind]
    exact sslWrite_behind henv log requestBuffer _ _ _
  have hamount : ∀ s : Sending, (Sending.behind log requestBuffer s).nextSlice.amountOfData =
      s.nextSlice.amountOfData := by
    intro s
    rw [nextSlice_behind]
    rfl
  induction s using sendLoop.induct env with
  | case1 s hfailed =>
      rw [sendLoop_of_failed hfailed, sendLoop_of_failed (by rwa [hwritten]), hwritten]
  | case2 s hwrite hempty =>
      rw [sendLoop_of_empty hwrite hempty,
        sendLoop_of_empty (by rwa [hwritten]) (by rwa [hamount]), hwritten]
      rfl
  | case3 s hwrite hmore ih =>
      rw [sendLoop_of_more hwrite hmore, ← ih,
        sendLoop_of_more (by rwa [hwritten]) (by rwa [hamount]), hwritten, nextSlice_behind]
      rfl

include henv in
theorem finishStatic_behind (resp : HttpResponseHeader) (looped : Int × Conn) :
    finishStatic env resp (looped.1, Conn.behind log requestBuffer looped.2) =
      ((finishStatic env resp looped).1,
        Conn.behind log requestBuffer (finishStatic env resp looped).2) := by
  have hencoding : (Conn.behind log requestBuffer looped.2).td.isChunkEncoding =
      looped.2.td.isChunkEncoding := rfl
  have hkeep : (Conn.behind log requestBuffer looped.2).td.isKeepAlive =
      looped.2.td.isKeepAlive := rfl
  simp only [finishStatic, hencoding, hkeep, sslWrite_behind henv, sendHttpHeader_behind henv]
  split
  · rfl
  · split
    · rfl
    · split <;> rfl

include henv in
/-- A response does not depend on what was logged or read before it. -/
theorem sendStaticData_behind (c : Conn) :
    sendStaticData env (Conn.behind log requestBuffer c) =
      ((sendStaticData env c).1, Conn.behind log requestBuffer (sendStaticData env c).2) := by
  rw [sendStaticData, sendStaticData, beginStatic_behind]
  obtain ⟨resp, s⟩ := beginStatic c
  have hcells : (Conn.behind log requestBuffer s.conn).td.responseBuffer =
      s.conn.td.responseBuffer := rfl
  have hloop : ∀ conn, sendLoop env { s with conn := Conn.behind log requestBuffer conn } =
      ((sendLoop env { s with conn := conn }).1,
        Conn.behind log requestBuffer (sendLoop env { s with conn := conn }).2) :=
    fun conn => sendLoop_behind henv log requestBuffer { s with conn := conn }
  simp only [Sending.behind, hcells, sendHttpHeader_behind henv, hloop]
  rw [← finishStatic_behind henv]
  split <;> rfl

end Independence

end HttpsServ.ResponseFrame
