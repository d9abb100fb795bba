import HttpsServ.ConnectionMemory

/-!
# Connections and the heap

A run of `HandleConnection` on the blocks that `RunServer` has filled for it. As long
as no request is refused behind its blank line, each file that is found has a request
with a body, and no response fills a chunk of the loop, everything that was taken is
given back, but for the working copy of a request with another method. A request of the
other kinds ends in a step that is undefined.
-/

namespace HttpsServ.ConnectionLife

open ByteString Utility TlsAdapter Transport StaticTransfer KeepAlive ReadBoundaries
  ErrorResponse RequestWords RequestGrammar PathContainment ConnectionEnd ResourceBalance
  HeapProgram ResponseMemory ConnectionMemory
open Http hiding handleConnection handleRequest serveRead serveReads
open HttpParser (HttpRequestHeader maxUrlSize)
open SendMemory (closeConnection_triple)
open ChunkBounds (StaysInside)

/-- The files come whole, and their size fits an `int`. -/
def WholeFiles (env : Env) : Prop :=
  ∀ log name image, env.fopen log name = some image →
    image.size = image.content.length ∧ image.content.length ≤ intMax

/-- The working copies that a parse keeps. -/
def keptCopies (buffer : Bytes) : Nat :=
  if (HttpParser.fillHttpRequestHeader {} buffer).1 = kNotImplemented then 1 else 0

section Request

variable {env : Env} {c : Conn} {held : HeldData} {s : Multiset (Nat × Block)}

/-- The connection after a read, before the request is parsed. -/
structure Received (c : Conn) : Prop where
  tracked : Tracked c
  noFile : c.td.staticFile = none
  header : c.td.httpHeader = {}
  clear : c.td.responseBuffer = .zero

/-- Where a request finds its file, the stores of the response are inside its buffer. -/
def RespondsInside (env : Env) (c : Conn) (request : Bytes) : Prop :=
  ∀ header image body, HttpParser.fillHttpRequestHeader {} request = (0, header) →
    foundImage env (accepted env header c) = some image → header.body = some body →
      StaysInside (answering body (Http.openRequestedFile env (accepted env header c)).td)

theorem respondsInside_congr {request request' : Bytes} (h : cstr request = cstr request') :
    RespondsInside env c request ↔ RespondsInside env c request' := by
  simp only [RespondsInside, fillHttpRequestHeader_congr h]

/-- What is parsed. -/
def received (c : Conn) : Bytes := c.td.requestBuffer.cells ++ c.td.responseBuffer.cells

/-- The connection behind the parser. -/
def parsed (header : HttpRequestHeader) (c : Conn) : Conn :=
  { c with td := { c.td with httpHeader := header } }.emit .parse

/-- A parse adds the strings of the request to the blocks, and the copies that it keeps. -/
theorem parseRequest_triple (hrec : Received c) (h : DataCells held c.td s)
    (hstays : ¬ FreesMoved (received c)) :
    Triple s (parseRequest held c) fun r u =>
      r.1 = (HttpParser.fillHttpRequestHeader {} (received c)).1 ∧
      r.2.2 = parsed (HttpParser.fillHttpRequestHeader {} (received c)).2 c ∧ ∃ kept own,
        u = kept + own ∧ kept.card = keptCopies (received c) ∧ DataCells r.2.1 r.2.2.td own := by
  cases h with
  | @intro threadData root document header _ m hcells =>
      rw [hrec.header] at hcells
      obtain ⟨rfl, rfl⟩ := hcells.unfilled
      apply (fillHttpRequestHeader_triple hstays _).bind
      rintro ⟨ret, header⟩ _ ⟨hret, kept, m, rfl, hkept, hfilled⟩
      apply (hfilled.view rfl c).value
      refine Triple.pure ⟨hret, rfl, kept, cell threadData .object +
        stringCell root c.td.rootFolder + stringCell document c.td.defaultDocument + m, ?_, hkept,
        .intro hfilled⟩
      abel

/-- A parse that frees a moved pointer. -/
theorem parseRequest_faults (hrec : Received c) (h : DataCells held c.td s)
    (hmoved : FreesMoved (received c)) : Faults s (parseRequest held c) := by
  cases h with
  | @intro threadData root document header _ m hcells =>
      rw [hrec.header] at hcells
      obtain ⟨rfl, rfl⟩ := hcells.unfilled
      exact (fillHttpRequestHeader_faults hmoved _).bind

theorem parse_eq (hrec : Received c) :
    HttpParser.fillHttpRequestHeader c.td.httpHeader
      (c.td.requestBuffer.cells ++ c.td.responseBuffer.cells) =
        HttpParser.fillHttpRequestHeader {} (received c) := by
  rw [hrec.header, received]

/-- A request that the parser refuses without freeing a moved pointer. -/
theorem handleRequest_refused_triple (hrec : Received c) (h : DataCells held c.td s)
    (hstays : ¬ FreesMoved (received c))
    (hcode : (HttpParser.fillHttpRequestHeader {} (received c)).1 < 0) :
    Triple s (handleRequest env held c) fun r u =>
      r.value = Http.handleRequest env c ∧ Leaves (keptCopies (received c)) r u := by
  have hdescribed : (HttpParser.fillHttpRequestHeader {} (received c)).1.natAbs <
      kErrorDescriptions.length := by
    rcases fillHttpRequestHeader_code {} (received c) with hzero | ⟨e, he⟩
    · rw [hzero] at hcode
      exact absurd hcode (lt_irrefl 0)
    · rw [he]
      exact e.described.1
  have hname : (bytes "Your request").length + 128 ≤ maxChunkSize := by decide
  have hvalue := handleRequest_refused env (parse_eq hrec) hcode
  apply (parseRequest_triple hrec h hstays).bind
  rintro ⟨_, held', _⟩ _ ⟨rfl, rfl, kept, own, rfl, hkept, hcells⟩
  dsimp only
  rw [if_pos hcode, ← hkept, hvalue]
  exact failRequest_triple env hcells rfl hdescribed hname

/-- What an accepted request brings with it. -/
theorem accepted_strings {header : HttpRequestHeader} {buffer : Bytes}
    (hparse : HttpParser.fillHttpRequestHeader {} buffer = (0, header)) :
    ∃ method path, header.method = some method ∧ header.path = some path ∧
      path.length ≤ maxUrlSize := by
  obtain ⟨text, method, path, version, htaken, hget⟩ :=
    (fillHttpRequestHeader_accepted_iff {} buffer).mp (congrArg Prod.fst hparse)
  obtain ⟨body, -, hfill⟩ := htaken.fill_of_get hget
  obtain rfl : _ = header := congrArg Prod.snd ((hfill {}).symm.trans hparse)
  exact ⟨method, path, rfl, rfl, htaken.short path (by simp)⟩

/-- A file that comes whole is ready to be sent. -/
theorem openRequestedFile_ready (hfiles : WholeFiles env) {image : FileImage}
    (himage : foundImage env c = some image) (hclear : c.td.responseBuffer = .zero) :
    Ready (Http.openRequestedFile env c) image.content := by
  obtain ⟨name, hname, hopen⟩ := Option.bind_eq_some_iff.mp himage
  obtain ⟨hsize, hfits⟩ := hfiles c.log name image hopen
  constructor
  · simp only [Http.openRequestedFile, openStaticFile, hname, hopen]
    rfl
  · simp only [Http.openRequestedFile, openStaticFile, hname, hopen]
    exact hsize
  · exact hfits
  · simp only [Http.openRequestedFile, openStaticFile, hname, hopen]
    exact hclear

/-- The name that an error response repeats is no longer than a path. -/
theorem openRequestedFile_path (env : Env) {path : Bytes} (hpath : c.td.httpHeader.path = some path) :
    ((Http.openRequestedFile env c).td.httpHeader.path.getD []).length ≤ path.length := by
  have hsrc : (Http.openRequestedFile env c).td.httpHeader.path = some (keptPath path) := by
    rw [← (getFilePosition_eq path).1]
    simp only [Http.openRequestedFile, hpath, Option.getD_some]
    split
    · rfl
    · rfl
  rw [hsrc]
  exact length_keptPath_le path

theorem accepted_stays {header : HttpRequestHeader} {buffer : Bytes}
    (hparse : HttpParser.fillHttpRequestHeader {} buffer = (0, header)) :
    ¬ FreesMoved buffer ∧ keptCopies buffer = 0 := by
  have hcodes : (0 : Int) ≠ kBadRequest ∧ (0 : Int) ≠ kNotImplemented := by decide
  rw [FreesMoved, keptCopies, hparse]
  exact ⟨fun hmoved => hcodes.1 hmoved.2, if_neg hcodes.2⟩

section Accepted

variable {header : HttpRequestHeader} (hrec : Received c)
  (hparse : HttpParser.fillHttpRequestHeader {} (received c) = (0, header))
  (hdocument : c.td.defaultDocument.length < maxUrlSize)
include hparse hdocument

/-- The path of an accepted request, with its default document. -/
theorem accepted_path (env : Env) : ∃ path,
    (accepted env header c).td.httpHeader.path = some path ∧ path.length ≤ maxUrlSize := by
  obtain ⟨method, path, hmethod, hpath, hshort⟩ := accepted_strings hparse
  exact (withDocument_strings (c := parsed header c) hmethod hpath hshort hdocument).2

theorem openAccepted_accepted_triple (h : DataCells held (parsed header c).td s) :
    Triple s (openAccepted env held (parsed header c)) fun r u =>
      r.2 = Http.openRequestedFile env (accepted env header c) ∧ DataCells r.1 r.2.td u := by
  obtain ⟨method, path, hmethod, hpath, hshort⟩ := accepted_strings hparse
  exact openAccepted_triple env h hmethod hpath hshort hdocument

include hrec

/-- An accepted request whose file, if there is one, can be sent. -/
theorem handleRequest_accepted_triple (hfiles : WholeFiles env) (h : DataCells held c.td s)
    (hanswers : ∀ image, foundImage env (accepted env header c) = some image →
      ¬ LoneGet (received c)) (hinside : RespondsInside env c (received c)) :
    Triple s (handleRequest env held c) fun r u =>
      r.value = Http.handleRequest env c ∧ Leaves (keptCopies (received c)) r u := by
  obtain ⟨hstays, hnone⟩ := accepted_stays hparse
  obtain ⟨path, hpath, hshort⟩ := accepted_path hparse hdocument env
  have hopens := openRequestedFile_opens env (hrec.tracked.accepted env header) hrec.noFile
  have hvalue := handleRequest_opens env ((parse_eq hrec).trans hparse) (lt_irrefl 0)
  apply (parseRequest_triple hrec h hstays).bind
  rintro ⟨_, held', _⟩ _ ⟨rfl, rfl, kept, own, rfl, hkept, hcells⟩
  rw [hnone, Multiset.card_eq_zero] at hkept
  subst hkept
  rw [hnone, zero_add, hvalue]
  simp only [hparse] at hcells ⊢
  rw [if_neg (lt_irrefl 0)]
  apply (openAccepted_accepted_triple hparse hdocument hcells).bind
  rintro ⟨held'', _⟩ u ⟨rfl, hcells'⟩
  dsimp only
  cases himage : foundImage env (accepted env header c) with
  | none =>
      obtain ⟨e, hsize⟩ := hopens.missing himage
      have hlength := openRequestedFile_path env hpath
      have hmax : maxUrlSize + 128 ≤ maxChunkSize := by decide
      rw [hsize, if_pos e.code_neg, if_pos e.code_neg]
      exact failRequest_triple env (t := 0) hcells' (zero_add u).symm e.described.2 (by omega)
  | some image =>
      have hready := openRequestedFile_ready hfiles himage hrec.clear
      have hpos : ¬ (Http.openRequestedFile env (accepted env header c)).td.staticFileSize < 0 := by
        rw [hready.size]
        exact (Int.natCast_nonneg _).not_gt
      have hbody := fillHttpRequestHeader_body_iff (congrArg Prod.fst hparse)
      rw [hparse] at hbody
      obtain ⟨body, hsome⟩ := Option.isSome_iff_exists.mp (hbody.mpr (hanswers image himage))
      rw [if_neg hpos, if_neg hpos]
      apply respond_triple env hready _ (hinside header image body hparse himage hsome) hcells'
      rw [openRequestedFile_body]
      exact hsome

/-- An accepted request for a file that is found comes to its response. -/
theorem handleRequest_found_faults (hfiles : WholeFiles env) (h : DataCells held c.td s)
    {image : FileImage} (himage : foundImage env (accepted env header c) = some image)
    (hrespond : ∀ held' u, DataCells held' (Http.openRequestedFile env (accepted env header c)).td u →
      Faults u (respond env held' (Http.openRequestedFile env (accepted env header c)))) :
    Faults s (handleRequest env held c) := by
  obtain ⟨hstays, hzero⟩ := accepted_stays hparse
  have hready := openRequestedFile_ready hfiles himage hrec.clear
  have hpos : ¬ (Http.openRequestedFile env (accepted env header c)).td.staticFileSize < 0 := by
    rw [hready.size]
    exact (Int.natCast_nonneg _).not_gt
  apply (parseRequest_triple hrec h hstays).bind_faults
  rintro ⟨_, held', _⟩ _ ⟨rfl, rfl, kept, own, rfl, hkept, hcells⟩
  rw [hzero, Multiset.card_eq_zero] at hkept
  subst hkept
  rw [zero_add]
  simp only [hparse] at hcells ⊢
  rw [if_neg (lt_irrefl 0)]
  apply (openAccepted_accepted_triple hparse hdocument hcells).bind_faults
  rintro ⟨held'', _⟩ u ⟨rfl, hcells'⟩
  dsimp only
  rw [if_neg hpos]
  exact hrespond held'' u hcells'

/-- A single word for which a file is found has no body to search. -/
theorem handleRequest_accepted_faults (hfiles : WholeFiles env) (h : DataCells held c.td s)
    {image : FileImage} (himage : foundImage env (accepted env header c) = some image)
    (hlone : LoneGet (received c)) : Faults s (handleRequest env held c) := by
  have hbody := fillHttpRequestHeader_body_iff (congrArg Prod.fst hparse)
  rw [hparse] at hbody
  have hnone : header.body = none :=
    Option.not_isSome_iff_eq_none.mp fun hsome => hbody.mp hsome hlone
  apply handleRequest_found_faults hrec hparse hdocument hfiles h himage
  intro held' u hcells
  exact respond_faults env ((openRequestedFile_body env header c).trans hnone) hcells u

/-- A file that fills a slice of the loop has a store behind the response buffer. -/
theorem handleRequest_overflows (hfiles : WholeFiles env) (h : DataCells held c.td s)
    {image : FileImage} (himage : foundImage env (accepted env header c) = some image) {body : Bytes}
    (hbody : header.body = some body)
    (houtside : ¬ StaysInside
      (answering body (Http.openRequestedFile env (accepted env header c)).td)) :
    Faults s (handleRequest env held c) := by
  have hready := openRequestedFile_ready hfiles himage hrec.clear
  apply handleRequest_found_faults hrec hparse hdocument hfiles h himage
  intro held' u hcells
  exact respond_overflows env hready ((openRequestedFile_body env header c).trans hbody) houtside
    hcells

end Accepted

/-- A pass from the parse on that frees no moved pointer, has what it sends and room for it. -/
theorem handleRequest_triple (hrec : Received c)
    (hdocument : c.td.defaultDocument.length < maxUrlSize) (hfiles : WholeFiles env)
    (h : DataCells held c.td s) (hstays : ¬ FreesMoved (received c))
    (hanswers : ∀ header image,
      HttpParser.fillHttpRequestHeader {} (received c) = (0, header) →
        foundImage env (accepted env header c) = some image → ¬ LoneGet (received c))
    (hinside : RespondsInside env c (received c)) :
    Triple s (handleRequest env held c) fun r u =>
      r.value = Http.handleRequest env c ∧ Leaves (keptCopies (received c)) r u := by
  rcases fillHttpRequestHeader_code {} (received c) with hzero | ⟨e, he⟩
  · have hparse : HttpParser.fillHttpRequestHeader {} (received c) =
        (0, (HttpParser.fillHttpRequestHeader {} (received c)).2) := Prod.ext hzero rfl
    exact handleRequest_accepted_triple hrec hparse hdocument hfiles h
      (fun image himage => hanswers _ image hparse himage) hinside
  · exact handleRequest_refused_triple hrec h hstays (he ▸ e.code_neg)

end Request

/-- A read whose request the connection gets through: it copes with the file, it frees no
moved pointer, and it stores nothing behind the response buffer. -/
structure GetsThrough (env : Env) (c : Conn) (r : ReadResult) : Prop where
  copes : Copes env c r
  stays : ∀ piece, r = .data piece → ¬ FreesMoved piece.data
  inside : ∀ piece, r = .data piece → RespondsInside env (sslRead r c) piece.data

/-- The working copies that a read leaves behind. -/
def keptBy : ReadResult → Nat
  | .data piece => keptCopies piece.data
  | .code _ _ => 0

section Read

variable {env : Env} {c : Conn} {held : HeldData} {s : Multiset (Nat × Block)}
  {defaultDocument rootFolder : Bytes}

/-- The parser sees the buffer as a C string. -/
theorem freesMoved_congr {buffer buffer' : Bytes} (h : cstr buffer = cstr buffer') :
    (FreesMoved buffer ↔ FreesMoved buffer') ∧ keptCopies buffer = keptCopies buffer' := by
  simp only [FreesMoved, keptCopies, headText, fillHttpRequestHeader_congr h, h, and_self]

theorem AtHead.received (h : AtHead defaultDocument rootFolder c) (r : ReadResult) :
    Received (sslRead r c) := by
  obtain ⟨isKeepAlive, htd⟩ := h.idle
  refine ⟨h.tracked.snoc (e := .read (some r.value)) rfl rfl rfl, ?_, ?_, ?_⟩
  all_goals
    simp only [sslRead, Conn.emit, htd]
    rfl

/-- What is parsed after a read into an idle connection. -/
theorem received_data (h : AtHead defaultDocument rootFolder c) (piece : Piece) :
    cstr (received (sslRead (.data piece) c)) = cstr piece.data := by
  obtain ⟨isKeepAlive, htd⟩ := h.idle
  simp only [received, sslRead, Conn.emit, htd]
  exact cstr_received piece

/-- Behind a code the empty buffer is parsed. -/
theorem received_code (h : AtHead defaultDocument rootFolder c) (value : Int)
    (nonpos : value ≤ 0) :
    ¬ FreesMoved (received (sslRead (.code value nonpos) c)) ∧
      keptCopies (received (sslRead (.code value nonpos) c)) = 0 ∧
      (HttpParser.fillHttpRequestHeader {} (received (sslRead (.code value nonpos) c))).1 ≠ 0 := by
  obtain ⟨isKeepAlive, htd⟩ := h.idle
  have hbuffer : received (sslRead (.code value nonpos) c) =
      Buffer.zero.cells ++ Buffer.zero.cells := by
    simp only [received, sslRead, Conn.emit, htd]
    rfl
  have hempty : cstr (Buffer.zero.cells ++ Buffer.zero.cells) = [] := rfl
  have hhead : headText (Buffer.zero.cells ++ Buffer.zero.cells) = none := by
    rw [headText, hempty]
    decide
  rw [hbuffer, FreesMoved, keptCopies, hhead, fillHttpRequestHeader_zero]
  exact ⟨fun hmoved => hmoved.1 rfl, by decide, by decide⟩

/-- With a file's whole size the connection copes with a request unless it is one word. -/
theorem canAnswer_iff (hfiles : WholeFiles env) {log : List Event} {name : Bytes}
    {image : FileImage} (himage : env.fopen log name = some image) (request : Bytes) :
    CanAnswer request image ↔ ¬ LoneGet request := by
  have hpos : ¬ image.size < 0 := by
    rw [(hfiles log name image himage).1]
    exact (Int.natCast_nonneg _).not_gt
  rw [CanAnswer, if_neg hpos]

theorem foundImage_opened {image : FileImage} (h : foundImage env c = some image) :
    ∃ log name, env.fopen log name = some image := by
  obtain ⟨name, -, hopen⟩ := Option.bind_eq_some_iff.mp h
  exact ⟨c.log, name, hopen⟩

theorem closeConnection_td (env : Env) (c : Conn) : (closeConnection env c).td = c.td := by
  rw [closeConnection]
  rcases sendHttpHeader_log env .close
    (HttpParser.setResponseProperty (HttpParser.setResponseProperty
      (HttpParser.setResponseStatusLine {} httpVersion (bytes "200") (bytes "OK"))
      (bytes "Connection: close\r\n")) (bytes "Content-Length: 0\r\n"))
    (some c.td.responseBuffer.cells) (toInt32 c.td.staticFileSize) c with hsame | ⟨_, _, hwrite⟩
  · rw [hsame]
  · rw [hwrite]
    rfl

theorem piece_value (piece : Piece) :
    (ReadResult.data piece).value ≠ otherError ∧ (ReadResult.data piece).value ≠ 0 := by
  have hpos : 0 < piece.data.length := List.length_pos_iff.mpr piece.nonempty
  simp only [ReadResult.value, otherError, networkError]
  omega

theorem read_document (h : AtHead defaultDocument rootFolder c)
    (hdocument : defaultDocument.length < maxUrlSize) (r : ReadResult) :
    (sslRead r c).td.defaultDocument.length < maxUrlSize := by
  obtain ⟨isKeepAlive, htd⟩ := h.idle
  simp only [sslRead, Conn.emit, htd]
  exact hdocument

/-- One pass through the loop. -/
theorem serveRead_triple (r : ReadResult) (h : AtHead defaultDocument rootFolder c)
    (hdocument : defaultDocument.length < maxUrlSize) (hfiles : WholeFiles env)
    (hcells : DataCells held c.td s) (hthrough : GetsThrough env c r) :
    Triple s (serveRead env r held c) fun o u =>
      o.value = Http.serveRead env r c ∧ Leaves (keptBy r) o u := by
  have hread : DataCells held (sslRead r c).td s := hcells.congr rfl rfl rfl
  have hreceived := AtHead.received h r
  have hdoc := read_document h hdocument r
  cases r with
  | data piece =>
      have hcstr := received_data h piece
      obtain ⟨hmoved, hkept⟩ := freesMoved_congr hcstr
      rw [serveRead, if_neg (piece_value piece).1, if_neg (piece_value piece).2, serveRead_data,
        keptBy, ← hkept]
      refine handleRequest_triple hreceived hdoc hfiles hread
        (fun hfrees => hthrough.stays piece rfl (hmoved.mp hfrees)) ?_
        ((respondsInside_congr hcstr).mpr (hthrough.inside piece rfl))
      intro header image hparse himage
      rw [loneGet_congr hcstr]
      obtain ⟨log, name, hopen⟩ := foundImage_opened himage
      rw [← canAnswer_iff hfiles hopen]
      exact hthrough.copes header image
        ((fillHttpRequestHeader_congr hcstr {}).symm.trans hparse) himage
  | code value nonpos =>
      obtain ⟨hstays, hzero, hrefused⟩ := received_code h value nonpos
      have hfree : ∀ c', DataCells held c'.td s → Triple s (freeThreadData held c') fun o u =>
          o.value = .returned (Http.freeThreadData c') ∧ Leaves 0 o u := by
        intro c' hcells'
        apply (freeThreadData_triple hcells' (zero_add s).symm).mono
        rintro _ _ ⟨rfl, rfl⟩
        exact ⟨rfl, rfl⟩
      rw [serveRead, Http.serveRead]
      by_cases herror : (ReadResult.code value nonpos).value = otherError
      · rw [if_pos herror, if_pos herror]
        exact hfree ((sslRead _ c).emit _) hread
      · rw [if_neg herror, if_neg herror]
        by_cases hclosed : (ReadResult.code value nonpos).value = 0
        · rw [if_pos hclosed, if_pos hclosed]
          split
          · have hsize : (sslRead (.code value nonpos) c).td.staticFileSize = 0 := by
              obtain ⟨isKeepAlive, htd⟩ := h.idle
              simp only [sslRead, Conn.emit, htd]
              rfl
            have hclose := (closeConnection_triple env hsize).frame s
            rw [zero_add] at hclose
            apply hclose.bind
            rintro _ _ ⟨u, rfl, rfl, rfl⟩
            rw [zero_add]
            apply hfree
            rwa [closeConnection_td]
          · exact hfree _ hread
        · rw [if_neg hclosed, if_neg hclosed, keptBy, ← hzero]
          apply handleRequest_triple hreceived hdoc hfiles hread hstays
          · intro header image hparse
            exact absurd (congrArg Prod.fst hparse) hrefused
          · intro header image body hparse
            exact absurd (congrArg Prod.fst hparse) hrefused

/-- A read that the connection does not get through ends in something undefined. -/
theorem serveRead_faults (r : ReadResult) (h : AtHead defaultDocument rootFolder c)
    (hdocument : defaultDocument.length < maxUrlSize) (hfiles : WholeFiles env)
    (hcells : DataCells held c.td s) (hthrough : ¬ GetsThrough env c r) :
    Faults s (serveRead env r held c) := by
  have hread : DataCells held (sslRead r c).td s := hcells.congr rfl rfl rfl
  have hreceived := AtHead.received h r
  cases r with
  | code value nonpos =>
      exact absurd ⟨trivial, (fun _ heq => by cases heq), (fun _ heq => by cases heq)⟩ hthrough
  | data piece =>
      have hcstr := received_data h piece
      have hdoc := read_document h hdocument (.data piece)
      have hparsed : ∀ header, HttpParser.fillHttpRequestHeader {} piece.data = (0, header) →
          HttpParser.fillHttpRequestHeader {} (received (sslRead (.data piece) c)) = (0, header) :=
        fun header hparse => (fillHttpRequestHeader_congr hcstr {}).trans hparse
      rw [serveRead, if_neg (piece_value piece).1, if_neg (piece_value piece).2]
      by_cases hmoved : FreesMoved piece.data
      · exact (parseRequest_faults hreceived hread ((freesMoved_congr hcstr).1.mpr hmoved)).bind
      · by_cases hcopes : Copes env c (.data piece)
        · -- only the room for the response is left
          have houtside : ¬ RespondsInside env (sslRead (.data piece) c) piece.data := by
            intro hinside
            refine hthrough ⟨hcopes, fun piece' hpiece => ?_, fun piece' hpiece => ?_⟩
            · obtain rfl := ReadResult.data.inj hpiece
              exact hmoved
            · obtain rfl := ReadResult.data.inj hpiece
              exact hinside
          simp only [RespondsInside, not_forall] at houtside
          obtain ⟨header, image, body, hparse, himage, hbody, houtside⟩ := houtside
          exact handleRequest_overflows hreceived (hparsed header hparse) hdoc hfiles hread himage
            hbody houtside
        · simp only [Copes, not_forall] at hcopes
          obtain ⟨header, image, hparse, himage, hcannot⟩ := hcopes
          obtain ⟨log, name, hopen⟩ := foundImage_opened himage
          rw [canAnswer_iff hfiles hopen, not_not, ← loneGet_congr hcstr] at hcannot
          exact handleRequest_accepted_faults hreceived (hparsed header hparse) hdoc hfiles hread
            himage hcannot

end Read

/-- The connection gets through every read that it comes to. -/
def GetsThroughAlong (env : Env) : List ReadResult → Conn → Prop
  | [], _ => True
  | r :: reads, c => GetsThrough env c r ∧
      ∀ c', Http.serveRead env r c = .loopHead c' → GetsThroughAlong env reads c'

/-- The working copies that the last read of a run leaves behind. -/
def keptAlong (env : Env) : List ReadResult → Conn → Nat
  | [], _ => 0
  | r :: reads, c =>
      match Http.serveRead env r c with
      | .loopHead c' => keptAlong env reads c'
      | _ => keptBy r

section Runs

variable {env : Env} {held : HeldData} {s : Multiset (Nat × Block)}
  {defaultDocument rootFolder : Bytes}

theorem serveReads_triple (reads : List ReadResult) {c : Conn}
    (h : AtHead defaultDocument rootFolder c) (hdocument : defaultDocument.length < maxUrlSize)
    (hfiles : WholeFiles env) (hcells : DataCells held c.td s)
    (hthrough : GetsThroughAlong env reads c) :
    Triple s (serveReads env reads held c) fun o u =>
      o.value = Http.serveReads env reads c ∧ Leaves (keptAlong env reads c) o u := by
  induction reads generalizing held c s with
  | nil => exact Triple.pure ⟨rfl, hcells, rfl⟩
  | cons r reads ih =>
      obtain ⟨hfirst, hmore⟩ := hthrough
      have hpass := serveRead_accounted env r h
      apply (serveRead_triple r h hdocument hfiles hcells hfirst).bind
      rintro o u ⟨hvalue, hleaves⟩
      rw [Http.serveReads, keptAlong, ← hvalue]
      rw [← hvalue] at hpass hmore
      cases o with
      | loopHead held' c' => exact ih hpass hleaves.1 (hmore c' rfl)
      | handshake held' c' => exact Triple.pure ⟨rfl, hleaves⟩
      | returned c' => exact Triple.pure ⟨rfl, hleaves⟩

theorem serveReads_faults (reads : List ReadResult) {c : Conn}
    (h : AtHead defaultDocument rootFolder c) (hdocument : defaultDocument.length < maxUrlSize)
    (hfiles : WholeFiles env) (hcells : DataCells held c.td s)
    (hthrough : ¬ GetsThroughAlong env reads c) : Faults s (serveReads env reads held c) := by
  induction reads generalizing held c s with
  | nil => exact absurd trivial hthrough
  | cons r reads ih =>
      by_cases hfirst : GetsThrough env c r
      · have hpass := serveRead_accounted env r h
        apply (serveRead_triple r h hdocument hfiles hcells hfirst).bind_faults
        rintro o u ⟨hvalue, hleaves⟩
        rw [GetsThroughAlong, not_and, not_forall] at hthrough
        obtain ⟨c', hmore⟩ := hthrough hfirst
        rw [Classical.not_imp] at hmore
        obtain ⟨hhead, hmore⟩ := hmore
        rw [hhead] at hvalue hpass
        cases o with
        | loopHead held' c'' =>
            obtain rfl := Outcome.loopHead.inj hvalue
            exact ih hpass hleaves.1 hmore
        | handshake held' c'' => cases hvalue
        | returned c'' => cases hvalue
      · exact (serveRead_faults r h hdocument hfiles hcells hfirst).bind

end Runs

/-- The connection gets through its reads, when the session comes to them. -/
def GetsThroughout (env : Env) (reads : List ReadResult) (defaultDocument rootFolder : Bytes) :
    Prop :=
  ∀ ret, serverTlsSessionInit env.sslSetup env.sslHandshake = some ret → ret ≠ networkError →
    GetsThroughAlong env reads { td := ThreadData.fresh defaultDocument rootFolder, log := [] }

/-- The working copies that a connection leaves behind. -/
def keptThroughout (env : Env) (reads : List ReadResult) (defaultDocument rootFolder : Bytes) :
    Nat :=
  match serverTlsSessionInit env.sslSetup env.sslHandshake with
  | none => 0
  | some ret =>
      if ret = networkError then 0
      else keptAlong env reads { td := ThreadData.fresh defaultDocument rootFolder, log := [] }

/-- The blocks that are left: three while the connection runs, and then the working
copies that were kept. -/
def blocksLeft (kept : Nat) : HeldOutcome → Nat
  | .returned _ => kept
  | _ => 3

section Accepted

variable (env : Env) (reads : List ReadResult) (defaultDocument rootFolder : Bytes)

theorem newThreadData_triple :
    Triple 0 (newThreadData defaultDocument rootFolder) fun held u =>
      DataCells held (ThreadData.fresh defaultDocument rootFolder) u := by
  apply (malloc_triple 0 _).bind
  rintro threadData _ rfl
  apply (malloc_triple _ _).bind
  rintro document _ rfl
  apply (strcpy_triple rfl (Nat.lt_succ_self _)).step
  intro _
  apply (malloc_triple _ _).bind
  rintro root _ rfl
  apply (strcpy_triple rfl (Nat.lt_succ_self _)).step
  intro _
  apply Triple.pure
  have hcells : DataCells ⟨threadData, some root, some document, {}⟩
      (ThreadData.fresh defaultDocument rootFolder) _ := .intro headerCells_zeroed
  have hblocks : cell threadData .object + stringCell root rootFolder +
      stringCell document defaultDocument + 0 =
      0 + cell threadData .object + stringCell document defaultDocument +
        stringCell root rootFolder := by abel
  exact hblocks ▸ hcells

theorem sessionInit_triple (s : Multiset (Nat × Block)) :
    Triple s (sessionInit env) fun r u =>
      r = serverTlsSessionInit env.sslSetup env.sslHandshake ∧ u = s := by
  rw [sessionInit]
  cases serverTlsSessionInit env.sslSetup env.sslHandshake with
  | none => exact Triple.pure ⟨rfl, rfl⟩
  | some ret =>
      by_cases hret : ret = networkError
      · simp only [if_pos hret]
        apply (malloc_triple s _).bind
        rintro errorString _ rfl
        apply (free_triple rfl).step
        exact fun _ => Triple.pure ⟨rfl, rfl⟩
      · simp only [if_neg hret]
        exact Triple.pure ⟨rfl, rfl⟩

theorem keptAlong_le (reads : List ReadResult) (c : Conn) : keptAlong env reads c ≤ 1 := by
  have hone : ∀ r, keptBy r ≤ 1 := by
    intro r
    cases r with
    | data piece =>
        rw [keptBy, keptCopies]
        split
        · exact le_rfl
        · exact Nat.zero_le 1
    | code value nonpos => exact Nat.zero_le 1
  induction reads generalizing c with
  | nil => exact Nat.zero_le 1
  | cons r reads ih =>
      rw [keptAlong]
      split
      · exact ih _
      · exact hone r

/-- Between two requests a connection holds its own block and those of two strings. -/
theorem DataCells.card {held : HeldData} {c : Conn} {s : Multiset (Nat × Block)}
    {defaultDocument rootFolder : Bytes} (h : DataCells held c.td s)
    (hhead : AtHead defaultDocument rootFolder c) : s.card = 3 := by
  obtain ⟨isKeepAlive, htd⟩ := hhead.idle
  cases h with
  | intro hcells =>
      rw [htd] at hcells
      obtain ⟨-, rfl⟩ := hcells.unfilled
      simp [cell, stringCell]

theorem Leaves.card {o : HeldOutcome} {kept : Nat} {s : Multiset (Nat × Block)}
    (h : Leaves kept o s) (haccounted : Accounted defaultDocument rootFolder o.value) :
    s.card = blocksLeft kept o := by
  cases o with
  | handshake held c => exact DataCells.card h.1 haccounted
  | loopHead held c => exact DataCells.card h.1 haccounted
  | returned c => exact h

theorem handleConnection_triple {held : HeldData} {s : Multiset (Nat × Block)}
    (hdocument : defaultDocument.length < maxUrlSize) (hfiles : WholeFiles env)
    (hcells : DataCells held (ThreadData.fresh defaultDocument rootFolder) s)
    (hthrough : GetsThroughout env reads defaultDocument rootFolder) :
    Triple s (handleConnection env reads held (ThreadData.fresh defaultDocument rootFolder))
      fun o u =>
        o.value = Http.handleConnection env reads (ThreadData.fresh defaultDocument rootFolder) ∧
          Leaves (keptThroughout env reads defaultDocument rootFolder) o u := by
  apply (sessionInit_triple env s).value
  rw [Http.handleConnection, keptThroughout]
  cases hinit : serverTlsSessionInit env.sslSetup env.sslHandshake with
  | none => exact Triple.pure ⟨rfl, hcells, rfl⟩
  | some ret =>
      by_cases hret : ret = networkError
      · simp only [if_pos hret]
        apply (freeThreadData_triple (c := Conn.emit _ _) hcells (zero_add s).symm).mono
        rintro _ _ ⟨rfl, rfl⟩
        exact ⟨rfl, rfl⟩
      · simp only [if_neg hret]
        apply (serveReads_triple reads (fresh_atHead defaultDocument rootFolder) hdocument hfiles
          hcells (hthrough ret hinit hret)).bind
        rintro o u ⟨hvalue, hleaves⟩
        rw [← hvalue]
        cases o with
        | loopHead held' c' => exact Triple.pure ⟨rfl, hleaves⟩
        | handshake held' c' => exact Triple.pure ⟨rfl, hleaves⟩
        | returned c' => exact Triple.pure ⟨rfl, hleaves⟩

theorem handleConnection_faults {held : HeldData} {s : Multiset (Nat × Block)}
    (hdocument : defaultDocument.length < maxUrlSize) (hfiles : WholeFiles env)
    (hcells : DataCells held (ThreadData.fresh defaultDocument rootFolder) s)
    (hthrough : ¬ GetsThroughout env reads defaultDocument rootFolder) :
    Faults s (handleConnection env reads held (ThreadData.fresh defaultDocument rootFolder)) := by
  simp only [GetsThroughout, not_forall] at hthrough
  obtain ⟨ret, hinit, hret, hfails⟩ := hthrough
  apply (sessionInit_triple env s).bind_faults
  rintro _ _ ⟨rfl, rfl⟩
  simp only [hinit, if_neg hret]
  exact (serveReads_faults reads (fresh_atHead defaultDocument rootFolder) hdocument hfiles hcells
    hfails).bind

/-- An accepted connection uses its heap as it should exactly when it gets through every
read that it comes to. It then does what it does on values, and gives back every block
but the working copy of a last request with another method. -/
theorem acceptedConnection_memory (hdocument : defaultDocument.length < maxUrlSize)
    (hfiles : WholeFiles env) :
    (GetsThroughout env reads defaultDocument rootFolder →
      Triple 0 (acceptedConnection env reads defaultDocument rootFolder) fun o u =>
        o.value = Http.handleConnection env reads (ThreadData.fresh defaultDocument rootFolder) ∧
          u.card = blocksLeft (keptThroughout env reads defaultDocument rootFolder) o) ∧
      (¬ GetsThroughout env reads defaultDocument rootFolder →
        Faults 0 (acceptedConnection env reads defaultDocument rootFolder)) ∧
      keptThroughout env reads defaultDocument rootFolder ≤ 1 := by
  refine ⟨fun hthrough => ?_, fun hthrough => ?_, ?_⟩
  · apply (newThreadData_triple defaultDocument rootFolder).bind
    intro held s hcells
    apply (handleConnection_triple env reads defaultDocument rootFolder hdocument hfiles hcells
      hthrough).mono
    rintro o u ⟨hvalue, hleaves⟩
    refine ⟨hvalue, Leaves.card defaultDocument rootFolder hleaves ?_⟩
    rw [hvalue]
    exact handleConnection_accounted env reads defaultDocument rootFolder
  · apply (newThreadData_triple defaultDocument rootFolder).bind_faults
    intro held s hcells
    exact handleConnection_faults env reads defaultDocument rootFolder hdocument hfiles hcells
      hthrough
  · rw [keptThroughout]
    split
    · exact Nat.zero_le 1
    · split
      · exact Nat.zero_le 1
      · exact keptAlong_le env reads _

end Accepted

/-- Two line ends are no request, and still have a working copy. -/
def twoLineEnds : Piece where
  data := bytes "\r\n\r\n"
  nonempty := by decide
  fits := by decide

theorem acceptedConnection_memory_lineEnds :
    Faults 0 (acceptedConnection (Env.steady fun _ => none) [.data twoLineEnds]
      (bytes "index.html") (bytes "../Static")) := by
  have hmemory := acceptedConnection_memory (Env.steady fun _ => none) [.data twoLineEnds]
    (bytes "index.html") (bytes "../Static") (by decide) (fun _ _ _ h => by cases h)
  refine hmemory.2.1 fun hthrough => ?_
  have hstays := (hthrough 0 rfl (by decide)).1.stays twoLineEnds rfl
  exact hstays ⟨by decide, by decide⟩

end HttpsServ.ConnectionLife
