import HttpsServ.ConnectionEnd
import HttpsServ.PathContainment

/-!
# What a connection holds

A run gives back what it has opened unless it breaks off, and it breaks off in
two places: `HandleError` has no description for the size of a file, or there is
no body to search although the file is open. Both are questions to one pass of
the loop, about the request and about the file that is found for it.
-/

namespace HttpsServ.ResourceBalance

open ByteString Utility HttpParser TlsAdapter Http Transport KeepAlive ReadBoundaries
  ErrorResponse RequestGrammar PathContainment ConnectionEnd

/-- Every file that was opened has been closed once, nothing was done with a file
that was not open, and a connection that has returned has freed its data once, at
the very end. -/
structure Balanced (outcome : Outcome) : Prop where
  closed : handleAfter outcome.conn.log = some false
  freed : ∀ c, outcome = .returned c →
    ∃ before, c.log = before ++ [.freeThreadData] ∧ .freeThreadData ∉ before

def isCrashed : Outcome → Bool
  | .crashed _ => true
  | _ => false

/-- The calls that end a connection do not touch the file. -/
theorem Ended.closed {log : List Event} (h : Ended log) : handleAfter log = some false := by
  obtain ⟨before, rfl, -, hhandle⟩ := h
  rw [handleAfter, List.foldlM_append]
  rw [handleAfter] at hhandle
  rw [hhandle]
  rfl

/-- `FreeThreadData` comes once, as the last call. -/
theorem Ended.freed {log : List Event} (h : Ended log) :
    ∃ before, log = before ++ [.freeThreadData] ∧ .freeThreadData ∉ before := by
  obtain ⟨before, rfl, hrunning, -⟩ := h
  refine ⟨before ++ [.netFree, .closeNotify, .sslFree], ?_, ?_⟩
  · rw [List.append_assoc]
    rfl
  · intro hmem
    rcases List.mem_append.mp hmem with hmem | hmem
    · exact Bool.false_ne_true (hrunning _ hmem).symm
    · simp at hmem

theorem AtHead.closed {defaultDocument rootFolder : Bytes} {c : Conn}
    (h : AtHead defaultDocument rootFolder c) : handleAfter c.log = some false := by
  obtain ⟨isKeepAlive, htd⟩ := h.idle
  have hhandle := h.tracked.handle
  rw [htd] at hhandle
  exact hhandle

/-- A run that keeps account is balanced unless it breaks off. -/
theorem balanced_iff {defaultDocument rootFolder : Bytes} {outcome : Outcome}
    (h : Accounted defaultDocument rootFolder outcome) :
    Balanced outcome ↔ isCrashed outcome = false := by
  cases outcome with
  | handshake c =>
      refine ⟨fun _ => rfl, fun _ => ⟨AtHead.closed h, fun c' heq => ?_⟩⟩
      cases heq
  | loopHead c =>
      refine ⟨fun _ => rfl, fun _ => ⟨AtHead.closed h, fun c' heq => ?_⟩⟩
      cases heq
  | returned c =>
      refine ⟨fun _ => rfl, fun _ => ⟨Ended.closed h, fun c' heq => ?_⟩⟩
      obtain rfl := Outcome.returned.inj heq
      exact Ended.freed h
  | crashed c =>
      refine ⟨fun hbalanced => ?_, fun hcrashed => absurd hcrashed.symm Bool.false_ne_true⟩
      obtain ⟨htracked, hopen⟩ := h
      have hclosed : handleAfter c.log = some false := hbalanced.closed
      rw [htracked.handle, hopen] at hclosed
      cases hclosed

theorem failRequest_survives_iff (env : Env) (errorCode : Int) (problemName : Bytes) (c : Conn) :
    isCrashed (failRequest env errorCode problemName c) = false ↔
      errorCode.natAbs < kErrorDescriptions.length := by
  rw [← handleError_isSome_iff env errorCode problemName c, failRequest]
  cases handleError env errorCode problemName c with
  | none => simp [isCrashed]
  | some c' => simp [isCrashed]

theorem afterSend_survives (sent : Int × Conn) : isCrashed (afterSend sent) = false := by
  rw [afterSend]
  split
  · rfl
  · split <;> rfl

theorem respond_survives_iff (env : Env) (c : Conn) :
    isCrashed (respond env c) = false ↔ c.td.httpHeader.body.isSome = true := by
  cases hbody : c.td.httpHeader.body with
  | none => simp [respond, hbody, isCrashed]
  | some body =>
      obtain ⟨keep, chunked, hrespond⟩ := respond_eq env c.td hbody
      have heq := hrespond c.td.isKeepAlive c.td.requestBuffer c.log
      have hsurvives : isCrashed (respond env c) = false := by
        rw [show respond env c = _ from heq]
        exact afterSend_survives _
      exact ⟨fun _ => rfl, fun _ => hsurvives⟩

/-- A file that the connection can answer a request with: one that has a size and
a request to search for its flags, or one whose size is the code of an error. -/
def CanAnswer (request : Bytes) (image : FileImage) : Prop :=
  if image.size < 0 then (toInt32 image.size).natAbs < kErrorDescriptions.length
  else ¬ LoneGet request

/-- A read that the connection copes with: when its request is accepted and a
file is found for it, then it can be answered. -/
def Copes (env : Env) (c : Conn) : ReadResult → Prop
  | .code _ _ => True
  | .data piece => ∀ header image, fillHttpRequestHeader {} piece.data = (0, header) →
      foundImage env (accepted env header (sslRead (.data piece) c)) = some image →
        CanAnswer piece.data image

theorem openRequestedFile_body (env : Env) (header : HttpRequestHeader) (c : Conn) :
    (openRequestedFile env (accepted env header c)).td.httpHeader.body = header.body := by
  have hdefault : (setDefaultDocument header c.td.defaultDocument).body = header.body := by
    rw [setDefaultDocument]
    split <;> rfl
  rw [← hdefault]
  simp only [openRequestedFile]
  split <;> rfl

section Request

variable (env : Env) {c : Conn} (h : Tracked c) (hnone : c.td.staticFile = none)
  {header : HttpRequestHeader}
include h hnone

/-- An accepted request for which no file is found is answered with an error. -/
theorem handleRequest_missing_survives (hparse : fillHttpRequestHeader c.td.httpHeader
      (c.td.requestBuffer.cells ++ c.td.responseBuffer.cells) = (0, header))
    (himage : foundImage env (accepted env header c) = none) :
    isCrashed (handleRequest env c) = false := by
  have hopens := openRequestedFile_opens env (h.accepted env header) hnone
  obtain ⟨e, hsize⟩ := hopens.missing himage
  rw [handleRequest_opens env hparse (lt_irrefl 0), hsize, if_pos e.code_neg,
    failRequest_survives_iff]
  exact e.described.2

/-- One for which a file is found depends on the file. -/
theorem handleRequest_found_survives_iff {image : FileImage}
    (hparse : fillHttpRequestHeader c.td.httpHeader
      (c.td.requestBuffer.cells ++ c.td.responseBuffer.cells) = (0, header))
    (himage : foundImage env (accepted env header c) = some image) :
    isCrashed (handleRequest env c) = false ↔
      CanAnswer (c.td.requestBuffer.cells ++ c.td.responseBuffer.cells) image := by
  have hopens := openRequestedFile_opens env (h.accepted env header) hnone
  have hsize := (hopens.found image himage).1
  have hbody := fillHttpRequestHeader_body_iff (congrArg Prod.fst hparse)
  rw [hparse] at hbody
  rw [handleRequest_opens env hparse (lt_irrefl 0), hsize, CanAnswer]
  split
  · exact failRequest_survives_iff env _ _ _
  · rw [respond_survives_iff, openRequestedFile_body]
    exact hbody

/-- From the parse on, a pass breaks off exactly at a file that it cannot answer with. -/
theorem handleRequest_survives_iff :
    isCrashed (handleRequest env c) = false ↔
      ∀ header image, fillHttpRequestHeader c.td.httpHeader
          (c.td.requestBuffer.cells ++ c.td.responseBuffer.cells) = (0, header) →
        foundImage env (accepted env header c) = some image →
          CanAnswer (c.td.requestBuffer.cells ++ c.td.responseBuffer.cells) image := by
  constructor
  · intro hsurvives header image hparse himage
    exact (handleRequest_found_survives_iff env h hnone hparse himage).mp hsurvives
  · intro hall
    have hcode := fillHttpRequestHeader_code c.td.httpHeader
      (c.td.requestBuffer.cells ++ c.td.responseBuffer.cells)
    cases hparse : fillHttpRequestHeader c.td.httpHeader
      (c.td.requestBuffer.cells ++ c.td.responseBuffer.cells) with
    | mk code header =>
        rw [hparse] at hcode
        rcases hcode with rfl | ⟨e, rfl⟩
        · cases himage : foundImage env (accepted env header c) with
          | none => exact handleRequest_missing_survives env h hnone hparse himage
          | some image =>
              have hcan := hall header image hparse himage
              exact (handleRequest_found_survives_iff env h hnone hparse himage).mpr hcan
        · rw [handleRequest_refused env hparse e.code_neg, failRequest_survives_iff]
          exact e.described.1

end Request

theorem serveRead_survives (env : Env) {r : ReadResult}
    (hends : r.value = otherError ∨ r.value = 0) (c : Conn) :
    isCrashed (serveRead env r c) = false := by
  rw [serveRead]
  split
  · rfl
  · rename_i herror
    rw [if_pos (hends.resolve_left herror)]
    rfl

/-- One read on an idle connection. -/
theorem serveRead_survives_iff (env : Env) (r : ReadResult) {defaultDocument rootFolder : Bytes}
    {c : Conn} (h : AtHead defaultDocument rootFolder c) :
    isCrashed (serveRead env r c) = false ↔ Copes env c r := by
  obtain ⟨isKeepAlive, htd⟩ := h.idle
  have hread : Tracked (sslRead r c) := h.tracked.snoc (e := .read (some r.value)) rfl rfl rfl
  have hnone : (sslRead r c).td.staticFile = none := by
    simp only [sslRead, Conn.emit, htd]
    rfl
  have hheader : (sslRead r c).td.httpHeader = {} := by
    simp only [sslRead, Conn.emit, htd]
    rfl
  cases r with
  | code value nonpos =>
      refine ⟨fun _ => trivial, fun _ => ?_⟩
      by_cases hends : (ReadResult.code value nonpos).value = otherError ∨
          (ReadResult.code value nonpos).value = 0
      · exact serveRead_survives env hends c
      · rw [not_or] at hends
        rw [serveRead_of_ne env hends.1 hends.2, handleRequest_survives_iff env hread hnone]
        intro header image hparse
        -- nothing was received: the buffer that is parsed is empty
        simp only [sslRead, Conn.emit, htd] at hparse
        have hbad := fillHttpRequestHeader_zero {} Buffer.zero.cells
        cases hbad.symm.trans hparse
  | data piece =>
      have hcstr : cstr ((sslRead (.data piece) c).td.requestBuffer.cells ++
          (sslRead (.data piece) c).td.responseBuffer.cells) = cstr piece.data := by
        simp only [sslRead, Conn.emit, htd]
        exact cstr_received piece
      rw [serveRead_data, handleRequest_survives_iff env hread hnone, Copes]
      simp only [hheader, fillHttpRequestHeader_congr hcstr, CanAnswer, loneGet_congr hcstr]

/-- Every read that the connection comes to is one that it copes with. -/
def CopesAlong (env : Env) : List ReadResult → Conn → Prop
  | [], _ => True
  | r :: reads, c =>
      Copes env c r ∧ ∀ c', serveRead env r c = .loopHead c' → CopesAlong env reads c'

theorem serveReads_survives_iff (env : Env) (reads : List ReadResult)
    {defaultDocument rootFolder : Bytes} {c : Conn} (h : AtHead defaultDocument rootFolder c) :
    isCrashed (serveReads env reads c) = false ↔ CopesAlong env reads c := by
  induction reads generalizing c with
  | nil => exact ⟨fun _ => trivial, fun _ => rfl⟩
  | cons r reads ih =>
      have hpass := serveRead_accounted env r h
      rw [serveReads, CopesAlong, ← serveRead_survives_iff env r h]
      cases houtcome : serveRead env r c with
      | loopHead c' =>
          rw [houtcome] at hpass
          constructor
          · intro hrun
            refine ⟨rfl, fun c'' heq => ?_⟩
            obtain rfl := Outcome.loopHead.inj heq
            exact (ih hpass).mp hrun
          · rintro ⟨-, hmore⟩
            exact (ih hpass).mpr (hmore c' rfl)
      | _ =>
          refine ⟨fun hends => ⟨hends, fun c'' heq => ?_⟩, fun hends => hends.1⟩
          cases heq

/-- The connection copes with its reads, when the session comes to them. -/
def CopesThroughout (env : Env) (reads : List ReadResult) (defaultDocument rootFolder : Bytes) :
    Prop :=
  ∀ ret, serverTlsSessionInit env.sslSetup env.sslHandshake = some ret → ret ≠ networkError →
    CopesAlong env reads { td := ThreadData.fresh defaultDocument rootFolder, log := [] }

theorem handleConnection_survives_iff (env : Env) (reads : List ReadResult)
    (defaultDocument rootFolder : Bytes) :
    isCrashed (handleConnection env reads (ThreadData.fresh defaultDocument rootFolder)) = false ↔
      CopesThroughout env reads defaultDocument rootFolder := by
  have hserved := serveReads_survives_iff env reads (fresh_atHead defaultDocument rootFolder)
  rw [handleConnection, CopesThroughout]
  cases hinit : serverTlsSessionInit env.sslSetup env.sslHandshake with
  | none =>
      refine ⟨fun _ ret hret => ?_, fun _ => rfl⟩
      cases hret
  | some ret =>
      by_cases hret : ret = networkError
      · simp only [if_pos hret]
        refine ⟨fun _ ret' hret' hne => ?_, fun _ => rfl⟩
        exact absurd ((Option.some.inj hret').symm.trans hret) hne
      · simp only [if_neg hret]
        have hall : (∀ ret', some ret = some ret' → ret' ≠ networkError → CopesAlong env reads
              { td := ThreadData.fresh defaultDocument rootFolder, log := [] }) ↔
            CopesAlong env reads
              { td := ThreadData.fresh defaultDocument rootFolder, log := [] } :=
          ⟨fun h => h ret rfl hret, fun h _ _ _ => h⟩
        rw [hall, ← hserved]
        -- the read that has not returned is no end
        cases serveReads env reads
            { td := ThreadData.fresh defaultDocument rootFolder, log := [] } with
        | loopHead c => exact Iff.rfl
        | _ => exact Iff.rfl

/-- A run gives back all that it holds exactly when it copes with every read that
it comes to. -/
theorem handleConnection_balanced_iff (env : Env) (reads : List ReadResult)
    (defaultDocument rootFolder : Bytes) :
    Balanced (handleConnection env reads (ThreadData.fresh defaultDocument rootFolder)) ↔
      CopesThroughout env reads defaultDocument rootFolder := by
  rw [balanced_iff (handleConnection_accounted env reads defaultDocument rootFolder)]
  exact handleConnection_survives_iff env reads defaultDocument rootFolder

def loneGet : Piece where
  data := bytes "GET\r\n\r\n"
  nonempty := by decide
  fits := by decide

/-- A lone `GET` asks for the file with a line feed behind the name of the root
folder. When there is one, it is opened, and never closed. -/
theorem handleConnection_lone_get :
    ¬ Balanced (handleConnection
      (Env.steady fun name =>
        if name = bytes "../Static\n" then some ⟨bytes "hello", 5⟩ else none)
      [.data loneGet] (ThreadData.fresh (bytes "index.html") (bytes "../Static"))) := by
  rw [balanced_iff (handleConnection_accounted _ _ _ _), handleConnection_survives_iff]
  intro hcopes
  have hparse : fillHttpRequestHeader {} loneGet.data =
      (0, { method := some (bytes "GET"), path := some [10], version := some [10] }) := by decide
  have hname : staticFileName [10] (bytes "../Static") = some (bytes "../Static\n") := by
    rw [staticFileName_eq]
    decide
  have hlone : LoneGet loneGet.data :=
    ⟨bytes "GET", bytes "GET", by decide, by decide, by decide, by decide⟩
  obtain ⟨hfirst, -⟩ := hcopes 0 rfl (by decide)
  refine hfirst _ ⟨bytes "hello", 5⟩ hparse ?_ hlone
  exact (congrArg (Option.bind · _) hname).trans rfl

end HttpsServ.ResourceBalance
