import HttpsServ.ResponseHeader

/-!
# What an error response carries

`HandleError` assembles the response in the response buffer, measures it there,
and writes that many bytes from the request buffer.
-/

namespace HttpsServ.ErrorResponse

open ByteString Utility HttpParser Http ResponseHeader

/-- The errors that a connection reports. -/
inductive HttpError
  | notFound
  | badRequest
  | notImplemented
  deriving DecidableEq

def HttpError.code : HttpError → Int
  | .notFound => kNotFound
  | .badRequest => kBadRequest
  | .notImplemented => kNotImplemented

/-- The code and the text of an error's status line. -/
def HttpError.description : HttpError → ErrorDescription
  | .notFound => ⟨bytes "404", bytes "NOT FOUND"⟩
  | .badRequest => ⟨bytes "400", bytes "BAD REQUEST"⟩
  | .notImplemented => ⟨bytes "501", bytes "NOT IMPLEMENTED"⟩

theorem findErrorDescription_code (e : HttpError) :
    findErrorDescription e.code = some e.description := by
  cases e <;> rfl

theorem HttpError.code_neg (e : HttpError) : e.code < 0 := by
  cases e <;> decide

/-- The codes of the connection itself have descriptions, also as an `int`. -/
theorem HttpError.described (e : HttpError) :
    e.code.natAbs < kErrorDescriptions.length ∧
      (toInt32 e.code).natAbs < kErrorDescriptions.length := by
  cases e <;> decide

def errorFields : List Field :=
  [typeField (bytes "text/plain") (by decide), connectionField false]

/-- The response to an error: its header, the problem name, and the status. -/
def errorText (e : HttpError) (problemName : Bytes) : Bytes :=
  headerText e.description errorFields ++
    (problemName ++ bytes " " ++ e.description.errorStatus)

theorem errorHeader_built (d : ErrorDescription) : Built (errorHeader d) d errorFields := by
  have htype := (built_statusLine d).append
    (f := typeField (bytes "text/plain") (by decide)) (by decide) (by simp)
  exact htype.append (f := connectionField false) (by decide)
    (show ∀ name ∈ [bytes "Content-Type"], ¬ bytes "Connection" <:+ name by decide)

/-- The string in a block that a string without zeros was copied to the start of. -/
theorem cstr_overwrite {cells text : Bytes} (hzero : 0 ∉ text)
    (hfits : text.length ≤ cells.length) :
    cstr (overwrite cells 0 (text ++ [0])) = text := by
  rcases Nat.lt_or_ge text.length cells.length with hlt | hge
  · have hshape : overwrite cells 0 (text ++ [0]) =
        text ++ 0 :: cells.drop (text.length + 1) := by
      rw [overwrite_of_le (by simp; omega)]
      simp
    rw [hshape, cstr_append_zero hzero]
  · -- the zero falls behind the end of the block
    have hlen : text.length = cells.length := by omega
    have hshape : overwrite cells 0 (text ++ [0]) = text := by
      rw [overwrite, List.take_zero, List.nil_append, List.append_assoc, ← hlen, List.take_left]
    rw [hshape, cstr, List.takeWhile_eq_self_iff]
    intro b hb
    simpa using fun h : b = 0 => hzero (h ▸ hb)

/-- Apart from the problem name, a response is a C string. -/
theorem zero_notMem_errorText (e : HttpError) {problemName : Bytes} (hname : 0 ∉ problemName) :
    0 ∉ errorText e problemName := by
  have hheader : 0 ∉ headerText e.description errorFields := by
    cases e <;> decide
  have hstatus : 0 ∉ e.description.errorStatus := by
    cases e <;> decide
  have hblank : (0 : UInt8) ∉ bytes " " := by decide
  simp [errorText, hheader, hblank, hstatus, hname]

/-- The string that `HandleError` has assembled in the response buffer. -/
theorem cstr_assembled (e : HttpError) {problemName : Bytes} (hname : 0 ∉ problemName)
    (b : Buffer) (hfits : (errorText e problemName).length ≤ maxChunkSize) :
    cstr (b.store 0 (headerText e.description errorFields ++
      (problemName ++ bytes " " ++ e.description.errorStatus) ++ [0])).cells =
        errorText e problemName :=
  cstr_overwrite (zero_notMem_errorText e hname) (hfits.trans_eq b.size.symm)

/-- The one write of `HandleError`: as many bytes of the request buffer as the
response is long. -/
theorem handleError_eq (env : Env) (e : HttpError) {problemName : Bytes}
    (hname : 0 ∉ problemName) (c : Conn)
    (hfits : (errorText e problemName).length ≤ maxChunkSize) :
    ∃ c' result, handleError env e.code problemName c = some c' ∧
      c'.log = c.log ++ [.write .error
        (c.td.requestBuffer.cells.take (errorText e problemName).length) result] := by
  have hcopied := cstr_assembled e hname c.td.responseBuffer hfits
  simp only [handleError, findErrorDescription_code, (errorHeader_built _).responseToBuff,
    hcopied, sslWrite, Conn.emit]
  exact ⟨_, _, rfl, rfl⟩

/-- `HandleError` copes with the codes that have a description. -/
theorem handleError_isSome_iff (env : Env) (errorCode : Int) (problemName : Bytes) (c : Conn) :
    (handleError env errorCode problemName c).isSome = true ↔
      errorCode.natAbs < kErrorDescriptions.length := by
  cases hdescription : findErrorDescription errorCode with
  | none =>
      have hbeyond := List.getElem?_eq_none_iff.mp hdescription
      simp only [handleError, hdescription]
      exact ⟨fun hsome => absurd hsome Bool.false_ne_true,
        fun hlt => absurd hlt (Nat.not_lt.mpr hbeyond)⟩
  | some description =>
      have hbelow := (List.getElem?_eq_some_iff.mp hdescription).1
      simp only [handleError, hdescription, (errorHeader_built description).responseToBuff]
      exact ⟨fun _ => hbelow, fun _ => rfl⟩

/-- What an error writes is its response exactly when the request buffer begins
with that very text. -/
theorem handleError_writes_iff (env : Env) (e : HttpError) {problemName : Bytes}
    (hname : 0 ∉ problemName) (c : Conn)
    (hfits : (errorText e problemName).length ≤ maxChunkSize) :
    ∃ c' buffer result, handleError env e.code problemName c = some c' ∧
      c'.log = c.log ++ [.write .error buffer result] ∧
      (buffer = errorText e problemName ↔
        errorText e problemName <+: c.td.requestBuffer.cells) := by
  obtain ⟨c', result, hsome, hlog⟩ := handleError_eq env e hname c hfits
  refine ⟨c', _, result, hsome, hlog, ?_⟩
  rw [List.prefix_iff_eq_take]
  exact eq_comm

theorem handleError_writes_iff_fresh :
    ∃ c' buffer result,
      handleError (Env.steady fun _ => none) HttpError.badRequest.code (bytes "Your request")
        { td := ThreadData.fresh [] [], log := [] } = some c' ∧
      c'.log = [] ++ [.write .error buffer result] ∧
      (buffer = errorText .badRequest (bytes "Your request") ↔
        errorText .badRequest (bytes "Your request") <+:
          (ThreadData.fresh [] []).requestBuffer.cells) :=
  handleError_writes_iff _ .badRequest (by decide) _ (by decide)

/-- A `POST` is answered with the bytes of the request. -/
theorem handleError_echoes_post :
    ∃ c' buffer result,
      handleError (Env.steady fun _ => none) HttpError.notImplemented.code
        (bytes "Your request")
        { td := { ThreadData.fresh [] [] with
            requestBuffer := Buffer.zero.store 0 (bytes "POST / HTTP/1.1\r\n\r\n") }
          log := [] } = some c' ∧
      c'.log = [] ++ [.write .error buffer result] ∧
      buffer ≠ errorText .notImplemented (bytes "Your request") := by
  obtain ⟨c', result, hsome, hlog⟩ := handleError_eq (Env.steady fun _ => none)
    .notImplemented (show 0 ∉ bytes "Your request" by decide)
    { td := { ThreadData.fresh [] [] with
        requestBuffer := Buffer.zero.store 0 (bytes "POST / HTTP/1.1\r\n\r\n") }
      log := [] } (by decide)
  refine ⟨c', _, result, hsome, hlog, fun heq => ?_⟩
  -- the first byte written is the `P` of the request
  have hroom : 0 + 1 ≤ Buffer.zero.cells.length := by
    rw [Buffer.size]
    decide
  have hlong : 1 ≤ (bytes "POST / HTTP/1.1\r\n\r\n").length := by decide
  have hstored := take_drop_overwrite hlong hroom
  have hfirst := congrArg (List.take 1) heq
  rw [List.take_take, Nat.min_eq_left (by decide)] at hfirst
  simp only [Buffer.store] at hfirst
  rw [List.drop_zero, hfirst] at hstored
  exact absurd hstored (by decide)

end HttpsServ.ErrorResponse
