import HttpsServ.RequestGrammar
import HttpsServ.Logger
import HttpsServ.Library.Segments

/-!
# The log of requests

A request is logged as one line: the time, the method and the path. The parser
cuts words at spaces and carriage returns only, so a line feed in a word goes
into the log as it is.
-/

namespace HttpsServ.RequestLog

open ByteString Utility Numeral HttpParser Http Logger LockProgram RequestHeader RequestGrammar
  Segments

/-- The fields of `struct tm` that are logged. -/
structure LogTime where
  hour : Nat
  min : Nat
  sec : Nat

/-- `%02d` of a number that is not negative. -/
def twoDigits (n : Nat) : Bytes :=
  List.replicate (2 - (decNumeral n).length) 48 ++ decNumeral n

/-- `"%02d:%02d:%02d"`. -/
def LogTime.text (t : LogTime) : Bytes :=
  twoDigits t.hour ++ bytes ":" ++ twoDigits t.min ++ bytes ":" ++ twoDigits t.sec

theorem twoDigits_plain {n : Nat} {b : UInt8} (hb : b < 48) : b ∉ twoDigits n := by
  have hdigit : ∀ d < 10, 48 ≤ digitByte d := by decide
  have hmem : ∀ x ∈ twoDigits n, 48 ≤ x := by
    intro x hx
    rcases List.mem_append.mp hx with hx | hx
    · rw [List.eq_of_mem_replicate hx]
      decide
    · rw [decNumeral, if_neg (by omega), Int.natAbs_natCast] at hx
      obtain ⟨d, hd, rfl⟩ := mem_numeral (by decide) hx
      exact hdigit d hd
  intro h
  exact absurd (hmem b h) (by simpa using hb)

theorem LogTime.text_plain (t : LogTime) : 32 ∉ t.text ∧ 10 ∉ t.text := by
  have hspace : (32 : UInt8) ∉ bytes ":" := by decide
  have hline : (10 : UInt8) ∉ bytes ":" := by decide
  constructor
  · simp [LogTime.text, twoDigits_plain, hspace]
  · simp [LogTime.text, twoDigits_plain, hline]

/-- What `LogHttpRequestHeader` hands to `LogMessage`. -/
def logData (logTime : Bytes) (header : HttpRequestHeader) : Bytes :=
  logTime ++ bytes " " ++ header.method.getD [] ++ bytes " " ++ header.path.getD [] ++ bytes "\n"

theorem logHttpRequestHeader_eq (env : Env) (c : Conn) :
    logHttpRequestHeader env c =
      c.emit (.logMessage loggerFilename (logData (env.logTime c.log) c.td.httpHeader)) := rfl

/-- The text that a program of the logger appends to the file it has open. -/
def appendedText (program : Program) : Bytes :=
  program.flatMap fun instr =>
    match instr with
    | .act (.fprintf message) => message
    | _ => []

/-- An accepted request, when it is logged and with the default document then. -/
structure LoggedRequest where
  time : LogTime
  buffer : Bytes
  defaultDocument : Bytes
  accepted : (fillHttpRequestHeader {} buffer).1 = 0

variable (r : LoggedRequest)

def LoggedRequest.header : HttpRequestHeader :=
  setDefaultDocument (fillHttpRequestHeader {} r.buffer).2 r.defaultDocument

def LoggedRequest.method : Bytes := r.header.method.getD []

def LoggedRequest.path : Bytes := r.header.path.getD []

/-- The time, the method and the path, with single spaces between them. -/
def LoggedRequest.line : Bytes :=
  r.time.text ++ bytes " " ++ r.method ++ bytes " " ++ r.path

/-- What the requests append to the log while the file can be opened. -/
def logText (requests : List LoggedRequest) : Bytes :=
  requests.flatMap fun r =>
    appendedText (logMessage loggerFilename (logData r.time.text r.header) true).1

theorem logText_eq (requests : List LoggedRequest) :
    logText requests = (requests.map LoggedRequest.line).flatMap (· ++ [10]) := by
  rw [List.flatMap_map]
  apply List.flatMap_congr
  intro r _
  simp only [logMessage, if_true, appendedText, List.flatMap_cons, List.flatMap_nil,
    List.nil_append, List.append_nil, logData, LoggedRequest.line]
  rfl

/-- Cut a text at its first space. -/
def cutSpace (s : Bytes) : Bytes × Bytes :=
  (s.takeWhile (· ≠ 32), (s.dropWhile (· ≠ 32)).drop 1)

theorem cutSpace_append {w : Bytes} (h : 32 ∉ w) (rest : Bytes) :
    cutSpace (w ++ 32 :: rest) = (w, rest) := by
  have hall : ∀ b ∈ w, decide (b ≠ 32) = true := by
    intro b hb
    simpa using ne_of_mem_of_not_mem hb h
  rw [cutSpace, List.takeWhile_append_of_pos hall, List.dropWhile_append_of_pos hall]
  simp

/-- The time, the method and the path of a line. -/
def readLine (line : Bytes) : Bytes × Bytes × Bytes :=
  ((cutSpace line).1, cutSpace (cutSpace line).2)

theorem LoggedRequest.method_spaceless : 32 ∉ r.method := by
  obtain ⟨text, method, path, version, htaken, hget⟩ :=
    (fillHttpRequestHeader_accepted_iff {} r.buffer).mp r.accepted
  obtain ⟨body, -, hfill⟩ := htaken.fill_of_get hget
  have hmethod : r.method = method := by
    rw [LoggedRequest.method, LoggedRequest.header, setDefaultDocument, hfill]
    split <;> rfl
  intro hspace
  rw [hmethod] at hspace
  exact absurd (htaken.no_delim method (by simp) 32 hspace) (by decide)

theorem LoggedRequest.readLine_line : readLine r.line = (r.time.text, r.method, r.path) := by
  have hshape : r.line = r.time.text ++ 32 :: (r.method ++ 32 :: r.path) := by
    simp only [LoggedRequest.line, List.append_assoc]
    rfl
  rw [readLine, hshape, cutSpace_append r.time.text_plain.1, cutSpace_append r.method_spaceless]

theorem LoggedRequest.lineFeed_in_line_iff : 10 ∈ r.line ↔ 10 ∈ r.method ∨ 10 ∈ r.path := by
  have hsep : (10 : UInt8) ∉ bytes " " := by decide
  simp [LoggedRequest.line, r.time.text_plain.2, hsep]

/-- The appended text has one line for each request, and its line gives back when
it was and its method and path. -/
def OneLineEach (requests : List LoggedRequest) : Prop :=
  (logText requests).splitOn 10 = requests.map LoggedRequest.line ++ [[]] ∧
    (requests.map LoggedRequest.line).map readLine =
      requests.map fun r => (r.time.text, r.method, r.path)

/-- Exactly the requests whose method and path hold no line feed are logged as
one line each. -/
theorem oneLineEach_iff (requests : List LoggedRequest) :
    OneLineEach requests ↔ ∀ r ∈ requests, 10 ∉ r.method ∧ 10 ∉ r.path := by
  have hread : (requests.map LoggedRequest.line).map readLine =
      requests.map fun r => (r.time.text, r.method, r.path) := by
    rw [List.map_map]
    apply List.map_congr_left
    intro r _
    exact r.readLine_line
  rw [OneLineEach, and_iff_left hread, logText_eq, splitOn_lines_iff]
  constructor
  · intro h r hr
    have hline := h r.line (List.mem_map_of_mem hr)
    rwa [r.lineFeed_in_line_iff, not_or] at hline
  · intro h line hline
    obtain ⟨r, hr, rfl⟩ := List.mem_map.mp hline
    rw [r.lineFeed_in_line_iff, not_or]
    exact h r hr

/-- A line feed in the path begins a line of the client's own. -/
theorem pathLineFeed_forges_line : ¬ ∀ requests, OneLineEach requests := by
  intro h
  let r : LoggedRequest :=
    ⟨⟨9, 5, 0⟩, bytes "GET /a\n00:00:00 HTTP/1.1\r\n\r\n", [], by decide⟩
  have hsplit := (h [r]).1
  have hplain : 10 ∉ r.line := by
    apply notMem_segment (s := logText [r])
    rw [hsplit]
    exact List.mem_cons_self
  have hpath : 10 ∈ r.path := by decide
  exact hplain (r.lineFeed_in_line_iff.mpr (.inr hpath))

end HttpsServ.RequestLog
