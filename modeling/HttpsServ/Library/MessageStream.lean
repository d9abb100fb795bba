import HttpsServ.Library.Chunked
import HttpsServ.Library.HeaderBlock
import HttpsServ.Library.Segments

/-!
# Streams of messages

A reader takes a byte stream apart into messages. The header block of a message
says how long its body is, by a length or by the chunked coding, and the next
message begins behind the body.
-/

namespace HttpsServ.MessageStream

open ByteString Numeral HeaderBlock Chunked Segments

structure Message where
  lines : List Bytes
  body : Bytes

/-- The lines of a header block without their line ends. -/
def blockLines (block : Bytes) : List Bytes :=
  (block.splitOn 10).dropLast.dropLast.map List.dropLast

/-- The value of the first field of this name. -/
def headerValue (name : Bytes) (lines : List Bytes) : Option Bytes :=
  (lines.find? (name ++ bytes ": ").isPrefixOf).map (List.drop (name ++ bytes ": ").length)

/-- Cut the body off what follows a header block. -/
def cutBody (lines : List Bytes) (rest : Bytes) : Option (Bytes × Bytes) :=
  if headerValue (bytes "Transfer-Encoding") lines = some (bytes "chunked") then decodeChunked rest
  else
    (headerValue (bytes "Content-Length") lines).bind fun digits =>
      if lineValue 10 digits ≤ rest.length then
        some (rest.take (lineValue 10 digits), rest.drop (lineValue 10 digits))
      else none

/-- The first message of a stream and what follows it. -/
def readMessage (s : Bytes) : Option (Message × Bytes) :=
  (splitMessage s).bind fun (block, rest) =>
    (cutBody (blockLines block) rest).map fun (body, after) =>
      ({ lines := blockLines block, body := body }, after)

theorem cutBody_length {lines : List Bytes} {rest body after : Bytes}
    (h : cutBody lines rest = some (body, after)) : after.length ≤ rest.length := by
  rw [cutBody] at h
  split at h
  · have hlength := decodeChunked_length h
    omega
  · obtain ⟨digits, -, hdigits⟩ := Option.bind_eq_some_iff.mp h
    split at hdigits
    · cases hdigits
      rw [List.length_drop]
      omega
    · cases hdigits

theorem readMessage_length {s after : Bytes} {message : Message}
    (h : readMessage s = some (message, after)) : after.length < s.length := by
  obtain ⟨⟨block, rest⟩, hsplit, hbody⟩ := Option.bind_eq_some_iff.mp h
  obtain ⟨⟨body, after'⟩, hcut, heq⟩ := Option.map_eq_some_iff.mp hbody
  obtain ⟨k, hk, hparts⟩ := Option.map_eq_some_iff.mp hsplit
  have hlong : k + blankLine.length ≤ s.length := firstOccurrence_le hk (by decide)
  have hfour : blankLine.length = 4 := rfl
  cases heq
  cases hparts
  have hafter := cutBody_length hcut
  rw [List.length_drop] at hafter
  omega

/-- All the messages of a stream; `none` when it does not end behind a message. -/
def readMessages (s : Bytes) : Option (List Message) :=
  if s = [] then some []
  else
    match _h : readMessage s with
    | none => none
    | some (message, after) => (readMessages after).map (message :: ·)
termination_by s.length
decreasing_by exact readMessage_length _h

/-- A message in front of a stream is read first. -/
theorem readMessages_append {s rest : Bytes} {message : Message}
    (h : readMessage (s ++ rest) = some (message, rest)) :
    readMessages (s ++ rest) = (readMessages rest).map (message :: ·) := by
  have hne : s ++ rest ≠ [] := by
    intro hempty
    have hshorter := readMessage_length h
    rw [hempty] at hshorter
    exact absurd hshorter (Nat.not_lt_zero _)
  rw [readMessages, if_neg hne]
  split
  · rename_i hnone
    rw [h] at hnone
    cases hnone
  · rename_i message' after hsome
    rw [h] at hsome
    cases hsome
    rfl

/-- A stream of texts that are read as one message each. -/
theorem readMessages_flatMap {α : Type*} {text : α → Bytes} {message : α → Message}
    (items : List α)
    (h : ∀ item ∈ items, ∀ rest, readMessage (text item ++ rest) = some (message item, rest)) :
    readMessages (items.flatMap text) = some (items.map message) := by
  induction items with
  | nil =>
      rw [List.flatMap_nil, readMessages, if_pos rfl]
      rfl
  | cons item items ih =>
      obtain ⟨hitem, hitems⟩ := List.forall_mem_cons.mp h
      rw [List.flatMap_cons, readMessages_append (hitem _), ih hitems]
      rfl

theorem blockLines_headerBlock {lines : List Bytes} (h : ∀ line ∈ lines, 10 ∉ line) :
    blockLines (headerBlock lines) = lines := by
  have hblock : headerBlock lines = ((lines ++ [[]]).map (· ++ [13])).flatMap (· ++ [10]) := by
    rw [headerBlock, crlf, List.flatMap_map, List.flatMap_append]
    simp
  have hplain : ∀ line ∈ (lines ++ [[]]).map (· ++ [(13 : UInt8)]), 10 ∉ line := by
    intro line hmem
    obtain ⟨line, hline, rfl⟩ := List.mem_map.mp hmem
    rw [List.mem_append, not_or]
    refine ⟨?_, by decide⟩
    rcases List.mem_append.mp hline with hline | hline
    · exact h line hline
    · rw [List.mem_singleton.mp hline]
      exact List.not_mem_nil
  rw [blockLines, hblock, (splitOn_lines_iff _).mpr hplain, List.dropLast_concat, List.map_append,
    List.map_singleton, List.dropLast_concat, List.map_map]
  simp [Function.comp_def]

/-- A header block in front of a body that it describes. -/
theorem readMessage_headerBlock {lines : List Bytes} (hne : lines ≠ [])
    (hlines : ∀ line ∈ lines, IsLine line ∧ 10 ∉ line) {text body rest : Bytes}
    (hbody : cutBody lines (text ++ rest) = some (body, rest)) :
    readMessage (headerBlock lines ++ text ++ rest) =
      some ({ lines := lines, body := body }, rest) := by
  rw [readMessage, List.append_assoc,
    splitMessage_headerBlock hne fun line hline => (hlines line hline).1]
  simp only [Option.bind_some, blockLines_headerBlock fun line hline => (hlines line hline).2, hbody,
    Option.map_some]

theorem cutBody_length_field {lines : List Bytes} {body : Bytes}
    (hencoding : headerValue (bytes "Transfer-Encoding") lines = none)
    (hlength : headerValue (bytes "Content-Length") lines = some (decNumeral body.length))
    (rest : Bytes) : cutBody lines (body ++ rest) = some (body, rest) := by
  have hvalue : lineValue 10 (decNumeral body.length) = body.length := by
    rw [decNumeral, if_neg (by omega), Int.natAbs_natCast]
    exact lineValue_numeral (by decide) (by decide) _
  rw [cutBody, if_neg (by simp [hencoding]), hlength, Option.bind_some, hvalue, if_pos (by simp),
    List.take_left, List.drop_left]

theorem cutBody_chunked_field {lines : List Bytes} {body : Bytes} (hne : body ≠ [])
    (hencoding : headerValue (bytes "Transfer-Encoding") lines = some (bytes "chunked"))
    (rest : Bytes) :
    cutBody lines (encodeChunk body ++ zeroChunk ++ rest) = some (body, rest) := by
  rw [cutBody, if_pos hencoding, List.append_assoc, decodeChunked_encodeChunk hne,
    decodeChunked_zeroChunk]
  simp

end HttpsServ.MessageStream
