import HttpsServ.Library.ByteString

/-!
# Header blocks of messages

A message is a block of nonempty lines, a blank line, and a body. The body is
what follows the first blank line.
-/

namespace HttpsServ.HeaderBlock

open ByteString

/-- The end of the last line and the blank line behind it. -/
def blankLine : Bytes := [13, 10, 13, 10]

/-- The lines of a header, each with its line end, and the blank line. -/
def headerBlock (lines : List Bytes) : Bytes :=
  lines.flatMap (· ++ crlf) ++ crlf

/-- Cut a message behind its first blank line. -/
def splitMessage (s : Bytes) : Option (Bytes × Bytes) :=
  (firstOccurrence blankLine s).map fun k => (s.take (k + 4), s.drop (k + 4))

/-- A line that can stand in a header. -/
structure IsLine (line : Bytes) : Prop where
  nonempty : line ≠ []
  no_cr : 13 ∉ line

theorem firstOccurrence_line (line rest : Bytes) (h : 13 ∉ line) :
    firstOccurrence blankLine (line ++ rest) =
      (firstOccurrence blankLine rest).map (· + line.length) :=
  firstOccurrence_append_of_not_mem line rest h

/-- A line end in front of another line is no blank line. -/
theorem firstOccurrence_crlf {b : UInt8} (hb : b ≠ 13) (rest : Bytes) :
    firstOccurrence blankLine (crlf ++ b :: rest) =
      (firstOccurrence blankLine (b :: rest)).map (· + 2) := by
  have hlf : firstOccurrence blankLine ([13, 10] ++ b :: rest) =
      (firstOccurrence blankLine (10 :: b :: rest)).map (· + 1) := by
    apply firstOccurrence_cons
    simp [blankLine, List.cons_prefix_cons, Ne.symm hb]
  have hb' : firstOccurrence blankLine (10 :: b :: rest) =
      (firstOccurrence blankLine (b :: rest)).map (· + 1) := by
    apply firstOccurrence_cons
    simp [blankLine, List.cons_prefix_cons]
  rw [crlf, hlf, hb', Option.map_map]
  rfl

/-- The first blank line of a message with a proper header ends the header. -/
theorem firstOccurrence_headerBlock {lines : List Bytes} (hne : lines ≠ [])
    (hlines : ∀ line ∈ lines, IsLine line) (body : Bytes) :
    ∃ k, firstOccurrence blankLine (headerBlock lines ++ body) = some k ∧
      k + 4 = (headerBlock lines).length := by
  induction lines with
  | nil => exact absurd rfl hne
  | cons line lines ih =>
      have hline := hlines line (by simp)
      have hunfold : headerBlock (line :: lines) ++ body =
          line ++ (crlf ++ (headerBlock lines ++ body)) := by
        simp [headerBlock, List.append_assoc]
      have hlength : (headerBlock (line :: lines)).length =
          line.length + 2 + (headerBlock lines).length := by
        simp only [headerBlock, crlf, List.flatMap_cons, List.length_append,
          List.length_cons, List.length_nil]
        omega
      rw [hunfold, firstOccurrence_line _ _ hline.no_cr, hlength]
      cases lines with
      | nil =>
          refine ⟨line.length, ?_, by simp [headerBlock, crlf]⟩
          rw [firstOccurrence_zero]
          · simp
          · exact ⟨body, by simp [headerBlock, blankLine, crlf]⟩
      | cons next lines =>
          obtain ⟨k, hk, hlen⟩ := ih (by simp)
            (fun l hl => hlines l (List.mem_cons_of_mem _ hl))
          obtain ⟨hnext, hcr⟩ := hlines next (by simp)
          obtain ⟨b, bs, rfl⟩ := List.exists_cons_of_ne_nil hnext
          have hb : b ≠ 13 := fun h => hcr (by simp [h])
          refine ⟨k + 2 + line.length, ?_, by omega⟩
          have hcons : headerBlock ((b :: bs) :: lines) ++ body =
              b :: (bs ++ (crlf ++ (headerBlock lines ++ body))) := by
            simp [headerBlock, List.append_assoc]
          rw [hcons] at hk ⊢
          rw [firstOccurrence_crlf hb, hk]
          rfl

/-- Cutting a message with a proper header gives back header and body. -/
theorem splitMessage_headerBlock {lines : List Bytes} (hne : lines ≠ [])
    (hlines : ∀ line ∈ lines, IsLine line) (body : Bytes) :
    splitMessage (headerBlock lines ++ body) = some (headerBlock lines, body) := by
  obtain ⟨k, hk, hlen⟩ := firstOccurrence_headerBlock hne hlines body
  rw [splitMessage, hk, Option.map_some, hlen, List.take_left, List.drop_left]

end HttpsServ.HeaderBlock
