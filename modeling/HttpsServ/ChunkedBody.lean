import HttpsServ.ChunkFrames

/-!
# What a chunk reader makes of the frames

A frame that is wide enough is a chunk. A frame that is too narrow announces
less than it carries, and no reading of what follows it can make up for that:
the bytes left are too few to frame the rest of the slice, except for a slice
of sixteen bytes with two zero chunks behind it, where the digits do not fit.
-/

namespace HttpsServ.ChunkedBody

open ByteString Numeral ChunkFrames Chunked IntegerHelpers

theorem chunkFrame_nil : chunkFrame [] = zeroChunk :=
  chunkFrame_eq_encodeChunk (by decide) (by decide)

/-- A wide frame in front of a body adds its slice in front. -/
theorem decodeChunked_chunkFrame {slice : Bytes} (hsize : slice.length < 16 ^ 4)
    (hne : slice ≠ []) (hwide : slice.length ∉ narrowSizes) (rest : Bytes) :
    decodeChunked (chunkFrame slice ++ rest) =
      (decodeChunked rest).map fun (more, after) => (slice ++ more, after) := by
  rw [chunkFrame_eq_encodeChunk hsize hwide, decodeChunked_encodeChunk hne]

/-- The same as an equivalence on results. -/
theorem decodeChunked_chunkFrame_iff {slice : Bytes} (hsize : slice.length < 16 ^ 4)
    (hne : slice ≠ []) (hwide : slice.length ∉ narrowSizes) (rest content after : Bytes) :
    decodeChunked (chunkFrame slice ++ rest) = some (slice ++ content, after) ↔
      decodeChunked rest = some (content, after) := by
  rw [decodeChunked_chunkFrame hsize hne hwide, Option.map_eq_some_iff]
  constructor
  · rintro ⟨⟨more, last⟩, hmore, heq⟩
    rw [Prod.mk.injEq, List.append_cancel_left_eq] at heq
    rw [hmore, heq.1, heq.2]
  · intro h
    exact ⟨(content, after), h, rfl⟩

/-- The digits that are left of the size line of a narrow frame. -/
theorem narrow_line {size : Nat} (h : size ∈ narrowSizes) :
    (size = 3 ∧ (hexNumeral size).take (sizeWidth size) = []) ∨
      (size = 16 ∧ (hexNumeral size).take (sizeWidth size) = bytes "1") ∨
      (size = 17 ∧ (hexNumeral size).take (sizeWidth size) = bytes "1") ∨
      (size = 256 ∧ (hexNumeral size).take (sizeWidth size) = bytes "10") := by
  have hwidth : sizeWidth 3 = 0 ∧ sizeWidth 16 = 1 ∧ sizeWidth 17 = 1 ∧ sizeWidth 256 = 2 := by
    simp only [sizeWidth, powerOfHex_eq]
    decide
  simp only [narrowSizes, List.mem_cons, List.not_mem_nil, or_false] at h
  rcases h with rfl | rfl | rfl | rfl
  · exact .inl ⟨rfl, by rw [hwidth.1, List.take_zero]⟩
  · exact .inr (.inl ⟨rfl, by rw [hwidth.2.1]; decide⟩)
  · exact .inr (.inr (.inl ⟨rfl, by rw [hwidth.2.2.1]; decide⟩))
  · exact .inr (.inr (.inr ⟨rfl, by rw [hwidth.2.2.2]; decide⟩))

/-- Reading a frame that announces `k` bytes of a longer slice: the rest of the
slice has to come out of what is left. -/
theorem decodeChunked_short {line slice tail after : Bytes} (hne : line ≠ [])
    (hhex : ∀ b ∈ line, isHex b = true) (hpos : 0 < hexLineValue line)
    (hshort : hexLineValue line < slice.length)
    (h : decodeChunked (line ++ (crlf ++ (slice ++ crlf)) ++ tail) = some (slice, after)) :
    decodeChunked ((slice ++ (crlf ++ tail)).drop (hexLineValue line + 2)) =
      some (slice.drop (hexLineValue line), after) := by
  have hshape : line ++ (crlf ++ (slice ++ crlf)) ++ tail =
      line ++ (crlf ++ (slice ++ (crlf ++ tail))) := by
    simp only [List.append_assoc]
  have hread : readChunk (line ++ (crlf ++ (slice ++ (crlf ++ tail)))) = _ :=
    readChunk_line hne hhex
  have htake : (slice ++ (crlf ++ tail)).take (hexLineValue line) =
      slice.take (hexLineValue line) := List.take_append_of_le_length hshort.le
  have hfirst : slice.take (hexLineValue line) ≠ [] := by
    rw [← List.length_pos_iff, List.length_take]
    omega
  rw [hshape] at h
  rw [htake] at hread
  split at hread
  · rw [decodeChunked_of_some hread hfirst, Option.map_eq_some_iff] at h
    obtain ⟨⟨more, last⟩, hmore, heq⟩ := h
    rw [Prod.mk.injEq] at heq
    obtain ⟨hslice, rfl⟩ := heq
    have hdrop : more = slice.drop (hexLineValue line) :=
      List.append_cancel_left (hslice.trans (List.take_append_drop _ _).symm)
    rw [← hdrop]
    exact hmore
  · rw [decodeChunked_of_none hread] at h
    cases h

/-- The bytes behind the slice are too few to frame its rest. -/
theorem decodeChunked_short_ne {line slice tail after : Bytes} (hne : line ≠ [])
    (hhex : ∀ b ∈ line, isHex b = true) (hpos : 0 < hexLineValue line)
    (hshort : hexLineValue line < slice.length)
    (htail : tail.length < minOverhead (slice.length - hexLineValue line) + 5) :
    decodeChunked (line ++ (crlf ++ (slice ++ crlf)) ++ tail) ≠ some (slice, after) := by
  intro h
  have hlength := decodeChunked_length (decodeChunked_short hne hhex hpos hshort h)
  simp only [List.length_drop, List.length_append, crlf, List.length_cons,
    List.length_nil] at hlength
  omega

/-- Twenty-five bytes that are read as fifteen are one chunk and a zero chunk. -/
theorem decodeChunked_exact {s payload after : Bytes} (hs : s.length = 25)
    (hpayload : payload.length = 15) (h : decodeChunked s = some (payload, after)) :
    ∃ digit rest, hexLineValue [digit] = 15 ∧
      s = digit :: 13 :: 10 :: (payload ++ rest) := by
  cases hread : readChunk s with
  | none =>
      rw [decodeChunked_of_none hread] at h
      cases h
  | some result =>
      obtain ⟨first, rest⟩ := result
      have hfirst : first ≠ [] := by
        rintro rfl
        rw [decodeChunked_of_empty hread, Option.some.injEq, Prod.mk.injEq] at h
        rw [← h.1] at hpayload
        cases hpayload
      rw [decodeChunked_of_some hread hfirst, Option.map_eq_some_iff] at h
      obtain ⟨⟨more, last⟩, hmore, heq⟩ := h
      rw [Prod.mk.injEq] at heq
      obtain ⟨rfl, rfl⟩ := heq
      have hover := readChunk_overhead hread
      have hrest := decodeChunked_length hmore
      have hpos := List.length_pos_iff.mpr hfirst
      rw [List.length_append] at hpayload
      -- a second data chunk would cost five bytes more than there are
      have hnil : more.length = 0 := by
        by_contra hne
        simp only [minOverhead] at hover hrest
        split_ifs at hover hrest <;> omega
      obtain ⟨line, hline, -, hsize, hshape⟩ := readChunk_grammar hread
      have hone : line.length = 1 := by
        have hlen := congrArg List.length hshape
        have hlinePos := List.length_pos_iff.mpr hline
        simp only [List.length_append, crlf, List.length_cons, List.length_nil] at hlen
        omega
      obtain ⟨digit, rfl⟩ := List.length_eq_one_iff.mp hone
      refine ⟨digit, crlf ++ rest, ?_, ?_⟩
      · omega
      · rw [List.length_eq_zero_iff.mp hnil, List.append_nil]
        exact hshape

/-- Sixteen bytes behind the digit of one, with two zero chunks to follow. -/
theorem decodeChunked_sixteen {slice after : Bytes} (hslice : slice.length = 16) :
    decodeChunked (bytes "1" ++ (crlf ++ (slice ++ crlf)) ++ (zeroChunk ++ zeroChunk)) ≠
      some (slice, after) := by
  intro h
  have hone : hexLineValue (bytes "1") = 1 := by decide
  have hmore := decodeChunked_short (by decide) (List.all_eq_true.mp (by decide)) (by decide)
    (by omega) h
  rw [hone, List.drop_append_of_le_length (by omega)] at hmore
  obtain ⟨digit, rest, hdigit, hshape⟩ := decodeChunked_exact
    (by simp [hslice, crlf, zeroChunk_eq, bytes]) (by simp [hslice]) hmore
  -- the third, eighth and thirteenth byte are each five places before the next
  have hat : ∀ i : Nat, (slice.drop 3 ++ (crlf ++ (zeroChunk ++ zeroChunk)))[i]? =
      (digit :: 13 :: 10 :: (slice.drop 1 ++ rest))[i]? := fun i => by rw [hshape]
  have hzeros : (crlf ++ (zeroChunk ++ zeroChunk))[2]? = some 48 := by decide
  have h₀ := hat 0
  have h₅ := hat 5
  have h₁₀ := hat 10
  have h₁₅ : some (48 : UInt8) = (slice.drop 1 ++ rest)[12]? := by
    have h := hat 15
    rw [List.getElem?_append_right (by simp [hslice]), List.length_drop, hslice] at h
    exact hzeros.symm.trans h
  simp [List.getElem?_append, hslice] at h₀ h₅ h₁₀ h₁₅
  have hzero : digit = 48 := by rw [← h₀, ← h₅, ← h₁₀, ← h₁₅]
  rw [hzero] at hdigit
  exact absurd hdigit (by decide)

/-- A narrow frame with what a response has behind it is never read as its slice. -/
theorem decodeChunked_narrow {slice tail after : Bytes} (hnarrow : slice.length ∈ narrowSizes)
    (htail : tail = zeroChunk ∨ tail = zeroChunk ++ zeroChunk) :
    decodeChunked (chunkFrame slice ++ tail) ≠ some (slice, after) := by
  intro h
  have hlen : tail.length ≤ 10 := by
    rcases htail with rfl | rfl <;> decide
  have hone : hexLineValue (bytes "1") = 1 := by decide
  have hten : hexLineValue (bytes "10") = 16 := by decide
  rw [chunkFrame] at h
  rcases narrow_line hnarrow with ⟨hsize, hline⟩ | ⟨hsize, hline⟩ | ⟨hsize, hline⟩ |
    ⟨hsize, hline⟩
  · rw [hline, List.nil_append, List.append_assoc,
      decodeChunked_of_none (readChunk_crlf _)] at h
    cases h
  · rw [hline] at h
    rcases htail with rfl | rfl
    · refine decodeChunked_short_ne (by decide) (List.all_eq_true.mp (by decide)) (by decide)
        (by rw [hsize, hone]; decide) ?_ h
      rw [hsize, hone]
      decide
    · exact decodeChunked_sixteen hsize h
  · rw [hline] at h
    refine decodeChunked_short_ne (by decide) (List.all_eq_true.mp (by decide)) (by decide)
      (by rw [hsize, hone]; decide) ?_ h
    rw [hsize, hone]
    exact hlen.trans_lt (by decide)
  · rw [hline] at h
    refine decodeChunked_short_ne (by decide) (List.all_eq_true.mp (by decide)) (by decide)
      (by rw [hsize, hten]; decide) ?_ h
    rw [hsize, hten]
    exact hlen.trans_lt (by decide)

end HttpsServ.ChunkedBody
