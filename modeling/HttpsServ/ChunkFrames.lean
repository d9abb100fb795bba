import HttpsServ.Http
import HttpsServ.IntegerHelpers

/-!
# The frames of the chunk layout

`ComputeChunkEncodingData` reserves the width of the size line before it knows
the size of the chunk. The width that it reserves depends on the size of the
slice alone, it is too narrow for four sizes, and for every other size the
frame is the chunk of the slice.
-/

namespace HttpsServ.ChunkFrames

open ByteString Utility Numeral Http Chunked IntegerHelpers

/-- The width that is reserved for the size line of a slice. -/
def sizeWidth (size : Nat) : Nat := powerOfHex (size - sizeofTwoCrlf + powerOfHex size)

/-- The slice sizes whose size line does not fit into the reserved width. -/
def narrowSizes : List Nat := [3, 16, 17, 256]

theorem length_hexNumeral_le_iff {n : Nat} (hn : n ≠ 0) (width : Nat) :
    (hexNumeral n).length ≤ width ↔ n < 16 ^ width :=
  length_numeral_le_iff (by decide) hn

/-- The reserved width against the width of the size line. -/
theorem sizeWidth_eq {size : Nat} (h : size < 16 ^ 4) :
    if size ∈ narrowSizes then sizeWidth size + 1 = (hexNumeral size).length
    else sizeWidth size = (hexNumeral size).length := by
  by_cases hzero : size = 0
  · subst hzero
    simp only [sizeWidth, powerOfHex_eq]
    decide
  · have hline := length_hexNumeral_le_iff hzero
    have hinner := powerOfHex_le_iff size
    have houter := powerOfHex_le_iff (size - sizeofTwoCrlf + powerOfHex size)
    rw [← sizeWidth] at houter
    have hdelim : sizeofTwoCrlf = 4 := by decide
    rw [hdelim] at houter
    have h₀ := houter 0
    have h₁ := houter 1
    have h₂ := houter 2
    have h₃ := houter 3
    have h₄ := houter 4
    have i₀ := hinner 0
    have i₁ := hinner 1
    have i₂ := hinner 2
    have i₃ := hinner 3
    have i₄ := hinner 4
    have l₀ := hline 0
    have l₁ := hline 1
    have l₂ := hline 2
    have l₃ := hline 3
    have l₄ := hline 4
    simp only [narrowSizes, List.mem_cons, List.not_mem_nil, or_false]
    split <;> omega

theorem sizeWidth_of_ge {size : Nat} (hlow : 16 ^ 3 ≤ size) (hhigh : size < 16 ^ 4) :
    sizeWidth size = 4 := by
  have hline := length_hexNumeral_le_iff (n := size) (by omega)
  have h := sizeWidth_eq hhigh
  rw [if_neg (by simp only [narrowSizes, List.mem_cons, List.not_mem_nil, or_false]; omega)] at h
  have h₃ := hline 3
  have h₄ := hline 4
  omega

theorem sizeWidth_le_length {size : Nat} (h : size < 16 ^ 4) :
    sizeWidth size ≤ (hexNumeral size).length := by
  have hwidth := sizeWidth_eq h
  split at hwidth <;> omega

theorem sizeWidth_of_lt {size : Nat} (h : size < 16 ^ 3) : sizeWidth size ≤ 3 := by
  have hle : sizeWidth size ≤ (hexNumeral size).length := sizeWidth_le_length (by omega)
  by_cases hzero : size = 0
  · subst hzero
    have : (hexNumeral 0).length = 1 := by decide
    omega
  · exact hle.trans ((length_hexNumeral_le_iff hzero 3).mpr h)

theorem sizeWidth_le {size : Nat} (h : size < 16 ^ 4) : sizeWidth size ≤ 4 := by
  rcases Nat.lt_or_ge size (16 ^ 3) with hsmall | hlarge
  · exact (sizeWidth_of_lt hsmall).trans (by decide)
  · exact (sizeWidth_of_ge hlarge h).le

/-- The blocks that are stored around a slice: the size line with the zero of
`snprintf`, its line end, and the line end behind the slice with its zero. -/
def frameStores (size : Nat) : List (Nat × Bytes) :=
  [(0, (hexNumeral size).take (sizeWidth size) ++ [0]),
   (sizeWidth size, crlf),
   (sizeWidth size + 2 + size, crlf ++ [0])]

/-- What one call of `ComputeChunkEncodingData` decides: the slice fills the
budget up to eight bytes or ends the file, and the frame is that of the slice. -/
theorem computeChunkEncodingData_eq (total : Nat) {budget : Nat} (hlow : 16 ^ 3 + 8 ≤ budget)
    (hhigh : budget < 16 ^ 4) :
    let size := min total (budget - 8)
    computeChunkEncodingData total budget =
      { sizeOfChunkedDelim := (sizeWidth size + 4 : Nat)
        sizeThatShouldBeReaded := size
        totalDataSize := (total - size : Nat)
        stores := frameStores size } := by
  intro size
  have hsaturated : saturateValue total budget = (min total budget : Nat) :=
    saturateValue_eq_min total (by omega)
  -- the width is that of the slice although it is computed before the slice
  have hwidth : powerOfHex ((min total budget : Nat) - sizeofTwoCrlf +
      powerOfHex (min total budget : Nat)) = sizeWidth size := by
    rw [← sizeWidth]
    by_cases hsmall : total < 16 ^ 3
    · rw [Nat.min_eq_left (by omega), show size = total from Nat.min_eq_left (by omega)]
    · rw [sizeWidth_of_ge (by omega) (by omega), sizeWidth_of_ge (by omega) (by omega)]
  have hdelim : sizeofTwoCrlf = 4 := by decide
  have hcrlf : sizeofCrlf = 2 := rfl
  have hbudget : (budget : Int) - (4 + (sizeWidth size : Int)) =
      (budget - (sizeWidth size + 4) : Nat) := by
    have hle : sizeWidth size ≤ 4 := sizeWidth_le (by omega)
    omega
  have hread : saturateValue (min total budget : Nat) (budget - (sizeWidth size + 4) : Nat) =
      (size : Int) := by
    by_cases hsmall : size < 16 ^ 3
    · have := sizeWidth_of_lt hsmall
      rw [saturateValue_eq_min _ (by omega)]
      omega
    · rw [sizeWidth_of_ge (by omega) (by omega), saturateValue_eq_min _ (by omega)]
      omega
  have hlength : (4 + (sizeWidth size : Int) - 4).toNat = sizeWidth size := by omega
  have hend : (4 + (sizeWidth size : Int) - 2 + size).toNat = sizeWidth size + 2 + size := by
    omega
  have hleft : (total : Int) - size = (total - size : Nat) := by omega
  simp only [computeChunkEncodingData, hsaturated, hwidth]
  simp only [hdelim, hcrlf, hbudget, hread, hlength, hend, hleft, Int.toNat_natCast]
  simp only [Int.add_comm 4, Nat.cast_add, Nat.cast_ofNat, frameStores]

/-- What is sent for a slice: as much of its size line as was reserved for it,
the slice, and the two line ends. -/
def chunkFrame (slice : Bytes) : Bytes :=
  (hexNumeral slice.length).take (sizeWidth slice.length) ++ (crlf ++ (slice ++ crlf))

theorem length_chunkFrame {slice : Bytes} (h : slice.length < 16 ^ 4) :
    (chunkFrame slice).length = sizeWidth slice.length + 4 + slice.length := by
  simp only [chunkFrame, List.length_append, List.length_take,
    Nat.min_eq_left (sizeWidth_le_length h), crlf, List.length_cons, List.length_nil]
  omega

/-- Where the reserved width fits, the frame is the chunk of the slice. -/
theorem chunkFrame_eq_encodeChunk {slice : Bytes} (h : slice.length < 16 ^ 4)
    (hwide : slice.length ∉ narrowSizes) : chunkFrame slice = encodeChunk slice := by
  have hwidth := sizeWidth_eq h
  rw [if_neg hwide] at hwidth
  rw [chunkFrame, hwidth, List.take_length, encodeChunk]

/-- The stores of `ComputeChunkEncodingData` and the slice read behind the size
line leave the frame at the start of the block, whatever was there before. -/
theorem take_storedFrame {cells slice : Bytes} (hsize : slice.length < 16 ^ 4)
    (hfits : (chunkFrame slice).length ≤ cells.length) :
    let width := sizeWidth slice.length
    let sized := overwrite cells 0 ((hexNumeral slice.length).take width ++ [0])
    let ended := overwrite (overwrite sized width crlf) (width + 2 + slice.length) (crlf ++ [0])
    (overwrite ended (width + 2) slice).take (chunkFrame slice).length = chunkFrame slice := by
  intro width sized ended
  rw [length_chunkFrame hsize] at hfits ⊢
  have hdigits : ((hexNumeral slice.length).take width).length = width := by
    rw [List.length_take, Nat.min_eq_left (sizeWidth_le_length hsize)]
  have hcrlf : crlf.length = 2 := rfl
  have hsized : sized.take width = (hexNumeral slice.length).take width := by
    have h : ((sized.drop 0).take width) =
        ((hexNumeral slice.length).take width ++ [0]).take width :=
      take_drop_overwrite (by simp [hdigits]) (by omega)
    rwa [List.drop_zero, List.take_left' hdigits] at h
  have hline : (overwrite sized width crlf).take (width + 2) =
      (hexNumeral slice.length).take width ++ crlf := by
    rw [← hsized, ← hcrlf]
    apply take_overwrite_end
    simp only [sized, length_overwrite, hcrlf]
    omega
  have hbefore : ended.take (width + 2) = (hexNumeral slice.length).take width ++ crlf := by
    rw [← hline]
    exact take_overwrite_before (by omega)
  have hafter : (ended.drop (width + 2 + slice.length)).take 2 = crlf := by
    have h : (ended.drop (width + 2 + slice.length)).take 2 = (crlf ++ [0]).take 2 :=
      take_drop_overwrite (by simp [hcrlf]) (by simp only [sized, length_overwrite]; omega)
    exact h
  have hlength : ended.length = cells.length := by simp [ended, sized]
  have htotal : sizeWidth slice.length + 4 + slice.length =
      (ended.take (width + 2) ++ slice).length + 2 := by
    simp only [List.length_append, List.length_take, hlength]
    omega
  rw [overwrite_of_le (by omega), htotal, List.take_length_add_append, hbefore, hafter, chunkFrame]
  simp only [List.append_assoc, width]

/-- The same on the response buffer. -/
theorem take_storedFrame_buffer (b : Buffer) {slice : Bytes}
    (hfits : (chunkFrame slice).length ≤ maxChunkSize) :
    ((b.storeAll (frameStores slice.length)).store (sizeWidth slice.length + 2) slice).cells.take
      (chunkFrame slice).length = chunkFrame slice := by
  have hmax : maxChunkSize = 8192 := rfl
  have hsize : slice.length ≤ (chunkFrame slice).length := by
    simp only [chunkFrame, List.length_append]
    omega
  exact take_storedFrame (by omega) (hfits.trans_eq b.size.symm)

end HttpsServ.ChunkFrames
