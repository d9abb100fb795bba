import HttpsServ.Library.Numeral

/-!
# Chunked transfer coding

A chunk is a line with its size in hexadecimal, the payload of that size, and
a line end behind each of the two. A body is a list of chunks up to the first
one of size zero. The reader returns the payload and what follows the body.
-/

namespace HttpsServ.Chunked

open ByteString Numeral

/-- Read one chunk: its payload and what follows it. -/
def readChunk (s : Bytes) : Option (Bytes × Bytes) :=
  let line := s.takeWhile isHex
  let rest := s.drop line.length
  let data := rest.drop crlf.length
  let size := hexLineValue line
  if line ≠ [] ∧ crlf <+: rest ∧ size ≤ data.length ∧ crlf <+: data.drop size then
    some (data.take size, data.drop (size + crlf.length))
  else none

theorem isHex_cr : isHex 13 = false := by decide

/-- Behind a size line it is the next bytes that decide. -/
theorem readChunk_line {line data : Bytes} (hne : line ≠ [])
    (hhex : ∀ b ∈ line, isHex b = true) :
    readChunk (line ++ (crlf ++ data)) =
      if hexLineValue line ≤ data.length ∧ crlf <+: data.drop (hexLineValue line) then
        some (data.take (hexLineValue line), data.drop (hexLineValue line + crlf.length))
      else none := by
  have hline : (line ++ (crlf ++ data)).takeWhile isHex = line := by
    rw [List.takeWhile_append_of_pos hhex]
    simp [crlf, isHex_cr]
  simp only [readChunk, hline, List.drop_left, hne, List.prefix_append, ne_eq,
    not_false_eq_true, true_and]

/-- There is no chunk without a size. -/
theorem readChunk_crlf (data : Bytes) : readChunk (crlf ++ data) = none := by
  have hline : (crlf ++ data).takeWhile isHex = [] := by simp [crlf, isHex_cr]
  simp only [readChunk, hline, ne_eq, not_true_eq_false, false_and, if_false]

/-- A chunk as the grammar has it is read whole. -/
theorem readChunk_of_grammar {line payload rest : Bytes} (hne : line ≠ [])
    (hhex : ∀ b ∈ line, isHex b = true) (hsize : hexLineValue line = payload.length) :
    readChunk (line ++ (crlf ++ (payload ++ (crlf ++ rest)))) = some (payload, rest) := by
  rw [readChunk_line hne hhex, hsize, if_pos]
  · rw [List.take_left, ← List.drop_drop, List.drop_left, List.drop_left]
  · exact ⟨by simp, by simp⟩

/-- What the reader accepts is a chunk of the grammar. -/
theorem readChunk_grammar {s payload rest : Bytes} (h : readChunk s = some (payload, rest)) :
    ∃ line, line ≠ [] ∧ (∀ b ∈ line, isHex b = true) ∧ hexLineValue line = payload.length ∧
      s = line ++ (crlf ++ (payload ++ (crlf ++ rest))) := by
  simp only [readChunk] at h
  split at h
  · rename_i hcond
    obtain ⟨hne, ⟨data, hdata⟩, hsize, ⟨tail, htail⟩⟩ := hcond
    simp only [Option.some.injEq, Prod.mk.injEq] at h
    obtain ⟨hpayload, hrest⟩ := h
    have hd : (s.drop (s.takeWhile isHex).length).drop crlf.length = data := by
      rw [← hdata, List.drop_left]
    rw [hd] at hsize htail hpayload hrest
    refine ⟨s.takeWhile isHex, hne, fun b hb => List.mem_takeWhile_imp hb, ?_, ?_⟩
    · rw [← hpayload, List.length_take, Nat.min_eq_left hsize]
    · have hr : tail = rest := by
        rw [← hrest, ← List.drop_drop, ← htail, List.drop_left]
      obtain ⟨t, ht⟩ : s.takeWhile isHex <+: s := List.takeWhile_prefix isHex
      have hdrop : s.drop (s.takeWhile isHex).length = t := by
        have hd := congrArg (List.drop (s.takeWhile isHex).length) ht
        rw [List.drop_left] at hd
        exact hd.symm
      rw [← hr, htail, ← hpayload, List.take_append_drop, hdata, hdrop, ht]
  · cases h

theorem readChunk_length {s payload rest : Bytes} (h : readChunk s = some (payload, rest)) :
    payload.length + rest.length + 5 ≤ s.length := by
  obtain ⟨line, hne, -, -, rfl⟩ := readChunk_grammar h
  have := List.length_pos_iff.mpr hne
  simp only [List.length_append, crlf, List.length_cons, List.length_nil]
  omega

/-- Read chunks up to the first one of size zero: the joined payload and what
follows the body; `none` at a malformed chunk. -/
def decodeChunked (s : Bytes) : Option (Bytes × Bytes) :=
  match _h : readChunk s with
  | none => none
  | some (payload, rest) =>
      if payload = [] then some ([], rest)
      else (decodeChunked rest).map fun (more, after) => (payload ++ more, after)
termination_by s.length
decreasing_by
  have := readChunk_length _h
  omega

theorem decodeChunked_of_none {s : Bytes} (h : readChunk s = none) :
    decodeChunked s = none := by
  rw [decodeChunked]
  split <;> simp_all

theorem decodeChunked_of_some {s payload rest : Bytes}
    (h : readChunk s = some (payload, rest)) (hne : payload ≠ []) :
    decodeChunked s =
      (decodeChunked rest).map fun (more, after) => (payload ++ more, after) := by
  rw [decodeChunked]
  split
  · simp_all
  · rename_i p r h'
    obtain ⟨rfl, rfl⟩ : payload = p ∧ rest = r := by simpa using h.symm.trans h'
    rw [if_neg hne]

theorem decodeChunked_of_empty {s rest : Bytes} (h : readChunk s = some ([], rest)) :
    decodeChunked s = some ([], rest) := by
  rw [decodeChunked]
  split
  · simp_all
  · rename_i p r h'
    obtain ⟨rfl, rfl⟩ : [] = p ∧ rest = r := by simpa using h.symm.trans h'
    simp

/-- The chunk of a payload. -/
def encodeChunk (payload : Bytes) : Bytes :=
  hexNumeral payload.length ++ (crlf ++ (payload ++ crlf))

/-- The chunk that ends a body. -/
def zeroChunk : Bytes := encodeChunk []

theorem zeroChunk_eq : zeroChunk = bytes "0\r\n\r\n" := by decide

theorem readChunk_encodeChunk (payload rest : Bytes) :
    readChunk (encodeChunk payload ++ rest) = some (payload, rest) := by
  simp only [encodeChunk, List.append_assoc]
  apply readChunk_of_grammar
  · exact numeral_ne_nil
  · exact fun b hb => isHex_of_mem_hexNumeral hb
  · exact hexLineValue_hexNumeral payload.length

/-- A chunk in front of a body adds its payload in front. -/
theorem decodeChunked_encodeChunk {payload : Bytes} (hne : payload ≠ []) (rest : Bytes) :
    decodeChunked (encodeChunk payload ++ rest) =
      (decodeChunked rest).map fun (more, after) => (payload ++ more, after) :=
  decodeChunked_of_some (readChunk_encodeChunk payload rest) hne

theorem decodeChunked_zeroChunk (rest : Bytes) :
    decodeChunked (zeroChunk ++ rest) = some ([], rest) :=
  decodeChunked_of_empty (readChunk_encodeChunk [] rest)

/-- The least number of bytes that frame a payload of `n` bytes. -/
def minOverhead (n : Nat) : Nat := if n = 0 then 0 else if n < 16 then 5 else 6

theorem minOverhead_add_le (m n : Nat) :
    minOverhead (m + n) ≤ minOverhead m + minOverhead n := by
  simp only [minOverhead]
  split_ifs <;> omega

/-- One chunk costs five bytes around its payload, six from sixteen bytes on. -/
theorem readChunk_overhead {s payload rest : Bytes} (h : readChunk s = some (payload, rest)) :
    payload.length + minOverhead payload.length + rest.length ≤ s.length := by
  obtain ⟨line, hne, -, hsize, rfl⟩ := readChunk_grammar h
  have hpos := List.length_pos_iff.mpr hne
  have hlt := hexLineValue_lt line
  have htwo : 16 ≤ payload.length → 2 ≤ line.length := by
    intro hle
    by_contra hone
    obtain hline : line.length = 1 := by omega
    rw [hline] at hlt
    omega
  simp only [List.length_append, crlf, List.length_cons, List.length_nil, minOverhead]
  split
  · omega
  · split <;> omega

/-- A decoded body is longer than its payload by the frames around it. -/
theorem decodeChunked_length {s payload rest : Bytes}
    (h : decodeChunked s = some (payload, rest)) :
    payload.length + minOverhead payload.length + rest.length + 5 ≤ s.length := by
  induction s using decodeChunked.induct generalizing payload rest with
  | case1 s hnone => simp [decodeChunked_of_none hnone] at h
  | case2 s after hread =>
      rw [decodeChunked_of_empty hread, Option.some.injEq, Prod.mk.injEq] at h
      obtain ⟨rfl, rfl⟩ := h
      have := readChunk_length hread
      simp [minOverhead] at this ⊢
      omega
  | case3 s first after hread hne ih =>
      rw [decodeChunked_of_some hread hne, Option.map_eq_some_iff] at h
      obtain ⟨⟨more, last⟩, hmore, heq⟩ := h
      rw [Prod.mk.injEq] at heq
      obtain ⟨rfl, rfl⟩ := heq
      have hfirst := readChunk_overhead hread
      have hrest := ih hmore
      have hadd := minOverhead_add_le first.length more.length
      simp only [List.length_append]
      omega

end HttpsServ.Chunked
