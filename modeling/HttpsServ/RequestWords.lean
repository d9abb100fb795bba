import HttpsServ.RequestHeader
import HttpsServ.CaseSearch
import HttpsServ.Library.HeaderBlock
import HttpsServ.Library.Words

/-!
# The request parser on words

`FillHttpRequestHeader` takes the first three words of the text up to and with
the first blank line, wherever the lines of that text end. The two line feeds
of the blank line are words for it, so a text of one word is enough.
-/

namespace HttpsServ.RequestWords

open ByteString Utility HttpParser RequestHeader CaseSearch HeaderBlock Words

theorem strtok_of_no_words {isDelim : UInt8 → Bool} {s : Bytes} (h : words isDelim s = []) :
    strtok isDelim s = (none, []) := by
  have hstart : s.dropWhile isDelim = [] :=
    List.dropWhile_eq_nil_iff.mpr (words_eq_nil_iff.mp h)
  rw [strtok, hstart]
  rfl

/-- The token behind delimiters, up to a delimiter or the end of the string. -/
theorem strtok_first {isDelim : UInt8 → Bool} {front w back : Bytes}
    (hfront : ∀ b ∈ front, isDelim b = true) (hne : w ≠ [])
    (hw : ∀ b ∈ w, isDelim b = false)
    (hback : back = [] ∨ ∃ d rest, back = d :: rest ∧ isDelim d = true) :
    strtok isDelim (front ++ (w ++ back)) = (some w, back.drop 1) := by
  obtain ⟨hstart, hword, hbehind⟩ := first_word_append hne hw hback
  have hnonempty : w ++ back ≠ [] := List.append_ne_nil_of_left_ne_nil hne back
  rw [strtok, List.dropWhile_append_of_pos hfront, hstart, if_neg hnonempty, hword, hbehind]

/-- The token in front of a delimiter. -/
theorem strtok_word {isDelim : UInt8 → Bool} {front w : Bytes}
    (hfront : ∀ b ∈ front, isDelim b = true) (hne : w ≠ [])
    (hw : ∀ b ∈ w, isDelim b = false) {d : UInt8} (hd : isDelim d = true) (rest : Bytes) :
    strtok isDelim (front ++ (w ++ d :: rest)) = (some w, rest) :=
  strtok_first hfront hne hw (.inr ⟨d, rest, rfl, hd⟩)

/-- `strtok_r` takes the first word and goes on behind its delimiter. -/
theorem strtok_of_words {isDelim : UInt8 → Bool} {s w : Bytes} {ws : List Bytes}
    (h : words isDelim s = w :: ws) :
    ∃ rest, strtok isDelim s = (some w, rest) ∧ words isDelim rest = ws := by
  have hword : ∃ b ∈ s, isDelim b = false := by
    by_contra hnone
    have hblanks : words isDelim s = [] := by
      rw [words_eq_nil_iff]
      intro b hb
      by_contra hb'
      exact hnone ⟨b, hb, Bool.eq_false_iff.mpr hb'⟩
    rw [hblanks] at h
    cases h
  obtain ⟨front, v, back, rfl, hfront, hne, hv, hback⟩ := exists_first hword
  have htoken := strtok_first hfront hne hv hback
  rw [words_blanks_append hfront] at h
  rcases hback with rfl | ⟨d, rest, rfl, hd⟩
  · rw [List.append_nil, words_singleton hne hv, List.cons.injEq] at h
    obtain ⟨rfl, rfl⟩ := h
    exact ⟨[], htoken, rfl⟩
  · rw [words_word_append hne hv hd, List.cons.injEq] at h
    obtain ⟨rfl, rfl⟩ := h
    exact ⟨rest, htoken, rfl⟩

/-- The token loop ends early where there are too few words. -/
theorem headerTokens_of_few {count : Nat} {raw : Bytes}
    (h : (words isHeadDelim raw).length < count) : headerTokens count raw = none := by
  induction count generalizing raw with
  | zero => cases h
  | succ count ih =>
      rw [headerTokens]
      cases hwords : words isHeadDelim raw with
      | nil => rw [strtok_of_no_words hwords]
      | cons w ws =>
          obtain ⟨rest, hstrtok, hrest⟩ := strtok_of_words hwords
          rw [hwords, List.length_cons, Nat.add_lt_add_iff_right, ← hrest] at h
          simp only [hstrtok, ih h, Option.map_none, ite_self]

theorem headerTokens_of_long {count : Nat} {raw w : Bytes}
    (h : w ∈ (words isHeadDelim raw).take count) (hlong : maxUrlSize < w.length) :
    headerTokens count raw = none := by
  induction count generalizing raw with
  | zero => cases h
  | succ count ih =>
      rw [headerTokens]
      cases hwords : words isHeadDelim raw with
      | nil => rw [strtok_of_no_words hwords]
      | cons v ws =>
          obtain ⟨rest, hstrtok, hrest⟩ := strtok_of_words hwords
          rw [hwords, List.take_succ_cons] at h
          simp only [hstrtok]
          rcases List.mem_cons.mp h with rfl | h
          · rw [if_pos hlong]
          · rw [ih (by rwa [hrest])]
            simp

theorem headerTokens_of_words {count : Nat} {raw : Bytes}
    (hcount : count ≤ (words isHeadDelim raw).length)
    (hshort : ∀ w ∈ (words isHeadDelim raw).take count, w.length ≤ maxUrlSize) :
    ∃ rest, headerTokens count raw = some ((words isHeadDelim raw).take count, rest) ∧
      words isHeadDelim rest = (words isHeadDelim raw).drop count := by
  induction count generalizing raw with
  | zero => exact ⟨raw, rfl, rfl⟩
  | succ count ih =>
      cases hwords : words isHeadDelim raw with
      | nil =>
          rw [hwords] at hcount
          cases hcount
      | cons w ws =>
          obtain ⟨rest, hstrtok, hrest⟩ := strtok_of_words hwords
          rw [hwords, List.length_cons, Nat.add_le_add_iff_right, ← hrest] at hcount
          rw [hwords, List.take_succ_cons, List.forall_mem_cons, ← hrest] at hshort
          obtain ⟨last, htokens, hlast⟩ := ih hcount hshort.2
          refine ⟨last, ?_, ?_⟩
          · rw [headerTokens, hstrtok]
            simp only [if_neg (Nat.not_lt.mpr hshort.1), htokens, Option.map_some,
              List.take_succ_cons, hrest]
          · rw [hlast, hrest, List.drop_succ_cons]

/-- The text in front of the first blank line. -/
def headText (buffer : Bytes) : Option Bytes :=
  (firstOccurrence blankLine (cstr buffer)).map (cstr buffer).take

theorem blankLine_eq : bytes "\r\n\r\n" = blankLine := by decide

theorem getKeywordIndex_of_no_head {buffer : Bytes} (h : headText buffer = none) :
    getKeywordIndex (cstr buffer) (bytes "\r\n\r\n") = otherError := by
  have hnone : firstOccurrence blankLine (cstr buffer) = none := Option.map_eq_none_iff.mp h
  rw [blankLine_eq, getKeywordIndex, hnone]

theorem fillHttpRequestHeader_of_no_head {buffer : Bytes} (h : headText buffer = none)
    (header : HttpRequestHeader) :
    fillHttpRequestHeader header buffer = (kBadRequest, header) := by
  rw [fillHttpRequestHeader, getKeywordIndex_of_no_head h, if_pos rfl]

/-- The working copy is the text with the blank line behind it. -/
theorem headText_spec {buffer text : Bytes} (h : headText buffer = some text) :
    getKeywordIndex (cstr buffer) (bytes "\r\n\r\n") = (text.length + 4 : Nat) ∧
      (cstr buffer).take (text.length + 4) = text ++ blankLine := by
  obtain ⟨i, hi, rfl⟩ := Option.map_eq_some_iff.mp h
  have hle := firstOccurrence_le hi (by decide)
  have hfour : blankLine.length = 4 := rfl
  have hlen : ((cstr buffer).take i).length = i := by
    rw [List.length_take]
    omega
  rw [hlen]
  constructor
  · rw [blankLine_eq, getKeywordIndex, hi, hfour]
    rfl
  · have hsplit := firstOccurrence_split hi
    rw [hfour] at hsplit
    conv_lhs => rw [hsplit]
    rw [List.take_left']
    rw [List.length_append, hlen, hfour]

/-- The two line feeds of the blank line are words. -/
theorem words_head (text : Bytes) :
    words isHeadDelim (text ++ blankLine) = words isHeadDelim text ++ [[10], [10]] := by
  have hcr : isHeadDelim 13 = true := by decide
  have hlf : words isHeadDelim [10, 13, 10] = [[10], [10]] := by decide
  rw [blankLine, words_append hcr, hlf]

/-- The words that are taken, when there are as many. -/
def takenWords (text : Bytes) : List Bytes :=
  (words isHeadDelim text ++ [[10], [10]]).take httpHeadCount

/-- The rest behind the tokens holds a line feed unless the last one was a word. -/
theorem lineFeed_in_rest_iff {text rest : Bytes}
    (hrest : words isHeadDelim rest =
      (words isHeadDelim text ++ [[10], [10]]).drop httpHeadCount) :
    10 ∈ rest ↔ 2 ≤ (words isHeadDelim text).length := by
  have hthree : httpHeadCount = 3 := rfl
  constructor
  · intro hmem
    by_contra hfew
    have hnil : words isHeadDelim rest = [] := by
      rw [hrest, List.drop_eq_nil_of_le]
      simp only [List.length_append, List.length_cons, List.length_nil]
      omega
    have hdelim := words_eq_nil_iff.mp hnil 10 hmem
    exact absurd hdelim (by decide)
  · intro hmany
    have hlast : [10] ∈ words isHeadDelim rest := by
      have hsplit : words isHeadDelim text ++ [[10], [10]] =
          (words isHeadDelim text ++ [[10]]) ++ [[10]] := by simp
      rw [hrest, hsplit, List.drop_append_of_le_length
        (by simp only [List.length_append, List.length_singleton]; omega)]
      exact List.mem_append_right _ (List.mem_singleton_self _)
    exact (mem_words hlast).2.2 10 (List.mem_singleton_self _)

theorem lineFeed_found_iff (rest : Bytes) :
    (firstOccurrence (bytes "\n") rest).isSome = true ↔ 10 ∈ rest := by
  have hlf : bytes "\n" = [10] := by decide
  rw [hlf, firstOccurrence_isSome_iff, List.singleton_infix_iff]

/-- Too few words, or a word that is too long. -/
theorem fillHttpRequestHeader_of_bad_words {buffer text : Bytes} (h : headText buffer = some text)
    (hbad : words isHeadDelim text = [] ∨ ∃ w ∈ takenWords text, maxUrlSize < w.length)
    (header : HttpRequestHeader) : fillHttpRequestHeader header buffer = (kBadRequest, {}) := by
  obtain ⟨hindex, hraw⟩ := headText_spec h
  have hnone : headerTokens httpHeadCount (text ++ blankLine) = none := by
    rcases hbad with hnil | ⟨w, hw, hlong⟩
    · apply headerTokens_of_few
      rw [words_head, hnil]
      decide
    · apply headerTokens_of_long _ hlong
      rw [words_head]
      exact hw
  have hfound : ((text.length + 4 : Nat) : Int) ≠ otherError := by
    simp only [otherError, networkError]
    omega
  rw [fillHttpRequestHeader, hindex, if_neg hfound]
  simp only [Int.toNat_natCast, hraw, hnone]
  rfl

/-- Three words that are short enough. -/
theorem fillHttpRequestHeader_of_words {buffer text method path version : Bytes}
    (h : headText buffer = some text) (htaken : takenWords text = [method, path, version])
    (hshort : ∀ w ∈ [method, path, version], w.length ≤ maxUrlSize) :
    ∃ rest, words isHeadDelim rest =
        (words isHeadDelim text ++ [[10], [10]]).drop httpHeadCount ∧
      ∀ header, fillHttpRequestHeader header buffer =
        if (stristr method (bytes "GET")).isNone then
          (kNotImplemented,
            { header with
              method := some method
              path := some path
              version := some version })
        else
          (0,
            { method := some method
              path := some path
              version := some version
              body := (firstOccurrence (bytes "\n") rest).map fun bodyStart =>
                rest.drop (bodyStart + 1) }) := by
  obtain ⟨hindex, hraw⟩ := headText_spec h
  have hwords := words_head text
  rw [takenWords, ← hwords] at htaken
  have hcount : httpHeadCount ≤ (words isHeadDelim (text ++ blankLine)).length := by
    have hlen := congrArg List.length htaken
    rw [List.length_take, List.length_cons, List.length_cons, List.length_singleton] at hlen
    have hthree : httpHeadCount = 3 := rfl
    omega
  obtain ⟨rest, htokens, hrest⟩ := headerTokens_of_words hcount (by rwa [htaken])
  rw [htaken] at htokens
  refine ⟨rest, by rw [hrest, hwords], fun header => ?_⟩
  have hfound : ((text.length + 4 : Nat) : Int) ≠ otherError := by
    simp only [otherError, networkError]
    omega
  rw [fillHttpRequestHeader, hindex, if_neg hfound]
  simp only [Int.toNat_natCast, hraw, htokens]
  split
  · rfl
  · cases firstOccurrence (bytes "\n") rest <;> rfl

end HttpsServ.RequestWords
