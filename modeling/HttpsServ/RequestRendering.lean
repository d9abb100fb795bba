import HttpsServ.RequestWords

/-!
# Rendered requests

A request is rendered as its request line, its header text and a blank line.
The parser gives the parts back, whatever stands behind the blank line.
-/

namespace HttpsServ.RequestRendering

open ByteString Utility HttpParser CaseSearch HeaderBlock RequestWords

/-- A token that can stand in a request line. -/
structure IsPlain (token : Bytes) : Prop where
  nonempty : token ≠ []
  no_zero : 0 ∉ token
  no_space : 32 ∉ token
  no_cr : 13 ∉ token
  no_lf : 10 ∉ token
  short : token.length ≤ maxUrlSize

/-- A header text that is empty or has its first blank line at its end. -/
structure IsHeaderText (header : Bytes) : Prop where
  no_zero : 0 ∉ header
  ends : header = [] ∨
    firstOccurrence blankLine (crlf ++ (header ++ blankLine)) = some (header.length + 2)

/-- The header text with its line end, and the line end of the blank line. -/
def fields (header : Bytes) : Bytes :=
  if header = [] then crlf else header ++ blankLine

def render (method path version header : Bytes) : Bytes :=
  method ++ 32 :: (path ++ 32 :: (version ++ (crlf ++ fields header)))

/-- The first blank line behind the request line ends the header. -/
theorem firstOccurrence_fields {header : Bytes} (h : IsHeaderText header) (rest : Bytes) :
    ∃ k, firstOccurrence blankLine (crlf ++ fields header ++ rest) = some k ∧
      k + 4 = (crlf ++ fields header).length := by
  by_cases hempty : header = []
  · subst hempty
    exact ⟨0, firstOccurrence_zero (List.prefix_append blankLine rest), rfl⟩
  · have hends := h.ends.resolve_left hempty
    rw [fields, if_neg hempty]
    refine ⟨header.length + 2, firstOccurrence_append hends (by decide) rest, ?_⟩
    simp only [List.length_append, blankLine, crlf, List.length_cons, List.length_nil]
    omega

theorem zero_notMem_render {method path version header : Bytes} (hmethod : IsPlain method)
    (hpath : IsPlain path) (hversion : IsPlain version) (hheader : IsHeaderText header) :
    0 ∉ render method path version header := by
  have hfields : 0 ∉ fields header := by
    rw [fields]
    split
    · decide
    · rw [List.mem_append, not_or]
      exact ⟨hheader.no_zero, by decide⟩
  have hcrlf : 0 ∉ crlf := by decide
  simp only [render, List.mem_append, List.mem_cons, not_or]
  exact ⟨hmethod.no_zero, by decide, hpath.no_zero, by decide, hversion.no_zero, hcrlf, hfields⟩

/-- The parser finds the end of a rendered request, whatever is behind it. -/
theorem getKeywordIndex_render {method path version header : Bytes} (hmethod : IsPlain method)
    (hpath : IsPlain path) (hversion : IsPlain version) (hheader : IsHeaderText header)
    (rest : Bytes) :
    getKeywordIndex (render method path version header ++ rest) (bytes "\r\n\r\n") =
      (render method path version header).length := by
  obtain ⟨k, hk, hlen⟩ := firstOccurrence_fields hheader rest
  have hsplit : render method path version header ++ rest =
      (method ++ 32 :: (path ++ 32 :: version)) ++ (crlf ++ fields header ++ rest) := by
    simp [render]
  have hline : 13 ∉ method ++ 32 :: (path ++ 32 :: version) := by
    simp only [List.mem_append, List.mem_cons, not_or]
    exact ⟨hmethod.no_cr, by decide, hpath.no_cr, by decide, hversion.no_cr⟩
  have hfound : firstOccurrence blankLine (render method path version header ++ rest) =
      some (k + (method ++ 32 :: (path ++ 32 :: version)).length) := by
    rw [hsplit, blankLine, firstOccurrence_append_of_not_mem _ _ hline, ← blankLine, hk]
    rfl
  have hfour : blankLine.length = 4 := rfl
  rw [blankLine_eq, getKeywordIndex, hfound, hfour]
  simp only [List.length_append, List.length_cons, render] at hlen ⊢
  omega

theorem IsPlain.no_delim {token : Bytes} (h : IsPlain token) :
    ∀ b ∈ token, isHeadDelim b = false := by
  intro b hb
  have hspace : b ≠ 32 := fun heq => h.no_space (heq ▸ hb)
  have hcr : b ≠ 13 := fun heq => h.no_cr (heq ▸ hb)
  simp [isHeadDelim, hspace, hcr]

/-- One pass of the token loop over a plain token and its delimiter. -/
theorem headerTokens_plain {token : Bytes} (h : IsPlain token) {d : UInt8}
    (hd : isHeadDelim d = true) (count : Nat) (rest : Bytes) :
    headerTokens (count + 1) (token ++ d :: rest) =
      (headerTokens count rest).map fun taken => (token :: taken.1, taken.2) := by
  have hfront : ∀ b ∈ ([] : Bytes), isHeadDelim b = true := by
    intro b hb
    cases hb
  have hstrtok : strtok isHeadDelim (token ++ d :: rest) = (some token, rest) :=
    strtok_word hfront h.nonempty h.no_delim hd rest
  rw [headerTokens, hstrtok]
  simp only [if_neg (Nat.not_lt.mpr h.short)]

/-- The three tokens are the parts of the request line, and the cursor stands
on the line feed behind it. -/
theorem headerTokens_render {method path version : Bytes} (header : Bytes)
    (hmethod : IsPlain method) (hpath : IsPlain path) (hversion : IsPlain version) :
    headerTokens httpHeadCount (render method path version header) =
      some ([method, path, version], 10 :: fields header) := by
  have hthree : httpHeadCount = 2 + 1 := rfl
  have hsplit : render method path version header =
      method ++ 32 :: (path ++ 32 :: (version ++ 13 :: (10 :: fields header))) := rfl
  rw [hsplit, hthree, headerTokens_plain hmethod (by decide),
    headerTokens_plain hpath (by decide), headerTokens_plain hversion (by decide)]
  rfl

/-- Parsing undoes rendering, and what stands behind the request has no part in it. -/
theorem fillHttpRequestHeader_render {method path version header : Bytes}
    (hmethod : IsPlain method) (hget : bytes "GET" <:+: method) (hpath : IsPlain path)
    (hversion : IsPlain version) (hheader : IsHeaderText header)
    (before : HttpRequestHeader) (rest : Bytes) :
    fillHttpRequestHeader before (render method path version header ++ rest) =
      (0,
        { method := some method
          path := some path
          version := some version
          body := some (fields header) }) := by
  have hzero := zero_notMem_render hmethod hpath hversion hheader
  have hindex := getKeywordIndex_render hmethod hpath hversion hheader (cstr rest)
  have hcstr := cstr_append_of_notMem hzero rest
  have hfound : ((render method path version header).length : Int) ≠ otherError := by
    simp only [otherError, networkError]
    omega
  have hsome : (stristr method (bytes "GET")).isNone = false := by
    rw [← Option.not_isSome, Bool.not_eq_false', stristr_isSome_iff _ (by decide)]
    exact hget.map tolower
  have hlf : firstOccurrence (bytes "\n") (10 :: fields header) = some 0 :=
    firstOccurrence_zero (List.prefix_append [10] (fields header))
  rw [fillHttpRequestHeader, hcstr, hindex, if_neg hfound]
  simp only [Int.toNat_natCast, List.take_left, headerTokens_render header hmethod hpath hversion,
    hsome, hlf, Bool.false_eq_true, if_false]
  rfl

theorem fillHttpRequestHeader_render_index :
    fillHttpRequestHeader {} (bytes "GET /index.html HTTP/1.1\r\nHost: a\r\n\r\nGET") =
      (0,
        { method := some (bytes "GET")
          path := some (bytes "/index.html")
          version := some (bytes "HTTP/1.1")
          body := some (bytes "Host: a\r\n\r\n") }) := by
  have hmethod : IsPlain (bytes "GET") := by constructor <;> decide
  have hpath : IsPlain (bytes "/index.html") := by constructor <;> decide
  have hversion : IsPlain (bytes "HTTP/1.1") := by constructor <;> decide
  have hheader : IsHeaderText (bytes "Host: a") := by constructor <;> decide
  exact fillHttpRequestHeader_render hmethod (by decide) hpath hversion hheader {} (bytes "GET")

end HttpsServ.RequestRendering
