import HttpsServ.HttpParser

/-!
# What the request parser accepts

The results of `FillHttpRequestHeader`, once for all its exits, and what is
known about the tokens of the request line.
-/

namespace HttpsServ.RequestHeader

open ByteString Utility HttpParser

/-- A token that the parser takes: not empty, free of delimiters, not too long. -/
structure IsToken (token : Bytes) : Prop where
  nonempty : token ≠ []
  no_delim : ∀ b ∈ token, isHeadDelim b = false
  short : token.length ≤ maxUrlSize

/-- What is left behind a token is the end of the string. -/
theorem strtok_suffix (isDelim : UInt8 → Bool) (s : Bytes) : (strtok isDelim s).2 <:+ s := by
  rw [strtok]
  split
  · exact List.nil_suffix
  · exact (List.drop_suffix _ _).trans
      ((List.dropWhile_suffix _).trans (List.dropWhile_suffix _))

theorem strtok_token {s token rest : Bytes} (h : strtok isHeadDelim s = (some token, rest)) :
    token ≠ [] ∧ ∀ b ∈ token, isHeadDelim b = false := by
  simp only [strtok] at h
  split at h
  · cases h
  · rename_i hne
    rw [Prod.mk.injEq, Option.some.injEq] at h
    obtain ⟨rfl, -⟩ := h
    constructor
    · obtain ⟨b, more, hb⟩ := List.exists_cons_of_ne_nil hne
      have hhead := List.head?_dropWhile_not isHeadDelim s
      rw [hb] at hhead ⊢
      rw [List.takeWhile_cons_of_pos (by simpa using hhead)]
      exact List.cons_ne_nil _ _
    · intro b hb
      simpa using List.mem_takeWhile_imp hb

theorem headerTokens_isToken {count : Nat} {raw : Bytes} {tokens : List Bytes} {rest : Bytes}
    (h : headerTokens count raw = some (tokens, rest)) :
    tokens.length = count ∧ ∀ token ∈ tokens, IsToken token := by
  induction count generalizing raw tokens rest with
  | zero =>
      rw [headerTokens, Option.some.injEq, Prod.mk.injEq] at h
      simp [← h.1]
  | succ count ih =>
      rw [headerTokens] at h
      split at h
      · cases h
      · rename_i token more htoken
        split at h
        · cases h
        · rename_i hlen
          obtain ⟨⟨tokens', rest'⟩, htail, heq⟩ := Option.map_eq_some_iff.mp h
          rw [Prod.mk.injEq] at heq
          obtain ⟨rfl, rfl⟩ := heq
          obtain ⟨hcount, htokens⟩ := ih htail
          obtain ⟨hne, hdelim⟩ := strtok_token htoken
          refine ⟨by simp [hcount], ?_⟩
          intro t ht
          rcases List.mem_cons.mp ht with rfl | ht
          · exact ⟨hne, hdelim, Nat.le_of_not_lt hlen⟩
          · exact htokens t ht

/-- The request line and the header as `FillHttpRequestHeader` cuts them out. -/
structure RequestLine (buffer : Bytes) where
  method : Bytes
  path : Bytes
  version : Bytes
  rest : Bytes
  tokens : headerTokens httpHeadCount
      ((cstr buffer).take (getKeywordIndex (cstr buffer) (bytes "\r\n\r\n")).toNat) =
    some ([method, path, version], rest)

def RequestLine.body {buffer : Bytes} (line : RequestLine buffer) : Option Bytes :=
  (firstOccurrence (bytes "\n") line.rest).map fun bodyStart => line.rest.drop (bodyStart + 1)

/-- Every exit of `FillHttpRequestHeader`. -/
theorem fillHttpRequestHeader_cases (header : HttpRequestHeader) (buffer : Bytes) :
    ((fillHttpRequestHeader header buffer).1 = kBadRequest) ∨
    (∃ line : RequestLine buffer,
      fillHttpRequestHeader header buffer = (kNotImplemented,
        { header with
          method := some line.method, path := some line.path, version := some line.version })) ∨
    (∃ line : RequestLine buffer,
      fillHttpRequestHeader header buffer = (0,
        { method := some line.method, path := some line.path, version := some line.version
          body := line.body })) := by
  unfold fillHttpRequestHeader
  simp only
  split
  · exact .inl rfl
  · split
    · rename_i method path version rest htokens
      split
      · exact .inr (.inl ⟨⟨method, path, version, rest, htokens⟩, rfl⟩)
      · refine .inr (.inr ⟨⟨method, path, version, rest, htokens⟩, ?_⟩)
        simp only [RequestLine.body]
        split <;> simp [*]
    · exact .inl rfl

/-- An accepted request has a path, and the path is a token. -/
theorem fillHttpRequestHeader_path {header : HttpRequestHeader} {buffer : Bytes}
    (haccepted : 0 ≤ (fillHttpRequestHeader header buffer).1) :
    ∃ path, (fillHttpRequestHeader header buffer).2.path = some path ∧ IsToken path := by
  rcases fillHttpRequestHeader_cases header buffer with hbad | ⟨line, himpl⟩ | ⟨line, hok⟩
  · rw [hbad] at haccepted
    exact absurd haccepted (by decide)
  · rw [himpl, kNotImplemented] at haccepted
    omega
  · refine ⟨line.path, by rw [hok], ?_⟩
    exact (headerTokens_isToken line.tokens).2 _ (by simp)

end HttpsServ.RequestHeader
