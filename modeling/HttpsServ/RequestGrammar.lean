import HttpsServ.RequestWords
import HttpsServ.Transport

/-!
# Request lines and what is taken for one

The parser looks for a blank line and for three words in front of it, not for
the end of the request line, and for `GET` somewhere in the first word. What it
accepts is compared with the requests that its results are meant to stand for.
-/

namespace HttpsServ.RequestGrammar

open ByteString Utility HttpParser Http Transport ErrorResponse RequestHeader CaseSearch
  HeaderBlock Words RequestWords

/-- The method carries `GET` in some case. -/
def NamesGet (method : Bytes) : Prop := lowered (bytes "GET") <:+: lowered method

instance (method : Bytes) : Decidable (NamesGet method) :=
  inferInstanceAs (Decidable (lowered (bytes "GET") <:+: lowered method))

/-- The text in front of the first blank line gives three words of admissible
length, counting the line feeds of the blank line. -/
structure Taken (buffer text method path version : Bytes) : Prop where
  head : headText buffer = some text
  tokens : takenWords text = [method, path, version]
  short : ∀ w ∈ [method, path, version], w.length ≤ maxUrlSize

/-- With the first word there are two more. -/
theorem takenWords_cases {text method : Bytes} {more : List Bytes}
    (h : words isHeadDelim text = method :: more) :
    ∃ path version, takenWords text = [method, path, version] ∧
      [path, version] = (more ++ [[10], [10]]).take 2 := by
  have htake : takenWords text = method :: (more ++ [[10], [10]]).take 2 := by
    rw [takenWords, h]
    rfl
  have hlen : ((more ++ [[10], [10]]).take 2).length = 2 := by
    simp
  obtain ⟨path, version, hpair⟩ := List.length_eq_two.mp hlen
  exact ⟨path, version, by rw [htake, hpair], hpair.symm⟩

/-- A refusal of the buffer: the header is left alone or released. -/
def Refused (buffer : Bytes) : Prop :=
  ∀ header, fillHttpRequestHeader header buffer = (kBadRequest, header) ∨
    fillHttpRequestHeader header buffer = (kBadRequest, {})

theorem Refused.result {buffer : Bytes} (h : Refused buffer) (header : HttpRequestHeader) :
    (fillHttpRequestHeader header buffer).1 = kBadRequest := by
  rcases h header with hfill | hfill <;> rw [hfill]

/-- Where nothing is taken the buffer is refused. -/
theorem taken_or_refused (buffer : Bytes) :
    (∃ text method path version, Taken buffer text method path version) ∨ Refused buffer := by
  cases hhead : headText buffer with
  | none => exact .inr fun header => .inl (fillHttpRequestHeader_of_no_head hhead header)
  | some text =>
      cases hwords : words isHeadDelim text with
      | nil =>
          exact .inr fun header =>
            .inr (fillHttpRequestHeader_of_bad_words hhead (.inl hwords) header)
      | cons method more =>
          obtain ⟨path, version, htaken, -⟩ := takenWords_cases hwords
          by_cases hlong : ∃ w ∈ takenWords text, maxUrlSize < w.length
          · exact .inr fun header =>
              .inr (fillHttpRequestHeader_of_bad_words hhead (.inr hlong) header)
          · refine .inl ⟨text, method, path, version, hhead, htaken, ?_⟩
            intro w hw
            rw [← htaken] at hw
            exact Nat.le_of_not_lt fun hw' => hlong ⟨w, hw, hw'⟩

section Taken

variable {buffer text method path version : Bytes} (h : Taken buffer text method path version)
include h

/-- The method is the first word in front of the blank line. -/
theorem Taken.exists_words : ∃ more, words isHeadDelim text = method :: more := by
  have htaken := h.tokens
  rw [takenWords] at htaken
  have hthree : httpHeadCount = 3 := rfl
  cases hwords : words isHeadDelim text with
  | nil =>
      have hlen := congrArg List.length htaken
      simp [hwords, hthree] at hlen
  | cons w more =>
      rw [hwords, hthree, List.cons_append, List.take_succ_cons, List.cons.injEq] at htaken
      exact ⟨more, by rw [htaken.1]⟩

theorem Taken.no_delim : ∀ w ∈ [method, path, version], ∀ b ∈ w, isHeadDelim b = false := by
  intro w hw
  rw [← h.tokens, takenWords, ← words_head] at hw
  exact (mem_words (List.mem_of_mem_take hw)).2.1

/-- A taken request whose method does not carry `GET`. -/
theorem Taken.fill_of_other (hget : ¬ NamesGet method) (header : HttpRequestHeader) :
    fillHttpRequestHeader header buffer =
      (kNotImplemented,
        { header with
          method := some method
          path := some path
          version := some version }) := by
  obtain ⟨rest, -, hfill⟩ := fillHttpRequestHeader_of_words h.head h.tokens h.short
  have hnone : (stristr method (bytes "GET")).isNone = true := by
    rw [← Option.not_isSome, Bool.not_eq_true', Bool.eq_false_iff, ne_eq,
      stristr_isSome_iff _ (by decide)]
    exact hget
  rw [hfill, if_pos hnone]

/-- A taken request whose method carries `GET`. -/
theorem Taken.fill_of_get (hget : NamesGet method) :
    ∃ body : Option Bytes, (body.isSome = true ↔ 2 ≤ (words isHeadDelim text).length) ∧
      ∀ header, fillHttpRequestHeader header buffer =
        (0,
          { method := some method
            path := some path
            version := some version
            body := body }) := by
  obtain ⟨rest, hrest, hfill⟩ := fillHttpRequestHeader_of_words h.head h.tokens h.short
  have hsome : (stristr method (bytes "GET")).isNone = false := by
    rw [← Option.not_isSome, Bool.not_eq_false', stristr_isSome_iff _ (by decide)]
    exact hget
  refine ⟨_, ?_, fun header => by rw [hfill, hsome, if_neg Bool.false_ne_true]⟩
  rw [Option.isSome_map, lineFeed_found_iff, lineFeed_in_rest_iff hrest]

end Taken

/-- The accepted requests are those that are taken with a `GET`. -/
theorem fillHttpRequestHeader_accepted_iff (header : HttpRequestHeader) (buffer : Bytes) :
    (fillHttpRequestHeader header buffer).1 = 0 ↔
      ∃ text method path version, Taken buffer text method path version ∧ NamesGet method := by
  constructor
  · intro haccepted
    rcases taken_or_refused buffer with ⟨text, method, path, version, htaken⟩ | hrefused
    · refine ⟨text, method, path, version, htaken, ?_⟩
      by_contra hget
      rw [htaken.fill_of_other hget] at haccepted
      exact absurd haccepted (show kNotImplemented ≠ 0 by decide)
    · rw [hrefused.result] at haccepted
      exact absurd haccepted (by decide)
  · rintro ⟨text, method, path, version, htaken, hget⟩
    obtain ⟨body, -, hfill⟩ := htaken.fill_of_get hget
    rw [hfill]

/-- A request is accepted or refused with an error that has a description. -/
theorem fillHttpRequestHeader_code (header : HttpRequestHeader) (buffer : Bytes) :
    (fillHttpRequestHeader header buffer).1 = 0 ∨
      ∃ e : HttpError, (fillHttpRequestHeader header buffer).1 = e.code := by
  rcases taken_or_refused buffer with ⟨text, method, path, version, htaken⟩ | hrefused
  · by_cases hget : NamesGet method
    · obtain ⟨body, -, hfill⟩ := htaken.fill_of_get hget
      exact .inl (by rw [hfill])
    · exact .inr ⟨.notImplemented, by rw [htaken.fill_of_other hget]; rfl⟩
  · exact .inr ⟨.badRequest, hrefused.result header⟩

/-- Every field that the connection loop reads is set. -/
structure Populated (header : HttpRequestHeader) : Prop where
  method : header.method.isSome = true
  path : header.path.isSome = true
  version : header.version.isSome = true
  body : header.body.isSome = true

/-- One word in front of the blank line, and it carries `GET`. -/
def LoneGet (buffer : Bytes) : Prop :=
  ∃ text method, headText buffer = some text ∧ words isHeadDelim text = [method] ∧
    NamesGet method ∧ method.length ≤ maxUrlSize

theorem loneGet_congr {buffer buffer' : Bytes} (h : cstr buffer = cstr buffer') :
    LoneGet buffer ↔ LoneGet buffer' := by
  simp only [LoneGet, headText, h]

/-- An accepted request has a body unless it is a single word. -/
theorem fillHttpRequestHeader_body_iff {header : HttpRequestHeader} {buffer : Bytes}
    (haccepted : (fillHttpRequestHeader header buffer).1 = 0) :
    (fillHttpRequestHeader header buffer).2.body.isSome = true ↔ ¬ LoneGet buffer := by
  obtain ⟨text, method, path, version, htaken, hget⟩ :=
    (fillHttpRequestHeader_accepted_iff header buffer).mp haccepted
  obtain ⟨body, hbody, hfill⟩ := htaken.fill_of_get hget
  obtain ⟨more, hwords⟩ := htaken.exists_words
  rw [hfill, hbody, hwords]
  cases more with
  | nil =>
      refine ⟨fun hmany => absurd hmany (by simp), fun hmore => absurd ?_ hmore⟩
      exact ⟨text, method, htaken.head, hwords, hget, htaken.short _ (by simp)⟩
  | cons w more =>
      refine ⟨fun _ hlone => ?_, fun _ => by simp⟩
      obtain ⟨text', method', hhead, hone, -, -⟩ := hlone
      obtain rfl : text = text' := Option.some.inj (htaken.head.symm.trans hhead)
      rw [hwords] at hone
      cases hone

theorem LoneGet.taken {buffer : Bytes} (h : LoneGet buffer) :
    ∃ text method, Taken buffer text method [10] [10] ∧ NamesGet method ∧
      words isHeadDelim text = [method] := by
  obtain ⟨text, method, hhead, hwords, hget, hlen⟩ := h
  refine ⟨text, method, ⟨hhead, by rw [takenWords, hwords]; rfl, ?_⟩, hget, hwords⟩
  intro w hw
  have hone : ([10] : Bytes).length ≤ maxUrlSize := by decide
  simp only [List.mem_cons, List.not_mem_nil, or_false] at hw
  rcases hw with rfl | rfl | rfl
  · exact hlen
  · exact hone
  · exact hone

/-- An accepted request is fully populated unless it is a single word. -/
theorem fillHttpRequestHeader_populates_iff (header : HttpRequestHeader) (buffer : Bytes) :
    ((fillHttpRequestHeader header buffer).1 = 0 →
        Populated (fillHttpRequestHeader header buffer).2) ↔ ¬ LoneGet buffer := by
  constructor
  · intro hpopulated hlone
    obtain ⟨text, method, htaken, hget, -⟩ := hlone.taken
    have haccepted := (fillHttpRequestHeader_accepted_iff header buffer).mpr
      ⟨text, method, [10], [10], htaken, hget⟩
    exact (fillHttpRequestHeader_body_iff haccepted).mp (hpopulated haccepted).body hlone
  · intro hmore haccepted
    obtain ⟨text, method, path, version, htaken, hget⟩ :=
      (fillHttpRequestHeader_accepted_iff header buffer).mp haccepted
    obtain ⟨body, -, hfill⟩ := htaken.fill_of_get hget
    have hbody := (fillHttpRequestHeader_body_iff haccepted).mpr hmore
    rw [hfill] at hbody ⊢
    exact ⟨rfl, rfl, rfl, hbody⟩

/-- A lone `GET` is accepted, and there is no body to search. -/
theorem fillHttpRequestHeader_lone_get :
    (fillHttpRequestHeader {} (bytes "GET\r\n\r\n")).1 = 0 ∧
      ¬ Populated (fillHttpRequestHeader {} (bytes "GET\r\n\r\n")).2 := by
  refine ⟨by decide, fun hpopulated => ?_⟩
  have hbody := hpopulated.body
  revert hbody
  decide

/-- The text in front of the first line end. -/
def requestLine (buffer : Bytes) : Option Bytes :=
  (firstOccurrence crlf (cstr buffer)).map (cstr buffer).take

def isSpace (b : UInt8) : Bool := b == 32

/-- A request line of exactly three tokens between spaces. -/
structure WellFormed (buffer method path version : Bytes) : Prop where
  line : ∃ line, requestLine buffer = some line ∧ words isSpace line = [method, path, version]
  no_lf : ∀ w ∈ [method, path, version], 10 ∉ w
  short : ∀ w ∈ [method, path, version], w.length ≤ maxUrlSize

/-- Path and version of a header that was left alone, released, or filled with
the second and the third token of the request line. -/
def FromRequestLine (buffer : Bytes) (before after : HttpRequestHeader) : Prop :=
  after = before ∨ after = {} ∨
    ∃ line, requestLine buffer = some line ∧
      after.path = (words isHeadDelim line)[1]? ∧ after.version = (words isHeadDelim line)[2]?

/-- What a call owes a buffer that it comes back from with a code: three tokens for an
accepted one, and an error for one that is not well formed. -/
structure RejectsMalformed (buffer : Bytes) (before : HttpRequestHeader) (code : Int)
    (after : HttpRequestHeader) : Prop where
  accepted : code = 0 → ∃ method path version, WellFormed buffer method path version ∧
    after.method = some method ∧ after.path = some path ∧ after.version = some version
  refused : (¬ ∃ method path version, WellFormed buffer method path version) →
    code < 0 ∧ FromRequestLine buffer before after

/-- The request line of a complete header stands at its start. -/
theorem exists_requestLine {buffer text : Bytes} (h : headText buffer = some text) :
    ∃ line, requestLine buffer = some line ∧
      (text = line ∨ ∃ more, text = line ++ 13 :: more) := by
  obtain ⟨i, hi, rfl⟩ := Option.map_eq_some_iff.mp h
  have hat : crlf <+: (cstr buffer).drop i :=
    (show crlf <+: blankLine by decide).trans (firstOccurrence_spec hi).1
  obtain ⟨k, hk⟩ : ∃ k, firstOccurrence crlf (cstr buffer) = some k := by
    rw [← Option.isSome_iff_exists, firstOccurrence_isSome_iff]
    exact hat.isInfix.trans (List.drop_suffix i _).isInfix
  obtain ⟨⟨rest, hrest⟩, hfirst⟩ := firstOccurrence_spec hk
  have hle : k ≤ i := Nat.le_of_not_lt fun hlt => hfirst i hlt hat
  refine ⟨(cstr buffer).take k, by rw [requestLine, hk]; rfl, ?_⟩
  rcases Nat.eq_or_lt_of_le hle with rfl | hlt
  · exact .inl rfl
  · obtain ⟨n, rfl⟩ := Nat.exists_eq_add_of_lt hlt
    refine .inr ⟨(10 :: rest).take n, ?_⟩
    rw [Nat.add_assoc, List.take_add, ← hrest]
    rfl

/-- The words of the request line come first. -/
theorem exists_words_line {text line : Bytes}
    (h : text = line ∨ ∃ more, text = line ++ 13 :: more) :
    ∃ more, words isHeadDelim text = words isHeadDelim line ++ more := by
  rcases h with rfl | ⟨more, rfl⟩
  · exact ⟨[], (List.append_nil _).symm⟩
  · exact ⟨_, words_append (by decide) line more⟩

/-- The whole line is the three words and spaces between them. -/
structure PlainLine (line : Bytes) : Prop where
  no_cr : 13 ∉ line
  no_lf : 10 ∉ line
  three : (words isHeadDelim line).length = httpHeadCount

theorem words_of_no_cr {line : Bytes} (h : 13 ∉ line) :
    words isHeadDelim line = words isSpace line := by
  apply words_congr
  intro b hb
  have hne : b ≠ 13 := fun heq => h (heq ▸ hb)
  simp [isHeadDelim, isSpace, hne]

/-- A request that is taken from a plain line is the line's. -/
theorem Taken.wellFormed {buffer text method path version line : Bytes}
    (h : Taken buffer text method path version) (hline : requestLine buffer = some line)
    (hplain : PlainLine line) : WellFormed buffer method path version := by
  obtain ⟨line', hline', hstart⟩ := exists_requestLine h.head
  obtain rfl : line = line' := Option.some.inj (hline.symm.trans hline')
  obtain ⟨more, hmore⟩ := exists_words_line hstart
  have hwords : words isHeadDelim line = [method, path, version] := by
    have htokens := h.tokens
    rw [takenWords, hmore, List.append_assoc, List.take_left' hplain.three] at htokens
    exact htokens
  refine ⟨⟨line, hline, by rw [← words_of_no_cr hplain.no_cr, hwords]⟩, ?_, h.short⟩
  intro w hw hlf
  rw [← hwords] at hw
  exact hplain.no_lf ((mem_words hw).2.2 10 hlf)

/-- The line of a well-formed request with tokens that the parser can take is plain. -/
theorem WellFormed.plainLine {buffer method path version line : Bytes}
    (h : WellFormed buffer method path version) (hline : requestLine buffer = some line)
    (htokens : ∀ w ∈ [method, path, version], ∀ b ∈ w, isHeadDelim b = false) :
    PlainLine line := by
  obtain ⟨line', hline', hwords⟩ := h.line
  obtain rfl : line = line' := Option.some.inj (hline.symm.trans hline')
  have hno : ∀ b ∈ line, b ≠ 13 ∧ b ≠ 10 := by
    intro b hb
    by_cases hspace : isSpace b = true
    · rw [isSpace, beq_iff_eq] at hspace
      subst hspace
      decide
    · obtain ⟨w, hw, hbw⟩ := exists_mem_words hb (Bool.eq_false_iff.mpr hspace)
      rw [hwords] at hw
      constructor
      · rintro rfl
        exact absurd (htokens w hw 13 hbw) (by decide)
      · rintro rfl
        exact h.no_lf w hw hbw
  have hcr : 13 ∉ line := fun hmem => (hno 13 hmem).1 rfl
  refine ⟨hcr, fun hmem => (hno 10 hmem).2 rfl, ?_⟩
  rw [words_of_no_cr hcr, hwords]
  rfl

/-- A line with three words is the source of all three that are taken. -/
theorem Taken.words_line {buffer text method path version line : Bytes}
    (h : Taken buffer text method path version) (hline : requestLine buffer = some line)
    (hthree : httpHeadCount ≤ (words isHeadDelim line).length) :
    ∃ more, words isHeadDelim line = method :: path :: version :: more := by
  obtain ⟨line', hline', hstart⟩ := exists_requestLine h.head
  obtain rfl : line = line' := Option.some.inj (hline.symm.trans hline')
  obtain ⟨more, hmore⟩ := exists_words_line hstart
  have htokens := h.tokens
  rw [takenWords, hmore, List.append_assoc, List.take_append_of_le_length hthree] at htokens
  refine ⟨(words isHeadDelim line).drop httpHeadCount, ?_⟩
  conv_lhs => rw [← List.take_append_drop httpHeadCount (words isHeadDelim line), htokens]
  rfl

/-- A request that is accepted has to have a plain line. -/
theorem Taken.rejects_iff_of_get {buffer text method path version line : Bytes}
    (h : Taken buffer text method path version) (hline : requestLine buffer = some line)
    (hget : NamesGet method) (header : HttpRequestHeader) :
    RejectsMalformed buffer header (fillHttpRequestHeader header buffer).1
        (fillHttpRequestHeader header buffer).2 ↔
      PlainLine line := by
  obtain ⟨body, -, hfill⟩ := h.fill_of_get hget
  rw [hfill]
  constructor
  · intro hrejects
    obtain ⟨method', path', version', hwell, hmethod, hpath, hversion⟩ := hrejects.accepted rfl
    rw [Option.some.injEq] at hmethod hpath hversion
    subst hmethod hpath hversion
    exact hwell.plainLine hline h.no_delim
  · intro hplain
    have hwell := h.wellFormed hline hplain
    exact ⟨fun _ => ⟨_, _, _, hwell, rfl, rfl, rfl⟩, fun hnone => absurd ⟨_, _, _, hwell⟩ hnone⟩

/-- A request with another method stores what it has taken. -/
theorem Taken.rejects_of_other {buffer text method path version line : Bytes}
    (h : Taken buffer text method path version) (hline : requestLine buffer = some line)
    (hget : ¬ NamesGet method)
    (hmany : httpHeadCount ≤ (words isHeadDelim line).length ∨
      ∃ method path version, WellFormed buffer method path version)
    (header : HttpRequestHeader) :
    RejectsMalformed buffer header (fillHttpRequestHeader header buffer).1
      (fillHttpRequestHeader header buffer).2 := by
  rw [h.fill_of_other hget]
  refine ⟨fun haccepted => absurd haccepted (show kNotImplemented ≠ 0 by decide), fun hnone => ?_⟩
  obtain ⟨more, hwords⟩ := h.words_line hline (hmany.resolve_right hnone)
  refine ⟨show kNotImplemented < 0 by decide, .inr (.inr ⟨line, hline, ?_⟩)⟩
  rw [hwords]
  exact ⟨rfl, rfl⟩

/-- Where the header was empty, the version that is stored has to come from the line. -/
theorem Taken.many_of_rejects {buffer text method path version line : Bytes}
    (h : Taken buffer text method path version) (hline : requestLine buffer = some line)
    (hget : ¬ NamesGet method)
    (hrejects : RejectsMalformed buffer {} (fillHttpRequestHeader {} buffer).1
      (fillHttpRequestHeader {} buffer).2) :
    httpHeadCount ≤ (words isHeadDelim line).length ∨
      ∃ method path version, WellFormed buffer method path version := by
  by_contra hfew
  rw [not_or] at hfew
  obtain ⟨-, hfrom⟩ := hrejects.refused hfew.2
  rw [h.fill_of_other hget] at hfrom
  rcases hfrom with hsame | hsame | ⟨line', hline', -, hversion⟩
  · cases hsame
  · cases hsame
  · obtain rfl : line = line' := Option.some.inj (hline.symm.trans hline')
    have hsome := List.getElem?_eq_some_iff.mp hversion.symm
    exact hfew.1 hsome.1

/-- The calls between an accepted request and `SendStaticData`. -/
def isOpening : Event → Bool
  | .logMessage _ _ => true
  | .fopen _ _ => true
  | _ => false

/-- Only the method `GET` is served: any other is answered with an error, and
the connection makes no call on the way to `OpenStaticFile`. -/
structure OnlyGetServed (buffer method : Bytes) : Prop where
  result : ∀ header, (fillHttpRequestHeader header buffer).1 =
    if method = bytes "GET" then 0 else kNotImplemented
  unopened : method ≠ bytes "GET" → ∀ (env : Env) (c : Conn),
    c.td.requestBuffer.cells ++ c.td.responseBuffer.cells = buffer →
      ∃ events, (handleRequest env c).conn.log = c.log ++ events ∧
        ∀ e ∈ events, isOpening e = false

/-- A well-formed request in front of a blank line is taken. -/
theorem WellFormed.taken {buffer text method path version : Bytes}
    (h : WellFormed buffer method path version) (hhead : headText buffer = some text)
    (hcr : ∀ w ∈ [method, path, version], 13 ∉ w) : Taken buffer text method path version := by
  obtain ⟨line, hline, hwords⟩ := h.line
  obtain ⟨line', hline', hstart⟩ := exists_requestLine hhead
  obtain rfl : line = line' := Option.some.inj (hline.symm.trans hline')
  obtain ⟨more, hmore⟩ := exists_words_line hstart
  have hline_cr : 13 ∉ line := by
    intro hmem
    have hword : isSpace 13 = false := by decide
    obtain ⟨w, hw, hcr'⟩ := exists_mem_words hmem hword
    rw [hwords] at hw
    exact hcr w hw hcr'
  refine ⟨hhead, ?_, h.short⟩
  rw [takenWords, hmore, words_of_no_cr hline_cr, hwords]
  rfl

theorem failRequest_unopened (env : Env) (errorCode : Int) (problemName : Bytes) (c : Conn) :
    ∃ events, (failRequest env errorCode problemName c).conn.log = c.log ++ events ∧
      ∀ e ∈ events, isOpening e = false := by
  rw [failRequest]
  split
  · refine ⟨[], (List.append_nil _).symm, ?_⟩
    intro e he
    cases he
  · rename_i c' hsome
    obtain ⟨hfile, buffer, result, hlog⟩ := handleError_log hsome
    refine ⟨.write .error buffer result :: closingCalls c'.td.staticFile, ?_, ?_⟩
    · rw [Outcome.conn, freeThreadData_log_eq, hlog, List.append_assoc]
      rfl
    · rw [List.forall_mem_cons]
      refine ⟨rfl, ?_⟩
      cases c'.td.staticFile <;> simp [closingCalls, isOpening]

/-- A request that the parser refuses comes nowhere near the file. -/
theorem handleRequest_unopened (env : Env) {c : Conn}
    (hcode : (fillHttpRequestHeader c.td.httpHeader
      (c.td.requestBuffer.cells ++ c.td.responseBuffer.cells)).1 < 0) :
    ∃ events, (handleRequest env c).conn.log = c.log ++ events ∧
      ∀ e ∈ events, isOpening e = false := by
  cases hparse : fillHttpRequestHeader c.td.httpHeader
    (c.td.requestBuffer.cells ++ c.td.responseBuffer.cells) with
  | mk code header =>
      rw [hparse] at hcode
      rw [handleRequest_refused env hparse hcode]
      obtain ⟨events, hlog, hquiet⟩ := failRequest_unopened env code (bytes "Your request")
        ({ c with td := { c.td with httpHeader := header } }.emit .parse)
      refine ⟨.parse :: events, ?_, ?_⟩
      · rw [hlog, Conn.emit, List.append_assoc]
        rfl
      · rw [List.forall_mem_cons]
        exact ⟨rfl, hquiet⟩

/-- A complete request with three proper tokens is treated by its method exactly
where the method is `GET` or does not carry it. -/
theorem onlyGetServed_iff {buffer method path version : Bytes}
    (hwell : WellFormed buffer method path version)
    (hcr : ∀ w ∈ [method, path, version], 13 ∉ w) :
    OnlyGetServed buffer method ↔
      (headText buffer).isSome = true ∧ (method = bytes "GET" ∨ ¬ NamesGet method) := by
  have hdiffer : (0 : Int) ≠ kNotImplemented := by decide
  cases hhead : headText buffer with
  | none =>
      have hbad := fillHttpRequestHeader_of_no_head hhead {}
      constructor
      · intro h
        have hresult := h.result {}
        rw [hbad] at hresult
        split at hresult <;> exact absurd hresult (by decide)
      · rintro ⟨hnone, -⟩
        cases hnone
  | some text =>
      have htaken := hwell.taken hhead hcr
      by_cases hget : NamesGet method
      · obtain ⟨body, -, hfill⟩ := htaken.fill_of_get hget
        constructor
        · intro h
          refine ⟨rfl, .inl ?_⟩
          by_contra hother
          have hresult := h.result {}
          rw [hfill, if_neg hother] at hresult
          exact hdiffer hresult
        · rintro ⟨-, rfl | hother⟩
          · refine ⟨fun header => by rw [hfill, if_pos rfl], fun hne => absurd rfl hne⟩
          · exact absurd hget hother
      · have hne : method ≠ bytes "GET" := by
          rintro rfl
          exact hget (by decide)
        have hfill := htaken.fill_of_other hget
        refine ⟨fun _ => ⟨rfl, .inr hget⟩, fun _ => ⟨fun header => ?_, fun _ env c hbuffer => ?_⟩⟩
        · rw [hfill, if_neg hne]
        · apply handleRequest_unopened
          rw [hbuffer, hfill]
          show kNotImplemented < 0
          decide

theorem onlyGetServed_get :
    OnlyGetServed (bytes "GET / HTTP/1.1\r\n\r\n") (bytes "GET") := by
  have hwell : WellFormed (bytes "GET / HTTP/1.1\r\n\r\n") (bytes "GET") (bytes "/")
      (bytes "HTTP/1.1") :=
    ⟨⟨bytes "GET / HTTP/1.1", by decide, by decide⟩, by decide, by decide⟩
  exact (onlyGetServed_iff hwell (by decide)).mpr ⟨by decide, .inl rfl⟩

/-- The method `FORGET` is served as `GET`. -/
theorem onlyGetServed_forget :
    WellFormed (bytes "FORGET / HTTP/1.1\r\n\r\n") (bytes "FORGET") (bytes "/")
        (bytes "HTTP/1.1") ∧
      ¬ OnlyGetServed (bytes "FORGET / HTTP/1.1\r\n\r\n") (bytes "FORGET") := by
  constructor
  · exact ⟨⟨bytes "FORGET / HTTP/1.1", by decide, by decide⟩, by decide, by decide⟩
  · intro h
    have hresult := h.result {}
    revert hresult
    decide

end HttpsServ.RequestGrammar
