import HttpsServ.KeepAlive
import HttpsServ.RequestGrammar

/-!
# What decides the connection mode and the body encoding

Both options of a connection are found by searching all that the parser keeps
behind the request line. The search is read line by line and compared with the
header fields that are meant to carry the options.
-/

namespace HttpsServ.ConnectionOptions

open ByteString Utility HttpParser Http KeepAlive CaseSearch RequestGrammar Segments

def isKeepAlive (body : Bytes) : Bool := (stristr body (bytes "Keep-Alive")).isSome

/-- At the head of the loop the old value is zero, and it stays without the field name. -/
def isChunkEncoding (body : Bytes) : Bool :=
  (stristr body (bytes "Accept-Encoding: ")).elim false fun acceptEncoding =>
    (stristr acceptEncoding (bytes "chunked")).isSome

/-- `HandleConnection` answers with the two options of the text that is kept of the
request; without a text the search is handed `NULL`. -/
theorem respond_options (env : Env) (c : Conn) (hidle : c.td.isChunkEncoding = false) :
    respond env c =
      c.td.httpHeader.body.elim (.crashed c) fun body => afterSend (sendStaticData env
        { c with td := { c.td with
            isKeepAlive := isKeepAlive body
            isChunkEncoding := isChunkEncoding body } }) := by
  cases hbody : c.td.httpHeader.body with
  | none => simp only [respond, hbody, Option.elim_none]
  | some body =>
      simp only [respond, hbody, hidle, isChunkEncoding, Option.elim_some]
      cases stristr body (bytes "Accept-Encoding: ") with
      | none => rfl
      | some acceptEncoding => rfl

/-- The text carries the word in some case. -/
def Carries (word text : Bytes) : Prop := lowered word <:+: lowered text

/-- Behind an occurrence of `first` in the text, `word` occurs, both in some case. -/
def CarriesBehind (first word text : Bytes) : Prop :=
  Follows (lowered first) (lowered word) (lowered text)

theorem isKeepAlive_iff (body : Bytes) :
    isKeepAlive body = true ↔
      ∃ line ∈ body.splitOn 10, Carries (bytes "Keep-Alive") line := by
  have hne : lowered (bytes "Keep-Alive") ≠ [] := by decide
  have hline : 10 ∉ lowered (bytes "Keep-Alive") := by decide
  rw [isKeepAlive, stristr_isSome_iff _ (by decide), infix_iff_segment hne hline,
    splitOn_lowered (by decide)]
  simp only [Carries, List.mem_map, exists_exists_and_eq_and]

/-- The first occurrence of the field name leaves the longest text to search. -/
theorem isChunkEncoding_iff_behind (body : Bytes) :
    isChunkEncoding body = true ↔
      CarriesBehind (bytes "Accept-Encoding: ") (bytes "chunked") body := by
  rw [isChunkEncoding, stristr_eq body (by decide), CarriesBehind]
  cases hfirst : firstOccurrence (lowered (bytes "Accept-Encoding: ")) (lowered body) with
  | none =>
      simp only [Option.map_none, Option.elim_none, Bool.false_eq_true, false_iff]
      rintro ⟨before, after, heq, -⟩
      have hsome : (firstOccurrence (lowered (bytes "Accept-Encoding: ")) (lowered body)).isSome := by
        rw [firstOccurrence_isSome_iff, heq]
        exact ⟨before, after, by rw [List.append_assoc]⟩
      rw [hfirst] at hsome
      cases hsome
  | some k =>
      obtain ⟨⟨rest, hrest⟩, hbefore⟩ := firstOccurrence_spec hfirst
      have hdrop : lowered (body.drop k) = (lowered body).drop k := List.map_drop
      rw [Option.map_some, Option.elim_some, stristr_isSome_iff _ (by decide), hdrop]
      constructor
      · intro hfound
        refine ⟨(lowered body).take k, rest, by rw [hrest, List.take_append_drop], ?_⟩
        rw [← hrest] at hfound
        exact (infix_append_skip (x := 99) (y := 104) _ rest (by decide) (by decide)).mp hfound
      · rintro ⟨before, after, heq, hword⟩
        have hk : k ≤ before.length := by
          by_contra hlt
          apply hbefore before.length (by omega)
          rw [heq, List.drop_left]
          exact List.prefix_append _ _
        rw [heq, List.drop_append_of_le_length hk]
        exact hword.trans ((List.suffix_append _ after).trans (List.suffix_append _ _)).isInfix

/-- `chunked` occurs in the line, and the field name in front of it, there or in a
line before. -/
def ChunkedShows (before : List Bytes) (line : Bytes) : Prop :=
  (∃ earlier ∈ before, Carries (bytes "Accept-Encoding: ") earlier) ∧
      Carries (bytes "chunked") line ∨
    CarriesBehind (bytes "Accept-Encoding: ") (bytes "chunked") line

theorem isChunkEncoding_iff (body : Bytes) :
    isChunkEncoding body = true ↔
      ∃ before line after, body.splitOn 10 = before ++ line :: after ∧ ChunkedShows before line := by
  have hfirst : lowered (bytes "Accept-Encoding: ") ≠ [] := by decide
  have hfirstLine : 10 ∉ lowered (bytes "Accept-Encoding: ") := by decide
  have hword : lowered (bytes "chunked") ≠ [] := by decide
  have hwordLine : 10 ∉ lowered (bytes "chunked") := by decide
  rw [isChunkEncoding_iff_behind, CarriesBehind,
    follows_iff_segment hfirst hfirstLine hword hwordLine, splitOn_lowered (by decide)]
  constructor
  · rintro ⟨before, line, after, heq, hshows⟩
    obtain ⟨before, rest, hsplit, rfl, hrest⟩ := List.map_eq_append_iff.mp heq
    obtain ⟨line, after, rfl, rfl, rfl⟩ := List.map_eq_cons_iff.mp hrest
    simp only [List.mem_map, exists_exists_and_eq_and] at hshows
    exact ⟨before, line, after, hsplit, hshows⟩
  · rintro ⟨before, line, after, hsplit, hshows⟩
    refine ⟨before.map lowered, lowered line, after.map lowered, by rw [hsplit]; simp, ?_⟩
    simp only [List.mem_map, exists_exists_and_eq_and]
    exact hshows

/-- A request that the parser accepts, and what it keeps of it. -/
structure AcceptedRequest where
  buffer : Bytes
  header : HttpRequestHeader
  accepted : fillHttpRequestHeader {} buffer = (0, header)

variable (r : AcceptedRequest)

/-- The keep-alive and the chunk option; `none` when there is no text to search. -/
def AcceptedRequest.options : Option (Bool × Bool) :=
  r.header.body.map fun body => (isKeepAlive body, isChunkEncoding body)

/-- The header as it stands in the buffer, its blank line included. -/
def AcceptedRequest.headerRaw : Bytes :=
  (cstr r.buffer).take (getKeywordIndex (cstr r.buffer) (bytes "\r\n\r\n")).toNat

/-- The lines behind the first one. -/
def AcceptedRequest.headerLines : List Bytes := (r.headerRaw.splitOn 10).tail

/-- The lines that the two searches see. -/
def AcceptedRequest.seenLines : List Bytes := r.header.body.elim [] fun body => body.splitOn 10

/-- The line is a field with this name, in any case. -/
def IsField (name line : Bytes) : Prop := lowered (name ++ bytes ":") <+: lowered line

instance (name line : Bytes) : Decidable (IsField name line) :=
  inferInstanceAs (Decidable (_ <+: _))

def fieldValue (name line : Bytes) : Bytes := line.drop (name.length + 1)

def AcceptedRequest.fieldLines (name : Bytes) : List Bytes :=
  r.headerLines.filter fun line => IsField name line

/-- The value of a field with this name carries the option. -/
def AcceptedRequest.Asks (name option : Bytes) : Prop :=
  ∃ line ∈ r.fieldLines name, Carries option (fieldValue name line)

theorem headerTokens_suffix {count : Nat} {raw rest : Bytes} {tokens : List Bytes}
    (h : headerTokens count raw = some (tokens, rest)) : rest <:+ raw := by
  induction count generalizing raw tokens rest with
  | zero =>
      obtain ⟨-, rfl⟩ := Prod.mk.inj (Option.some.inj h)
      exact List.suffix_rfl
  | succ count ih =>
      rw [headerTokens] at h
      split at h
      · cases h
      · rename_i token more htoken
        split at h
        · cases h
        · obtain ⟨⟨tokens', rest'⟩, htail, heq⟩ := Option.map_eq_some_iff.mp h
          obtain ⟨-, rfl⟩ := Prod.mk.inj heq
          have hmore := RequestHeader.strtok_suffix isHeadDelim raw
          rw [htoken] at hmore
          exact (ih htail).trans hmore

/-- What is kept of an accepted request stands behind a line feed of its header. -/
theorem AcceptedRequest.body_suffix {body : Bytes} (hbody : r.header.body = some body) :
    10 :: body <:+ r.headerRaw := by
  have haccepted := r.accepted
  simp only [fillHttpRequestHeader] at haccepted
  split at haccepted
  · exact absurd (Prod.mk.inj haccepted).1 (by decide)
  · split at haccepted
    · rename_i method path version rest htokens
      split at haccepted
      · exact absurd (Prod.mk.inj haccepted).1 (by decide)
      · split at haccepted
        · rename_i bodyStart hstart
          obtain ⟨-, hheader⟩ := Prod.mk.inj haccepted
          rw [← hheader] at hbody
          have hrest := firstOccurrence_split hstart
          have hsuffix : 10 :: rest.drop (bodyStart + 1) <:+ rest :=
            ⟨rest.take bodyStart, by
              conv_rhs => rw [hrest]
              rw [List.append_assoc]
              rfl⟩
          rw [← Option.some.inj hbody]
          exact hsuffix.trans (headerTokens_suffix htokens)
        · obtain ⟨-, hheader⟩ := Prod.mk.inj haccepted
          rw [← hheader] at hbody
          cases hbody
    · exact absurd (Prod.mk.inj haccepted).1 (by decide)

theorem AcceptedRequest.seenLines_suffix : r.seenLines <:+ r.headerLines := by
  rw [AcceptedRequest.seenLines]
  cases hbody : r.header.body with
  | none => exact List.nil_suffix
  | some body =>
      obtain ⟨front, hfront⟩ := r.body_suffix hbody
      obtain ⟨first, lines, hlines⟩ := List.exists_cons_of_ne_nil (List.splitOn_ne_nil 10 front)
      refine ⟨lines, ?_⟩
      rw [AcceptedRequest.headerLines, ← hfront, List.splitOn_append_cons_self, hlines]
      rfl

/-- An option whose first two letters do not meet in the name is carried by the value. -/
theorem carries_fieldValue {name option line : Bytes} {x y : UInt8} {word : Bytes}
    (hfield : IsField name line) (hoption : lowered option = x :: y :: word)
    (hpair : ¬ [x, y] <:+: lowered (name ++ bytes ":"))
    (hlast : (lowered (name ++ bytes ":")).getLast? ≠ some x) (hcarries : Carries option line) :
    Carries option (fieldValue name line) := by
  obtain ⟨value, hvalue⟩ := hfield
  have hlength : (lowered (name ++ bytes ":")).length = name.length + 1 := by
    simp [lowered, bytes]
  have hdrop : lowered (fieldValue name line) = value := by
    calc
      lowered (fieldValue name line) = (lowered line).drop (name.length + 1) := List.map_drop
      _ = value := by rw [← hvalue, ← hlength, List.drop_left]
  rw [Carries, hoption, ← hvalue, infix_append_skip word value hpair hlast] at hcarries
  rwa [Carries, hoption, hdrop]

/-- A line that is no `Connection` field carries `keep-alive`. -/
def AcceptedRequest.StrayKeepAlive : Prop :=
  ∃ line ∈ r.seenLines, ¬ IsField (bytes "Connection") line ∧ Carries (bytes "Keep-Alive") line

/-- A line that is no `Accept-Encoding` field shows `chunked` behind that name. -/
def AcceptedRequest.StrayChunked : Prop :=
  ∃ before line after, r.seenLines = before ++ line :: after ∧
    ¬ IsField (bytes "Accept-Encoding") line ∧ ChunkedShows before line

def AcceptedRequest.ShowsKeepAlive : Prop :=
  ∃ line ∈ r.seenLines, Carries (bytes "Keep-Alive") line

def AcceptedRequest.ShowsChunked : Prop :=
  ∃ before line after, r.seenLines = before ++ line :: after ∧ ChunkedShows before line

def AcceptedRequest.AsksKeepAlive : Prop := r.Asks (bytes "Connection") (bytes "keep-alive")

def AcceptedRequest.AsksChunked : Prop := r.Asks (bytes "Accept-Encoding") (bytes "chunked")

/-- A seen field carries the option in its value. -/
theorem AcceptedRequest.asks_of_seen {name option line : Bytes} (hseen : line ∈ r.seenLines)
    (hfield : IsField name line) (hvalue : Carries option (fieldValue name line)) :
    r.Asks name option := by
  refine ⟨line, List.mem_filter.mpr ⟨r.seenLines_suffix.subset hseen, ?_⟩, hvalue⟩
  exact decide_eq_true hfield

theorem AcceptedRequest.keepAlive_stray_or_asks (h : r.ShowsKeepAlive) :
    r.StrayKeepAlive ∨ r.AsksKeepAlive := by
  obtain ⟨line, hseen, hcarries⟩ := h
  by_cases hfield : IsField (bytes "Connection") line
  · right
    apply r.asks_of_seen hseen hfield
    have hcase : lowered (bytes "Keep-Alive") = lowered (bytes "keep-alive") := by decide
    rw [Carries, hcase] at hcarries
    have hletters : lowered (bytes "keep-alive") = 107 :: 101 :: bytes "ep-alive" := by decide
    exact carries_fieldValue hfield hletters (by decide) (by decide) hcarries
  · exact .inl ⟨line, hseen, hfield, hcarries⟩

theorem AcceptedRequest.chunked_stray_or_asks (h : r.ShowsChunked) :
    r.StrayChunked ∨ r.AsksChunked := by
  obtain ⟨before, line, after, hsplit, hshows⟩ := h
  by_cases hfield : IsField (bytes "Accept-Encoding") line
  · right
    apply r.asks_of_seen (by rw [hsplit]; simp) hfield
    have hcarries : Carries (bytes "chunked") line := hshows.elim And.right Follows.carries_word
    have hletters : lowered (bytes "chunked") = 99 :: 104 :: bytes "unked" := by decide
    exact carries_fieldValue hfield hletters (by decide) (by decide) hcarries
  · exact .inl ⟨before, line, after, hsplit, hfield, hshows⟩

/-- The `Connection` and the `Accept-Encoding` field lines are identical. -/
def SameFields (x y : AcceptedRequest) : Prop :=
  x.fieldLines (bytes "Connection") = y.fieldLines (bytes "Connection") ∧
    x.fieldLines (bytes "Accept-Encoding") = y.fieldLines (bytes "Accept-Encoding")

/-- The options of two requests are computed, and from their own fields alone. -/
def OwnFieldsOnly (x y : AcceptedRequest) : Prop :=
  (SameFields x y → ∃ options, x.options = some options ∧ y.options = some options) ∧
    ∀ r ∈ [x, y], ∀ options, r.options = some options →
      (options.1 = true → r.AsksKeepAlive) ∧ (options.2 = true → r.AsksChunked)

/-- There is a text to search; other lines show no option that the fields do not ask
for; and what the same fields ask for is seen in both requests or in none. -/
structure OnlyFieldsShow (x y : AcceptedRequest) : Prop where
  searched : SameFields x y → ¬ LoneGet x.buffer ∧ ¬ LoneGet y.buffer
  keepAlive : ∀ r ∈ [x, y], r.StrayKeepAlive → r.AsksKeepAlive
  chunked : ∀ r ∈ [x, y], r.StrayChunked → r.AsksChunked
  keepAlive_alike : SameFields x y → x.AsksKeepAlive → (x.ShowsKeepAlive ↔ y.ShowsKeepAlive)
  chunked_alike : SameFields x y → x.AsksChunked → (x.ShowsChunked ↔ y.ShowsChunked)

theorem AcceptedRequest.exists_options_iff :
    (∃ options, r.options = some options) ↔ ¬ LoneGet r.buffer := by
  have haccepted : (fillHttpRequestHeader {} r.buffer).1 = 0 := by rw [r.accepted]
  have hbody := fillHttpRequestHeader_body_iff haccepted
  rw [r.accepted] at hbody
  rw [← hbody, ← Option.isSome_iff_exists, AcceptedRequest.options, Option.isSome_map]

/-- The options are what the seen lines show. -/
theorem AcceptedRequest.options_iff_shows {options : Bool × Bool} (h : r.options = some options) :
    (options.1 = true ↔ r.ShowsKeepAlive) ∧ (options.2 = true ↔ r.ShowsChunked) := by
  obtain ⟨body, hbody, rfl⟩ := Option.map_eq_some_iff.mp h
  rw [AcceptedRequest.ShowsKeepAlive, AcceptedRequest.ShowsChunked, AcceptedRequest.seenLines, hbody]
  exact ⟨isKeepAlive_iff body, isChunkEncoding_iff body⟩

/-- Where a line is seen there is a text. -/
theorem AcceptedRequest.options_of_seen {line : Bytes} (h : line ∈ r.seenLines) :
    ∃ options, r.options = some options := by
  rw [AcceptedRequest.seenLines] at h
  cases hbody : r.header.body with
  | none =>
      rw [hbody] at h
      cases h
  | some body => exact ⟨_, by rw [AcceptedRequest.options, hbody, Option.map_some]⟩

/-- Two searches that only find what is asked for agree when they find it alike. -/
theorem option_alike {flag flag' : Bool} {asks asks' : Prop} (hsame : asks ↔ asks')
    (hflag : flag = true → asks) (hflag' : flag' = true → asks')
    (halike : asks → (flag = true ↔ flag' = true)) : flag = flag' := by
  apply Bool.eq_iff_iff.mpr
  constructor
  · intro h
    exact (halike (hflag h)).mp h
  · intro h
    exact (halike (hsame.mpr (hflag' h))).mpr h

/-- Options that the request's own fields decide: none is shown by another line alone. -/
theorem AcceptedRequest.ownFields_iff :
    (∀ options, r.options = some options →
        (options.1 = true → r.AsksKeepAlive) ∧ (options.2 = true → r.AsksChunked)) ↔
      (r.StrayKeepAlive → r.AsksKeepAlive) ∧ (r.StrayChunked → r.AsksChunked) := by
  constructor
  · intro hown
    constructor
    · rintro ⟨line, hseen, -, hcarries⟩
      obtain ⟨options, hoptions⟩ := r.options_of_seen hseen
      have hshows := (r.options_iff_shows hoptions).1
      exact (hown options hoptions).1 (hshows.mpr ⟨line, hseen, hcarries⟩)
    · rintro ⟨before, line, after, hsplit, -, hline⟩
      have hseen : line ∈ r.seenLines := by simp [hsplit]
      obtain ⟨options, hoptions⟩ := r.options_of_seen hseen
      have hshows := (r.options_iff_shows hoptions).2
      exact (hown options hoptions).2 (hshows.mpr ⟨before, line, after, hsplit, hline⟩)
  · rintro ⟨hkeep, hchunk⟩ options hoptions
    obtain ⟨hshowsKeep, hshowsChunk⟩ := r.options_iff_shows hoptions
    constructor
    · intro hflag
      exact (r.keepAlive_stray_or_asks (hshowsKeep.mp hflag)).elim hkeep id
    · intro hflag
      exact (r.chunked_stray_or_asks (hshowsChunk.mp hflag)).elim hchunk id

/-- Exactly when two requests get their options from their own fields. -/
theorem ownFieldsOnly_iff (x y : AcceptedRequest) : OwnFieldsOnly x y ↔ OnlyFieldsShow x y := by
  constructor
  · rintro ⟨hsame, hown⟩
    constructor
    · intro hfields
      obtain ⟨options, hx, hy⟩ := hsame hfields
      exact ⟨x.exists_options_iff.mp ⟨options, hx⟩, y.exists_options_iff.mp ⟨options, hy⟩⟩
    · intro r hr
      exact (r.ownFields_iff.mp (hown r hr)).1
    · intro r hr
      exact (r.ownFields_iff.mp (hown r hr)).2
    · intro hfields _
      obtain ⟨options, hx, hy⟩ := hsame hfields
      exact (x.options_iff_shows hx).1.symm.trans (y.options_iff_shows hy).1
    · intro hfields _
      obtain ⟨options, hx, hy⟩ := hsame hfields
      exact (x.options_iff_shows hx).2.symm.trans (y.options_iff_shows hy).2
  · intro h
    have hown : ∀ r ∈ [x, y], ∀ options, r.options = some options →
        (options.1 = true → r.AsksKeepAlive) ∧ (options.2 = true → r.AsksChunked) := by
      intro r hr
      exact r.ownFields_iff.mpr ⟨h.keepAlive r hr, h.chunked r hr⟩
    refine ⟨fun hfields => ?_, hown⟩
    obtain ⟨hlone, hlone'⟩ := h.searched hfields
    obtain ⟨⟨keep, chunk⟩, hx⟩ := x.exists_options_iff.mpr hlone
    obtain ⟨⟨keep', chunk'⟩, hy⟩ := y.exists_options_iff.mpr hlone'
    obtain ⟨hkeep, hchunk⟩ := hown x (by simp) _ hx
    obtain ⟨hkeep', hchunk'⟩ := hown y (by simp) _ hy
    obtain ⟨hshowsKeep, hshowsChunk⟩ := x.options_iff_shows hx
    obtain ⟨hshowsKeep', hshowsChunk'⟩ := y.options_iff_shows hy
    have hkeepEq : keep = keep' := by
      apply option_alike _ hkeep hkeep'
      · intro hasks
        exact hshowsKeep.trans ((h.keepAlive_alike hfields hasks).trans hshowsKeep'.symm)
      · simp only [AcceptedRequest.AsksKeepAlive, AcceptedRequest.Asks, hfields.1]
    have hchunkEq : chunk = chunk' := by
      apply option_alike _ hchunk hchunk'
      · intro hasks
        exact hshowsChunk.trans ((h.chunked_alike hfields hasks).trans hshowsChunk'.symm)
      · simp only [AcceptedRequest.AsksChunked, AcceptedRequest.Asks, hfields.2]
    exact ⟨(keep, chunk), hx, by rw [hy, hkeepEq, hchunkEq]⟩

/-- A cookie keeps the connection open. -/
def cookieRequest : AcceptedRequest where
  buffer := bytes "GET / HTTP/1.1\r\nCookie: keep-alive\r\n\r\n"
  header := ⟨some (bytes "GET"), some (bytes "/"), some (bytes "HTTP/1.1"),
    some (bytes "Cookie: keep-alive\r\n\r\n")⟩
  accepted := by decide

def plainRequest : AcceptedRequest where
  buffer := bytes "GET / HTTP/1.1\r\nHost: a\r\n\r\n"
  header := ⟨some (bytes "GET"), some (bytes "/"), some (bytes "HTTP/1.1"),
    some (bytes "Host: a\r\n\r\n")⟩
  accepted := by decide

theorem cookie_sets_keepAlive : ¬ ∀ x y, OwnFieldsOnly x y := by
  intro h
  have hsame : SameFields cookieRequest plainRequest := ⟨by decide, by decide⟩
  have hdiffer : cookieRequest.options ≠ plainRequest.options := by decide
  obtain ⟨options, hcookie, hplain⟩ := (h cookieRequest plainRequest).1 hsame
  exact hdiffer (hcookie.trans hplain.symm)

end HttpsServ.ConnectionOptions
