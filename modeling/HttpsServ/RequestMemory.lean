import HttpsServ.RequestGrammar

/-!
# The memory of the request parser

`FillHttpRequestHeader` once more, with the blocks that it takes and gives back.
The working copy is a block with a cursor, which `strtok_r` moves, and a string
of the header is known by its block.
-/

namespace HttpsServ.RequestMemory

open ByteString Utility HttpParser Words RequestWords RequestGrammar

inductive Block
  | workingCopy
  | token (i : Nat)
  | body
  /-- Obtained before the call. -/
  | earlier (i : Nat)
  deriving DecidableEq

inductive MemoryCall
  | malloc (block : Block)
  /-- `free` of a pointer into a block. -/
  | free (block : Block) (offset : Nat)
  deriving DecidableEq

/-- A string on the heap. -/
structure Copy where
  block : Block
  text : Bytes

/-- `struct HttpRequestHeader` with the blocks of its strings. -/
structure OwnedHeader where
  method : Option Copy := none
  path : Option Copy := none
  version : Option Copy := none
  body : Option Copy := none

def OwnedHeader.strings (header : OwnedHeader) : List Copy :=
  header.method.toList ++ header.path.toList ++ header.version.toList ++ header.body.toList

def OwnedHeader.values (header : OwnedHeader) : HttpRequestHeader where
  method := header.method.map Copy.text
  path := header.path.map Copy.text
  version := header.version.map Copy.text
  body := header.body.map Copy.text

/-- The calls of `FreeHttpRequestHeader`. -/
def OwnedHeader.freeHttpRequestHeader (header : OwnedHeader) : List MemoryCall :=
  header.strings.map fun s => .free s.block 0

/-- `strtok_r` on a block from a cursor: the token, and the cursor afterwards. -/
def strtokAt (isDelim : UInt8 → Bool) (raw : Bytes) (cursor : Nat) : Option Bytes × Nat :=
  let start := cursor + ((raw.drop cursor).takeWhile isDelim).length
  if raw.drop start = [] then (none, start)
  else
    let token := (raw.drop start).takeWhile fun b => !isDelim b
    let stop := start + token.length
    (some token, if raw.drop stop = [] then stop else stop + 1)

structure TokenLoop where
  copies : List Copy
  cursor : Nat
  finished : Bool

/-- The token loop from pass `i` on, with the cursor where it ends. -/
def tokenLoop (raw : Bytes) : Nat → Nat → Nat → TokenLoop
  | 0, _, cursor => { copies := [], cursor := cursor, finished := true }
  | count + 1, i, cursor =>
      match strtokAt isHeadDelim raw cursor with
      | (none, cursor) => { copies := [], cursor := cursor, finished := false }
      | (some token, cursor) =>
          if token.length > maxUrlSize then
            { copies := [], cursor := cursor, finished := false }
          else
            let loop := tokenLoop raw count (i + 1) cursor
            { loop with copies := ⟨.token i, token⟩ :: loop.copies }

structure Filled where
  result : Int
  header : OwnedHeader
  calls : List MemoryCall

/-- `FillHttpRequestHeader` with its memory calls. -/
def OwnedHeader.fillHttpRequestHeader (header : OwnedHeader) (buffer : Bytes) : Filled :=
  let httpHeaderLength := getKeywordIndex (cstr buffer) (bytes "\r\n\r\n")
  if httpHeaderLength = otherError then
    { result := kBadRequest, header := header, calls := [] }
  else
    let httpHeaderRaw := (cstr buffer).take httpHeaderLength.toNat
    let loop := tokenLoop httpHeaderRaw httpHeadCount 0 0
    let obtained := .malloc .workingCopy :: loop.copies.map fun copy => .malloc copy.block
    -- the cursor is freed here, and the copies of this call are in no header yet
    let failed : Filled :=
      { result := kBadRequest
        header := {}
        calls := obtained ++ .free .workingCopy loop.cursor :: header.freeHttpRequestHeader }
    match loop.finished, loop.copies with
    | true, [method, path, version] =>
        let header := { header with
          method := some method, path := some path, version := some version }
        if (stristr method.text (bytes "GET")).isNone then
          { result := kNotImplemented, header := header, calls := obtained }
        else
          let rest := httpHeaderRaw.drop loop.cursor
          match firstOccurrence (bytes "\n") rest with
          | some bodyStart =>
              { result := 0
                header := { header with body := some ⟨.body, rest.drop (bodyStart + 1)⟩ }
                calls := obtained ++ [.malloc .body, .free .workingCopy 0] }
          | none =>
              { result := 0
                header := { header with body := none }
                calls := obtained ++ [.free .workingCopy 0] }
    | _, _ => failed

/-- The cursor stands in front of the rest of the string. -/
theorem strtok_drop (isDelim : UInt8 → Bool) (raw : Bytes) (cursor : Nat) :
    strtok isDelim (raw.drop cursor) =
      ((strtokAt isDelim raw cursor).1, raw.drop (strtokAt isDelim raw cursor).2) := by
  have hstart : (raw.drop cursor).dropWhile isDelim =
      raw.drop (cursor + ((raw.drop cursor).takeWhile isDelim).length) := by
    rw [dropWhile_eq_drop, List.drop_drop]
  rw [strtok, strtokAt, hstart]
  generalize cursor + ((raw.drop cursor).takeWhile isDelim).length = start
  by_cases hnone : raw.drop start = []
  · simp only [hnone, if_true]
  · simp only [if_neg hnone]
    have hstop : (raw.drop start).dropWhile (fun b => !isDelim b) =
        raw.drop (start + ((raw.drop start).takeWhile fun b => !isDelim b).length) := by
      rw [dropWhile_eq_drop, List.drop_drop]
    rw [hstop]
    generalize start + ((raw.drop start).takeWhile fun b => !isDelim b).length = stop
    by_cases hend : raw.drop stop = []
    · rw [if_pos hend, hend]
      rfl
    · rw [if_neg hend, List.drop_drop]

/-- The cursor never goes back, and it leaves the start of a block at once. -/
theorem strtokAt_cursor (isDelim : UInt8 → Bool) (raw : Bytes) (cursor : Nat) :
    cursor ≤ (strtokAt isDelim raw cursor).2 ∧
      (raw ≠ [] → 0 < (strtokAt isDelim raw cursor).2) := by
  have hend : ∀ n, raw.drop n = [] → raw ≠ [] → 0 < n := by
    intro n hnil hne
    rw [List.drop_eq_nil_iff] at hnil
    have hpos := List.length_pos_iff.mpr hne
    omega
  simp only [strtokAt]
  split
  · rename_i hnone
    exact ⟨Nat.le_add_right _ _, hend _ hnone⟩
  · split
    · rename_i hlast
      exact ⟨by omega, hend _ hlast⟩
    · exact ⟨by omega, fun _ => Nat.succ_pos _⟩

/-- The token loop with a cursor is the token loop. -/
theorem headerTokens_drop (raw : Bytes) (count i cursor : Nat) :
    headerTokens count (raw.drop cursor) =
      if (tokenLoop raw count i cursor).finished then
        some ((tokenLoop raw count i cursor).copies.map Copy.text,
          raw.drop (tokenLoop raw count i cursor).cursor)
      else none := by
  induction count generalizing i cursor with
  | zero => rfl
  | succ count ih =>
      rw [headerTokens, strtok_drop, tokenLoop]
      cases strtokAt isHeadDelim raw cursor with
      | mk token cursor =>
          cases token with
          | none => rfl
          | some token =>
              by_cases hlong : token.length > maxUrlSize
              · simp only [if_pos hlong]
                rfl
              · simp only [if_neg hlong, ih (i + 1) cursor]
                cases (tokenLoop raw count (i + 1) cursor).finished <;> rfl

/-- The memory calls leave the result and the strings as they are. -/
theorem fillHttpRequestHeader_values (header : OwnedHeader) (buffer : Bytes) :
    HttpParser.fillHttpRequestHeader header.values buffer =
      ((header.fillHttpRequestHeader buffer).result,
        (header.fillHttpRequestHeader buffer).header.values) := by
  rw [HttpParser.fillHttpRequestHeader, OwnedHeader.fillHttpRequestHeader]
  by_cases hindex : getKeywordIndex (cstr buffer) (bytes "\r\n\r\n") = otherError
  · simp only [if_pos hindex]
  · simp only [if_neg hindex]
    generalize (cstr buffer).take (getKeywordIndex (cstr buffer) (bytes "\r\n\r\n")).toNat = raw
    have htokens := headerTokens_drop raw httpHeadCount 0 0
    rw [List.drop_zero] at htokens
    rw [htokens]
    cases tokenLoop raw httpHeadCount 0 0 with
    | mk copies cursor finished =>
        cases finished with
        | false => rfl
        | true =>
            rcases copies with _ | ⟨method, _ | ⟨path, _ | ⟨version, _ | ⟨more, copies⟩⟩⟩⟩
            · rfl
            · rfl
            · rfl
            · simp only [if_true, List.map_cons, List.map_nil]
              cases (stristr method.text (bytes "GET")).isNone with
              | true => rfl
              | false => cases firstOccurrence (bytes "\n") (raw.drop cursor) <;> rfl
            · rfl

/-- Where the rest of the token loop does not go back, the loop ends no earlier than the
first `strtok_r` does. -/
theorem strtokAt_le_tokenLoop {raw : Bytes} {count : Nat} (i cursor : Nat)
    (hrest : ∀ i cursor, cursor ≤ (tokenLoop raw count i cursor).cursor) :
    (strtokAt isHeadDelim raw cursor).2 ≤ (tokenLoop raw (count + 1) i cursor).cursor := by
  rw [tokenLoop]
  cases htoken : strtokAt isHeadDelim raw cursor with
  | mk token cursor' =>
      cases token with
      | none => exact le_rfl
      | some token =>
          by_cases hlong : token.length > maxUrlSize
          · simp only [if_pos hlong]
            exact le_rfl
          · simp only [if_neg hlong]
            exact hrest _ _

theorem tokenLoop_le (raw : Bytes) (count i cursor : Nat) :
    cursor ≤ (tokenLoop raw count i cursor).cursor := by
  induction count generalizing i cursor with
  | zero => exact le_rfl
  | succ count ih =>
      exact (strtokAt_cursor isHeadDelim raw cursor).1.trans (strtokAt_le_tokenLoop i cursor ih)

/-- Wherever the token loop ends, it has moved the cursor. -/
theorem tokenLoop_cursor {raw : Bytes} (hne : raw ≠ []) (count i cursor : Nat) :
    0 < (tokenLoop raw (count + 1) i cursor).cursor :=
  ((strtokAt_cursor isHeadDelim raw cursor).2 hne).trans_le
    (strtokAt_le_tokenLoop i cursor (tokenLoop_le raw count))

def frees (block : Block) : MemoryCall → Bool
  | .free freed _ => freed == block
  | .malloc _ => false

/-- Every block that is taken is given back as it was taken, or stored. -/
structure GivesBack (filled : Filled) : Prop where
  atStart : ∀ offset, .free .workingCopy offset ∈ filled.calls → offset = 0
  once : .malloc .workingCopy ∈ filled.calls → filled.calls.countP (frees .workingCopy) = 1
  kept : ∀ i, .malloc (.token i) ∈ filled.calls →
    (∃ s ∈ filled.header.strings, s.block = .token i) ∨
      ∃ offset, .free (.token i) offset ∈ filled.calls

/-- The ways out of the parser: nothing was taken, the moved cursor is freed,
the working copy is kept, or everything is in its place. -/
inductive Exit (buffer : Bytes) (filled : Filled) : Prop
  | incomplete (head : headText buffer = none) (calls : filled.calls = [])
  | failed (head : headText buffer ≠ none) (result : filled.result = kBadRequest) (cursor : Nat)
      (moved : 0 < cursor) (freed : .free .workingCopy cursor ∈ filled.calls)
  | unsupported (head : headText buffer ≠ none) (result : filled.result = kNotImplemented)
      (taken : .malloc .workingCopy ∈ filled.calls)
      (unfreed : ∀ call ∈ filled.calls, frees .workingCopy call = false)
  | accepted (head : headText buffer ≠ none) (result : filled.result = 0)
      (givesBack : GivesBack filled)

/-- The calls that obtain the working copy and the copies of the tokens. -/
theorem obtained_unfreed (copies : List Copy) :
    ∀ call ∈ .malloc .workingCopy :: copies.map fun copy => .malloc copy.block,
      frees .workingCopy call = false := by
  intro call hcall
  rcases List.mem_cons.mp hcall with rfl | hcall
  · rfl
  · obtain ⟨copy, -, rfl⟩ := List.mem_map.mp hcall
    rfl

theorem countP_frees_of_unfreed {block : Block} {calls : List MemoryCall}
    (h : ∀ call ∈ calls, frees block call = false) : calls.countP (frees block) = 0 := by
  rw [List.countP_eq_zero]
  intro call hcall
  rw [h call hcall]
  exact Bool.false_ne_true

theorem givesBack_of_stored (result : Int) (header : OwnedHeader) (copies : List Copy)
    (bodyCalls : List MemoryCall) (hbody : ∀ call ∈ bodyCalls, call = .malloc .body)
    (hstored : ∀ copy ∈ copies, copy ∈ header.strings) :
    GivesBack
      { result := result
        header := header
        calls := (.malloc .workingCopy :: copies.map fun copy => .malloc copy.block) ++
          (bodyCalls ++ [.free .workingCopy 0]) } := by
  have hobtained := obtained_unfreed copies
  have hbody' : ∀ call ∈ bodyCalls, frees .workingCopy call = false := by
    intro call hcall
    rw [hbody call hcall]
    rfl
  constructor
  · intro offset hmem
    rcases List.mem_append.mp hmem with hmem | hmem
    · exact absurd (hobtained _ hmem) (by simp [frees])
    · rcases List.mem_append.mp hmem with hmem | hmem
      · exact absurd (hbody' _ hmem) (by simp [frees])
      · exact (MemoryCall.free.inj (List.mem_singleton.mp hmem)).2
  · intro _
    simp only [List.countP_append, countP_frees_of_unfreed hobtained,
      countP_frees_of_unfreed hbody']
    rfl
  · intro i hmem
    rcases List.mem_append.mp hmem with hmem | hmem
    · rcases List.mem_cons.mp hmem with hmem | hmem
      · cases hmem
      · obtain ⟨copy, hcopy, hblock⟩ := List.mem_map.mp hmem
        exact .inl ⟨copy, hstored copy hcopy, MemoryCall.malloc.inj hblock⟩
    · rcases List.mem_append.mp hmem with hmem | hmem
      · cases hbody _ hmem
      · cases List.mem_singleton.mp hmem

theorem fillHttpRequestHeader_exit (header : OwnedHeader) (buffer : Bytes) :
    Exit buffer (header.fillHttpRequestHeader buffer) := by
  cases hhead : headText buffer with
  | none =>
      rw [OwnedHeader.fillHttpRequestHeader, getKeywordIndex_of_no_head hhead, if_pos rfl]
      exact .incomplete hhead rfl
  | some text =>
      obtain ⟨hindex, hraw⟩ := headText_spec hhead
      have hhead' : headText buffer ≠ none := by
        rw [hhead]
        exact Option.some_ne_none text
      have hfound : ((text.length + 4 : Nat) : Int) ≠ otherError := by
        simp only [otherError, networkError]
        omega
      have hne : text ++ HeaderBlock.blankLine ≠ [] := by simp [HeaderBlock.blankLine]
      have hmoved : 0 < (tokenLoop (text ++ HeaderBlock.blankLine) httpHeadCount 0 0).cursor :=
        tokenLoop_cursor hne 2 0 0
      rw [OwnedHeader.fillHttpRequestHeader, hindex, if_neg hfound]
      simp only [Int.toNat_natCast, hraw]
      generalize text ++ HeaderBlock.blankLine = raw at hmoved ⊢
      cases hloop : tokenLoop raw httpHeadCount 0 0 with
      | mk copies cursor finished =>
          rw [hloop] at hmoved
          have hfailed : ∀ header' : OwnedHeader, Exit buffer
              { result := kBadRequest
                header := header'
                calls := (.malloc .workingCopy :: copies.map fun copy => .malloc copy.block) ++
                  .free .workingCopy cursor :: header.freeHttpRequestHeader } :=
            fun _ => .failed hhead' rfl cursor hmoved (by simp)
          cases finished with
          | false => exact hfailed {}
          | true =>
              rcases copies with _ | ⟨method, _ | ⟨path, _ | ⟨version, _ | ⟨more, copies⟩⟩⟩⟩
              · exact hfailed {}
              · exact hfailed {}
              · exact hfailed {}
              · dsimp only
                split
                · exact .unsupported hhead' rfl List.mem_cons_self
                    (obtained_unfreed [method, path, version])
                · split
                  · refine .accepted hhead' rfl (givesBack_of_stored _ _
                      [method, path, version] [.malloc .body] ?_ ?_)
                    · simp
                    · simp [OwnedHeader.strings]
                  · refine .accepted hhead' rfl (givesBack_of_stored _ _
                      [method, path, version] [] ?_ ?_)
                    · simp
                    · simp [OwnedHeader.strings]
              · exact hfailed {}

/-- Every `free` gets the start of a block, so that the call comes back. -/
def Filled.Returns (filled : Filled) : Prop :=
  ∀ block offset, .free block offset ∈ filled.calls → offset = 0

/-- The header of before is released by its own pointers: only the working copy has a
pointer that moves. -/
theorem free_mem_calls {header : OwnedHeader} {buffer : Bytes} {block : Block} {offset : Nat}
    (h : .free block offset ∈ (header.fillHttpRequestHeader buffer).calls) :
    block = .workingCopy ∨ offset = 0 := by
  have hobtained : ∀ copies : List Copy, MemoryCall.free block offset ∉
      .malloc .workingCopy :: copies.map fun copy => MemoryCall.malloc copy.block := by
    intro copies hmem
    rcases List.mem_cons.mp hmem with hmem | hmem
    · cases hmem
    · obtain ⟨copy, -, hcopy⟩ := List.mem_map.mp hmem
      cases hcopy
  have hreleased : .free block offset ∈ header.freeHttpRequestHeader → offset = 0 := by
    intro hmem
    obtain ⟨copy, -, hcopy⟩ := List.mem_map.mp hmem
    exact (MemoryCall.free.inj hcopy).2.symm
  rw [OwnedHeader.fillHttpRequestHeader] at h
  split at h
  · cases h
  · dsimp only at h
    split at h
    · split at h
      · exact absurd h (hobtained _)
      · split at h <;> rcases List.mem_append.mp h with hmem | hmem
        · exact absurd hmem (hobtained _)
        · simp only [List.mem_cons, reduceCtorEq, MemoryCall.free.injEq, List.not_mem_nil,
            false_or, or_false] at hmem
          exact .inl hmem.1
        · exact absurd hmem (hobtained _)
        · simp only [List.mem_cons, MemoryCall.free.injEq, List.not_mem_nil, or_false] at hmem
          exact .inl hmem.1
    · rcases List.mem_append.mp h with hmem | hmem
      · exact absurd hmem (hobtained _)
      · rcases List.mem_cons.mp hmem with hcursor | hmem
        · exact .inl (MemoryCall.free.inj hcursor).1
        · exact .inr (hreleased hmem)

/-- The parser comes back where there is no blank line and where it takes three words: at
any other refusal it frees the moved cursor. -/
theorem fillHttpRequestHeader_returns_iff (header : OwnedHeader) (buffer : Bytes) :
    (header.fillHttpRequestHeader buffer).Returns ↔
      headText buffer = none ∨ ∃ text method path version, Taken buffer text method path version := by
  have hvalues := fillHttpRequestHeader_values header buffer
  rcases fillHttpRequestHeader_exit header buffer with
    ⟨hhead, hcalls⟩ | ⟨hhead, hresult, cursor, hmoved, hfreed⟩ |
      ⟨hhead, hresult, htaken, hunfreed⟩ | ⟨hhead, hresult, hgives⟩
  · refine ⟨fun _ => .inl hhead, fun _ block offset hmem => ?_⟩
    rw [hcalls] at hmem
    cases hmem
  · constructor
    · intro hreturns
      exact absurd (hreturns _ cursor hfreed) hmoved.ne'
    · rintro (hnone | ⟨text, method, path, version, htaken⟩)
      · exact absurd hnone hhead
      · rw [hresult] at hvalues
        by_cases hget : NamesGet method
        · obtain ⟨body, -, hfill⟩ := htaken.fill_of_get hget
          rw [hfill, Prod.mk.injEq] at hvalues
          exact absurd hvalues.1 (by decide)
        · rw [htaken.fill_of_other hget, Prod.mk.injEq] at hvalues
          exact absurd hvalues.1 (by decide)
  · constructor
    · intro _
      rcases taken_or_refused buffer with hsome | hrefused
      · exact .inr hsome
      · have hbad := hrefused.result header.values
        rw [hvalues, hresult] at hbad
        exact absurd hbad (show kNotImplemented ≠ kBadRequest by decide)
    · intro _ block offset hmem
      rcases free_mem_calls hmem with rfl | hstart
      · exact absurd (hunfreed _ hmem) (by simp [frees])
      · exact hstart
  · constructor
    · intro _
      rcases taken_or_refused buffer with hsome | hrefused
      · exact .inr hsome
      · have hbad := hrefused.result header.values
        rw [hvalues, hresult] at hbad
        exact absurd hbad (show (0 : Int) ≠ kBadRequest by decide)
    · intro _ block offset hmem
      rcases free_mem_calls hmem with rfl | hstart
      · exact hgives.atStart offset hmem
      · exact hstart

/-- The parser gives back what it took exactly where it takes nothing or accepts. -/
theorem fillHttpRequestHeader_givesBack_iff (header : OwnedHeader) (buffer : Bytes) :
    GivesBack (header.fillHttpRequestHeader buffer) ↔
      headText buffer = none ∨
        ∃ text method path version, Taken buffer text method path version ∧ NamesGet method := by
  rw [← fillHttpRequestHeader_accepted_iff header.values, fillHttpRequestHeader_values]
  rcases fillHttpRequestHeader_exit header buffer with
    ⟨hhead, hcalls⟩ | ⟨hhead, hresult, cursor, hmoved, hfreed⟩ |
      ⟨hhead, hresult, htaken, hunfreed⟩ | ⟨hhead, hresult, hgives⟩
  · refine ⟨fun _ => .inl hhead, fun _ => ?_⟩
    constructor <;> simp [hcalls]
  · constructor
    · intro hgives
      exact absurd (hgives.atStart cursor hfreed) hmoved.ne'
    · rintro (hnone | haccepted)
      · exact absurd hnone hhead
      · exact absurd (hresult.symm.trans haccepted) (by decide)
  · constructor
    · intro hgives
      have hone := hgives.once htaken
      have hzero := countP_frees_of_unfreed hunfreed
      omega
    · rintro (hnone | haccepted)
      · exact absurd hnone hhead
      · exact absurd (hresult.symm.trans haccepted) (by decide)
  · exact ⟨fun _ => .inr hresult, fun _ => hgives⟩

/-- For two line ends the pointer that is freed is the moved cursor. -/
theorem fillHttpRequestHeader_frees_cursor :
    ¬ GivesBack (OwnedHeader.fillHttpRequestHeader {} (bytes "\r\n\r\n")) := by
  intro h
  exact absurd (h.atStart 4 (by decide)) (by decide)

/-- The call comes back, with three tokens of the request line or with an error. -/
def RejectsMalformedLine (header : OwnedHeader) (buffer : Bytes) : Prop :=
  (header.fillHttpRequestHeader buffer).Returns ∧
    RejectsMalformed buffer header.values (header.fillHttpRequestHeader buffer).result
      (header.fillHttpRequestHeader buffer).header.values

/-- What the call leaves is what the parser on values leaves. -/
theorem rejectsMalformedLine_iff (header : OwnedHeader) (buffer : Bytes) :
    RejectsMalformedLine header buffer ↔
      (header.fillHttpRequestHeader buffer).Returns ∧
        RejectsMalformed buffer header.values
          (HttpParser.fillHttpRequestHeader header.values buffer).1
          (HttpParser.fillHttpRequestHeader header.values buffer).2 := by
  rw [fillHttpRequestHeader_values]
  rfl

/-- Where the parser reads the request line as it is meant to: there is no blank line, or
three words are taken, from a plain line when the first one carries `GET`, and else from a
line that has three words or is well formed. -/
def ReadsLine (buffer : Bytes) : Prop :=
  headText buffer = none ∨
    ∃ text method path version line, Taken buffer text method path version ∧
      requestLine buffer = some line ∧
      (NamesGet method → PlainLine line) ∧
        (¬ NamesGet method → httpHeadCount ≤ (words isHeadDelim line).length ∨
          ∃ method path version, WellFormed buffer method path version)

/-- Without a blank line nothing is taken. -/
theorem rejectsMalformed_of_no_head {buffer : Bytes} (h : headText buffer = none)
    (header : HttpRequestHeader) :
    RejectsMalformed buffer header (HttpParser.fillHttpRequestHeader header buffer).1
      (HttpParser.fillHttpRequestHeader header buffer).2 := by
  rw [fillHttpRequestHeader_of_no_head h]
  refine ⟨fun haccepted => absurd haccepted (show kBadRequest ≠ 0 by decide), fun _ => ?_⟩
  exact ⟨show kBadRequest < 0 by decide, .inl rfl⟩

/-- Malformed request lines are rejected exactly where the line is read. -/
theorem fillHttpRequestHeader_rejectsMalformed_iff (buffer : Bytes) :
    (∀ header, RejectsMalformedLine header buffer) ↔ ReadsLine buffer := by
  constructor
  · intro h
    obtain ⟨hreturns, hrejects⟩ := (rejectsMalformedLine_iff {} buffer).mp (h {})
    rcases (fillHttpRequestHeader_returns_iff {} buffer).mp hreturns with
      hhead | ⟨text, method, path, version, htaken⟩
    · exact .inl hhead
    · obtain ⟨line, hline, -⟩ := exists_requestLine htaken.head
      refine .inr ⟨text, method, path, version, line, htaken, hline, fun hget => ?_, fun hget => ?_⟩
      · exact (htaken.rejects_iff_of_get hline hget _).mp hrejects
      · exact htaken.many_of_rejects hline hget hrejects
  · intro h header
    rw [rejectsMalformedLine_iff, fillHttpRequestHeader_returns_iff]
    rcases h with hhead | ⟨text, method, path, version, line, htaken, hline, hplain, hother⟩
    · exact ⟨.inl hhead, rejectsMalformed_of_no_head hhead _⟩
    · refine ⟨.inr ⟨_, _, _, _, htaken⟩, ?_⟩
      by_cases hget : NamesGet method
      · exact (htaken.rejects_iff_of_get hline hget _).mpr (hplain hget)
      · exact htaken.rejects_of_other hline hget (hother hget) _

/-- A request line of two words is accepted, with a header name for its version. -/
theorem fillHttpRequestHeader_takes_header_name :
    (OwnedHeader.fillHttpRequestHeader {} (bytes "GET /\r\nHost: x\r\n\r\n")).header.values.version =
        some (bytes "\nHost:") ∧
      ¬ RejectsMalformedLine {} (bytes "GET /\r\nHost: x\r\n\r\n") := by
  refine ⟨by decide, fun h => ?_⟩
  obtain ⟨method, path, version, hwell, -⟩ := h.2.accepted (by decide)
  obtain ⟨line, hline, hwords⟩ := hwell.line
  have htwo : requestLine (bytes "GET /\r\nHost: x\r\n\r\n") = some (bytes "GET /") := by decide
  obtain rfl : bytes "GET /" = line := Option.some.inj (htwo.symm.trans hline)
  have hpair : words isSpace (bytes "GET /") = [bytes "GET", bytes "/"] := by decide
  rw [hpair] at hwords
  cases hwords

end HttpsServ.RequestMemory
