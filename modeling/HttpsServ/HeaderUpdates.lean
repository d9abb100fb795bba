import HttpsServ.ResponseHeader

/-!
# Runs of header updates

What one call of `SetResponseProperty` can do is said once; the byte count, the
serialised text and the order of the fields after any run of calls follow from
it. The call updates the field it should when no field in front of that one
carries the key anywhere in its line.
-/

namespace HttpsServ.HeaderUpdates

open ByteString Utility Numeral HttpParser ResponseHeader

/-- The text of a property up to and including its first space. -/
def fieldKey (property : Bytes) : Bytes := property.takeWhile (· ≠ 32) ++ [32]

theorem fieldKey_split {property : Bytes} (h : 32 ∈ property) :
    ∃ name rest, 32 ∉ name ∧ property = name ++ 32 :: rest ∧ fieldKey property = name ++ [32] := by
  obtain ⟨name, rest, heq, hname⟩ := List.eq_append_cons_of_mem h
  refine ⟨name, rest, hname, heq, ?_⟩
  have hall : ∀ b ∈ name, decide (b ≠ 32) = true := by
    intro b hb
    simpa using ne_of_mem_of_not_mem hb hname
  rw [fieldKey, heq, List.takeWhile_append_of_pos hall]
  simp

/-- A line carries its own key, at its start. -/
theorem fieldKey_begins {property : Bytes} (h : 32 ∈ property) :
    fieldKey property <+: property := by
  obtain ⟨name, rest, -, heq, hkey⟩ := fieldKey_split h
  exact ⟨rest, by rw [hkey, heq, List.append_assoc, List.singleton_append]⟩

theorem getKeywordIndex_key {property : Bytes} (h : 32 ∈ property) :
    getKeywordIndex property (bytes " ") = (fieldKey property).length := by
  obtain ⟨name, rest, hname, heq, hkey⟩ := fieldKey_split h
  have hfirst : firstOccurrence (bytes " ") property = some name.length := by
    rw [heq, show bytes " " = [32] from rfl, firstOccurrence_append_of_not_mem _ _ hname,
      firstOccurrence_zero (by simp)]
    simp
  rw [getKeywordIndex, hfirst, hkey]
  simp [bytes]

theorem getKeywordIndex_none {property : Bytes} (h : 32 ∉ property) :
    getKeywordIndex property (bytes " ") = otherError := by
  have hnone : firstOccurrence (bytes " ") property = none := by
    rw [firstOccurrence_eq_none_iff]
    intro j hbegins
    have hmem : 32 ∈ property.drop j := hbegins.subset (by decide)
    exact h (List.mem_of_mem_drop hmem)
  rw [getKeywordIndex, hnone]

/-- The three outcomes of `SetResponseProperty`, up to the room it reserves. -/
inductive PropertyEffect (resp : HttpResponseHeader) (property : Bytes) :
    HttpResponseHeader → Prop
  | ignored (slots : Nat)
      (h : resp.body.length = httpBodyFieldLimit ∨ 32 ∉ property) :
      PropertyEffect resp property { resp with bodySlots := slots }
  | overwritten (slots : Nat) {before after : List Bytes} {old : Bytes}
      (hlimit : resp.body.length ≠ httpBodyFieldLimit) (hspace : 32 ∈ property)
      (hbody : resp.body = before ++ old :: after)
      (hbefore : ∀ field ∈ before, ¬ fieldKey property <:+: field)
      (hold : fieldKey property <:+: old) :
      PropertyEffect resp property
        { resp with
          bodySlots := slots
          body := before ++ property :: after
          totalByteLength :=
            toInt32 (resp.totalByteLength + (property.length - old.length)) }
  | appended (slots : Nat)
      (hlimit : resp.body.length ≠ httpBodyFieldLimit) (hspace : 32 ∈ property)
      (hnone : ∀ field ∈ resp.body, ¬ fieldKey property <:+: field) :
      PropertyEffect resp property
        { resp with
          bodySlots := slots
          body := resp.body ++ [property]
          totalByteLength := toInt32 (resp.totalByteLength + property.length) }

theorem reserveField_cases (resp : HttpResponseHeader) :
    (resp.body.length = httpBodyFieldLimit ∧ reserveField resp = none) ∨
      (resp.body.length ≠ httpBodyFieldLimit ∧
        ∃ slots, reserveField resp = some { resp with bodySlots := slots }) := by
  by_cases hlimit : resp.body.length = httpBodyFieldLimit
  · left
    refine ⟨hlimit, ?_⟩
    rw [reserveField, if_neg (by rw [hlimit]; decide), if_pos hlimit]
  · right
    refine ⟨hlimit, ?_⟩
    simp only [reserveField, if_neg hlimit]
    split
    · exact ⟨_, rfl⟩
    · split
      · exact ⟨_, rfl⟩
      · exact ⟨_, rfl⟩

theorem setResponseProperty_effect (resp : HttpResponseHeader) (property : Bytes) :
    PropertyEffect resp property (setResponseProperty resp property) := by
  rcases reserveField_cases resp with ⟨hlimit, hreserve⟩ | ⟨hlimit, slots, hreserve⟩
  · rw [setResponseProperty, hreserve]
    exact .ignored resp.bodySlots (Or.inl hlimit)
  · by_cases hspace : 32 ∈ property
    · have hne : ((fieldKey property).length : Int) ≠ otherError := by
        rw [otherError, networkError]
        omega
      have htake : property.take (fieldKey property).length = fieldKey property :=
        List.prefix_iff_eq_take.mp (fieldKey_begins hspace) |>.symm
      simp only [setResponseProperty, hreserve, getKeywordIndex_key hspace, if_neg hne,
        Int.toNat_natCast, htake, storeField]
      cases hfind : resp.body.findIdx? fun field =>
          (firstOccurrence (fieldKey property) field).isSome with
      | none =>
          apply PropertyEffect.appended slots hlimit hspace
          intro field hfield hcarries
          have := List.findIdx?_eq_none_iff.mp hfind field hfield
          rw [firstOccurrence_isSome_iff.mpr hcarries] at this
          cases this
      | some i =>
          obtain ⟨hi, hfound, hbefore⟩ := List.findIdx?_eq_some_iff_getElem.mp hfind
          have hget : resp.body.getD i [] = resp.body[i] := by
            rw [List.getD_eq_getElem?_getD, List.getElem?_eq_getElem hi, Option.getD_some]
          simp only [hget, List.set_eq_take_append_cons_drop, if_pos hi]
          apply PropertyEffect.overwritten slots hlimit hspace
          · rw [← List.drop_eq_getElem_cons hi, List.take_append_drop]
          · intro field hfield hcarries
            obtain ⟨j, hj, rfl⟩ := List.mem_take_iff_getElem.mp hfield
            have hji : j < i := by omega
            exact hbefore j hji (firstOccurrence_isSome_iff.mpr hcarries)
          · exact firstOccurrence_isSome_iff.mp hfound
    · rw [setResponseProperty, hreserve]
      simp only [getKeywordIndex_none hspace, if_true]
      exact .ignored slots (Or.inr hspace)

/-- The two elementary updates of a response header. -/
inductive HeaderUpdate where
  | statusLine (version statusCode status : Bytes)
  | property (line : Bytes)

def HeaderUpdate.apply (resp : HttpResponseHeader) : HeaderUpdate → HttpResponseHeader
  | .statusLine version statusCode status => setResponseStatusLine resp version statusCode status
  | .property line => setResponseProperty resp line

/-- The calls that http_parser.h offers on a response header. -/
inductive HeaderCall where
  | statusLine (version statusCode status : Bytes)
  | property (line : Bytes)
  | contentType (filename : Bytes)
  | contentLength (size : Nat)

def HeaderCall.apply (resp : HttpResponseHeader) : HeaderCall → HttpResponseHeader
  | .statusLine version statusCode status => setResponseStatusLine resp version statusCode status
  | .property line => setResponseProperty resp line
  | .contentType filename => setResponseContentType resp filename
  | .contentLength size => setResponseContentLength resp size

def runUpdates (resp : HttpResponseHeader) (updates : List HeaderUpdate) : HttpResponseHeader :=
  updates.foldl HeaderUpdate.apply resp

def runCalls (resp : HttpResponseHeader) (calls : List HeaderCall) : HttpResponseHeader :=
  calls.foldl HeaderCall.apply resp

/-- The properties that `SetResponseContentType` sets, in table order. -/
def contentTypeProperties (filename : Bytes) : List Bytes :=
  match kMimeTypes.filter fun mime => (stristr filename mime.extension).isSome with
  | [] => [bytes "Content-Type: text/plain\r\n"]
  | mimes => mimes.map fun mime => contentTypeProperty mime.type

theorem foldl_matchMimeType (filename : Bytes) (mimes : List MimeType)
    (resp : HttpResponseHeader) (isExtensionMatch : Bool) :
    mimes.foldl (matchMimeType filename) (resp, isExtensionMatch) =
      let found := mimes.filter fun mime => (stristr filename mime.extension).isSome
      ((found.map fun mime => contentTypeProperty mime.type).foldl setResponseProperty resp,
        isExtensionMatch || !found.isEmpty) := by
  induction mimes generalizing resp isExtensionMatch with
  | nil => simp
  | cons mime mimes ih =>
      rw [List.foldl_cons, ih, matchMimeType]
      by_cases hfound : (stristr filename mime.extension).isSome
      · rw [if_pos hfound, List.filter_cons_of_pos (by exact hfound)]
        simp
      · rw [if_neg hfound, List.filter_cons_of_neg (by exact hfound)]

theorem setResponseContentType_eq (resp : HttpResponseHeader) (filename : Bytes) :
    setResponseContentType resp filename =
      (contentTypeProperties filename).foldl setResponseProperty resp := by
  simp only [setResponseContentType, foldl_matchMimeType, contentTypeProperties]
  cases kMimeTypes.filter fun mime => (stristr filename mime.extension).isSome with
  | nil => rfl
  | cons mime mimes => rfl

def HeaderCall.updates : HeaderCall → List HeaderUpdate
  | .statusLine version statusCode status => [.statusLine version statusCode status]
  | .property line => [.property line]
  | .contentType filename => (contentTypeProperties filename).map .property
  | .contentLength size =>
      [.property (bytes "Content-Length: " ++ decNumeral size ++ crlf)]

/-- A call makes its updates one after the other. -/
theorem HeaderCall.apply_eq (resp : HttpResponseHeader) (call : HeaderCall) :
    call.apply resp = runUpdates resp call.updates := by
  cases call with
  | statusLine version statusCode status => rfl
  | property line => rfl
  | contentType filename =>
      rw [HeaderCall.apply, setResponseContentType_eq, HeaderCall.updates, runUpdates,
        List.foldl_map]
      rfl
  | contentLength size => rfl

theorem runCalls_eq (resp : HttpResponseHeader) (calls : List HeaderCall) :
    runCalls resp calls = runUpdates resp (calls.flatMap HeaderCall.updates) := by
  induction calls generalizing resp with
  | nil => rfl
  | cons call calls ih =>
      calc
        runCalls resp (call :: calls) = runCalls (call.apply resp) calls := rfl
        _ = runUpdates (runUpdates resp call.updates) (calls.flatMap HeaderCall.updates) := by
          rw [ih, call.apply_eq]
        _ = _ := by
          rw [List.flatMap_cons, runUpdates, runUpdates, runUpdates, List.foldl_append]

/-- The count is the length of the stored lines and of `extra` bytes more, as an `int`. -/
def Counted (resp : HttpResponseHeader) (extra : Nat) : Prop :=
  resp.totalByteLength = toInt32 (extra + resp.body.flatten.length)

/-- The status line of a header, while it has one. -/
def statusFields (resp : HttpResponseHeader) : Option Bytes × Option Bytes × Option Bytes :=
  (resp.version, resp.statusCode, resp.status)

theorem PropertyEffect.statusFields {resp resp' : HttpResponseHeader} {property : Bytes}
    (h : PropertyEffect resp property resp') : statusFields resp' = statusFields resp := by
  cases h with
  | ignored => rfl
  | overwritten => rfl
  | appended => rfl

theorem PropertyEffect.counted {resp resp' : HttpResponseHeader} {property : Bytes} {extra : Nat}
    (h : PropertyEffect resp property resp') (hcount : Counted resp extra) :
    Counted resp' extra := by
  rw [Counted] at hcount ⊢
  cases h with
  | ignored => exact hcount
  | overwritten slots hlimit hspace hbody =>
      -- a shorter line makes the difference negative; only the sum comes back into range
      simp only [hcount, hbody, toInt32_add, List.flatten_append, List.flatten_cons,
        List.length_append]
      apply toInt32_congr
      omega
  | appended =>
      simp only [hcount, toInt32_add, List.flatten_append, List.flatten_cons, List.flatten_nil,
        List.append_nil, List.length_append]
      apply toInt32_congr
      omega

def HeaderCall.isStatusLine : HeaderCall → Bool
  | .statusLine .. => true
  | _ => false

/-- Calls that set fields keep the status line and the count in step. -/
theorem counted_calls {calls : List HeaderCall} {resp : HttpResponseHeader} {extra : Nat}
    (hfields : ∀ call ∈ calls, call.isStatusLine = false) (hcount : Counted resp extra) :
    statusFields (runCalls resp calls) = statusFields resp ∧
      Counted (runCalls resp calls) extra := by
  have hupdates : ∀ update ∈ calls.flatMap HeaderCall.updates, ∃ line, update = .property line := by
    intro update hupdate
    obtain ⟨call, hcall, hmem⟩ := List.mem_flatMap.mp hupdate
    cases call with
    | statusLine => cases hfields _ hcall
    | property line => exact ⟨line, List.mem_singleton.mp hmem⟩
    | contentType filename =>
        obtain ⟨line, -, rfl⟩ := List.mem_map.mp hmem
        exact ⟨line, rfl⟩
    | contentLength size => exact ⟨_, List.mem_singleton.mp hmem⟩
  rw [runCalls_eq]
  generalize calls.flatMap HeaderCall.updates = updates at hupdates ⊢
  induction updates generalizing resp with
  | nil => exact ⟨rfl, hcount⟩
  | cons update updates ih =>
      obtain ⟨line, rfl⟩ := hupdates update List.mem_cons_self
      have heffect := setResponseProperty_effect resp line
      obtain ⟨hstatus, hrest⟩ := ih (heffect.counted hcount)
        fun update hmem => hupdates update (List.mem_cons_of_mem _ hmem)
      exact ⟨hstatus.trans heffect.statusFields, hrest⟩

theorem counted_statusLine {resp : HttpResponseHeader} (hcount : Counted resp 0)
    (version statusCode status : Bytes) :
    Counted (setResponseStatusLine resp version statusCode status)
      (version.length + statusCode.length + status.length + sizeofHeaderDeliminations) := by
  rw [Counted] at hcount ⊢
  simp only [setResponseStatusLine, hcount, toInt32_add]
  apply toInt32_congr
  omega

/-- After any run of calls with one status line the serialised header and its
zero fill the counted bytes. -/
theorem responseToBuff_runCalls (before after : List HeaderCall)
    (version statusCode status : Bytes)
    (hone : ∀ call ∈ before ++ after, call.isStatusLine = false) :
    let resp := runCalls {} (before ++ .statusLine version statusCode status :: after)
    let text := version ++ bytes " " ++ statusCode ++ bytes " " ++ status ++ crlf ++
      resp.body.flatten ++ crlf
    text.length + 1 < 2147483648 →
      responseToBuff resp = some text ∧ resp.totalByteLength = (text.length + 1 : Nat) := by
  intro resp text htext
  have hzero : Counted {} 0 := rfl
  obtain ⟨-, hbefore⟩ := counted_calls (fun call h => hone call (List.mem_append_left _ h)) hzero
  obtain ⟨hstatus, hcount⟩ := counted_calls (fun call h => hone call (List.mem_append_right _ h))
    (counted_statusLine hbefore version statusCode status)
  have hresp : resp = runCalls (setResponseStatusLine (runCalls {} before) version statusCode
      status) after := by
    simp only [resp, runCalls, List.foldl_append, List.foldl_cons]
    rfl
  rw [← hresp] at hstatus hcount
  simp only [statusFields, setResponseStatusLine, Prod.mk.injEq] at hstatus
  obtain ⟨hversion, hcode, hline⟩ := hstatus
  constructor
  · rw [responseToBuff, hversion, hcode, hline]
  · have hlength : version.length + statusCode.length + status.length +
        sizeofHeaderDeliminations + resp.body.flatten.length = text.length + 1 := by
      simp only [text, List.length_append, crlf, sizeofHeaderDeliminations, bytes]
      simp
      omega
    rw [Counted, ← Nat.cast_add, hlength] at hcount
    rw [hcount, toInt32_of_lt htext]

theorem responseToBuff_runCalls_overwritten :
    let resp := runCalls {} [.property (bytes "Server: first\r\n"),
      .statusLine (bytes "HTTP/1.1") (bytes "200") (bytes "OK"),
      .property (bytes "Connection: close\r\n"), .property (bytes "Server: b\r\n")]
    let text := bytes "HTTP/1.1 200 OK\r\nServer: b\r\nConnection: close\r\n\r\n"
    responseToBuff resp = some text ∧ resp.totalByteLength = (text.length + 1 : Nat) :=
  responseToBuff_runCalls [.property (bytes "Server: first\r\n")]
    [.property (bytes "Connection: close\r\n"), .property (bytes "Server: b\r\n")]
    (bytes "HTTP/1.1") (bytes "200") (bytes "OK") (by decide) (by decide)

/-- The call puts the property where its key is, or behind all fields when its
key is new, and leaves every other field as and where it was. -/
def KeyedUpdate (resp : HttpResponseHeader) (property : Bytes) : Prop :=
  (∃ before old after, resp.body = before ++ old :: after ∧
      fieldKey old = fieldKey property ∧
      (∀ line ∈ before ++ after, fieldKey line ≠ fieldKey property) ∧
      (setResponseProperty resp property).body = before ++ property :: after) ∨
    ((∀ line ∈ resp.body, fieldKey line ≠ fieldKey property) ∧
      (setResponseProperty resp property).body = resp.body ++ [property])

/-- No field in front of the one with the key carries the key in its line; with
a new key, no field at all does. -/
def Unshadowed (resp : HttpResponseHeader) (property : Bytes) : Prop :=
  ∀ line ∈ resp.body.takeWhile fun line => fieldKey line ≠ fieldKey property,
    ¬ fieldKey property <:+: line

instance (resp : HttpResponseHeader) (property : Bytes) : Decidable (Unshadowed resp property) :=
  inferInstanceAs (Decidable (∀ line ∈ _, _))

/-- There is room for the fields, every line has a key, and no two have the same. -/
structure Keyed (resp : HttpResponseHeader) : Prop where
  room : resp.body.length ≤ httpBodyFieldLimit
  spaced : ∀ line ∈ resp.body, 32 ∈ line
  distinct : (resp.body.map fieldKey).Nodup

theorem Keyed.ne_of_not_carried {resp : HttpResponseHeader} (h : Keyed resp) {line key : Bytes}
    (hline : line ∈ resp.body) (hkey : ¬ key <:+: line) : fieldKey line ≠ key := by
  intro heq
  apply hkey
  rw [← heq]
  exact (fieldKey_begins (h.spaced line hline)).isInfix

/-- With room and a key, the call overwrites the first line that carries the key, or
appends. -/
theorem setResponseProperty_body {resp : HttpResponseHeader} {property : Bytes}
    (hroom : resp.body.length < httpBodyFieldLimit) (hspace : 32 ∈ property) :
    (∃ before old after, resp.body = before ++ old :: after ∧
        (∀ line ∈ before, ¬ fieldKey property <:+: line) ∧ fieldKey property <:+: old ∧
        (setResponseProperty resp property).body = before ++ property :: after) ∨
      ((∀ line ∈ resp.body, ¬ fieldKey property <:+: line) ∧
        (setResponseProperty resp property).body = resp.body ++ [property]) := by
  have heffect := setResponseProperty_effect resp property
  generalize setResponseProperty resp property = resp' at heffect ⊢
  cases heffect with
  | ignored slots hcase =>
      rcases hcase with hlimit | hnone
      · omega
      · exact absurd hspace hnone
  | overwritten slots _ _ hbody hbefore hold =>
      exact .inl ⟨_, _, _, hbody, hbefore, hold, rfl⟩
  | appended slots _ _ hnone => exact .inr ⟨hnone, rfl⟩

/-- The search meets the field with the key first. -/
theorem Keyed.update {resp : HttpResponseHeader} {property : Bytes} (h : Keyed resp)
    (hroom : resp.body.length < httpBodyFieldLimit) (hspace : 32 ∈ property)
    (hshadow : Unshadowed resp property) : KeyedUpdate resp property := by
  rcases setResponseProperty_body hroom hspace with
    ⟨before, old, after, hbody, hbefore, hold, hnew⟩ | ⟨hnone, hnew⟩
  · have hne : ∀ line ∈ before, decide (fieldKey line ≠ fieldKey property) = true := by
      intro line hline
      apply decide_eq_true
      exact h.ne_of_not_carried (by simp [hbody, hline]) (hbefore line hline)
    have hown : fieldKey old = fieldKey property := by
      by_contra hother
      refine hshadow old ?_ hold
      rw [hbody, List.takeWhile_append_of_pos hne, List.takeWhile_cons_of_pos (by simpa using hother)]
      simp
    have hdistinct := h.distinct
    rw [hbody, List.map_append, List.map_cons, List.nodup_middle, List.nodup_cons,
      ← List.map_append, hown] at hdistinct
    left
    refine ⟨before, old, after, hbody, hown, ?_, hnew⟩
    intro line hline heq
    exact hdistinct.1 (List.mem_map.mpr ⟨line, hline, heq⟩)
  · right
    exact ⟨fun line hline => h.ne_of_not_carried hline (hnone line hline), hnew⟩

/-- A field that only carries the key would be overwritten in its place. -/
theorem KeyedUpdate.unshadowed {resp : HttpResponseHeader} {property : Bytes}
    (hroom : resp.body.length < httpBodyFieldLimit) (hspace : 32 ∈ property)
    (h : KeyedUpdate resp property) : Unshadowed resp property := by
  rcases setResponseProperty_body hroom hspace with
    ⟨before, old, after, hbody, hbefore, hold, hset⟩ | ⟨hnone, -⟩
  · -- count the lines with the key: one before the call, one after it
    have hown : fieldKey old = fieldKey property := by
      by_contra hother
      rcases h with ⟨before', old', after', hbody', hold', hothers, hnew⟩ | ⟨hothers, hnew⟩
      · have hcount := congrArg (List.countP fun line => fieldKey line = fieldKey property) hbody'
        have hcount' := congrArg (List.countP fun line => fieldKey line = fieldKey property)
          (hset.symm.trans hnew)
        simp only [hbody, List.countP_append, List.countP_cons, hold', hother, decide_true,
          decide_false, if_true, Bool.false_eq_true, if_false] at hcount hcount'
        omega
      · have hlength := congrArg List.length (hset.symm.trans hnew)
        simp only [hbody, List.length_append, List.length_cons, List.length_nil] at hlength
        omega
    intro line hline
    rw [hbody, List.takeWhile_append, List.takeWhile_cons_of_neg (by simpa using hown),
      List.append_nil] at hline
    have hmem : line ∈ before := by
      split at hline
      · exact hline
      · exact List.takeWhile_subset _ hline
    exact hbefore line hmem
  · intro line hline
    exact hnone line (List.takeWhile_subset _ hline)

theorem Keyed.after_update {resp : HttpResponseHeader} {property : Bytes} (h : Keyed resp)
    (hroom : resp.body.length < httpBodyFieldLimit) (hspace : 32 ∈ property)
    (hupdate : KeyedUpdate resp property) : Keyed (setResponseProperty resp property) := by
  rcases hupdate with ⟨before, old, after, hbody, hown, -, hnew⟩ | ⟨hothers, hnew⟩
  · constructor
    · rw [hnew, List.length_append, List.length_cons, ← List.length_cons (a := old),
        ← List.length_append, ← hbody]
      exact h.room
    · intro line hline
      rw [hnew] at hline
      rcases List.mem_append.mp hline with hline | hline
      · exact h.spaced line (by simp [hbody, hline])
      · rcases List.mem_cons.mp hline with rfl | hline
        · exact hspace
        · exact h.spaced line (by simp [hbody, hline])
    · have hdistinct := h.distinct
      rw [hbody, List.map_append, List.map_cons, hown] at hdistinct
      rwa [hnew, List.map_append, List.map_cons]
  · constructor
    · rw [hnew, List.length_append, List.length_singleton]
      omega
    · intro line hline
      rw [hnew] at hline
      rcases List.mem_append.mp hline with hline | hline
      · exact h.spaced line hline
      · rwa [List.mem_singleton.mp hline]
    · rw [hnew, List.map_append, List.map_singleton, List.nodup_append]
      refine ⟨h.distinct, by simp, ?_⟩
      intro key hkey key' hkey' heq
      obtain ⟨line, hline, rfl⟩ := List.mem_map.mp hkey
      exact hothers line hline (heq.trans (List.mem_singleton.mp hkey'))

/-- A call that sets nothing leaves the keys alone. -/
theorem Keyed.after_ignored {resp : HttpResponseHeader} {property : Bytes} (h : Keyed resp)
    (hcase : ¬ (resp.body.length < httpBodyFieldLimit ∧ 32 ∈ property)) :
    Keyed (setResponseProperty resp property) := by
  have hroom := h.room
  have heffect := setResponseProperty_effect resp property
  generalize setResponseProperty resp property = resp' at heffect ⊢
  cases heffect with
  | ignored => exact ⟨h.room, h.spaced, h.distinct⟩
  | overwritten slots hlimit hspace => exact absurd ⟨by omega, hspace⟩ hcase
  | appended slots hlimit hspace => exact absurd ⟨by omega, hspace⟩ hcase

/-- `P` holds of every property that a run sets, while there is room and the
property has a key. -/
def EachProperty (P : HttpResponseHeader → Bytes → Prop) (updates : List HeaderUpdate) : Prop :=
  ∀ before property after, updates = before ++ .property property :: after →
    (runUpdates {} before).body.length < httpBodyFieldLimit → 32 ∈ property →
      P (runUpdates {} before) property

theorem runUpdates_concat (resp : HttpResponseHeader) (updates : List HeaderUpdate)
    (update : HeaderUpdate) :
    runUpdates resp (updates ++ [update]) = update.apply (runUpdates resp updates) := by
  rw [runUpdates, List.foldl_append]
  rfl

/-- Every header that an unshadowed run reaches is keyed. -/
theorem keyed_runUpdates {updates : List HeaderUpdate} (h : EachProperty Unshadowed updates)
    {reached : List HeaderUpdate} (hreached : reached <+: updates) :
    Keyed (runUpdates {} reached) := by
  induction reached using List.reverseRecOn with
  | nil => exact ⟨by decide, by simp [runUpdates], by simp [runUpdates]⟩
  | append_singleton reached update ih =>
      have hkeyed := ih ((List.prefix_append _ _).trans hreached)
      rw [runUpdates_concat]
      cases update with
      | statusLine version statusCode status =>
          exact ⟨hkeyed.room, hkeyed.spaced, hkeyed.distinct⟩
      | property line =>
          by_cases hset : (runUpdates {} reached).body.length < httpBodyFieldLimit ∧ 32 ∈ line
          · obtain ⟨rest, hrest⟩ := hreached
            have hshadow := h reached line rest (by rw [← hrest, List.append_assoc]; rfl)
              hset.1 hset.2
            exact hkeyed.after_update hset.1 hset.2 (hkeyed.update hset.1 hset.2 hshadow)
          · exact hkeyed.after_ignored hset

/-- In a run of calls every property is a keyed update, and all headers on the
way have distinct keys, exactly when no property is shadowed. -/
theorem eachProperty_keyedUpdate_iff (calls : List HeaderCall) :
    let updates := calls.flatMap HeaderCall.updates
    EachProperty KeyedUpdate updates ∧
        (∀ reached, reached <+: updates → ((runUpdates {} reached).body.map fieldKey).Nodup) ↔
      EachProperty Unshadowed updates := by
  intro updates
  constructor
  · rintro ⟨hkeyed, -⟩ before property after hsplit hroom hspace
    exact (hkeyed before property after hsplit hroom hspace).unshadowed hroom hspace
  · intro hshadow
    constructor
    · intro before property after hsplit hroom hspace
      have hbefore := keyed_runUpdates hshadow ⟨.property property :: after, hsplit.symm⟩
      exact hbefore.update hroom hspace (hshadow before property after hsplit hroom hspace)
    · intro reached hreached
      exact (keyed_runUpdates hshadow hreached).distinct

/-- A key is found in the longer key that ends with it: `Type: x` takes the place
of the content type. -/
theorem typeProperty_not_keyed :
    ¬ EachProperty KeyedUpdate
      ([HeaderCall.property (bytes "Content-Type: text/html\r\n"),
        .property (bytes "Type: x\r\n")].flatMap HeaderCall.updates) := by
  intro h
  have hupdate := h [.property (bytes "Content-Type: text/html\r\n")] (bytes "Type: x\r\n") []
    rfl (by decide) (by decide)
  exact absurd (hupdate.unshadowed (by decide) (by decide)) (by decide)

end HttpsServ.HeaderUpdates
