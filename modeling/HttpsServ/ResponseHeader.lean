import HttpsServ.Http
import HttpsServ.Library.HeaderBlock

/-!
# Response headers as they are built

`SetResponseProperty` finds a field by its key anywhere in a stored line. On
fields whose name and value hold no colon the key is found only in a field
whose name ends in the wanted one, so the server's headers are lists of fields,
and the byte count kept beside them is one more than the length of the text.
-/

namespace HttpsServ.ResponseHeader

open ByteString Utility Numeral HttpParser Http HeaderBlock

/-- A header field: a name and a value that keep the line in one piece. -/
@[ext] structure Field where
  name : Bytes
  value : Bytes
  name_ne : name ≠ []
  name_plain : 58 ∉ name ∧ 13 ∉ name ∧ 32 ∉ name
  value_plain : 58 ∉ value ∧ 13 ∉ value

def Field.key (f : Field) : Bytes := f.name ++ bytes ": "

/-- The field without its line end. -/
def Field.line (f : Field) : Bytes := f.key ++ f.value

/-- The property as `SetResponseProperty` receives and stores it. -/
def Field.text (f : Field) : Bytes := f.line ++ crlf

theorem Field.line_isLine (f : Field) : IsLine f.line := by
  constructor
  · simp [Field.line, Field.key, f.name_ne]
  · have hsep : (13 : UInt8) ∉ bytes ": " := by decide
    simp [Field.line, Field.key, f.name_plain.2.1, f.value_plain.2, hsep]

theorem Field.getKeywordIndex_text (f : Field) :
    getKeywordIndex f.text (bytes " ") = f.key.length := by
  have hshape : f.text = (f.name ++ bytes ":") ++ (bytes " " ++ (f.value ++ crlf)) := by
    simp only [Field.text, Field.line, Field.key, List.append_assoc]
    rfl
  have hblank : (32 : UInt8) ∉ f.name ++ bytes ":" := by
    have hcolon : (32 : UInt8) ∉ bytes ":" := by decide
    simp [f.name_plain.2.2, hcolon]
  have hfirst : firstOccurrence (bytes " ") f.text = some (f.name.length + 1) := by
    rw [hshape, show bytes " " = [32] from rfl, firstOccurrence_append_of_not_mem _ _ hblank,
      firstOccurrence_zero (List.prefix_append _ _)]
    simp [bytes]
  rw [getKeywordIndex, hfirst, Field.key, List.length_append]
  rfl

/-- The key of a field is its text up to the first blank. -/
theorem Field.take_text (f : Field) : f.text.take f.key.length = f.key := by
  rw [Field.text, Field.line, List.append_assoc, List.take_left]

theorem Field.text_eq (f : Field) : f.text = f.name ++ 58 :: (32 :: (f.value ++ crlf)) := by
  simp only [Field.text, Field.line, Field.key, List.append_assoc]
  rfl

/-- The only colon of a field stands behind its name. -/
theorem Field.colon_at {f : Field} {i : Nat} (h : f.text[i]? = some 58) :
    i = f.name.length := by
  rw [Field.text_eq] at h
  rcases Nat.lt_trichotomy i f.name.length with hlt | heq | hgt
  · rw [List.getElem?_append_left hlt] at h
    exact absurd (List.mem_of_getElem? h) f.name_plain.1
  · exact heq
  · rw [List.getElem?_append_right hgt.le,
      show i - f.name.length = (i - f.name.length - 1) + 1 by omega, List.getElem?_cons_succ] at h
    have hmem := List.mem_of_getElem? h
    simp [crlf, f.value_plain.1] at hmem

/-- A key is found in a field only where the colons meet. -/
theorem Field.suffix_of_key_found {f g : Field} {j : Nat} (h : g.key <+: f.text.drop j) :
    g.name <:+ f.name := by
  obtain ⟨t, ht⟩ := h
  have hcolon : f.text[j + g.name.length]? = some 58 := by
    rw [← List.getElem?_drop, ← ht, Field.key, List.append_assoc,
      List.getElem?_append_right le_rfl, Nat.sub_self]
    rfl
  have hj := Field.colon_at hcolon
  refine ⟨f.name.take j, ?_⟩
  have hname : g.name = f.name.drop j := by
    have htake := congrArg (List.take g.name.length) ht
    rw [Field.key, List.append_assoc, List.take_left, Field.text_eq,
      List.drop_append_of_le_length (by omega), List.take_left'] at htake
    · exact htake
    · rw [List.length_drop]
      omega
  rw [hname, List.take_append_drop]

theorem Field.key_notFound {f g : Field} (h : ¬ g.name <:+ f.name) :
    firstOccurrence g.key f.text = none := by
  rw [firstOccurrence_eq_none_iff]
  intro j hj
  exact h (Field.suffix_of_key_found hj)

theorem Field.key_found {f g : Field} (h : g.name = f.name) :
    firstOccurrence g.key f.text = some 0 := by
  apply firstOccurrence_zero
  rw [Field.key, h, ← Field.key, Field.text, Field.line, List.append_assoc]
  exact List.prefix_append _ _

theorem toInt32_add (a b : Int) : toInt32 (toInt32 a + b) = toInt32 (a + b) :=
  Int.bmod_add_bmod

theorem toInt32_congr {a b : Int} (h : a = b) : toInt32 a = toInt32 b := congrArg toInt32 h

theorem toInt32_of_lt {n : Nat} (h : n < 2147483648) : toInt32 n = n :=
  Int.bmod_eq_of_le (by omega) (by omega)

theorem toInt32_size {n : Nat} (h : n ≤ intMax) : toInt32 n = n :=
  toInt32_of_lt (Nat.lt_succ_of_le h)

def statusLine (d : ErrorDescription) : Bytes :=
  httpVersion ++ bytes " " ++ d.errorCode ++ bytes " " ++ d.errorStatus

/-- The text of a header: the status line, the fields, the blank line. -/
def headerText (d : ErrorDescription) (fields : List Field) : Bytes :=
  headerBlock (statusLine d :: fields.map Field.line)

/-- A response header that carries a status line and a list of fields. -/
structure Built (resp : HttpResponseHeader) (d : ErrorDescription) (fields : List Field) :
    Prop where
  version_eq : resp.version = some httpVersion
  statusCode_eq : resp.statusCode = some d.errorCode
  status_eq : resp.status = some d.errorStatus
  body_eq : resp.body = fields.map Field.text
  total_eq : resp.totalByteLength = toInt32 ((headerText d fields).length + 1)

theorem headerText_eq (d : ErrorDescription) (fields : List Field) :
    headerText d fields =
      statusLine d ++ crlf ++ (fields.map Field.text).flatten ++ crlf := by
  rw [headerText, headerBlock, List.flatMap_cons, List.flatMap_map, ← List.flatMap_def]
  rfl

theorem length_headerText (d : ErrorDescription) (fields : List Field) :
    (headerText d fields).length =
      (statusLine d).length + (fields.map fun f => f.text.length).sum + 4 := by
  rw [headerText_eq]
  simp only [List.length_append, List.length_flatten, List.map_map, Function.comp_def, crlf,
    List.length_cons, List.length_nil]
  omega

theorem Built.responseToBuff {resp : HttpResponseHeader} {d : ErrorDescription}
    {fields : List Field} (h : Built resp d fields) :
    responseToBuff resp = some (headerText d fields) := by
  rw [HttpParser.responseToBuff, h.version_eq, h.statusCode_eq, h.status_eq, h.body_eq,
    headerText_eq]
  rfl

theorem built_statusLine (d : ErrorDescription) :
    Built (setResponseStatusLine {} httpVersion d.errorCode d.errorStatus) d [] := by
  refine ⟨rfl, rfl, rfl, rfl, ?_⟩
  simp only [setResponseStatusLine, length_headerText]
  apply toInt32_congr
  simp [statusLine, sizeofHeaderDeliminations, bytes]
  omega

/-- Reserving room does not touch what the header says. -/
theorem Built.reserveField {resp : HttpResponseHeader} {d : ErrorDescription}
    {fields : List Field} (h : Built resp d fields) (hlimit : fields.length < httpBodyFieldLimit) :
    ∃ resp', reserveField resp = some resp' ∧ Built resp' d fields := by
  have hlen : resp.body.length = fields.length := by rw [h.body_eq, List.length_map]
  have hne : resp.body.length ≠ httpBodyFieldLimit := by omega
  simp only [HttpParser.reserveField, if_neg hne]
  split
  · exact ⟨_, rfl, { h with }⟩
  · split
    · exact ⟨_, rfl, { h with }⟩
    · exact ⟨_, rfl, h⟩

/-- `SetResponseProperty` on a proper field, past the reservation. -/
theorem Built.setResponseProperty_eq {resp : HttpResponseHeader} {d : ErrorDescription}
    {fields : List Field} (h : Built resp d fields) (hlimit : fields.length < httpBodyFieldLimit)
    (f : Field) :
    ∃ resp', Built resp' d fields ∧
      setResponseProperty resp f.text = storeField resp' f.key f.text := by
  obtain ⟨resp', hreserve, hbuilt⟩ := h.reserveField hlimit
  refine ⟨resp', hbuilt, ?_⟩
  have hkey : (f.key.length : Int) ≠ otherError := by
    rw [otherError, networkError]
    omega
  rw [setResponseProperty, hreserve]
  simp only [f.getKeywordIndex_text, if_neg hkey, Int.toNat_natCast, f.take_text]

theorem findKey_eq_none {fields : List Field} {f : Field}
    (hnew : ∀ name ∈ fields.map Field.name, ¬ f.name <:+ name) :
    ((fields.map Field.text).findIdx? fun field => (firstOccurrence f.key field).isSome) =
      none := by
  rw [List.findIdx?_eq_none_iff]
  intro text htext
  obtain ⟨g, hg, rfl⟩ := List.mem_map.mp htext
  rw [Field.key_notFound (hnew g.name (List.mem_map_of_mem hg))]
  rfl

/-- A field with a new name is appended. -/
theorem Built.append {resp : HttpResponseHeader} {d : ErrorDescription} {fields : List Field}
    (h : Built resp d fields) (hlimit : fields.length < httpBodyFieldLimit) {f : Field}
    (hnew : ∀ name ∈ fields.map Field.name, ¬ f.name <:+ name) :
    Built (setResponseProperty resp f.text) d (fields ++ [f]) := by
  obtain ⟨resp', hbuilt, heq⟩ := h.setResponseProperty_eq hlimit f
  rw [heq, storeField, hbuilt.body_eq, findKey_eq_none hnew]
  refine ⟨hbuilt.version_eq, hbuilt.statusCode_eq, hbuilt.status_eq, ?_, ?_⟩
  · simp only [List.map_append, List.map_cons, List.map_nil]
  · simp only [hbuilt.total_eq, toInt32_add]
    apply toInt32_congr
    simp only [length_headerText, List.map_append, List.sum_append, List.map_cons, List.map_nil,
      List.sum_cons, List.sum_nil]
    omega

/-- A field whose name is there already takes the place of the old one. -/
theorem Built.replace {resp : HttpResponseHeader} {d : ErrorDescription}
    {before after : List Field} {old : Field} (h : Built resp d (before ++ old :: after))
    (hlimit : (before ++ old :: after).length < httpBodyFieldLimit) {f : Field}
    (hnew : ∀ name ∈ before.map Field.name, ¬ f.name <:+ name) (hold : f.name = old.name) :
    Built (setResponseProperty resp f.text) d (before ++ f :: after) := by
  obtain ⟨resp', hbuilt, heq⟩ := h.setResponseProperty_eq hlimit f
  have hmap : resp'.body = before.map Field.text ++ old.text :: after.map Field.text := by
    rw [hbuilt.body_eq, List.map_append, List.map_cons]
  have hfind : (resp'.body.findIdx? fun field => (firstOccurrence f.key field).isSome) =
      some before.length := by
    rw [hmap, List.findIdx?_append, findKey_eq_none hnew, List.findIdx?_cons,
      Field.key_found hold]
    simp
  have hget : resp'.body.getD before.length [] = old.text := by
    simp [hmap, List.getD_eq_getElem?_getD]
  rw [heq, storeField, hfind]
  refine ⟨hbuilt.version_eq, hbuilt.statusCode_eq, hbuilt.status_eq, ?_, ?_⟩
  · simp only [hmap]
    rw [List.set_append_right _ _ (by simp)]
    simp
  · simp only [hget, hbuilt.total_eq, toInt32_add]
    apply toInt32_congr
    simp only [length_headerText, List.map_append, List.sum_append, List.map_cons, List.sum_cons]
    omega

/-- A value that keeps a field in one line. -/
def PlainValue (value : Bytes) : Prop := 58 ∉ value ∧ 13 ∉ value

instance (value : Bytes) : Decidable (PlainValue value) :=
  inferInstanceAs (Decidable (_ ∧ _))

def typeField (type : Bytes) (h : PlainValue type) : Field :=
  ⟨bytes "Content-Type", type, by decide, by decide, h⟩

def serverField : Field :=
  ⟨bytes "Server", bytes "IhorWebServer_2004", by decide, by decide, by decide⟩

def connectionField (isKeepAlive : Bool) : Field :=
  ⟨bytes "Connection", if isKeepAlive then bytes "Keep-Alive" else bytes "close",
    by decide, by decide, by cases isKeepAlive <;> decide⟩

def transferEncodingField : Field :=
  ⟨bytes "Transfer-Encoding", bytes "chunked", by decide, by decide, by decide⟩

theorem decNumeral_plain (n : Nat) : PlainValue (decNumeral n) := by
  have hdigit : ∀ d < 10, digitByte d ≠ 58 ∧ digitByte d ≠ 13 := by decide
  have hmem : ∀ b ∈ decNumeral n, b ≠ 58 ∧ b ≠ 13 := by
    intro b hb
    rw [decNumeral, if_neg (by omega), Int.natAbs_natCast] at hb
    obtain ⟨d, hd, rfl⟩ := mem_numeral (by decide) hb
    exact hdigit d hd
  exact ⟨fun h => (hmem _ h).1 rfl, fun h => (hmem _ h).2 rfl⟩

def contentLengthField (size : Nat) : Field :=
  ⟨bytes "Content-Length", decNumeral size, by decide, by decide, decNumeral_plain size⟩

theorem mime_plain (extension : String) {type : List Char}
    (hplain : (type.all fun c => UInt8.ofNat c.toNat != 58 && UInt8.ofNat c.toNat != 13) = true)
    (hlength : type.length ≤ 73) :
    PlainValue (mime extension (String.ofList type)).type ∧
      (mime extension (String.ofList type)).type.length ≤ 73 := by
  simp only [List.all_eq_true, Bool.and_eq_true, bne_iff_ne] at hplain
  simp only [mime, bytes_ofList, PlainValue, List.mem_map, not_exists, not_and, List.length_map]
  exact ⟨⟨fun c hc => (hplain c hc).1, fun c hc => (hplain c hc).2⟩, hlength⟩

/-- Every type of the table keeps its field in one line, and no type is long. -/
theorem kMimeTypes_plain : ∀ mime ∈ kMimeTypes, PlainValue mime.type ∧ mime.type.length ≤ 73 := by
  -- entry by entry: the characters of a literal are at hand, its decoding is slow
  unfold kMimeTypes
  repeat
    refine List.forall_mem_cons.mpr ⟨mime_plain _ (by decide) (by decide), ?_⟩
  exact List.forall_mem_nil _

/-- The type of a file: the last one in the table whose extension is found. -/
def chosenType (filename : Bytes) : Bytes :=
  ((kMimeTypes.filter fun mime => (stristr filename mime.extension).isSome).getLast?.map
    MimeType.type).getD (bytes "text/plain")

theorem chosenType_plain (filename : Bytes) :
    PlainValue (chosenType filename) ∧ (chosenType filename).length ≤ 73 := by
  rw [chosenType]
  cases h : (kMimeTypes.filter fun mime => (stristr filename mime.extension).isSome).getLast? with
  | none => decide
  | some mime => exact kMimeTypes_plain mime (List.mem_filter.mp (List.mem_of_getLast? h)).1

def contentTypeField (filename : Bytes) : Field :=
  typeField (chosenType filename) (chosenType_plain filename).1

/-- The loop of `SetResponseContentType` keeps the last type that fits. -/
theorem matchMimeTypes_built {resp : HttpResponseHeader} {d : ErrorDescription}
    (h : Built resp d []) (filename : Bytes) (mimes : List MimeType)
    (hplain : ∀ mime ∈ mimes, PlainValue mime.type) :
    let state := mimes.foldl (matchMimeType filename) (resp, false)
    match (mimes.filter fun mime => (stristr filename mime.extension).isSome).getLast? with
    | none => state.2 = false ∧ Built state.1 d []
    | some mime => state.2 = true ∧
        ∃ f : Field, f.name = bytes "Content-Type" ∧ f.value = mime.type ∧ Built state.1 d [f] := by
  induction mimes using List.reverseRecOn with
  | nil => exact ⟨rfl, h⟩
  | append_singleton mimes mime ih =>
      have hm : PlainValue mime.type := hplain mime (by simp)
      have ih := ih fun m hm => hplain m (List.mem_append_left _ hm)
      simp only [List.foldl_append, List.foldl_cons, List.foldl_nil, matchMimeType,
        List.filter_append] at ih ⊢
      by_cases hfound : (stristr filename mime.extension).isSome
      · have hfilter : [mime].filter (fun m => (stristr filename m.extension).isSome) = [mime] := by
          simp [hfound]
        rw [hfilter, if_pos hfound, List.getLast?_concat]
        refine ⟨rfl, typeField mime.type hm, rfl, rfl, ?_⟩
        cases hlast : (mimes.filter fun m => (stristr filename m.extension).isSome).getLast? with
        | none =>
            rw [hlast] at ih
            exact ih.2.append (f := typeField mime.type hm) (by decide) (by simp)
        | some old =>
            rw [hlast] at ih
            obtain ⟨-, f, hname, -, hbuilt⟩ := ih
            have hbuilt' : Built _ d ([] ++ f :: []) := hbuilt
            exact hbuilt'.replace (f := typeField mime.type hm) (by simp [httpBodyFieldLimit])
              (by simp) hname.symm
      · have hfilter : [mime].filter (fun m => (stristr filename m.extension).isSome) = [] := by
          simp [hfound]
        rw [hfilter, if_neg hfound, List.append_nil]
        exact ih

theorem Built.contentType {resp : HttpResponseHeader} {d : ErrorDescription}
    (h : Built resp d []) (filename : Bytes) :
    Built (setResponseContentType resp filename) d [contentTypeField filename] := by
  have hloop := matchMimeTypes_built h filename kMimeTypes fun m hm => (kMimeTypes_plain m hm).1
  simp only [setResponseContentType]
  cases hlast : (kMimeTypes.filter fun m => (stristr filename m.extension).isSome).getLast? with
  | none =>
      rw [hlast] at hloop
      have htext : (contentTypeField filename).text = bytes "Content-Type: text/plain\r\n" := by
        simp only [contentTypeField, typeField, Field.text, Field.line, Field.key, chosenType,
          hlast, Option.map_none, Option.getD_none]
        decide
      rw [hloop.1, if_neg (by decide), ← htext]
      exact hloop.2.append (by decide) (by simp)
  | some mime =>
      rw [hlast] at hloop
      obtain ⟨htrue, f, hname, hvalue, hbuilt⟩ := hloop
      obtain rfl : f = contentTypeField filename := by
        apply Field.ext
        · exact hname
        · simp only [hvalue, contentTypeField, typeField, chosenType, hlast, Option.map_some,
            Option.getD_some]
      rw [htrue, if_pos rfl]
      exact hbuilt

def okDescription : ErrorDescription := ⟨bytes "200", bytes "OK"⟩

/-- The fields of a file's response before its encoding is known. -/
def staticFields (path : Bytes) (isKeepAlive : Bool) : List Field :=
  [contentTypeField path, serverField, connectionField isKeepAlive]

theorem staticDataHeader_built (path : Bytes) (isKeepAlive : Bool) :
    Built (staticDataHeader path isKeepAlive) okDescription (staticFields path isKeepAlive) := by
  have htype := (built_statusLine okDescription).contentType path
  have hserver := htype.append (f := serverField) (by simp [httpBodyFieldLimit])
    (show ∀ name ∈ [bytes "Content-Type"], ¬ bytes "Server" <:+ name by decide)
  have hconnection := hserver.append (f := connectionField isKeepAlive)
    (by simp [httpBodyFieldLimit])
    (show ∀ name ∈ [bytes "Content-Type", bytes "Server"], ¬ bytes "Connection" <:+ name by decide)
  have hserverText : bytes "Server: IhorWebServer_2004\r\n" = serverField.text := by decide
  have hkeepText : bytes "Connection: Keep-Alive\r\n" = (connectionField true).text := by decide
  have hcloseText : bytes "Connection: close\r\n" = (connectionField false).text := by decide
  rw [staticDataHeader, hserverText, hkeepText, hcloseText]
  cases isKeepAlive with
  | true => exact hconnection
  | false => exact hconnection

theorem staticFields_names (path : Bytes) (isKeepAlive : Bool) :
    (staticFields path isKeepAlive).map Field.name =
      [bytes "Content-Type", bytes "Server", bytes "Connection"] := rfl

/-- The header in front of a chunked body. -/
theorem chunkedHeader_built (path : Bytes) (isKeepAlive : Bool) :
    Built (setResponseProperty (staticDataHeader path isKeepAlive)
        (bytes "Transfer-Encoding: chunked\r\n"))
      okDescription (staticFields path isKeepAlive ++ [transferEncodingField]) := by
  have htext : bytes "Transfer-Encoding: chunked\r\n" = transferEncodingField.text := by decide
  rw [htext]
  apply (staticDataHeader_built path isKeepAlive).append (by simp [staticFields, httpBodyFieldLimit])
  rw [staticFields_names]
  show ∀ name ∈ [bytes "Content-Type", bytes "Server", bytes "Connection"],
    ¬ bytes "Transfer-Encoding" <:+ name
  decide

/-- The header in front of a body of known length. -/
theorem identityHeader_built (path : Bytes) (isKeepAlive : Bool) (size : Nat) :
    Built (setResponseContentLength (staticDataHeader path isKeepAlive) size)
      okDescription (staticFields path isKeepAlive ++ [contentLengthField size]) := by
  have htext : bytes "Content-Length: " ++ decNumeral size ++ crlf =
      (contentLengthField size).text := rfl
  rw [setResponseContentLength, htext]
  apply (staticDataHeader_built path isKeepAlive).append (by simp [staticFields, httpBodyFieldLimit])
  rw [staticFields_names]
  show ∀ name ∈ [bytes "Content-Type", bytes "Server", bytes "Connection"],
    ¬ bytes "Content-Length" <:+ name
  decide

/-- The trailing header of a connection that closes repeats the first one. -/
theorem trailerHeader_built {resp : HttpResponseHeader} {path : Bytes} {last : Field}
    (h : Built resp okDescription (staticFields path false ++ [last])) :
    Built (setResponseProperty resp (bytes "Connection: close\r\n")) okDescription
      (staticFields path false ++ [last]) := by
  have htext : bytes "Connection: close\r\n" = (connectionField false).text := by decide
  have h' : Built resp okDescription
      ([contentTypeField path, serverField] ++ connectionField false :: [last]) := h
  rw [htext]
  exact h'.replace (by simp [httpBodyFieldLimit])
    (show ∀ name ∈ [bytes "Content-Type", bytes "Server"], ¬ bytes "Connection" <:+ name by decide)
    rfl

/-- The fields of the response that carries a file of the given size. -/
def responseFields (path : Bytes) (isKeepAlive isChunkEncoding : Bool) (size : Nat) :
    List Field :=
  staticFields path isKeepAlive ++
    [if isChunkEncoding then transferEncodingField else contentLengthField size]

def responseHeader (path : Bytes) (isKeepAlive isChunkEncoding : Bool) (size : Nat) : Bytes :=
  headerText okDescription (responseFields path isKeepAlive isChunkEncoding size)

theorem length_decNumeral_le {n : Nat} (h : n ≤ intMax) : (decNumeral n).length ≤ 10 := by
  rw [decNumeral, if_neg (by omega), Int.natAbs_natCast]
  by_cases hn : n = 0
  · subst hn
    decide
  · rw [length_numeral_le_iff (by decide) hn]
    have : intMax = 2147483647 := by decide
    omega

theorem Field.length_text (f : Field) : f.text.length = f.name.length + f.value.length + 4 := by
  simp only [Field.text, Field.line, Field.key, List.length_append, crlf, List.length_cons,
    List.length_nil]
  have : (bytes ": ").length = 2 := by decide
  omega

/-- A response header leaves most of the first write to the file. -/
theorem length_responseHeader_le (path : Bytes) (isKeepAlive isChunkEncoding : Bool) {size : Nat}
    (h : size ≤ intMax) :
    (responseHeader path isKeepAlive isChunkEncoding size).length ≤ 188 := by
  have htype := (chosenType_plain path).2
  have hsize := length_decNumeral_le h
  have hstatus : (statusLine okDescription).length = 15 := by decide
  have hconnection : (connectionField isKeepAlive).text.length ≤ 24 := by
    cases isKeepAlive <;> decide
  have hlast : (if isChunkEncoding then transferEncodingField
      else contentLengthField size).text.length ≤ 28 := by
    cases isChunkEncoding
    · have hname : (bytes "Content-Length").length = 14 := by decide
      simp only [Bool.false_eq_true, if_false, Field.length_text, contentLengthField, hname]
      omega
    · show transferEncodingField.text.length ≤ 28
      decide
  have hserver : serverField.text.length = 28 := by decide
  have hcontent : (contentTypeField path).text.length = (chosenType path).length + 16 := by
    rw [Field.length_text, Nat.add_right_comm]
    exact Nat.add_comm _ _
  rw [responseHeader, length_headerText]
  simp only [responseFields, staticFields, List.cons_append, List.nil_append, List.map_cons,
    List.map_nil, List.sum_cons, List.sum_nil, hstatus, hserver, hcontent]
  omega

/-- The header ends at its blank line, whatever follows. -/
theorem splitMessage_responseHeader (path : Bytes) (isKeepAlive isChunkEncoding : Bool)
    (size : Nat) (body : Bytes) :
    splitMessage (responseHeader path isKeepAlive isChunkEncoding size ++ body) =
      some (responseHeader path isKeepAlive isChunkEncoding size, body) := by
  apply splitMessage_headerBlock (List.cons_ne_nil _ _)
  intro line hline
  rcases List.mem_cons.mp hline with rfl | hline
  · exact ⟨by decide, by decide⟩
  · obtain ⟨f, -, rfl⟩ := List.mem_map.mp hline
    exact f.line_isLine

/-- The block that `SendHttpHeader` assembles, up to the bytes it writes. -/
theorem payload_eq {text data : Bytes} {n : Nat} (hn : n = text.length + 1 + data.length) :
    (overwrite (overwrite (List.replicate n 0) 0 (text ++ [0])) text.length data).take (n - 1) =
      text ++ data := by
  have hfirst : (overwrite (List.replicate n (0 : UInt8)) 0 (text ++ [0])).take text.length =
      text := by
    have hfits : 0 + (text ++ [0]).length ≤ (List.replicate n (0 : UInt8)).length := by
      simp only [List.length_append, List.length_singleton, List.length_replicate]
      omega
    have htake := congrArg (List.take text.length) (take_overwrite_end hfits)
    rw [List.take_take, List.take_zero, List.nil_append, List.take_left] at htake
    rwa [Nat.min_eq_left (by simp)] at htake
  have hlen : n - 1 = text.length + data.length := by omega
  rw [hlen, take_overwrite_end (by simp; omega), hfirst]

/-- Appending nothing and not appending are the same. -/
theorem appendPayload_eq (payload : Bytes) (offset : Nat) (appendData : Option Bytes)
    (dataSize : Nat) :
    appendPayload payload offset appendData dataSize =
      overwrite payload offset ((appendData.getD []).take dataSize) := by
  cases appendData with
  | none => simp only [appendPayload, Option.getD_none, List.take_nil, overwrite_nil]
  | some data =>
      by_cases hzero : dataSize = 0
      · simp [appendPayload, hzero]
      · rw [appendPayload, if_pos (by omega)]
        rfl

/-- The status line is set, and the count is that of the text and its zero. -/
structure Exact (resp : HttpResponseHeader) (text : Bytes) : Prop where
  buff_eq : responseToBuff resp = some text
  total_eq : resp.totalByteLength = (text.length + 1 : Nat)

theorem Built.exact {resp : HttpResponseHeader} {d : ErrorDescription}
    {fields : List Field} (h : Built resp d fields)
    (hroom : (headerText d fields).length + 1 ≤ maxChunkSize) :
    Exact resp (headerText d fields) := by
  refine ⟨h.responseToBuff, ?_⟩
  rw [h.total_eq, ← Nat.cast_succ]
  apply toInt32_of_lt
  have : maxChunkSize = 8192 := rfl
  omega

section Send

variable {resp : HttpResponseHeader} {text : Bytes}

theorem Exact.grown (h : Exact resp text) {n : Nat} (hint : text.length + 1 + n ≤ intMax) :
    toInt32 (resp.totalByteLength + n) = (text.length + 1 + n : Nat) := by
  have hmax : intMax = 2147483647 := rfl
  rw [h.total_eq, ← Nat.cast_add]
  apply toInt32_of_lt
  omega

/-- What was added for the data is taken away again. -/
theorem Exact.restored (h : Exact resp text) {n : Nat} (hint : text.length + 1 + n ≤ intMax) :
    toInt32 ((text.length + 1 + n : Nat) - n : Int) = resp.totalByteLength := by
  have hmax : intMax = 2147483647 := rfl
  rw [h.total_eq, Nat.cast_add, Int.add_sub_cancel]
  apply toInt32_of_lt
  omega

/-- A header whose data does not fit is not sent. -/
theorem Exact.sendHttpHeader_refused (h : Exact resp text) (env : Env) (site : WriteSite)
    (c : Conn) (appendData : Option Bytes) {n : Nat} (hint : text.length + 1 + n ≤ intMax)
    (hroom : maxChunkSize < text.length + 1 + n) :
    sendHttpHeader env site resp appendData n c = (networkError, resp, c) := by
  simp only [sendHttpHeader, h.grown hint, h.restored hint]
  rw [if_pos (by exact_mod_cast hroom)]

/-- A header whose data fits goes out in one write, its data behind the text. -/
theorem Exact.sendHttpHeader_written (h : Exact resp text) (env : Env) (site : WriteSite)
    (c : Conn) {appendData : Option Bytes} {n : Nat} (hdata : n ≤ (appendData.getD []).length)
    (hroom : text.length + 1 + n ≤ maxChunkSize) :
    sendHttpHeader env site resp appendData n c =
      let buffer := text ++ (appendData.getD []).take n
      (if (sslWrite env site buffer c).1 < 0 then networkError else 0, resp,
        (sslWrite env site buffer c).2) := by
  have hint : text.length + 1 + n ≤ intMax := hroom.trans (by decide)
  have hbuff : responseToBuff { resp with
      totalByteLength := ((text.length + 1 + n : Nat) : Int) } = some text := h.buff_eq
  have hoff : ((text.length + 1 + n : Nat) : Int) - n - 1 = (text.length : Nat) := by omega
  have hlast : (((text.length + 1 + n : Nat) : Int) - 1).toNat = text.length + 1 + n - 1 := by
    omega
  have hdataLength : ((appendData.getD []).take n).length = n := by
    rw [List.length_take, Nat.min_eq_left hdata]
  simp only [sendHttpHeader, h.grown hint, h.restored hint, hbuff, Option.getD_some,
    Int.toNat_natCast, hoff, hlast, appendPayload_eq]
  rw [if_neg (by omega), payload_eq (by rw [hdataLength])]
  split <;> rfl

/-- `SendHttpHeader` leaves the header as it was; it writes the text and the data
at once or, when they do not fit, nothing. -/
theorem sendHttpHeader_allOrNothing (env : Env) (site : WriteSite) (c : Conn)
    (hbuff : responseToBuff resp = some text)
    (htotal : resp.totalByteLength = (text.length + 1 : Nat))
    {appendData : Option Bytes} {n : Nat} (hdata : n ≤ (appendData.getD []).length)
    (hint : text.length + 1 + n ≤ intMax) :
    let sent := sendHttpHeader env site resp appendData n c
    let buffer := text ++ (appendData.getD []).take n
    let ret := env.sslWrite c.log buffer
    sent.2.1 = resp ∧
      (text.length + 1 + n ≤ maxChunkSize →
        sent.1 = (if ret < 0 then networkError else 0) ∧
          sent.2.2 = c.emit (.write site buffer ret)) ∧
      (maxChunkSize < text.length + 1 + n → sent.1 = networkError ∧ sent.2.2 = c) := by
  have hexact : Exact resp text := ⟨hbuff, htotal⟩
  intro sent buffer ret
  rcases Nat.lt_or_ge maxChunkSize (text.length + 1 + n) with hroom | hroom
  · have hsent : sent = (networkError, resp, c) :=
      hexact.sendHttpHeader_refused env site c appendData hint hroom
    rw [hsent]
    exact ⟨rfl, fun hfits => absurd hroom (by omega), fun _ => ⟨rfl, rfl⟩⟩
  · have hsent : sent = (if ret < 0 then networkError else 0, resp,
        c.emit (.write site buffer ret)) :=
      hexact.sendHttpHeader_written env site c hdata hroom
    rw [hsent]
    exact ⟨rfl, fun _ => ⟨rfl, rfl⟩, fun hlarge => absurd hroom (by omega)⟩

theorem sendHttpHeader_allOrNothing_okHeader :
    let resp := setResponseStatusLine {} (bytes "HTTP/1.1") (bytes "200") (bytes "OK")
    let c : Conn := ⟨.fresh [] [], []⟩
    let sent := sendHttpHeader (.steady fun _ => none) .error resp (some [0, 10, 13]) (2 : Nat) c
    sent.2.1 = resp ∧ sent.1 = 0 ∧
      sent.2.2 = c.emit (.write .error (bytes "HTTP/1.1 200 OK\r\n\r\n" ++ [0, 10]) 21) := by
  intro resp c sent
  obtain ⟨hresp, hwritten, -⟩ :=
    @sendHttpHeader_allOrNothing resp (bytes "HTTP/1.1 200 OK\r\n\r\n")
      (.steady fun _ => none) .error c (by decide) (by decide) (some [0, 10, 13]) 2
      (by decide) (by decide)
  obtain ⟨hresult, hconn⟩ := hwritten (by decide)
  exact ⟨hresp, hresult, hconn⟩

end Send

/-- What one call of `SendHttpHeader` puts on the wire: the header and the
appended bytes, in one write. -/
theorem sendHttpHeader_eq (env : Env) (site : WriteSite) (c : Conn)
    {resp : HttpResponseHeader} {d : ErrorDescription} {fields : List Field}
    (h : Built resp d fields) {appendData : Option Bytes} {dataSize : Nat}
    (hdata : dataSize ≤ (appendData.getD []).length)
    (hroom : (headerText d fields).length + 1 + dataSize ≤ maxChunkSize) :
    sendHttpHeader env site resp appendData dataSize c =
      let buffer := headerText d fields ++ (appendData.getD []).take dataSize
      (if (sslWrite env site buffer c).1 < 0 then networkError else 0, resp,
        (sslWrite env site buffer c).2) :=
  (h.exact (by omega)).sendHttpHeader_written env site c hdata hroom

end HttpsServ.ResponseHeader
