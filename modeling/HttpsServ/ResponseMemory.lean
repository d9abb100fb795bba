import HttpsServ.ContentLength
import HttpsServ.FieldSlots
import HttpsServ.Library.HeapProgram

/-!
# The memory of response headers

The functions of http_parser.c that build, write out and free a response header,
with every block that they take, fill and give back. Each string of the header is
a block of its own, and so is the array of the fields. The programs compute what
the functions on header values compute. They lose the strings of a status line
that is set again, and the array that is taken again while there is no field.
-/

namespace HttpsServ.ResponseMemory

open ByteString Utility Numeral HttpParser HeaderUpdates FieldSlots HeapProgram

/-- `struct HttpResponseHeader`; a pointer is the address of its block. -/
structure HeldResponse where
  version : Option Nat := none
  statusCode : Option Nat := none
  status : Option Nat := none
  body : Option Nat := none
  numberOfBodyFields : Nat := 0
  totalByteLength : Int := 0

/-- An access through a pointer, which must not be `NULL`. -/
def deref : Option Nat → Program Nat
  | some address => pure address
  | none => undefined

/-- An array of pointers in which nothing is stored. -/
def mallocSlots (count : Nat) : Program Nat := malloc (.pointers (List.replicate count none))

/-- `ExpandBodySize`. -/
def expandBodySize (resp : HeldResponse) : Program HeldResponse := do
  let newBody ← mallocSlots (resp.numberOfBodyFields * 2)
  let body ← deref resp.body
  copySlots newBody body resp.numberOfBodyFields
  free body
  pure { resp with body := some newBody }

/-- The first branch of `SetResponseProperty`; `none` at the field limit. -/
def reserveField (resp : HeldResponse) : Program (Option HeldResponse) :=
  if resp.numberOfBodyFields = 0 then do
    let body ← mallocSlots 2
    pure (some { resp with body := some body })
  else if resp.numberOfBodyFields = httpBodyFieldLimit then pure none
  else if BitVec.ofNat 32 resp.numberOfBodyFields =
      nextHighestPowerOfTwo (BitVec.ofNat 32 resp.numberOfBodyFields) then do
    let resp ← expandBodySize resp
    pure (some resp)
  else pure (some resp)

/-- The copy of the key of a property. -/
def copyKey (property : Bytes) (propertyKeyLength : Nat) : Program Nat := do
  let propertyKey ← mallocChars (propertyKeyLength + 1)
  memcpy propertyKey 0 (property.take propertyKeyLength)
  memcpy propertyKey propertyKeyLength [0]
  pure propertyKey

/-- The loop of `SetResponseProperty`: the first slot from `i` on whose field
contains the key. -/
def findField (propertyKey body numberOfBodyFields i : Nat) : Program (Option Nat) :=
  if i < numberOfBodyFields then do
    let field ← loadSlot body i
    let line ← loadText field
    let key ← loadText propertyKey
    if (firstOccurrence key line).isSome then pure (some i)
    else findField propertyKey body numberOfBodyFields (i + 1)
  else pure none
termination_by numberOfBodyFields - i

/-- The body of the loop when the key is found. -/
def overwriteField (resp : HeldResponse) (body i : Nat) (property : Bytes) :
    Program HeldResponse := do
  let field ← loadSlot body i
  let line ← loadText field
  let field ← reallocChars field (property.length + 1)
  storeSlot body i field
  strcpy field property
  pure { resp with
    totalByteLength := toInt32 (resp.totalByteLength + (property.length - line.length)) }

/-- The end of `SetResponseProperty`. -/
def appendField (resp : HeldResponse) (body : Nat) (property : Bytes) : Program HeldResponse := do
  let field ← mallocChars (property.length + 1)
  storeSlot body resp.numberOfBodyFields field
  strcpy field property
  pure { resp with
    totalByteLength := toInt32 (resp.totalByteLength + property.length)
    numberOfBodyFields := resp.numberOfBodyFields + 1 }

/-- `SetResponseProperty` behind its first branch. -/
def storeField (resp : HeldResponse) (property : Bytes) : Program HeldResponse := do
  let propertyKeyLength := getKeywordIndex property (bytes " ")
  if propertyKeyLength = otherError then pure resp
  else
    let propertyKey ← copyKey property propertyKeyLength.toNat
    let body ← deref resp.body
    let found ← findField propertyKey body resp.numberOfBodyFields 0
    free propertyKey
    match found with
    | some i => overwriteField resp body i property
    | none => appendField resp body property

def setResponseProperty (resp : HeldResponse) (property : Bytes) : Program HeldResponse := do
  match ← reserveField resp with
  | none => pure resp
  | some resp => storeField resp property

def setResponseStatusLine (resp : HeldResponse) (version statusCode status : Bytes) :
    Program HeldResponse := do
  let versionCopy ← mallocChars (version.length + 1)
  let statusCodeCopy ← mallocChars (statusCode.length + 1)
  let statusCopy ← mallocChars (status.length + 1)
  strcpy versionCopy version
  strcpy statusCodeCopy statusCode
  strcpy statusCopy status
  pure { resp with
    version := some versionCopy
    statusCode := some statusCodeCopy
    status := some statusCopy
    totalByteLength := toInt32 (resp.totalByteLength +
      (version.length + statusCode.length + status.length + sizeofHeaderDeliminations)) }

/-- A property that is built in a block of its own from three strings. -/
def setBuiltProperty (resp : HeldResponse) (size : Nat) (name value : Bytes) :
    Program HeldResponse := do
  let property ← mallocChars size
  strcpy property name
  strcat property value
  strcat property crlf
  let line ← loadText property
  let resp ← setResponseProperty resp line
  free property
  pure resp

/-- The loop of `SetResponseContentType`, with `is_extension_match`. -/
def matchMimeTypes (filename : Bytes) :
    List MimeType → HeldResponse × Bool → Program (HeldResponse × Bool)
  | [], state => pure state
  | mime :: mimes, (resp, isExtensionMatch) =>
      if (stristr filename mime.extension).isSome then do
        let resp ← setBuiltProperty resp
          ((bytes "Content-Type: \r\n").length + mime.type.length + 1)
          (bytes "Content-Type: ") mime.type
        matchMimeTypes filename mimes (resp, true)
      else matchMimeTypes filename mimes (resp, isExtensionMatch)

def setResponseContentType (resp : HeldResponse) (filename : Bytes) : Program HeldResponse := do
  let (resp, isExtensionMatch) ← matchMimeTypes filename kMimeTypes (resp, false)
  if isExtensionMatch then pure resp
  else setResponseProperty resp (bytes "Content-Type: text/plain\r\n")

def setResponseContentLength (resp : HeldResponse) (size : Int) : Program HeldResponse :=
  setBuiltProperty resp (contentLengthAllocation size) (bytes "Content-Length: ") (decNumeral size)

/-- The loop of `ResponseToBuff`. -/
def appendFields (buff : Nat) (resp : HeldResponse) (i : Nat) : Program Unit :=
  if i < resp.numberOfBodyFields then do
    let body ← deref resp.body
    let field ← loadSlot body i
    let line ← loadText field
    strcat buff line
    appendFields buff resp (i + 1)
  else pure ()
termination_by resp.numberOfBodyFields - i

/-- `ResponseToBuff`: the block that it fills, or `none` for `OTHER_ERROR`. -/
def responseToBuff (resp : HeldResponse) : Program (Option Nat) :=
  match resp.version, resp.statusCode, resp.status with
  | some version, some statusCode, some status => do
      let buff ← mallocChars resp.totalByteLength.toNat
      let text ← loadText version
      strcpy buff text
      strcat buff (bytes " ")
      let text ← loadText statusCode
      strcat buff text
      strcat buff (bytes " ")
      let text ← loadText status
      strcat buff text
      strcat buff crlf
      appendFields buff resp 0
      strcat buff crlf
      pure (some buff)
  | _, _, _ => pure none

/-- The loop of `FreeHttpResponsetHeader`. -/
def freeFields (resp : HeldResponse) (i : Nat) : Program Unit :=
  if i < resp.numberOfBodyFields then do
    let body ← deref resp.body
    let field ← loadSlot body i
    free field
    freeFields resp (i + 1)
  else pure ()
termination_by resp.numberOfBodyFields - i

def freeHttpResponsetHeader (resp : HeldResponse) : Program Unit := do
  freeNullable resp.version
  freeNullable resp.statusCode
  freeNullable resp.status
  freeFields resp 0
  freeNullable resp.body

def applyCall (resp : HeldResponse) : HeaderCall → Program HeldResponse
  | .statusLine version statusCode status => setResponseStatusLine resp version statusCode status
  | .property line => setResponseProperty resp line
  | .contentType filename => setResponseContentType resp filename
  | .contentLength size => setResponseContentLength resp size

def runCalls (resp : HeldResponse) : List HeaderCall → Program HeldResponse
  | [] => pure resp
  | call :: calls => do
      let resp ← applyCall resp call
      runCalls resp calls

/-- A string and its zero in a block that they fill. -/
def stringCell (address : Nat) (text : Bytes) : Multiset (Nat × Block) :=
  cell address (.chars (text.length + 1) (text ++ [0]))

def fieldCells (fields : List (Nat × Bytes)) : Multiset (Nat × Block) :=
  (fields.map fun field => stringCell field.1 field.2).sum

/-- The strings of the status line; they are set together. -/
inductive StatusCells (held : HeldResponse) (resp : HttpResponseHeader) :
    Multiset (Nat × Block) → Prop
  | unset (hheld : held.version = none ∧ held.statusCode = none ∧ held.status = none)
      (hresp : statusFields resp = (none, none, none)) : StatusCells held resp 0
  | set {a b c : Nat} {version statusCode status : Bytes}
      (hheld : held.version = some a ∧ held.statusCode = some b ∧ held.status = some c)
      (hresp : statusFields resp = (some version, some statusCode, some status)) :
      StatusCells held resp (stringCell a version + stringCell b statusCode + stringCell c status)

/-- The array of the fields, with their addresses in its first slots. -/
inductive BodyCells (bodySlots : Nat) (fields : List (Nat × Bytes)) :
    Option Nat → Multiset (Nat × Block) → Prop
  | null (hslots : bodySlots = 0) (hfields : fields = []) : BodyCells bodySlots fields none 0
  | array {address : Nat} {slots : List (Option Nat)} (hlength : slots.length = bodySlots)
      (hpos : bodySlots ≠ 0) (hstart : (fields.map fun field => some field.1) <+: slots) :
      BodyCells bodySlots fields (some address) (cell address (.pointers slots))

/-- The blocks that a header is made of, and the value it has. -/
inductive Stands (held : HeldResponse) (resp : HttpResponseHeader) : Multiset (Nat × Block) → Prop
  | intro {statusBlocks bodyBlocks : Multiset (Nat × Block)} (fields : List (Nat × Bytes))
      (hstatus : StatusCells held resp statusBlocks)
      (hbody : BodyCells resp.bodySlots fields held.body bodyBlocks)
      (hfields : fields.map Prod.snd = resp.body)
      (hcount : held.numberOfBodyFields = resp.body.length)
      (htotal : held.totalByteLength = resp.totalByteLength) :
      Stands held resp (statusBlocks + bodyBlocks + fieldCells fields)

theorem stands_zeroed : Stands {} {} 0 := by
  have h : Stands {} {} (0 + 0 + fieldCells []) :=
    .intro [] (.unset ⟨rfl, rfl, rfl⟩ rfl) (.null rfl rfl) rfl rfl rfl
  exact h

/-- The blocks of a header, and `lost` blocks that nothing points to. -/
def Holds (held : HeldResponse) (resp : HttpResponseHeader) (lost : Nat)
    (s : Multiset (Nat × Block)) : Prop :=
  ∃ own garbage, s = own + garbage ∧ Stands held resp own ∧ Multiset.card garbage = lost

/-- What a program does to a header it also does beside lost blocks. -/
theorem Holds.triple {held : HeldResponse} {resp resp' : HttpResponseHeader} {m k : Nat}
    {s : Multiset (Nat × Block)} {program : Program HeldResponse} (h : Holds held resp m s)
    (hprogram : ∀ own, Stands held resp own →
      Triple own program fun held' u => Holds held' resp' k u) :
    Triple s program fun held' u => Holds held' resp' (m + k) u := by
  obtain ⟨own, garbage, rfl, hstands, hcard⟩ := h
  apply ((hprogram own hstands).frame garbage).mono
  rintro held' u ⟨v, rfl, own', garbage', rfl, hstands', hcard'⟩
  refine ⟨own', garbage' + garbage, add_assoc _ _ _, hstands', ?_⟩
  rw [Multiset.card_add, hcard, hcard', Nat.add_comm]

section Fields

variable {fields : List (Nat × Bytes)} {slots : List (Option Nat)}

theorem fieldCells_append (front back : List (Nat × Bytes)) :
    fieldCells (front ++ back) = fieldCells front + fieldCells back := by
  rw [fieldCells, List.map_append, List.sum_append]
  rfl

theorem fieldCells_singleton (field : Nat × Bytes) :
    fieldCells [field] = stringCell field.1 field.2 := by
  rw [fieldCells, List.map_singleton, List.sum_singleton]

/-- The block of one field, and those of the others. -/
theorem fieldCells_set {i : Nat} (hi : i < fields.length) (field : Nat × Bytes) :
    fieldCells (fields.set i field) =
      fieldCells (fields.take i ++ fields.drop (i + 1)) + stringCell field.1 field.2 := by
  rw [List.set_eq_take_append_cons_drop, if_pos hi, ← List.singleton_append, fieldCells_append,
    fieldCells_append, fieldCells_append, fieldCells_singleton]
  abel

theorem fieldCells_split {i : Nat} (hi : i < fields.length) :
    fieldCells fields =
      fieldCells (fields.take i ++ fields.drop (i + 1)) +
        stringCell fields[i].1 fields[i].2 := by
  rw [← fieldCells_set hi, List.set_getElem_self]

theorem slot_of_start (hstart : (fields.map fun field => some field.1) <+: slots) {i : Nat}
    (hi : i < fields.length) : slots.getD i none = some fields[i].1 := by
  obtain ⟨free, rfl⟩ := hstart
  rw [List.getD_append _ _ _ _ (by rwa [List.length_map]),
    List.getD_eq_getElem _ _ (by rwa [List.length_map]), List.getElem_map]

theorem start_set (hstart : (fields.map fun field => some field.1) <+: slots) (i : Nat)
    (field : Nat × Bytes) :
    ((fields.set i field).map fun field => some field.1) <+: slots.set i (some field.1) := by
  obtain ⟨free, rfl⟩ := hstart
  rw [List.map_set]
  by_cases hi : i < (fields.map fun field => some field.1).length
  · rw [List.set_append_left _ _ hi]
    exact List.prefix_append _ _
  · have hge := Nat.not_lt.mp hi
    rw [List.set_eq_of_length_le hge, List.set_append_right _ _ hge]
    exact List.prefix_append _ _

theorem start_concat (hstart : (fields.map fun field => some field.1) <+: slots)
    (hfree : fields.length < slots.length) (field : Nat × Bytes) :
    ((fields ++ [field]).map fun field => some field.1) <+:
      slots.set fields.length (some field.1) := by
  obtain ⟨free, rfl⟩ := hstart
  cases free with
  | nil =>
      rw [List.append_nil, List.length_map] at hfree
      exact absurd hfree (Nat.lt_irrefl _)
  | cons slot free =>
      refine ⟨free, ?_⟩
      rw [List.set_append_right _ _ (List.length_map _).le, List.length_map, Nat.sub_self,
        List.set_cons_zero, List.map_append, List.append_assoc]
      rfl

end Fields

section Search

variable {s t : Multiset (Nat × Block)} {fields : List (Nat × Bytes)}
  {slots : List (Option Nat)} {body : Nat}

/-- A field is found through its slot, and its block holds its line. -/
theorem loadField_triple {i : Nat} (hi : i < fields.length)
    (hs : s = t + cell body (.pointers slots) + fieldCells fields)
    (hstart : (fields.map fun field => some field.1) <+: slots) :
    Triple s (loadSlot body i) (fun b u => b = fields[i].1 ∧ u = s) ∧
      Triple s (loadText fields[i].1) (fun b u => b = fields[i].2 ∧ u = s) := by
  constructor
  · apply loadSlot_triple (t := t + fieldCells fields) _ (slot_of_start hstart hi)
    rw [hs]
    abel
  · have hblock : s = t + cell body (.pointers slots) +
        fieldCells (fields.take i ++ fields.drop (i + 1)) +
          stringCell fields[i].1 fields[i].2 := by
      rw [hs, fieldCells_split hi]
      abel
    exact loadText_triple hblock

/-- The loop finds what the search in the list of the lines finds. -/
theorem findField_triple {propertyKey : Nat} {key : Bytes} (i : Nat)
    (hs : s = t + cell body (.pointers slots) + fieldCells fields + stringCell propertyKey key)
    (hstart : (fields.map fun field => some field.1) <+: slots) :
    Triple s (findField propertyKey body fields.length i) fun found u =>
      found = ((fields.drop i).findIdx? fun field => (firstOccurrence key field.2).isSome).map
        (· + i) ∧ u = s := by
  have hs' : s = t + stringCell propertyKey key + cell body (.pointers slots) +
      fieldCells fields := by
    rw [hs]
    abel
  induction hn : fields.length - i generalizing i with
  | zero =>
      have hend : fields.length ≤ i := Nat.le_of_sub_eq_zero hn
      rw [findField, if_neg (Nat.not_lt.mpr hend), List.drop_eq_nil_of_le hend]
      exact Triple.pure ⟨rfl, rfl⟩
  | succ n ih =>
      have hi : i < fields.length := by omega
      rw [findField, if_pos hi]
      apply (loadField_triple hi hs' hstart).1.value
      apply (loadField_triple hi hs' hstart).2.value
      apply (loadText_triple hs).value
      rw [List.drop_eq_getElem_cons hi, List.findIdx?_cons]
      by_cases hfound : (firstOccurrence key fields[i].2).isSome = true
      · rw [if_pos hfound, if_pos hfound]
        apply Triple.pure
        rw [Option.map_some, Nat.zero_add]
        exact ⟨rfl, rfl⟩
      · rw [if_neg hfound, if_neg hfound]
        apply (ih (i + 1) (by omega)).mono
        rintro found u ⟨rfl, rfl⟩
        refine ⟨?_, rfl⟩
        rw [Option.map_map]
        have hshift : (fun j => j + (i + 1)) = (fun j => j + i) ∘ fun j => j + 1 := by
          ext j
          rw [Function.comp_apply, Nat.add_assoc, Nat.add_comm 1 i]
        rw [hshift]

/-- The key is copied into a block that it fills. -/
theorem copyKey_triple (s : Multiset (Nat × Block)) {property : Bytes} {n : Nat}
    (hn : n ≤ property.length) :
    Triple s (copyKey property n) fun propertyKey u =>
      u = s + stringCell propertyKey (property.take n) := by
  have hlength : (property.take n).length = n := by rw [List.length_take, Nat.min_eq_left hn]
  apply (malloc_triple s _).bind
  rintro propertyKey u rfl
  apply (memcpy_triple rfl (Nat.zero_le _) (by rw [hlength]; omega)).step
  intro _
  simp only [List.take_nil, List.nil_append, List.drop_nil, List.append_nil]
  have hfits : n + [(0 : UInt8)].length ≤ n + 1 := le_rfl
  apply (memcpy_triple rfl hlength.ge hfits).step
  intro _
  apply Triple.pure
  rw [stringCell, List.take_of_length_le hlength.le, hlength, List.drop_eq_nil_of_le (by simp [hlength]),
    List.append_nil]

end Search

section Calls

variable {held : HeldResponse} {resp : HttpResponseHeader} {s : Multiset (Nat × Block)}

/-- The array that is lost when it is taken once more. -/
def lostArrays (resp : HttpResponseHeader) : Nat :=
  if resp.body = [] ∧ resp.bodySlots ≠ 0 then 1 else 0

/-- The strings that are lost when the status line is set once more. -/
def lostStrings (resp : HttpResponseHeader) : Nat := if resp.version.isSome then 3 else 0

theorem StatusCells.congr {held' : HeldResponse} {resp' : HttpResponseHeader}
    (h : StatusCells held resp s)
    (hheld : (held'.version, held'.statusCode, held'.status) =
      (held.version, held.statusCode, held.status))
    (hresp : statusFields resp' = statusFields resp) : StatusCells held' resp' s := by
  simp only [Prod.mk.injEq] at hheld
  obtain ⟨hversion, hstatusCode, hstatus⟩ := hheld
  cases h with
  | unset hnull hnone =>
      apply StatusCells.unset
      · rwa [hversion, hstatusCode, hstatus]
      · rwa [hresp]
  | set haddresses htexts =>
      apply StatusCells.set
      · rwa [hversion, hstatusCode, hstatus]
      · rwa [hresp]

theorem Stands.setResponseStatusLine (h : Stands held resp s) (version statusCode status : Bytes) :
    Triple s (setResponseStatusLine held version statusCode status) fun held' u =>
      Holds held' (HttpParser.setResponseStatusLine resp version statusCode status)
        (lostStrings resp) u := by
  apply (malloc_triple s _).bind
  rintro a _ rfl
  apply (malloc_triple _ _).bind
  rintro b _ rfl
  apply (malloc_triple _ _).bind
  rintro c _ rfl
  have hversion : s + cell a (.chars (version.length + 1) []) +
      cell b (.chars (statusCode.length + 1) []) + cell c (.chars (status.length + 1) []) =
      s + cell b (.chars (statusCode.length + 1) []) + cell c (.chars (status.length + 1) []) +
        cell a (.chars (version.length + 1) []) := by abel
  apply (strcpy_triple hversion (Nat.lt_succ_self _)).step
  intro _
  have hstatusCode : s + cell b (.chars (statusCode.length + 1) []) +
      cell c (.chars (status.length + 1) []) + stringCell a version =
      s + cell c (.chars (status.length + 1) []) + stringCell a version +
        cell b (.chars (statusCode.length + 1) []) := by abel
  apply (strcpy_triple hstatusCode (Nat.lt_succ_self _)).step
  intro _
  have hstatusText : s + cell c (.chars (status.length + 1) []) + stringCell a version +
      stringCell b statusCode =
      s + stringCell a version + stringCell b statusCode +
        cell c (.chars (status.length + 1) []) := by abel
  apply (strcpy_triple hstatusText (Nat.lt_succ_self _)).step
  intro _
  apply Triple.pure
  cases h with
  | @intro statusBlocks bodyBlocks fields hstatus hbody hfields hcount htotal =>
      refine ⟨stringCell a version + stringCell b statusCode + stringCell c status + bodyBlocks +
        fieldCells fields, statusBlocks, ?_, ?_, ?_⟩
      · rw [stringCell, stringCell, stringCell]
        abel
      · refine .intro fields (.set ⟨rfl, rfl, rfl⟩ rfl) hbody hfields hcount ?_
        rw [HttpParser.setResponseStatusLine, htotal]
      · cases hstatus with
        | unset hheld hresp =>
            simp only [statusFields, Prod.mk.injEq] at hresp
            simp [lostStrings, hresp.1]
        | set hheld hresp =>
            simp only [statusFields, Prod.mk.injEq] at hresp
            simp [lostStrings, hresp.1, stringCell, cell]

theorem Stands.expandBodySize (h : Stands held resp s) (hne : resp.body ≠ []) :
    Triple s (expandBodySize held) fun held' u => Stands held' (HttpParser.expandBodySize resp) u := by
  cases h with
  | @intro statusBlocks bodyBlocks fields hstatus hbody hfields hcount htotal =>
      have hlength : fields.length = resp.body.length := by rw [← hfields, List.length_map]
      have hpos : resp.body.length ≠ 0 := fun hzero => hne (List.length_eq_zero_iff.mp hzero)
      apply (malloc_triple _ _).bind
      rintro newBody _ rfl
      generalize hpointer : held.body = pointer at hbody
      cases hbody with
      | null hslots hnil =>
          rw [hnil, List.length_nil] at hlength
          exact absurd hlength.symm hpos
      | @array body slots hslots hslotsPos hstart =>
          have hroom : held.numberOfBodyFields ≤ slots.length := by
            have hle := hstart.length_le
            rwa [List.length_map, hlength, ← hcount] at hle
          have htaken : slots.take held.numberOfBodyFields =
              fields.map fun field => some field.1 := by
            have htake := List.prefix_iff_eq_take.mp hstart
            rw [List.length_map] at htake
            rw [hcount, ← hlength]
            exact htake.symm
          have hblocks : statusBlocks + cell body (.pointers slots) + fieldCells fields +
              cell newBody (.pointers (List.replicate (held.numberOfBodyFields * 2) none)) =
              statusBlocks + fieldCells fields + cell body (.pointers slots) +
                cell newBody (.pointers (List.replicate (held.numberOfBodyFields * 2) none)) := by
            abel
          apply Triple.skip
          apply (copySlots_triple hblocks hroom (by rw [List.length_replicate]; omega)).step
          intro _
          have hfree : ∀ block, statusBlocks + fieldCells fields + cell body (.pointers slots) +
              cell newBody block = statusBlocks + fieldCells fields + cell newBody block +
                cell body (.pointers slots) := by
            intro block
            abel
          apply (free_triple (hfree _)).step
          intro _
          apply Triple.pure
          rw [add_right_comm, htaken]
          refine .intro fields (hstatus.congr rfl rfl) (.array ?_ ?_ (List.prefix_append _ _))
            hfields hcount htotal
          · rw [HttpParser.expandBodySize, List.length_append, List.length_map, List.length_drop,
              List.length_replicate, hlength, hcount]
            show resp.body.length + (resp.body.length * 2 - resp.body.length) = resp.body.length * 2
            omega
          · show resp.body.length * 2 ≠ 0
            omega

/-- The first branch does what it does on header values, and loses an array that
held no field. -/
theorem Stands.reserveField (h : Stands held resp s) :
    Triple s (reserveField held) fun found u =>
      match HttpParser.reserveField resp with
      | none => found = none ∧ u = s
      | some resp' => ∃ held', found = some held' ∧ Holds held' resp' (lostArrays resp) u := by
  have hcount : held.numberOfBodyFields = resp.body.length := by
    cases h with
    | intro _ _ _ _ hcount _ => exact hcount
  rw [ResponseMemory.reserveField, HttpParser.reserveField, hcount]
  by_cases hzero : resp.body.length = 0
  · have hnil : resp.body = [] := List.length_eq_zero_iff.mp hzero
    simp only [if_pos hzero]
    apply (malloc_triple s _).bind
    rintro body _ rfl
    apply Triple.pure
    cases h with
    | @intro statusBlocks bodyBlocks fields hstatus hbody hfields _ htotal =>
        have hnone : fields = [] := List.map_eq_nil_iff.mp (hfields.trans hnil)
        subst hnone
        refine ⟨_, rfl, statusBlocks + cell body (.pointers (List.replicate 2 none)) +
          fieldCells [], bodyBlocks, by abel, ?_, ?_⟩
        · exact .intro [] (hstatus.congr rfl rfl)
            (.array rfl (Nat.succ_ne_zero 1) List.nil_prefix) hfields rfl htotal
        · generalize held.body = pointer at hbody
          cases hbody with
          | null hslots _ => rw [lostArrays, if_neg fun hlost => hlost.2 hslots, Multiset.card_zero]
          | array _ hpos _ =>
              rw [lostArrays, if_pos ⟨hnil, hpos⟩, cell, Multiset.card_singleton]
  · have hne : resp.body ≠ [] := fun hnil => hzero (List.length_eq_zero_iff.mpr hnil)
    have hlost : lostArrays resp = 0 := if_neg fun hlost => hne hlost.1
    have hholds : ∀ {held' resp' u}, Stands held' resp' u →
        Holds held' resp' (lostArrays resp) u := by
      intro held' resp' u hstands
      exact ⟨u, 0, (add_zero u).symm, hstands, by rw [hlost, Multiset.card_zero]⟩
    by_cases hfull : resp.body.length = httpBodyFieldLimit
    · simp only [if_neg hzero, if_pos hfull]
      exact Triple.pure ⟨rfl, rfl⟩
    · by_cases hpower : BitVec.ofNat 32 resp.body.length =
          nextHighestPowerOfTwo (BitVec.ofNat 32 resp.body.length)
      · simp only [if_neg hzero, if_neg hfull, if_pos hpower]
        apply (h.expandBodySize hne).bind
        intro held' u hstands
        exact Triple.pure ⟨held', rfl, hholds hstands⟩
      · simp only [if_neg hzero, if_neg hfull, if_neg hpower]
        exact Triple.pure ⟨held, rfl, hholds h⟩

/-- A field that is found is written into a new block, in its slot. -/
theorem overwriteField_triple {t : Multiset (Nat × Block)} {fields : List (Nat × Bytes)}
    {slots : List (Option Nat)} {body i : Nat} (hi : i < fields.length)
    (hs : s = t + cell body (.pointers slots) + fieldCells fields)
    (hstart : (fields.map fun field => some field.1) <+: slots) (property : Bytes) :
    Triple s (overwriteField held body i property) fun held' u => ∃ field,
      held' = { held with
        totalByteLength :=
          toInt32 (held.totalByteLength + (property.length - fields[i].2.length)) } ∧
      u = t + cell body (.pointers (slots.set i (some field))) +
        fieldCells (fields.set i (field, property)) := by
  have hslot : i < slots.length := hi.trans_le (by simpa using hstart.length_le)
  apply (loadField_triple hi hs hstart).1.value
  apply (loadField_triple hi hs hstart).2.value
  have hblock : s = t + cell body (.pointers slots) +
      fieldCells (fields.take i ++ fields.drop (i + 1)) +
        stringCell fields[i].1 fields[i].2 := by
    rw [hs, fieldCells_split hi]
    abel
  apply (reallocChars_triple hblock _).bind
  rintro field _ rfl
  have harray : ∀ block, t + cell body (.pointers slots) +
      fieldCells (fields.take i ++ fields.drop (i + 1)) + block =
      t + fieldCells (fields.take i ++ fields.drop (i + 1)) + block +
        cell body (.pointers slots) := by
    intro block
    abel
  apply (storeSlot_triple (harray _) hslot field).step
  intro _
  have hfield : ∀ block, t + fieldCells (fields.take i ++ fields.drop (i + 1)) +
      cell field block + cell body (.pointers (slots.set i (some field))) =
      t + fieldCells (fields.take i ++ fields.drop (i + 1)) +
        cell body (.pointers (slots.set i (some field))) + cell field block := by
    intro block
    abel
  apply (strcpy_triple (hfield _) (Nat.lt_succ_self _)).step
  intro _
  apply Triple.pure
  refine ⟨field, rfl, ?_⟩
  rw [fieldCells_set hi, stringCell]
  abel

/-- A new field is written into a new block, in the next slot. -/
theorem appendField_triple {t : Multiset (Nat × Block)} {slots : List (Option Nat)} {body : Nat}
    (hs : s = t + cell body (.pointers slots)) (hfree : held.numberOfBodyFields < slots.length)
    (property : Bytes) :
    Triple s (appendField held body property) fun held' u => ∃ field,
      held' = { held with
        totalByteLength := toInt32 (held.totalByteLength + property.length)
        numberOfBodyFields := held.numberOfBodyFields + 1 } ∧
      u = t + cell body (.pointers (slots.set held.numberOfBodyFields (some field))) +
        stringCell field property := by
  apply (malloc_triple s _).bind
  rintro field _ rfl
  have harray : ∀ block, s + block = t + block + cell body (.pointers slots) := by
    intro block
    rw [hs]
    abel
  apply (storeSlot_triple (harray _) hfree field).step
  intro _
  have hfield : ∀ block, t + cell field block +
      cell body (.pointers (slots.set held.numberOfBodyFields (some field))) =
      t + cell body (.pointers (slots.set held.numberOfBodyFields (some field))) +
        cell field block := by
    intro block
    abel
  apply (strcpy_triple (hfield _) (Nat.lt_succ_self _)).step
  intro _
  exact Triple.pure ⟨field, rfl, rfl⟩

theorem getKeywordIndex_toNat_le (property : Bytes) :
    (getKeywordIndex property (bytes " ")).toNat ≤ property.length := by
  rw [getKeywordIndex]
  cases hfirst : firstOccurrence (bytes " ") property with
  | none => exact Nat.zero_le _
  | some i =>
      have hle := firstOccurrence_le hfirst (by decide)
      show ((i : Int) + (bytes " ").length).toNat ≤ property.length
      omega

/-- With a free slot, the rest of the call does what it does on header values. -/
theorem Stands.storeField (h : Stands held resp s) (hroom : resp.body.length < resp.bodySlots)
    (property : Bytes) :
    Triple s (storeField held property) fun held' u =>
      Stands held'
        (if getKeywordIndex property (bytes " ") = otherError then resp
        else HttpParser.storeField resp
          (property.take (getKeywordIndex property (bytes " ")).toNat) property) u := by
  rw [ResponseMemory.storeField]
  have hlengthKey := getKeywordIndex_toNat_le property
  generalize getKeywordIndex property (bytes " ") = keyLength at hlengthKey ⊢
  by_cases hkey : keyLength = otherError
  · rw [if_pos hkey, if_pos hkey]
    exact Triple.pure h
  · rw [if_neg hkey, if_neg hkey]
    generalize hkeyText : property.take keyLength.toNat = key
    cases h with
    | @intro statusBlocks bodyBlocks fields hstatus hbody hfields hcount htotal =>
        have hlength : fields.length = resp.body.length := by rw [← hfields, List.length_map]
        have hnumber : held.numberOfBodyFields = fields.length := hcount.trans hlength.symm
        have hfind : (resp.body.findIdx? fun line => (firstOccurrence key line).isSome) =
            fields.findIdx? fun field => (firstOccurrence key field.2).isSome := by
          rw [← hfields, List.findIdx?_map]
          rfl
        generalize hpointer : held.body = pointer at hbody
        cases hbody with
        | null hslots _ =>
            rw [hslots] at hroom
            exact absurd hroom (Nat.not_lt_zero _)
        | @array body slots hslots hpos hstart =>
            have harray : statusBlocks + cell body (.pointers slots) + fieldCells fields =
                statusBlocks + fieldCells fields + cell body (.pointers slots) := by abel
            apply (copyKey_triple _ hlengthKey).bind
            rintro propertyKey _ rfl
            rw [hkeyText, hnumber]
            apply Triple.skip
            apply (findField_triple 0 rfl hstart).value
            apply (free_triple rfl).step
            intro _
            rw [HttpParser.storeField, hfind, List.drop_zero]
            cases hfound : fields.findIdx? fun field => (firstOccurrence key field.2).isSome with
            | some i =>
                obtain ⟨hi, -, -⟩ := List.findIdx?_eq_some_iff_getElem.mp hfound
                have hline : resp.body.getD i [] = fields[i].2 := by
                  rw [← hfields, List.getD_eq_getElem _ _ (by rwa [List.length_map]),
                    List.getElem_map]
                apply (overwriteField_triple hi rfl hstart property).mono
                rintro held' u ⟨field, rfl, rfl⟩
                refine .intro (fields.set i (field, property)) (hstatus.congr rfl rfl) ?_ ?_ ?_ ?_
                · show BodyCells resp.bodySlots _ held.body _
                  rw [hpointer]
                  exact .array (List.length_set.trans hslots) hpos (start_set hstart i _)
                · rw [List.map_set, hfields]
                · show held.numberOfBodyFields = (resp.body.set i property).length
                  rw [List.length_set, hcount]
                · show toInt32 _ = toInt32 _
                  rw [htotal, hline]
            | none =>
                have hfree : held.numberOfBodyFields < slots.length := by
                  rw [hcount, hslots]
                  exact hroom
                apply (appendField_triple harray hfree property).mono
                rintro held' u ⟨field, rfl, rfl⟩
                have hblocks : statusBlocks + fieldCells fields + cell body
                    (.pointers (slots.set held.numberOfBodyFields (some field))) +
                      stringCell field property =
                    statusBlocks + cell body
                      (.pointers (slots.set held.numberOfBodyFields (some field))) +
                        fieldCells (fields ++ [(field, property)]) := by
                  rw [fieldCells_append, fieldCells_singleton]
                  abel
                rw [hblocks]
                refine .intro (fields ++ [(field, property)]) (hstatus.congr rfl rfl) ?_ ?_ ?_ ?_
                · show BodyCells resp.bodySlots _ held.body _
                  rw [hpointer, hnumber]
                  refine .array (List.length_set.trans hslots) hpos (start_concat hstart ?_ _)
                  rwa [← hnumber]
                · rw [List.map_append, hfields, List.map_singleton]
                · show held.numberOfBodyFields + 1 = (resp.body ++ [property]).length
                  rw [List.length_append, List.length_singleton, hcount]
                · show toInt32 _ = toInt32 _
                  rw [htotal]

/-- A header that the calls reach: its array has a slot for each field, and grows in time. -/
def Sound (resp : HttpResponseHeader) : Prop := ∃ slotted, Represents slotted resp

theorem Stands.setResponseProperty (h : Stands held resp s) (hsound : Sound resp)
    (property : Bytes) :
    Triple s (setResponseProperty held property) fun held' u =>
      Holds held' (HttpParser.setResponseProperty resp property) (lostArrays resp) u := by
  obtain ⟨slotted, hslotted⟩ := hsound
  apply h.reserveField.bind
  intro found u hfound
  rw [HttpParser.setResponseProperty]
  rcases reserveField_represents hslotted with ⟨-, hnone⟩ | ⟨-, resp', -, hsome, -, hroom⟩
  · rw [hnone] at hfound ⊢
    obtain ⟨rfl, rfl⟩ := hfound
    apply Triple.pure
    refine ⟨u, 0, (add_zero u).symm, h, ?_⟩
    have hfull : resp.body.length = httpBodyFieldLimit := by
      rcases reserveField_cases resp with ⟨hfull, -⟩ | ⟨-, slots, hslots⟩
      · exact hfull
      · rw [hnone] at hslots
        cases hslots
    have hne : resp.body ≠ [] := by
      intro hnil
      rw [hnil] at hfull
      cases hfull
    rw [lostArrays, if_neg fun hlost => hne hlost.1, Multiset.card_zero]
  · rw [hsome] at hfound ⊢
    obtain ⟨held', rfl, hholds⟩ := hfound
    have hfree : resp'.body.length < resp'.bodySlots := hroom.power.le
    have hstore := hholds.triple fun own hstands =>
      (hstands.storeField hfree property).mono fun held'' u hstands' =>
        ⟨u, 0, (add_zero u).symm, hstands', Multiset.card_zero⟩
    exact hstore

end Calls

/-- The blocks that one update loses. -/
def updateLost (resp : HttpResponseHeader) : HeaderUpdate → Nat
  | .statusLine _ _ _ => lostStrings resp
  | .property _ => lostArrays resp

def lostAlong (resp : HttpResponseHeader) : List HeaderUpdate → Nat
  | [] => 0
  | update :: updates => updateLost resp update + lostAlong (update.apply resp) updates

theorem lostAlong_append (resp : HttpResponseHeader) (updates more : List HeaderUpdate) :
    lostAlong resp (updates ++ more) =
      lostAlong resp updates + lostAlong (runUpdates resp updates) more := by
  induction updates generalizing resp with
  | nil => exact (Nat.zero_add _).symm
  | cons update updates ih =>
      rw [List.cons_append, lostAlong, ih, lostAlong, Nat.add_assoc]
      rfl

theorem Sound.apply {resp : HttpResponseHeader} (h : Sound resp) (update : HeaderUpdate) :
    Sound (update.apply resp) := by
  obtain ⟨slotted, hslotted⟩ := h
  cases update with
  | statusLine version statusCode status =>
      exact ⟨_, setResponseStatusLine_represents hslotted version statusCode status⟩
  | property line => exact ⟨_, setResponseProperty_represents hslotted line⟩

theorem Sound.runUpdates {resp : HttpResponseHeader} (h : Sound resp)
    (updates : List HeaderUpdate) : Sound (runUpdates resp updates) := by
  induction updates generalizing resp with
  | nil => exact h
  | cons update updates ih => exact ih (h.apply update)

theorem sound_zeroed : Sound {} := ⟨{}, represents_zeroed⟩

/-- The program makes the updates, and loses what they lose. -/
def Follows (program : HeldResponse → Program HeldResponse) (updates : List HeaderUpdate) : Prop :=
  ∀ ⦃held resp lost s⦄, Holds held resp lost s → Sound resp →
    Triple s (program held) fun held' u =>
      Holds held' (runUpdates resp updates) (lost + lostAlong resp updates) u

theorem follows_pure : Follows pure [] := fun _ _ _ _ h _ => Triple.pure h

theorem Follows.andThen {program next : HeldResponse → Program HeldResponse}
    {updates more : List HeaderUpdate} (h : Follows program updates) (hnext : Follows next more) :
    Follows (fun held => program held >>= next) (updates ++ more) := by
  intro held resp lost s hholds hsound
  apply (h hholds hsound).bind
  intro held' u hholds'
  have hrest := hnext hholds' (hsound.runUpdates updates)
  rwa [Nat.add_assoc, ← lostAlong_append, runUpdates, runUpdates, ← List.foldl_append] at hrest

theorem follows_statusLine (version statusCode status : Bytes) :
    Follows (setResponseStatusLine · version statusCode status)
      [.statusLine version statusCode status] :=
  fun _ _ _ _ hholds _ => hholds.triple fun _ hstands =>
    hstands.setResponseStatusLine version statusCode status

theorem follows_property (line : Bytes) : Follows (setResponseProperty · line) [.property line] :=
  fun _ _ _ _ hholds hsound => hholds.triple fun _ hstands => hstands.setResponseProperty hsound line

/-- A block that has room for the property and its zero is filled and given back. -/
theorem follows_builtProperty {size : Nat} {name value : Bytes}
    (hroom : name.length + value.length + crlf.length < size) :
    Follows (setBuiltProperty · size name value) [.property (name ++ value ++ crlf)] := by
  intro held resp lost s hholds hsound
  apply (malloc_triple s _).bind
  rintro property _ rfl
  apply (strcpy_triple rfl (by omega)).step
  intro _
  apply (strcat_triple rfl (by omega)).step
  intro _
  have hfits : (name ++ value).length + crlf.length < size := by rwa [List.length_append]
  apply (strcat_triple rfl hfits).step
  intro _
  apply (loadText_triple rfl).value
  apply ((follows_property (name ++ value ++ crlf) hholds hsound).frame _).bind
  rintro held' u ⟨v, rfl, hholds'⟩
  apply (free_triple rfl).step
  exact fun _ => Triple.pure hholds'

theorem follows_contentLength (size : Nat) :
    Follows (setResponseContentLength · size)
      [.property (bytes "Content-Length: " ++ decNumeral size ++ crlf)] := by
  apply follows_builtProperty
  have hfits := (ContentLength.contentLengthString_fits_iff size).mpr (Int.natCast_nonneg size)
  simp only [ContentLength.contentLengthString, List.length_append, List.length_singleton] at hfits
  omega

/-- The calls for a list of types. -/
def setContentTypes : List MimeType → HeldResponse → Program HeldResponse
  | [], resp => pure resp
  | mime :: mimes, resp => do
      let resp ← setBuiltProperty resp ((bytes "Content-Type: \r\n").length + mime.type.length + 1)
        (bytes "Content-Type: ") mime.type
      setContentTypes mimes resp

theorem follows_contentTypes (mimes : List MimeType) :
    Follows (setContentTypes mimes)
      (mimes.map fun mime => .property (contentTypeProperty mime.type)) := by
  induction mimes with
  | nil => exact follows_pure
  | cons mime mimes ih =>
      have hsize : (bytes "Content-Type: \r\n").length = (bytes "Content-Type: ").length + 2 := by
        decide
      have hfirst : Follows (setBuiltProperty ·
          ((bytes "Content-Type: \r\n").length + mime.type.length + 1)
          (bytes "Content-Type: ") mime.type) [.property (contentTypeProperty mime.type)] := by
        apply follows_builtProperty
        rw [hsize, show crlf.length = 2 from rfl]
        omega
      exact hfirst.andThen ih

/-- The loop makes the calls for the types whose extension is found. -/
theorem matchMimeTypes_eq (filename : Bytes) (mimes : List MimeType) (resp : HeldResponse)
    (isExtensionMatch : Bool) :
    matchMimeTypes filename mimes (resp, isExtensionMatch) =
      let found := mimes.filter fun mime => (stristr filename mime.extension).isSome
      setContentTypes found resp >>= fun resp =>
        pure (resp, isExtensionMatch || !found.isEmpty) := by
  induction mimes generalizing resp isExtensionMatch with
  | nil => simp [matchMimeTypes, setContentTypes]
  | cons mime mimes ih =>
      rw [matchMimeTypes]
      by_cases hfound : (stristr filename mime.extension).isSome
      · rw [if_pos hfound, List.filter_cons_of_pos (by exact hfound)]
        simp only [ih, setContentTypes, bind_assoc]
        simp
      · rw [if_neg hfound, List.filter_cons_of_neg (by exact hfound), ih]

theorem follows_contentType (filename : Bytes) :
    Follows (setResponseContentType · filename)
      ((contentTypeProperties filename).map .property) := by
  intro held resp lost s hholds hsound
  dsimp only
  cases hfound : kMimeTypes.filter fun mime => (stristr filename mime.extension).isSome with
  | nil =>
      have hprogram : setResponseContentType held filename =
          setResponseProperty held (bytes "Content-Type: text/plain\r\n") := by
        simp only [setResponseContentType, matchMimeTypes_eq, hfound]
        simp [setContentTypes]
      have hlines : contentTypeProperties filename = [bytes "Content-Type: text/plain\r\n"] := by
        simp only [contentTypeProperties, hfound]
      rw [hprogram, hlines]
      exact follows_property _ hholds hsound
  | cons mime mimes =>
      have hprogram : setResponseContentType held filename =
          setContentTypes (mime :: mimes) held := by
        simp only [setResponseContentType, matchMimeTypes_eq, hfound]
        simp
      have hlines : contentTypeProperties filename =
          (mime :: mimes).map fun mime => contentTypeProperty mime.type := by
        simp only [contentTypeProperties, hfound]
      rw [hprogram, hlines, List.map_map]
      exact follows_contentTypes _ hholds hsound

theorem follows_call (call : HeaderCall) : Follows (applyCall · call) call.updates := by
  cases call with
  | statusLine version statusCode status => exact follows_statusLine version statusCode status
  | property line => exact follows_property line
  | contentType filename => exact follows_contentType filename
  | contentLength size => exact follows_contentLength size

theorem follows_calls (calls : List HeaderCall) :
    Follows (runCalls · calls) (calls.flatMap HeaderCall.updates) := by
  induction calls with
  | nil => exact follows_pure
  | cons call calls ih => exact (follows_call call).andThen ih

section Ends

variable {held : HeldResponse} {resp : HttpResponseHeader} {s : Multiset (Nat × Block)}

/-- The block of the header text. -/
theorem appendFields_triple {t : Multiset (Nat × Block)} {fields : List (Nat × Bytes)}
    {slots : List (Option Nat)} {body buff size : Nat} (hbody : held.body = some body)
    (hnumber : held.numberOfBodyFields = fields.length)
    (hstart : (fields.map fun field => some field.1) <+: slots) (i : Nat) (text : Bytes)
    (hfits : text.length + ((fields.drop i).map Prod.snd).flatten.length < size)
    (hs : s = t + cell body (.pointers slots) + fieldCells fields +
      cell buff (.chars size (text ++ [0]))) :
    Triple s (appendFields buff held i) fun _ u =>
      u = t + cell body (.pointers slots) + fieldCells fields +
        cell buff (.chars size (text ++ ((fields.drop i).map Prod.snd).flatten ++ [0])) := by
  have hfields : s = t + cell buff (.chars size (text ++ [0])) + cell body (.pointers slots) +
      fieldCells fields := by
    rw [hs]
    abel
  induction hn : fields.length - i generalizing i text s with
  | zero =>
      have hend : fields.length ≤ i := Nat.le_of_sub_eq_zero hn
      rw [appendFields, hnumber, if_neg (Nat.not_lt.mpr hend), List.drop_eq_nil_of_le hend,
        List.map_nil, List.flatten_nil, List.append_nil]
      exact Triple.pure hs
  | succ n ih =>
      have hi : i < fields.length := by omega
      have hsplit : ((fields.drop i).map Prod.snd).flatten =
          fields[i].2 ++ ((fields.drop (i + 1)).map Prod.snd).flatten := by
        rw [List.drop_eq_getElem_cons hi, List.map_cons, List.flatten_cons]
      rw [hsplit, List.length_append] at hfits
      rw [appendFields, hnumber, if_pos hi, hbody]
      apply Triple.skip
      apply (loadField_triple hi hfields hstart).1.value
      apply (loadField_triple hi hfields hstart).2.value
      apply (strcat_triple hs (by omega)).step
      intro _
      rw [hsplit, ← List.append_assoc]
      refine ih (i + 1) (text ++ fields[i].2) ?_ rfl (by abel) (by omega)
      rw [List.length_append]
      omega

/-- The text goes into a block with room for it, or the status line is not set. -/
theorem Stands.responseToBuff (h : Stands held resp s)
    (hfits : ∀ text, HttpParser.responseToBuff resp = some text →
      text.length < resp.totalByteLength.toNat) :
    Triple s (responseToBuff held) fun found u =>
      match HttpParser.responseToBuff resp with
      | none => found = none ∧ u = s
      | some text => ∃ buff, found = some buff ∧
          u = s + cell buff (.chars resp.totalByteLength.toNat (text ++ [0])) := by
  cases h with
  | @intro statusBlocks bodyBlocks fields hstatus hbody hfields hcount htotal =>
      cases hstatus with
      | unset hheld hresp =>
          simp only [statusFields, Prod.mk.injEq] at hresp
          obtain ⟨hversion, hstatusCode, hstatus⟩ := hresp
          simp only [HttpParser.responseToBuff, hversion, ResponseMemory.responseToBuff, hheld.1]
          exact Triple.pure ⟨rfl, rfl⟩
      | @set a b c version statusCode status hheld hresp =>
          simp only [statusFields, Prod.mk.injEq] at hresp
          obtain ⟨hversion, hstatusCode, hstatus⟩ := hresp
          simp only [HttpParser.responseToBuff, hversion, hstatusCode, hstatus,
            ResponseMemory.responseToBuff, hheld.1, hheld.2.1, hheld.2.2, htotal] at hfits ⊢
          have hroom := hfits _ rfl
          generalize resp.totalByteLength.toNat = size at hroom
          simp only [List.length_append] at hroom
          apply (malloc_triple _ _).bind
          rintro buff _ rfl
          -- the strings of the status line, whatever is in the buffer so far
          have hversionBlock : ∀ block, stringCell a version + stringCell b statusCode +
              stringCell c status + bodyBlocks + fieldCells fields + block =
              stringCell b statusCode + stringCell c status + bodyBlocks + fieldCells fields +
                block + stringCell a version := by
            intro block
            abel
          have hcodeBlock : ∀ block, stringCell a version + stringCell b statusCode +
              stringCell c status + bodyBlocks + fieldCells fields + block =
              stringCell a version + stringCell c status + bodyBlocks + fieldCells fields +
                block + stringCell b statusCode := by
            intro block
            abel
          have hstatusBlock : ∀ block, stringCell a version + stringCell b statusCode +
              stringCell c status + bodyBlocks + fieldCells fields + block =
              stringCell a version + stringCell b statusCode + bodyBlocks + fieldCells fields +
                block + stringCell c status := by
            intro block
            abel
          apply (loadText_triple (hversionBlock _)).value
          apply (strcpy_triple rfl (by omega)).step
          intro _
          apply (strcat_triple rfl (by omega)).step
          intro _
          apply (loadText_triple (hcodeBlock _)).value
          apply (strcat_triple rfl (by simp only [List.length_append]; omega)).step
          intro _
          apply (strcat_triple rfl (by simp only [List.length_append]; omega)).step
          intro _
          apply (loadText_triple (hstatusBlock _)).value
          apply (strcat_triple rfl (by simp only [List.length_append]; omega)).step
          intro _
          apply (strcat_triple rfl (by simp only [List.length_append]; omega)).step
          intro _
          have hnumber : held.numberOfBodyFields = fields.length := by
            rw [hcount, ← hfields, List.length_map]
          generalize hhead : version ++ bytes " " ++ statusCode ++ bytes " " ++ status ++ crlf = head
          have hlength : head.length = version.length + (bytes " ").length + statusCode.length +
              (bytes " ").length + status.length + crlf.length := by
            rw [← hhead]
            simp only [List.length_append]
          have hlines : ((fields.drop 0).map Prod.snd).flatten = resp.body.flatten := by
            rw [List.drop_zero, hfields]
          have hloop : Triple (stringCell a version + stringCell b statusCode +
              stringCell c status + bodyBlocks + fieldCells fields +
                cell buff (.chars size (head ++ [0])))
              (appendFields buff held 0) fun _ u =>
                u = stringCell a version + stringCell b statusCode + stringCell c status +
                  bodyBlocks + fieldCells fields +
                    cell buff (.chars size (head ++ resp.body.flatten ++ [0])) := by
            generalize hpointer : held.body = pointer at hbody
            cases hbody with
            | null _ hnil =>
                rw [hnil, List.length_nil] at hnumber
                rw [hnil, List.map_nil] at hfields
                rw [appendFields, hnumber, if_neg (lt_irrefl 0), ← hfields, List.flatten_nil,
                  List.append_nil]
                exact Triple.pure rfl
            | array _ _ hstart =>
                have hfits' : head.length + ((fields.drop 0).map Prod.snd).flatten.length < size := by
                  rw [hlines]
                  omega
                apply (appendFields_triple hpointer hnumber hstart 0 head hfits' rfl).mono
                intro _ u hu
                rw [hu, hlines]
          apply hloop.step
          intro _
          apply (strcat_triple rfl (by simp only [List.length_append]; omega)).step
          intro _
          exact Triple.pure ⟨buff, rfl, rfl⟩

theorem freeFields_triple {t : Multiset (Nat × Block)} {fields : List (Nat × Bytes)}
    {slots : List (Option Nat)} {body : Nat} (hbody : held.body = some body)
    (hnumber : held.numberOfBodyFields = fields.length)
    (hstart : (fields.map fun field => some field.1) <+: slots) (i : Nat)
    (hs : s = t + cell body (.pointers slots) + fieldCells (fields.drop i)) :
    Triple s (freeFields held i) fun _ u => u = t + cell body (.pointers slots) := by
  induction hn : fields.length - i generalizing i s with
  | zero =>
      have hend : fields.length ≤ i := Nat.le_of_sub_eq_zero hn
      rw [freeFields, hnumber, if_neg (Nat.not_lt.mpr hend)]
      rw [List.drop_eq_nil_of_le hend] at hs
      exact Triple.pure (hs.trans (add_zero _))
  | succ n ih =>
      have hi : i < fields.length := by omega
      have hsplit : fieldCells (fields.drop i) =
          stringCell fields[i].1 fields[i].2 + fieldCells (fields.drop (i + 1)) := by
        rw [List.drop_eq_getElem_cons hi, ← List.singleton_append, fieldCells_append,
          fieldCells_singleton]
      rw [freeFields, hnumber, if_pos hi, hbody]
      apply Triple.skip
      have harray : s = t + fieldCells (fields.drop i) + cell body (.pointers slots) := by
        rw [hs]
        abel
      apply (loadSlot_triple harray (slot_of_start hstart hi)).value
      have hfield : s = t + cell body (.pointers slots) + fieldCells (fields.drop (i + 1)) +
          stringCell fields[i].1 fields[i].2 := by
        rw [hs, hsplit]
        abel
      apply (free_triple hfield).step
      intro _
      exact ih (i + 1) rfl (by omega)

/-- Every block of the header is given back. -/
theorem Stands.freeHttpResponsetHeader (h : Stands held resp s) :
    Triple s (freeHttpResponsetHeader held) fun _ u => u = 0 := by
  cases h with
  | @intro statusBlocks bodyBlocks fields hstatus hbody hfields hcount htotal =>
      have hnumber : held.numberOfBodyFields = fields.length := by
        rw [hcount, ← hfields, List.length_map]
      have htail : Triple (bodyBlocks + fieldCells fields)
          (freeFields held 0 >>= fun _ => freeNullable held.body) fun _ u => u = 0 := by
        generalize hpointer : held.body = pointer at hbody
        cases hbody with
        | null _ hnil =>
            rw [hnil] at hnumber ⊢
            rw [freeFields, hnumber, List.length_nil, if_neg (lt_irrefl 0)]
            apply Triple.skip
            exact Triple.pure rfl
        | array _ _ hstart =>
            have hblocks : ∀ block, block + fieldCells fields =
                0 + block + fieldCells (fields.drop 0) := by
              intro block
              rw [List.drop_zero, zero_add]
            apply (freeFields_triple hpointer hnumber hstart 0 (hblocks _)).step
            intro _
            exact free_triple rfl
      cases hstatus with
      | unset hheld hresp =>
          simp only [ResponseMemory.freeHttpResponsetHeader, hheld.1, hheld.2.1, hheld.2.2]
          apply Triple.skip
          apply Triple.skip
          apply Triple.skip
          rwa [zero_add]
      | @set a b c version statusCode status hheld hresp =>
          simp only [ResponseMemory.freeHttpResponsetHeader, hheld.1, hheld.2.1, hheld.2.2]
          have hversion : stringCell a version + stringCell b statusCode + stringCell c status +
              bodyBlocks + fieldCells fields =
              stringCell b statusCode + stringCell c status + (bodyBlocks + fieldCells fields) +
                stringCell a version := by abel
          have hstatusCode : stringCell b statusCode + stringCell c status +
              (bodyBlocks + fieldCells fields) =
              stringCell c status + (bodyBlocks + fieldCells fields) +
                stringCell b statusCode := by abel
          have hstatus : stringCell c status + (bodyBlocks + fieldCells fields) =
              bodyBlocks + fieldCells fields + stringCell c status := by abel
          apply (free_triple hversion).step
          intro _
          apply (free_triple hstatusCode).step
          intro _
          apply (free_triple hstatus).step
          exact fun _ => htail

end Ends

end HttpsServ.ResponseMemory
