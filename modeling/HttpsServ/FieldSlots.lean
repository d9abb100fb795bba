import HttpsServ.HeaderUpdates
import HttpsServ.IntegerHelpers
import HttpsServ.Library.SlotArray

/-!
# The slots of the field array

The functions of http_parser.c on the block behind `body`, slot by slot. The
capacity of the block is not stored in the header: in every run there is a power
of two between the number of fields and the number of slots, and the block grows
when the number of fields reaches it.
-/

namespace HttpsServ.FieldSlots

open ByteString Utility HttpParser HeaderUpdates IntegerHelpers

/-- `struct HttpResponseHeader` with the block behind `body`. -/
structure SlottedHeader where
  version : Option Bytes := none
  statusCode : Option Bytes := none
  status : Option Bytes := none
  body : SlotArray Bytes := {}
  numberOfBodyFields : Nat := 0
  totalByteLength : Int := 0

/-- `ExpandBodySize`. -/
def expandBodySize (resp : SlottedHeader) : SlottedHeader :=
  { resp with body := resp.body.moveTo resp.numberOfBodyFields (resp.numberOfBodyFields * 2) }

/-- The first branch of `SetResponseProperty`; `none` at the field limit. -/
def reserveField (resp : SlottedHeader) : Option SlottedHeader :=
  if resp.numberOfBodyFields = 0 then some { resp with body := resp.body.allocate 2 }
  else if resp.numberOfBodyFields = httpBodyFieldLimit then none
  else if BitVec.ofNat 32 resp.numberOfBodyFields =
      nextHighestPowerOfTwo (BitVec.ofNat 32 resp.numberOfBodyFields) then
    some (expandBodySize resp)
  else some resp

/-- The loop of `SetResponseProperty`: the first slot from `i` on whose field
contains the key. -/
def findField (propertyKey : Bytes) (numberOfBodyFields : Nat) (body : SlotArray Bytes) (i : Nat) :
    Option Nat × SlotArray Bytes :=
  if i < numberOfBodyFields then
    if (body.contents i).any fun field => (firstOccurrence propertyKey field).isSome then
      (some i, body.touch i)
    else findField propertyKey numberOfBodyFields (body.touch i) (i + 1)
  else (none, body)
termination_by numberOfBodyFields - i

/-- The loop and the tail of `SetResponseProperty`. -/
def storeField (resp : SlottedHeader) (propertyKey property : Bytes) : SlottedHeader :=
  match findField propertyKey resp.numberOfBodyFields resp.body 0 with
  | (some i, body) =>
      -- `strlen` and `realloc` read the slot, the result is stored, `strcpy` reads it again
      { resp with
        totalByteLength := toInt32
          (resp.totalByteLength + (property.length - ((body.contents i).getD []).length))
        body := (((body.touch i).touch i).store i property).touch i }
  | (none, body) =>
      { resp with
        totalByteLength := toInt32 (resp.totalByteLength + property.length)
        body := (body.store resp.numberOfBodyFields property).touch resp.numberOfBodyFields
        numberOfBodyFields := resp.numberOfBodyFields + 1 }

/-- `SetResponseProperty`. -/
def setResponseProperty (resp : SlottedHeader) (property : Bytes) : SlottedHeader :=
  match reserveField resp with
  | none => resp
  | some resp =>
      let propertyKeyLength := getKeywordIndex property (bytes " ")
      if propertyKeyLength = otherError then resp
      else storeField resp (property.take propertyKeyLength.toNat) property

/-- `SetResponseStatusLine`, which leaves the block alone. -/
def setResponseStatusLine (resp : SlottedHeader) (version statusCode status : Bytes) :
    SlottedHeader :=
  { resp with
    version := some version
    statusCode := some statusCode
    status := some status
    totalByteLength := toInt32 (resp.totalByteLength +
      (version.length + statusCode.length + status.length + sizeofHeaderDeliminations)) }

/-- The loop of `ResponseToBuff`. -/
def appendFields (numberOfBodyFields : Nat) (body : SlotArray Bytes) (i : Nat) (buff : Bytes) :
    Bytes × SlotArray Bytes :=
  if i < numberOfBodyFields then
    appendFields numberOfBodyFields (body.touch i) (i + 1) (buff ++ (body.contents i).getD [])
  else (buff, body)
termination_by numberOfBodyFields - i

/-- `ResponseToBuff`: the string it writes, and the header with the accesses it makes. -/
def responseToBuff (resp : SlottedHeader) : Option Bytes × SlottedHeader :=
  match resp.version, resp.statusCode, resp.status with
  | some version, some statusCode, some status =>
      let head := version ++ bytes " " ++ statusCode ++ bytes " " ++ status ++ crlf
      let (buff, body) := appendFields resp.numberOfBodyFields resp.body 0 head
      (some (buff ++ crlf), { resp with body := body })
  | _, _, _ => (none, resp)

/-- A call on a response header. -/
inductive SlotCall where
  | statusLine (version statusCode status : Bytes)
  | property (line : Bytes)
  | toBuff

def SlotCall.apply (resp : SlottedHeader) : SlotCall → SlottedHeader
  | .statusLine version statusCode status => setResponseStatusLine resp version statusCode status
  | .property line => setResponseProperty resp line
  | .toBuff => (responseToBuff resp).2

def runSlotCalls (resp : SlottedHeader) (calls : List SlotCall) : SlottedHeader :=
  calls.foldl SlotCall.apply resp

/-- There is a power of two from the number of fields up to the number of slots. -/
def HasPower (fields slots : Nat) : Prop := ∃ k, fields ≤ 2 ^ k ∧ 2 ^ k ≤ slots

/-- The header without slots that a header stands for; the block has kept its
fields, and no access was out of bounds. -/
structure Represents (slotted : SlottedHeader) (resp : HttpResponseHeader) : Prop where
  version : slotted.version = resp.version
  statusCode : slotted.statusCode = resp.statusCode
  status : slotted.status = resp.status
  totalByteLength : slotted.totalByteLength = resp.totalByteLength
  count : slotted.numberOfBodyFields = resp.body.length
  slots : slotted.body.slots.length = resp.bodySlots
  holds : slotted.body.Holds resp.body
  limit : resp.body.length ≤ httpBodyFieldLimit
  power : resp.body ≠ [] → HasPower resp.body.length resp.bodySlots

theorem represents_zeroed : Represents {} {} :=
  ⟨rfl, rfl, rfl, rfl, rfl, rfl, SlotArray.holds_empty, by decide, fun h => absurd rfl h⟩

/-- One more field keeps a power of two above it: it is the same one, or the next
one when the block has grown. -/
theorem HasPower.succ_le {fields slots : Nat} (h : HasPower fields slots)
    (hpower : ∀ k, fields ≠ 2 ^ k) : HasPower (fields + 1) slots := by
  obtain ⟨k, hle, hslots⟩ := h
  exact ⟨k, lt_of_le_of_ne hle (hpower k), hslots⟩

theorem hasPower_double {fields k : Nat} (h : fields = 2 ^ k) :
    HasPower (fields + 1) (fields * 2) := by
  refine ⟨k + 1, ?_, ?_⟩
  · rw [h, pow_succ]
    have hpos := Nat.two_pow_pos k
    omega
  · rw [h, pow_succ]

theorem HasPower.mono {fields more slots : Nat} (h : HasPower more slots) (hle : fields ≤ more) :
    HasPower fields slots := by
  obtain ⟨k, habove, hslots⟩ := h
  exact ⟨k, hle.trans habove, hslots⟩

theorem HasPower.le {fields slots : Nat} (h : HasPower fields slots) : fields ≤ slots := by
  obtain ⟨k, habove, hslots⟩ := h
  exact habove.trans hslots

/-- The test for growth finds the powers of two. -/
theorem grows_iff {n : Nat} (hpos : n ≠ 0) (hle : n ≤ httpBodyFieldLimit) :
    BitVec.ofNat 32 n = nextHighestPowerOfTwo (BitVec.ofNat 32 n) ↔ ∃ k, n = 2 ^ k := by
  have hlimit : httpBodyFieldLimit = 128 := rfl
  have htoNat : (BitVec.ofNat 32 n).toNat = n := by
    rw [BitVec.toNat_ofNat, Nat.mod_eq_of_lt (by omega)]
  have hiff := nextHighestPowerOfTwo_eq_iff (v := BitVec.ofNat 32 n) (by omega) (by omega)
  rwa [htoNat, eq_comm] at hiff

/-- What the first branch leaves: a free slot below the limit. -/
structure HasRoom (resp : HttpResponseHeader) : Prop where
  limit : resp.body.length < httpBodyFieldLimit
  power : HasPower (resp.body.length + 1) resp.bodySlots

/-- The first allocation makes two slots. -/
theorem Represents.allocate {slotted : SlottedHeader} {resp : HttpResponseHeader}
    (h : Represents slotted resp) (hnil : resp.body = []) :
    Represents { slotted with body := slotted.body.allocate 2 } { resp with bodySlots := 2 } ∧
      HasRoom { resp with bodySlots := 2 } := by
  have hzero : resp.body.length = 0 := List.length_eq_zero_iff.mpr hnil
  constructor
  · refine { h with slots := SlotArray.length_slots_allocate _ _, holds := ?_, power := ?_ }
    · rw [hnil]
      exact h.holds.allocate 2
    · exact fun hne => absurd hnil hne
  · refine ⟨?_, 1, ?_, le_rfl⟩
    · rw [hzero]
      decide
    · rw [hzero]
      decide

/-- Growing at a power of two reaches the next one. -/
theorem Represents.expandBodySize {slotted : SlottedHeader} {resp : HttpResponseHeader}
    (h : Represents slotted resp) {k : Nat} (hk : resp.body.length = 2 ^ k) :
    Represents (expandBodySize slotted) (HttpParser.expandBodySize resp) := by
  refine { h with slots := ?_, holds := ?_, power := ?_ }
  · rw [FieldSlots.expandBodySize, SlotArray.length_slots_moveTo, h.count]
    rfl
  · rw [FieldSlots.expandBodySize, h.count]
    exact h.holds.moveTo (Nat.le_mul_of_pos_right _ (by decide))
  · exact fun _ => (hasPower_double hk).mono (Nat.le_succ _)

/-- Either both headers are full, or both have reserved a free slot. -/
theorem reserveField_represents {slotted : SlottedHeader} {resp : HttpResponseHeader}
    (h : Represents slotted resp) :
    (reserveField slotted = none ∧ HttpParser.reserveField resp = none) ∨
      ∃ slotted' resp', reserveField slotted = some slotted' ∧
        HttpParser.reserveField resp = some resp' ∧
        Represents slotted' resp' ∧ HasRoom resp' := by
  have hcount := h.count
  by_cases hzero : resp.body.length = 0
  · right
    obtain ⟨hallocated, hroom⟩ := h.allocate (List.length_eq_zero_iff.mp hzero)
    refine ⟨_, _, ?_, ?_, hallocated, hroom⟩
    · rw [reserveField, if_pos (hcount.trans hzero)]
    · simp only [HttpParser.reserveField, if_pos hzero]
  · by_cases hfull : resp.body.length = httpBodyFieldLimit
    · left
      constructor
      · rw [reserveField, hcount, if_neg hzero, if_pos hfull]
      · simp only [HttpParser.reserveField, if_neg hzero, if_pos hfull]
    · right
      have hlimit : resp.body.length < httpBodyFieldLimit := lt_of_le_of_ne h.limit hfull
      have hgrows := grows_iff hzero h.limit
      by_cases hpower : ∃ k, resp.body.length = 2 ^ k
      · obtain ⟨k, hk⟩ := hpower
        refine ⟨_, _, ?_, ?_, h.expandBodySize hk, hlimit, hasPower_double hk⟩
        · rw [reserveField, hcount, if_neg hzero, if_neg hfull, if_pos (hgrows.mpr ⟨k, hk⟩)]
        · simp only [HttpParser.reserveField, if_neg hzero, if_neg hfull,
            if_pos (hgrows.mpr ⟨k, hk⟩)]
      · have hne : resp.body ≠ [] := fun hnil => hzero (List.length_eq_zero_iff.mpr hnil)
        refine ⟨slotted, resp, ?_, ?_, h, hlimit, (h.power hne).succ_le (not_exists.mp hpower)⟩
        · rw [reserveField, hcount, if_neg hzero, if_neg hfull, if_neg (mt hgrows.mp hpower)]
        · simp only [HttpParser.reserveField, if_neg hzero, if_neg hfull,
            if_neg (mt hgrows.mp hpower)]

/-- The loop reads fields only, and finds what the search in the list finds. -/
theorem findField_holds {body : SlotArray Bytes} {fields : List Bytes} (propertyKey : Bytes)
    (i : Nat) (h : body.Holds fields) :
    (findField propertyKey fields.length body i).1 =
        ((fields.drop i).findIdx? fun field => (firstOccurrence propertyKey field).isSome).map
          (· + i) ∧
      (findField propertyKey fields.length body i).2.slots = body.slots ∧
      (findField propertyKey fields.length body i).2.Holds fields := by
  induction hn : fields.length - i generalizing body i with
  | zero =>
      have hend : fields.length ≤ i := Nat.le_of_sub_eq_zero hn
      rw [findField, if_neg (Nat.not_lt.mpr hend), List.drop_eq_nil_of_le hend]
      exact ⟨rfl, rfl, h⟩
  | succ n ih =>
      have hi : i < fields.length := by omega
      rw [findField, if_pos hi, h.contents hi, Option.any_some, List.drop_eq_getElem_cons hi,
        List.findIdx?_cons]
      by_cases hcarries : (firstOccurrence propertyKey fields[i]).isSome = true
      · rw [if_pos hcarries, if_pos hcarries]
        exact ⟨by rw [Option.map_some, Nat.zero_add], rfl, h.touch hi⟩
      · rw [if_neg hcarries, if_neg hcarries]
        obtain ⟨hfound, hslots, hholds⟩ := ih (i + 1) (h.touch hi) (by omega)
        refine ⟨?_, hslots, hholds⟩
        rw [hfound, Option.map_map]
        have hshift : (fun j => j + (i + 1)) = (fun j => j + i) ∘ fun j => j + 1 := by
          ext j
          rw [Function.comp_apply, Nat.add_assoc, Nat.add_comm 1 i]
        rw [hshift]

/-- The value of a slot is the field it holds. -/
theorem contents_getD {body : SlotArray Bytes} {fields : List Bytes} (h : body.Holds fields)
    {i : Nat} (hi : i < fields.length) : (body.contents i).getD [] = fields.getD i [] := by
  rw [h.contents hi, Option.getD_some, List.getD_eq_getElem _ _ hi]

/-- A field that was found is replaced in its slot. -/
theorem Represents.overwrite {slotted : SlottedHeader} {resp : HttpResponseHeader}
    (h : Represents slotted resp) (hroom : HasRoom resp) {body : SlotArray Bytes}
    (hslots : body.slots = slotted.body.slots) (hholds : body.Holds resp.body) {i : Nat}
    (hi : i < resp.body.length) (property : Bytes) :
    Represents
      { slotted with
        totalByteLength := toInt32 (slotted.totalByteLength +
          (property.length - ((body.contents i).getD []).length))
        body := (((body.touch i).touch i).store i property).touch i }
      { resp with
        totalByteLength := toInt32
          (resp.totalByteLength + (property.length - (resp.body.getD i []).length))
        body := resp.body.set i property } := by
  have hset := (((hholds.touch hi).touch hi).store hi property).touch
    (hi.trans_eq List.length_set.symm)
  refine { h with
    totalByteLength := ?_, count := ?_, slots := ?_, holds := hset, limit := ?_, power := ?_ }
  · rw [h.totalByteLength, contents_getD hholds hi]
  · exact h.count.trans List.length_set.symm
  · exact (SlotArray.length_slots_store _ _ _).trans ((congrArg _ hslots).trans h.slots)
  · exact List.length_set.trans_le h.limit
  · intro hne
    rw [List.length_set]
    exact hroom.power.mono (Nat.le_succ _)

/-- A new field goes into the free slot. -/
theorem Represents.append {slotted : SlottedHeader} {resp : HttpResponseHeader}
    (h : Represents slotted resp) (hroom : HasRoom resp) {body : SlotArray Bytes}
    (hslots : body.slots = slotted.body.slots) (hholds : body.Holds resp.body) (property : Bytes) :
    Represents
      { slotted with
        totalByteLength := toInt32 (slotted.totalByteLength + property.length)
        body := (body.store slotted.numberOfBodyFields property).touch slotted.numberOfBodyFields
        numberOfBodyFields := slotted.numberOfBodyFields + 1 }
      { resp with
        totalByteLength := toInt32 (resp.totalByteLength + property.length)
        body := resp.body ++ [property] } := by
  have hfree : resp.body.length < body.slots.length := by
    rw [hslots, h.slots]
    exact hroom.power.le
  have hlast : resp.body.length < (resp.body ++ [property]).length := by
    rw [List.length_append, List.length_singleton]
    exact Nat.lt_succ_self _
  refine { h with
    totalByteLength := ?_, count := ?_, slots := ?_, holds := ?_, limit := ?_, power := ?_ }
  · rw [h.totalByteLength]
  · rw [h.count, List.length_append, List.length_singleton]
  · exact (SlotArray.length_slots_store _ _ _).trans ((congrArg _ hslots).trans h.slots)
  · rw [h.count]
    exact (hholds.push hfree property).touch hlast
  · exact List.length_append.trans_le hroom.limit
  · intro hne
    rw [List.length_append]
    exact hroom.power

theorem storeField_represents {slotted : SlottedHeader} {resp : HttpResponseHeader}
    (h : Represents slotted resp) (hroom : HasRoom resp) (propertyKey property : Bytes) :
    Represents (storeField slotted propertyKey property)
      (HttpParser.storeField resp propertyKey property) := by
  obtain ⟨hfound, hslots, hholds⟩ := findField_holds propertyKey 0 h.holds
  rw [← h.count] at hfound hslots hholds
  rw [List.drop_zero] at hfound
  rw [storeField, HttpParser.storeField]
  generalize findField propertyKey slotted.numberOfBodyFields slotted.body 0 = result at *
  obtain ⟨found, body⟩ := result
  dsimp only at hfound hslots hholds
  cases hfind : resp.body.findIdx? fun field => (firstOccurrence propertyKey field).isSome with
  | some i =>
      obtain ⟨hi, -, -⟩ := List.findIdx?_eq_some_iff_getElem.mp hfind
      rw [hfind, Option.map_some] at hfound
      subst hfound
      exact h.overwrite hroom hslots hholds hi property
  | none =>
      rw [hfind, Option.map_none] at hfound
      subst hfound
      exact h.append hroom hslots hholds property

/-- A call keeps the two headers together. -/
theorem setResponseProperty_represents {slotted : SlottedHeader} {resp : HttpResponseHeader}
    (h : Represents slotted resp) (property : Bytes) :
    Represents (setResponseProperty slotted property)
      (HttpParser.setResponseProperty resp property) := by
  rw [setResponseProperty, HttpParser.setResponseProperty]
  rcases reserveField_represents h with
    ⟨hslotted, hresp⟩ | ⟨slotted', resp', hslotted, hresp, h', hroom⟩
  · rw [hslotted, hresp]
    exact h
  · rw [hslotted, hresp]
    dsimp only
    split
    · exact h'
    · exact storeField_represents h' hroom _ _

theorem setResponseStatusLine_represents {slotted : SlottedHeader} {resp : HttpResponseHeader}
    (h : Represents slotted resp) (version statusCode status : Bytes) :
    Represents (setResponseStatusLine slotted version statusCode status)
      (HttpParser.setResponseStatusLine resp version statusCode status) :=
  { h with
    version := rfl
    statusCode := rfl
    status := rfl
    totalByteLength := by rw [setResponseStatusLine, h.totalByteLength]; rfl }

/-- The loop writes the fields from `i` on, one after the other. -/
theorem appendFields_holds {body : SlotArray Bytes} {fields : List Bytes} (i : Nat) (buff : Bytes)
    (h : body.Holds fields) :
    (appendFields fields.length body i buff).1 = buff ++ (fields.drop i).flatten ∧
      (appendFields fields.length body i buff).2.slots = body.slots ∧
      (appendFields fields.length body i buff).2.Holds fields := by
  induction hn : fields.length - i generalizing body i buff with
  | zero =>
      have hend : fields.length ≤ i := Nat.le_of_sub_eq_zero hn
      rw [appendFields, if_neg (Nat.not_lt.mpr hend), List.drop_eq_nil_of_le hend,
        List.flatten_nil, List.append_nil]
      exact ⟨rfl, rfl, h⟩
  | succ n ih =>
      have hi : i < fields.length := by omega
      obtain ⟨htext, hslots, hholds⟩ :=
        ih (i + 1) (buff ++ (body.contents i).getD []) (h.touch hi) (by omega)
      rw [appendFields, if_pos hi]
      refine ⟨?_, hslots, hholds⟩
      rw [htext, h.contents hi, Option.getD_some, List.drop_eq_getElem_cons hi, List.flatten_cons,
        List.append_assoc]

/-- The text is the one of the header without slots. -/
theorem responseToBuff_represents {slotted : SlottedHeader} {resp : HttpResponseHeader}
    (h : Represents slotted resp) :
    (responseToBuff slotted).1 = HttpParser.responseToBuff resp ∧
      Represents (responseToBuff slotted).2 resp := by
  rw [responseToBuff, HttpParser.responseToBuff, h.version, h.statusCode, h.status]
  cases hversion : resp.version with
  | none => exact ⟨rfl, h⟩
  | some version =>
      cases hstatusCode : resp.statusCode with
      | none => exact ⟨rfl, h⟩
      | some statusCode =>
          cases hstatus : resp.status with
          | none => exact ⟨rfl, h⟩
          | some status =>
              obtain ⟨htext, hslots, hholds⟩ := appendFields_holds 0
                (version ++ bytes " " ++ statusCode ++ bytes " " ++ status ++ crlf) h.holds
              rw [← h.count] at htext hslots hholds
              constructor
              · simp only [htext, List.drop_zero]
              · exact { h with
                  version := hversion.symm
                  statusCode := hstatusCode.symm
                  status := hstatus.symm
                  slots := (congrArg _ hslots).trans h.slots
                  holds := hholds }

/-- The update of the header without slots; writing it to a buffer changes nothing. -/
def SlotCall.update : SlotCall → Option HeaderUpdate
  | .statusLine version statusCode status => some (.statusLine version statusCode status)
  | .property line => some (.property line)
  | .toBuff => none

/-- Every run on slots follows the run of the same updates on headers without slots. -/
theorem runSlotCalls_represents {slotted : SlottedHeader} {resp : HttpResponseHeader}
    (h : Represents slotted resp) (calls : List SlotCall) :
    Represents (runSlotCalls slotted calls)
      (runUpdates resp (calls.filterMap SlotCall.update)) := by
  induction calls generalizing slotted resp with
  | nil => exact h
  | cons call calls ih =>
      cases call with
      | statusLine version statusCode status =>
          exact ih (setResponseStatusLine_represents h version statusCode status)
      | property line => exact ih (setResponseProperty_represents h line)
      | toBuff => exact ih (responseToBuff_represents h).2

/-- The fields that the header counts, read from their slots. -/
def fieldSlots (resp : SlottedHeader) : List (Option Bytes) :=
  (List.range resp.numberOfBodyFields).map resp.body.contents

/-- `ExpandBodySize` keeps the fields in order, and makes two slots for each. -/
theorem fieldSlots_expandBodySize (resp : SlottedHeader) :
    fieldSlots (expandBodySize resp) = fieldSlots resp ∧
      (expandBodySize resp).body.slots.length = 2 * resp.numberOfBodyFields := by
  constructor
  · apply List.map_congr_left
    intro i hi
    exact SlotArray.contents_moveTo resp.body (List.mem_range.mp hi)
      (Nat.le_mul_of_pos_right _ (by decide))
  · rw [expandBodySize, SlotArray.length_slots_moveTo, Nat.mul_comm]

/-- Every slot that the header counts holds a field. -/
theorem Represents.fieldSlots_eq {slotted : SlottedHeader} {resp : HttpResponseHeader}
    (h : Represents slotted resp) : fieldSlots slotted = resp.body.map some := by
  apply List.ext_getElem
  · rw [fieldSlots, List.length_map, List.length_range, h.count, List.length_map]
  · intro i hslot hfield
    rw [List.length_map] at hfield
    rw [List.getElem_map]
    simp only [fieldSlots, List.getElem_map, List.getElem_range]
    exact h.holds.contents hfield

/-- In every run from the zeroed header no slot access is out of bounds, all the slots that
are counted hold fields, growing keeps these in order, and the limit is kept. -/
theorem runSlotCalls_inBounds (calls : List SlotCall) :
    let resp := runSlotCalls {} calls
    resp.body.InBounds ∧ (∀ slot ∈ fieldSlots resp, slot.isSome) ∧
      (expandBodySize resp).body.InBounds ∧ fieldSlots (expandBodySize resp) = fieldSlots resp ∧
      resp.numberOfBodyFields ≤ httpBodyFieldLimit := by
  have h := runSlotCalls_represents represents_zeroed calls
  have hgrown := h.holds.moveTo (Nat.le_mul_of_pos_right _ (by decide : 0 < 2))
  rw [← h.count] at hgrown
  refine ⟨h.holds.inBounds, ?_, hgrown.inBounds, (fieldSlots_expandBodySize _).1,
    h.count.trans_le h.limit⟩
  rw [h.fieldSlots_eq]
  intro slot hslot
  obtain ⟨field, -, rfl⟩ := List.mem_map.mp hslot
  rfl

end HttpsServ.FieldSlots
