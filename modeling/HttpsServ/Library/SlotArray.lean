import Mathlib.Data.List.GetD
import Mathlib.Order.Nat

/-!
# Arrays of slots

A block of slots that is filled from the front and replaced by another block
when it is full. Every access is recorded with the number of slots that the
block had at that moment.
-/

namespace HttpsServ

/-- The slots of the current block, `none` where nothing was stored, and the
accesses made so far, each with the number of slots at that moment. -/
structure SlotArray (α : Type*) where
  slots : List (Option α) := []
  accesses : List (Nat × Nat) := []

namespace SlotArray

variable {α : Type*} {array : SlotArray α} {fields : List α} {i : Nat}

/-- A new block; the contents of the old one are gone. -/
def allocate (array : SlotArray α) (size : Nat) : SlotArray α :=
  { array with slots := List.replicate size none }

def touch (array : SlotArray α) (i : Nat) : SlotArray α :=
  { array with accesses := array.accesses ++ [(i, array.slots.length)] }

/-- What is found in a slot; the access is recorded by `touch`. -/
def contents (array : SlotArray α) (i : Nat) : Option α := array.slots.getD i none

def store (array : SlotArray α) (i : Nat) (value : α) : SlotArray α :=
  { array.touch i with slots := array.slots.set i (some value) }

/-- A new block of `size` slots, with `count` slots copied from the old block. -/
def moveTo (array : SlotArray α) (count size : Nat) : SlotArray α where
  slots := (List.range size).map fun i => if i < count then array.contents i else none
  accesses := array.accesses ++
    (List.range count).flatMap fun i => [(i, array.slots.length), (i, size)]

def InBounds (array : SlotArray α) : Prop :=
  ∀ access ∈ array.accesses, access.1 < access.2

/-- The fields stand in the first slots, and no access was out of bounds. -/
structure Holds (array : SlotArray α) (fields : List α) : Prop where
  inSlots : fields.map some <+: array.slots
  inBounds : array.InBounds

theorem holds_empty : (({} : SlotArray α)).Holds [] :=
  ⟨List.nil_prefix, fun _ h => absurd h List.not_mem_nil⟩

/-- There are at least as many slots as fields. -/
theorem Holds.length_le (h : array.Holds fields) : fields.length ≤ array.slots.length := by
  have hle := h.inSlots.length_le
  rwa [List.length_map] at hle

theorem Holds.contents (h : array.Holds fields) (hi : i < fields.length) :
    array.contents i = some fields[i] := by
  obtain ⟨free, hfree⟩ := h.inSlots
  rw [SlotArray.contents, ← hfree, List.getD_append _ _ _ _ (by rwa [List.length_map]),
    List.getD_eq_getElem _ _ (by rwa [List.length_map]), List.getElem_map]

theorem InBounds.touch (h : array.InBounds) (hi : i < array.slots.length) :
    (array.touch i).InBounds := by
  intro access haccess
  rcases List.mem_append.mp haccess with hold | hnew
  · exact h access hold
  · rwa [List.mem_singleton.mp hnew]

theorem Holds.touch (h : array.Holds fields) (hi : i < fields.length) :
    (array.touch i).Holds fields :=
  ⟨h.inSlots, h.inBounds.touch (hi.trans_le h.length_le)⟩

theorem Holds.allocate (h : array.Holds fields) (size : Nat) : (array.allocate size).Holds [] :=
  ⟨List.nil_prefix, h.inBounds⟩

/-- A field is replaced. -/
theorem Holds.store (h : array.Holds fields) (hi : i < fields.length) (value : α) :
    (array.store i value).Holds (fields.set i value) := by
  refine ⟨?_, h.inBounds.touch (hi.trans_le h.length_le)⟩
  obtain ⟨free, hfree⟩ := h.inSlots
  refine ⟨free, ?_⟩
  change _ = array.slots.set i (some value)
  rw [List.map_set, ← hfree, List.set_append_left _ _ (by rwa [List.length_map])]

/-- A field is added where a slot is free. -/
theorem Holds.push (h : array.Holds fields) (hfree : fields.length < array.slots.length)
    (value : α) : (array.store fields.length value).Holds (fields ++ [value]) := by
  refine ⟨?_, h.inBounds.touch hfree⟩
  obtain ⟨free, hslots⟩ := h.inSlots
  change _ <+: array.slots.set fields.length (some value)
  cases free with
  | nil =>
      rw [← hslots, List.append_nil, List.length_map] at hfree
      exact absurd hfree (Nat.lt_irrefl _)
  | cons slot free =>
      refine ⟨free, ?_⟩
      rw [← hslots, List.map_append, List.set_append_right _ _ (List.length_map _).le,
        List.length_map, Nat.sub_self, List.set_cons_zero, List.append_assoc]
      rfl

@[simp] theorem length_slots_store (array : SlotArray α) (i : Nat) (value : α) :
    (array.store i value).slots.length = array.slots.length := List.length_set

@[simp] theorem length_slots_allocate (array : SlotArray α) (size : Nat) :
    (array.allocate size).slots.length = size := List.length_replicate

@[simp] theorem length_slots_moveTo (array : SlotArray α) (count size : Nat) :
    (array.moveTo count size).slots.length = size := by
  rw [moveTo, List.length_map, List.length_range]

/-- What was copied stays where it was. -/
theorem contents_moveTo (array : SlotArray α) {count size : Nat} (hi : i < count)
    (hle : count ≤ size) :
    (array.moveTo count size).contents i = array.contents i := by
  rw [SlotArray.contents, List.getD_eq_getElem _ _ (by
    rw [length_slots_moveTo]
    exact hi.trans_le hle)]
  simp [moveTo, hi]

/-- All the fields are copied into a block that has room for them. -/
theorem Holds.moveTo {size : Nat} (h : array.Holds fields) (hle : fields.length ≤ size) :
    (array.moveTo fields.length size).Holds fields := by
  constructor
  · rw [List.prefix_iff_getElem?]
    intro i hi
    rw [List.length_map] at hi
    have hslot : i < (array.moveTo fields.length size).slots.length := by
      rw [length_slots_moveTo]
      exact hi.trans_le hle
    have hcontents := contents_moveTo array hi hle
    rw [SlotArray.contents, List.getD_eq_getElem _ _ hslot, h.contents hi] at hcontents
    rw [List.getElem?_eq_getElem hslot, hcontents, List.getElem_map]
  · intro access haccess
    rcases List.mem_append.mp haccess with hold | hnew
    · exact h.inBounds access hold
    · obtain ⟨i, hi, hpair⟩ := List.mem_flatMap.mp hnew
      have hlt := List.mem_range.mp hi
      rcases List.mem_cons.mp hpair with rfl | hwrite
      · exact hlt.trans_le h.length_le
      · rw [List.mem_singleton.mp hwrite]
        exact hlt.trans_le hle

end SlotArray

end HttpsServ
