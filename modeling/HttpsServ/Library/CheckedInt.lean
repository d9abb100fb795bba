import Mathlib.Algebra.Group.Int.Defs
import Mathlib.Data.Int.Init

/-!
# Signed machine integers that must not overflow

Integers of a fixed width, where a result that is out of range or a division by
zero has no value.
-/

namespace HttpsServ.CheckedInt

/-- The range of a signed integer type of `width` bits. -/
def InRange (width : Nat) (n : Int) : Prop := -2 ^ (width - 1) ≤ n ∧ n < 2 ^ (width - 1)

instance (width : Nat) (n : Int) : Decidable (InRange width n) :=
  inferInstanceAs (Decidable (_ ∧ _))

theorem inRange_toInt {width : Nat} (b : BitVec width) : InRange width b.toInt :=
  ⟨BitVec.le_toInt b, BitVec.toInt_lt⟩

/-- The range contains zero, and with a number all that lie between. -/
theorem InRange.of_le {width : Nat} {n m : Int} (h : InRange width n) (hnonneg : 0 ≤ m)
    (hle : m ≤ n) : InRange width m := by
  have hlow : -2 ^ (width - 1) ≤ (0 : Int) :=
    Int.neg_nonpos_of_nonneg (Int.le_of_lt (Int.pow_pos (by decide)))
  exact ⟨Int.le_trans hlow hnonneg, Int.lt_of_le_of_lt hle h.2⟩

/-- A result, where the type has it. -/
def checked (width : Nat) (n : Int) : Option Int := if InRange width n then some n else none

def sub (width : Nat) (a b : Int) : Option Int := checked width (a - b)

/-- The quotient rounds to zero. -/
def div (width : Nat) (a b : Int) : Option Int :=
  if b = 0 then none else checked width (a.tdiv b)

/-- The remainder has a value where the quotient has one. -/
def rem (width : Nat) (a b : Int) : Option Int := (div width a b).map fun _ => a.tmod b

theorem checked_of_inRange {width : Nat} {n : Int} (h : InRange width n) :
    checked width n = some n := if_pos h

theorem eq_of_checked {width : Nat} {n m : Int} (h : checked width n = some m) : m = n := by
  rw [checked] at h
  split at h
  · exact (Option.some.inj h).symm
  · cases h

theorem eq_of_div {width : Nat} {a b q : Int} (h : div width a b = some q) : q = a.tdiv b := by
  rw [div] at h
  split at h
  · cases h
  · exact eq_of_checked h

theorem eq_of_rem {width : Nat} {a b r : Int} (h : rem width a b = some r) : r = a.tmod b := by
  obtain ⟨q, -, rfl⟩ := Option.map_eq_some_iff.mp h
  rfl

section Nonneg

variable {width : Nat} {a b : Int} (hrange : InRange width a)
include hrange

theorem sub_of_le (hb : 0 ≤ b) (hle : b ≤ a) : sub width a b = some (a - b) := by
  apply checked_of_inRange
  exact hrange.of_le (Int.sub_nonneg_of_le hle) (Int.sub_le_self a hb)

variable (ha : 0 ≤ a) (hb : 0 < b)
include ha hb

theorem div_of_pos : div width a b = some (a.tdiv b) := by
  rw [div, if_neg (Int.ne_of_gt hb)]
  apply checked_of_inRange
  exact hrange.of_le (Int.tdiv_nonneg ha (Int.le_of_lt hb)) (Int.tdiv_le_self b ha)

theorem rem_of_pos : rem width a b = some (a.tmod b) := by
  rw [rem, div_of_pos hrange ha hb, Option.map_some]

end Nonneg

end HttpsServ.CheckedInt
