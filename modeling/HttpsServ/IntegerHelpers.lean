import HttpsServ.Utility
import HttpsServ.Library.BitSmear
import HttpsServ.Library.CheckedInt
import HttpsServ.Library.Numeral

/-!
# The integer helpers

The saturation is a minimum, the shift loop counts the hexadecimal digits of
every number but zero, and the bit loop rounds up to a power of two.
-/

namespace HttpsServ.IntegerHelpers

open ByteString Utility Numeral BitSmear

/-- The quotient that is divided by is positive, and the division gives the bound. -/
theorem tdiv_sub_tmod {value maxValue : Int} (hpos : 0 < maxValue) (hle : maxValue ≤ value) :
    0 < value.tdiv maxValue ∧
      (value - value.tmod maxValue).tdiv (value.tdiv maxValue) = maxValue := by
  have hquot : 0 < value.tdiv maxValue := by
    rw [Int.tdiv_eq_ediv_of_nonneg (hpos.le.trans hle)]
    exact (Int.le_ediv_iff_mul_le hpos).mpr (by rwa [zero_add, one_mul])
  have hmul : value - value.tmod maxValue = maxValue * value.tdiv maxValue := by
    have hidentity := Int.tmod_add_mul_tdiv value maxValue
    omega
  exact ⟨hquot, by rw [hmul, Int.mul_tdiv_cancel _ hquot.ne']⟩

theorem saturateValue_eq (value maxValue : Int) :
    saturateValue value maxValue =
      if 0 < value ∧ 0 < maxValue then min value maxValue else 0 := by
  rw [saturateValue]
  by_cases hpos : 0 < value ∧ 0 < maxValue
  · rw [if_pos hpos, if_neg (by omega)]
    split
    · rename_i hge
      rw [(tdiv_sub_tmod hpos.2 hge).2, min_eq_right hge]
    · rename_i hlt
      rw [Int.tmod_eq_of_lt hpos.1.le (by omega), min_eq_left (by omega)]
  · rw [if_neg hpos, if_pos (by omega)]

/-- On positive bounds the saturation is the minimum. -/
theorem saturateValue_eq_min (value : Nat) {maxValue : Nat} (h : 0 < maxValue) :
    saturateValue value maxValue = (min value maxValue : Nat) := by
  rw [saturateValue_eq]
  split <;> omega

/-- `SaturateValue` on `int`; no value where an operation has none. -/
def saturateValueChecked (value maxValue : Int) : Option Int :=
  if value ≤ 0 ∨ maxValue ≤ 0 then some 0
  else if value ≥ maxValue then do
    let remainder ← CheckedInt.rem 32 value maxValue
    let multiple ← CheckedInt.sub 32 value remainder
    let quotient ← CheckedInt.div 32 value maxValue
    CheckedInt.div 32 multiple quotient
  else CheckedInt.rem 32 value maxValue

/-- Every value that the checked operations give is the one of the plain ones. -/
theorem eq_saturateValue {value maxValue result : Int}
    (h : saturateValueChecked value maxValue = some result) :
    result = saturateValue value maxValue := by
  rw [saturateValueChecked] at h
  rw [saturateValue]
  by_cases hpos : value ≤ 0 ∨ maxValue ≤ 0
  · rw [if_pos hpos] at h ⊢
    exact (Option.some.inj h).symm
  · rw [if_neg hpos] at h ⊢
    by_cases hge : value ≥ maxValue
    · rw [if_pos hge] at h ⊢
      obtain ⟨remainder, hrem, h⟩ := Option.bind_eq_some_iff.mp h
      obtain ⟨multiple, hsub, h⟩ := Option.bind_eq_some_iff.mp h
      obtain ⟨quotient, hquot, h⟩ := Option.bind_eq_some_iff.mp h
      rw [CheckedInt.eq_of_div h, CheckedInt.eq_of_div hquot, CheckedInt.eq_of_checked hsub,
        CheckedInt.eq_of_rem hrem]
    · rw [if_neg hge] at h ⊢
      exact CheckedInt.eq_of_rem h

/-- Every operation has a value when the first argument is an `int`. -/
theorem saturateValueChecked_defined {value : Int} (hrange : CheckedInt.InRange 32 value)
    (maxValue : Int) : ∃ result, saturateValueChecked value maxValue = some result := by
  rw [saturateValueChecked]
  split
  · exact ⟨0, rfl⟩
  · rename_i hpos
    have hvalue : 0 ≤ value := by omega
    have hmax : 0 < maxValue := by omega
    have hrem := CheckedInt.rem_of_pos hrange hvalue hmax
    split
    · rename_i hge
      obtain ⟨hquot, hbound⟩ := tdiv_sub_tmod hmax hge
      have hnonneg := Int.tmod_nonneg maxValue hvalue
      have hlt := Int.tmod_lt_of_pos value hmax
      have hmultiple : CheckedInt.InRange 32 (value - value.tmod maxValue) :=
        hrange.of_le (by omega) (by omega)
      refine ⟨maxValue, ?_⟩
      simp only [hrem, CheckedInt.sub_of_le hrange hnonneg (hlt.le.trans hge),
        CheckedInt.div_of_pos hrange hvalue hmax, Option.bind_eq_bind, Option.bind_some]
      rw [CheckedInt.div_of_pos hmultiple (by omega) hquot, hbound]
    · exact ⟨_, hrem⟩

/-- On all pairs of `int` no operation is undefined, and the result is the minimum of
positive arguments and zero otherwise. -/
theorem saturateValue_guardedMin (value maxValue : BitVec 32) :
    saturateValueChecked value.toInt maxValue.toInt =
        some (saturateValue value.toInt maxValue.toInt) ∧
      saturateValue value.toInt maxValue.toInt =
        if 0 < value.toInt ∧ 0 < maxValue.toInt then min value.toInt maxValue.toInt else 0 := by
  refine ⟨?_, saturateValue_eq _ _⟩
  obtain ⟨result, hresult⟩ :=
    saturateValueChecked_defined (CheckedInt.inRange_toInt value) maxValue.toInt
  rw [hresult, eq_saturateValue hresult]

theorem powerOfHexLoop_eq (number powOfHex : Nat) :
    powerOfHexLoop number powOfHex = powOfHex + (Nat.digits 16 number).length := by
  induction number, powOfHex using powerOfHexLoop.induct with
  | case1 powOfHex => simp [powerOfHexLoop]
  | case2 number powOfHex h ih =>
      have hshift : number >>> 4 = number / 16 := Nat.shiftRight_eq_div_pow number 4
      rw [powerOfHexLoop, if_neg h, ih, hshift,
        Nat.digits_def' (by decide) (Nat.pos_of_ne_zero h), List.length_cons]
      omega

theorem powerOfHex_eq (number : Int) :
    powerOfHex number = (Nat.digits 16 number.natAbs).length := by
  rw [powerOfHex, powerOfHexLoop_eq, Nat.zero_add]

/-- `PowerOfHex` counts the hexadecimal digits of the absolute value. -/
theorem powerOfHex_le_iff (number : Int) (width : Nat) :
    powerOfHex number ≤ width ↔ number.natAbs < 16 ^ width := by
  rw [powerOfHex_eq, Nat.digits_length_le_iff (by decide)]

/-- The digits that `%x` prints are counted for every number but zero. -/
theorem powerOfHex_eq_length_iff (n : Nat) :
    powerOfHex n = (hexNumeral n).length ↔ 0 < n := by
  rw [powerOfHex_eq, Int.natAbs_natCast]
  constructor
  · intro h
    apply Nat.pos_of_ne_zero
    rintro rfl
    have hdigits : (hexNumeral 0).length = 1 := by decide
    rw [hdigits, Nat.digits_zero] at h
    cases h
  · intro hpos
    exact (length_numeral 16 hpos.ne').symm

/-- Zero is printed with one digit and counted with none. -/
theorem powerOfHex_zero : ¬ ∀ n : Nat, powerOfHex n = (hexNumeral n).length := by
  intro h
  have hzero := h 0
  rw [powerOfHex_eq] at hzero
  exact absurd hzero (by decide)

/-- A step of the bit loop on a number that is not negative. -/
theorem toNat_smear {v : BitVec 32} (h : v.toNat < 2 ^ 31) (shift : Nat) :
    (v ||| v.sshiftRight shift).toNat = smear v.toNat shift ∧ smear v.toNat shift < 2 ^ 31 := by
  have hmsb : v.msb = false := BitVec.msb_eq_false_iff_two_mul_lt.mpr (by omega)
  constructor
  · rw [BitVec.toNat_or, BitVec.sshiftRight_eq_of_msb_false hmsb, BitVec.toNat_ushiftRight, smear]
  · apply Nat.or_lt_two_pow h
    exact (Nat.shiftRight_le v.toNat shift).trans_lt h

theorem nextHighestPowerOfTwo_toNat {v : BitVec 32} (hpos : 1 ≤ v.toNat)
    (hle : v.toNat ≤ 2 ^ 30) :
    (nextHighestPowerOfTwo v).toNat = 2 ^ (v.toNat - 1).size := by
  have hsub : (v - 1).toNat = v.toNat - 1 := BitVec.toNat_sub_of_le (by
    rw [BitVec.le_def]
    exact hpos)
  obtain ⟨h₁, hlt₁⟩ := toNat_smear (v := v - 1) (by omega) 1
  obtain ⟨h₂, hlt₂⟩ := toNat_smear (by rwa [h₁]) 2
  obtain ⟨h₄, hlt₄⟩ := toNat_smear (by rwa [h₂]) 4
  obtain ⟨h₈, hlt₈⟩ := toNat_smear (by rwa [h₄]) 8
  obtain ⟨h₁₆, hlt₁₆⟩ := toNat_smear (by rwa [h₈]) 16
  have hwidth : v.toNat - 1 < 2 ^ (2 ^ 5 - 1 + 1) := by
    norm_num
    omega
  have hfilled : smearAll 5 (v.toNat - 1) = 2 ^ (v.toNat - 1).size - 1 :=
    (reaches_smearAll 5 (v.toNat - 1)).eq_two_pow_size hwidth
  have hsmall : 2 ^ (v.toNat - 1).size ≤ 2 ^ 30 := by
    apply Nat.pow_le_pow_right (by decide)
    rw [Nat.size_le]
    omega
  have hone : 1 ≤ 2 ^ (v.toNat - 1).size := Nat.one_le_two_pow
  have hsmear : smearAll 5 (v - 1).toNat =
      smear (smear (smear (smear (smear (v - 1).toNat 1) 2) 4) 8) 16 := rfl
  simp only [nextHighestPowerOfTwo]
  rw [BitVec.toNat_add, h₁₆, h₈, h₄, h₂, h₁, ← hsmear, hsub, hfilled]
  have htoNat : (1 : BitVec 32).toNat = 1 := rfl
  rw [htoNat, Nat.sub_add_cancel hone, Nat.mod_eq_of_lt (by omega)]

/-- The result is the least power of two that is not below the argument. -/
theorem nextHighestPowerOfTwo_isLeast {v : BitVec 32} (hpos : 1 ≤ v.toNat)
    (hle : v.toNat ≤ 2 ^ 30) : IsLeast (powersAbove v.toNat) (nextHighestPowerOfTwo v).toNat := by
  rw [nextHighestPowerOfTwo_toNat hpos hle]
  exact isLeast_powersAbove v.toNat

/-- It is the argument itself exactly for a power of two. -/
theorem nextHighestPowerOfTwo_eq_iff {v : BitVec 32} (hpos : 1 ≤ v.toNat)
    (hle : v.toNat ≤ 2 ^ 30) : nextHighestPowerOfTwo v = v ↔ ∃ k, v.toNat = 2 ^ k := by
  have hleast := nextHighestPowerOfTwo_isLeast hpos hle
  constructor
  · intro h
    rw [h] at hleast
    exact hleast.1.1
  · intro hpower
    apply BitVec.eq_of_toNat_eq
    exact Nat.le_antisymm (hleast.2 ⟨hpower, le_rfl⟩) hleast.1.2

/-- From one to `2 ^ 30` an `int` is rounded up to the next power of two, and the powers
of two are the numbers that stay. -/
theorem nextHighestPowerOfTwo_roundsUp (v : BitVec 32) (hpos : 1 ≤ v.toInt)
    (hle : v.toInt ≤ 2 ^ 30) :
    IsLeast {p : Int | (∃ k : Nat, p = 2 ^ k) ∧ v.toInt ≤ p} (nextHighestPowerOfTwo v).toInt ∧
      (nextHighestPowerOfTwo v = v ↔ ∃ k : Nat, v.toInt = 2 ^ k) := by
  have hv : v.toInt = (v.toNat : Int) :=
    BitVec.toInt_eq_toNat_of_lt (BitVec.toInt_pos_iff.mp (by omega))
  rw [hv] at hpos hle ⊢
  have hleast : IsLeast (powersAbove v.toNat) (nextHighestPowerOfTwo v).toNat :=
    nextHighestPowerOfTwo_isLeast (by omega) (by omega)
  have hsmall : (nextHighestPowerOfTwo v).toNat ≤ 2 ^ 30 := hleast.2 ⟨⟨30, rfl⟩, by omega⟩
  have hresult : (nextHighestPowerOfTwo v).toInt = ((nextHighestPowerOfTwo v).toNat : Int) :=
    BitVec.toInt_eq_toNat_of_lt (by omega)
  rw [hresult]
  refine ⟨⟨⟨?_, ?_⟩, ?_⟩, ?_⟩
  · obtain ⟨k, hk⟩ := hleast.1.1
    exact ⟨k, by exact_mod_cast hk⟩
  · exact_mod_cast hleast.1.2
  · rintro p ⟨⟨k, rfl⟩, habove⟩
    exact_mod_cast hleast.2 ⟨⟨k, rfl⟩, by exact_mod_cast habove⟩
  · rw [nextHighestPowerOfTwo_eq_iff (by omega) (by omega)]
    exact exists_congr fun k => by exact_mod_cast Iff.rfl

theorem nextHighestPowerOfTwo_roundsUp_five :
    (nextHighestPowerOfTwo 5).toInt = 8 ∧ IsLeast {p : Int | (∃ k : Nat, p = 2 ^ k) ∧ 5 ≤ p} 8 := by
  have height : (nextHighestPowerOfTwo 5).toInt = 8 := by decide
  have hleast := (nextHighestPowerOfTwo_roundsUp 5 (by decide) (by decide)).1
  rw [height] at hleast
  exact ⟨height, hleast⟩

end HttpsServ.IntegerHelpers
