import Mathlib.Algebra.Group.Nat.Defs
import Mathlib.Data.Nat.Size
import Mathlib.Order.Bounds.Basic

/-!
# Filling the bits below the highest one

A number combined with itself shifted by one, two, four and so on has all bits
below its highest one. One more is the least power of two that is not below the
successor of the number.
-/

namespace HttpsServ.BitSmear

/-- Every bit also `shift` places lower. -/
def smear (n shift : Nat) : Nat := n ||| n >>> shift

/-- The bits of `n` are those of `v`, also at every place up to `reach` lower. -/
def Reaches (v reach n : Nat) : Prop :=
  ∀ i, n.testBit i = true ↔ ∃ d ≤ reach, v.testBit (i + d) = true

theorem reaches_self (v : Nat) : Reaches v 0 v := by
  intro i
  simp

/-- A shift by at most one place more than what is reached leaves no gap. -/
theorem Reaches.smear {v reach n shift : Nat} (h : Reaches v reach n) (hshift : shift ≤ reach + 1) :
    Reaches v (reach + shift) (smear n shift) := by
  intro i
  rw [BitSmear.smear, Nat.testBit_or, Nat.testBit_shiftRight, Bool.or_eq_true, h, h]
  constructor
  · rintro (⟨d, hd, hbit⟩ | ⟨d, hd, hbit⟩)
    · exact ⟨d, by omega, hbit⟩
    · refine ⟨shift + d, by omega, ?_⟩
      rwa [← Nat.add_assoc, Nat.add_comm i]
  · rintro ⟨d, hd, hbit⟩
    rcases Nat.lt_or_ge reach d with hfar | hnear
    · right
      refine ⟨d - shift, by omega, ?_⟩
      rwa [show shift + i + (d - shift) = i + d by omega]
    · exact .inl ⟨d, hnear, hbit⟩

/-- The shifts by the first `k` powers of two. -/
def smearAll (k v : Nat) : Nat := ((List.range k).map fun j => 2 ^ j).foldl smear v

theorem smearAll_succ (k v : Nat) : smearAll (k + 1) v = smear (smearAll k v) (2 ^ k) := by
  simp [smearAll, List.range_succ]

theorem reaches_smearAll (k v : Nat) : Reaches v (2 ^ k - 1) (smearAll k v) := by
  induction k with
  | zero => exact reaches_self v
  | succ k ih =>
      have hpos : 0 < 2 ^ k := Nat.two_pow_pos k
      have hsum : 2 ^ (k + 1) - 1 = 2 ^ k - 1 + 2 ^ k := by
        rw [Nat.pow_succ]
        omega
      rw [smearAll_succ, hsum]
      apply ih.smear
      omega

/-- Where the reach is as wide as the number, all bits below the highest are set. -/
theorem Reaches.eq_two_pow_size {v reach n : Nat} (h : Reaches v reach n)
    (hv : v < 2 ^ (reach + 1)) : n = 2 ^ v.size - 1 := by
  apply Nat.eq_of_testBit_eq
  intro i
  rw [Bool.eq_iff_iff, h, Nat.testBit_two_pow_sub_one, decide_eq_true_iff, Nat.lt_size]
  constructor
  · rintro ⟨d, -, hbit⟩
    exact (Nat.pow_le_pow_right (by decide) (Nat.le_add_right i d)).trans
      (Nat.ge_two_pow_of_testBit hbit)
  · intro hle
    obtain ⟨j, hj, hbit⟩ := Nat.exists_ge_and_testBit_of_ge_two_pow hle
    have hlt : j < reach + 1 := by
      by_contra hfar
      rw [Nat.testBit_lt_two_pow (hv.trans_le (Nat.pow_le_pow_right (by decide) (by omega)))] at hbit
      cases hbit
    exact ⟨j - i, by omega, by rwa [Nat.add_sub_of_le hj]⟩

/-- The powers of two that are at least `n`. -/
def powersAbove (n : Nat) : Set Nat := {p | (∃ k, p = 2 ^ k) ∧ n ≤ p}

theorem isLeast_powersAbove (n : Nat) : IsLeast (powersAbove n) (2 ^ (n - 1).size) := by
  constructor
  · refine ⟨⟨_, rfl⟩, ?_⟩
    have hlt := Nat.lt_size_self (n - 1)
    omega
  · rintro p ⟨⟨k, rfl⟩, hle⟩
    apply Nat.pow_le_pow_right (by decide)
    rw [Nat.size_le]
    have hpos : 0 < 2 ^ k := Nat.two_pow_pos k
    omega

end HttpsServ.BitSmear
