import HttpsServ.Library.ByteString
import Mathlib.Data.Nat.Digits.Lemmas

/-!
# Numerals as `printf` writes them

Positional notation over the digits of Mathlib, most significant digit first,
and the reading direction for hexadecimal text in either letter case.
-/

namespace HttpsServ.Numeral

open ByteString

/-- The symbol of one digit below sixteen. -/
def digitByte (d : Nat) : UInt8 :=
  if d < 10 then UInt8.ofNat (48 + d) else UInt8.ofNat (87 + d)

/-- The numeral of `n`, with the single symbol `0` for zero. -/
def numeral (base n : Nat) : Bytes :=
  if n = 0 then [48] else ((base.digits n).map digitByte).reverse

/-- `%x`. -/
def hexNumeral (n : Nat) : Bytes := numeral 16 n

/-- `%d`. -/
def decNumeral (n : Int) : Bytes :=
  if n < 0 then 45 :: numeral 10 n.natAbs else numeral 10 n.natAbs

theorem length_numeral (base : Nat) {n : Nat} (hn : n ≠ 0) :
    (numeral base n).length = (base.digits n).length := by
  simp [numeral, hn]

/-- A positive number has at most `k` digits exactly below `base ^ k`. -/
theorem length_numeral_le_iff {base n k : Nat} (hb : 1 < base) (hn : n ≠ 0) :
    (numeral base n).length ≤ k ↔ n < base ^ k := by
  rw [length_numeral base hn, Nat.digits_length_le_iff hb]

/-- Dividing by the base takes the last digit off. -/
theorem length_numeral_div {base n : Nat} (hb : 1 < base) (hn : n / base ≠ 0) :
    (numeral base n).length = (numeral base (n / base)).length + 1 := by
  have hpos : 0 < n := Nat.pos_of_ne_zero fun h => hn (by rw [h, Nat.zero_div])
  rw [length_numeral base hn, length_numeral base hpos.ne', Nat.digits_def' hb hpos,
    List.length_cons]

theorem length_numeral_of_lt {base n : Nat} (hn : n < base) :
    (numeral base n).length = 1 := by
  by_cases hzero : n = 0
  · rw [hzero]
    rfl
  · rw [length_numeral base hzero, Nat.digits_of_lt base n hzero hn]
    rfl

theorem numeral_ne_nil {base n : Nat} : numeral base n ≠ [] := by
  by_cases hn : n = 0
  · simp [numeral, hn]
  · simp [numeral, hn, Nat.digits_eq_nil_iff_eq_zero]

theorem mem_numeral {base n : Nat} (hb : 1 < base) {b : UInt8} (h : b ∈ numeral base n) :
    ∃ d, d < base ∧ b = digitByte d := by
  by_cases hn : n = 0
  · rw [numeral, if_pos hn, List.mem_singleton] at h
    exact ⟨0, by omega, h⟩
  · simp only [numeral, hn, if_false, List.mem_reverse, List.mem_map] at h
    obtain ⟨d, hd, rfl⟩ := h
    exact ⟨d, Nat.digits_lt_base hb hd, rfl⟩

/-- The value of one hexadecimal digit, in either letter case. -/
def hexVal (b : UInt8) : Option Nat :=
  if 48 ≤ b ∧ b ≤ 57 then some (b.toNat - 48)
  else if 97 ≤ b ∧ b ≤ 102 then some (b.toNat - 87)
  else if 65 ≤ b ∧ b ≤ 70 then some (b.toNat - 55)
  else none

def isHex (b : UInt8) : Bool := (hexVal b).isSome

/-- The value of a line of digits in any base. -/
def lineValue (base : Nat) (line : Bytes) : Nat :=
  line.foldl (fun acc b => base * acc + (hexVal b).getD 0) 0

/-- The value of a line of hexadecimal digits. -/
def hexLineValue (line : Bytes) : Nat := lineValue 16 line

theorem hexVal_digitByte {d : Nat} (hd : d < 16) : hexVal (digitByte d) = some d := by
  revert d
  decide

theorem hexVal_lt {b : UInt8} {v : Nat} (h : hexVal b = some v) : v < 16 := by
  simp only [hexVal, UInt8.le_iff_toNat_le, UInt8.reduceToNat] at h
  split at h
  · rw [Option.some.injEq] at h
    omega
  · split at h
    · rw [Option.some.injEq] at h
      omega
    · split at h
      · rw [Option.some.injEq] at h
        omega
      · cases h

theorem isHex_of_mem_hexNumeral {n : Nat} {b : UInt8} (h : b ∈ hexNumeral n) :
    isHex b = true := by
  obtain ⟨d, hd, rfl⟩ := mem_numeral (by decide) h
  simp [isHex, hexVal_digitByte hd]

/-- Reading back a numeral. -/
theorem lineValue_numeral {base : Nat} (hb : 1 < base) (hle : base ≤ 16) (n : Nat) :
    lineValue base (numeral base n) = n := by
  by_cases hn : n = 0
  · subst hn
    have hzero : hexVal 48 = some 0 := by decide
    simp [numeral, lineValue, hzero]
  · have hread : ∀ l : List Nat, (∀ d ∈ l, d < 16) →
        lineValue base (l.map digitByte).reverse = Nat.ofDigits base l := by
      intro l hl
      induction l with
      | nil => rfl
      | cons d l ih =>
          rw [List.map_cons, List.reverse_cons, lineValue, List.foldl_append]
          simp only [List.foldl_cons, List.foldl_nil, hexVal_digitByte (hl d (by simp)),
            Option.getD_some]
          rw [← lineValue, ih fun e he => hl e (List.mem_cons_of_mem _ he),
            Nat.ofDigits_cons]
          simp [Nat.add_comm]
    rw [numeral, if_neg hn,
      hread _ fun d hd => (Nat.digits_lt_base hb hd).trans_le hle, Nat.ofDigits_digits]

theorem numeral_inj {base m n : Nat} (hb : 1 < base) (hle : base ≤ 16)
    (h : numeral base m = numeral base n) : m = n := by
  calc
    m = lineValue base (numeral base m) := (lineValue_numeral hb hle m).symm
    _ = lineValue base (numeral base n) := by rw [h]
    _ = n := lineValue_numeral hb hle n

/-- Reading back what `%x` prints. -/
theorem hexLineValue_hexNumeral (n : Nat) : hexLineValue (hexNumeral n) = n :=
  lineValue_numeral (by decide) le_rfl n

/-- A line of `k` digits stays below `16 ^ k`. -/
theorem hexLineValue_lt (line : Bytes) : hexLineValue line < 16 ^ line.length := by
  induction line using List.reverseRecOn with
  | nil => decide
  | append_singleton line b ih =>
      have hb : (hexVal b).getD 0 < 16 := by
        cases h : hexVal b with
        | none => decide
        | some v => exact hexVal_lt h
      have hstep : hexLineValue (line ++ [b]) = 16 * hexLineValue line + (hexVal b).getD 0 := by
        simp only [hexLineValue, lineValue, List.foldl_append, List.foldl_cons, List.foldl_nil]
      rw [hstep, List.length_append, List.length_singleton, Nat.pow_succ]
      omega

end HttpsServ.Numeral
