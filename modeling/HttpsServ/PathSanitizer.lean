import HttpsServ.Utility
import Mathlib.Data.List.Basic

/-!
# What the path sanitizer keeps

The blanking loop restarts its search after every hit, but it blanks exactly
the occurrences of `"../"` of the original string, because the blanks it
writes never take part in a new one. On the components between the slashes
this reads: a component that ends in `".."` loses these dots and the slash
behind them, and its remainder is glued to the component that follows.
-/

namespace HttpsServ.PathSanitizer

open ByteString Utility

/-- The string with every `"../"` it contains turned into blanks. -/
def blanked : Bytes → Bytes
  | [] => []
  | b :: rest =>
      if susWord <+: b :: rest then 32 :: 32 :: 32 :: blanked (rest.drop 2)
      else b :: blanked rest
termination_by s => s.length
decreasing_by
  all_goals simp only [List.length_cons, List.length_drop]
  all_goals omega

theorem susWord_bytes : susWord = [46, 46, 47] := by decide

theorem blanked_cons {b : UInt8} {rest : Bytes} (h : ¬ susWord <+: b :: rest) :
    blanked (b :: rest) = b :: blanked rest := by
  rw [blanked, if_neg h]

theorem blanked_susWord (rest : Bytes) :
    blanked (susWord ++ rest) = 32 :: 32 :: 32 :: blanked rest := by
  rw [susWord_bytes, List.cons_append, blanked, if_pos]
  · rfl
  · exact ⟨rest, by rw [susWord_bytes]; rfl⟩

theorem length_blanked (s : Bytes) : (blanked s).length = s.length := by
  induction s using blanked.induct with
  | case1 => rw [blanked]
  | case2 b rest h ih =>
      have hlen := h.length_le
      simp only [susWord_bytes, List.length_cons, List.length_nil] at hlen
      rw [blanked, if_pos h]
      simp only [List.length_cons, ih, List.length_drop]
      omega
  | case3 b rest h ih => rw [blanked_cons h, List.length_cons, ih, List.length_cons]

/-- A part in which no occurrence begins is left alone. -/
theorem blanked_append {pre rest : Bytes}
    (h : ∀ j < pre.length, ¬ susWord <+: (pre ++ rest).drop j) :
    blanked (pre ++ rest) = pre ++ blanked rest := by
  induction pre with
  | nil => rfl
  | cons b pre ih =>
      rw [List.cons_append, blanked_cons (by simpa using h 0 (by simp)), ih]
      · rfl
      · intro j hj
        simpa using h (j + 1) (by simpa using hj)

theorem blanked_of_none {s : Bytes} (h : firstOccurrence susWord s = none) :
    blanked s = s := by
  have hb : blanked (s ++ []) = s ++ blanked [] := by
    apply blanked_append
    intro j _
    rw [List.append_nil]
    exact firstOccurrence_eq_none_iff.mp h j
  simpa [blanked] using hb

/-- No occurrence begins before a blank and reaches it. -/
theorem susWord_not_over_blanks {pre rest : Bytes} {j : Nat} (hj : j < pre.length)
    (h : susWord <+: (pre ++ 32 :: 32 :: 32 :: rest).drop j) :
    susWord <+: pre.drop j := by
  rw [List.drop_append_of_le_length (by omega)] at h
  rw [susWord_bytes] at h ⊢
  match hd : pre.drop j with
  | [] => rw [List.drop_eq_nil_iff] at hd; omega
  | [a] => simp [hd] at h
  | [a, b] => simp [hd] at h
  | a :: b :: c :: more =>
      simp only [hd, List.cons_append, List.cons_prefix_cons, List.nil_prefix] at h ⊢
      exact h

/-- One round of the first loop does not change what will be blank at the end. -/
theorem blanked_blank {s : Scan} {it : Nat}
    (h : firstOccurrence susWord s.src = some it) :
    blanked (s.blank it).src = blanked s.src := by
  obtain ⟨-, hbefore⟩ := firstOccurrence_spec h
  have hsplit := firstOccurrence_split h
  have hlen : susWord.length = 3 := by decide
  rw [hlen] at hsplit
  have hle : it ≤ s.src.length := by
    have := firstOccurrence_le h (by decide)
    omega
  have htake : (s.src.take it).length = it := by simp [hle]
  have hold : blanked s.src =
      s.src.take it ++ 32 :: 32 :: 32 :: blanked (s.src.drop (it + 3)) := by
    conv_lhs => rw [hsplit]
    rw [List.append_assoc, blanked_append, blanked_susWord]
    intro j hj
    rw [← List.append_assoc, ← hsplit]
    exact hbefore j (by omega)
  have hnew : blanked (s.blank it).src =
      s.src.take it ++ 32 :: 32 :: 32 :: blanked (s.src.drop (it + 3)) := by
    rw [s.blank_src h, List.append_assoc, blanked_append]
    · have hne : ∀ l : Bytes, ¬ susWord <+: 32 :: l := by
        intro l hp
        rw [susWord_bytes, List.cons_prefix_cons] at hp
        exact absurd hp.1 (by decide)
      simp [blanked_cons, hne]
    · intro j hj hp
      have hin := susWord_not_over_blanks hj hp
      apply hbefore j (by omega)
      rw [hsplit, List.append_assoc, List.drop_append_of_le_length (by omega)]
      exact hin.trans (List.prefix_append _ _)
  rw [hnew, hold]

/-- The first loop blanks exactly the occurrences of the original string. -/
theorem blankLoop_src (s : Scan) : (blankLoop s).src = blanked s.src := by
  induction s using blankLoop.induct with
  | case1 s h =>
      rw [blankLoop]
      split
      · exact (blanked_of_none h).symm
      · simp_all
  | case2 s it h ih =>
      rw [blankLoop]
      split
      · simp_all
      · rename_i it' h'
        obtain rfl : it' = it := Option.some.inj (h'.symm.trans h)
        rw [ih, blanked_blank h]

/-- The symbols the second loop copies down. -/
def unspaced (s : Bytes) : Bytes := s.filter (· ≠ 32)

theorem unspaced_drop_symbol {s : Bytes} {i : Nat} (hi : i < s.length) (hb : s[i] ≠ 32) :
    unspaced (s.drop i) = s[i] :: unspaced (s.drop (i + 1)) := by
  rw [List.drop_eq_getElem_cons hi, unspaced, List.filter_cons_of_pos (by simpa using hb)]
  rfl

theorem unspaced_drop_blank {s : Bytes} {i : Nat} (hi : i < s.length) (hb : s[i] = 32) :
    unspaced (s.drop i) = unspaced (s.drop (i + 1)) := by
  rw [List.drop_eq_getElem_cons hi, unspaced, List.filter_cons_of_neg (by simpa using hb)]
  rfl

/-- From position `i` on, the second loop appends what is left without blanks
to the `it` symbols already in place. -/
theorem squeezeLoop_spec (i it : Nat) (s : Scan) (hit : it ≤ i) (hi : i ≤ s.src.length) :
    (squeezeLoop i it s).1 = it + (unspaced (s.src.drop i)).length ∧
      (squeezeLoop i it s).2.src.take (squeezeLoop i it s).1 =
        s.src.take it ++ unspaced (s.src.drop i) ∧
      (squeezeLoop i it s).2.src.length = s.src.length := by
  induction i, it, s using squeezeLoop.induct with
  | case1 i it s h hb hne ih =>
      -- the symbol moves down to `it`; everything from `i + 1` on is untouched
      obtain ⟨h₁, h₂, h₃⟩ := ih (by omega) (by simpa using Nat.succ_le_of_lt h)
      have hset : (s.src.set it s.src[i]).drop (i + 1) = s.src.drop (i + 1) :=
        List.drop_set_of_lt (by omega)
      have htake : (s.src.set it s.src[i]).take (it + 1) = s.src.take it ++ [s.src[i]] := by
        rw [List.take_succ_eq_append_getElem (by simp; omega), List.take_set_of_le (by omega)]
        simp
      simp only [hset, htake, List.length_set] at h₁ h₂ h₃
      rw [squeezeLoop, dif_pos h, if_pos hb, if_pos hne, unspaced_drop_symbol h hb]
      refine ⟨?_, ?_, h₃⟩
      · rw [h₁, List.length_cons]
        omega
      · rw [h₂, List.append_assoc, List.singleton_append]
  | case2 i it s h hb heq ih =>
      obtain ⟨h₁, h₂, h₃⟩ := ih (by omega) (by omega)
      obtain rfl : i = it := Decidable.not_not.mp heq
      rw [squeezeLoop, dif_pos h, if_pos hb, if_neg heq, unspaced_drop_symbol h hb]
      refine ⟨?_, ?_, h₃⟩
      · rw [h₁, List.length_cons]
        omega
      · rw [h₂, List.take_succ_eq_append_getElem h, List.append_assoc, List.singleton_append]
  | case3 i it s h hb ih =>
      have hblank : s.src[i] = 32 := Decidable.not_not.mp hb
      rw [squeezeLoop, dif_pos h, if_neg hb, unspaced_drop_blank h hblank]
      exact ih (by omega) (by omega)
  | case4 i it s h =>
      rw [squeezeLoop, dif_neg h]
      simp [List.drop_eq_nil_of_le (Nat.le_of_not_lt h), unspaced]

/-- The sanitizer keeps the symbols that are neither blank nor part of a `"../"`. -/
theorem getFilePosition_src (src : Bytes) :
    (getFilePosition src).src = unspaced (blanked src) := by
  have hspec := squeezeLoop_spec 0 0 (blankLoop { src := src, stores := [] })
    le_rfl (Nat.zero_le _)
  simp only [List.drop_zero, List.take_zero, List.nil_append, blankLoop_src] at hspec
  obtain ⟨-, htake, hlen⟩ := hspec
  simp only [getFilePosition]
  split
  · exact htake
  · rw [List.take_of_length_le (by omega)] at htake
    exact htake

theorem getFilePosition_position (src : Bytes) :
    (getFilePosition src).position = (unspaced (blanked src)).length := by
  have hspec := squeezeLoop_spec 0 0 (blankLoop { src := src, stores := [] })
    le_rfl (Nat.zero_le _)
  simp only [List.drop_zero, blankLoop_src, Nat.zero_add] at hspec
  simp only [getFilePosition]
  split <;> exact hspec.1

end HttpsServ.PathSanitizer
