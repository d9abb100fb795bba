import HttpsServ.PathSanitizer
import HttpsServ.ResponseHeader

/-!
# The stores of the path sanitizer

The second loop of `GetFilePosition` runs up to `(int)strlen(src)`. Every store is
inside the string. A string with neither `"../"` nor a space is left alone as long
as its length is an `int`: both cursors of the second loop then end at the zero.
A longer one is cut off where the loop stops too early.
-/

namespace HttpsServ.PathStores

open ByteString Utility PathSanitizer ResponseHeader

theorem toInt32_le (n : Nat) : toInt32 n ≤ n := by
  rw [toInt32, Int.bmod_def]
  split <;> omega

theorem toInt32_le_intMax (n : Nat) : toInt32 n ≤ intMax := by
  have hmax : intMax = 2147483647 := rfl
  rw [toInt32, Int.bmod_def]
  split <;> omega

theorem lt_of_lt_toInt32 {i n : Nat} (h : (i : Int) < toInt32 n) : i < n :=
  Int.ofNat_lt.mp (h.trans_le (toInt32_le n))

/-- The number of rounds falls short of the length exactly for a length that is no `int`. -/
theorem toNat_toInt32_lt_iff (n : Nat) : (toInt32 n).toNat < n ↔ intMax < n := by
  constructor
  · intro h
    by_contra hle
    rw [toInt32_size (Nat.not_lt.mp hle), Int.toNat_natCast] at h
    exact Nat.lt_irrefl _ h
  · intro h
    have hle := toInt32_le_intMax n
    omega

/-- The second loop with the cast in its bound. -/
def squeezeLoopInt (i it : Nat) (s : Scan) : Nat × Scan :=
  if h : (i : Int) < toInt32 s.src.length then
    have hi : i < s.src.length := lt_of_lt_toInt32 h
    if s.src[i] ≠ 32 then
      if i ≠ it then
        squeezeLoopInt (i + 1) (it + 1)
          { src := s.src.set it s.src[i], stores := s.stores ++ [(it, s.src[i])] }
      else squeezeLoopInt (i + 1) (it + 1) s
    else squeezeLoopInt (i + 1) it s
  else (it, s)
termination_by s.src.length - i
decreasing_by
  all_goals try simp only [List.length_set]
  all_goals omega

theorem squeezeLoopInt_round {i it : Nat} {s : Scan} (hi : i < s.src.length)
    (h : (i : Int) < toInt32 s.src.length) :
    squeezeLoopInt i it s =
      if s.src[i] ≠ 32 then
        if i ≠ it then
          squeezeLoopInt (i + 1) (it + 1)
            { src := s.src.set it s.src[i], stores := s.stores ++ [(it, s.src[i])] }
        else squeezeLoopInt (i + 1) (it + 1) s
      else squeezeLoopInt (i + 1) it s := by
  rw [squeezeLoopInt.eq_def, dif_pos h]

theorem squeezeLoopInt_end {i it : Nat} {s : Scan} (h : ¬ (i : Int) < toInt32 s.src.length) :
    squeezeLoopInt i it s = (it, s) := by
  rw [squeezeLoopInt.eq_def, dif_neg h]

/-- `GetFilePosition` with the cast in the bound of its second loop. -/
def getFilePositionInt (src : Bytes) : FilePosition :=
  let (it, s) := squeezeLoopInt 0 0 (blankLoop { src := src, stores := [] })
  if it < s.src.length then
    { src := s.src.take it, position := it, stores := s.stores ++ [(it, 0)] }
  else { src := s.src, position := it, stores := s.stores }

/-- Where the length is an `int` the bound is the length. -/
theorem lt_toInt32_iff {i n : Nat} (h : n ≤ intMax) : (i : Int) < toInt32 n ↔ i < n := by
  rw [toInt32_size h, Int.ofNat_lt]

/-- The cast then changes nothing. -/
theorem squeezeLoopInt_eq {i it : Nat} {s : Scan} (h : s.src.length ≤ intMax) :
    squeezeLoopInt i it s = squeezeLoop i it s := by
  induction i, it, s using squeezeLoop.induct with
  | case1 i it s hi hb hne ih =>
      rw [squeezeLoopInt_round hi ((lt_toInt32_iff h).mpr hi), squeezeLoop, dif_pos hi, if_pos hb,
        if_pos hne, if_pos hb, if_pos hne]
      exact ih (by rwa [List.length_set])
  | case2 i it s hi hb heq ih =>
      rw [squeezeLoopInt_round hi ((lt_toInt32_iff h).mpr hi), squeezeLoop, dif_pos hi, if_pos hb,
        if_neg heq, if_pos hb, if_neg heq]
      exact ih h
  | case3 i it s hi hb ih =>
      rw [squeezeLoopInt_round hi ((lt_toInt32_iff h).mpr hi), squeezeLoop, dif_pos hi, if_neg hb,
        if_neg hb]
      exact ih h
  | case4 i it s hi =>
      rw [squeezeLoopInt_end (mt (lt_toInt32_iff h).mp hi), squeezeLoop, dif_neg hi]

theorem getFilePositionInt_eq {src : Bytes} (h : src.length ≤ intMax) :
    getFilePositionInt src = getFilePosition src := by
  have hlength : (blankLoop { src := src, stores := [] }).src.length ≤ intMax := by
    rwa [blankLoop_src, length_blanked]
  rw [getFilePositionInt, getFilePosition, squeezeLoopInt_eq hlength]

/-- All stores so far were inside a string of this length, which it still has. -/
structure Inside (s : Scan) (length : Nat) : Prop where
  length_eq : s.src.length = length
  stores_lt : ∀ store ∈ s.stores, store.1 < length

theorem Inside.blank {s : Scan} {length it : Nat} (h : Inside s length)
    (hfound : firstOccurrence susWord s.src = some it) : Inside (s.blank it) length := by
  have hle : it + susWord.length ≤ s.src.length := firstOccurrence_le hfound (by decide)
  have hlen : susWord.length = 3 := by decide
  have hlength := h.length_eq
  refine ⟨(length_overwrite _ _ _).trans hlength, ?_⟩
  intro store hstore
  cases List.mem_append.mp hstore with
  | inl hold => exact h.stores_lt store hold
  | inr hnew =>
      simp only [List.mem_cons, List.not_mem_nil, or_false] at hnew
      obtain rfl | rfl | rfl := hnew <;> dsimp only <;> omega

/-- The first loop stores inside the string. -/
theorem Inside.blankLoop {s : Scan} {length : Nat} (h : Inside s length) :
    Inside (blankLoop s) length := by
  induction s using blankLoop.induct with
  | case1 s hnone =>
      rw [Utility.blankLoop]
      split
      · exact h
      · simp_all
  | case2 s it hfound ih =>
      rw [Utility.blankLoop]
      split
      · simp_all
      · rename_i it' hfound'
        obtain rfl : it' = it := Option.some.inj (hfound'.symm.trans hfound)
        exact ih (h.blank hfound)

theorem Inside.move {s : Scan} {length it : Nat} (h : Inside s length) (hit : it < length)
    (symbol : UInt8) :
    Inside { src := s.src.set it symbol, stores := s.stores ++ [(it, symbol)] } length := by
  refine ⟨List.length_set.trans h.length_eq, ?_⟩
  intro store hstore
  cases List.mem_append.mp hstore with
  | inl hold => exact h.stores_lt store hold
  | inr hnew => rwa [List.mem_singleton.mp hnew]

/-- So does the second one, which writes behind what it reads. -/
theorem Inside.squeezeLoopInt {i it : Nat} {s : Scan} {length : Nat} (h : Inside s length)
    (hit : it ≤ i) : Inside (squeezeLoopInt i it s).2 length := by
  induction i, it, s using squeezeLoopInt.induct with
  | case1 i it s hcast hi hb hne ih =>
      rw [squeezeLoopInt_round hi hcast, if_pos hb, if_pos hne]
      exact ih (h.move (hit.trans_lt (hi.trans_eq h.length_eq)) _) (Nat.succ_le_succ hit)
  | case2 i it s hcast hi hb heq ih =>
      rw [squeezeLoopInt_round hi hcast, if_pos hb, if_neg heq]
      exact ih h (Nat.succ_le_succ hit)
  | case3 i it s hcast hi hb ih =>
      rw [squeezeLoopInt_round hi hcast, if_neg hb]
      exact ih h (hit.trans (Nat.le_succ i))
  | case4 i it s hcast =>
      rw [squeezeLoopInt_end hcast]
      exact h

theorem getFilePositionInt_inside (src : Bytes) :
    ∀ store ∈ (getFilePositionInt src).stores, store.1 < src.length := by
  have hstart : Inside { src := src, stores := [] } src.length :=
    ⟨rfl, fun store hstore => absurd hstore List.not_mem_nil⟩
  have hloops := hstart.blankLoop.squeezeLoopInt (le_refl 0)
  rw [getFilePositionInt]
  generalize PathStores.squeezeLoopInt 0 0 (blankLoop { src := src, stores := [] }) = result at *
  obtain ⟨it, s⟩ := result
  dsimp only
  split
  · rename_i hcut
    intro store hstore
    cases List.mem_append.mp hstore with
    | inl hold => exact hloops.stores_lt store hold
    | inr hnew =>
        rw [List.mem_singleton.mp hnew]
        exact hcut.trans_eq hloops.length_eq
  · exact hloops.stores_lt

/-- A string that the sanitizer has nothing to remove from. -/
def IsClean (src : Bytes) : Prop := ¬ susWord <:+: src ∧ 32 ∉ src

theorem blankLoop_clean {s : Scan} (h : ¬ susWord <:+: s.src) : blankLoop s = s := by
  have hnone : firstOccurrence susWord s.src = none := by
    rw [← Option.not_isSome_iff_eq_none, firstOccurrence_isSome_iff]
    exact h
  rw [blankLoop]
  split
  · rfl
  · simp_all

/-- Without a space the two cursors stay together up to the bound. -/
theorem squeezeLoopInt_clean {s : Scan} (h : 32 ∉ s.src) {i : Nat}
    (hi : i ≤ (toInt32 s.src.length).toNat) :
    squeezeLoopInt i i s = ((toInt32 s.src.length).toNat, s) := by
  induction hn : (toInt32 s.src.length).toNat - i generalizing i with
  | zero =>
      have hlast : i = (toInt32 s.src.length).toNat := by omega
      rw [squeezeLoopInt_end (by omega), ← hlast]
  | succ n ih =>
      have hcast : (i : Int) < toInt32 s.src.length := by omega
      have hin := lt_of_lt_toInt32 hcast
      have hsymbol : s.src[i] ≠ 32 := fun hblank => h (hblank ▸ List.getElem_mem hin)
      rw [squeezeLoopInt_round hin hcast, if_pos hsymbol, if_neg (not_not.mpr rfl)]
      exact ih (by omega) (by omega)

/-- A clean string is left alone exactly when its length is an `int`. -/
theorem stores_clean_iff {src : Bytes} (h : IsClean src) :
    (getFilePositionInt src).stores = [] ↔ src.length ≤ intMax := by
  have hloop := squeezeLoopInt_clean (s := { src := src, stores := [] }) h.2 (Nat.zero_le _)
  rw [getFilePositionInt, blankLoop_clean h.1, hloop]
  dsimp only
  split
  · rename_i hcut
    have hlong := (toNat_toInt32_lt_iff _).mp hcut
    exact iff_of_false (List.cons_ne_nil _ _) (Nat.not_le.mpr hlong)
  · rename_i hend
    have hshort := mt (toNat_toInt32_lt_iff _).mpr hend
    exact iff_of_true rfl (Nat.not_lt.mp hshort)

/-- The literal that `SetServerStartupParams` passes is not written to. -/
theorem stores_defaultConf : (getFilePositionInt (bytes "/default.conf")).stores = [] :=
  (stores_clean_iff ⟨by decide, by decide⟩).mpr (by decide)

/-- No store is outside the string, and a clean one is not written to exactly when its length
is an `int`. -/
theorem stores_iff (src : Bytes) :
    ((IsClean src → (getFilePositionInt src).stores = []) ∧
        ∀ store ∈ (getFilePositionInt src).stores, store.1 < src.length) ↔
      (IsClean src → src.length ≤ intMax) := by
  constructor
  · intro h hclean
    exact (stores_clean_iff hclean).mp (h.1 hclean)
  · intro h
    exact ⟨fun hclean => (stores_clean_iff hclean).mpr (h hclean), getFilePositionInt_inside src⟩

/-- As many letters as an `int` cannot count. -/
theorem long_path_written :
    ¬ ∀ src : Bytes, (IsClean src → (getFilePositionInt src).stores = []) ∧
      ∀ store ∈ (getFilePositionInt src).stores, store.1 < src.length := by
  intro h
  have hclean : IsClean (List.replicate (intMax + 1) 97) := by
    constructor
    · intro hinfix
      have hmem : 46 ∈ List.replicate (intMax + 1) (97 : UInt8) := hinfix.subset (by decide)
      exact absurd (List.eq_of_mem_replicate hmem) (by decide)
    · intro hmem
      exact absurd (List.eq_of_mem_replicate hmem) (by decide)
  have hle := (stores_clean_iff hclean).mp ((h _).1 hclean)
  rw [List.length_replicate] at hle
  exact Nat.not_succ_le_self _ hle

end HttpsServ.PathStores
