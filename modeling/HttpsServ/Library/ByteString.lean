import Mathlib.Data.List.Basic
import Mathlib.Data.List.Infix
import Mathlib.Data.List.TakeWhile

/-!
# Byte strings, first occurrences and memory blocks

A C string is the list of its bytes before the terminating zero. A memory
block is the list of its cells; storing into a block keeps its size and drops
the bytes that would fall behind its end.
-/

namespace HttpsServ.ByteString

abbrev Bytes := List UInt8

/-- The bytes of an ASCII literal. -/
def bytes (s : String) : Bytes := s.toList.map fun c => UInt8.ofNat c.toNat

/-- A literal is read character by character. -/
theorem bytes_ofList (l : List Char) :
    bytes (String.ofList l) = l.map fun c => UInt8.ofNat c.toNat := by
  rw [bytes, String.toList_ofList]

def crlf : Bytes := [13, 10]

section Occurrence

variable {α : Type*} [DecidableEq α]

/-- The first position of `hay` at which `needle` begins. -/
def firstOccurrence (needle : List α) : List α → Option Nat
  | [] => if needle = [] then some 0 else none
  | a :: hay =>
      if needle <+: a :: hay then some 0
      else (firstOccurrence needle hay).map (· + 1)

theorem firstOccurrence_zero {needle hay : List α} (h : needle <+: hay) :
    firstOccurrence needle hay = some 0 := by
  cases hay with
  | nil => simp [firstOccurrence, List.prefix_nil.mp h]
  | cons a hay => simp [firstOccurrence, h]

theorem firstOccurrence_cons {needle hay : List α} {a : α}
    (h : ¬ needle <+: a :: hay) :
    firstOccurrence needle (a :: hay) = (firstOccurrence needle hay).map (· + 1) := by
  simp [firstOccurrence, h]

/-- A reported position carries the needle and no earlier position does. -/
theorem firstOccurrence_spec {needle hay : List α} {k : Nat}
    (h : firstOccurrence needle hay = some k) :
    needle <+: hay.drop k ∧ ∀ j < k, ¬ needle <+: hay.drop j := by
  induction hay generalizing k with
  | nil =>
      by_cases hn : needle = []
      · subst hn
        simp only [firstOccurrence, if_true, Option.some.injEq] at h
        subst h
        simp
      · simp [firstOccurrence, hn] at h
  | cons a hay ih =>
      by_cases hp : needle <+: a :: hay
      · rw [firstOccurrence_zero hp, Option.some.injEq] at h
        subst h
        simpa using hp
      · rw [firstOccurrence_cons hp, Option.map_eq_some_iff] at h
        obtain ⟨i, hi, rfl⟩ := h
        obtain ⟨hat, hbefore⟩ := ih hi
        refine ⟨by simpa using hat, fun j hj => ?_⟩
        cases j with
        | zero => simpa using hp
        | succ j => simpa using hbefore j (by omega)

theorem firstOccurrence_eq_none_iff {needle hay : List α} :
    firstOccurrence needle hay = none ↔ ∀ j, ¬ needle <+: hay.drop j := by
  induction hay with
  | nil =>
      by_cases hn : needle = [] <;> simp [firstOccurrence, hn]
  | cons a hay ih =>
      by_cases hp : needle <+: a :: hay
      · rw [firstOccurrence_zero hp]
        constructor
        · intro h
          cases h
        · intro h
          exact absurd (by simpa using hp) (h 0)
      · rw [firstOccurrence_cons hp, Option.map_eq_none_iff, ih]
        constructor
        · intro h j
          cases j with
          | zero => simpa using hp
          | succ j => simpa using h j
        · intro h j
          simpa using h (j + 1)

/-- The first occurrence is the position that carries the needle first. -/
theorem firstOccurrence_eq_some_iff {needle hay : List α} {k : Nat} :
    firstOccurrence needle hay = some k ↔
      needle <+: hay.drop k ∧ ∀ j < k, ¬ needle <+: hay.drop j := by
  refine ⟨firstOccurrence_spec, ?_⟩
  rintro ⟨hat, hbefore⟩
  cases h : firstOccurrence needle hay with
  | none => exact absurd hat (firstOccurrence_eq_none_iff.mp h k)
  | some i =>
      obtain ⟨hi, hbeforei⟩ := firstOccurrence_spec h
      rcases Nat.lt_trichotomy i k with hik | rfl | hki
      · exact absurd hi (hbefore i hik)
      · rfl
      · exact absurd hat (hbeforei k hki)

/-- A needle occurs in the texts that have it as a part. -/
theorem firstOccurrence_isSome_iff {needle hay : List α} :
    (firstOccurrence needle hay).isSome = true ↔ needle <:+: hay := by
  rw [Option.isSome_iff_ne_none, ne_eq, firstOccurrence_eq_none_iff, not_forall_not]
  constructor
  · rintro ⟨j, hprefix⟩
    exact hprefix.isInfix.trans (List.drop_suffix j hay).isInfix
  · rintro ⟨front, back, rfl⟩
    refine ⟨front.length, back, ?_⟩
    rw [List.append_assoc, List.drop_left]

/-- An occurrence splits the text around the needle. -/
theorem firstOccurrence_split {needle hay : List α} {k : Nat}
    (h : firstOccurrence needle hay = some k) :
    hay = hay.take k ++ needle ++ hay.drop (k + needle.length) := by
  obtain ⟨rest, hrest⟩ := (firstOccurrence_spec h).1
  have hdrop : hay.drop (k + needle.length) = rest := by
    rw [Nat.add_comm, Nat.add_comm needle.length, ← List.drop_drop, ← hrest,
      List.drop_left]
  rw [hdrop, List.append_assoc, hrest, List.take_append_drop]

theorem firstOccurrence_le {needle hay : List α} {k : Nat}
    (h : firstOccurrence needle hay = some k) (hn : needle ≠ []) :
    k + needle.length ≤ hay.length := by
  have hp := (firstOccurrence_spec h).1.length_le
  have : 0 < needle.length := List.length_pos_iff.mpr hn
  rw [List.length_drop] at hp
  omega

/-- Text without the needle's first symbol only shifts the occurrence. -/
theorem firstOccurrence_append_of_not_mem {a : α} {needle : List α} (l hay : List α)
    (h : a ∉ l) :
    firstOccurrence (a :: needle) (l ++ hay) =
      (firstOccurrence (a :: needle) hay).map (· + l.length) := by
  induction l with
  | nil => simp
  | cons b l ih =>
      have hb : ¬ (a :: needle) <+: b :: (l ++ hay) := by
        intro hp
        obtain ⟨hab, -⟩ := List.cons_prefix_cons.mp hp
        exact h (by simp [hab])
      rw [List.cons_append, firstOccurrence_cons hb,
        ih fun hm => h (List.mem_cons_of_mem _ hm), Option.map_map]
      simp [Function.comp_def, Nat.add_assoc]

/-- What follows an occurrence does not move it. -/
theorem firstOccurrence_append {needle hay : List α} {k : Nat}
    (h : firstOccurrence needle hay = some k) (hn : needle ≠ []) (post : List α) :
    firstOccurrence needle (hay ++ post) = some k := by
  have hle := firstOccurrence_le h hn
  obtain ⟨hat, hbefore⟩ := firstOccurrence_spec h
  refine firstOccurrence_eq_some_iff.mpr ⟨?_, fun j hj hp => hbefore j hj ?_⟩
  · rw [List.drop_append_of_le_length (by omega)]
    exact hat.trans (List.prefix_append _ _)
  · rw [List.drop_append_of_le_length (by omega)] at hp
    exact List.prefix_of_prefix_length_le hp (List.prefix_append _ _)
      (by rw [List.length_drop]; omega)

end Occurrence

section CString

/-- The C string that starts at the first cell of a block. -/
def cstr (cells : Bytes) : Bytes := cells.takeWhile (· != 0)

theorem cstr_append_of_notMem {s : Bytes} (h : 0 ∉ s) (rest : Bytes) :
    cstr (s ++ rest) = s ++ cstr rest := by
  apply List.takeWhile_append_of_pos
  intro b hb
  simpa using fun hb0 : b = 0 => h (hb0 ▸ hb)

theorem cstr_of_notMem {s : Bytes} (h : 0 ∉ s) : cstr s = s := by
  simpa [cstr] using cstr_append_of_notMem h []

theorem cstr_append_of_mem {s : Bytes} (h : 0 ∈ s) (rest : Bytes) :
    cstr (s ++ rest) = cstr s := by
  obtain ⟨front, back, rfl, hfront⟩ := List.eq_append_cons_of_mem h
  rw [List.append_assoc, cstr_append_of_notMem hfront, cstr_append_of_notMem hfront]
  simp [cstr]

theorem cstr_append_zero {s : Bytes} (h : 0 ∉ s) (rest : Bytes) :
    cstr (s ++ 0 :: rest) = s := by
  rw [cstr_append_of_notMem h]
  simp [cstr]

theorem cstr_zeros (n : Nat) : cstr (List.replicate n 0) = [] := by
  cases n <;> simp [cstr, List.replicate_succ]

/-- Zeros at the end of a block do not change its string. -/
theorem cstr_append_zeros (s : Bytes) (n : Nat) : cstr (s ++ List.replicate n 0) = cstr s := by
  by_cases h : 0 ∈ s
  · exact cstr_append_of_mem h _
  · rw [cstr_of_notMem h, cstr_append_of_notMem h, cstr_zeros, List.append_nil]

end CString

section Block

variable {α : Type*}

/-- Store `data` from cell `off` on; cells behind the end are not there. -/
def overwrite (cells : List α) (off : Nat) (data : List α) : List α :=
  (cells.take off ++ data ++ cells.drop (off + data.length)).take cells.length

@[simp] theorem length_overwrite (cells : List α) (off : Nat) (data : List α) :
    (overwrite cells off data).length = cells.length := by
  simp only [overwrite, List.length_take, List.length_append, List.length_drop]
  omega

theorem overwrite_of_le {cells : List α} {off : Nat} {data : List α}
    (h : off + data.length ≤ cells.length) :
    overwrite cells off data =
      cells.take off ++ data ++ cells.drop (off + data.length) := by
  rw [overwrite, List.take_of_length_le]
  simp only [List.length_append, List.length_take, List.length_drop]
  omega

@[simp] theorem overwrite_nil (cells : List α) (off : Nat) : overwrite cells off [] = cells := by
  simp [overwrite]

/-- The block up to the end of a store that fits. -/
theorem take_overwrite_end {cells : List α} {off : Nat} {data : List α}
    (h : off + data.length ≤ cells.length) :
    (overwrite cells off data).take (off + data.length) = cells.take off ++ data := by
  rw [overwrite_of_le h, List.take_left']
  simp only [List.length_append, List.length_take]
  omega

/-- Cells before a store keep their contents. -/
theorem take_overwrite_before {cells : List α} {off n : Nat} {data : List α}
    (hn : n ≤ off) : (overwrite cells off data).take n = cells.take n := by
  rw [overwrite, List.take_take]
  by_cases hc : n ≤ cells.length
  · rw [Nat.min_eq_left hc, List.append_assoc, List.take_append_of_le_length
      (by rw [List.length_take]; omega), List.take_take, Nat.min_eq_left hn]
  · rw [Nat.min_eq_right (by omega), List.take_of_length_le (i := n) (by omega),
      List.append_assoc, List.take_append_of_le_length (by rw [List.length_take]; omega),
      List.take_take, Nat.min_eq_left (by omega), List.take_length]

/-- What a store leaves at its place, as far as it lies inside the block. -/
theorem take_drop_overwrite {cells : List α} {off n : Nat} {data : List α}
    (hn : n ≤ data.length) (hfits : off + n ≤ cells.length) :
    ((overwrite cells off data).drop off).take n = data.take n := by
  have hoff : (cells.take off).length = off := by
    rw [List.length_take, Nat.min_eq_left (by omega)]
  rw [overwrite, List.drop_take, List.append_assoc, List.drop_append_of_le_length (by omega),
    List.drop_eq_nil_of_le hoff.le, List.nil_append, List.take_take, Nat.min_eq_left (by omega),
    List.take_append_of_le_length hn]

end Block

end HttpsServ.ByteString
