import HttpsServ.Utility
import HttpsServ.Library.Segments

/-!
# Search without regard to case

`stristr` walks along the text with a comparison of its own. It finds the first
occurrence of the lowered needle in the lowered text.
-/

namespace HttpsServ.CaseSearch

open ByteString Utility Segments

def lowered (s : Bytes) : Bytes := s.map tolower

/-- A byte in front of the letters is its own lower case, and that of no other. -/
theorem tolower_eq_iff {c : UInt8} (hc : c < 65) (b : UInt8) : tolower b = c ↔ b = c := by
  rw [tolower]
  grind

theorem mem_lowered_iff {c : UInt8} (hc : c < 65) (s : Bytes) : c ∈ lowered s ↔ c ∈ s := by
  simp [lowered, tolower_eq_iff hc]

/-- Lower case keeps the segments apart. -/
theorem splitOn_lowered {sep : UInt8} (hsep : sep < 65) (s : Bytes) :
    (lowered s).splitOn sep = (s.splitOn sep).map lowered := by
  have hself : tolower sep = sep := (tolower_eq_iff hsep sep).mpr rfl
  have hkeeps : ∀ b, tolower b = tolower sep ↔ b = sep := by
    intro b
    rw [hself, tolower_eq_iff hsep]
  have hmap := splitOn_map tolower hkeeps s
  rwa [hself] at hmap

/-- The comparison runs until the second string ends. -/
theorem compareAnyCaseSym_iff (s needle : Bytes) :
    compareAnyCaseSym s needle = true ↔ lowered needle <+: lowered s := by
  simp only [lowered]
  induction s generalizing needle with
  | nil => cases needle <;> simp [compareAnyCaseSym]
  | cons x s ih =>
      cases needle with
      | nil => simp [compareAnyCaseSym]
      | cons y needle =>
          rw [compareAnyCaseSym, List.map_cons, List.map_cons, List.cons_prefix_cons]
          by_cases hxy : tolower x = tolower y
          · simp [hxy, ih needle]
          · simp [hxy, Ne.symm hxy]

/-- The first symbol is compared once more on its own. -/
theorem stristr_test_iff (s : Bytes) {needle : Bytes} (hne : needle ≠ []) (x : UInt8) :
    (tolower x = tolower (needle.headD 0) ∧ compareAnyCaseSym (x :: s) needle = true) ↔
      lowered needle <+: lowered (x :: s) := by
  rw [compareAnyCaseSym_iff, and_iff_right_iff_imp]
  obtain ⟨y, needle, rfl⟩ := List.exists_cons_of_ne_nil hne
  intro h
  exact (List.cons_prefix_cons.mp h).1.symm

theorem stristr_eq (s : Bytes) {needle : Bytes} (hne : needle ≠ []) :
    stristr s needle = (firstOccurrence (lowered needle) (lowered s)).map s.drop := by
  induction s with
  | nil =>
      have hlowered : lowered needle ≠ [] := by simpa [lowered] using hne
      simp [stristr, lowered, firstOccurrence] at hlowered ⊢
      simp [hlowered]
  | cons x s ih =>
      rw [stristr]
      by_cases htest : lowered needle <+: lowered (x :: s)
      · rw [if_pos ((stristr_test_iff s hne x).mpr htest), firstOccurrence_zero htest]
        rfl
      · have hcons : lowered (x :: s) = tolower x :: lowered s := rfl
        rw [if_neg fun h => htest ((stristr_test_iff s hne x).mp h), ih, hcons,
          firstOccurrence_cons (by rwa [← hcons]), Option.map_map]
        rfl

/-- A needle is found in a text that carries it in some case. -/
theorem stristr_isSome_iff (s : Bytes) {needle : Bytes} (hne : needle ≠ []) :
    (stristr s needle).isSome = true ↔ lowered needle <:+: lowered s := by
  rw [stristr_eq s hne, Option.isSome_map, firstOccurrence_isSome_iff]

/-- The needle stands at place `k` of the text, symbol by symbol under `tolower`. -/
def MatchesAt (needle s : Bytes) (k : Nat) : Prop :=
  ∀ i < needle.length, s[k + i]?.map tolower = needle[i]?.map tolower

instance (needle s : Bytes) (k : Nat) : Decidable (MatchesAt needle s k) :=
  inferInstanceAs (Decidable (∀ i < needle.length, _))

theorem matchesAt_iff (needle s : Bytes) (k : Nat) :
    MatchesAt needle s k ↔ lowered needle <+: (lowered s).drop k := by
  rw [MatchesAt, List.prefix_iff_getElem?]
  simp only [lowered, List.length_map, List.getElem?_drop, List.getElem?_map, List.getElem_map]
  apply forall₂_congr
  intro i hi
  rw [List.getElem?_eq_getElem hi, Option.map_some]

/-- `stristr` gives the first place where the needle stands, and `NULL` exactly when
it stands at none. -/
theorem stristr_firstMatch (s : Bytes) {needle : Bytes} (hne : needle ≠ []) :
    (stristr s needle = none ↔ ∀ k, ¬ MatchesAt needle s k) ∧
      ∀ rest, stristr s needle = some rest ↔
        ∃ k < s.length, rest = s.drop k ∧ MatchesAt needle s k ∧
          ∀ j < k, ¬ MatchesAt needle s j := by
  constructor
  · rw [stristr_eq s hne, Option.map_eq_none_iff, firstOccurrence_eq_none_iff]
    exact forall_congr' fun k => not_congr (matchesAt_iff needle s k).symm
  · intro rest
    rw [stristr_eq s hne, Option.map_eq_some_iff]
    simp only [firstOccurrence_eq_some_iff, matchesAt_iff]
    constructor
    · rintro ⟨k, hfirst, rfl⟩
      refine ⟨k, ?_, rfl, hfirst⟩
      by_contra hend
      have hnil : (lowered s).drop k = [] := List.drop_eq_nil_of_le (by simpa [lowered] using hend)
      rw [hnil, List.prefix_nil, lowered, List.map_eq_nil_iff] at hfirst
      exact hne hfirst.1
    · rintro ⟨k, -, rfl, hfirst⟩
      exact ⟨k, hfirst, rfl⟩

theorem stristr_firstMatch_overlap :
    stristr (bytes "aAaB-aab") (bytes "aab") = some (bytes "AaB-aab") :=
  ((stristr_firstMatch (bytes "aAaB-aab") (by decide)).2 _).mpr
    ⟨1, by decide, by decide, by decide, by decide⟩

end HttpsServ.CaseSearch
