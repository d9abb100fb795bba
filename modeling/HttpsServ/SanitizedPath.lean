import HttpsServ.PathContainment

/-!
# The sanitized path by positions

Which bytes of a path the sanitizer keeps is decided on the path itself: a byte
goes when it is a space or lies in one of the `"../"` that the path contains.
-/

namespace HttpsServ.SanitizedPath

open ByteString Utility HttpParser PathSanitizer PathContainment

/-- Position `i` lies in an occurrence of `"../"`. -/
def InSusWord (path : Bytes) (i : Nat) : Prop :=
  ∃ start ≤ i, i < start + susWord.length ∧ susWord <+: path.drop start

instance (path : Bytes) (i : Nat) : Decidable (InSusWord path i) :=
  decidable_of_iff (∃ start < i + 1, i < start + susWord.length ∧ susWord <+: path.drop start) <| by
    simp only [InSusWord, Nat.lt_succ_iff]

/-- The path without its occurrences of `"../"` and without its spaces. -/
def sanitized (path : Bytes) : Bytes :=
  (path.zipIdx.filter fun (b, i) => b ≠ 32 ∧ ¬ InSusWord path i).map Prod.fst

theorem length_susWord : susWord.length = 3 := by decide

/-- Behind a first byte at which no occurrence begins, positions move by one. -/
theorem inSusWord_cons {b : UInt8} {rest : Bytes} (h : ¬ susWord <+: b :: rest) (i : Nat) :
    InSusWord (b :: rest) (i + 1) ↔ InSusWord rest i := by
  constructor
  · rintro ⟨start, hle, hlt, hbegins⟩
    cases start with
    | zero => exact absurd hbegins h
    | succ start => exact ⟨start, by omega, by omega, hbegins⟩
  · rintro ⟨start, hle, hlt, hbegins⟩
    exact ⟨start + 1, by omega, by omega, hbegins⟩

/-- The occurrences of `"../"` do not overlap. -/
theorem inSusWord_append (rest : Bytes) (i : Nat) :
    InSusWord (susWord ++ rest) (i + 3) ↔ InSusWord rest i := by
  constructor
  · rintro ⟨start, hle, hlt, hbegins⟩
    rw [length_susWord] at hlt
    rw [susWord_bytes] at hbegins
    match start with
    | 0 => omega
    | 1 => simp at hbegins
    | 2 => simp at hbegins
    | start + 3 => exact ⟨start, by omega, by rw [length_susWord]; omega, hbegins⟩
  · rintro ⟨start, hle, hlt, hbegins⟩
    rw [length_susWord] at hlt
    exact ⟨start + 3, by omega, by rw [length_susWord]; omega, by rw [susWord_bytes]; exact hbegins⟩

/-- The blanks stand where the occurrences of the original are. -/
theorem getElem?_blanked (path : Bytes) (i : Nat) :
    (blanked path)[i]? = path[i]?.map fun b => if InSusWord path i then 32 else b := by
  induction path using blanked.induct generalizing i with
  | case1 => simp [blanked]
  | case2 b rest h ih =>
      obtain ⟨tail, htail⟩ := h
      have hrest : rest.drop 2 = tail := by
        rw [susWord_bytes] at htail
        obtain ⟨-, rfl⟩ := List.cons_eq_cons.mp htail
        rfl
      rw [hrest] at ih
      rw [← htail, blanked_susWord]
      rcases Nat.lt_or_ge i 3 with hi | hi
      · have hin : InSusWord (susWord ++ tail) i :=
          ⟨0, Nat.zero_le i, by rw [length_susWord]; omega, List.prefix_append _ _⟩
        simp only [if_pos hin]
        rw [List.getElem?_append_left (by rw [length_susWord]; exact hi), susWord_bytes]
        interval_cases i
        · rfl
        · rfl
        · rfl
      · obtain ⟨i, rfl⟩ := Nat.exists_eq_add_of_le' hi
        calc
          (32 :: 32 :: 32 :: blanked tail)[i + 3]? = (blanked tail)[i]? := rfl
          _ = tail[i]?.map fun b => if InSusWord tail i then 32 else b := ih i
          _ = _ := by
            simp only [inSusWord_append]
            rw [List.getElem?_append_right (by rw [length_susWord]; omega), length_susWord,
              Nat.add_sub_cancel]
  | case3 b rest h ih =>
      rw [blanked_cons h]
      cases i with
      | zero =>
          have hout : ¬ InSusWord (b :: rest) 0 := by
            rintro ⟨start, hle, -, hbegins⟩
            obtain rfl : start = 0 := by omega
            exact h hbegins
          simp [hout]
      | succ i =>
          simp only [List.getElem?_cons_succ, ih i, inSusWord_cons h]

theorem blanked_eq (path : Bytes) :
    blanked path = path.zipIdx.map fun (b, i) => if InSusWord path i then 32 else b := by
  ext i b
  rw [getElem?_blanked, List.getElem?_map, List.getElem?_zipIdx, Option.map_map]
  simp [Function.comp_def]

theorem keptPath_eq (path : Bytes) : keptPath path = sanitized path := by
  rw [← (getFilePosition_eq path).1, getFilePosition_src, unspaced, blanked_eq, List.filter_map,
    sanitized]
  have hkept : ∀ entry ∈ path.zipIdx,
      ((fun b => decide (b ≠ 32)) ∘
          fun (b, i) => if InSusWord path i then (32 : UInt8) else b) entry =
        decide (entry.1 ≠ 32 ∧ ¬ InSusWord path entry.2) := by
    rintro ⟨b, i⟩ -
    by_cases hin : InSusWord path i
    · simp [hin]
    · simp [hin]
  rw [List.filter_congr hkept]
  apply List.map_congr_left
  rintro ⟨b, i⟩ hmem
  have hout := (List.mem_filter.mp hmem).2
  simp at hout
  simp [hout.2]

/-- The opener on a path of a request: what is left of the path is used as a whole. -/
theorem openStaticFile_sanitized {path : Bytes} (hpath : path.length ≤ maxUrlSize)
    (staticFileDir : Bytes) (fopen : Bytes → Option FileImage) (staticFile : Option OpenFile) :
    openStaticFile fopen path staticFileDir staticFile =
      if sanitized path = [] then (kBadRequest, staticFile)
      else
        (fopen (staticFileDir ++ sanitized path)).elim (kNotFound, none)
          fun image => (image.size, some { unread := image.content }) := by
  have hshort : (sanitized path).length < 2 ^ 15 := by
    have hle : (sanitized path).length ≤ path.length := by
      rw [sanitized, List.length_map]
      exact (List.length_filter_le _ _).trans List.length_zipIdx.le
    have hmax : maxUrlSize = 2048 := rfl
    omega
  rw [openStaticFile, staticFileName_eq, keptPath_eq, lengthWindow_of_short hshort]
  by_cases hempty : sanitized path = []
  · simp only [if_pos hempty]
  · simp only [if_neg hempty]
    cases fopen (staticFileDir ++ sanitized path) with
    | none => rfl
    | some image => rfl

/-- The sanitizer and the opener on a path of a request. Sizes come from `ftell`,
which gives `-1` when it fails. -/
theorem sanitizer_exact (path staticFileDir : Bytes) (hpath : path.length ≤ maxUrlSize)
    (fopen : Bytes → Option FileImage)
    (hsize : ∀ name image, fopen name = some image → -1 ≤ image.size)
    (staticFile : Option OpenFile) :
    (getFilePosition path).src = sanitized path ∧
      (getFilePosition path).position = (sanitized path).length ∧
      ((openStaticFile fopen path staticFileDir staticFile).1 = kBadRequest ↔
        sanitized path = []) ∧
      openStaticFile fopen path staticFileDir staticFile =
        if sanitized path = [] then (kBadRequest, staticFile)
        else
          (fopen (staticFileDir ++ sanitized path)).elim (kNotFound, none)
            fun image => (image.size, some { unread := image.content }) := by
  obtain ⟨hsrc, hposition⟩ := getFilePosition_eq path
  rw [keptPath_eq] at hsrc hposition
  have hopen := openStaticFile_sanitized hpath staticFileDir fopen staticFile
  refine ⟨hsrc, hposition, ?_, hopen⟩
  rw [hopen]
  by_cases hempty : sanitized path = []
  · rw [if_pos hempty]
    exact iff_of_true rfl hempty
  · rw [if_neg hempty]
    refine iff_of_false ?_ hempty
    have hcode : kBadRequest = -2 := rfl
    cases hfile : fopen (staticFileDir ++ sanitized path) with
    | none => decide
    | some image =>
        have hge := hsize _ image hfile
        simp only [Option.elim_some]
        omega

theorem sanitizer_exact_dotDot :
    let path := bytes "/a/.../ b/../c"
    let files : Bytes → Option FileImage := fun name =>
      if name = bytes "root/a/.b/c" then some ⟨bytes "x", 1⟩ else none
    (getFilePosition path).src = bytes "/a/.b/c" ∧
      (openStaticFile files path (bytes "root") none).1 = 1 := by
  intro path files
  obtain ⟨hsrc, -, -, hopen⟩ := sanitizer_exact path (bytes "root") (by decide) files
    (by
      intro name image hfile
      simp only [files] at hfile
      split at hfile
      · cases hfile
        decide
      · cases hfile) none
  have hkept : sanitized path = bytes "/a/.b/c" := by decide
  rw [hkept] at hsrc hopen
  exact ⟨hsrc, by rw [hopen]; decide⟩

end HttpsServ.SanitizedPath
