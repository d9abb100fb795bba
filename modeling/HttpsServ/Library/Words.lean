import Mathlib.Data.List.Basic
import Mathlib.Data.List.TakeWhile

/-!
# Words between blanks

The words of a text are its maximal nonempty parts without blanks, whatever
counts as a blank. A blank cuts the words of a text in two, and the first word
of a text is found by skipping the blanks in front of it.
-/

namespace HttpsServ.Words

variable {α : Type*} {blank : α → Bool}

/-- The words of a text, in order. -/
def words (blank : α → Bool) (s : List α) : List (List α) :=
  (s.splitOnP blank).filter fun w => !w.isEmpty

@[simp] theorem words_nil : words blank [] = [] := rfl

/-- A blank belongs to no word, and no word goes across it. -/
theorem words_append {d : α} (hd : blank d = true) (s t : List α) :
    words blank (s ++ d :: t) = words blank s ++ words blank t := by
  rw [words, List.splitOnP_append_cons _ _ hd, List.filter_append]
  rfl

theorem words_cons_blank {d : α} (hd : blank d = true) (t : List α) :
    words blank (d :: t) = words blank t := by
  have h := words_append hd [] t
  rwa [List.nil_append, words_nil, List.nil_append] at h

/-- A text without blanks is one word. -/
theorem words_singleton {w : List α} (hne : w ≠ []) (hw : ∀ b ∈ w, blank b = false) :
    words blank w = [w] := by
  rw [words, List.splitOnP_eq_singleton hw]
  cases w with
  | nil => exact absurd rfl hne
  | cons b w => rfl

/-- The word in front of a blank. -/
theorem words_word_append {w : List α} (hne : w ≠ []) (hw : ∀ b ∈ w, blank b = false) {d : α}
    (hd : blank d = true) (t : List α) :
    words blank (w ++ d :: t) = w :: words blank t := by
  rw [words_append hd, words_singleton hne hw, List.singleton_append]

theorem words_blanks {s : List α} (hs : ∀ b ∈ s, blank b = true) : words blank s = [] := by
  induction s with
  | nil => rfl
  | cons d s ih =>
      rw [words_cons_blank (hs d List.mem_cons_self)]
      exact ih fun b hb => hs b (List.mem_cons_of_mem _ hb)

/-- Blanks in front of a text are skipped. -/
theorem words_blanks_append {s : List α} (hs : ∀ b ∈ s, blank b = true) (t : List α) :
    words blank (s ++ t) = words blank t := by
  induction s with
  | nil => rfl
  | cons d s ih =>
      rw [List.cons_append, words_cons_blank (hs d List.mem_cons_self)]
      exact ih fun b hb => hs b (List.mem_cons_of_mem _ hb)

/-- Skipping the blanks is dropping as many symbols. -/
theorem dropWhile_eq_drop (p : α → Bool) (s : List α) :
    s.dropWhile p = s.drop (s.takeWhile p).length := by
  symm
  calc
    s.drop (s.takeWhile p).length = (s.takeWhile p ++ s.dropWhile p).drop (s.takeWhile p).length := by
      rw [List.takeWhile_append_dropWhile]
    _ = s.dropWhile p := List.drop_left

/-- There is no first word where there is nothing behind the blanks. -/
theorem first_eq_nil_iff (s : List α) :
    ((s.dropWhile blank).takeWhile fun b => !blank b) = [] ↔ s.dropWhile blank = [] := by
  constructor
  · intro h
    cases hstart : s.dropWhile blank with
    | nil => rfl
    | cons b rest =>
        have hhead := List.head?_dropWhile_not blank s
        rw [hstart] at h hhead
        rw [List.takeWhile_cons_of_pos (by simpa using hhead)] at h
        cases h
  · intro h
    rw [h, List.takeWhile_nil]

/-- A word at the start is the first word, and ends at the blank behind it. -/
theorem first_word_append {w back : List α} (hne : w ≠ []) (hw : ∀ b ∈ w, blank b = false)
    (hback : back = [] ∨ ∃ d rest, back = d :: rest ∧ blank d = true) :
    (w ++ back).dropWhile blank = w ++ back ∧
      ((w ++ back).takeWhile fun b => !blank b) = w ∧
      ((w ++ back).dropWhile fun b => !blank b) = back := by
  have hnot : ∀ b ∈ w, (!blank b) = true := by
    intro b hb
    rw [hw b hb]
    rfl
  refine ⟨?_, ?_, ?_⟩
  · obtain ⟨b, bs, rfl⟩ := List.exists_cons_of_ne_nil hne
    have hb := hw b List.mem_cons_self
    rw [List.cons_append, List.dropWhile_cons_of_neg (by simp [hb])]
  · rw [List.takeWhile_append_of_pos hnot]
    rcases hback with rfl | ⟨d, rest, rfl, hd⟩
    · simp
    · simp [hd]
  · rw [List.dropWhile_append_of_pos hnot]
    rcases hback with rfl | ⟨d, rest, rfl, hd⟩
    · rfl
    · simp [hd]

/-- The blanks in front, the first word, and what is behind its blank. -/
theorem exists_first {s : List α} (h : ∃ b ∈ s, blank b = false) :
    ∃ front w back, s = front ++ (w ++ back) ∧ (∀ b ∈ front, blank b = true) ∧ w ≠ [] ∧
      (∀ b ∈ w, blank b = false) ∧
      (back = [] ∨ ∃ d rest, back = d :: rest ∧ blank d = true) := by
  refine ⟨s.takeWhile blank, (s.dropWhile blank).takeWhile fun b => !blank b,
    (s.dropWhile blank).dropWhile fun b => !blank b, ?_, ?_, ?_, ?_, ?_⟩
  · rw [List.takeWhile_append_dropWhile, List.takeWhile_append_dropWhile]
  · intro b hb
    exact List.mem_takeWhile_imp hb
  · obtain ⟨b, hb, hword⟩ := h
    intro hnil
    have hall := List.dropWhile_eq_nil_iff.mp ((first_eq_nil_iff s).mp hnil) b hb
    rw [hword] at hall
    cases hall
  · intro b hb
    simpa using List.mem_takeWhile_imp hb
  · cases hback : (s.dropWhile blank).dropWhile fun b => !blank b with
    | nil => exact .inl rfl
    | cons d rest =>
        have hhead := List.head?_dropWhile_not (fun b => !blank b) (s.dropWhile blank)
        rw [hback] at hhead
        exact .inr ⟨d, rest, rfl, by simpa using hhead⟩

/-- Induction along the words of a text. -/
@[elab_as_elim]
theorem words_induction (blank : α → Bool) {motive : List α → Prop}
    (blanks : ∀ s, (∀ b ∈ s, blank b = true) → motive s)
    (last : ∀ front w, (∀ b ∈ front, blank b = true) → w ≠ [] → (∀ b ∈ w, blank b = false) →
      motive (front ++ w))
    (word : ∀ front w d rest, (∀ b ∈ front, blank b = true) → w ≠ [] →
      (∀ b ∈ w, blank b = false) → blank d = true → motive rest →
        motive (front ++ (w ++ d :: rest)))
    (s : List α) : motive s := by
  induction hlen : s.length using Nat.strong_induction_on generalizing s with
  | _ n ih =>
      by_cases hword : ∃ b ∈ s, blank b = false
      · obtain ⟨front, w, back, rfl, hfront, hne, hw, hback⟩ := exists_first hword
        rcases hback with rfl | ⟨d, rest, rfl, hd⟩
        · rw [List.append_nil]
          exact last front w hfront hne hw
        · have hshort : rest.length < n := by
            rw [← hlen]
            simp only [List.length_append, List.length_cons]
            omega
          exact word front w d rest hfront hne hw hd (ih _ hshort rest rfl)
      · apply blanks
        intro b hb
        by_contra hb'
        exact hword ⟨b, hb, Bool.eq_false_iff.mpr hb'⟩

theorem words_eq_nil_iff {s : List α} : words blank s = [] ↔ ∀ b ∈ s, blank b = true := by
  constructor
  · intro h b hb
    by_contra hword
    obtain ⟨front, w, back, rfl, hfront, hne, hw, hback⟩ :=
      exists_first ⟨b, hb, Bool.eq_false_iff.mpr hword⟩
    rw [words_blanks_append hfront] at h
    rcases hback with rfl | ⟨d, rest, rfl, hd⟩
    · rw [List.append_nil, words_singleton hne hw] at h
      cases h
    · rw [words_word_append hne hw hd] at h
      cases h
  · exact words_blanks

/-- A word is not empty, has no blanks, and is part of the text. -/
theorem mem_words {s w : List α} (h : w ∈ words blank s) :
    w ≠ [] ∧ (∀ b ∈ w, blank b = false) ∧ ∀ b ∈ w, b ∈ s := by
  induction s using words_induction blank with
  | blanks s hs =>
      rw [words_blanks hs] at h
      cases h
  | last front v hfront hne hv =>
      rw [words_blanks_append hfront, words_singleton hne hv, List.mem_singleton] at h
      subst h
      exact ⟨hne, hv, fun b hb => List.mem_append_right _ hb⟩
  | word front v d rest hfront hne hv hd ih =>
      rw [words_blanks_append hfront, words_word_append hne hv hd] at h
      rcases List.mem_cons.mp h with rfl | h
      · exact ⟨hne, hv, fun b hb => by simp [hb]⟩
      · obtain ⟨hne', hw, hin⟩ := ih h
        exact ⟨hne', hw, fun b hb => by simp [hin b hb]⟩

/-- What is no blank stands in a word. -/
theorem exists_mem_words {s : List α} {b : α} (hb : b ∈ s) (hword : blank b = false) :
    ∃ w ∈ words blank s, b ∈ w := by
  induction s using words_induction blank with
  | blanks s hs =>
      rw [hs b hb] at hword
      cases hword
  | last front w hfront hne hw =>
      rw [words_blanks_append hfront, words_singleton hne hw]
      rcases List.mem_append.mp hb with hb | hb
      · rw [hfront b hb] at hword
        cases hword
      · exact ⟨w, List.mem_singleton_self w, hb⟩
  | word front w d rest hfront hne hw hd ih =>
      rw [words_blanks_append hfront, words_word_append hne hw hd]
      rcases List.mem_append.mp hb with hb | hb
      · rw [hfront b hb] at hword
        cases hword
      · rcases List.mem_append.mp hb with hb | hb
        · exact ⟨w, List.mem_cons_self, hb⟩
        · rcases List.mem_cons.mp hb with rfl | hb
          · rw [hd] at hword
            cases hword
          · obtain ⟨v, hv, hbv⟩ := ih hb
            exact ⟨v, List.mem_cons_of_mem _ hv, hbv⟩

/-- Two notions of blank that agree on the text give the same words. -/
theorem words_congr {blank' : α → Bool} {s : List α} (h : ∀ b ∈ s, blank b = blank' b) :
    words blank s = words blank' s := by
  have hsplit : s.splitOnP blank = s.splitOnP blank' := by
    induction s with
    | nil => rfl
    | cons b s ih =>
        rw [List.splitOnP_cons_eq_if_modifyHead, List.splitOnP_cons_eq_if_modifyHead,
          h b List.mem_cons_self,
          ih fun c hc => h c (List.mem_cons_of_mem _ hc)]
  rw [words, words, hsplit]

end HttpsServ.Words
