import Mathlib.Data.List.Basic
import Mathlib.Data.List.Infix

/-!
# Segments between separators

A text is its segments joined by a separator. A word without separators occurs
in the text when it occurs in a segment; a word that begins with the separator
occurs when some segment behind the first begins with the rest of it.
-/

namespace HttpsServ.Segments

variable {α : Type*} [DecidableEq α] {sep : α}

/-- A text has no separator, or a first segment and a text behind its separator. -/
theorem segments_induction {motive : List α → Prop} (sep : α)
    (single : ∀ s, sep ∉ s → motive s)
    (cons : ∀ line rest, sep ∉ line → motive rest → motive (line ++ sep :: rest)) (s : List α) :
    motive s := by
  induction hlen : s.length using Nat.strong_induction_on generalizing s with
  | _ n ih =>
      by_cases hmem : sep ∈ s
      · obtain ⟨line, rest, rfl, hline⟩ := List.eq_append_cons_of_mem hmem
        apply cons line rest hline
        apply ih rest.length _ rest rfl
        rw [← hlen, List.length_append, List.length_cons]
        omega
      · exact single s hmem

theorem splitOn_cons {line : List α} (hline : sep ∉ line) (rest : List α) :
    (line ++ sep :: rest).splitOn sep = line :: rest.splitOn sep :=
  List.splitOn_append_cons_self_of_not_mem hline rest

/-- No segment contains the separator. -/
theorem notMem_segment {s line : List α} (h : line ∈ s.splitOn sep) : sep ∉ line := by
  induction s using segments_induction sep with
  | single s hs =>
      rw [List.splitOn_eq_singleton hs, List.mem_singleton] at h
      rwa [h]
  | cons first rest hfirst ih =>
      rw [splitOn_cons hfirst, List.mem_cons] at h
      rcases h with rfl | h
      · exact hfirst
      · exact ih h

/-- Lines that each end in a separator are read back when none has one inside. -/
theorem splitOn_lines_iff (lines : List (List α)) :
    (lines.flatMap (· ++ [sep])).splitOn sep = lines ++ [[]] ↔ ∀ line ∈ lines, sep ∉ line := by
  constructor
  · intro h line hline
    apply notMem_segment (s := lines.flatMap (· ++ [sep]))
    rw [h]
    exact List.mem_append_left _ hline
  · intro h
    induction lines with
    | nil => rfl
    | cons line lines ih =>
        rw [List.flatMap_cons, List.append_assoc, List.singleton_append,
          splitOn_cons (h line List.mem_cons_self),
          ih fun l hl => h l (List.mem_cons_of_mem _ hl), List.cons_append]

theorem getLastD_splitOn_cons {line : List α} (hline : sep ∉ line) (rest : List α) :
    ((line ++ sep :: rest).splitOn sep).getLastD [] = (rest.splitOn sep).getLastD [] := by
  obtain ⟨first, lines, hlines⟩ := List.exists_cons_of_ne_nil (List.splitOn_ne_nil sep rest)
  rw [splitOn_cons hline, hlines]
  rfl

/-- The last segment ends the text. -/
theorem lastSegment_suffix (s : List α) : (s.splitOn sep).getLastD [] <:+ s := by
  induction s using segments_induction sep with
  | single s hs =>
      rw [List.splitOn_eq_singleton hs]
      exact List.suffix_rfl
  | cons line rest hline ih =>
      rw [getLastD_splitOn_cons hline]
      exact ih.trans ((List.suffix_cons _ _).trans (List.suffix_append _ _))

/-- In front of the last segment stands the last separator. -/
theorem cons_lastSegment_suffix {s : List α} (h : sep ∈ s) :
    sep :: (s.splitOn sep).getLastD [] <:+ s := by
  induction s using segments_induction sep with
  | single s hs => exact absurd h hs
  | cons line rest hline ih =>
      rw [getLastD_splitOn_cons hline]
      by_cases hrest : sep ∈ rest
      · exact (ih hrest).trans ((List.suffix_cons _ _).trans (List.suffix_append _ _))
      · rw [List.splitOn_eq_singleton hrest]
        exact List.suffix_append _ _

section Occurrences

omit [DecidableEq α]

/-- A word without separators that begins a text ends in front of the first one. -/
theorem prefix_append_cons {needle : List α} (hneedle : sep ∉ needle) (line rest : List α) :
    needle <+: line ++ sep :: rest ↔ needle <+: line := by
  constructor
  · intro h
    rcases List.prefix_or_prefix_of_prefix h (List.prefix_append line (sep :: rest)) with h' | h'
    · exact h'
    · obtain ⟨cut, rfl⟩ := h'
      cases cut with
      | nil => simp
      | cons b cut =>
          rw [List.prefix_append_right_inj, List.cons_prefix_cons] at h
          exact absurd (by rw [h.1]; simp) hneedle
  · intro h
    exact h.trans (List.prefix_append _ _)

/-- An occurrence of a word without separators does not go across one. -/
theorem infix_append_cons {needle : List α} (hne : needle ≠ []) (hneedle : sep ∉ needle)
    (line rest : List α) :
    needle <:+: line ++ sep :: rest ↔ needle <:+: line ∨ needle <:+: rest := by
  induction line with
  | nil =>
      have hstart : ¬ needle <+: sep :: rest := by
        rw [← List.nil_append (sep :: rest), prefix_append_cons hneedle, List.prefix_nil]
        exact hne
      rw [List.nil_append, List.infix_cons_iff, List.infix_nil]
      simp [hstart, hne]
  | cons b line ih =>
      have hstart := prefix_append_cons hneedle (b :: line) rest
      rw [List.cons_append] at hstart ⊢
      rw [List.infix_cons_iff, hstart, ih, List.infix_cons_iff, or_assoc]

/-- An occurrence that begins with the separator begins at it or behind it. -/
theorem cons_infix_append_cons {word line : List α} (hline : sep ∉ line) (rest : List α) :
    sep :: word <:+: line ++ sep :: rest ↔ word <+: rest ∨ sep :: word <:+: rest := by
  induction line with
  | nil => rw [List.nil_append, List.infix_cons_iff, List.cons_prefix_cons, and_iff_right rfl]
  | cons b line ih =>
      rw [List.mem_cons, not_or] at hline
      rw [List.cons_append, List.infix_cons_iff, List.cons_prefix_cons, ih hline.2]
      simp [hline.1]

/-- A word whose first two symbols do not meet in the front part begins behind it. -/
theorem infix_append_skip {front : List α} {x y : α} (word rest : List α)
    (hpair : ¬ [x, y] <:+: front) (hlast : front.getLast? ≠ some x) :
    x :: y :: word <:+: front ++ rest ↔ x :: y :: word <:+: rest := by
  induction front with
  | nil => rw [List.nil_append]
  | cons b front ih =>
      rw [List.infix_cons_iff, not_or] at hpair
      have hstart : ¬ x :: y :: word <+: b :: (front ++ rest) := by
        intro h
        obtain ⟨rfl, hnext⟩ := List.cons_prefix_cons.mp h
        cases front with
        | nil => exact hlast rfl
        | cons c front =>
            obtain ⟨rfl, -⟩ := List.cons_prefix_cons.mp hnext
            exact hpair.1 (by simp)
      have htail : front.getLast? ≠ some x := by
        cases front with
        | nil => simp
        | cons c front => rwa [List.getLast?_cons_cons] at hlast
      rw [List.cons_append, List.infix_cons_iff, ih hpair.2 htail, or_iff_right hstart]

/-- `word` occurs behind an occurrence of `first`. -/
def Follows (first word s : List α) : Prop :=
  ∃ before after, s = before ++ (first ++ after) ∧ word <:+: after

/-- `first` begins the text and `word` occurs behind it. -/
def Leads (first word s : List α) : Prop := ∃ after, s = first ++ after ∧ word <:+: after

theorem follows_cons (first word : List α) (b : α) (s : List α) :
    Follows first word (b :: s) ↔ Leads first word (b :: s) ∨ Follows first word s := by
  constructor
  · rintro ⟨before, after, heq, hword⟩
    cases before with
    | nil => exact .inl ⟨after, heq, hword⟩
    | cons c before =>
        rw [List.cons_append, List.cons_eq_cons] at heq
        exact .inr ⟨before, after, heq.2, hword⟩
  · rintro (⟨after, heq, hword⟩ | ⟨before, after, heq, hword⟩)
    · exact ⟨[], after, heq, hword⟩
    · exact ⟨b :: before, after, by rw [heq, List.cons_append], hword⟩

theorem Follows.carries_word {first word s : List α} (h : Follows first word s) : word <:+: s := by
  obtain ⟨before, after, rfl, hword⟩ := h
  exact hword.trans ((List.suffix_append first after).trans (List.suffix_append before _)).isInfix

section Separated

variable {first word : List α} (hfirstSep : sep ∉ first) (hword : word ≠ [])
  (hwordSep : sep ∉ word)
include hfirstSep hword hwordSep

theorem leads_append_cons (line rest : List α) :
    Leads first word (line ++ sep :: rest) ↔
      Leads first word line ∨ first <+: line ∧ word <:+: rest := by
  constructor
  · rintro ⟨after, heq, hafter⟩
    obtain ⟨cut, rfl⟩ := (prefix_append_cons hfirstSep line rest).mp ⟨after, heq.symm⟩
    rw [List.append_assoc, List.append_cancel_left_eq] at heq
    rw [← heq, infix_append_cons hword hwordSep] at hafter
    exact hafter.imp (fun h => ⟨cut, rfl, h⟩) fun h => ⟨List.prefix_append _ _, h⟩
  · rintro (⟨after, rfl, hafter⟩ | ⟨⟨cut, rfl⟩, hrest⟩)
    · exact ⟨after ++ sep :: rest, by rw [List.append_assoc],
        (infix_append_cons hword hwordSep _ _).mpr (.inl hafter)⟩
    · exact ⟨cut ++ sep :: rest, by rw [List.append_assoc],
        (infix_append_cons hword hwordSep _ _).mpr (.inr hrest)⟩

theorem follows_append_cons (hfirst : first ≠ []) (line rest : List α) :
    Follows first word (line ++ sep :: rest) ↔
      Follows first word line ∨ (first <:+: line ∧ word <:+: rest) ∨ Follows first word rest := by
  induction line with
  | nil =>
      have hleads := leads_append_cons hfirstSep hword hwordSep [] rest
      have hnone : ¬ Leads first word [] := by
        rintro ⟨after, heq, -⟩
        exact hfirst (List.append_eq_nil_iff.mp heq.symm).1
      have hempty : ¬ Follows first word [] := by
        rintro ⟨before, after, heq, -⟩
        exact hfirst (List.append_eq_nil_iff.mp (List.append_eq_nil_iff.mp heq.symm).2).1
      rw [List.nil_append] at hleads ⊢
      rw [follows_cons, hleads, List.prefix_nil, List.infix_nil]
      simp [hnone, hempty, hfirst]
  | cons b line ih =>
      have hleads := leads_append_cons hfirstSep hword hwordSep (b :: line) rest
      rw [List.cons_append] at hleads ⊢
      rw [follows_cons, hleads, ih, follows_cons, List.infix_cons_iff]
      grind

end Separated

end Occurrences

theorem infix_iff_segment {needle : List α} (hne : needle ≠ []) (hneedle : sep ∉ needle)
    (s : List α) : needle <:+: s ↔ ∃ line ∈ s.splitOn sep, needle <:+: line := by
  induction s using segments_induction sep with
  | single s hs => simp [List.splitOn_eq_singleton hs]
  | cons line rest hline ih =>
      rw [infix_append_cons hne hneedle, ih, splitOn_cons hline]
      simp

/-- A word without separators begins a text when it begins the first segment. -/
theorem prefix_iff_head {needle : List α} (hneedle : sep ∉ needle) (s : List α) :
    needle <+: s ↔ needle <+: (s.splitOn sep).headD [] := by
  induction s using segments_induction sep with
  | single s hs => simp [List.splitOn_eq_singleton hs]
  | cons line rest hline ih =>
      rw [splitOn_cons hline, List.headD_cons, prefix_append_cons hneedle]

/-- A word that begins with the separator. -/
theorem cons_infix_iff_segment {word : List α} (hword : sep ∉ word) (s : List α) :
    sep :: word <:+: s ↔ ∃ line ∈ (s.splitOn sep).tail, word <+: line := by
  induction s using segments_induction sep with
  | single s hs =>
      rw [List.splitOn_eq_singleton hs]
      constructor
      · intro h
        exact absurd (h.subset List.mem_cons_self) hs
      · rintro ⟨line, hmem, -⟩
        cases hmem
  | cons line rest hline ih =>
      rw [cons_infix_append_cons hline, ih, splitOn_cons hline, List.tail_cons,
        prefix_iff_head hword]
      obtain ⟨first, lines, hlines⟩ := List.exists_cons_of_ne_nil (List.splitOn_ne_nil sep rest)
      simp [hlines]

/-- The place of one word behind another, read on the segments: the second is in the
segment where the first is, behind it, or in a later one. -/
theorem follows_iff_segment {first word : List α} (hfirst : first ≠ []) (hfirstSep : sep ∉ first)
    (hword : word ≠ []) (hwordSep : sep ∉ word) (s : List α) :
    Follows first word s ↔ ∃ before line after, s.splitOn sep = before ++ line :: after ∧
      ((∃ earlier ∈ before, first <:+: earlier) ∧ word <:+: line ∨ Follows first word line) := by
  induction s using segments_induction sep with
  | single s hs =>
      rw [List.splitOn_eq_singleton hs]
      constructor
      · intro h
        exact ⟨[], s, [], rfl, .inr h⟩
      · rintro ⟨before, line, after, heq, hcase⟩
        cases before with
        | nil =>
            rw [List.nil_append, List.cons_eq_cons] at heq
            rw [heq.1]
            simpa using hcase
        | cons first' before => simp at heq
  | cons line rest hline ih =>
      rw [follows_append_cons hfirstSep hword hwordSep hfirst, ih, splitOn_cons hline,
        infix_iff_segment hword hwordSep]
      constructor
      · rintro (h | ⟨hin, later, hlater, hmem⟩ | ⟨before, later, after, heq, hcase⟩)
        · exact ⟨[], line, _, rfl, .inr h⟩
        · obtain ⟨before, after, heq⟩ := List.append_of_mem hlater
          exact ⟨line :: before, later, after, by rw [heq, List.cons_append],
            .inl ⟨⟨line, List.mem_cons_self, hin⟩, hmem⟩⟩
        · refine ⟨line :: before, later, after, by rw [heq, List.cons_append], ?_⟩
          refine hcase.imp (fun h => ⟨?_, h.2⟩) id
          obtain ⟨earlier, hearlier, hin⟩ := h.1
          exact ⟨earlier, List.mem_cons_of_mem _ hearlier, hin⟩
      · rintro ⟨before, later, after, heq, hcase⟩
        cases before with
        | nil =>
            rw [List.nil_append, List.cons_eq_cons] at heq
            rw [heq.1]
            exact .inl (by simpa using hcase)
        | cons first' before =>
            rw [List.cons_append, List.cons_eq_cons] at heq
            obtain ⟨rfl, heq⟩ := heq
            rcases hcase with ⟨⟨earlier, hearlier, hin⟩, hmem⟩ | hcase
            · rcases List.mem_cons.mp hearlier with rfl | hearlier
              · exact .inr (.inl ⟨hin, later, by simp [heq], hmem⟩)
              · exact .inr (.inr ⟨before, later, after, heq, .inl ⟨⟨earlier, hearlier, hin⟩, hmem⟩⟩)
            · exact .inr (.inr ⟨before, later, after, heq, .inr hcase⟩)

theorem splitOn_map {β : Type*} [DecidableEq β] (f : α → β) (hf : ∀ a, f a = f sep ↔ a = sep)
    (s : List α) : (s.map f).splitOn (f sep) = (s.splitOn sep).map (List.map f) := by
  have hmap : ∀ line : List α, sep ∉ line → f sep ∉ line.map f := by
    intro line hline hmem
    obtain ⟨a, ha, heq⟩ := List.mem_map.mp hmem
    exact hline ((hf a).mp heq ▸ ha)
  induction s using segments_induction sep with
  | single s hs => rw [List.splitOn_eq_singleton hs, List.splitOn_eq_singleton (hmap s hs)]; rfl
  | cons line rest hline ih =>
      rw [List.map_append, List.map_cons, splitOn_cons (hmap line hline), ih, splitOn_cons hline,
        List.map_cons]

end HttpsServ.Segments
