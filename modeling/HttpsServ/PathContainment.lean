import HttpsServ.PathSanitizer
import HttpsServ.Library.LexicalPath
import HttpsServ.RequestHeader
import HttpsServ.Http

/-!
# Which requests stay inside the root folder

The sanitizer is read on the components between the slashes of the raw path.
From this follows, for every accepted request, exactly when the name handed to
`fopen` is a path below the root folder.
-/

namespace HttpsServ.PathContainment

open ByteString Utility HttpParser Http PathSanitizer LexicalPath RequestHeader

def dotDot : Bytes := bytes ".."

/-- A component that ends in `".."` loses these dots and is glued to the next
component; `acc` is what earlier components have left over. -/
def glueFrom : Bytes → List Bytes → List Bytes
  | _, [] => []
  | acc, [last] => [acc ++ last]
  | acc, c :: next :: rest =>
      if dotDot <:+ c then glueFrom (acc ++ c.take (c.length - 2)) (next :: rest)
      else (acc ++ c) :: glueFrom [] (next :: rest)

/-- The components of a raw path as the sanitizer leaves them. -/
def keptComponents (path : Bytes) : List Bytes :=
  (glueFrom [] (path.splitOn 47)).map unspaced

theorem unspaced_append (s t : Bytes) : unspaced (s ++ t) = unspaced s ++ unspaced t :=
  List.filter_append ..

theorem slash_notMem_unspaced {s : Bytes} (h : 47 ∉ s) : 47 ∉ unspaced s :=
  fun hm => h (List.mem_of_mem_filter hm)

theorem susWord_eq : susWord = dotDot ++ [47] := by decide

/-- Where a `"../"` begins, its slash stands two places further on. -/
theorem slash_of_susWord {s : Bytes} {j : Nat} (h : susWord <+: s.drop j) :
    s[j + 2]? = some 47 := by
  obtain ⟨t, ht⟩ := h
  rw [← List.getElem?_drop, ← ht, susWord_bytes]
  rfl

/-- Inside a component without slashes, and at the slash behind it, no `"../"`
begins, unless the component ends in `".."`. -/
theorem susWord_notIn_component {c rest : Bytes} (hc : 47 ∉ c) (hdots : ¬ dotDot <:+ c) :
    ∀ j < (c ++ [47]).length, ¬ susWord <+: (c ++ [47] ++ rest).drop j := by
  intro j hj hp
  rw [List.length_append, List.length_singleton] at hj
  rcases Nat.lt_trichotomy (j + 2) c.length with hlt | heq | hgt
  · -- the slash of the occurrence would lie inside the component
    have hslash := slash_of_susWord hp
    rw [List.append_assoc, List.getElem?_append_left hlt] at hslash
    exact hc (List.mem_of_getElem? hslash)
  · -- the component would end in two dots
    apply hdots
    refine ⟨c.take j, ?_⟩
    have hlen : (c.drop j).length = 2 := by
      rw [List.length_drop]
      omega
    rw [List.append_assoc, List.drop_append_of_le_length (by omega), susWord_bytes] at hp
    match hd : c.drop j, hlen with
    | [a, b], _ =>
        simp only [hd, List.cons_append, List.nil_append, List.cons_prefix_cons] at hp
        conv_rhs => rw [← List.take_append_drop j c, hd, ← hp.1, ← hp.2.1]
        rfl
  · -- one of its two dots would be the slash behind the component
    obtain ⟨t, ht⟩ := hp
    have hget : ∀ i < 2, (c ++ [47] ++ rest)[j + i]? = some 46 := by
      intro i hi
      rw [← List.getElem?_drop, ← ht, susWord_bytes]
      match i, hi with
      | 0, _ => rfl
      | 1, _ => rfl
    have hat : (c ++ [47] ++ rest)[c.length]? = some 47 := by simp
    have hbad := hget (c.length - j) (by omega)
    rw [show j + (c.length - j) = c.length by omega, hat] at hbad
    exact absurd hbad (by decide)

/-- Blanking passes over a component that does not end in `".."`. -/
theorem blanked_component {c rest : Bytes} (hc : 47 ∉ c) (hdots : ¬ dotDot <:+ c) :
    blanked (c ++ 47 :: rest) = c ++ 47 :: blanked rest := by
  have h : blanked (c ++ [47] ++ rest) = c ++ [47] ++ blanked rest :=
    blanked_append (susWord_notIn_component hc hdots)
  simpa using h

/-- Blanking takes the dots and the slash of a component that ends in `".."`. -/
theorem blanked_dotted {c rest : Bytes} (hc : 47 ∉ c) :
    blanked (c ++ dotDot ++ 47 :: rest) = c ++ 32 :: 32 :: 32 :: blanked rest := by
  have hsplit : c ++ dotDot ++ 47 :: rest = c ++ (susWord ++ rest) := by
    rw [susWord_eq]
    simp
  rw [hsplit, blanked_append, blanked_susWord]
  intro j hj hp
  have hslash := slash_of_susWord hp
  have hdots : (susWord ++ rest)[0]? = some 46 ∧ (susWord ++ rest)[1]? = some 46 :=
    ⟨rfl, rfl⟩
  rcases Nat.lt_or_ge (j + 2) c.length with hlt | hge
  · rw [List.getElem?_append_left hlt] at hslash
    exact hc (List.mem_of_getElem? hslash)
  · -- the slash would be one of the two dots behind the component
    rw [List.getElem?_append_right hge] at hslash
    rcases (by omega : j + 2 - c.length = 0 ∨ j + 2 - c.length = 1) with h | h
    · rw [h, hdots.1] at hslash
      exact absurd hslash (by decide)
    · rw [h, hdots.2] at hslash
      exact absurd hslash (by decide)

/-- A path without slashes has nothing to blank. -/
theorem blanked_of_slash_notMem {s : Bytes} (h : 47 ∉ s) : blanked s = s := by
  apply blanked_of_none
  rw [firstOccurrence_eq_none_iff]
  intro j hp
  exact h (List.mem_of_getElem? (slash_of_susWord hp))

/-- The components the sanitizer leaves, behind a remainder `acc`. -/
theorem splitOn_unspaced_blanked (path acc : Bytes) (hacc : 47 ∉ acc) :
    (unspaced (acc ++ blanked path)).splitOn 47 =
      (glueFrom acc (path.splitOn 47)).map unspaced := by
  induction hlen : path.length using Nat.strong_induction_on generalizing path acc with
  | _ n ih =>
      by_cases hslash : 47 ∈ path
      · obtain ⟨c, rest, rfl, hc⟩ := List.eq_append_cons_of_mem hslash
        have hlt : rest.length < n := by
          rw [← hlen, List.length_append, List.length_cons]
          omega
        have hcons : (c ++ 47 :: rest).splitOn 47 = c :: rest.splitOn 47 :=
          List.splitOn_append_cons_self_of_not_mem hc rest
        obtain ⟨next, more, hnext⟩ := List.exists_cons_of_ne_nil (List.splitOn_ne_nil 47 rest)
        by_cases hdots : dotDot <:+ c
        · obtain ⟨c', rfl⟩ := hdots
          have hc' : 47 ∉ c' := fun hm => hc (List.mem_append_left _ hm)
          have htake : (c' ++ dotDot).take ((c' ++ dotDot).length - 2) = c' := by
            apply List.take_left'
            rw [List.length_append]
            rfl
          have hjoin : unspaced (acc ++ (c' ++ 32 :: 32 :: 32 :: blanked rest)) =
              unspaced (acc ++ c' ++ blanked rest) := by
            rw [← List.append_assoc, unspaced_append, unspaced_append (acc ++ c')]
            rfl
          rw [hcons, hnext, glueFrom, if_pos ⟨c', rfl⟩, htake, ← hnext, blanked_dotted hc',
            hjoin, ih rest.length hlt rest (acc ++ c') (by simp [hacc, hc']) rfl]
        · have hhead : unspaced (acc ++ (c ++ 47 :: blanked rest)) =
              unspaced (acc ++ c) ++ 47 :: unspaced (blanked rest) := by
            rw [← List.append_assoc, unspaced_append]
            rfl
          have hrest := ih rest.length hlt rest [] (by simp) rfl
          rw [List.nil_append] at hrest
          rw [hcons, hnext, glueFrom, if_neg hdots, ← hnext, blanked_component hc hdots, hhead,
            List.splitOn_append_cons_self_of_not_mem
              (slash_notMem_unspaced (by simp [hacc, hc])), hrest]
          rfl
      · rw [blanked_of_slash_notMem hslash, List.splitOn_eq_singleton hslash, glueFrom,
          List.splitOn_eq_singleton (slash_notMem_unspaced (by simp [hacc, hslash]))]
        rfl

/-- What the sanitizer leaves of a path, on its components. -/
theorem splitOn_getFilePosition (path : Bytes) :
    (getFilePosition path).src.splitOn 47 = keptComponents path := by
  rw [getFilePosition_src, keptComponents, ← splitOn_unspaced_blanked path [] (by simp)]
  rfl

/-- What the sanitizer leaves of a path. -/
def keptPath (path : Bytes) : Bytes := [47].intercalate (keptComponents path)

theorem getFilePosition_eq (path : Bytes) :
    (getFilePosition path).src = keptPath path ∧
      (getFilePosition path).position = (keptPath path).length := by
  have hsrc : (getFilePosition path).src = keptPath path := by
    rw [keptPath, ← splitOn_getFilePosition, List.intercalate_splitOn]
  refine ⟨hsrc, ?_⟩
  rw [← hsrc, getFilePosition_src, getFilePosition_position]

/-- The part of a sanitized path that `OpenStaticFile` appends: its start and
its length come from the two halves of the position. -/
def lengthWindow (s : Bytes) : Bytes :=
  (s.drop (s.length >>> 16)).take (((intMax >>> 16) &&& s.length) + 1)

theorem lengthWindow_of_short {s : Bytes} (h : s.length < 2 ^ 15) : lengthWindow s = s := by
  have hmask : (intMax >>> 16) &&& s.length = s.length := by
    rw [show intMax >>> 16 = 2 ^ 15 - 1 by decide, Nat.and_comm, Nat.and_two_pow_sub_one_eq_mod,
      Nat.mod_eq_of_lt h]
  rw [lengthWindow, hmask, Nat.shiftRight_eq_div_pow, Nat.div_eq_of_lt (by omega)]
  exact List.take_of_length_le (by simp)

theorem staticFileName_eq (path root : Bytes) :
    staticFileName path root =
      if keptPath path = [] then none else some (root ++ lengthWindow (keptPath path)) := by
  obtain ⟨hsrc, hpos⟩ := getFilePosition_eq path
  simp only [staticFileName, hsrc, hpos, List.length_eq_zero_iff, lengthWindow]

/-- The move of one component: `"."` and empty components are skipped. -/
def toMove (component : Bytes) : Move Bytes :=
  if component = [] ∨ component = bytes "." then .stay
  else if component = dotDot then .up
  else .down component

/-- The name is the root, a slash, and a path that never pops above the root. -/
def InsideRoot (root name : Bytes) : Prop :=
  ∃ rest, name = root ++ 47 :: rest ∧ NeverAbove ((rest.splitOn 47).map toMove)

/-- A component that names an entry of a directory. -/
def isName (component : Bytes) : Bool :=
  component ≠ [] ∧ component ≠ bytes "." ∧ component ≠ dotDot

/-- The components of the part of the path that is opened. -/
def openedComponents (path : Bytes) : List Bytes := (lengthWindow (keptPath path)).splitOn 47

theorem openedComponents_of_short {path : Bytes} (h : (keptPath path).length < 2 ^ 15) :
    openedComponents path = keptComponents path := by
  rw [openedComponents, lengthWindow_of_short h, ← (getFilePosition_eq path).1,
    splitOn_getFilePosition]

/-- The condition on a raw path: glued as above, it begins with a slash, and no
prefix of the components behind it has more `".."` than names. -/
def StaysInside (path : Bytes) : Prop :=
  ∃ parts, openedComponents path = [] :: parts ∧
    ∀ pre, pre <+: parts → pre.countP (· = dotDot) ≤ pre.countP isName

theorem toMove_cases (component : Bytes) :
    component = [] ∨ component = bytes "." ∨ component = dotDot ∨
      (toMove component = .down component ∧ component ≠ dotDot ∧ isName component = true) := by
  by_cases h₀ : component = []
  · exact .inl h₀
  · by_cases h₁ : component = bytes "."
    · exact .inr (.inl h₁)
    · by_cases h₂ : component = dotDot
      · exact .inr (.inr (.inl h₂))
      · exact .inr (.inr (.inr ⟨by simp [toMove, h₀, h₁, h₂], h₂, by simp [isName, h₀, h₁, h₂]⟩))

theorem isUp_toMove (component : Bytes) :
    isUp (toMove component) = decide (component = dotDot) := by
  rcases toMove_cases component with rfl | rfl | rfl | ⟨hmove, hne, -⟩
  · decide
  · decide
  · decide
  · rw [hmove, decide_eq_false hne]
    rfl

theorem isDown_toMove (component : Bytes) : isDown (toMove component) = isName component := by
  rcases toMove_cases component with rfl | rfl | rfl | ⟨hmove, -, hname⟩
  · decide
  · decide
  · decide
  · rw [hmove, hname]
    rfl

/-- Staying inside, by counting components. -/
theorem neverAbove_components (parts : List Bytes) :
    NeverAbove (parts.map toMove) ↔
      ∀ pre, pre <+: parts → pre.countP (· = dotDot) ≤ pre.countP isName := by
  have hup : isUp ∘ toMove = fun c => decide (c = dotDot) := funext isUp_toMove
  have hdown : isDown ∘ toMove = isName := funext isDown_toMove
  rw [neverAbove_iff]
  constructor
  · intro h pre hp
    have := h (pre.map toMove) (hp.map toMove)
    rwa [List.countP_map, List.countP_map, hup, hdown] at this
  · intro h pre hp
    obtain ⟨pre', hp', rfl⟩ := List.prefix_map_iff.mp hp
    rw [List.countP_map, List.countP_map, hup, hdown]
    exact h pre' hp'

/-- A name that continues the root is inside it when the continuation is. -/
theorem insideRoot_append (root s : Bytes) :
    InsideRoot root (root ++ s) ↔
      ∃ rest, s = 47 :: rest ∧ NeverAbove ((rest.splitOn 47).map toMove) := by
  simp only [InsideRoot, List.append_cancel_left_eq]

theorem lengthWindow_ne_nil {s : Bytes} (h : s ≠ []) : lengthWindow s ≠ [] := by
  have hpos : 0 < s.length := List.length_pos_iff.mpr h
  have hlt : s.length >>> 16 < s.length := by
    rw [Nat.shiftRight_eq_div_pow]
    exact Nat.div_lt_self hpos (by decide)
  rw [lengthWindow, ← List.length_pos_iff, List.length_take, List.length_drop]
  omega

/-- The components begin with an empty one when the text begins with a slash. -/
theorem splitOn_eq_nil_cons_iff {s : Bytes} (hne : s ≠ []) {parts : List Bytes} :
    s.splitOn 47 = [] :: parts ↔ ∃ rest, s = 47 :: rest ∧ rest.splitOn 47 = parts := by
  obtain ⟨b, rest, rfl⟩ := List.exists_cons_of_ne_nil hne
  rw [List.splitOn_cons_eq_if_modifyHead]
  by_cases hb : b = 47
  · simp [hb]
  · obtain ⟨c, more, hc⟩ := List.exists_cons_of_ne_nil (List.splitOn_ne_nil 47 rest)
    simp [hb, hc]

/-- Containment of the opened name, for any path. -/
theorem staticFileName_inside_iff (path root : Bytes) :
    (∀ name, staticFileName path root = some name → InsideRoot root name) ↔
      StaysInside path := by
  rw [staticFileName_eq]
  by_cases hempty : keptPath path = []
  · have hopened : openedComponents path = [[]] := by
      rw [openedComponents, hempty]
      decide
    simp [hempty, StaysInside, hopened]
  · simp only [hempty, if_false, Option.some.injEq, forall_eq', insideRoot_append, StaysInside,
      openedComponents, splitOn_eq_nil_cons_iff (lengthWindow_ne_nil hempty),
      neverAbove_components]
    constructor
    · rintro ⟨rest, hrest, hcount⟩
      exact ⟨rest.splitOn 47, ⟨rest, hrest, rfl⟩, hcount⟩
    · rintro ⟨parts, ⟨rest, hrest, rfl⟩, hcount⟩
      exact ⟨rest, hrest, hcount⟩

/-- What the request itself asks for is short enough to be opened whole. -/
theorem openedComponents_requested {path : Bytes} (h : IsToken path) :
    openedComponents path = keptComponents path := by
  apply openedComponents_of_short
  have hlen : (keptPath path).length ≤ path.length := by
    rw [← (getFilePosition_eq path).1, getFilePosition_src]
    exact (List.length_filter_le _ _).trans_eq (length_blanked path)
  have hshort := h.short
  rw [maxUrlSize] at hshort
  omega

/-- Containment for every accepted request: the name `OpenStaticFile` builds from
the path of the request stays inside the root exactly when the raw path does. -/
theorem openedName_inside_iff {header : HttpRequestHeader} {buffer : Bytes}
    (haccepted : 0 ≤ (fillHttpRequestHeader header buffer).1) (defaultDocument root : Bytes) :
    ∃ path,
      (setDefaultDocument (fillHttpRequestHeader header buffer).2 defaultDocument).path =
        some path ∧
      ((∀ name, staticFileName path root = some name → InsideRoot root name) ↔
        StaysInside path) := by
  obtain ⟨path, hpath, -⟩ := fillHttpRequestHeader_path haccepted
  by_cases hroot : path = bytes "/"
  · refine ⟨bytes "/" ++ defaultDocument, ?_, staticFileName_inside_iff _ _⟩
    rw [setDefaultDocument, hpath, hroot, if_pos rfl]
  · refine ⟨path, ?_, staticFileName_inside_iff _ _⟩
    rw [setDefaultDocument, hpath, if_neg (by simpa using hroot), hpath]

theorem openedName_inside_iff_index :
    ∃ path,
      (setDefaultDocument (fillHttpRequestHeader {}
        (bytes "GET / HTTP/1.1\r\n\r\n")).2 (bytes "index.html")).path = some path ∧
      ((∀ name, staticFileName path (bytes "../Static") = some name →
          InsideRoot (bytes "../Static") name) ↔ StaysInside path) :=
  openedName_inside_iff (by decide) (bytes "index.html") (bytes "../Static")

/-- The request for `/....//x` is accepted and opens a file outside the root. -/
theorem openedName_escapes :
    (fillHttpRequestHeader {} (bytes "GET /....//x HTTP/1.1\r\n\r\n")).1 = 0 ∧
      (setDefaultDocument (fillHttpRequestHeader {}
        (bytes "GET /....//x HTTP/1.1\r\n\r\n")).2 (bytes "index.html")).path =
          some (bytes "/....//x") ∧
      staticFileName (bytes "/....//x") (bytes "../Static") = some (bytes "../Static/../x") ∧
      ¬ InsideRoot (bytes "../Static") (bytes "../Static/../x") := by
  have hname : staticFileName (bytes "/....//x") (bytes "../Static") =
      some (bytes "../Static/../x") := by
    rw [staticFileName_eq]
    decide
  refine ⟨by decide, by decide, hname, ?_⟩
  have hsplit : bytes "../Static/../x" = bytes "../Static" ++ bytes "/../x" := by decide
  rw [hsplit, insideRoot_append]
  rintro ⟨rest, hrest, hnever⟩
  obtain rfl : rest = bytes "../x" := (List.cons.inj hrest).2.symm
  exact absurd hnever (by decide)

end HttpsServ.PathContainment
