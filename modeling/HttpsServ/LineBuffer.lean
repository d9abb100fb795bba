import HttpsServ.ConfigurationText
import HttpsServ.RequestHeader

/-!
# The line buffer of the configuration

`SetServerStartupParams` moves `conf` forward with every token, while the size it
hands to `getline` stays that of the file. The cursor never runs ahead of the
lines that were read, so every line fits behind it. A line as long as the file
does not fit with its zero into the size: `getline` moves the block.
-/

namespace HttpsServ.LineBuffer

open ByteString Utility HttpParser Networking HttpsServ.Configuration ConfigurationText

/-- The variables after tokens of the same line: what the cursor has passed and what is
left of the line add up. -/
structure Advances (s s' : Startup) : Prop where
  size_eq : s'.size = s.size
  getlines_eq : s'.getlines = s.getlines
  cursor_eq : s'.offset + s'.conf.length = s.offset + s.conf.length

theorem Advances.refl (s : Startup) : Advances s s := ⟨rfl, rfl, rfl⟩

theorem Advances.trans {s s' s'' : Startup} (h : Advances s s') (h' : Advances s' s'') :
    Advances s s'' :=
  ⟨h'.size_eq.trans h.size_eq, h'.getlines_eq.trans h.getlines_eq, h'.cursor_eq.trans h.cursor_eq⟩

theorem strtok_advances (s : Startup) (isDelim : UInt8 → Bool) :
    Advances s (s.strtok isDelim).2 := by
  refine ⟨rfl, rfl, ?_⟩
  have hle := (RequestHeader.strtok_suffix isDelim s.conf).length_le
  change s.offset + (s.conf.length - (HttpParser.strtok isDelim s.conf).2.length) +
    (HttpParser.strtok isDelim s.conf).2.length = _
  omega

theorem matchSetting_advances {token : Bytes} {s s' : Startup} {setting : Setting}
    (h : matchSetting token s setting = some s') : Advances s s' := by
  rw [matchSetting] at h
  split at h
  · have hadvances := strtok_advances s (· == 10)
    split at h
    · cases h
    · rename_i value t hstrtok
      rw [hstrtok] at hadvances
      cases h
      exact ⟨hadvances.size_eq, hadvances.getlines_eq, hadvances.cursor_eq⟩
  · cases h
    exact .refl s

theorem foldlM_matchSetting_advances {token : Bytes} {settings : List Setting} {s s' : Startup}
    (h : settings.foldlM (matchSetting token) s = some s') : Advances s s' := by
  induction settings generalizing s with
  | nil =>
      cases h
      exact .refl _
  | cons setting settings ih =>
      rw [List.foldlM_cons] at h
      obtain ⟨t, hmatch, hrest⟩ := Option.bind_eq_some_iff.mp h
      exact (matchSetting_advances hmatch).trans (ih hrest)

/-- The call of `getline` for a line. -/
def getlineCall (s : Startup) (line : Bytes) : GetlineCall := ⟨s.offset, line.length, s.size⟩

/-- Reading a line records its call, and leaves the cursor inside the line. -/
theorem readSetting_cursor {s s' : Startup} {line : Bytes} (h : readSetting s line = some s') :
    s'.getlines = s.getlines ++ [getlineCall s line] ∧ s'.size = (s.getline line).size ∧
      s'.offset ≤ s.offset + line.length := by
  have htoken := strtok_advances (s.getline line) (· == 32)
  rw [readSetting] at h
  split at h
  · cases h
  · rename_i token t hstrtok
    rw [hstrtok] at htoken
    have hadvances := htoken.trans (foldlM_matchSetting_advances h)
    refine ⟨hadvances.getlines_eq, hadvances.size_eq, ?_⟩
    calc
      s'.offset ≤ s'.offset + s'.conf.length := Nat.le_add_right _ _
      _ = s.offset + (cstr line).length := hadvances.cursor_eq
      _ ≤ s.offset + line.length := Nat.add_le_add_left (List.takeWhile_prefix _).length_le _

/-- The calls of `getline` that return a line, up to the use of a `NULL` token. -/
def getlineCalls (s : Startup) : List Bytes → List GetlineCall
  | [] => []
  | line :: lines =>
      getlineCall s line :: (readSetting s line).elim [] fun s => getlineCalls s lines

/-- Where all lines are read, the calls are the recorded ones. -/
theorem foldlM_readSetting_getlines {s s' : Startup} {lines : List Bytes}
    (h : lines.foldlM readSetting s = some s') :
    s'.getlines = s.getlines ++ getlineCalls s lines := by
  induction lines generalizing s with
  | nil =>
      cases h
      exact (List.append_nil _).symm
  | cons line lines ih =>
      rw [List.foldlM_cons] at h
      obtain ⟨t, hread, hrest⟩ := Option.bind_eq_some_iff.mp h
      rw [ih hrest, (readSetting_cursor hread).1, getlineCalls, hread, Option.elim_some,
        List.append_assoc]
      rfl

theorem setServerStartupParams_getlines {hostServer : Server} {content : Bytes} {result : Int}
    {s : Startup} (h : setServerStartupParams (confFile content) hostServer = some (result, s)) :
    s.getlines = getlineCalls (startup hostServer content) (fileLines content) := by
  rw [setServerStartupParams_eq] at h
  obtain ⟨t, hrun, heq⟩ := Option.map_eq_some_iff.mp h
  cases heq
  exact foldlM_readSetting_getlines hrun

/-- Every line stays within the bytes that the lines have together. -/
theorem getlineCalls_inBlock {s : Startup} {lines : List Bytes} {size : Nat}
    (h : s.offset + lines.flatten.length ≤ size) :
    ∀ call ∈ getlineCalls s lines, call.offset + call.lineLength ≤ size := by
  induction lines generalizing s with
  | nil => exact List.forall_mem_nil _
  | cons line lines ih =>
      rw [List.flatten_cons, List.length_append] at h
      rw [getlineCalls, List.forall_mem_cons]
      constructor
      · change s.offset + line.length ≤ size
        omega
      · cases hread : readSetting s line with
        | none => exact List.forall_mem_nil _
        | some t =>
            have hcursor := (readSetting_cursor hread).2.2
            exact ih (by omega)

/-- Lines that fit into `n` leave it as it is. -/
theorem getlineCalls_fit {s : Startup} {lines : List Bytes}
    (h : ∀ line ∈ lines, line.length + 1 ≤ s.size) :
    ∀ call ∈ getlineCalls s lines, call.n = s.size ∧ call.lineLength + 1 ≤ call.n := by
  induction lines generalizing s with
  | nil => exact List.forall_mem_nil _
  | cons line lines ih =>
      rw [List.forall_mem_cons] at h
      rw [getlineCalls, List.forall_mem_cons]
      refine ⟨⟨rfl, h.1⟩, ?_⟩
      cases hread : readSetting s line with
      | none => exact List.forall_mem_nil _
      | some t =>
          have hsize : t.size = s.size := (readSetting_cursor hread).2.1.trans (if_pos h.1)
          have hrest := ih (s := t) (by rw [hsize]; exact h.2)
          rwa [hsize] at hrest

theorem flatten_fileLines (content : Bytes) : (fileLines content).flatten = content := by
  induction content with
  | nil => rfl
  | cons b rest ih =>
      rw [fileLines]
      split
      · rename_i hnewline
        rw [List.flatten_cons, ih, hnewline]
        rfl
      · cases hlines : fileLines rest with
        | nil =>
            rw [hlines] at ih
            rw [← ih]
            rfl
        | cons line lines =>
            rw [hlines] at ih
            rw [← ih]
            rfl

theorem length_le_of_mem_fileLines {content line : Bytes} (h : line ∈ fileLines content) :
    line.length ≤ content.length := by
  have hle := (List.sublist_flatten_of_mem h).length_le
  rwa [flatten_fileLines] at hle

/-- A file with a newline, cut behind the first one. -/
theorem split_newline {content : Bytes} (h : 10 ∈ content) :
    ∃ text rest, content = text ++ 10 :: rest ∧
      fileLines content = (text ++ [10]) :: fileLines rest ∧
      (10 ∈ content.dropLast ↔ rest ≠ []) := by
  obtain ⟨text, rest, rfl, htext⟩ := List.eq_append_cons_of_mem h
  refine ⟨text, rest, rfl, fileLines_line htext rest, ?_⟩
  cases rest with
  | nil =>
      rw [List.dropLast_concat]
      exact iff_of_false htext (not_not.mpr rfl)
  | cons b rest =>
      rw [List.dropLast_append_cons]
      exact iff_of_true (by simp) (List.cons_ne_nil _ _)

/-- A file without a newline in front of its last byte is one line. -/
theorem fileLines_single {content : Bytes} (hne : content ≠ []) (h : 10 ∉ content.dropLast) :
    fileLines content = [content] := by
  by_cases hnewline : 10 ∈ content
  · obtain ⟨text, rest, heq, hlines, hinner⟩ := split_newline hnewline
    have hrest : rest = [] := not_not.mp (mt hinner.mpr h)
    rw [hlines, heq, hrest]
    rfl
  · exact fileLines_last hnewline hne

/-- In any other file every line is shorter than the file. -/
theorem length_lt_of_inner {content line : Bytes} (h : 10 ∈ content.dropLast)
    (hline : line ∈ fileLines content) : line.length < content.length := by
  obtain ⟨text, rest, heq, hlines, hinner⟩ := split_newline (List.mem_of_mem_dropLast h)
  have hrest := List.length_pos_iff.mpr (hinner.mp h)
  have hlength : content.length = text.length + (rest.length + 1) := by
    rw [heq, List.length_append, List.length_cons]
  rw [hlines] at hline
  cases List.mem_cons.mp hline with
  | inl hfirst =>
      rw [hfirst, List.length_append, List.length_singleton]
      omega
  | inr hlater =>
      have hle := length_le_of_mem_fileLines hlater
      omega

/-- Where a file is not one line, every line has room for its zero in the size of the file. -/
theorem length_lt_of_lines {content : Bytes} (h : content = [] ∨ 10 ∈ content.dropLast) :
    ∀ line ∈ fileLines content, line.length + 1 ≤ content.length := by
  intro line hline
  cases h with
  | inl hnil =>
      rw [hnil] at hline
      cases hline
  | inr hinner => exact length_lt_of_inner hinner hline

/-- `getline` moves the block when the line and its zero do not fit into `n`. -/
def GetlineCall.Reallocates (call : GetlineCall) : Prop := call.n < call.lineLength + 1

/-- Every line goes with its zero into the block of `size + 1` bytes, `n` is still the
size, and no call moves the block, so that `seg_start` is the block that is freed. -/
def LinesFit (hostServer : Server) (content : Bytes) : Prop :=
  ∀ call ∈ getlineCalls (startup hostServer content) (fileLines content),
    call.offset + call.lineLength + 1 ≤ content.length + 1 ∧ call.n = content.length ∧
      ¬ GetlineCall.Reallocates call

/-- No file makes `getline` write behind the block of `size + 1` bytes. -/
theorem getlineCalls_startup_inBlock (hostServer : Server) (content : Bytes) :
    ∀ call ∈ getlineCalls (startup hostServer content) (fileLines content),
      call.offset + call.lineLength + 1 ≤ content.length + 1 := by
  intro call hcall
  apply Nat.succ_le_succ
  refine getlineCalls_inBlock ?_ call hcall
  rw [flatten_fileLines]
  exact (Nat.zero_add _).le

/-- The block is moved for a file that is one line, and for no other. -/
theorem getlineCalls_stay_iff (hostServer : Server) (content : Bytes) :
    (∀ call ∈ getlineCalls (startup hostServer content) (fileLines content),
        ¬ GetlineCall.Reallocates call) ↔
      content = [] ∨ 10 ∈ content.dropLast := by
  constructor
  · intro h
    by_contra hsingle
    rw [not_or] at hsingle
    rw [fileLines_single hsingle.1 hsingle.2] at h
    exact h _ List.mem_cons_self (Nat.lt_succ_self _)
  · intro h call hcall
    exact Nat.not_lt.mpr (getlineCalls_fit (length_lt_of_lines h) call hcall).2

/-- The lines fit, except in a file that is one line. -/
theorem linesFit_iff (hostServer : Server) (content : Bytes) :
    LinesFit hostServer content ↔ content = [] ∨ 10 ∈ content.dropLast := by
  rw [← getlineCalls_stay_iff hostServer content]
  constructor
  · exact fun h call hcall => (h call hcall).2.2
  · intro h call hcall
    have hlines := (getlineCalls_stay_iff hostServer content).mp h
    have hn := (getlineCalls_fit (s := startup hostServer content) (length_lt_of_lines hlines)
      call hcall).1
    exact ⟨getlineCalls_startup_inBlock hostServer content call hcall, hn, h call hcall⟩

/-- One line with its newline: eleven bytes, and a zero that does not fit. -/
theorem singleLine_moves_block :
    ¬ ∀ (hostServer : Server) (content : Bytes), LinesFit hostServer content := by
  intro h
  obtain ⟨-, -, hstays⟩ := h {} (bytes "port: 3050\n") ⟨0, 11, 11⟩ (by decide)
  exact hstays (by unfold GetlineCall.Reallocates; decide)

/-- No `NULL` token is used, the block of the lines stays where `seg_start` points for the
`free` behind the loop, every copy fits, and the result is an error unless each setting has
a value that is not empty. -/
def FailsCleanly (hostServer : Server) (content : Bytes) : Prop :=
  ∃ result s, setServerStartupParams (confFile content) hostServer = some (result, s) ∧
    (∀ call ∈ s.getlines, ¬ GetlineCall.Reallocates call) ∧
    (∀ entry ∈ s.assigned, Fits entry) ∧
    (result = otherError ∨ result = 0 ∧ ∀ setting, ∃ value, value ≠ [] ∧
      (setting, value) ∈ s.assigned ∧ Holds s.server value setting)

/-- A file is handled cleanly exactly when it is not one line and all of its lines are well
formed. -/
theorem failsCleanly_iff (hostServer : Server) (content : Bytes) :
    FailsCleanly hostServer content ↔
      (content = [] ∨ 10 ∈ content.dropLast) ∧ ∀ line ∈ fileLines content, WellFormed line := by
  obtain ⟨hgood, hbad⟩ := setServerStartupParams_spec hostServer content
  constructor
  · rintro ⟨result, s, hrun, hstays, hfits, -⟩
    rw [setServerStartupParams_getlines hrun, getlineCalls_stay_iff] at hstays
    refine ⟨hstays, fun line hline => ?_⟩
    have hlines : ∀ line ∈ fileLines content, Readable line := by
      by_contra hlines
      rw [hbad hlines] at hrun
      cases hrun
    obtain ⟨result', s', hrun', hread⟩ := hgood hlines
    rw [hrun'] at hrun
    cases hrun
    refine ⟨(hlines line hline).1, fun setting hkey => ?_⟩
    have hentry : (setting, settingValue line) ∈ s.assigned := by
      rw [hread.assigned_eq]
      exact List.mem_flatMap.mpr ⟨line, hline, mem_assignments_iff.mpr ⟨hkey, rfl⟩⟩
    exact ⟨(hlines line hline).2 setting hkey, hfits _ hentry⟩
  · rintro ⟨hmany, hlines⟩
    obtain ⟨result, s, hrun, hread⟩ := hgood fun line hline => (hlines line hline).readable
    have hstays := (getlineCalls_stay_iff hostServer content).mpr hmany
    rw [← setServerStartupParams_getlines hrun] at hstays
    have hentries : ∀ entry ∈ s.assigned, entry.2 ≠ [] ∧ Fits entry := by
      intro entry hentry
      rw [hread.assigned_eq] at hentry
      obtain ⟨line, hline, hmem⟩ := List.mem_flatMap.mp hentry
      obtain ⟨hkey, hvalue⟩ := mem_assignments_iff.mp hmem
      rw [Fits, hvalue]
      exact (hlines line hline).2 entry.1 hkey
    refine ⟨result, s, hrun, hstays, fun entry hentry => (hentries entry hentry).2, ?_⟩
    by_cases hall : ∀ setting, setting ∈ ((fileLines content).flatMap assignments).map Prod.fst
    · right
      refine ⟨hread.complete hall, fun setting => ?_⟩
      obtain ⟨value, hmem, hholds⟩ := hread.held setting (hall setting)
      rw [← hread.assigned_eq] at hmem
      exact ⟨value, (hentries _ hmem).1, hmem, hholds⟩
    · left
      exact hread.incomplete (not_forall.mp hall)

/-- A key with a space and nothing behind it. -/
theorem blankPort_not_clean : ¬ ∀ hostServer content, FailsCleanly hostServer content := by
  intro h
  obtain ⟨result, s, hrun, -⟩ := h {} (bytes "port: \n")
  have hcrash := (setServerStartupParams_spec {} (bytes "port: \n")).2
    fun hlines => (hlines (bytes "port: \n") (by decide)).2 .port (by decide) (by decide)
  rw [hcrash] at hrun
  cases hrun

end HttpsServ.LineBuffer
