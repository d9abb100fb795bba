import HttpsServ.Networking
import HttpsServ.PathSanitizer
import HttpsServ.Library.Words

/-!
# The configuration file

A line is cut at its first space; a first word that is a key makes the rest of
the line the value of a setting. A line without a word, or with a key and no
value, hands a `NULL` token on; every other line is read.
-/

namespace HttpsServ.Configuration

open ByteString Utility HttpParser PathSanitizer Networking Words

theorem mem_all (setting : Setting) : setting ∈ Setting.all := by
  cases setting <;> decide

theorem key_injective {x y : Setting} (h : x.key = y.key) : x = y := by
  have hkeys : (Setting.all.map Setting.key).Nodup := by decide
  exact List.inj_on_of_nodup_map hkeys (mem_all x) (mem_all y) h

/-- The place of a setting's bit in `integrity_test`. -/
def index : Setting → Nat
  | .port => 0
  | .host => 1
  | .backlog => 2
  | .defaultDocument => 3
  | .rootFolder => 4
  | .crtFilePath => 5
  | .pkeyFilePath => 6

theorem bit_eq (setting : Setting) : setting.bit = 2 ^ index setting := by
  cases setting <;> rfl

theorem index_lt (setting : Setting) : index setting < 7 := by
  cases setting <;> decide

theorem exists_index {i : Nat} (h : i < 7) : ∃ setting, index setting = i := by
  match i with
  | 0 => exact ⟨.port, rfl⟩
  | 1 => exact ⟨.host, rfl⟩
  | 2 => exact ⟨.backlog, rfl⟩
  | 3 => exact ⟨.defaultDocument, rfl⟩
  | 4 => exact ⟨.rootFolder, rfl⟩
  | 5 => exact ⟨.crtFilePath, rfl⟩
  | 6 => exact ⟨.pkeyFilePath, rfl⟩
  | i + 7 => omega

theorem index_injective {x y : Setting} (h : index x = index y) : x = y := by
  have hindices : (Setting.all.map index).Nodup := by decide
  exact List.inj_on_of_nodup_map hindices (mem_all x) (mem_all y) h

def mask (settings : List Setting) (integrityTest : Nat) : Nat :=
  settings.foldl (fun integrityTest setting => integrityTest ||| setting.bit) integrityTest

theorem testBit_mask (settings : List Setting) (n i : Nat) :
    (mask settings n).testBit i = true ↔
      n.testBit i = true ∨ ∃ setting ∈ settings, index setting = i := by
  induction settings generalizing n with
  | nil => simp [mask]
  | cons setting settings ih =>
      have hstep : mask (setting :: settings) n = mask settings (n ||| setting.bit) := rfl
      rw [hstep, ih, Nat.testBit_or, bit_eq, Nat.testBit_two_pow]
      simp [or_assoc]

/-- The mask is complete when every setting has been seen. -/
theorem mask_eq_iff (settings : List Setting) :
    mask settings 0 = 127 ↔ ∀ setting, setting ∈ settings := by
  have hfull : ∀ i, Nat.testBit 127 i = true ↔ i < 7 := by
    intro i
    rw [show (127 : Nat) = 2 ^ 7 - 1 from rfl, Nat.testBit_two_pow_sub_one, decide_eq_true_iff]
  constructor
  · intro h setting
    have hbit := testBit_mask settings 0 (index setting)
    rw [h, hfull, Nat.zero_testBit] at hbit
    obtain ⟨seen, hseen, heq⟩ := (hbit.mp (index_lt setting)).resolve_left Bool.false_ne_true
    rwa [← index_injective heq]
  · intro h
    apply Nat.eq_of_testBit_eq
    intro i
    rw [Bool.eq_iff_iff, testBit_mask, hfull, Nat.zero_testBit]
    constructor
    · rintro (hzero | ⟨setting, -, rfl⟩)
      · cases hzero
      · exact index_lt setting
    · intro hi
      obtain ⟨setting, rfl⟩ := exists_index hi
      exact .inr ⟨setting, h setting, rfl⟩

/-- The first word of a line. -/
def firstWord (line : Bytes) : Bytes :=
  ((cstr line).dropWhile (· == 32)).takeWhile fun b => !(b == 32)

/-- What is behind the first word and the space that ends it. -/
def behindWord (line : Bytes) : Bytes :=
  (((cstr line).dropWhile (· == 32)).dropWhile fun b => !(b == 32)).drop 1

/-- What is behind the first word, without newlines. -/
def settingValue (line : Bytes) : Bytes :=
  ((behindWord line).dropWhile (· == 10)).takeWhile fun b => !(b == 10)

/-- The settings that a line assigns. -/
def assignments (line : Bytes) : List (Setting × Bytes) :=
  (Setting.all.filter fun setting => firstWord line = setting.key).map fun setting =>
    (setting, settingValue line)

/-- A line that is read to its end: there is a word, and behind a key a value. -/
def Readable (line : Bytes) : Prop :=
  firstWord line ≠ [] ∧ ∀ setting : Setting, firstWord line = setting.key → settingValue line ≠ []

/-- The token of `strtok_r` is the word behind the delimiters, `NULL` without one. -/
theorem strtok_word_eq (isDelim : UInt8 → Bool) (s : Bytes) :
    let word := (s.dropWhile isDelim).takeWhile fun b => !isDelim b
    (word = [] → strtok isDelim s = (none, [])) ∧
      (word ≠ [] → strtok isDelim s =
        (some word, ((s.dropWhile isDelim).dropWhile fun b => !isDelim b).drop 1)) := by
  intro word
  constructor
  · intro h
    rw [strtok, if_pos ((first_eq_nil_iff s).mp h)]
  · intro h
    rw [strtok, if_neg fun hnil => h ((first_eq_nil_iff s).mpr hnil)]

/-- The same for the cursor of the line buffer. -/
theorem startup_strtok (s : Startup) (isDelim : UInt8 → Bool) :
    let word := (s.conf.dropWhile isDelim).takeWhile fun b => !isDelim b
    (word = [] → (s.strtok isDelim).1 = none) ∧
      (word ≠ [] → ∃ offset, s.strtok isDelim =
        (some word,
          { s with
            conf := ((s.conf.dropWhile isDelim).dropWhile fun b => !isDelim b).drop 1
            offset := offset })) := by
  intro word
  obtain ⟨hnull, htoken⟩ := strtok_word_eq isDelim s.conf
  constructor
  · intro h
    rw [Startup.strtok, hnull h]
  · intro h
    rw [Startup.strtok, htoken h]
    exact ⟨_, rfl⟩

/-- Settings that the token does not name are passed over. -/
theorem foldlM_matchSetting_other {token : Bytes} {settings : List Setting}
    (h : ∀ setting ∈ settings, token ≠ setting.key) (s : Startup) :
    settings.foldlM (matchSetting token) s = some s := by
  induction settings with
  | nil => rfl
  | cons setting settings ih =>
      rw [List.forall_mem_cons] at h
      rw [List.foldlM_cons, matchSetting, if_neg h.1]
      exact ih h.2

/-- A token that names a setting goes to the branch of that setting. -/
theorem foldlM_matchSetting_key (setting : Setting) (s : Startup) :
    Setting.all.foldlM (matchSetting setting.key) s = matchSetting setting.key s setting := by
  obtain ⟨before, after, hsplit⟩ := List.append_of_mem (mem_all setting)
  have hnodup : (before ++ setting :: after).Nodup := by
    rw [← hsplit]
    decide
  have hother : ∀ other ∈ before ++ after, setting.key ≠ other.key := by
    intro other hmem heq
    rw [key_injective heq] at hnodup
    exact (List.nodup_middle.mp hnodup).notMem hmem
  rw [hsplit, List.foldlM_append,
    foldlM_matchSetting_other fun other h => hother other (List.mem_append_left _ h)]
  rw [Option.bind_eq_bind, Option.bind_some, List.foldlM_cons]
  cases hmatch : matchSetting setting.key s setting with
  | none => rfl
  | some s' =>
      exact foldlM_matchSetting_other (fun other h => hother other (List.mem_append_right _ h)) s'

theorem assignments_key {line : Bytes} {setting : Setting} (h : firstWord line = setting.key) :
    assignments line = [(setting, settingValue line)] := by
  have hfilter : (Setting.all.filter fun other => firstWord line = other.key) = [setting] := by
    rw [h]
    cases setting <;> decide
  rw [assignments, hfilter]
  rfl

theorem assignments_other {line : Bytes} (h : ∀ setting : Setting, firstWord line ≠ setting.key) :
    assignments line = [] := by
  rw [assignments, List.filter_eq_nil_iff.mpr]
  · rfl
  · intro setting _
    simpa using h setting

/-- The variables that a run of assignments changes. -/
structure Assigns (s s' : Startup) (assigned : List (Setting × Bytes)) : Prop where
  assigned_eq : s'.assigned = s.assigned ++ assigned
  server_eq : s'.server = assigned.foldl (fun server entry => server.set entry.2 entry.1) s.server
  integrityTest_eq : s'.integrityTest = mask (assigned.map Prod.fst) s.integrityTest

theorem Assigns.trans {s s' s'' : Startup} {first second : List (Setting × Bytes)}
    (h : Assigns s s' first) (h' : Assigns s' s'' second) : Assigns s s'' (first ++ second) := by
  constructor
  · rw [h'.assigned_eq, h.assigned_eq, List.append_assoc]
  · rw [h'.server_eq, h.server_eq, List.foldl_append]
  · rw [h'.integrityTest_eq, h.integrityTest_eq, List.map_append, mask, mask, mask,
      List.foldl_append]

/-- The branch of a setting stores the value, or uses a `NULL` token. -/
theorem matchSetting_spec (s : Startup) (setting : Setting) :
    let value := (s.conf.dropWhile (· == 10)).takeWhile fun b => !(b == 10)
    (value = [] → matchSetting setting.key s setting = none) ∧
      (value ≠ [] → ∃ s', matchSetting setting.key s setting = some s' ∧
        Assigns s s' [(setting, value)]) := by
  intro value
  obtain ⟨hnull, htoken⟩ := startup_strtok s (· == 10)
  constructor
  · intro h
    have hnone := hnull h
    rw [matchSetting, if_pos rfl]
    cases hstrtok : s.strtok (· == 10) with
    | mk token s' =>
        rw [hstrtok] at hnone
        cases hnone
        rfl
  · intro h
    obtain ⟨offset, hstrtok⟩ := htoken h
    rw [matchSetting, if_pos rfl, hstrtok]
    exact ⟨_, rfl, rfl, rfl, rfl⟩

/-- Reading a line: a readable one makes its assignments, any other uses a `NULL` token. -/
theorem readSetting_spec (s : Startup) (line : Bytes) :
    (Readable line → ∃ s', readSetting s line = some s' ∧ Assigns s s' (assignments line)) ∧
      (¬ Readable line → readSetting s line = none) := by
  obtain ⟨hnull, htoken⟩ := startup_strtok (s.getline line) (· == 32)
  by_cases hword : firstWord line = []
  · refine ⟨fun h => absurd hword h.1, fun _ => ?_⟩
    have hnone := hnull hword
    rw [readSetting]
    cases hstrtok : (s.getline line).strtok (· == 32) with
    | mk token s' =>
        rw [hstrtok] at hnone
        cases hnone
        rfl
  · obtain ⟨offset, hstrtok⟩ := htoken hword
    have hread : readSetting s line = Setting.all.foldlM (matchSetting (firstWord line))
        { s.getline line with conf := behindWord line, offset := offset } := by
      rw [readSetting, hstrtok]
      rfl
    by_cases hkey : ∃ setting : Setting, firstWord line = setting.key
    · obtain ⟨setting, hkey⟩ := hkey
      obtain ⟨hmissing, hfound⟩ := matchSetting_spec
        { s.getline line with conf := behindWord line, offset := offset } setting
      rw [hread, hkey, foldlM_matchSetting_key, assignments_key hkey]
      constructor
      · rintro ⟨-, hvalue⟩
        obtain ⟨s', hsome, hassigns⟩ := hfound (hvalue setting hkey)
        exact ⟨s', hsome, hassigns.assigned_eq, hassigns.server_eq, hassigns.integrityTest_eq⟩
      · intro hbad
        apply hmissing
        by_contra hvalue
        apply hbad
        refine ⟨hword, fun other hother => ?_⟩
        exact hvalue
    · have hother : ∀ setting : Setting, firstWord line ≠ setting.key :=
        fun setting h => hkey ⟨setting, h⟩
      rw [hread, foldlM_matchSetting_other fun setting _ => hother setting,
        assignments_other hother]
      constructor
      · intro _
        exact ⟨_, rfl, (List.append_nil _).symm, rfl, rfl⟩
      · intro hbad
        exact absurd ⟨hword, fun setting h => absurd h (hother setting)⟩ hbad

theorem foldlM_readSetting_spec (lines : List Bytes) (s : Startup) :
    ((∀ line ∈ lines, Readable line) →
        ∃ s', lines.foldlM readSetting s = some s' ∧ Assigns s s' (lines.flatMap assignments)) ∧
      (¬ (∀ line ∈ lines, Readable line) → lines.foldlM readSetting s = none) := by
  induction lines generalizing s with
  | nil => exact ⟨fun _ => ⟨s, rfl, (List.append_nil _).symm, rfl, rfl⟩, fun h => absurd (by simp) h⟩
  | cons line lines ih =>
      obtain ⟨hgood, hbad⟩ := readSetting_spec s line
      rw [List.forall_mem_cons, List.foldlM_cons, List.flatMap_cons]
      by_cases hline : Readable line
      · obtain ⟨s', hread, hassigns⟩ := hgood hline
        obtain ⟨hrest, hfail⟩ := ih s'
        rw [hread, Option.bind_eq_bind, Option.bind_some]
        constructor
        · rintro ⟨-, hlines⟩
          obtain ⟨s'', hruns, hassigns'⟩ := hrest hlines
          exact ⟨s'', hruns, hassigns.trans hassigns'⟩
        · intro h
          exact hfail fun hlines => h ⟨hline, hlines⟩
      · rw [hbad hline]
        exact ⟨fun h => absurd h.1 hline, fun _ => rfl⟩

/-- The file that is there is `default.conf`, with this content. -/
def confFile (content : Bytes) : Bytes → Option FileImage := fun name =>
  if name = bytes "../default.conf" then some ⟨content, content.length⟩ else none

theorem staticFileName_conf :
    staticFileName (bytes "/default.conf") (bytes "..") = some (bytes "../default.conf") := by
  have hclean : unspaced (blanked (bytes "/default.conf")) = bytes "/default.conf" := by
    rw [blanked_of_none (by decide)]
    decide
  simp only [staticFileName, getFilePosition_src, getFilePosition_position, hclean]
  decide

theorem openStaticFile_conf (content : Bytes) :
    openStaticFile (confFile content) (bytes "/default.conf") (bytes "..") none =
      ((content.length : Int), some { unread := content }) := by
  simp only [openStaticFile, staticFileName_conf, confFile, if_true]

/-- The variables in front of the loop. -/
def startup (hostServer : Server) (content : Bytes) : Startup where
  server := { hostServer with backlog := 10 }
  conf := []
  offset := 0
  size := content.length
  integrityTest := 0
  assigned := []
  getlines := []

theorem setServerStartupParams_eq (hostServer : Server) (content : Bytes) :
    setServerStartupParams (confFile content) hostServer =
      ((fileLines content).foldlM readSetting (startup hostServer content)).map fun s =>
        (if s.integrityTest ≠ 127 then otherError else 0, s) := by
  simp only [setServerStartupParams, openStaticFile_conf, Option.elim_some]
  rw [if_neg (by omega)]
  rfl

/-- The server holds the value of the setting. -/
def Holds (server : Server) (value : Bytes) : Setting → Prop
  | .port => server.sPort = value
  | .host => server.sHost = value
  | .backlog => server.backlog = atoi value
  | .defaultDocument => server.defaultDocument = some value
  | .rootFolder => server.rootFolder = some value
  | .crtFilePath => server.crtFilePath = some value
  | .pkeyFilePath => server.pkeyFilePath = some value

theorem holds_set (server : Server) (value : Bytes) (setting : Setting) :
    Holds (server.set value setting) value setting := by
  cases setting <;> rfl

theorem holds_set_of_ne {server : Server} {value value' : Bytes} {setting setting' : Setting}
    (hne : setting ≠ setting') (h : Holds server value setting) :
    Holds (server.set value' setting') value setting := by
  cases setting' <;> cases setting <;> first | exact h | exact absurd rfl hne

/-- After a run of assignments the last value of a setting is the one that is held. -/
theorem holds_of_assigned {setting : Setting} {assigned : List (Setting × Bytes)}
    (h : setting ∈ assigned.map Prod.fst) (server : Server) :
    ∃ value, (setting, value) ∈ assigned ∧
      Holds (assigned.foldl (fun server entry => server.set entry.2 entry.1) server) value
        setting := by
  induction assigned using List.reverseRecOn with
  | nil => cases h
  | append_singleton assigned entry ih =>
      rw [List.foldl_append]
      by_cases hlast : setting = entry.1
      · rw [hlast]
        exact ⟨entry.2, by simp, holds_set _ _ _⟩
      · have hearlier : setting ∈ assigned.map Prod.fst := by
          simpa [hlast] using h
        obtain ⟨value, hmem, hholds⟩ := ih hearlier
        exact ⟨value, List.mem_append_left _ hmem, holds_set_of_ne hlast hholds⟩

/-- What the function returns and leaves when it has made these assignments. -/
structure ReadAll (assigned : List (Setting × Bytes)) (result : Int) (s : Startup) : Prop where
  assigned_eq : s.assigned = assigned
  complete : (∀ setting, setting ∈ assigned.map Prod.fst) → result = 0
  incomplete : (∃ setting, setting ∉ assigned.map Prod.fst) → result = otherError
  held : ∀ setting ∈ assigned.map Prod.fst,
    ∃ value, (setting, value) ∈ assigned ∧ Holds s.server value setting

/-- `SetServerStartupParams` on a file: readable lines are all read; an unreadable one
makes it use a `NULL` token. -/
theorem setServerStartupParams_spec (hostServer : Server) (content : Bytes) :
    ((∀ line ∈ fileLines content, Readable line) →
        ∃ result s, setServerStartupParams (confFile content) hostServer = some (result, s) ∧
          ReadAll ((fileLines content).flatMap assignments) result s) ∧
      (¬ (∀ line ∈ fileLines content, Readable line) →
        setServerStartupParams (confFile content) hostServer = none) := by
  obtain ⟨hgood, hbad⟩ := foldlM_readSetting_spec (fileLines content) (startup hostServer content)
  rw [setServerStartupParams_eq]
  constructor
  · intro hlines
    obtain ⟨s, hrun, hassigns⟩ := hgood hlines
    have hmask := hassigns.integrityTest_eq
    rw [hrun, Option.map_some]
    refine ⟨_, s, rfl, hassigns.assigned_eq, ?_, ?_, ?_⟩
    · intro hall
      rw [if_neg]
      rw [hmask, not_not]
      exact (mask_eq_iff _).mpr hall
    · rintro ⟨setting, habsent⟩
      rw [if_pos]
      intro hfull
      rw [hmask] at hfull
      exact habsent ((mask_eq_iff _).mp hfull setting)
    · intro setting hmem
      rw [hassigns.server_eq]
      exact holds_of_assigned hmem _
  · intro hlines
    rw [hbad hlines, Option.map_none]

/-- A line with a word and, behind a key, a value that fits where it is copied to. -/
def WellFormed (line : Bytes) : Prop :=
  firstWord line ≠ [] ∧ ∀ setting : Setting, firstWord line = setting.key →
    settingValue line ≠ [] ∧
      (setting = .port → (settingValue line).length + 1 ≤ maxPortlen) ∧
      (setting = .host → (settingValue line).length + 1 ≤ inet6Addrstrlen)

/-- The copy of a value with its zero fits into the field. -/
def Fits (entry : Setting × Bytes) : Prop :=
  (entry.1 = .port → entry.2.length + 1 ≤ maxPortlen) ∧
    (entry.1 = .host → entry.2.length + 1 ≤ inet6Addrstrlen)

theorem WellFormed.readable {line : Bytes} (h : WellFormed line) : Readable line :=
  ⟨h.1, fun setting hkey => (h.2 setting hkey).1⟩

theorem mem_assignments_iff {line : Bytes} {entry : Setting × Bytes} :
    entry ∈ assignments line ↔ firstWord line = entry.1.key ∧ entry.2 = settingValue line := by
  simp only [assignments, List.mem_map, List.mem_filter, decide_eq_true_iff]
  constructor
  · rintro ⟨setting, ⟨-, hkey⟩, rfl⟩
    exact ⟨hkey, rfl⟩
  · rintro ⟨hkey, hvalue⟩
    exact ⟨entry.1, ⟨mem_all _, hkey⟩, by rw [← hvalue]⟩

end HttpsServ.Configuration
