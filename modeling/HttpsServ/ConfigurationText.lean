import HttpsServ.Configuration

/-!
# Configurations that are read back

A configuration is written as lines `key value` in any order, with other lines
in between. Every such text is read back, with and without a newline at its end.
-/

namespace HttpsServ.ConfigurationText

open ByteString Utility HttpParser Networking HttpsServ.Configuration Words

/-- A line of a configuration: a setting with its value, or something else. -/
inductive ConfigLine
  | setting (name : Setting)
  | foreign (text : Bytes)

def ConfigLine.text (values : Setting → Bytes) : ConfigLine → Bytes
  | .setting name => name.key ++ bytes " " ++ values name
  | .foreign text => text

/-- The file of these lines, with a newline at its end or without. -/
def configText (values : Setting → Bytes) (lines : List ConfigLine) (finalNewline : Bool) :
    Bytes :=
  let text := lines.flatMap fun line => line.text values ++ [10]
  if finalNewline then text else text.dropLast

/-- A value that stays in its line and in the field it is copied to. -/
structure IsValue (setting : Setting) (value : Bytes) : Prop where
  nonempty : value ≠ []
  no_newline : 10 ∉ value
  no_zero : 0 ∉ value
  fits : Fits (setting, value)

/-- A line that is no setting: it has a character that is no space, and its first
word is no key. -/
structure IsForeign (text : Bytes) : Prop where
  no_newline : 10 ∉ text
  nonblank : ∃ b ∈ cstr text, b ≠ 32
  no_key : ∀ setting : Setting, firstWord text ≠ setting.key

theorem fileLines_line {text : Bytes} (h : 10 ∉ text) (rest : Bytes) :
    fileLines (text ++ 10 :: rest) = (text ++ [10]) :: fileLines rest := by
  induction text with
  | nil => rw [List.nil_append, fileLines, if_pos rfl, List.nil_append]
  | cons b text ih =>
      rw [List.mem_cons, not_or] at h
      rw [List.cons_append, fileLines, if_neg (Ne.symm h.1), ih h.2]
      rfl

theorem fileLines_last {text : Bytes} (h : 10 ∉ text) (hne : text ≠ []) :
    fileLines text = [text] := by
  induction text with
  | nil => exact absurd rfl hne
  | cons b text ih =>
      rw [List.mem_cons, not_or] at h
      rw [fileLines, if_neg (Ne.symm h.1)]
      cases text with
      | nil => rfl
      | cons c text => rw [ih h.2 (List.cons_ne_nil _ _)]

theorem fileLines_lines {texts : List Bytes} (h : ∀ text ∈ texts, 10 ∉ text) (rest : Bytes) :
    fileLines (texts.flatMap (· ++ [10]) ++ rest) = texts.map (· ++ [10]) ++ fileLines rest := by
  induction texts with
  | nil => rfl
  | cons text texts ih =>
      rw [List.forall_mem_cons] at h
      rw [List.flatMap_cons, List.append_assoc, List.append_assoc, List.singleton_append,
        fileLines_line h.1, ih h.2]
      rfl

/-- The end of a line in a file. -/
def IsTail (tail : Bytes) : Prop := tail = [] ∨ tail = [10]

theorem key_plain (setting : Setting) :
    setting.key ≠ [] ∧ 32 ∉ setting.key ∧ 10 ∉ setting.key ∧ 0 ∉ setting.key := by
  cases setting <;> decide

theorem firstWord_setting (setting : Setting) {rest : Bytes} (h : 0 ∉ rest) :
    firstWord (setting.key ++ 32 :: rest) = setting.key ∧
      behindWord (setting.key ++ 32 :: rest) = rest := by
  obtain ⟨hne, hspace, -, hzero⟩ := key_plain setting
  have hcstr : cstr (setting.key ++ 32 :: rest) = setting.key ++ 32 :: rest := by
    apply cstr_of_notMem
    simp [hzero, h]
  have hword : ∀ b ∈ setting.key, (b == 32) = false := by
    intro b hb
    simpa using ne_of_mem_of_not_mem hb hspace
  obtain ⟨hstart, htake, hdrop⟩ := first_word_append hne hword (.inr ⟨32, rest, rfl, rfl⟩)
  constructor
  · rw [firstWord, hcstr, hstart, htake]
  · rw [behindWord, hcstr, hstart, hdrop]
    rfl

theorem setting_line {values : Setting → Bytes} {setting : Setting} {tail : Bytes}
    (hvalue : IsValue setting (values setting)) (htail : IsTail tail) :
    firstWord ((ConfigLine.setting setting).text values ++ tail) = setting.key ∧
      settingValue ((ConfigLine.setting setting).text values ++ tail) = values setting := by
  have hshape : (ConfigLine.setting setting).text values ++ tail =
      setting.key ++ 32 :: (values setting ++ tail) := by
    simp only [ConfigLine.text, List.append_assoc]
    rfl
  have hzero : 0 ∉ values setting ++ tail := by
    rcases htail with rfl | rfl
    · simpa using hvalue.no_zero
    · simpa using hvalue.no_zero
  have hplain : ∀ b ∈ values setting, (b == 10) = false := by
    intro b hb
    simpa using ne_of_mem_of_not_mem hb hvalue.no_newline
  have hback : tail = [] ∨ ∃ d rest, tail = d :: rest ∧ (d == (10 : UInt8)) = true :=
    htail.imp_right fun h => ⟨10, [], h, rfl⟩
  obtain ⟨hfirst, hbehind⟩ := firstWord_setting setting hzero
  obtain ⟨hstart, htake, -⟩ := first_word_append hvalue.nonempty hplain hback
  rw [hshape]
  refine ⟨hfirst, ?_⟩
  rw [settingValue, hbehind, hstart, htake]

theorem foreign_line {text tail : Bytes} (h : IsForeign text) (htail : IsTail tail) :
    firstWord (text ++ tail) ≠ [] ∧ ∀ setting : Setting, firstWord (text ++ tail) ≠ setting.key := by
  have hstart : (cstr text).dropWhile (· == 32) ≠ [] := by
    obtain ⟨b, hb, hne⟩ := h.nonblank
    intro hnil
    exact hne (by simpa using List.dropWhile_eq_nil_iff.mp hnil b hb)
  have hword : firstWord text ≠ [] := by
    rw [firstWord, ne_eq, first_eq_nil_iff]
    exact hstart
  have hcases : firstWord (text ++ tail) = firstWord text ∨ 10 ∈ firstWord (text ++ tail) := by
    rcases htail with rfl | rfl
    · exact .inl (by rw [List.append_nil])
    · by_cases hzero : 0 ∈ text
      · left
        rw [firstWord, cstr_append_of_mem hzero, firstWord]
      · have hcstr : cstr (text ++ [10]) = cstr text ++ [10] := by
          rw [cstr_append_of_notMem hzero, cstr_of_notMem hzero]
          rfl
        rw [firstWord, hcstr, List.dropWhile_append, if_neg (by simpa using hstart),
          List.takeWhile_append]
        split
        · right
          simp
        · left
          rfl
  rcases hcases with heq | hnewline
  · rw [heq]
    exact ⟨hword, h.no_key⟩
  · constructor
    · intro hnil
      rw [hnil] at hnewline
      cases hnewline
    · intro setting hkey
      rw [hkey] at hnewline
      exact (key_plain setting).2.2.1 hnewline

/-- What the lines of a configuration have to be. -/
structure IsConfig (values : Setting → Bytes) (lines : List ConfigLine) : Prop where
  settings : ∀ setting, .setting setting ∈ lines → IsValue setting (values setting)
  foreigns : ∀ text, .foreign text ∈ lines → IsForeign text

/-- All settings, one in each line. -/
theorem isConfig_all {values : Setting → Bytes}
    (hvalues : ∀ setting, IsValue setting (values setting)) :
    IsConfig values (Setting.all.map .setting) := by
  constructor
  · intro setting _
    exact hvalues setting
  · intro text hmem
    simp at hmem

theorem ConfigLine.text_plain {values : Setting → Bytes} {lines : List ConfigLine}
    (h : IsConfig values lines) {line : ConfigLine} (hmem : line ∈ lines) :
    10 ∉ line.text values ∧ line.text values ≠ [] := by
  cases line with
  | setting setting =>
      have hvalue := h.settings setting hmem
      obtain ⟨hne, -, hnewline, -⟩ := key_plain setting
      have hspace : 10 ∉ bytes " " := by decide
      simp [ConfigLine.text, hnewline, hvalue.no_newline, hne, hspace]
  | foreign text =>
      have hforeign := h.foreigns text hmem
      refine ⟨hforeign.no_newline, ?_⟩
      intro hnil
      obtain ⟨b, hb, -⟩ := hforeign.nonblank
      rw [show text = [] from hnil] at hb
      cases hb

theorem fileLines_configText_newline {values : Setting → Bytes} {lines : List ConfigLine}
    (h : IsConfig values lines) :
    fileLines (configText values lines true) = lines.map fun line => line.text values ++ [10] := by
  have hplain : ∀ text ∈ lines.map (ConfigLine.text values), 10 ∉ text := by
    intro text hmem
    obtain ⟨line, hline, rfl⟩ := List.mem_map.mp hmem
    exact (ConfigLine.text_plain h hline).1
  have hlines := fileLines_lines hplain []
  rw [List.flatMap_map, List.append_nil, List.map_map] at hlines
  rw [configText, if_pos rfl, hlines, fileLines, List.append_nil]
  rfl

theorem fileLines_configText_open {values : Setting → Bytes} {lines : List ConfigLine}
    {last : ConfigLine} (h : IsConfig values (lines ++ [last])) :
    fileLines (configText values (lines ++ [last]) false) =
      (lines.map fun line => line.text values ++ [10]) ++ [last.text values] := by
  have hplain : ∀ text ∈ lines.map (ConfigLine.text values), 10 ∉ text := by
    intro text hmem
    obtain ⟨line, hline, rfl⟩ := List.mem_map.mp hmem
    exact (ConfigLine.text_plain h (List.mem_append_left _ hline)).1
  obtain ⟨hnewline, hne⟩ := ConfigLine.text_plain h (List.mem_append_right lines List.mem_cons_self)
  have hlines := fileLines_lines hplain (last.text values)
  rw [List.flatMap_map, List.map_map] at hlines
  have htext : configText values (lines ++ [last]) false =
      (lines.flatMap fun line => line.text values ++ [10]) ++ last.text values := by
    rw [configText, if_neg Bool.false_ne_true, List.flatMap_append, List.flatMap_singleton,
      ← List.append_assoc, List.dropLast_concat]
  rw [htext, hlines, fileLines_last hnewline hne]
  rfl

/-- What is read are the lines, each with its end. -/
theorem mem_fileLines_configText {values : Setting → Bytes} {lines : List ConfigLine}
    (h : IsConfig values lines) (finalNewline : Bool) :
    (∀ read ∈ fileLines (configText values lines finalNewline),
        ∃ line ∈ lines, ∃ tail, IsTail tail ∧ read = line.text values ++ tail) ∧
      (∀ line ∈ lines, ∃ tail, IsTail tail ∧
        line.text values ++ tail ∈ fileLines (configText values lines finalNewline)) := by
  cases finalNewline with
  | true =>
      rw [fileLines_configText_newline h]
      constructor
      · intro read hmem
        obtain ⟨line, hline, rfl⟩ := List.mem_map.mp hmem
        exact ⟨line, hline, [10], .inr rfl, rfl⟩
      · intro line hline
        exact ⟨[10], .inr rfl, List.mem_map.mpr ⟨line, hline, rfl⟩⟩
  | false =>
      obtain rfl | ⟨init, last, rfl⟩ := List.eq_nil_or_concat' lines
      · exact ⟨fun _ hmem => absurd hmem List.not_mem_nil,
          fun _ hline => absurd hline List.not_mem_nil⟩
      · rw [fileLines_configText_open h]
        constructor
        · intro read hmem
          rcases List.mem_append.mp hmem with hinit | hlast
          · obtain ⟨line, hline, rfl⟩ := List.mem_map.mp hinit
            exact ⟨line, List.mem_append_left _ hline, [10], .inr rfl, rfl⟩
          · rw [List.mem_singleton] at hlast
            exact ⟨last, by simp, [], .inl rfl, by rw [hlast, List.append_nil]⟩
        · intro line hline
          rcases List.mem_append.mp hline with hinit | hlast
          · exact ⟨[10], .inr rfl,
              List.mem_append_left _ (List.mem_map.mpr ⟨line, hinit, rfl⟩)⟩
          · rw [List.mem_singleton] at hlast
            refine ⟨[], .inl rfl, List.mem_append_right _ ?_⟩
            rw [hlast, List.append_nil]
            exact List.mem_cons_self

/-- A line of a configuration is readable, and assigns what the configuration says. -/
theorem readable_line {values : Setting → Bytes} {lines : List ConfigLine}
    (h : IsConfig values lines) {line : ConfigLine} (hline : line ∈ lines) {tail : Bytes}
    (htail : IsTail tail) :
    Readable (line.text values ++ tail) ∧
      ∀ entry ∈ assignments (line.text values ++ tail),
        line = .setting entry.1 ∧ entry.2 = values entry.1 := by
  cases line with
  | setting setting =>
      have hvalue := h.settings setting hline
      obtain ⟨hword, hread⟩ := setting_line hvalue htail
      refine ⟨⟨?_, fun _ _ => ?_⟩, fun entry hentry => ?_⟩
      · rw [hword]
        exact (key_plain setting).1
      · rw [hread]
        exact hvalue.nonempty
      · obtain ⟨hkey, hentry⟩ := mem_assignments_iff.mp hentry
        rw [hword] at hkey
        rw [hentry, hread, ← key_injective hkey]
        exact ⟨rfl, rfl⟩
  | foreign text =>
      obtain ⟨hword, hkeys⟩ := foreign_line (h.foreigns text hline) htail
      refine ⟨⟨hword, fun setting hkey => absurd hkey (hkeys setting)⟩, fun entry hentry => ?_⟩
      exact absurd (mem_assignments_iff.mp hentry).1 (hkeys entry.1)

/-- All lines are read. -/
theorem readable_configText {values : Setting → Bytes} {lines : List ConfigLine}
    (h : IsConfig values lines) (finalNewline : Bool) :
    ∀ read ∈ fileLines (configText values lines finalNewline), Readable read := by
  intro read hmem
  obtain ⟨line, hline, tail, htail, rfl⟩ := (mem_fileLines_configText h finalNewline).1 read hmem
  exact (readable_line h hline htail).1

/-- The values assigned are those of the configuration. -/
theorem assigned_configText {values : Setting → Bytes} {lines : List ConfigLine}
    (h : IsConfig values lines) (finalNewline : Bool) (entry : Setting × Bytes) :
    entry ∈ (fileLines (configText values lines finalNewline)).flatMap assignments ↔
      .setting entry.1 ∈ lines ∧ entry.2 = values entry.1 := by
  obtain ⟨hreads, hlines⟩ := mem_fileLines_configText h finalNewline
  rw [List.mem_flatMap]
  constructor
  · rintro ⟨read, hmem, hentry⟩
    obtain ⟨line, hline, tail, htail, rfl⟩ := hreads read hmem
    obtain ⟨rfl, hvalue⟩ := (readable_line h hline htail).2 entry hentry
    exact ⟨hline, hvalue⟩
  · rintro ⟨hline, hvalue⟩
    obtain ⟨tail, htail, hmem⟩ := hlines _ hline
    obtain ⟨hword, hread⟩ := setting_line (h.settings entry.1 hline) htail
    exact ⟨_, hmem, mem_assignments_iff.mpr ⟨hword, by rw [hread, hvalue]⟩⟩

theorem named_configText {values : Setting → Bytes} {lines : List ConfigLine}
    (h : IsConfig values lines) (finalNewline : Bool) (setting : Setting) :
    setting ∈ ((fileLines (configText values lines finalNewline)).flatMap assignments).map
        Prod.fst ↔ .setting setting ∈ lines := by
  rw [List.mem_map]
  constructor
  · rintro ⟨entry, hentry, rfl⟩
    exact ((assigned_configText h finalNewline entry).mp hentry).1
  · intro hline
    exact ⟨(setting, values setting), (assigned_configText h finalNewline _).mpr ⟨hline, rfl⟩, rfl⟩

/-- Every configuration is read back; one that leaves a setting out is refused. -/
theorem configuration_roundTrip (values : Setting → Bytes) (lines : List ConfigLine)
    (hsettings : ∀ setting, .setting setting ∈ lines → IsValue setting (values setting))
    (hforeigns : ∀ text, .foreign text ∈ lines → IsForeign text)
    (finalNewline : Bool) (hostServer : Server) :
    ∃ result s,
      setServerStartupParams (confFile (configText values lines finalNewline)) hostServer =
        some (result, s) ∧
      (∀ entry ∈ s.assigned, Fits entry) ∧
      ((∀ setting, .setting setting ∈ lines) →
        result = 0 ∧ ∀ setting, Holds s.server (values setting) setting) ∧
      ((∃ setting, .setting setting ∉ lines) → result = otherError) := by
  have h : IsConfig values lines := ⟨hsettings, hforeigns⟩
  obtain ⟨result, s, hrun, hread⟩ :=
    (setServerStartupParams_spec hostServer (configText values lines finalNewline)).1
      (readable_configText h finalNewline)
  refine ⟨result, s, hrun, ?_, ?_, ?_⟩
  · intro entry hentry
    rw [hread.assigned_eq] at hentry
    obtain ⟨hline, hvalue⟩ := (assigned_configText h finalNewline entry).mp hentry
    have hfits := (hsettings entry.1 hline).fits
    rwa [← hvalue] at hfits
  · intro hall
    refine ⟨hread.complete fun setting => ?_, fun setting => ?_⟩
    · exact (named_configText h finalNewline setting).mpr (hall setting)
    · obtain ⟨value, hmem, hholds⟩ :=
        hread.held setting ((named_configText h finalNewline setting).mpr (hall setting))
      have hvalue : value = values setting := ((assigned_configText h finalNewline _).mp hmem).2
      rwa [← hvalue]
  · rintro ⟨setting, habsent⟩
    apply hread.incomplete
    exact ⟨setting, fun hmem => habsent ((named_configText h finalNewline setting).mp hmem)⟩

/-- The values of the file that is shipped. -/
def defaultValues : Setting → Bytes
  | .port => bytes "3050"
  | .host => bytes "::1"
  | .backlog => bytes "1"
  | .defaultDocument => bytes "index.html"
  | .rootFolder => bytes "../Static"
  | .crtFilePath => bytes "../private/cert.pem"
  | .pkeyFilePath => bytes "../private/key.pem"

/-- The file that is shipped. -/
def defaultConf : Bytes := configText defaultValues (Setting.all.map .setting) false

example : defaultConf = ([10] : Bytes).intercalate
    [bytes "port: 3050", bytes "host: ::1", bytes "backlog: 1",
      bytes "default_document: index.html", bytes "root_folder: ../Static",
      bytes "crt_file_path: ../private/cert.pem", bytes "pkey_file_path: ../private/key.pem"] := by
  decide +kernel

theorem isValue_default (setting : Setting) : IsValue setting (defaultValues setting) := by
  cases setting <;> exact ⟨by decide, by decide, by decide, ⟨by decide, by decide⟩⟩

theorem configuration_roundTrip_default :
    ∃ s, setServerStartupParams (confFile defaultConf) {} = some (0, s) ∧
      s.server.sPort = bytes "3050" ∧ s.server.sHost = bytes "::1" ∧ s.server.backlog = 1 ∧
      s.server.defaultDocument = some (bytes "index.html") := by
  have hconfig : IsConfig defaultValues (Setting.all.map .setting) := isConfig_all isValue_default
  obtain ⟨result, s, hrun, -, hall, -⟩ := configuration_roundTrip defaultValues
    (Setting.all.map .setting) hconfig.settings hconfig.foreigns false {}
  obtain ⟨rfl, hholds⟩ := hall fun setting => List.mem_map_of_mem (mem_all setting)
  refine ⟨s, hrun, hholds .port, hholds .host, ?_, hholds .defaultDocument⟩
  calc s.server.backlog = atoi (defaultValues .backlog) := hholds .backlog
    _ = 1 := by decide

end HttpsServ.ConfigurationText
