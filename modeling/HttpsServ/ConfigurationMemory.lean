import HttpsServ.ConnectionMemory
import HttpsServ.LineBuffer

/-!
# The memory of the configuration

`SetServerStartupParams` reads its lines into one block, whose pointer it moves along
with the tokens, and copies the strings of the settings into blocks of their own. A
setting that is named again takes another block, and its first one is lost. A line as
long as the file moves the block of the lines under the pointer that is freed.
-/

namespace HttpsServ.ConfigurationMemory

open ByteString Utility HttpParser Networking HttpsServ.Configuration HeapProgram LineBuffer
open ConnectionMemory (NullableCell)

/-- `struct Server`: the fields of a fixed size, and where the strings stand. -/
structure HeldServer where
  sPort : Bytes := []
  sHost : Bytes := []
  backlog : Int := 0
  defaultDocument : Option Nat := none
  rootFolder : Option Nat := none
  crtFilePath : Option Nat := none
  pkeyFilePath : Option Nat := none

/-- The variables of `SetServerStartupParams`; `conf` points to the place `offset` of the
block `address`. -/
structure HeldStartup where
  server : HeldServer
  address : Nat
  offset : Nat
  size : Nat
  integrityTest : Nat

/-- `strtok_r` puts a zero over the delimiter behind the token. -/
def HeldStartup.endToken (s : HeldStartup) (isDelim : UInt8 → Bool) (conf : Bytes) : Program Unit :=
  let tokenEnd := (conf.dropWhile isDelim).dropWhile fun b => !isDelim b
  if tokenEnd = [] then pure ()
  else memcpy s.address (s.offset + (conf.length - tokenEnd.length)) [0]

/-- `strtok_r` on `conf`. -/
def HeldStartup.strtok (s : HeldStartup) (isDelim : UInt8 → Bool) :
    Program (Option Bytes × HeldStartup) := do
  let conf ← loadTextAt s.address s.offset
  s.endToken isDelim conf
  let (token, rest) := HttpParser.strtok isDelim conf
  pure (token, { s with offset := s.offset + (conf.length - rest.length) })

/-- `getline`: the line and a zero at `conf`. A block that is too small by `n` is moved,
unless `conf` points into it. -/
def HeldStartup.getline (s : HeldStartup) (line : Bytes) : Program HeldStartup :=
  if line.length + 1 ≤ s.size then do
    memcpy s.address s.offset (line ++ [0])
    pure s
  else if s.offset = 0 then do
    let size := max (2 * s.size) (line.length + 1)
    let address ← reallocChars s.address size
    memcpy address 0 (line ++ [0])
    pure { s with address := address, size := size }
  else undefined

/-- A value in a block of its own. -/
def copyValue (value : Bytes) : Program Nat := do
  let address ← mallocChars (value.length + 1)
  strcpy address value
  pure address

/-- What a setting's branch stores. -/
def HeldServer.set (server : HeldServer) (value : Bytes) : Setting → Program HeldServer
  | .port =>
      if value.length + 1 ≤ maxPortlen then pure { server with sPort := value } else undefined
  | .host =>
      if value.length + 1 ≤ inet6Addrstrlen then pure { server with sHost := value } else undefined
  | .backlog => pure { server with backlog := atoi value }
  | .defaultDocument => do
      let address ← copyValue value
      pure { server with defaultDocument := some address }
  | .rootFolder => do
      let address ← copyValue value
      pure { server with rootFolder := some address }
  | .crtFilePath => do
      let address ← copyValue value
      pure { server with crtFilePath := some address }
  | .pkeyFilePath => do
      let address ← copyValue value
      pure { server with pkeyFilePath := some address }

/-- The value that a setting's branch has found. -/
def storeSetting (setting : Setting) (found : Option Bytes × HeldStartup) :
    Program HeldStartup :=
  match found with
  | (none, _) => undefined
  | (some value, s) => do
      let server ← s.server.set value setting
      pure { s with server := server, integrityTest := s.integrityTest ||| setting.bit }

def matchSetting (token : Bytes) (s : HeldStartup) (setting : Setting) : Program HeldStartup :=
  if token = setting.key then do
    let found ← s.strtok (· == 10)
    storeSetting setting found
  else pure s

/-- The token of a line is compared with every key. -/
def matchSettings (found : Option Bytes × HeldStartup) : Program HeldStartup :=
  match found with
  | (none, _) => undefined
  | (some token, s) => Setting.all.foldlM (matchSetting token) s

def readSetting (s : HeldStartup) (line : Bytes) : Program HeldStartup := do
  let s ← s.getline line
  let found ← s.strtok (· == 32)
  matchSettings found

def setServerStartupParams (fopen : Bytes → Option FileImage) (hostServer : HeldServer) :
    Program (Int × HeldServer) :=
  let (ret, confFile) := openStaticFile fopen (bytes "/default.conf") (bytes "..") none
  if ret < 0 then pure (otherError, hostServer)
  else do
    let conf ← mallocChars (ret.toNat + 1)
    let s ← (fileLines (confFile.elim [] OpenFile.unread)).foldlM readSetting
      { server := { hostServer with backlog := 10 }, address := conf, offset := 0
        size := ret.toNat, integrityTest := 0 }
    free conf
    pure (if s.integrityTest ≠ 127 then otherError else 0, s.server)

/-- The strings that `FreeServerParams` and `ServerTlsFree` give back. -/
def freeServerParams (server : HeldServer) : Program Unit := do
  freeNullable server.rootFolder
  freeNullable server.defaultDocument
  freeNullable server.crtFilePath
  freeNullable server.pkeyFilePath

theorem strtok_rest (isDelim : UInt8 → Bool) (s : Bytes) :
    (HttpParser.strtok isDelim s).2 =
      ((s.dropWhile isDelim).dropWhile fun b => !isDelim b).drop 1 := by
  rw [HttpParser.strtok]
  split
  · rename_i hstart
    rw [hstart]
    rfl
  · rfl

section Tokens

variable {S t : Multiset (Nat × Block)} {s : HeldStartup} {size : Nat} {written conf : Bytes}

/-- What stands behind the token stays, when the token is ended. -/
theorem HeldStartup.endToken_triple (hs : S = t + cell s.address (.chars size written))
    (hfits : written.length ≤ size) (h : StandsAt written s.offset conf)
    (isDelim : UInt8 → Bool) :
    Triple S (s.endToken isDelim conf) fun _ u =>
      ∃ written', u = t + cell s.address (.chars size written') ∧
        written'.length = written.length ∧
        StandsAt written' (s.offset + (conf.length - (HttpParser.strtok isDelim conf).2.length))
          (HttpParser.strtok isDelim conf).2 := by
  obtain ⟨front, back, hwritten, hfront, hzero⟩ := h
  rw [strtok_rest, HeldStartup.endToken]
  cases htokenEnd : (conf.dropWhile isDelim).dropWhile fun b => !isDelim b with
  | nil =>
      rw [if_pos rfl, List.drop_nil]
      refine Triple.pure ⟨written, hs, rfl, front ++ conf, back, ?_, ?_, List.not_mem_nil⟩
      · rw [hwritten, List.append_assoc]
        rfl
      · rw [List.length_append, hfront]
        rfl
  | cons d rest =>
      obtain ⟨head, hhead⟩ : d :: rest <:+ conf := by
        rw [← htokenEnd]
        exact (List.dropWhile_suffix _).trans (List.dropWhile_suffix _)
      have hplace : s.offset + (conf.length - (d :: rest).length) = (front ++ head).length := by
        rw [← hhead, List.length_append, Nat.add_sub_cancel, List.length_append, hfront]
      have hsplit : written = (front ++ head) ++ ([d] ++ (rest ++ 0 :: back)) := by
        rw [hwritten, ← hhead]
        simp
      have hlength : written.length = (front ++ head).length + 1 + (rest ++ 0 :: back).length := by
        rw [hsplit]
        simp only [List.length_append, List.length_cons, List.length_nil]
        omega
      have hstored : written.take (front ++ head).length ++ [0] ++
          written.drop ((front ++ head).length + [(0 : UInt8)].length) =
            (front ++ head ++ [0]) ++ (rest ++ 0 :: back) := by
        rw [hsplit, List.take_left, ← List.append_assoc (front ++ head) [d],
          List.drop_left' (by rw [List.length_append]; rfl)]
      rw [if_neg (List.cons_ne_nil _ _), hplace]
      have hroom : (front ++ head).length + [(0 : UInt8)].length ≤ size := by
        rw [List.length_singleton]
        omega
      apply (memcpy_triple hs (by omega) hroom).mono
      rintro _ _ rfl
      rw [hstored, List.drop_one, List.tail_cons]
      refine ⟨_, rfl, ?_, front ++ head ++ [0], back, rfl, ?_, ?_⟩
      · rw [hlength, List.length_append, List.length_append, List.length_singleton]
      · simp only [← hhead, List.length_append, List.length_cons, List.length_nil, hfront]
        omega
      · intro hmem
        exact hzero (hhead ▸ List.mem_append_right _ (List.mem_cons_of_mem _ hmem))

theorem HeldStartup.strtok_triple (hs : S = t + cell s.address (.chars size written))
    (hfits : written.length ≤ size) (h : StandsAt written s.offset conf)
    (isDelim : UInt8 → Bool) :
    Triple S (s.strtok isDelim) fun found u =>
      ∃ offset written', offset = s.offset +
          (conf.length - (HttpParser.strtok isDelim conf).2.length) ∧
        found = ((HttpParser.strtok isDelim conf).1, { s with offset := offset }) ∧
        u = t + cell s.address (.chars size written') ∧ written'.length = written.length ∧
        StandsAt written' offset (HttpParser.strtok isDelim conf).2 := by
  apply (loadTextAt_triple hs h).value
  apply (s.endToken_triple hs hfits h isDelim).bind
  rintro _ u ⟨written', hu, hlength, hstands⟩
  exact Triple.pure ⟨_, written', rfl, rfl, hu, hlength, hstands⟩

/-- A line ends at its first zero, or at the one behind it. -/
theorem exists_zero_behind (line : Bytes) : ∃ back, line ++ [0] = cstr line ++ 0 :: back := by
  by_cases hzero : 0 ∈ line
  · obtain ⟨front, back, rfl, hfront⟩ := List.eq_append_cons_of_mem hzero
    refine ⟨back ++ [0], ?_⟩
    rw [cstr_append_zero hfront, List.append_assoc]
    rfl
  · exact ⟨[], by rw [cstr_of_notMem hzero]⟩

/-- A line that has room by `n` and in the block. -/
theorem HeldStartup.getline_triple (hs : S = t + cell s.address (.chars size written))
    (hfits : written.length ≤ size) (hplace : s.offset ≤ written.length) {line : Bytes}
    (hn : line.length + 1 ≤ s.size) (hroom : s.offset + line.length + 1 ≤ size) :
    Triple S (s.getline line) fun s' u => s' = s ∧
      ∃ written', u = t + cell s.address (.chars size written') ∧ written'.length ≤ size ∧
        StandsAt written' s.offset (cstr line) := by
  have hlength : (line ++ [0]).length = line.length + 1 := List.length_append
  have hcstr : 0 ∉ cstr line := fun hmem => by simpa using List.mem_takeWhile_imp hmem
  rw [HeldStartup.getline, if_pos hn]
  apply (memcpy_triple hs hplace (by omega)).step
  intro _
  refine Triple.pure ⟨rfl, _, rfl, ?_, ?_⟩
  · simp only [List.length_append, List.length_take, List.length_drop, hlength]
    omega
  · obtain ⟨back, hline⟩ := exists_zero_behind line
    refine ⟨written.take s.offset, back ++ written.drop (s.offset + (line ++ [0]).length), ?_, ?_,
      hcstr⟩
    · rw [hline]
      simp
    · rw [List.length_take, Nat.min_eq_left hplace]

end Tokens

/-- The string that a setting has replaced. -/
def storedString (server : Server) : Setting → Option Bytes
  | .defaultDocument => server.defaultDocument
  | .rootFolder => server.rootFolder
  | .crtFilePath => server.crtFilePath
  | .pkeyFilePath => server.pkeyFilePath
  | _ => none

/-- The strings that are replaced by these assignments, one after the other. -/
def lostStrings : Server → List (Setting × Bytes) → List Bytes
  | _, [] => []
  | server, entry :: assigned =>
      (storedString server entry.1).toList ++ lostStrings (server.set entry.2 entry.1) assigned

theorem lostStrings_snoc (server : Server) (assigned : List (Setting × Bytes))
    (entry : Setting × Bytes) :
    lostStrings server (assigned ++ [entry]) = lostStrings server assigned ++
      (storedString (assigned.foldl (fun server entry => server.set entry.2 entry.1) server)
        entry.1).toList := by
  induction assigned generalizing server with
  | nil => simp [lostStrings]
  | cons first assigned ih =>
      rw [List.cons_append, lostStrings, ih, lostStrings, List.append_assoc]
      rfl

/-- These strings stand in blocks of their own. -/
inductive Strings : List Bytes → Multiset (Nat × Block) → Prop
  | nil : Strings [] 0
  | cons {address : Nat} {text : Bytes} {texts : List Bytes} {c m : Multiset (Nat × Block)}
      (first : NullableCell (some address) (some text) c) (rest : Strings texts m) :
      Strings (text :: texts) (c + m)

theorem Strings.append {texts texts' : List Bytes} {m m' : Multiset (Nat × Block)}
    (h : Strings texts m) (h' : Strings texts' m') : Strings (texts ++ texts') (m + m') := by
  induction h with
  | nil => rwa [zero_add]
  | cons first rest ih =>
      rw [add_assoc]
      exact .cons first ih

theorem strings_of_nullable {pointer : Option Nat} {text : Option Bytes}
    {m : Multiset (Nat × Block)} (h : NullableCell pointer text m) : Strings text.toList m := by
  cases h with
  | null => exact .nil
  | text fits =>
      rw [← add_zero (cell _ _)]
      exact .cons (.text fits) .nil

/-- The blocks of a server. -/
inductive ServerCells (held : HeldServer) (server : Server) (m : Multiset (Nat × Block)) : Prop
  | intro {d r c p : Multiset (Nat × Block)} (sPort : held.sPort = server.sPort)
      (sHost : held.sHost = server.sHost) (backlog : held.backlog = server.backlog)
      (defaultDocument : NullableCell held.defaultDocument server.defaultDocument d)
      (rootFolder : NullableCell held.rootFolder server.rootFolder r)
      (crtFilePath : NullableCell held.crtFilePath server.crtFilePath c)
      (pkeyFilePath : NullableCell held.pkeyFilePath server.pkeyFilePath p)
      (blocks : m = d + r + c + p)

section Cells

variable {S t m : Multiset (Nat × Block)} {held : HeldServer} {server : Server}

theorem copyValue_triple (S : Multiset (Nat × Block)) (value : Bytes) :
    Triple S (copyValue value) fun address u =>
      ∃ c, u = S + c ∧ NullableCell (some address) (some value) c := by
  apply (malloc_triple S (.chars (value.length + 1) [])).bind
  rintro address u rfl
  apply (strcpy_triple rfl (Nat.lt_succ_self value.length)).step
  intro _
  exact Triple.pure ⟨_, rfl, .text (Nat.lt_succ_self _)⟩

/-- A pointer goes over to a new block, and the string it had is lost. -/
theorem copyValue_replaces {value : Bytes} {text : Option Bytes} {pointer : Option Nat}
    {server' : Server} {f : Nat → HeldServer} {old rest : Multiset (Nat × Block)}
    (hs : S = t + (rest + old)) (hold : NullableCell pointer text old)
    (hnew : ∀ address new, NullableCell (some address) (some value) new →
      ServerCells (f address) server' (rest + new)) :
    Triple S (copyValue value >>= fun address => pure (f address)) fun held' u =>
      ∃ m' lost, u = t + (m' + lost) ∧ ServerCells held' server' m' ∧
        Strings text.toList lost := by
  apply (copyValue_triple S value).bind
  rintro address u ⟨new, rfl, hcell⟩
  refine Triple.pure ⟨rest + new, old, ?_, hnew address new hcell, strings_of_nullable hold⟩
  rw [hs]
  abel

/-- A setting takes a new block, and the string that it replaces is lost. -/
theorem ServerCells.set (h : ServerCells held server m) (hs : S = t + m) {value : Bytes}
    {setting : Setting} (hfits : Fits (setting, value)) :
    Triple S (held.set value setting) fun held' u => ∃ m' lost, u = t + (m' + lost) ∧
      ServerCells held' (server.set value setting) m' ∧
      Strings (storedString server setting).toList lost := by
  obtain ⟨sPort, sHost, backlog, document, root, crt, pkey, rfl⟩ := h
  rename_i d r c p
  have hsame : S = t + (d + r + c + p + 0) := by rw [hs, add_zero]
  cases setting with
  | port =>
      rw [HeldServer.set, if_pos (hfits.1 rfl)]
      exact Triple.pure ⟨_, 0, hsame, ⟨rfl, sHost, backlog, document, root, crt, pkey, rfl⟩, .nil⟩
  | host =>
      rw [HeldServer.set, if_pos (hfits.2 rfl)]
      exact Triple.pure ⟨_, 0, hsame, ⟨sPort, rfl, backlog, document, root, crt, pkey, rfl⟩, .nil⟩
  | backlog =>
      exact Triple.pure ⟨_, 0, hsame, ⟨sPort, sHost, rfl, document, root, crt, pkey, rfl⟩, .nil⟩
  | defaultDocument =>
      have hsplit : S = t + (r + c + p + d) := by
        rw [hs]
        abel
      exact copyValue_replaces hsplit document fun address new hnew =>
        ⟨sPort, sHost, backlog, hnew, root, crt, pkey, by abel⟩
  | rootFolder =>
      have hsplit : S = t + (d + c + p + r) := by
        rw [hs]
        abel
      exact copyValue_replaces hsplit root fun address new hnew =>
        ⟨sPort, sHost, backlog, document, hnew, crt, pkey, by abel⟩
  | crtFilePath =>
      have hsplit : S = t + (d + r + p + c) := by
        rw [hs]
        abel
      exact copyValue_replaces hsplit crt fun address new hnew =>
        ⟨sPort, sHost, backlog, document, root, hnew, pkey, by abel⟩
  | pkeyFilePath =>
      have hsplit : S = t + (d + r + c + p) := hs
      exact copyValue_replaces hsplit pkey fun address new hnew =>
        ⟨sPort, sHost, backlog, document, root, crt, hnew, rfl⟩

/-- A port or a host that is too long is written behind its field. -/
theorem HeldServer.set_faults (S : Multiset (Nat × Block)) (held : HeldServer) {value : Bytes}
    {setting : Setting} (h : ¬ Fits (setting, value)) : Faults S (held.set value setting) := by
  cases setting with
  | port =>
      rw [HeldServer.set, if_neg fun hroom => h ⟨fun _ => hroom, (fun heq => by cases heq)⟩]
      exact undefined_faults S
  | host =>
      rw [HeldServer.set, if_neg fun hroom => h ⟨(fun heq => by cases heq), fun _ => hroom⟩]
      exact undefined_faults S
  | _ => exact absurd ⟨(fun heq => by cases heq), (fun heq => by cases heq)⟩ h

theorem ServerCells.free (h : ServerCells held server m) (hs : S = t + m) :
    Triple S (freeServerParams held) fun _ u => u = t := by
  obtain ⟨sPort, sHost, backlog, document, root, crt, pkey, rfl⟩ := h
  rename_i d r c p
  have hroot : S = t + d + c + p + r := by
    rw [hs]
    abel
  have hdocument : t + d + c + p = t + c + p + d := by abel
  have hcrt : t + c + p = t + p + c := by abel
  apply (root.free hroot).step
  intro _
  apply (document.free hdocument).step
  intro _
  apply (crt.free hcrt).step
  intro _
  exact pkey.free rfl

end Cells

/-- No copy runs over its field. -/
def AllFit (s : Startup) : Prop := ∀ entry ∈ s.assigned, Fits entry

theorem matchSetting_assigned {token : Bytes} {s s' : Startup} {setting : Setting}
    (h : Networking.matchSetting token s setting = some s') : s.assigned ⊆ s'.assigned := by
  rw [Networking.matchSetting] at h
  split at h
  · split at h
    · cases h
    · rename_i value t hstrtok
      cases h
      have hsame : t.assigned = s.assigned := (congrArg (fun r => r.2.assigned) hstrtok).symm
      rw [← hsame]
      exact List.subset_append_left _ _
  · cases h
    exact List.Subset.refl _

theorem readSetting_assigned {s s' : Startup} {line : Bytes}
    (h : Networking.readSetting s line = some s') : s.assigned ⊆ s'.assigned := by
  obtain ⟨hgood, hbad⟩ := readSetting_spec s line
  by_cases hline : Readable line
  · obtain ⟨s'', hrun, hassigns⟩ := hgood hline
    obtain rfl := Option.some.inj (h.symm.trans hrun)
    rw [hassigns.assigned_eq]
    exact List.subset_append_left _ _
  · cases h.symm.trans (hbad hline)

section Lines

variable (init : Server) (address size : Nat)

/-- The variables of the program are those of the function on values, its strings stand
in blocks of their own, beside the block of the lines. -/
structure Held (s : Startup) (held : HeldStartup) (written : Bytes)
    (S : Multiset (Nat × Block)) : Prop where
  fixed : held.address = address ∧ held.offset = s.offset ∧ held.size = s.size ∧
    held.integrityTest = s.integrityTest
  server_eq : s.server = s.assigned.foldl (fun server entry => server.set entry.2 entry.1) init
  fits : written.length ≤ size
  blocks : ∃ own lost, S = own + lost + cell held.address (.chars size written) ∧
    ServerCells held.server s.server own ∧ Strings (lostStrings init s.assigned) lost

/-- Inside a line: its rest stands at the cursor. -/
def InLine (s : Startup) (held : HeldStartup) (S : Multiset (Nat × Block)) : Prop :=
  ∃ written, Held init address size s held written S ∧ StandsAt written held.offset s.conf

/-- Between two lines: those to come have room. -/
def BetweenLines (lines : List Bytes) (s : Startup) (held : HeldStartup)
    (S : Multiset (Nat × Block)) : Prop :=
  (∃ written, Held init address size s held written S ∧ held.offset ≤ written.length) ∧
    s.offset + lines.flatten.length + 1 ≤ size ∧ ∀ line ∈ lines, line.length + 1 ≤ s.size

variable {init address size} {S : Multiset (Nat × Block)} {s : Startup} {held : HeldStartup}

theorem InLine.strtok (h : InLine init address size s held S) (isDelim : UInt8 → Bool) :
    Triple S (held.strtok isDelim) fun found u => found.1 = (s.strtok isDelim).1 ∧
      InLine init address size (s.strtok isDelim).2 found.2 u := by
  obtain ⟨written, ⟨⟨haddress, hoffset, hsize, htest⟩, hserver, hfits, own, lost, hS, hown, hlost⟩,
    hstands⟩ := h
  apply (held.strtok_triple hS hfits hstands isDelim).mono
  rintro _ u ⟨offset, written', hoffset', rfl, hu, hlength, hstands'⟩
  refine ⟨rfl, written', ⟨⟨haddress, ?_, hsize, htest⟩, hserver, hlength.le.trans hfits, own, lost,
    hu, hown, hlost⟩, hstands'⟩
  rw [hoffset', hoffset]
  rfl

/-- The variables on values behind the branch of a setting. -/
def stored (s : Startup) (setting : Setting) (value : Bytes) : Startup :=
  { s with
    server := s.server.set value setting
    integrityTest := s.integrityTest ||| setting.bit
    assigned := s.assigned ++ [(setting, value)] }

theorem storeSetting_refines (h : InLine init address size s held S) (hgood : AllFit s)
    (setting : Setting) (value : Bytes) :
    Refines AllFit S (storeSetting setting (some value, held)) (some (stored s setting value))
      (InLine init address size) := by
  obtain ⟨written, ⟨⟨haddress, hoffset, hsize, htest⟩, hserver, hwritten, own, lost, hS, hown,
    hlost⟩, hstands⟩ := h
  by_cases hfits : Fits (setting, value)
  · have hall : AllFit (stored s setting value) := by
      intro entry hentry
      rcases List.mem_append.mp hentry with hold | hnew
      · exact hgood entry hold
      · rw [List.mem_singleton.mp hnew]
        exact hfits
    have hblocks : S = lost + cell held.address (.chars size written) + own := by
      rw [hS]
      abel
    refine .some hall ((hown.set hblocks hfits).bind ?_)
    rintro server u ⟨own', more, rfl, hown', hmore⟩
    refine Triple.pure ⟨written, ⟨⟨haddress, hoffset, hsize, ?_⟩, ?_, hwritten, own', lost + more,
      ?_, hown', ?_⟩, hstands⟩
    · rw [htest]
      rfl
    · rw [stored, List.foldl_append, ← hserver]
      rfl
    · abel
    · rw [stored, lostStrings_snoc, ← hserver]
      exact hlost.append hmore
  · refine .bad (fun hall => hfits ?_) (HeldServer.set_faults S held.server hfits).bind
    exact hall _ (List.mem_append_right _ List.mem_cons_self)

theorem matchSetting_refines (h : InLine init address size s held S) (hgood : AllFit s)
    (token : Bytes) (setting : Setting) :
    Refines AllFit S (matchSetting token held setting) (Networking.matchSetting token s setting)
      (InLine init address size) := by
  rw [matchSetting, Networking.matchSetting]
  by_cases hkey : token = setting.key
  · rw [if_pos hkey, if_pos hkey]
    apply Refines.step (h.strtok (· == 10))
    rintro ⟨found, held'⟩ u ⟨hfound, hline⟩
    cases hstrtok : s.strtok (· == 10) with
    | mk token' s' =>
        rw [hstrtok] at hfound hline
        cases hfound
        cases found with
        | none => exact .none (undefined_faults u)
        | some value =>
            have hsame : s'.assigned = s.assigned := (congrArg (fun r => r.2.assigned) hstrtok).symm
            have hgood' : AllFit s' := fun entry hentry => hgood entry (hsame ▸ hentry)
            exact storeSetting_refines hline hgood' setting value
  · rw [if_neg hkey, if_neg hkey]
    exact .some hgood (Triple.pure h)

/-- A line that has room is read to the place of the cursor. -/
theorem BetweenLines.getline {line : Bytes} {lines : List Bytes}
    (h : BetweenLines init address size (line :: lines) s held S) :
    Triple S (held.getline line) (InLine init address size (s.getline line)) := by
  obtain ⟨⟨written, ⟨⟨haddress, hoffset, hsize, htest⟩, hserver, hfits, own, lost, hS, hown, hlost⟩,
    hplace⟩, hroom, hlines⟩ := h
  have hline := hlines line List.mem_cons_self
  rw [List.flatten_cons, List.length_append] at hroom
  have hsame : (s.getline line).size = s.size := if_pos hline
  apply (held.getline_triple hS hfits hplace (by omega) (by omega)).mono
  rintro _ u ⟨rfl, written', hu, hwritten, hstands⟩
  exact ⟨written', ⟨⟨haddress, hoffset, hsize.trans hsame.symm, htest⟩, hserver, hwritten, own,
    lost, hu, hown, hlost⟩, hstands⟩

/-- The body of the loop, up to the end of its line. -/
theorem BetweenLines.line_refines {line : Bytes} {lines : List Bytes}
    (h : BetweenLines init address size (line :: lines) s held S) (hgood : AllFit s) :
    Refines AllFit S (readSetting held line) (Networking.readSetting s line)
      (InLine init address size) := by
  rw [readSetting, Networking.readSetting]
  apply Refines.step h.getline
  intro held' u hinline
  apply Refines.step (hinline.strtok (· == 32))
  rintro ⟨found, held''⟩ u' ⟨hfound, hinline'⟩
  cases hstrtok : (s.getline line).strtok (· == 32) with
  | mk token s' =>
      rw [hstrtok] at hfound hinline'
      cases hfound
      cases found with
      | none => exact .none (undefined_faults u')
      | some token =>
          have hsame : s'.assigned = s.assigned := (congrArg (fun r => r.2.assigned) hstrtok).symm
          have hgood' : AllFit s' := fun entry hentry => hgood entry (hsame ▸ hentry)
          exact Refines.foldlM (I := fun _ => InLine init address size)
            (fun a setting a' hmatch hall entry hentry =>
              hall entry (matchSetting_assigned hmatch hentry))
            (fun setting _ a b t hall hb => matchSetting_refines hb hall token setting)
            Setting.all hgood' hinline'

theorem readSetting_refines {line : Bytes} {lines : List Bytes}
    (h : BetweenLines init address size (line :: lines) s held S) (hgood : AllFit s) :
    Refines AllFit S (readSetting held line) (Networking.readSetting s line)
      (BetweenLines init address size lines) := by
  apply (h.line_refines hgood).mono
  rintro s' held' u hresult - ⟨written', hheld', front, back, hsplit, hfront, -⟩
  obtain ⟨-, hroom, hlines⟩ := h
  obtain ⟨hline, hlines⟩ := List.forall_mem_cons.mp hlines
  rw [List.flatten_cons, List.length_append] at hroom
  obtain ⟨-, hsize, hcursor⟩ := readSetting_cursor hresult
  have hsame : s'.size = s.size := hsize.trans (if_pos hline)
  refine ⟨⟨written', hheld', ?_⟩, by omega, ?_⟩
  · rw [hsplit, List.length_append]
    omega
  · rw [hsame]
    exact hlines

end Lines

theorem HeldStartup.strtok_noReuse (s : HeldStartup) (isDelim : UInt8 → Bool) :
    NoReuse (s.strtok isDelim) := by
  apply (loadTextAt_noReuse _ _).bind
  intro conf
  have hend : NoReuse (s.endToken isDelim conf) := by
    rw [HeldStartup.endToken]
    split
    · exact .pure ()
    · exact memcpy_noReuse _ _ _
  exact hend.bind fun _ => .pure _

theorem copyValue_noReuse (value : Bytes) : NoReuse (copyValue value) := by
  apply (malloc_noReuse _).bind
  intro address
  exact (strcpy_noReuse address value).bind fun _ => .pure address

theorem HeldServer.set_noReuse (server : HeldServer) (value : Bytes) (setting : Setting) :
    NoReuse (server.set value setting) := by
  cases setting with
  | port => exact (NoReuse.pure _).guard
  | host => exact (NoReuse.pure _).guard
  | backlog => exact .pure _
  | _ => exact (copyValue_noReuse value).bind fun _ => .pure _

theorem matchSetting_noReuse (token : Bytes) (s : HeldStartup) (setting : Setting) :
    NoReuse (matchSetting token s setting) := by
  rw [matchSetting]
  split
  · apply (s.strtok_noReuse _).bind
    rintro ⟨found, s'⟩
    cases found with
    | none => exact .undefined
    | some value => exact (s'.server.set_noReuse value setting).bind fun _ => .pure _
  · exact .pure s

/-- A line that does not fit has the block moved under the first pointer. -/
theorem readSetting_freed {s s' : HeldStartup} {line : Bytes} {h h' : Heap}
    (hlong : s.size < line.length + 1) (hoffset : s.offset = 0)
    (hrun : readSetting s line h = some (s', h')) : h'.Freed s.address := by
  obtain ⟨⟨moved, h₁⟩, hgetline, hrest⟩ := Option.bind_eq_some_iff.mp hrun
  rw [HeldStartup.getline, if_neg hlong.not_ge, if_pos hoffset] at hgetline
  obtain ⟨⟨address, h₂⟩, hrealloc, hstore⟩ := Option.bind_eq_some_iff.mp hgetline
  have hstored : NoReuse (memcpy address 0 (line ++ [0]) >>= fun _ =>
      (pure { s with address := address, size := max (2 * s.size) (line.length + 1) } :
        Program HeldStartup)) := (memcpy_noReuse _ _ _).bind fun _ => .pure _
  have hmatches : ∀ found, NoReuse (matchSettings found) := by
    rintro ⟨found, s''⟩
    cases found with
    | none => exact .undefined
    | some token => exact .foldlM (matchSetting_noReuse token) _ _
  have hafter := (moved.strtok_noReuse (· == 32)).bind hmatches
  exact hafter _ _ _ _ hrest (hstored _ _ _ _ hstore (reallocChars_freed hrealloc))

/-- Its first pointer is freed all the same. -/
theorem oneLine_faults {content : Bytes} (hlines : fileLines content = [content])
    (S : Multiset (Nat × Block)) :
    Faults S (setServerStartupParams (confFile content) {}) := by
  intro h rest howned
  have hsize : ¬ (content.length : Int) < 0 := by omega
  rw [setServerStartupParams, openStaticFile_conf]
  simp only [if_neg hsize, Int.toNat_natCast, Option.elim_some, hlines]
  refine Option.eq_none_iff_forall_ne_some.mpr fun outcome hrun => ?_
  -- the first `malloc` returns in any heap, so the loop comes first
  obtain ⟨⟨s, h₁⟩, hread, hrun⟩ := Option.bind_eq_some_iff.mp hrun
  rw [List.foldlM_cons] at hread
  obtain ⟨⟨s', h₂⟩, hline, hlast⟩ := Option.bind_eq_some_iff.mp hread
  cases hlast
  obtain ⟨⟨u, h₃⟩, hfree, -⟩ := Option.bind_eq_some_iff.mp hrun
  have hfreed := readSetting_freed (Nat.lt_succ_self content.length) rfl hline
  rw [free_freed hfreed] at hfree
  cases hfree

/-- What is there when `SetServerStartupParams` has returned: the strings of the server,
and those that have been replaced. `FreeServerParams` leaves the latter. -/
structure Kept (outcome : Int × Startup) (result : Int × HeldServer)
    (blocks : Multiset (Nat × Block)) : Prop where
  result_eq : result.1 = outcome.1
  strings : ∃ own lost, blocks = own + lost ∧ ServerCells result.2 outcome.2.server own ∧
    Strings (lostStrings { backlog := 10 } outcome.2.assigned) lost ∧
    Triple blocks (freeServerParams result.2) fun _ left => left = lost

/-- A file of more than one line: its block is given back, and the strings are kept. -/
theorem manyLines_refines {content : Bytes} (hlines : 10 ∈ content.dropLast) :
    Refines (fun outcome => AllFit outcome.2) 0 (setServerStartupParams (confFile content) {})
      (Networking.setServerStartupParams (confFile content) {}) Kept := by
  have hsize : ¬ (content.length : Int) < 0 := by omega
  rw [setServerStartupParams_eq, setServerStartupParams, openStaticFile_conf]
  simp only [if_neg hsize, Int.toNat_natCast, Option.elim_some]
  apply Refines.step (malloc_triple 0 (.chars (content.length + 1) []))
  rintro conf u rfl
  have hgood : AllFit (startup {} content) := List.forall_mem_nil _
  have hstart : BetweenLines (startup {} content).server conf (content.length + 1)
      (fileLines content) (startup {} content) ⟨{ backlog := 10 }, conf, 0, content.length, 0⟩
      (0 + cell conf (.chars (content.length + 1) [])) := by
    refine ⟨⟨[], ⟨⟨rfl, rfl, rfl, rfl⟩, rfl, Nat.zero_le _, 0, 0, ?_, ?_, .nil⟩,
      Nat.zero_le _⟩, ?_, ?_⟩
    · simp only [add_zero]
    · exact ⟨rfl, rfl, rfl, .null, .null, .null, .null, by simp only [add_zero]⟩
    · rw [flatten_fileLines]
      exact Nat.succ_le_succ (Nat.zero_add _).le
    · exact fun line hline => length_lt_of_inner hlines hline
  have hread : Refines AllFit (0 + cell conf (.chars (content.length + 1) []))
      ((fileLines content).foldlM readSetting ⟨{ backlog := 10 }, conf, 0, content.length, 0⟩)
      ((fileLines content).foldlM Networking.readSetting (startup {} content))
      (BetweenLines (startup {} content).server conf (content.length + 1) []) := by
    apply Refines.foldlM _ _ (fileLines content) hgood hstart
    · exact fun a line a' hline hall entry hentry => hall entry (readSetting_assigned hline hentry)
    · exact fun line lines a b t hall hb => readSetting_refines hb hall
  rw [Option.map_eq_bind]
  apply hread.bind
  · intro s outcome houtcome hall
    cases houtcome
    exact hall
  · rintro s held t hall ⟨⟨written, hheld, -⟩, -⟩
    obtain ⟨⟨haddress, -, -, htest⟩, -, -, own, lost, hblocks, hown, hlost⟩ := hheld
    refine .some hall ?_
    rw [haddress] at hblocks
    apply (free_triple hblocks).step
    intro _
    rw [htest]
    exact Triple.pure ⟨rfl, own, lost, rfl, hown, hlost, hown.free (add_comm own lost)⟩

/-- A file that is not empty, read into a zeroed server: nothing undefined is done exactly
when it has more than one line, no `NULL` token is used and no copy runs over its field.
The run then does what the function on values does, and the replaced strings are all
that is lost. -/
theorem configuration_memory {content : Bytes} (hcontent : content ≠ []) :
    Refines (fun outcome => 10 ∈ content.dropLast ∧ AllFit outcome.2) 0
      (setServerStartupParams (confFile content) {})
      (Networking.setServerStartupParams (confFile content) {}) Kept := by
  by_cases hlines : 10 ∈ content.dropLast
  · have hmany := manyLines_refines hlines
    constructor
    · exact fun outcome houtcome hgood => hmany.sound outcome houtcome hgood.2
    · intro hbad
      exact hmany.faulty fun outcome houtcome hall => hbad outcome houtcome ⟨hlines, hall⟩
  · constructor
    · exact fun outcome _ hgood => absurd hgood.1 hlines
    · exact fun _ => oneLine_faults (fileLines_single hcontent hlines) 0

/-- A file that names a folder twice, and no other setting. -/
def twoRoots : Bytes := bytes "root_folder: a\nroot_folder: b\n"

theorem configuration_memory_twoRoots :
    ∃ s, Networking.setServerStartupParams (confFile twoRoots) {} = some (otherError, s) ∧
      lostStrings { backlog := 10 } s.assigned = [bytes "a"] ∧
      Triple 0 (setServerStartupParams (confFile twoRoots) {}) (Kept (otherError, s)) := by
  obtain ⟨s, hrun, hassigned⟩ :
      ∃ s, Networking.setServerStartupParams (confFile twoRoots) {} = some (otherError, s) ∧
        s.assigned = [(.rootFolder, bytes "a"), (.rootFolder, bytes "b")] := by
    rw [setServerStartupParams_eq]
    exact ⟨_, rfl, rfl⟩
  have hfits : AllFit s := by
    rw [AllFit, hassigned]
    unfold Fits
    decide
  have hgood : 10 ∈ twoRoots.dropLast ∧ AllFit s := ⟨by decide, hfits⟩
  refine ⟨s, hrun, ?_, (configuration_memory (by decide)).sound _ hrun hgood⟩
  rw [hassigned]
  rfl

end HttpsServ.ConfigurationMemory
