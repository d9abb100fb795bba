import HttpsServ.ResponseMemory

/-!
# The life of a response header

What any run of calls on a header loses is counted from the calls: nothing, as long
as the status line is set once and the first property has a key. All the rest is
given back by `FreeHttpResponsetHeader`, and the text that is written out fits into
the block that is taken for it.
-/

namespace HttpsServ.HeaderLife

open ByteString Utility HttpParser HeaderUpdates FieldSlots HeapProgram ResponseMemory

/-- The bytes that the status lines of a run are counted with. -/
def headBytes (updates : List HeaderUpdate) : Nat :=
  (updates.map fun update =>
    match update with
    | .statusLine version statusCode status =>
        version.length + statusCode.length + status.length + sizeofHeaderDeliminations
    | .property _ => 0).sum

def propertyLines (updates : List HeaderUpdate) : List Bytes :=
  updates.filterMap fun update =>
    match update with
    | .statusLine _ _ _ => none
    | .property line => some line

def statusLines (updates : List HeaderUpdate) : Nat :=
  updates.countP fun update =>
    match update with
    | .statusLine _ _ _ => true
    | .property _ => false

/-- How often the array is taken while there is no field: up to the first property
that becomes one. -/
def arraysTaken : List Bytes → Nat
  | [] => 0
  | line :: lines => if 32 ∈ line then 1 else 1 + arraysTaken lines

theorem arraysTaken_of_keyless {lines : List Bytes} (h : ∀ line ∈ lines, 32 ∉ line) :
    arraysTaken lines = lines.length := by
  induction lines with
  | nil => rfl
  | cons line lines ih =>
      rw [arraysTaken, if_neg (h line List.mem_cons_self),
        ih fun line' hline => h line' (List.mem_cons_of_mem _ hline), List.length_cons,
        Nat.add_comm]

theorem arraysTaken_concat (lines : List Bytes) (line : Bytes) :
    arraysTaken (lines ++ [line]) =
      arraysTaken lines + if ∀ line ∈ lines, 32 ∉ line then 1 else 0 := by
  induction lines with
  | nil => by_cases hkey : 32 ∈ line <;> simp [arraysTaken, hkey]
  | cons first lines ih =>
      rw [List.cons_append, arraysTaken, arraysTaken, ih]
      by_cases hkey : 32 ∈ first
      · rw [if_pos hkey, if_pos hkey, if_neg fun hall => hall first List.mem_cons_self hkey]
      · rw [if_neg hkey, if_neg hkey, Nat.add_assoc]
        simp only [List.forall_mem_cons, hkey, not_false_eq_true, true_and]

/-- The strings of all status lines but one, and all arrays but one. -/
def lostBlocks (calls : List HeaderCall) : Nat :=
  let updates := calls.flatMap HeaderCall.updates
  3 * (statusLines updates - 1) + (arraysTaken (propertyLines updates) - 1)

/-- What a run has done to the header that it leaves. -/
structure Reached (updates : List HeaderUpdate) (resp : HttpResponseHeader) : Prop where
  sound : Sound resp
  counted : Counted resp (headBytes updates)
  head : ∀ version statusCode status,
    statusFields resp = (some version, some statusCode, some status) →
      version.length + statusCode.length + status.length + sizeofHeaderDeliminations ≤
        headBytes updates
  lines : resp.body.flatten.length ≤ (propertyLines updates).flatten.length
  status : resp.version.isSome ↔ 0 < statusLines updates
  keyless : resp.body = [] ↔ ∀ line ∈ propertyLines updates, 32 ∉ line
  array : resp.bodySlots ≠ 0 ↔ propertyLines updates ≠ []
  lost : lostAlong {} updates =
    3 * (statusLines updates - 1) + (arraysTaken (propertyLines updates) - 1)

theorem bodySlots_ne_of_sound {resp : HttpResponseHeader} (h : Sound resp) (hne : resp.body ≠ []) :
    resp.bodySlots ≠ 0 := by
  obtain ⟨slotted, hslotted⟩ := h
  have hle := (hslotted.power hne).le
  have hpos := List.length_pos_iff.mpr hne
  omega

/-- Every call on a header leaves it with an array. -/
theorem bodySlots_setResponseProperty {resp : HttpResponseHeader} (h : Sound resp)
    (line : Bytes) : (HttpParser.setResponseProperty resp line).bodySlots ≠ 0 := by
  have hsound : Sound (HttpParser.setResponseProperty resp line) := h.apply (.property line)
  by_cases hne : (HttpParser.setResponseProperty resp line).body = []
  · have heffect := setResponseProperty_effect resp line
    have hnil : resp.body = [] := by
      generalize HttpParser.setResponseProperty resp line = resp' at heffect hne
      cases heffect with
      | ignored => exact hne
      | overwritten => simp at hne
      | appended => simp at hne
    have hreserve : HttpParser.reserveField resp = some { resp with bodySlots := 2 } := by
      simp only [HttpParser.reserveField, hnil, List.length_nil, if_true]
    rw [HttpParser.setResponseProperty, hreserve] at hne ⊢
    dsimp only at hne ⊢
    split
    · exact Nat.succ_ne_zero 1
    · rw [HttpParser.storeField]
      split <;> exact Nat.succ_ne_zero 1
  · exact bodySlots_ne_of_sound hsound hne

theorem reached_zeroed : Reached [] {} where
  sound := sound_zeroed
  counted := rfl
  head := by
    intro version statusCode status hset
    cases hset
  lines := le_rfl
  status := ⟨fun h => absurd h Bool.false_ne_true, fun h => absurd h (lt_irrefl 0)⟩
  keyless := ⟨fun _ => List.forall_mem_nil _, fun _ => rfl⟩
  array := ⟨fun h => absurd rfl h, fun h => absurd rfl h⟩
  lost := rfl

section Reached

variable {updates : List HeaderUpdate} {resp : HttpResponseHeader}

theorem lostAlong_concat (updates : List HeaderUpdate) (update : HeaderUpdate) :
    lostAlong {} (updates ++ [update]) =
      lostAlong {} updates + updateLost (runUpdates {} updates) update := by
  rw [lostAlong_append]
  rfl

theorem Reached.statusLine (h : Reached updates resp) (hresp : resp = runUpdates {} updates)
    (version statusCode status : Bytes) :
    Reached (updates ++ [.statusLine version statusCode status])
      (HttpParser.setResponseStatusLine resp version statusCode status) := by
  have hhead : headBytes (updates ++ [.statusLine version statusCode status]) = headBytes updates +
      (version.length + statusCode.length + status.length + sizeofHeaderDeliminations) := by
    simp [headBytes]
  have hlines : propertyLines (updates ++ [.statusLine version statusCode status]) =
      propertyLines updates := by
    simp [propertyLines]
  have hcount : statusLines (updates ++ [.statusLine version statusCode status]) =
      statusLines updates + 1 := by
    simp [statusLines]
  refine ⟨h.sound.apply (.statusLine version statusCode status), ?_, ?_, ?_, ?_, ?_, ?_, ?_⟩
  · have hcounted := h.counted
    rw [Counted] at hcounted ⊢
    rw [hhead]
    simp only [HttpParser.setResponseStatusLine, hcounted, ResponseHeader.toInt32_add]
    apply ResponseHeader.toInt32_congr
    push_cast
    omega
  · intro version' statusCode' status' hset
    simp only [statusFields, HttpParser.setResponseStatusLine, Prod.mk.injEq,
      Option.some.injEq] at hset
    obtain ⟨rfl, rfl, rfl⟩ := hset
    rw [hhead]
    omega
  · rw [hlines]
    exact h.lines
  · rw [hcount]
    exact ⟨fun _ => Nat.succ_pos _, fun _ => rfl⟩
  · rw [hlines]
    exact h.keyless
  · rw [hlines]
    exact h.array
  · rw [lostAlong_concat, h.lost, hlines, hcount, updateLost, ← hresp, lostStrings]
    have hstatus := h.status
    by_cases hset : resp.version.isSome = true
    · have hpos := hstatus.mp hset
      rw [if_pos hset]
      omega
    · have hzero := mt hstatus.mpr hset
      rw [if_neg hset]
      omega

theorem Reached.property (h : Reached updates resp) (hresp : resp = runUpdates {} updates)
    (line : Bytes) :
    Reached (updates ++ [.property line]) (HttpParser.setResponseProperty resp line) := by
  have hhead : headBytes (updates ++ [.property line]) = headBytes updates := by
    simp [headBytes]
  have hlines : propertyLines (updates ++ [.property line]) = propertyLines updates ++ [line] := by
    simp [propertyLines]
  have hcount : statusLines (updates ++ [.property line]) = statusLines updates := by
    simp [statusLines]
  have heffect := setResponseProperty_effect resp line
  have hstatus := heffect.statusFields
  refine ⟨h.sound.apply (.property line), ?_, ?_, ?_, ?_, ?_, ?_, ?_⟩
  · rw [hhead]
    exact heffect.counted h.counted
  · rw [hhead, hstatus]
    exact h.head
  · have hle := h.lines
    rw [hlines, List.flatten_append, List.length_append, List.flatten_singleton]
    generalize HttpParser.setResponseProperty resp line = resp' at heffect
    cases heffect with
    | ignored => exact hle.trans (Nat.le_add_right _ _)
    | overwritten slots _ _ hbody =>
        rw [hbody] at hle
        simp only [List.flatten_append, List.flatten_cons, List.length_append] at hle ⊢
        omega
    | appended =>
        simp only [List.flatten_append, List.flatten_singleton, List.length_append]
        omega
  · rw [hcount]
    simp only [statusFields, Prod.mk.injEq] at hstatus
    rw [hstatus.1]
    exact h.status
  · rw [hlines, List.forall_mem_append, List.forall_mem_singleton, ← h.keyless]
    have hfull : resp.body.length = httpBodyFieldLimit → resp.body ≠ [] := by
      intro hlength hnil
      rw [hnil] at hlength
      cases hlength
    generalize HttpParser.setResponseProperty resp line = resp' at heffect
    cases heffect with
    | ignored slots hcase =>
        refine ⟨fun hnil => ⟨hnil, ?_⟩, fun hboth => hboth.1⟩
        exact hcase.resolve_left fun hlength => hfull hlength hnil
    | overwritten slots _ hspace => simp [hspace]
    | appended slots _ hspace => simp [hspace]
  · rw [hlines]
    exact ⟨fun _ => List.append_ne_nil_of_right_ne_nil _ (List.cons_ne_nil _ _),
      fun _ => bodySlots_setResponseProperty h.sound line⟩
  · rw [lostAlong_concat, h.lost, hlines, hcount, updateLost, ← hresp, lostArrays,
      arraysTaken_concat]
    by_cases hkeyless : ∀ line ∈ propertyLines updates, 32 ∉ line
    · have hnil := h.keyless.mpr hkeyless
      have htaken := arraysTaken_of_keyless hkeyless
      rw [if_pos hkeyless]
      by_cases hfirst : propertyLines updates = []
      · have hslots : ¬ (resp.body = [] ∧ resp.bodySlots ≠ 0) :=
          fun hboth => h.array.mp hboth.2 hfirst
        rw [if_neg hslots, hfirst]
        rfl
      · rw [if_pos ⟨hnil, h.array.mpr hfirst⟩, htaken]
        have hpos := List.length_pos_iff.mpr hfirst
        omega
    · have hne : ¬ (resp.body = [] ∧ resp.bodySlots ≠ 0) :=
        fun hboth => hkeyless (h.keyless.mp hboth.1)
      rw [if_neg hkeyless, if_neg hne]
      omega

/-- Every run from the zeroed header. -/
theorem reached_runUpdates (updates : List HeaderUpdate) :
    Reached updates (runUpdates {} updates) := by
  induction updates using List.reverseRecOn with
  | nil => exact reached_zeroed
  | append_singleton updates update ih =>
      rw [runUpdates_concat]
      cases update with
      | statusLine version statusCode status => exact ih.statusLine rfl version statusCode status
      | property line => exact ih.property rfl line

/-- When all the bytes of a run fit into an `int`, its text and zero fit into the count. -/
theorem Reached.fits (h : Reached updates resp)
    (hint : headBytes updates + (propertyLines updates).flatten.length < 2147483648)
    {text : Bytes} (htext : HttpParser.responseToBuff resp = some text) :
    text.length < resp.totalByteLength.toNat := by
  have hle := h.lines
  have hcounted : resp.totalByteLength = (headBytes updates + resp.body.flatten.length : Nat) := by
    have hcounted := h.counted
    rw [Counted, ← Nat.cast_add, ResponseHeader.toInt32_of_lt (by omega)] at hcounted
    exact hcounted
  rw [HttpParser.responseToBuff] at htext
  split at htext
  · rename_i version statusCode status hversion hcode hstatus
    have hhead := h.head version statusCode status (by rw [statusFields, hversion, hcode, hstatus])
    have hsize : sizeofHeaderDeliminations = 7 := rfl
    have hblank : (bytes " ").length = 1 := by decide
    rw [hcounted, Int.toNat_natCast, ← Option.some.inj htext]
    simp only [List.length_append, hblank, crlf, List.length_cons, List.length_nil]
    omega
  · cases htext

end Reached

/-- A header is built, written into a buffer and freed. -/
def serialise (calls : List HeaderCall) : Program (Option Bytes) := do
  let resp ← runCalls {} calls
  let found ← responseToBuff resp
  freeHttpResponsetHeader resp
  match found with
  | none => pure none
  | some buff => do
      let text ← loadText buff
      free buff
      pure (some text)

/-- A header that has been built gives back all its blocks but the lost ones. -/
theorem freeHttpResponsetHeader_holds {held : HeldResponse} {resp : HttpResponseHeader}
    {lost : Nat} {s : Multiset (Nat × Block)} (h : Holds held resp lost s) :
    Triple s (freeHttpResponsetHeader held) fun _ u => Multiset.card u = lost := by
  obtain ⟨own, garbage, rfl, hstands, hcard⟩ := h
  apply (hstands.freeHttpResponsetHeader.frame garbage).mono
  rintro _ u ⟨v, rfl, rfl⟩
  rw [zero_add, hcard]

theorem runCalls_triple (calls : List HeaderCall) :
    Triple 0 (runCalls {} calls) fun held u =>
      Holds held (HeaderUpdates.runCalls {} calls) (lostBlocks calls) u := by
  have hzeroed : Holds {} {} 0 0 := ⟨0, 0, rfl, stands_zeroed, rfl⟩
  have hcalls := follows_calls calls hzeroed sound_zeroed
  rwa [(reached_runUpdates _).lost, Nat.zero_add, ← runCalls_eq] at hcalls

/-- Any run of calls on a header keeps to its own blocks and loses exactly the strings of all
status lines but the last and all empty arrays but the last; when its bytes fit into an
`int`, the text that it writes out is the one of the header values. -/
theorem headerCalls_memory (calls : List HeaderCall) :
    let updates := calls.flatMap HeaderCall.updates
    Triple 0 (do let resp ← runCalls {} calls; freeHttpResponsetHeader resp)
        (fun _ lost => Multiset.card lost = lostBlocks calls) ∧
      (headBytes updates + (propertyLines updates).flatten.length < 2147483648 →
        Triple 0 (serialise calls) fun text lost =>
          text = HttpParser.responseToBuff (HeaderUpdates.runCalls {} calls) ∧
            Multiset.card lost = lostBlocks calls) := by
  intro updates
  constructor
  · apply (runCalls_triple calls).bind
    intro held u hholds
    exact freeHttpResponsetHeader_holds hholds
  · intro hint
    apply (runCalls_triple calls).bind
    intro held u hholds
    obtain ⟨own, garbage, rfl, hstands, hcard⟩ := hholds
    have hreached : Reached updates (HeaderUpdates.runCalls {} calls) := by
      rw [runCalls_eq]
      exact reached_runUpdates updates
    apply ((hstands.responseToBuff fun text htext => hreached.fits hint htext).frame garbage).bind
    rintro found _ ⟨v, rfl, hfound⟩
    cases htext : HttpParser.responseToBuff (HeaderUpdates.runCalls {} calls) with
    | none =>
        rw [htext] at hfound
        obtain ⟨rfl, rfl⟩ := hfound
        apply (hstands.freeHttpResponsetHeader.frame garbage).bind
        rintro _ _ ⟨w, rfl, rfl⟩
        exact Triple.pure ⟨rfl, by rw [zero_add, hcard]⟩
    | some text =>
        rw [htext] at hfound
        obtain ⟨buff, rfl, rfl⟩ := hfound
        have hblocks : ∀ block, own + block + garbage = own + (garbage + block) := by
          intro block
          abel
        rw [hblocks]
        apply (hstands.freeHttpResponsetHeader.frame _).bind
        rintro _ _ ⟨w, rfl, rfl⟩
        rw [zero_add]
        apply (loadText_triple rfl).value
        apply (free_triple rfl).step
        exact fun _ => Triple.pure ⟨rfl, hcard⟩

/-- A property without a key takes an array that the next call takes again, and the
strings of the first status line are lost with it. -/
theorem headerCalls_memory_twice :
    Triple 0 (serialise [.property (bytes "keyless"), .property (bytes "Server: a\r\n"),
        .statusLine (bytes "HTTP/1.1") (bytes "404") (bytes "NOT FOUND"),
        .statusLine (bytes "HTTP/1.1") (bytes "200") (bytes "OK")])
      fun text lost => text = some (bytes "HTTP/1.1 200 OK\r\nServer: a\r\n\r\n") ∧
        Multiset.card lost = 4 := by
  have hserialised := (headerCalls_memory [.property (bytes "keyless"),
    .property (bytes "Server: a\r\n"),
    .statusLine (bytes "HTTP/1.1") (bytes "404") (bytes "NOT FOUND"),
    .statusLine (bytes "HTTP/1.1") (bytes "200") (bytes "OK")]).2 (by decide)
  apply hserialised.mono
  rintro text lost ⟨rfl, hcard⟩
  exact ⟨by decide, hcard⟩

end HttpsServ.HeaderLife
