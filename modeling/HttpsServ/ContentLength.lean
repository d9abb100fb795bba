import HttpsServ.StaticTransfer

/-!
# The length of an identity body

The size of a file passes through an `int` and a loop that counts its digits
before it is printed into the header, and the loop that sends the body runs
while there is something to read.
-/

namespace HttpsServ.ContentLength

open ByteString Utility Numeral HttpParser Http HeaderBlock ResponseHeader StaticTransfer Script

theorem numberOfDigitsLoop_eq (sizeCopy : Int) (numberOfDigits : Nat) :
    numberOfDigitsLoop sizeCopy numberOfDigits =
      numberOfDigits + (numeral 10 sizeCopy.natAbs).length := by
  induction sizeCopy, numberOfDigits using numberOfDigitsLoop.induct with
  | case1 sizeCopy numberOfDigits hlast =>
      have hsmall : sizeCopy.natAbs / 10 = 0 := by
        rw [← Int.natAbs_eq_zero, Int.natAbs_tdiv] at hlast
        exact hlast
      rw [numberOfDigitsLoop, if_pos hlast, length_numeral_of_lt (by omega)]
  | case2 sizeCopy numberOfDigits hmore ih =>
      have hrest : sizeCopy.natAbs / 10 ≠ 0 := by
        rw [← Int.natAbs_eq_zero, Int.natAbs_tdiv] at hmore
        exact hmore
      have hdiv : (sizeCopy.tdiv 10).natAbs = sizeCopy.natAbs / 10 := Int.natAbs_tdiv sizeCopy 10
      rw [numberOfDigitsLoop, if_neg hmore, ih, hdiv, length_numeral_div (by decide) hrest]
      omega

/-- The property as it stands in its block, with its terminating zero. -/
def contentLengthString (size : Int) : Bytes :=
  bytes "Content-Length: " ++ decNumeral size ++ crlf ++ [0]

/-- The digit count leaves out the sign. -/
theorem contentLengthString_fits_iff (size : Int) :
    (contentLengthString size).length ≤ contentLengthAllocation size ↔ 0 ≤ size := by
  have hname : (bytes "Content-Length: ").length = 16 := by decide
  have hframe : (bytes "Content-Length: \r\n").length = 18 := by decide
  have hcrlf : crlf.length = 2 := rfl
  rw [contentLengthAllocation, numberOfDigitsLoop_eq, hframe, contentLengthString]
  simp only [List.length_append, List.length_singleton, hname, hcrlf]
  rw [decNumeral]
  split
  · rw [List.length_cons]
    omega
  · omega

/-- The value of the field `Content-Length` in a header. -/
def contentLengthValue (resp : HttpResponseHeader) : Option Bytes :=
  (resp.body.find? (bytes "Content-Length: ").isPrefixOf).map fun field =>
    (field.drop (bytes "Content-Length: ").length).takeWhile (· != 13)

theorem contentLengthValue_built {resp : HttpResponseHeader} {path : Bytes} {isKeepAlive : Bool}
    {size : Nat} (h : Built resp okDescription
      (staticFields path isKeepAlive ++ [contentLengthField size])) :
    contentLengthValue resp = some (decNumeral size) := by
  have hkey : bytes "Content-Length: " = (contentLengthField size).key := rfl
  have hbefore : ((staticFields path isKeepAlive).map Field.text).find?
      (contentLengthField size).key.isPrefixOf = none := by
    rw [List.find?_eq_none]
    intro text htext hprefix
    obtain ⟨f, hf, rfl⟩ := List.mem_map.mp htext
    have hsuffix : bytes "Content-Length" <:+ f.name :=
      Field.suffix_of_key_found (j := 0) (List.isPrefixOf_iff_prefix.mp hprefix)
    have hname := List.mem_map_of_mem (f := Field.name) hf
    rw [staticFields_names] at hname
    exact absurd hsuffix ((show ∀ name ∈ [bytes "Content-Type", bytes "Server",
      bytes "Connection"], ¬ bytes "Content-Length" <:+ name by decide) f.name hname)
  have hsplit : (contentLengthField size).text =
      (contentLengthField size).key ++ (decNumeral size ++ 13 :: [10]) := by
    rw [Field.text, Field.line, List.append_assoc]
    rfl
  have hfound : (contentLengthField size).key.isPrefixOf (contentLengthField size).text = true := by
    rw [List.isPrefixOf_iff_prefix, hsplit]
    exact List.prefix_append _ _
  have hvalue : ∀ b ∈ decNumeral size, (b != 13) = true := by
    intro b hb
    rw [bne_iff_ne]
    rintro rfl
    exact (decNumeral_plain size).2 hb
  rw [contentLengthValue, h.body_eq, List.map_append, List.find?_append, hkey, hbefore,
    Option.none_or, List.map_singleton, List.find?_cons_of_pos hfound, Option.map_some, hsplit,
    List.drop_left, List.takeWhile_append_of_pos hvalue]
  simp

/-- The part of the body that an event of the response hands over: what stands
behind the header in its write, and the writes of the loop. -/
def bodyOf : Event → Option Bytes
  | .write .header buffer _ => (splitMessage buffer).map Prod.snd
  | .write .body buffer _ => some buffer
  | _ => none

def bodyBytes (events : List Event) : Bytes := (events.filterMap bodyOf).flatten

theorem bodyBytes_append (first second : List Event) :
    bodyBytes (first ++ second) = bodyBytes first ++ bodyBytes second := by
  rw [bodyBytes, List.filterMap_append, List.flatten_append]
  rfl

/-- The results of the writes have no part in the body. -/
theorem bodyBytes_perform (env : Env) (log script : List Event) :
    bodyBytes (perform (answered env) log script) = bodyBytes script := by
  have hanswered : ∀ log e, bodyOf (answered env log e) = bodyOf e := by
    intro log e
    cases e with
    | write site buffer result => cases site <;> rfl
    | _ => rfl
  rw [bodyBytes, filterMap_perform (answered env) hanswered]
  rfl

/-- Of the calls for a slice only the write has a part in the body. -/
theorem bodyBytes_sliceScript (budget : Nat) (site : WriteSite) (before unread : Bytes) :
    bodyBytes (sliceScript false budget site before unread) =
      (bodyOf (.write site (before ++ unread.take budget) 0)).getD [] := by
  have hread : bodyOf (.fread 0 (unread.take budget)) = none := rfl
  have hscript : sliceScript false budget site before unread =
      [.fread 0 (unread.take budget), .write site (before ++ unread.take budget) 0] := rfl
  rw [hscript, bodyBytes, List.filterMap_cons_none hread]
  cases hwrite : bodyOf (.write site (before ++ unread.take budget) 0) with
  | none =>
      rw [List.filterMap_cons_none hwrite]
      rfl
  | some part =>
      rw [List.filterMap_cons_some hwrite]
      simp

/-- The slices of the loop are the unread file. -/
theorem bodyBytes_loopScript (unread : Bytes) : bodyBytes (loopScript false unread) = unread := by
  induction unread using loopScript.induct false with
  | case1 =>
      rw [loopScript_nil]
      rfl
  | case2 unread hne ih =>
      rw [loopScript_of_ne _ hne, bodyBytes_append, ih, bodyBytes_sliceScript]
      exact List.take_append_drop _ _

/-- The slice behind the header and those of the loop are the file. -/
theorem bodyBytes_responseScript (path : Bytes) (isKeepAlive : Bool) (content : Bytes) :
    bodyBytes (responseScript path isKeepAlive false content) = content := by
  have hend : ∀ header, bodyBytes (endScript false isKeepAlive header) = [] := by
    intro header
    cases isKeepAlive <;> rfl
  have hheader : ∀ budget, bodyBytes (sliceScript false budget .header
      (responseHeader path isKeepAlive false content.length) content) =
        content.take (sliceLimit false budget) := by
    intro budget
    rw [bodyBytes_sliceScript, bodyOf, splitMessage_responseHeader]
    rfl
  rw [responseScript, bodyBytes_append, bodyBytes_append, hend, List.append_nil, hheader]
  rcases restScript_cases false (sliceLimit false
    (firstBudget (responseHeader path isKeepAlive false content.length))) content with
    ⟨hrest, hscript⟩ | hscript
  · rw [hscript]
    conv_rhs => rw [← List.take_append_drop (sliceLimit false
      (firstBudget (responseHeader path isKeepAlive false content.length))) content, hrest]
    rfl
  · rw [hscript, bodyBytes_loopScript, List.take_append_drop]

/-- A connection that is about to answer with an open file in identity mode: the
size is that of the file, and the response buffer is empty. -/
structure Serving (c : Conn) (content : Bytes) : Prop where
  file : c.td.staticFile = some { unread := content }
  size : c.td.staticFileSize = content.length
  clear : c.td.responseBuffer = .zero
  identity : c.td.isChunkEncoding = false

/-- The announced length, the length of what is sent unless `SendStaticData` reports
a failed write, and the length of the block that the announcement is built in. -/
structure LengthIsSize (env : Env) (c : Conn) (size : Nat) : Prop where
  value : contentLengthValue (beginStatic c).1 = some (decNumeral size)
  sent : 0 ≤ (sendStaticData env c).1 →
    ∃ events, (sendStaticData env c).2.log = c.log ++ events ∧ (bodyBytes events).length = size
  room : (contentLengthString (toInt32 c.td.staticFileSize)).length ≤
    contentLengthAllocation (toInt32 c.td.staticFileSize)

theorem Serving.lengthIsSize (env : Env) {c : Conn} {content : Bytes}
    (h : Serving c content) (hfits : content.length ≤ intMax) :
    LengthIsSize env c content.length := by
  have hready : Ready c content := ⟨h.file, h.size, hfits, h.clear⟩
  have hbuilt := (beginStatic_begun hready).built
  rw [h.identity] at hbuilt
  refine ⟨contentLengthValue_built hbuilt, fun hdone => ?_, ?_⟩
  · obtain ⟨buffer, hsend⟩ := sendStaticData_performs hready hdone
    refine ⟨_, by rw [hsend], ?_⟩
    rw [bodyBytes_perform, h.identity, bodyBytes_responseScript]
  · rw [contentLengthString_fits_iff, hready.toInt32_size]
    exact Int.natCast_nonneg _

/-- A size that an `int` does not hold becomes another one. -/
theorem Serving.not_lengthIsSize (env : Env) {c : Conn} {content : Bytes}
    (h : Serving c content) (hlong : intMax < content.length) :
    ¬ LengthIsSize env c content.length := by
  have hmax : intMax = 2147483647 := by decide
  intro hlength
  have hroom := hlength.room
  rw [contentLengthString_fits_iff, h.size] at hroom
  obtain ⟨size, hsize⟩ := Int.eq_ofNat_of_zero_le hroom
  have hless : size ≤ intMax := by
    have hbound : toInt32 content.length < (4294967296 + 1) / 2 :=
      Int.bmod_lt (by decide)
    omega
  have hvalue := hlength.value
  have hbegin : (beginStatic c).1 = setResponseContentLength
      (staticDataHeader (c.td.httpHeader.path.getD []) c.td.isKeepAlive) size := by
    rw [beginStatic, h.identity, if_neg Bool.false_ne_true, beginIdentity, h.size, hsize]
  rw [hbegin, contentLengthValue_built (identityHeader_built _ _ size), Option.some.injEq,
    decNumeral, decNumeral, if_neg (by omega), if_neg (by omega), Int.natAbs_natCast,
    Int.natAbs_natCast] at hvalue
  have heq := numeral_inj (by decide) (by decide) hvalue
  omega

/-- In identity mode the announced length is right exactly for the files whose
size fits into an `int`. -/
theorem sendStaticData_lengthIsSize_iff (env : Env) {c : Conn} {content : Bytes}
    (h : Serving c content) :
    LengthIsSize env c content.length ↔ content.length ≤ intMax := by
  constructor
  · intro hlength
    by_contra hlong
    exact h.not_lengthIsSize env (by omega) hlength
  · exact h.lengthIsSize env

theorem Conn.serving_identity (path content : Bytes) (isKeepAlive : Bool) :
    Serving (Conn.serving path content isKeepAlive false) content :=
  ⟨rfl, rfl, rfl, rfl⟩

theorem sendStaticData_lengthIsSize_hello :
    LengthIsSize (Env.steady fun _ => none)
      (Conn.serving (bytes "/hello.txt") (bytes "hello") true false) (bytes "hello").length :=
  (sendStaticData_lengthIsSize_iff _ (Conn.serving_identity _ _ true)).mpr (by decide)

/-- Two gigabytes are announced with a sign, for which there is no room. -/
theorem sendStaticData_length_wraps :
    ¬ LengthIsSize (Env.steady fun _ => none)
      (Conn.serving (bytes "/zero.bin") (List.replicate 2147483648 0) true false) 2147483648 := by
  have hlong := (Conn.serving_identity (bytes "/zero.bin") (List.replicate 2147483648 0)
    true).not_lengthIsSize (Env.steady fun _ => none)
  rw [List.length_replicate] at hlong
  exact hlong (by decide)

end HttpsServ.ContentLength
