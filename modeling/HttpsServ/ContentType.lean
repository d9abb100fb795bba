import HttpsServ.HeaderUpdates
import HttpsServ.CaseSearch
import HttpsServ.Library.Segments

/-!
# The type of a file by its extension

`SetResponseContentType` looks for every extension of the table anywhere in the
path and lets the last one found in table order win. An extension is found when
some piece of the path between two dots begins with it.
-/

namespace HttpsServ.ContentType

open ByteString Utility HttpParser ResponseHeader HeaderUpdates CaseSearch Segments

def lastComponent (path : Bytes) : Bytes := (path.splitOn 47).getLastD []

/-- The last component of a path from its last dot on. -/
def extension (path : Bytes) : Option Bytes :=
  if 46 ∈ lastComponent path then some (46 :: ((lastComponent path).splitOn 46).getLastD [])
  else none

/-- The type listed for the extension of a path, compared without case. -/
def extensionType (path : Bytes) : Bytes :=
  ((extension path).bind fun ext =>
    kMimeTypes.find? fun mime => lowered mime.extension = lowered ext).elim
      (bytes "text/plain") MimeType.type

theorem extension_suffix {path ext : Bytes} (h : extension path = some ext) : ext <:+ path := by
  rw [extension] at h
  split at h
  · rename_i hdot
    obtain rfl := Option.some.inj h
    exact (cons_lastSegment_suffix hdot).trans (lastSegment_suffix path)
  · cases h

/-- A piece of the path behind a dot begins with the listed extension. -/
def Carried (mime : MimeType) (path : Bytes) : Prop :=
  ∃ piece ∈ (path.splitOn 46).tail, lowered mime.extension.tail <+: lowered piece

/-- Every listed extension is a dot and text without dots, in lower case. -/
theorem kMimeTypes_dotted : ∀ mime ∈ kMimeTypes,
    mime.extension.head? = some 46 ∧ 46 ∉ mime.extension.tail := by
  decide +kernel

theorem extension_ne_nil {mime : MimeType} (hmime : mime ∈ kMimeTypes) : mime.extension ≠ [] := by
  intro hnil
  have hhead := (kMimeTypes_dotted mime hmime).1
  rw [hnil] at hhead
  cases hhead

theorem lowered_extension {mime : MimeType} (hmime : mime ∈ kMimeTypes) :
    lowered mime.extension = 46 :: lowered mime.extension.tail ∧
      46 ∉ lowered mime.extension.tail := by
  obtain ⟨hhead, htail⟩ := kMimeTypes_dotted mime hmime
  constructor
  · obtain ⟨b, word, hext⟩ := List.exists_cons_of_ne_nil (extension_ne_nil hmime)
    rw [hext] at hhead ⊢
    obtain rfl := Option.some.inj hhead
    rfl
  · rwa [mem_lowered_iff (by decide)]

theorem found_iff_carried {mime : MimeType} (hmime : mime ∈ kMimeTypes) (path : Bytes) :
    (stristr path mime.extension).isSome = true ↔ Carried mime path := by
  obtain ⟨hext, hdot⟩ := lowered_extension hmime
  rw [stristr_isSome_iff path (extension_ne_nil hmime), hext, cons_infix_iff_segment hdot,
    splitOn_lowered (by decide), ← List.map_tail]
  simp only [Carried, List.mem_map, exists_exists_and_eq_and]

theorem found_of_extension {mime : MimeType} (hmime : mime ∈ kMimeTypes) {path ext : Bytes}
    (hpath : extension path = some ext) (heq : lowered mime.extension = lowered ext) :
    (stristr path mime.extension).isSome = true := by
  rw [stristr_isSome_iff path (extension_ne_nil hmime), heq]
  exact ((extension_suffix hpath).map tolower).isInfix

/-- The last entry that is found decides. -/
theorem lastType_eq_iff {types : List MimeType} {found : MimeType → Bool} {default type : Bytes}
    (hnone : (∀ mime ∈ types, found mime = false) → type = default) :
    ((types.filter found).getLast?.map MimeType.type).getD default = type ↔
      ∀ before mime after, types = before ++ mime :: after → found mime = true →
        mime.type ≠ type → ∃ later ∈ after, found later = true ∧ later.type = type := by
  constructor
  · intro hlast before mime after hsplit hfound hne
    rw [hsplit, List.filter_append, List.filter_cons_of_pos hfound] at hlast
    cases hafter : (after.filter found).getLast? with
    | none =>
        rw [List.getLast?_eq_none_iff] at hafter
        rw [hafter, List.getLast?_concat] at hlast
        exact absurd hlast hne
    | some later =>
        have hmem := List.mem_filter.mp (List.mem_of_getLast? hafter)
        refine ⟨later, hmem.1, hmem.2, ?_⟩
        simpa [List.getLast?_append, List.getLast?_cons, hafter] using hlast
  · intro hwins
    rcases List.eq_nil_or_concat' (types.filter found) with hnil | ⟨front, mime, hfilter⟩
    · rw [hnil]
      apply (hnone _).symm
      intro mime hmime
      simpa using List.filter_eq_nil_iff.mp hnil mime hmime
    · obtain ⟨before, rest, hsplit, -, hrest⟩ := List.filter_eq_append_iff.mp hfilter
      obtain ⟨skipped, after, hrest', -, hfound, hafter⟩ := List.filter_eq_cons_iff.mp hrest
      rw [hfilter, List.getLast?_concat, Option.map_some, Option.getD_some]
      by_contra hne
      obtain ⟨later, hlater, hfound', -⟩ := hwins (before ++ skipped) mime after
        (by rw [hsplit, hrest', List.append_assoc]) hfound hne
      exact List.filter_eq_nil_iff.mp hafter later hlater hfound'

/-- Every listed extension of another type that a piece of the path begins with is
followed in the table by one of the right type. -/
def TypeWins (path : Bytes) : Prop :=
  ∀ before mime after, kMimeTypes = before ++ mime :: after → Carried mime path →
    mime.type ≠ extensionType path →
      ∃ later ∈ after, Carried later path ∧ later.type = extensionType path

theorem chosenType_eq_iff (path : Bytes) :
    chosenType path = extensionType path ↔ TypeWins path := by
  rw [chosenType, lastType_eq_iff]
  · constructor
    · intro h before mime after hsplit hcarried hne
      have hmime : mime ∈ kMimeTypes := by simp [hsplit]
      obtain ⟨later, hlater, hfound, htype⟩ :=
        h before mime after hsplit ((found_iff_carried hmime path).mpr hcarried) hne
      have hmem : later ∈ kMimeTypes := by simp [hsplit, hlater]
      exact ⟨later, hlater, (found_iff_carried hmem path).mp hfound, htype⟩
    · intro h before mime after hsplit hfound hne
      have hmime : mime ∈ kMimeTypes := by simp [hsplit]
      obtain ⟨later, hlater, hcarried, htype⟩ :=
        h before mime after hsplit ((found_iff_carried hmime path).mp hfound) hne
      have hmem : later ∈ kMimeTypes := by simp [hsplit, hlater]
      exact ⟨later, hlater, (found_iff_carried hmem path).mpr hcarried, htype⟩
  · intro hnone
    rw [extensionType]
    cases hpath : extension path with
    | none => rfl
    | some ext =>
        rw [Option.bind_some, List.find?_eq_none.mpr]
        · rfl
        · intro mime hmime heq
          have hfound := found_of_extension hmime hpath (of_decide_eq_true heq)
          rw [hnone mime hmime] at hfound
          cases hfound

theorem contentTypeProperty_key (type : Bytes) :
    32 ∈ contentTypeProperty type ∧
      fieldKey (contentTypeProperty type) = bytes "Content-Type: " := by
  have hshape : contentTypeProperty type = bytes "Content-Type:" ++ 32 :: (type ++ crlf) := by
    rw [contentTypeProperty, List.append_assoc]
    rfl
  constructor
  · rw [hshape]
    simp
  · rw [fieldKey, hshape]
    rfl

section Fields

variable {resp : HttpResponseHeader} {lines : List Bytes}

/-- The first type of a call is appended. -/
theorem setResponseProperty_newType (type : Bytes) (hroom : resp.body.length < httpBodyFieldLimit)
    (hnew : ∀ line ∈ resp.body, ¬ bytes "Content-Type: " <:+: line) :
    (setResponseProperty resp (contentTypeProperty type)).body =
      resp.body ++ [contentTypeProperty type] := by
  obtain ⟨hspace, hkey⟩ := contentTypeProperty_key type
  rcases setResponseProperty_body hroom hspace with
    ⟨before, old, after, hbody, -, hold, -⟩ | ⟨-, hset⟩
  · rw [hkey] at hold
    exact absurd hold (hnew old (by simp [hbody]))
  · exact hset

/-- Every further type takes the place of the one before. -/
theorem setResponseProperty_nextType {old : Bytes} (type : Bytes)
    (hbody : resp.body = lines ++ [contentTypeProperty old])
    (hroom : lines.length + 1 < httpBodyFieldLimit)
    (hnew : ∀ line ∈ lines, ¬ bytes "Content-Type: " <:+: line) :
    (setResponseProperty resp (contentTypeProperty type)).body =
      lines ++ [contentTypeProperty type] := by
  obtain ⟨hspace, hkey⟩ := contentTypeProperty_key type
  have hlength : resp.body.length = lines.length + 1 := by rw [hbody, List.length_append]; rfl
  rcases setResponseProperty_body (by rwa [hlength]) hspace with
    ⟨before, found, after, hsplit, -, hold, hset⟩ | ⟨hnone, -⟩
  · rw [hbody] at hsplit
    rw [hkey] at hold
    rw [hset]
    rcases List.eq_nil_or_concat' after with rfl | ⟨after, final, rfl⟩
    · obtain ⟨rfl, -⟩ := List.append_inj' hsplit rfl
      rfl
    · rw [← List.cons_append, ← List.append_assoc] at hsplit
      obtain ⟨rfl, -⟩ := List.append_inj' hsplit rfl
      exact absurd hold (hnew found (by simp))
  · obtain ⟨hspace', hkey'⟩ := contentTypeProperty_key old
    refine absurd ?_ (hnone (contentTypeProperty old) (by simp [hbody]))
    rw [hkey, ← hkey']
    exact (fieldKey_begins hspace').isInfix

theorem foldl_contentTypes (types : List Bytes) (last : Bytes)
    (hroom : resp.body.length + 1 < httpBodyFieldLimit)
    (hnew : ∀ line ∈ resp.body, ¬ bytes "Content-Type: " <:+: line) :
    (((types ++ [last]).map contentTypeProperty).foldl setResponseProperty resp).body =
      resp.body ++ [contentTypeProperty last] := by
  induction types using List.reverseRecOn generalizing last with
  | nil =>
      have hsmall : resp.body.length < httpBodyFieldLimit := by omega
      exact setResponseProperty_newType last hsmall hnew
  | append_singleton types old ih =>
      rw [List.map_append, List.foldl_append]
      exact setResponseProperty_nextType last (ih old) hroom hnew

/-- The call sets one field, with the type that was found last. -/
theorem setResponseContentType_body (path : Bytes)
    (hroom : resp.body.length + 1 < httpBodyFieldLimit)
    (hnew : ∀ line ∈ resp.body, ¬ bytes "Content-Type: " <:+: line) :
    (setResponseContentType resp path).body =
      resp.body ++ [contentTypeProperty (chosenType path)] := by
  have hplain : bytes "Content-Type: text/plain\r\n" =
      contentTypeProperty (bytes "text/plain") := by decide
  rw [setResponseContentType_eq, contentTypeProperties, chosenType]
  rcases List.eq_nil_or_concat' (kMimeTypes.filter fun mime =>
    (stristr path mime.extension).isSome) with hnil | ⟨front, mime, hfilter⟩
  · simp only [hnil, List.foldl_cons, List.foldl_nil, hplain]
    exact setResponseProperty_newType _ (by omega) hnew
  · have hfold := foldl_contentTypes (front.map MimeType.type) mime.type hroom hnew
    rw [hfilter, List.getLast?_concat, Option.map_some, Option.getD_some, ← hfold]
    rw [← List.map_singleton (f := MimeType.type), ← List.map_append, List.map_map]
    cases front with
    | nil => rfl
    | cons first front => rfl

/-- The field carries the type of the path's extension exactly when that type
wins in table order. -/
theorem setResponseContentType_iff (path : Bytes)
    (hroom : resp.body.length + 1 < httpBodyFieldLimit)
    (hnew : ∀ line ∈ resp.body, ¬ bytes "Content-Type: " <:+: line) :
    (setResponseContentType resp path).body =
        resp.body ++ [contentTypeProperty (extensionType path)] ↔ TypeWins path := by
  rw [setResponseContentType_body path hroom hnew, ← chosenType_eq_iff, List.append_cancel_left_eq,
    List.singleton_inj, contentTypeProperty, contentTypeProperty, List.append_cancel_right_eq,
    List.append_cancel_left_eq]

end Fields

theorem setResponseContentType_iff_css : TypeWins (bytes "/v.css/B.csV") :=
  (@setResponseContentType_iff {} (bytes "/v.css/B.csV") (by decide) (by simp)).mp
    (by decide +kernel)

/-- A script by an earlier dot, though the file is a style sheet. -/
theorem scriptStyle_wrongType :
    ¬ ∀ path, (setResponseContentType {} path).body = [contentTypeProperty (extensionType path)] := by
  intro h
  have hbody := h (bytes "/a.js.css")
  revert hbody
  decide +kernel

end HttpsServ.ContentType
