import HttpsServ.StaticTransfer

/-!
# The file in the slices of a response

The slices that a response reads are the file, in order and without loss. Each
is handed over in the write behind its read, and with chunked encoding
`total_data_size` is the number of unread bytes whenever a frame is computed.
-/

namespace HttpsServ.PayloadConservation

open ByteString Http ResponseHeader StaticTransfer ChunkFrames Script

def sliceOf : Event → Option Bytes
  | .fread _ slice => some slice
  | _ => none

/-- The slices that a run reads from the file, in order. -/
def freadSlices (events : List Event) : List Bytes := events.filterMap sliceOf

/-- Every slice is the end of the write directly behind its read, except for
the line end of a chunk. -/
def HandedOver (isChunkEncoding : Bool) : List Event → Prop
  | [] => True
  | .fread _ slice :: .write _ buffer _ :: rest =>
      slice ++ (if isChunkEncoding then crlf else []) <:+ buffer ∧ HandedOver isChunkEncoding rest
  | .fread _ _ :: _ => False
  | _ :: rest => HandedOver isChunkEncoding rest

/-- Every read comes directly behind the computation of its frame, and there
`total_data_size` is the number of bytes that are not read yet. -/
def TotalsMatch : Nat → List Event → Prop
  | _, [] => True
  | unread, .chunkCall total _ :: .fread _ slice :: rest =>
      total = unread ∧ slice.length ≤ unread ∧ TotalsMatch (unread - slice.length) rest
  | _, .chunkCall _ _ :: _ => False
  | _, .fread _ _ :: _ => False
  | unread, _ :: rest => TotalsMatch unread rest

/-- What a run does with the unread part of the file. -/
structure Conserves (isChunkEncoding : Bool) (unread : Bytes) (events : List Event) : Prop where
  slices : (freadSlices events).flatten = unread
  handed : HandedOver isChunkEncoding events
  totals : isChunkEncoding = true → TotalsMatch unread.length events

theorem suffix_frame (isChunkEncoding : Bool) (before slice : Bytes) :
    slice ++ (if isChunkEncoding then crlf else []) <:+ before ++ frame isChunkEncoding slice := by
  cases isChunkEncoding with
  | false => simp [frame]
  | true =>
      refine ⟨before ++ ((Numeral.hexNumeral slice.length).take (sizeWidth slice.length) ++ crlf),
        ?_⟩
      simp only [frame, chunkFrame, if_true, List.append_assoc]

/-- One slice of the script. -/
theorem Conserves.slice (env : Env) (log : List Event) {isChunkEncoding : Bool} {budget : Nat}
    {unread : Bytes} {rest : List Event}
    (h : Conserves isChunkEncoding (unread.drop (sliceLimit isChunkEncoding budget)) rest)
    (site : WriteSite) (before : Bytes) :
    Conserves isChunkEncoding unread
      (perform (answered env) log (sliceScript isChunkEncoding budget site before unread) ++
        rest) := by
  have hsuffix := suffix_frame isChunkEncoding before
    (unread.take (sliceLimit isChunkEncoding budget))
  have hflatten := h.slices
  have hhanded := h.handed
  have htotals := h.totals
  rw [perform_sliceScript]
  cases isChunkEncoding with
  | false =>
      refine ⟨?_, ⟨hsuffix, hhanded⟩, fun h => by cases h⟩
      calc (freadSlices (_ ++ rest)).flatten
          = unread.take (sliceLimit false budget) ++ (freadSlices rest).flatten := rfl
        _ = unread := by rw [hflatten, List.take_append_drop]
  | true =>
      have hlen : (unread.take (sliceLimit true budget)).length ≤ unread.length :=
        (List.take_sublist _ _).length_le
      have hleft : unread.length - (unread.take (sliceLimit true budget)).length =
          (unread.drop (sliceLimit true budget)).length := by
        rw [List.length_take, List.length_drop]
        omega
      refine ⟨?_, ⟨hsuffix, hhanded⟩, fun _ => ⟨rfl, hlen, ?_⟩⟩
      · calc (freadSlices (_ ++ rest)).flatten
            = unread.take (sliceLimit true budget) ++ (freadSlices rest).flatten := rfl
          _ = unread := by rw [hflatten, List.take_append_drop]
      · rw [hleft]
        exact htotals rfl

/-- The loop, slice by slice. -/
theorem Conserves.loop (env : Env) (log : List Event) {isChunkEncoding : Bool}
    (unread : Bytes) {rest : List Event} (h : Conserves isChunkEncoding [] rest) :
    Conserves isChunkEncoding unread
      (perform (answered env) log (loopScript isChunkEncoding unread) ++ rest) := by
  induction unread using loopScript.induct isChunkEncoding generalizing log with
  | case1 =>
      rw [loopScript_nil]
      exact Conserves.slice env log (by simpa using h) _ _
  | case2 unread hne ih =>
      rw [loopScript_of_ne _ hne, perform_append, List.append_assoc]
      exact Conserves.slice env log (ih _) _ _

/-- Behind the loop nothing is read. -/
theorem Conserves.finish (env : Env) (log : List Event) (isChunkEncoding isKeepAlive : Bool)
    (header : Bytes) :
    Conserves isChunkEncoding []
      (perform (answered env) log (endScript isChunkEncoding isKeepAlive header)) := by
  cases isChunkEncoding <;> cases isKeepAlive <;>
    exact ⟨rfl, trivial, fun _ => trivial⟩

/-- The whole script of a response conserves the file. -/
theorem responseScript_conserves (env : Env) (log : List Event) (path : Bytes)
    (isKeepAlive isChunkEncoding : Bool) (content : Bytes) :
    Conserves isChunkEncoding content
      (perform (answered env) log
        (responseScript path isKeepAlive isChunkEncoding content)) := by
  rw [responseScript, perform_append, perform_append, List.append_assoc]
  apply Conserves.slice
  rcases restScript_cases isChunkEncoding (sliceLimit isChunkEncoding
    (firstBudget (responseHeader path isKeepAlive isChunkEncoding content.length))) content with
    ⟨hrest, hscript⟩ | hscript
  · rw [hrest, hscript]
    exact Conserves.finish ..
  · rw [hscript]
    exact Conserves.loop _ _ _ (Conserves.finish ..)

/-- `SendStaticData` returns, the slices it reads are the file, each goes out in
the write behind its read, and the count of unread bytes is kept. -/
theorem sendStaticData_conserves {env : Env} (henv : NoWriteFails env) {c : Conn}
    {content : Bytes} (h : Ready c content) :
    ∃ events, (sendStaticData env c).1 = 0 ∧
      (sendStaticData env c).2.log = c.log ++ events ∧
      (freadSlices events).flatten = content ∧
      HandedOver c.td.isChunkEncoding events ∧
      (c.td.isChunkEncoding = true → TotalsMatch content.length events) := by
  obtain ⟨buffer, hsend⟩ := sendStaticData_eq henv h
  obtain ⟨hslices, hhanded, htotals⟩ := responseScript_conserves env c.log
    (c.td.httpHeader.path.getD []) c.td.isKeepAlive c.td.isChunkEncoding content
  refine ⟨_, ?_, ?_, hslices, hhanded, htotals⟩
  · rw [hsend]
  · rw [hsend]

/-- A file of 10000 bytes needs the loop. -/
theorem sendStaticData_conserves_10000 :
    ∃ events,
      (sendStaticData (Env.steady fun _ => none)
        (Conn.serving (bytes "/zero.bin") (List.replicate 10000 0) true true)).1 = 0 ∧
      (sendStaticData (Env.steady fun _ => none)
        (Conn.serving (bytes "/zero.bin") (List.replicate 10000 0) true true)).2.log =
          [] ++ events ∧
      (freadSlices events).flatten = List.replicate 10000 0 ∧
      HandedOver true events ∧
      (true = true → TotalsMatch (List.replicate 10000 (0 : UInt8)).length events) := by
  have hfits : (List.replicate 10000 (0 : UInt8)).length ≤ Utility.intMax := by
    rw [List.length_replicate]
    decide
  exact sendStaticData_conserves (Env.steady_fullWrites _).noWriteFails
    (Conn.serving_ready _ _ true true hfits)

end HttpsServ.PayloadConservation
