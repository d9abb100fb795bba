import HttpsServ.Library.ByteString
import Mathlib.Algebra.Order.Group.Multiset
import Mathlib.Tactic.Abel

/-!
# Programs over a heap of blocks

A block of characters is known by its size and by what has been written from its
start on. A step that the language leaves undefined (a second `free`, a pointer
into a block given to `free`, a write behind the end of a block, a read of what
was never written) has no result. A triple says what a program does to the
blocks that it is given, whatever other blocks there are.
-/

namespace HttpsServ.HeapProgram

open ByteString

inductive Block
  /-- Characters: how many there are, and those written so far. -/
  | chars (size : Nat) (written : Bytes)
  /-- An array of pointers, `none` where nothing was stored. -/
  | pointers (slots : List (Option Nat))
  /-- A record whose contents are not followed here. -/
  | object
  deriving DecidableEq

/-- The blocks that are allocated, each under an address of its own. -/
structure Heap where
  next : Nat
  blocks : List (Nat × Block)
  distinct : (blocks.map Prod.fst).Nodup
  old : ∀ entry ∈ blocks, entry.1 < next

def Heap.empty : Heap := ⟨0, [], List.nodup_nil, fun _ h => absurd h List.not_mem_nil⟩

/-- A program on the heap; `none` when it does something undefined. -/
abbrev Program (β : Type) := StateT Heap Option β

namespace Heap

def find (h : Heap) (address : Nat) : Option Block := h.blocks.lookup address

def allocate (h : Heap) (block : Block) : Heap where
  next := h.next + 1
  blocks := (h.next, block) :: h.blocks
  distinct := by
    rw [List.map_cons, List.nodup_cons]
    refine ⟨fun hmem => ?_, h.distinct⟩
    obtain ⟨entry, hentry, heq⟩ := List.mem_map.mp hmem
    exact (h.old entry hentry).ne heq
  old := by
    intro entry hentry
    rcases List.mem_cons.mp hentry with rfl | hentry
    · exact Nat.lt_succ_self _
    · exact (h.old entry hentry).trans (Nat.lt_succ_self _)

def release (h : Heap) (address : Nat) : Heap where
  next := h.next
  blocks := h.blocks.filter fun entry => entry.1 ≠ address
  distinct := h.distinct.sublist (List.filter_sublist.map _)
  old := fun entry hentry => h.old entry (List.mem_filter.mp hentry).1

def replace (h : Heap) (address : Nat) (block : Block) : Heap where
  next := h.next
  blocks := h.blocks.map fun entry => if entry.1 = address then (address, block) else entry
  distinct := by
    have hkeys : (Prod.fst ∘ fun entry : Nat × Block =>
        if entry.1 = address then (address, block) else entry) = Prod.fst := by
      ext entry
      by_cases hentry : entry.1 = address
      · simp [hentry]
      · simp [hentry]
    rw [List.map_map, hkeys]
    exact h.distinct
  old := by
    intro entry hentry
    obtain ⟨entry', hentry', rfl⟩ := List.mem_map.mp hentry
    by_cases haddress : entry'.1 = address
    · rw [if_pos haddress]
      exact haddress ▸ h.old entry' hentry'
    · rw [if_neg haddress]
      exact h.old entry' hentry'

/-- The blocks without an order. -/
def owned (h : Heap) : Multiset (Nat × Block) := h.blocks

end Heap

/-- Something undefined. -/
def undefined {β : Type} : Program β := fun _ => none

def malloc (block : Block) : Program Nat := fun h => some (h.next, h.allocate block)

def load (address : Nat) : Program Block := fun h => (h.find address).map fun block => (block, h)

def store (address : Nat) (block : Block) : Program Unit := fun h =>
  (h.find address).map fun _ => ((), h.replace address block)

/-- `free` of a pointer `offset` places into a block. -/
def freeAt (address offset : Nat) : Program Unit := fun h =>
  if offset = 0 then (h.find address).map fun _ => ((), h.release address) else none

def free (address : Nat) : Program Unit := freeAt address 0

/-- `free`, which does nothing for `NULL`. -/
def freeNullable : Option Nat → Program Unit
  | none => pure ()
  | some address => free address

/-- Room for characters. -/
def mallocChars (size : Nat) : Program Nat := malloc (.chars size [])

/-- Store characters behind or over those that are written. -/
def memcpy (address offset : Nat) (data : Bytes) : Program Unit := do
  match ← load address with
  | .chars size written =>
      if offset ≤ written.length ∧ offset + data.length ≤ size then
        store address
          (.chars size (written.take offset ++ data ++ written.drop (offset + data.length)))
      else undefined
  | _ => undefined

/-- `strcpy` of a string and its zero. -/
def strcpy (address : Nat) (s : Bytes) : Program Unit := do
  match ← load address with
  | .chars size _ =>
      if s.length < size then store address (.chars size (s ++ [0])) else undefined
  | _ => undefined

/-- The string of a block, when a zero ends what is written. -/
def textOf (written : Bytes) : Option Bytes :=
  if written.getLast? = some 0 then some written.dropLast else none

def loadText (address : Nat) : Program Bytes := do
  match ← load address with
  | .chars _ written =>
      match textOf written with
      | some s => pure s
      | none => undefined
  | _ => undefined

def strcat (address : Nat) (s : Bytes) : Program Unit := do
  let t ← loadText address
  strcpy address (t ++ s)

/-- The first characters of a block, which must have been written. -/
def loadChars (address count : Nat) : Program Bytes := do
  match ← load address with
  | .chars _ written => if count ≤ written.length then pure (written.take count) else undefined
  | _ => undefined

/-- The string at a place of a block, up to its zero. -/
def loadTextAt (address offset : Nat) : Program Bytes := do
  match ← load address with
  | .chars _ written =>
      if 0 ∈ written.drop offset then pure (cstr (written.drop offset)) else undefined
  | _ => undefined

/-- `realloc` of characters, which moves those that still fit. -/
def reallocChars (address size : Nat) : Program Nat := do
  match ← load address with
  | .chars _ written =>
      free address
      malloc (.chars size (written.take size))
  | _ => undefined

def loadSlot (address i : Nat) : Program Nat := do
  match ← load address with
  | .pointers slots =>
      match slots.getD i none with
      | some pointer => pure pointer
      | none => undefined
  | _ => undefined

def storeSlot (address i pointer : Nat) : Program Unit := do
  match ← load address with
  | .pointers slots =>
      if i < slots.length then store address (.pointers (slots.set i (some pointer)))
      else undefined
  | _ => undefined

/-- `memcpy` of the first slots of an array into another one. -/
def copySlots (target source count : Nat) : Program Unit := do
  match ← load source, ← load target with
  | .pointers slots, .pointers old =>
      if count ≤ slots.length ∧ count ≤ old.length then
        store target (.pointers (slots.take count ++ old.drop count))
      else undefined
  | _, _ => undefined

/-- One block under its address. -/
def cell (address : Nat) (block : Block) : Multiset (Nat × Block) := {(address, block)}

section Lookup

variable {h : Heap} {address : Nat} {block : Block} {rest : Multiset (Nat × Block)}

theorem owned_allocate (h : Heap) (block : Block) :
    (h.allocate block).owned = cell h.next block + h.owned := rfl

/-- A block that is owned stands in the list, with the others around it. -/
theorem split_of_owned (howned : h.owned = cell address block + rest) :
    ∃ front back, h.blocks = front ++ (address, block) :: back ∧
      (∀ entry ∈ front ++ back, entry.1 ≠ address) ∧ rest = (front ++ back : List (Nat × Block)) := by
  have hmem : (address, block) ∈ h.blocks := by
    rw [← Multiset.mem_coe]
    show (address, block) ∈ h.owned
    rw [howned]
    exact Multiset.mem_add.mpr (.inl (Multiset.mem_singleton_self _))
  obtain ⟨front, back, hsplit⟩ := List.append_of_mem hmem
  refine ⟨front, back, hsplit, ?_, ?_⟩
  · have hdistinct := h.distinct
    rw [hsplit, List.map_append, List.map_cons, List.nodup_middle, List.nodup_cons,
      ← List.map_append] at hdistinct
    intro entry hentry heq
    exact hdistinct.1 (List.mem_map.mpr ⟨entry, hentry, heq⟩)
  · have hcoe : h.owned = cell address block + (front ++ back : List (Nat × Block)) := by
      show (h.blocks : Multiset (Nat × Block)) = _
      rw [hsplit, cell, Multiset.singleton_add, Multiset.cons_coe, Multiset.coe_eq_coe]
      exact List.perm_middle
    exact Multiset.add_right_inj.mp (howned.symm.trans hcoe)

theorem find_of_owned (howned : h.owned = cell address block + rest) :
    h.find address = some block := by
  obtain ⟨front, back, hsplit, hother, -⟩ := split_of_owned howned
  have hfront : front.lookup address = none := by
    rw [List.lookup_eq_none_iff]
    intro entry hentry
    simpa using (hother entry (List.mem_append_left _ hentry)).symm
  rw [Heap.find, hsplit, List.lookup_append, hfront, Option.none_or, List.lookup_cons_self]

theorem owned_release (howned : h.owned = cell address block + rest) :
    (h.release address).owned = rest := by
  obtain ⟨front, back, hsplit, hother, hrest⟩ := split_of_owned howned
  show (h.blocks.filter (fun entry => decide (entry.1 ≠ address)) : Multiset (Nat × Block)) = rest
  have hkeep : (front ++ back).filter (fun entry => decide (entry.1 ≠ address)) = front ++ back := by
    rw [List.filter_eq_self]
    intro entry hentry
    exact decide_eq_true (hother entry hentry)
  rw [hrest, hsplit, List.filter_append, List.filter_cons_of_neg (by simp), ← List.filter_append,
    hkeep]

theorem owned_replace (howned : h.owned = cell address block + rest) (block' : Block) :
    (h.replace address block').owned = cell address block' + rest := by
  obtain ⟨front, back, hsplit, hother, hrest⟩ := split_of_owned howned
  have hkeep : ∀ l : List (Nat × Block), l ⊆ front ++ back →
      (l.map fun entry => if entry.1 = address then (address, block') else entry) = l := by
    intro l hl
    rw [List.map_congr_left (g := id), List.map_id]
    intro entry hentry
    exact if_neg (hother entry (hl hentry))
  show (h.blocks.map (fun entry => if entry.1 = address then (address, block') else entry) :
    Multiset (Nat × Block)) = _
  rw [hsplit, List.map_append, List.map_cons, hkeep front (List.subset_append_left _ _),
    hkeep back (List.subset_append_right _ _), if_pos rfl, hrest, cell, Multiset.singleton_add,
    Multiset.cons_coe, Multiset.coe_eq_coe]
  exact List.perm_middle

end Lookup

section Triple

variable {β γ : Type} {s t : Multiset (Nat × Block)} {m : Program β} {f : β → Program γ}
  {post : β → Multiset (Nat × Block) → Prop} {post' : γ → Multiset (Nat × Block) → Prop}

/-- On the blocks `s`, beside any others, the program does nothing undefined; what
it returns and the blocks it leaves are as the postcondition says, and the others
are untouched. -/
def Triple (s : Multiset (Nat × Block)) (m : Program β)
    (post : β → Multiset (Nat × Block) → Prop) : Prop :=
  ∀ h rest, Heap.owned h = s + rest →
    ∃ b h' t, m h = some (b, h') ∧ h'.owned = t + rest ∧ post b t

/-- On the blocks `s` the program does something undefined. -/
def Faults (s : Multiset (Nat × Block)) (m : Program β) : Prop :=
  ∀ h rest, Heap.owned h = s + rest → m h = none

theorem Triple.pure {b : β} (h : post b s) : Triple s (pure b) post :=
  fun heap _ howned => ⟨b, heap, s, rfl, howned, h⟩

theorem Triple.bind (h : Triple s m post) (hnext : ∀ b t, post b t → Triple t (f b) post') :
    Triple s (m >>= f) post' := by
  intro heap rest howned
  obtain ⟨b, heap', t, hrun, howned', hpost⟩ := h heap rest howned
  obtain ⟨c, heap'', u, hrun', howned'', hpost'⟩ := hnext b t hpost heap' rest howned'
  refine ⟨c, heap'', u, ?_, howned'', hpost'⟩
  show (m heap).bind (fun r => f r.1 r.2) = _
  rw [hrun]
  exact hrun'

/-- A step that returns a known value and leaves known blocks. -/
theorem Triple.value {b : β} (h : Triple s m fun b' u => b' = b ∧ u = t)
    (hnext : Triple t (f b) post') : Triple s (m >>= f) post' := by
  apply h.bind
  rintro b' u ⟨rfl, rfl⟩
  exact hnext

theorem Triple.skip {b : β} (hnext : Triple s (f b) post') : Triple s (Pure.pure b >>= f) post' :=
  Triple.value (Triple.pure ⟨rfl, rfl⟩) hnext

/-- A step that leaves known blocks. -/
theorem Triple.step (h : Triple s m fun _ u => u = t) (hnext : ∀ b, Triple t (f b) post') :
    Triple s (m >>= f) post' := by
  apply h.bind
  rintro b u rfl
  exact hnext b

theorem Triple.mono {post₂ : β → Multiset (Nat × Block) → Prop} (h : Triple s m post)
    (himp : ∀ b t, post b t → post₂ b t) : Triple s m post₂ := by
  intro heap rest howned
  obtain ⟨b, heap', t, hrun, howned', hpost⟩ := h heap rest howned
  exact ⟨b, heap', t, hrun, howned', himp b t hpost⟩

/-- Blocks that a program is not given are as they were. -/
theorem Triple.frame (h : Triple s m post) (others : Multiset (Nat × Block)) :
    Triple (s + others) m fun b t => ∃ u, t = u + others ∧ post b u := by
  intro heap rest howned
  rw [add_assoc] at howned
  obtain ⟨b, heap', t, hrun, howned', hpost⟩ := h heap (others + rest) howned
  exact ⟨b, heap', t + others, hrun, by rw [howned', add_assoc], t, rfl, hpost⟩

theorem Triple.of_eq (h : Triple s m post) (heq : t = s) : Triple t m post := heq ▸ h

/-- A program that runs on its own blocks from the empty heap. -/
theorem Triple.run (h : Triple 0 m post) :
    ∃ b heap, m Heap.empty = some (b, heap) ∧ post b heap.owned := by
  obtain ⟨b, heap, t, hrun, howned, hpost⟩ := h Heap.empty 0 rfl
  rw [add_zero] at howned
  exact ⟨b, heap, hrun, howned ▸ hpost⟩

theorem Faults.bind (h : Faults s m) : Faults s (m >>= f) := by
  intro heap rest howned
  show (m heap).bind (fun r => f r.1 r.2) = _
  rw [h heap rest howned]
  rfl

theorem Triple.bind_faults (h : Triple s m post) (hnext : ∀ b t, post b t → Faults t (f b)) :
    Faults s (m >>= f) := by
  intro heap rest howned
  obtain ⟨b, heap', t, hrun, howned', hpost⟩ := h heap rest howned
  show (m heap).bind (fun r => f r.1 r.2) = _
  rw [hrun]
  exact hnext b t hpost heap' rest howned'

theorem Faults.of_eq (h : Faults s m) (heq : t = s) : Faults t m := heq ▸ h

theorem undefined_faults (s : Multiset (Nat × Block)) : Faults s (undefined : Program β) :=
  fun _ _ _ => rfl

/-- The program does what a partial function on values does, as long as its results are
good ones; where it has none, or a bad one, the program does something undefined. -/
structure Refines {α : Type} (good : α → Prop) (s : Multiset (Nat × Block)) (m : Program β)
    (v : Option α) (post : α → β → Multiset (Nat × Block) → Prop) : Prop where
  sound : ∀ a, v = some a → good a → Triple s m (post a)
  faulty : (∀ a, v = some a → ¬ good a) → Faults s m

section Refines

variable {α δ : Type} {good : α → Prop} {good' : δ → Prop} {v : Option α}
  {after : α → β → Multiset (Nat × Block) → Prop} {after' : δ → γ → Multiset (Nat × Block) → Prop}

theorem Refines.some {a : α} (hgood : good a) (h : Triple s m (after a)) :
    Refines good s m (.some a) after where
  sound := fun _ heq _ => Option.some.inj heq ▸ h
  faulty := fun hbad => absurd hgood (hbad a rfl)

theorem Refines.bind {g : α → Option δ} (h : Refines good s m v after)
    (hkept : ∀ a d, g a = .some d → good' d → good a)
    (hnext : ∀ a b t, good a → after a b t → Refines good' t (f b) (g a) after') :
    Refines good' s (m >>= f) (v.bind g) after' := by
  constructor
  · intro d hd hgood
    obtain ⟨a, hv, hg⟩ := Option.bind_eq_some_iff.mp hd
    have hgood' := hkept a d hg hgood
    exact (h.sound a hv hgood').bind fun b t hpost => (hnext a b t hgood' hpost).sound d hg hgood
  · intro hbad
    by_cases hfirst : ∃ a, v = .some a ∧ good a
    · obtain ⟨a, hv, hgood⟩ := hfirst
      refine (h.sound a hv hgood).bind_faults fun b t hpost => ?_
      refine (hnext a b t hgood hpost).faulty fun d hd => hbad d ?_
      rw [hv]
      exact hd
    · exact (h.faulty fun a hv hgood => hfirst ⟨a, hv, hgood⟩).bind

theorem Refines.none (h : Faults s m) : Refines good s m .none after where
  sound := fun _ heq => by cases heq
  faulty := fun _ => h

theorem Refines.bad {a : α} (hbad : ¬ good a) (h : Faults s m) :
    Refines good s m (.some a) after where
  sound := fun _ heq hgood => absurd (Option.some.inj heq ▸ hgood) hbad
  faulty := fun _ => h

/-- A step of the program that the values do not see. -/
theorem Refines.step {d : Option δ} (h : Triple s m post)
    (hnext : ∀ b t, post b t → Refines good' t (f b) d after') :
    Refines good' s (m >>= f) d after' where
  sound := fun e he hgood => h.bind fun b t hpost => (hnext b t hpost).sound e he hgood
  faulty := fun hbad => h.bind_faults fun b t hpost => (hnext b t hpost).faulty hbad

theorem Refines.mono {after₂ : α → β → Multiset (Nat × Block) → Prop}
    (h : Refines good s m v after)
    (himp : ∀ a b t, v = .some a → good a → after a b t → after₂ a b t) :
    Refines good s m v after₂ where
  sound := fun a hv hgood => (h.sound a hv hgood).mono fun b t => himp a b t hv hgood
  faulty := h.faulty

/-- A loop over a list, with an invariant that knows what is left of it. -/
theorem Refines.foldlM {X : Type} {body : β → X → Program β} {g : α → X → Option α}
    {I : List X → α → β → Multiset (Nat × Block) → Prop}
    (hkept : ∀ a x a', g a x = .some a' → good a' → good a)
    (hstep : ∀ x rest a b t, good a → I (x :: rest) a b t →
      Refines good t (body b x) (g a x) (I rest))
    (xs : List X) {a : α} {b : β} {t : Multiset (Nat × Block)} (hgood : good a)
    (hinv : I xs a b t) :
    Refines good t (xs.foldlM body b) (xs.foldlM g a) (I []) := by
  have hback : ∀ (xs : List X) a a', xs.foldlM g a = .some a' → good a' → good a := by
    intro xs
    induction xs with
    | nil =>
        intro a a' heq hgood'
        cases heq
        exact hgood'
    | cons x xs ih =>
        intro a a' heq hgood'
        obtain ⟨c, hc, hrest⟩ := Option.bind_eq_some_iff.mp heq
        exact hkept a x c hc (ih c a' hrest hgood')
  induction xs generalizing a b t with
  | nil => exact .some hgood (Triple.pure hinv)
  | cons x xs ih =>
      rw [List.foldlM_cons, List.foldlM_cons]
      exact (hstep x xs a b t hgood hinv).bind (hback xs) fun c b' t' hgood' hinv' =>
        ih hgood' hinv'

end Refines

end Triple

section Instructions

variable {s t : Multiset (Nat × Block)} {address : Nat} {block : Block} {size : Nat}
  {written : Bytes} {slots : List (Option Nat)}

theorem malloc_triple (s : Multiset (Nat × Block)) (block : Block) :
    Triple s (malloc block) fun address u => u = s + cell address block := by
  intro heap rest howned
  refine ⟨heap.next, heap.allocate block, s + cell heap.next block, rfl, ?_, rfl⟩
  rw [owned_allocate, howned]
  abel

/-- The block that is owned first, the rest and the other blocks behind it. -/
theorem owned_first {heap : Heap} {rest : Multiset (Nat × Block)} (howned : heap.owned = s + rest)
    (hs : s = t + cell address block) : heap.owned = cell address block + (t + rest) := by
  rw [howned, hs]
  abel

theorem load_triple (hs : s = t + cell address block) :
    Triple s (load address) fun b u => b = block ∧ u = s := by
  intro heap rest howned
  refine ⟨block, heap, s, ?_, howned, rfl, rfl⟩
  rw [load, find_of_owned (owned_first howned hs)]
  rfl

theorem store_triple (hs : s = t + cell address block) (block' : Block) :
    Triple s (store address block') fun _ u => u = t + cell address block' := by
  intro heap rest howned
  have hfirst := owned_first howned hs
  refine ⟨(), heap.replace address block', t + cell address block', ?_, ?_, rfl⟩
  · rw [store, find_of_owned hfirst]
    rfl
  · rw [owned_replace hfirst]
    abel

theorem free_triple (hs : s = t + cell address block) :
    Triple s (free address) fun _ u => u = t := by
  intro heap rest howned
  have hfirst := owned_first howned hs
  refine ⟨(), heap.release address, t, ?_, owned_release hfirst, rfl⟩
  rw [free, freeAt, if_pos rfl, find_of_owned hfirst]
  rfl

/-- A pointer that has been moved is no pointer for `free`. -/
theorem freeAt_faults {offset : Nat} (hmoved : offset ≠ 0) (s : Multiset (Nat × Block))
    (address : Nat) : Faults s (freeAt address offset) :=
  fun _ _ _ => if_neg hmoved

theorem memcpy_triple (hs : s = t + cell address (.chars size written)) {offset : Nat}
    {data : Bytes} (hoffset : offset ≤ written.length) (hfits : offset + data.length ≤ size) :
    Triple s (memcpy address offset data) fun _ u => u = t + cell address
      (.chars size (written.take offset ++ data ++ written.drop (offset + data.length))) := by
  apply (load_triple hs).value
  simp only [if_pos (And.intro hoffset hfits)]
  exact store_triple hs _

theorem strcpy_triple (hs : s = t + cell address (.chars size written)) {text : Bytes}
    (hfits : text.length < size) :
    Triple s (strcpy address text) fun _ u => u = t + cell address (.chars size (text ++ [0])) := by
  apply (load_triple hs).value
  simp only [if_pos hfits]
  exact store_triple hs _

theorem textOf_concat (text : Bytes) : textOf (text ++ [0]) = some text := by
  rw [textOf, List.getLast?_concat, if_pos rfl, List.dropLast_concat]

theorem loadText_triple {text : Bytes} (hs : s = t + cell address (.chars size (text ++ [0]))) :
    Triple s (loadText address) fun b u => b = text ∧ u = s := by
  apply (load_triple hs).value
  simp only [textOf_concat]
  exact Triple.pure ⟨rfl, rfl⟩

theorem strcat_triple {front back : Bytes}
    (hs : s = t + cell address (.chars size (front ++ [0])))
    (hfits : front.length + back.length < size) :
    Triple s (strcat address back) fun _ u =>
      u = t + cell address (.chars size (front ++ back ++ [0])) := by
  apply (loadText_triple hs).value
  apply strcpy_triple hs
  rwa [List.length_append]

theorem loadChars_triple (hs : s = t + cell address (.chars size written)) {count : Nat}
    (hcount : count ≤ written.length) :
    Triple s (loadChars address count) fun b u => b = written.take count ∧ u = s := by
  apply (load_triple hs).value
  simp only [if_pos hcount]
  exact Triple.pure ⟨rfl, rfl⟩

/-- A string and its zero are written at this place. -/
def StandsAt (written : Bytes) (offset : Nat) (text : Bytes) : Prop :=
  ∃ front back, written = front ++ (text ++ 0 :: back) ∧ front.length = offset ∧ 0 ∉ text

theorem loadTextAt_triple (hs : s = t + cell address (.chars size written)) {offset : Nat}
    {text : Bytes} (h : StandsAt written offset text) :
    Triple s (loadTextAt address offset) fun b u => b = text ∧ u = s := by
  obtain ⟨front, back, rfl, rfl, htext⟩ := h
  have hdrop : (front ++ (text ++ 0 :: back)).drop front.length = text ++ 0 :: back :=
    List.drop_left
  have hzero : (0 : UInt8) ∈ text ++ 0 :: back := List.mem_append_right _ List.mem_cons_self
  apply (load_triple hs).value
  simp only [hdrop, if_pos hzero, cstr_append_zero htext]
  exact Triple.pure ⟨rfl, rfl⟩

theorem reallocChars_triple (hs : s = t + cell address (.chars size written)) (size' : Nat) :
    Triple s (reallocChars address size') fun address' u =>
      u = t + cell address' (.chars size' (written.take size')) := by
  apply (load_triple hs).value
  apply (free_triple hs).step
  exact fun _ => malloc_triple t _

theorem loadSlot_triple (hs : s = t + cell address (.pointers slots)) {i pointer : Nat}
    (hslot : slots.getD i none = some pointer) :
    Triple s (loadSlot address i) fun b u => b = pointer ∧ u = s := by
  apply (load_triple hs).value
  simp only [hslot]
  exact Triple.pure ⟨rfl, rfl⟩

theorem storeSlot_triple (hs : s = t + cell address (.pointers slots)) {i : Nat}
    (hi : i < slots.length) (pointer : Nat) :
    Triple s (storeSlot address i pointer) fun _ u =>
      u = t + cell address (.pointers (slots.set i (some pointer))) := by
  apply (load_triple hs).value
  simp only [if_pos hi]
  exact store_triple hs _

theorem copySlots_triple {target : Nat} {old : List (Option Nat)} {count : Nat}
    (hs : s = t + cell address (.pointers slots) + cell target (.pointers old))
    (hsource : count ≤ slots.length) (htarget : count ≤ old.length) :
    Triple s (copySlots target address count) fun _ u =>
      u = t + cell address (.pointers slots) +
        cell target (.pointers (slots.take count ++ old.drop count)) := by
  have hs' : s = t + cell target (.pointers old) + cell address (.pointers slots) := by
    rw [hs]
    abel
  apply (load_triple hs').value
  apply (load_triple hs).value
  simp only [if_pos (And.intro hsource htarget)]
  exact store_triple hs _

end Instructions

/-- The address has been in use, and its block is gone. -/
def Heap.Freed (h : Heap) (address : Nat) : Prop := address < h.next ∧ h.find address = none

theorem Heap.find_eq_none_iff (h : Heap) (address : Nat) :
    h.find address = none ↔ ∀ entry ∈ h.blocks, entry.1 ≠ address := by
  rw [Heap.find, List.lookup_eq_none_iff]
  refine forall₂_congr fun entry _ => ?_
  rw [bne_iff_ne]
  exact ne_comm

/-- A freed address does not come back. -/
def NoReuse {β : Type} (m : Program β) : Prop :=
  ∀ h b h' address, m h = some (b, h') → h.Freed address → h'.Freed address

section NoReuse

variable {β γ : Type} {m : Program β} {f : β → Program γ}

theorem NoReuse.pure (b : β) : NoReuse (pure b) := by
  rintro h b' h' address hrun hfreed
  cases hrun
  exact hfreed

theorem NoReuse.undefined : NoReuse (undefined : Program β) := by
  rintro h b' h' address hrun
  cases hrun

theorem NoReuse.bind (hm : NoReuse m) (hf : ∀ b, NoReuse (f b)) : NoReuse (m >>= f) := by
  intro h c h'' address hrun hfreed
  obtain ⟨⟨b, h'⟩, hfirst, hrest⟩ := Option.bind_eq_some_iff.mp hrun
  exact hf b h' c h'' address hrest (hm h b h' address hfirst hfreed)

theorem NoReuse.guard {p : Prop} [Decidable p] (hm : NoReuse m) :
    NoReuse (if p then m else HeapProgram.undefined) := by
  split
  · exact hm
  · exact .undefined

theorem malloc_noReuse (block : Block) : NoReuse (malloc block) := by
  rintro h b h' address hrun ⟨hold, hnone⟩
  cases hrun
  refine ⟨Nat.lt_succ_of_lt hold, ?_⟩
  rw [Heap.find_eq_none_iff] at hnone ⊢
  exact List.forall_mem_cons.mpr ⟨hold.ne', hnone⟩

theorem load_noReuse (address : Nat) : NoReuse (load address) := by
  rintro h b h' address' hrun hfreed
  obtain ⟨block, -, heq⟩ := Option.map_eq_some_iff.mp hrun
  cases heq
  exact hfreed

theorem store_noReuse (address : Nat) (block : Block) : NoReuse (store address block) := by
  rintro h b h' address' hrun ⟨hold, hnone⟩
  obtain ⟨block', -, heq⟩ := Option.map_eq_some_iff.mp hrun
  cases heq
  refine ⟨hold, ?_⟩
  rw [Heap.find_eq_none_iff] at hnone ⊢
  intro entry hentry
  obtain ⟨entry', hentry', rfl⟩ := List.mem_map.mp hentry
  by_cases haddress : entry'.1 = address
  · rw [if_pos haddress]
    exact haddress ▸ hnone entry' hentry'
  · rw [if_neg haddress]
    exact hnone entry' hentry'

theorem memcpy_noReuse (address offset : Nat) (data : Bytes) :
    NoReuse (memcpy address offset data) := by
  apply (load_noReuse address).bind
  intro block
  cases block with
  | chars size written => exact (store_noReuse address _).guard
  | _ => exact .undefined

theorem strcpy_noReuse (address : Nat) (text : Bytes) : NoReuse (strcpy address text) := by
  apply (load_noReuse address).bind
  intro block
  cases block with
  | chars size written => exact (store_noReuse address _).guard
  | _ => exact .undefined

theorem loadTextAt_noReuse (address offset : Nat) : NoReuse (loadTextAt address offset) := by
  apply (load_noReuse address).bind
  intro block
  cases block with
  | chars size written => exact (NoReuse.pure _).guard
  | _ => exact .undefined

theorem NoReuse.foldlM {X : Type} {body : β → X → Program β} (h : ∀ b x, NoReuse (body b x))
    (xs : List X) (b : β) : NoReuse (xs.foldlM body b) := by
  induction xs generalizing b with
  | nil => exact .pure b
  | cons x xs ih =>
      rw [List.foldlM_cons]
      exact (h b x).bind ih

/-- What `realloc` has moved is freed. -/
theorem reallocChars_freed {address size address' : Nat} {h h' : Heap}
    (hrun : reallocChars address size h = some (address', h')) : h'.Freed address := by
  obtain ⟨⟨block, h₁⟩, hload, hrest⟩ := Option.bind_eq_some_iff.mp hrun
  obtain ⟨block', hfind, heq⟩ := Option.map_eq_some_iff.mp hload
  cases heq
  cases block with
  | chars size' written =>
      obtain ⟨⟨u, h₂⟩, hfree, hmalloc⟩ := Option.bind_eq_some_iff.mp hrest
      rw [free, freeAt, if_pos rfl, hfind] at hfree
      cases hfree
      refine malloc_noReuse _ _ _ _ _ hmalloc ⟨?_, ?_⟩
      · obtain ⟨front, back, hblocks, -⟩ := List.lookup_eq_some_iff.mp hfind
        exact h.old (address, _) (hblocks ▸ List.mem_append_right _ List.mem_cons_self)
      · rw [Heap.find_eq_none_iff]
        intro entry hentry
        exact of_decide_eq_true (List.mem_filter.mp hentry).2
  | _ => cases hrest

theorem free_freed {address : Nat} {h : Heap} (hfreed : h.Freed address) : free address h = none := by
  rw [free, freeAt, if_pos rfl, hfreed.2]
  rfl

end NoReuse

end HttpsServ.HeapProgram
