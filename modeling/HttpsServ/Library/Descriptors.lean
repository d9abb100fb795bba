import Mathlib.Logic.Function.Basic
import Mathlib.Data.List.Basic
import Mathlib.Data.List.Induction

/-!
# A table of descriptors

Agents share one table. An agent knows an object by a descriptor in one of its
variables, the system hands out any descriptor that is free, and one that has been
released comes back for another object, with the old variable still holding it. An
agent may hand an object over: its descriptor is copied into a variable of another.
Agents that by themselves never use or release a descriptor that they have released or
handed over get the same answers as if their objects were private.
-/

namespace HttpsServ.Descriptors

open Function (update)

section Requests

variable {A V O : Type*}

/-- What an agent asks of the system through one of its variables. -/
inductive Request (V O : Type*)
  | acquire (v : V) (object : O)
  | use (v : V) (effect : O → O)
  /-- A use that is not made where the variable holds no descriptor. -/
  | check (v : V)
  | release (v : V)
  /-- The variable is set to no descriptor. -/
  | forget (v : V)
  /-- The descriptor is copied into a variable of another agent, which uses it from then on. -/
  | give (v : V)
  /-- The other side of `give`. -/
  | receive (v : V) (object : O)

/-- A request that concerns one agent only. -/
def Request.isOwn : Request V O → Bool
  | .give _ => false
  | .receive _ _ => false
  | _ => true

/-- A request as it was made: by whom, and the object that it met. -/
structure Entry (A V O : Type*) where
  agent : A
  request : Request V O
  answer : Option O

variable [DecidableEq A]

/-- The entries of one agent. -/
def entriesOf (a : A) (trace : List (Entry A V O)) : List (Entry A V O) :=
  trace.filter fun entry => entry.agent = a

def requestsOf (a : A) (trace : List (Entry A V O)) : List (Request V O) :=
  (entriesOf a trace).map Entry.request

def answersOf (a : A) (trace : List (Entry A V O)) : List (Option O) :=
  (entriesOf a trace).map Entry.answer

theorem entriesOf_snoc (trace : List (Entry A V O)) (entry : Entry A V O) :
    entriesOf entry.agent (trace ++ [entry]) = entriesOf entry.agent trace ++ [entry] := by
  rw [entriesOf, List.filter_append, List.filter_singleton, decide_eq_true rfl]
  rfl

theorem entriesOf_snoc_of_ne {a : A} (trace : List (Entry A V O)) (entry : Entry A V O)
    (h : entry.agent ≠ a) : entriesOf a (trace ++ [entry]) = entriesOf a trace := by
  rw [entriesOf, List.filter_append, List.filter_singleton, decide_eq_false h]
  exact List.append_nil _

theorem requestsOf_append (a : A) (trace more : List (Entry A V O)) :
    requestsOf a (trace ++ more) = requestsOf a trace ++ requestsOf a more := by
  rw [requestsOf, entriesOf, List.filter_append, List.map_append]
  rfl

theorem requestsOf_isPrefix (a : A) (trace : List (Entry A V O)) (entry : Entry A V O) :
    requestsOf a trace <+: requestsOf a (trace ++ [entry]) := by
  rw [requestsOf_append]
  exact List.prefix_append _ _

end Requests

section Private

variable {V O : Type*}

/-- A variable of an agent whose objects are private. -/
inductive Holding (O : Type*)
  | nothing
  | live (object : O)
  /-- What it held has been released or handed over, and it has not been set since. -/
  | stale

/-- The variables of such an agent. -/
abbrev Private (V O : Type*) := V → Holding O

variable [DecidableEq V]

/-- One request: the object that it meets, and the variables afterwards; `none` for a
misuse, and for an object that would be lost. -/
def Private.step (p : Private V O) : Request V O → Option (Option O × Private V O)
  | .acquire v object =>
      match p v with
      | .live _ => none
      | _ => some (none, update p v (.live object))
  | .use v effect =>
      match p v with
      | .live object => some (some object, update p v (.live (effect object)))
      | _ => none
  | .check v =>
      match p v with
      | .nothing => some (none, p)
      | .live object => some (some object, p)
      | .stale => none
  | .release v =>
      match p v with
      | .live object => some (some object, update p v .stale)
      | _ => none
  | .forget v =>
      match p v with
      | .live _ => none
      | _ => some (none, update p v .nothing)
  | .give v =>
      match p v with
      | .live object => some (some object, update p v .stale)
      | _ => none
  | .receive v object =>
      match p v with
      | .live _ => none
      | _ => some (none, update p v (.live object))

section Cases

variable {p q : Private V O} {v : V} {answer : Option O}

theorem Private.step_acquire {object : O} (h : p.step (.acquire v object) = some (answer, q)) :
    (∀ o, p v ≠ .live o) ∧ answer = none ∧ q = update p v (.live object) := by
  rw [Private.step] at h
  cases hp : p v with
  | live o => simp [hp] at h
  | nothing => simpa [hp, eq_comm] using h
  | stale => simpa [hp, eq_comm] using h

theorem Private.step_use {effect : O → O} (h : p.step (.use v effect) = some (answer, q)) :
    ∃ o, p v = .live o ∧ answer = some o ∧ q = update p v (.live (effect o)) := by
  rw [Private.step] at h
  cases hp : p v with
  | live o => simpa [hp, eq_comm] using h
  | nothing => simp [hp] at h
  | stale => simp [hp] at h

theorem Private.step_check (h : p.step (.check v) = some (answer, q)) :
    q = p ∧ ((p v = .nothing ∧ answer = none) ∨ ∃ o, p v = .live o ∧ answer = some o) := by
  rw [Private.step] at h
  cases hp : p v with
  | nothing => simpa [hp, eq_comm, and_comm] using h
  | live o => simpa [hp, eq_comm, and_comm] using h
  | stale => simp [hp] at h

theorem Private.step_release (h : p.step (.release v) = some (answer, q)) :
    ∃ o, p v = .live o ∧ answer = some o ∧ q = update p v .stale := by
  rw [Private.step] at h
  cases hp : p v with
  | live o => simpa [hp, eq_comm] using h
  | nothing => simp [hp] at h
  | stale => simp [hp] at h

theorem Private.step_forget (h : p.step (.forget v) = some (answer, q)) :
    (∀ o, p v ≠ .live o) ∧ answer = none ∧ q = update p v .nothing := by
  rw [Private.step] at h
  cases hp : p v with
  | live o => simp [hp] at h
  | nothing => simpa [hp, eq_comm] using h
  | stale => simpa [hp, eq_comm] using h

theorem Private.step_give (h : p.step (.give v) = some (answer, q)) :
    ∃ o, p v = .live o ∧ answer = some o ∧ q = update p v .stale := by
  rw [Private.step] at h
  cases hp : p v with
  | live o => simpa [hp, eq_comm] using h
  | nothing => simp [hp] at h
  | stale => simp [hp] at h

theorem Private.step_receive {object : O} (h : p.step (.receive v object) = some (answer, q)) :
    (∀ o, p v ≠ .live o) ∧ answer = none ∧ q = update p v (.live object) := by
  rw [Private.step] at h
  cases hp : p v with
  | live o => simp [hp] at h
  | nothing => simpa [hp, eq_comm] using h
  | stale => simpa [hp, eq_comm] using h

end Cases

/-- The answers to requests, and the variables afterwards. -/
def Private.run (p : Private V O) : List (Request V O) → Option (List (Option O) × Private V O)
  | [] => some ([], p)
  | request :: requests =>
      (p.step request).bind fun (answer, p) =>
        (Private.run p requests).map fun (answers, p) => (answer :: answers, p)

theorem Private.run_cons {p r : Private V O} {request : Request V O}
    {requests : List (Request V O)} {answers : List (Option O)}
    (h : p.run (request :: requests) = some (answers, r)) :
    ∃ answer q rest, p.step request = some (answer, q) ∧ q.run requests = some (rest, r) ∧
      answer :: rest = answers := by
  obtain ⟨⟨answer, q⟩, hstep, hmore⟩ := Option.bind_eq_some_iff.mp h
  obtain ⟨⟨rest, r'⟩, hrun, heq⟩ := Option.map_eq_some_iff.mp hmore
  cases heq
  exact ⟨answer, q, rest, hstep, hrun, rfl⟩

theorem Private.run_append (p : Private V O) (first second : List (Request V O)) :
    p.run (first ++ second) = (p.run first).bind fun (answers, p) =>
      (p.run second).map fun (more, p) => (answers ++ more, p) := by
  induction first generalizing p with
  | nil =>
      cases h : p.run second with
      | none => simp [Private.run, h]
      | some result => simp [Private.run, h]
  | cons request first ih =>
      rw [List.cons_append, Private.run, Private.run]
      cases p.step request with
      | none => rfl
      | some result =>
          simp only [Option.bind_some, ih]
          cases Private.run result.2 first with
          | none => rfl
          | some ran =>
              simp only [Option.bind_some, Option.map_some]
              cases Private.run ran.2 second with
              | none => rfl
              | some more => rfl

/-- The requests never misuse a descriptor. -/
def Disciplined (p : Private V O) (requests : List (Request V O)) : Prop :=
  (p.run requests).isSome = true

theorem Disciplined.of_isPrefix {p : Private V O} {requests requests' : List (Request V O)}
    (h : Disciplined p requests') (hpart : requests <+: requests') : Disciplined p requests := by
  obtain ⟨rest, rfl⟩ := hpart
  rw [Disciplined, Private.run_append] at h
  cases hrun : p.run requests with
  | none =>
      rw [hrun] at h
      cases h
  | some result => rw [Disciplined, hrun, Option.isSome_some]

/-- One more request behind a run. -/
theorem Private.run_snoc {p q r : Private V O} {requests : List (Request V O)}
    {answers : List (Option O)} {request : Request V O} {answer : Option O}
    (h : p.run requests = some (answers, q)) (hstep : q.step request = some (answer, r)) :
    p.run (requests ++ [request]) = some (answers ++ [answer], r) := by
  simp only [Private.run_append, h, Option.bind_some, Private.run, hstep]
  rfl

theorem Disciplined.step {p q : Private V O} {requests : List (Request V O)}
    {answers : List (Option O)} {request : Request V O}
    (h : Disciplined p (requests ++ [request])) (hrun : p.run requests = some (answers, q)) :
    ∃ answer r, q.step request = some (answer, r) := by
  simp only [Disciplined, Private.run_append, hrun, Option.bind_some, Private.run] at h
  cases hstep : q.step request with
  | none =>
      rw [hstep] at h
      cases h
  | some result => exact ⟨result.1, result.2, rfl⟩

section Reaches

/-- The requests can be made without misuse, and leave these variables. -/
def Private.Reaches (p : Private V O) (requests : List (Request V O)) (q : Private V O) : Prop :=
  ∃ answers, p.run requests = some (answers, q)

variable {p q r : Private V O} {v : V} {object : O} {requests first second : List (Request V O)}

theorem Private.Reaches.disciplined (h : p.Reaches requests q) : Disciplined p requests := by
  obtain ⟨answers, hrun⟩ := h
  rw [Disciplined, hrun, Option.isSome_some]

theorem Private.Reaches.nil : p.Reaches [] p := ⟨[], rfl⟩

theorem Private.Reaches.append (hfirst : p.Reaches first q) (hsecond : q.Reaches second r) :
    p.Reaches (first ++ second) r := by
  obtain ⟨answers, hrun⟩ := hfirst
  obtain ⟨more, hmore⟩ := hsecond
  refine ⟨answers ++ more, ?_⟩
  simp only [Private.run_append, hrun, Option.bind_some, hmore, Option.map_some]

theorem Private.Reaches.cons {request : Request V O} {answer : Option O}
    (hstep : p.step request = some (answer, q)) (hrest : q.Reaches requests r) :
    p.Reaches (request :: requests) r := by
  obtain ⟨answers, hrun⟩ := hrest
  refine ⟨answer :: answers, ?_⟩
  simp only [Private.run, hstep, Option.bind_some, hrun, Option.map_some]

theorem Private.Reaches.acquire (hlost : ∀ o, p v ≠ .live o)
    (hrest : Private.Reaches (update p v (.live object)) requests q) :
    p.Reaches (.acquire v object :: requests) q := by
  have hstep : p.step (.acquire v object) = some (none, update p v (.live object)) := by
    rw [Private.step]
    split
    · rename_i o hlive
      exact absurd hlive (hlost o)
    · rfl
  exact .cons hstep hrest

theorem Private.Reaches.use {effect : O → O} (hlive : p v = .live object)
    (hrest : Private.Reaches (update p v (.live (effect object))) requests q) :
    p.Reaches (.use v effect :: requests) q := by
  have hstep : p.step (.use v effect) =
      some (some object, update p v (.live (effect object))) := by
    rw [Private.step, hlive]
  exact .cons hstep hrest

theorem Private.Reaches.check (hnothing : p v = .nothing) (hrest : p.Reaches requests q) :
    p.Reaches (.check v :: requests) q := by
  have hstep : p.step (.check v) = some (none, p) := by
    rw [Private.step, hnothing]
  exact .cons hstep hrest

theorem Private.Reaches.release (hlive : p v = .live object)
    (hrest : Private.Reaches (update p v .stale) requests q) :
    p.Reaches (.release v :: requests) q := by
  have hstep : p.step (.release v) = some (some object, update p v .stale) := by
    rw [Private.step, hlive]
  exact .cons hstep hrest

theorem Private.Reaches.forget (hlost : ∀ o, p v ≠ .live o)
    (hrest : Private.Reaches (update p v .nothing) requests q) :
    p.Reaches (.forget v :: requests) q := by
  have hstep : p.step (.forget v) = some (none, update p v .nothing) := by
    rw [Private.step]
    split
    · rename_i o hlive
      exact absurd hlive (hlost o)
    · rfl
  exact .cons hstep hrest

theorem Private.Reaches.give (hlive : p v = .live object)
    (hrest : Private.Reaches (update p v .stale) requests q) :
    p.Reaches (.give v :: requests) q := by
  have hstep : p.step (.give v) = some (some object, update p v .stale) := by
    rw [Private.step, hlive]
  exact .cons hstep hrest

theorem Private.Reaches.receive (hlost : ∀ o, p v ≠ .live o)
    (hrest : Private.Reaches (update p v (.live object)) requests q) :
    p.Reaches (.receive v object :: requests) q := by
  have hstep : p.step (.receive v object) = some (none, update p v (.live object)) := by
    rw [Private.step]
    split
    · rename_i o hlive
      exact absurd hlive (hlost o)
    · rfl
  exact .cons hstep hrest

/-- Uses that leave the object as it is. -/
theorem Private.Reaches.replicate_use (hlive : p v = .live object) (n : Nat) :
    p.Reaches (List.replicate n (.use v id)) p := by
  induction n with
  | zero => exact .nil
  | succ n ih =>
      apply Private.Reaches.use hlive
      have hsame : update p v (.live (id object)) = p := by
        rw [id, ← hlive, Function.update_eq_self]
      rw [hsame]
      exact ih

end Reaches

section Kinds

variable {A : Type*} (ok : V → O → Prop)

/-- A request that keeps to the objects meant for its variable. -/
def Request.Keeps : Request V O → Prop
  | .acquire v object | .receive v object => ok v object
  | .use v effect => ∀ object, ok v object → ok v (effect object)
  | _ => True

/-- What is used, released or handed over is meant for its variable. -/
def Entry.Meets (entry : Entry A V O) : Prop :=
  match entry.request with
  | .use v _ | .release v | .give v => ∃ object, entry.answer = some object ∧ ok v object
  | .check v => ∀ object, entry.answer = some object → ok v object
  | _ => entry.answer = none

variable {ok} {p q : Private V O}

theorem Private.step_keeps {entry : Entry A V O} (hkeeps : entry.request.Keeps ok)
    (hstep : p.step entry.request = some (entry.answer, q))
    (hp : ∀ v object, p v = .live object → ok v object) :
    entry.Meets ok ∧ ∀ v object, q v = .live object → ok v object := by
  have hset : ∀ v x, (∀ object, x = .live object → ok v object) →
      ∀ v' object, update p v x v' = .live object → ok v' object := by
    intro v x hx v' object hlive
    by_cases hv : v' = v
    · subst hv
      rw [Function.update_self] at hlive
      exact hx object hlive
    · rw [Function.update_of_ne hv] at hlive
      exact hp v' object hlive
  obtain ⟨a, request, answer⟩ := entry
  dsimp only at hkeeps hstep
  cases request with
  | acquire v object =>
      obtain ⟨-, rfl, rfl⟩ := Private.step_acquire hstep
      refine ⟨rfl, hset _ _ ?_⟩
      intro o ho
      cases ho
      exact hkeeps
  | use v effect =>
      obtain ⟨o, hlive, rfl, rfl⟩ := Private.step_use hstep
      refine ⟨⟨o, rfl, hp v o hlive⟩, hset _ _ ?_⟩
      intro o' ho'
      cases ho'
      exact hkeeps o (hp v o hlive)
  | check v =>
      obtain ⟨rfl, ⟨-, rfl⟩ | ⟨o, hlive, rfl⟩⟩ := Private.step_check hstep
      · exact ⟨fun _ h => (Option.some_ne_none _ h.symm).elim, hp⟩
      · refine ⟨?_, hp⟩
        intro o' ho'
        cases ho'
        exact hp v o hlive
  | release v =>
      obtain ⟨o, hlive, rfl, rfl⟩ := Private.step_release hstep
      exact ⟨⟨o, rfl, hp v o hlive⟩, hset _ _ fun _ h => by cases h⟩
  | forget v =>
      obtain ⟨-, rfl, rfl⟩ := Private.step_forget hstep
      exact ⟨rfl, hset _ _ fun _ h => by cases h⟩
  | give v =>
      obtain ⟨o, hlive, rfl, rfl⟩ := Private.step_give hstep
      exact ⟨⟨o, rfl, hp v o hlive⟩, hset _ _ fun _ h => by cases h⟩
  | receive v object =>
      obtain ⟨-, rfl, rfl⟩ := Private.step_receive hstep
      refine ⟨rfl, hset _ _ ?_⟩
      intro o ho
      cases ho
      exact hkeeps

theorem Private.run_keeps (entries : List (Entry A V O))
    (hkeeps : ∀ entry ∈ entries, entry.request.Keeps ok)
    (hrun : p.run (entries.map Entry.request) = some (entries.map Entry.answer, q))
    (hp : ∀ v object, p v = .live object → ok v object) :
    ∀ entry ∈ entries, entry.Meets ok := by
  induction entries generalizing p with
  | nil => exact List.forall_mem_nil _
  | cons entry entries ih =>
      obtain ⟨hentry, hentries⟩ := List.forall_mem_cons.mp hkeeps
      obtain ⟨answer, p', answers, hstep, hrun', heq⟩ := Private.run_cons hrun
      obtain ⟨rfl, rfl⟩ := List.cons.inj heq
      obtain ⟨hmeets, hp'⟩ := Private.step_keeps hentry hstep hp
      exact List.forall_mem_cons.mpr ⟨hmeets, ih hentries hrun' hp'⟩

end Kinds

/-- The answer to a request behind others. -/
theorem Private.exists_entry {A : Type*} {p q r s : Private V O} {entries : List (Entry A V O)}
    {before after : List (Request V O)} {request : Request V O} {answer : Option O}
    (hrequests : entries.map Entry.request = before ++ request :: after)
    (hrun : p.run (entries.map Entry.request) = some (entries.map Entry.answer, s))
    (hbefore : p.Reaches before q) (hstep : q.step request = some (answer, r)) :
    ∃ entry ∈ entries, entry.request = request ∧ entry.answer = answer := by
  induction before generalizing p entries with
  | nil =>
      obtain ⟨answers, hnone⟩ := hbefore
      cases hnone
      obtain ⟨entry, rest, rfl, rfl, hrest⟩ := List.map_eq_cons_iff.mp hrequests
      obtain ⟨answer', p', more, hstep', -, heq⟩ := Private.run_cons hrun
      obtain rfl : answer' = answer := by
        rw [hstep] at hstep'
        cases hstep'
        rfl
      exact ⟨entry, List.mem_cons_self, rfl, (List.cons.inj heq).1.symm⟩
  | cons first before ih =>
      obtain ⟨entry, rest, rfl, rfl, hrest⟩ := List.map_eq_cons_iff.mp hrequests
      obtain ⟨answers, hreaches⟩ := hbefore
      obtain ⟨answer', p', more, hfirst, hbefore, -⟩ := Private.run_cons hreaches
      obtain ⟨answer'', p'', more', hfirst', hrun', heq⟩ := Private.run_cons hrun
      obtain rfl : p' = p'' := by
        rw [hfirst] at hfirst'
        cases hfirst'
        rfl
      rw [(List.cons.inj heq).2] at hrun'
      obtain ⟨found, hfound, hmade⟩ := ih hrest hrun' ⟨more, hbefore⟩
      exact ⟨found, List.mem_cons_of_mem _ hfound, hmade⟩

end Private

section Shared

variable {A V O : Type*}

/-- The table, and the descriptors in the variables of the agents. -/
structure Shared (A V O : Type*) where
  table : Nat → Option O
  held : A × V → Option Nat

def Shared.empty : Shared A V O := ⟨fun _ => none, fun _ => none⟩

/-- The table holds what the agents hold privately, each object under one descriptor
that one variable knows. -/
structure Represents (s : Shared A V O) (p : A × V → Holding O) : Prop where
  live : ∀ {k object}, p k = .live object → ∃ fd, s.held k = some fd ∧ s.table fd = some object
  nothing : ∀ {k}, p k = .nothing → s.held k = none
  owned : ∀ {fd object}, s.table fd = some object → ∃ k, p k = .live object ∧ s.held k = some fd
  apart : ∀ {k k' object object' fd}, p k = .live object → p k' = .live object' →
    s.held k = some fd → s.held k' = some fd → k' = k

theorem represents_empty : Represents (Shared.empty : Shared A V O) fun _ => .nothing where
  live := fun h => by cases h
  nothing := fun _ => rfl
  owned := fun h => by cases h
  apart := fun h => by cases h

section Live

variable {s : Shared A V O} {p : A × V → Holding O} (h : Represents s p) {k : A × V} {fd : Nat}
include h

/-- No live variable knows a free descriptor. -/
theorem Represents.held_ne (hfree : s.table fd = none) {object : O} (hlive : p k = .live object) :
    s.held k ≠ some fd := by
  intro hheld
  obtain ⟨fd', hheld', htable⟩ := h.live hlive
  obtain rfl : fd' = fd := Option.some.inj (hheld'.symm.trans hheld)
  rw [hfree] at htable
  cases htable

variable {object : O} (hlive : p k = .live object) (hheld : s.held k = some fd)
include hlive hheld

/-- What a live variable meets is what it holds. -/
theorem Represents.table_eq : s.table fd = some object := by
  obtain ⟨fd', hheld', htable⟩ := h.live hlive
  obtain rfl : fd' = fd := Option.some.inj (hheld'.symm.trans hheld)
  exact htable

/-- Another live variable knows another descriptor. -/
theorem Represents.other_ne {k' : A × V} (hkey : k' ≠ k) {object' : O}
    (hlive' : p k' = .live object') : s.held k' ≠ some fd :=
  fun hheld' => hkey (h.apart hlive hlive' hheld hheld')

end Live

variable [DecidableEq A] [DecidableEq V]

/-- A request of an agent, with the object that it meets, whoever acquired it. -/
inductive Shared.Step (s : Shared A V O) (a : A) :
    Request V O → Option O → Shared A V O → Prop
  | acquire {v : V} {object : O} (fd : Nat) (free : s.table fd = none) :
      Step s a (.acquire v object) none
        ⟨update s.table fd (some object), update s.held (a, v) (some fd)⟩
  | use {v : V} {effect : O → O} {answer : Option O} (fd : Nat) (held : s.held (a, v) = some fd)
      (met : s.table fd = answer) :
      Step s a (.use v effect) answer ⟨update s.table fd (answer.map effect), s.held⟩
  | useNothing {v : V} {effect : O → O} (held : s.held (a, v) = none) :
      Step s a (.use v effect) none s
  | check {v : V} {answer : Option O} (met : (s.held (a, v)).bind s.table = answer) :
      Step s a (.check v) answer s
  | release {v : V} {answer : Option O} (fd : Nat) (held : s.held (a, v) = some fd)
      (met : s.table fd = answer) :
      Step s a (.release v) answer ⟨update s.table fd none, s.held⟩
  | releaseNothing {v : V} (held : s.held (a, v) = none) : Step s a (.release v) none s
  | forget {v : V} : Step s a (.forget v) none ⟨s.table, update s.held (a, v) none⟩

/-- The requests of the agents in any order. An object is handed over by copying its
descriptor. -/
inductive Shared.Steps (s : Shared A V O) : List (Entry A V O) → Shared A V O → Prop
  | nil : Steps s [] s
  | snoc {trace : List (Entry A V O)} {s' s'' : Shared A V O} (entry : Entry A V O)
      (before : Steps s trace s') (step : s'.Step entry.agent entry.request entry.answer s'') :
      Steps s (trace ++ [entry]) s''
  | handOver {trace : List (Entry A V O)} {s' : Shared A V O} {a b : A} {v w : V} {object : O}
      (fd : Nat) (before : Steps s trace s') (other : b ≠ a) (held : s'.held (a, v) = some fd)
      (met : s'.table fd = some object) :
      Steps s (trace ++ [⟨a, .give v, some object⟩, ⟨b, .receive w object, none⟩])
        ⟨s'.table, update s'.held (b, w) (some fd)⟩

section Step

variable {s : Shared A V O} {p : A × V → Holding O} (h : Represents s p) {k : A × V} {fd : Nat}
include h

theorem Represents.acquire (hfree : s.table fd = none) (hlost : ∀ object, p k ≠ .live object)
    (object : O) :
    Represents ⟨update s.table fd (some object), update s.held k (some fd)⟩
      (update p k (.live object)) := by
  have hne : ∀ k' o, p k' = .live o → s.held k' ≠ some fd := fun _ _ hk => h.held_ne hfree hk
  constructor
  · intro k' o
    have hlive := @h.live k' o
    grind [Function.update]
  · intro k'
    have hnothing := @h.nothing k'
    grind [Function.update]
  · intro fd' o htable
    dsimp only at htable ⊢
    by_cases hfd : fd' = fd
    · subst hfd
      rw [Function.update_self] at htable
      exact ⟨k, by rw [Function.update_self, Option.some.inj htable], Function.update_self ..⟩
    · rw [Function.update_of_ne hfd] at htable
      obtain ⟨k', hlive, hheld⟩ := h.owned htable
      have hkey : k' ≠ k := by
        rintro rfl
        exact hlost o hlive
      exact ⟨k', by rwa [Function.update_of_ne hkey], by rwa [Function.update_of_ne hkey]⟩
  · intro k₁ k₂ o₁ o₂ fd'
    have hapart := @h.apart k₁ k₂ o₁ o₂ fd'
    grind [Function.update]

variable {object : O} (hlive : p k = .live object) (hheld : s.held k = some fd)
include hlive hheld

theorem Represents.use (object' : O) :
    Represents ⟨update s.table fd (some object'), s.held⟩ (update p k (.live object')) := by
  have hne : ∀ k', k' ≠ k → ∀ o, p k' = .live o → s.held k' ≠ some fd :=
    fun _ hkey _ hk => h.other_ne hlive hheld hkey hk
  constructor
  · intro k' o
    have hlive' := @h.live k' o
    grind [Function.update]
  · intro k'
    have hnothing := @h.nothing k'
    grind [Function.update]
  · intro fd' o htable
    dsimp only at htable ⊢
    by_cases hfd : fd' = fd
    · subst hfd
      rw [Function.update_self] at htable
      exact ⟨k, by rw [Function.update_self, Option.some.inj htable], hheld⟩
    · rw [Function.update_of_ne hfd] at htable
      obtain ⟨k', hlive', hheld'⟩ := h.owned htable
      have hkey : k' ≠ k := by
        rintro rfl
        exact hfd (Option.some.inj (hheld'.symm.trans hheld))
      exact ⟨k', by rwa [Function.update_of_ne hkey], hheld'⟩
  · intro k₁ k₂ o₁ o₂ fd'
    have hapart := @h.apart k₁ k₂
    grind [Function.update]

theorem Represents.release :
    Represents ⟨update s.table fd none, s.held⟩ (update p k .stale) := by
  have hne : ∀ k', k' ≠ k → ∀ o, p k' = .live o → s.held k' ≠ some fd :=
    fun _ hkey _ hk => h.other_ne hlive hheld hkey hk
  constructor
  · intro k' o
    have hlive' := @h.live k' o
    grind [Function.update]
  · intro k'
    have hnothing := @h.nothing k'
    grind [Function.update]
  · intro fd' o htable
    dsimp only at htable ⊢
    by_cases hfd : fd' = fd
    · subst hfd
      rw [Function.update_self] at htable
      cases htable
    · rw [Function.update_of_ne hfd] at htable
      obtain ⟨k', hlive', hheld'⟩ := h.owned htable
      have hkey : k' ≠ k := by
        rintro rfl
        exact hfd (Option.some.inj (hheld'.symm.trans hheld))
      exact ⟨k', by rwa [Function.update_of_ne hkey], hheld'⟩
  · intro k₁ k₂ o₁ o₂ fd'
    have hapart := @h.apart k₁ k₂
    grind [Function.update]

omit hlive hheld

theorem Represents.forget (hlost : ∀ object, p k ≠ .live object) :
    Represents ⟨s.table, update s.held k none⟩ (update p k .nothing) := by
  constructor
  · intro k' o
    have hlive' := @h.live k' o
    grind [Function.update]
  · intro k'
    have hnothing := @h.nothing k'
    grind [Function.update]
  · intro fd' o htable
    obtain ⟨k', hlive', hheld'⟩ := h.owned htable
    have hkey : k' ≠ k := by
      rintro rfl
      exact hlost o hlive'
    exact ⟨k', by rwa [Function.update_of_ne hkey], (Function.update_of_ne hkey ..).trans hheld'⟩
  · intro k₁ k₂ o₁ o₂ fd'
    have hapart := @h.apart k₁ k₂
    grind [Function.update]

end Step

/-- The variables of one agent. -/
def variablesOf (p : A × V → Holding O) (a : A) : Private V O := fun v => p (a, v)

theorem variablesOf_update (p : A × V → Holding O) (a : A) (v : V) (x : Holding O) :
    variablesOf (update p (a, v) x) a = update (variablesOf p a) v x := by
  ext v'
  by_cases hv : v' = v
  · subst hv
    rw [variablesOf, Function.update_self, Function.update_self]
  · have hkey : (a, v') ≠ (a, v) := fun heq => hv (congrArg Prod.snd heq)
    rw [variablesOf, Function.update_of_ne hkey, Function.update_of_ne hv, variablesOf]

theorem variablesOf_update_of_ne (p : A × V → Holding O) {a a' : A} (ha : a' ≠ a) (v : V)
    (x : Holding O) : variablesOf (update p (a, v) x) a' = variablesOf p a' := by
  ext v'
  exact Function.update_of_ne (fun heq => ha (congrArg Prod.fst heq)) ..

/-- A state of the table that differs in the variables of one agent. -/
def Moves (s' : Shared A V O) (p : A × V → Holding O) (a : A) (q : Private V O) : Prop :=
  ∃ p', Represents s' p' ∧ variablesOf p' a = q ∧
    ∀ a', a' ≠ a → variablesOf p' a' = variablesOf p a'

theorem Represents.moves {s' : Shared A V O} {p : A × V → Holding O} {a : A} {v : V}
    {x : Holding O} (h : Represents s' (update p (a, v) x)) :
    Moves s' p a (update (variablesOf p a) v x) :=
  ⟨_, h, variablesOf_update p a v x, fun _ ha => variablesOf_update_of_ne p ha v x⟩

/-- A request that is no misuse meets what the agent holds privately. -/
theorem Represents.step {s s' : Shared A V O} {p : A × V → Holding O} (h : Represents s p)
    {a : A} {request : Request V O} {answer answer' : Option O} {q : Private V O}
    (hstep : s.Step a request answer s')
    (hprivate : Private.step (variablesOf p a) request = some (answer', q)) :
    answer' = answer ∧ Moves s' p a q := by
  cases hstep with
  | acquire fd free =>
      obtain ⟨hlost, rfl, rfl⟩ := Private.step_acquire hprivate
      exact ⟨rfl, (h.acquire free hlost _).moves⟩
  | use fd held met =>
      obtain ⟨o, hlive, rfl, rfl⟩ := Private.step_use hprivate
      obtain rfl := (h.table_eq hlive held).symm.trans met
      exact ⟨rfl, (h.use hlive held _).moves⟩
  | useNothing held =>
      obtain ⟨o, hlive, -⟩ := Private.step_use hprivate
      obtain ⟨fd, hfd, -⟩ := h.live hlive
      exact absurd (hfd.symm.trans held) (Option.some_ne_none fd)
  | @check v _ met =>
      obtain ⟨rfl, ⟨hnothing, rfl⟩ | ⟨o, hlive, rfl⟩⟩ := Private.step_check hprivate
      · have hheld : s.held (a, v) = none := h.nothing hnothing
        rw [hheld] at met
        exact ⟨met, p, h, rfl, fun _ _ => rfl⟩
      · obtain ⟨fd, hheld, htable⟩ := h.live hlive
        rw [hheld, Option.bind_some, htable] at met
        exact ⟨met, p, h, rfl, fun _ _ => rfl⟩
  | release fd held met =>
      obtain ⟨o, hlive, rfl, rfl⟩ := Private.step_release hprivate
      exact ⟨(h.table_eq hlive held).symm.trans met, (h.release hlive held).moves⟩
  | releaseNothing held =>
      obtain ⟨o, hlive, -⟩ := Private.step_release hprivate
      obtain ⟨fd, hfd, -⟩ := h.live hlive
      exact absurd (hfd.symm.trans held) (Option.some_ne_none fd)
  | forget =>
      obtain ⟨hlost, rfl, rfl⟩ := Private.step_forget hprivate
      exact ⟨rfl, (h.forget hlost).moves⟩

/-- Each agent has had the answers that it gets alone, and the table holds what the agents
hold then. -/
def Isolates (trace : List (Entry A V O)) (s : Shared A V O) (p : A × V → Holding O) : Prop :=
  Represents s p ∧ ∀ a, Private.run (fun _ => .nothing) (requestsOf a trace) =
    some (answersOf a trace, variablesOf p a)

theorem Isolates.snoc {trace : List (Entry A V O)} {s s' : Shared A V O}
    {p : A × V → Holding O} (h : Isolates trace s p) {e : Entry A V O} {q : Private V O}
    (hprivate : Private.step (variablesOf p e.agent) e.request = some (e.answer, q))
    (hmoves : Moves s' p e.agent q) : ∃ p', Isolates (trace ++ [e]) s' p' := by
  obtain ⟨p', hrepresents, hq, hothers⟩ := hmoves
  refine ⟨p', hrepresents, fun a => ?_⟩
  by_cases ha : e.agent = a
  · subst ha
    rw [requestsOf, answersOf, entriesOf_snoc, List.map_append, List.map_append, hq]
    exact Private.run_snoc (h.2 e.agent) hprivate
  · rw [requestsOf, answersOf, entriesOf_snoc_of_ne trace e ha,
      hothers a fun heq => ha heq.symm]
    exact h.2 a

/-- What the next request does to the variables of its agent. -/
theorem Isolates.exists_private {trace : List (Entry A V O)} {s : Shared A V O}
    {p : A × V → Holding O} (h : Isolates trace s p) {e : Entry A V O}
    (hdisciplined : Disciplined (fun _ => .nothing) (requestsOf e.agent (trace ++ [e]))) :
    ∃ answer q,
      Private.step (variablesOf p e.agent) e.request = some (answer, q) := by
  rw [requestsOf, entriesOf_snoc, List.map_append] at hdisciplined
  exact Disciplined.step hdisciplined (h.2 e.agent)

/-- In any order of requests, with any choice of descriptors, each agent that is
disciplined gets the answers that it would get alone, and the table holds exactly
what the agents hold then. -/
theorem Shared.Steps.isolated {trace : List (Entry A V O)} {s : Shared A V O}
    (h : Shared.Steps .empty trace s)
    (hdisciplined : ∀ a, Disciplined (fun _ => .nothing) (requestsOf a trace)) :
    ∃ p, Isolates trace s p := by
  induction h with
  | nil => exact ⟨_, represents_empty, fun a => rfl⟩
  | @snoc trace _ _ entry before hstep ih =>
      obtain ⟨p, hisolates⟩ := ih fun a =>
        (hdisciplined a).of_isPrefix (requestsOf_isPrefix a trace entry)
      obtain ⟨answer, q, hprivate⟩ := hisolates.exists_private (hdisciplined entry.agent)
      obtain ⟨rfl, hmoves⟩ := hisolates.1.step hstep hprivate
      exact hisolates.snoc hprivate hmoves
  | @handOver trace s a b v w object fd before other held met ih =>
      -- it is a release, and an acquisition under the same descriptor
      have hsplit : trace ++ [⟨a, .give v, some object⟩, ⟨b, .receive w object, none⟩] =
          trace ++ [⟨a, .give v, some object⟩] ++ [⟨b, .receive w object, none⟩] := by
        rw [List.append_assoc]
        rfl
      rw [hsplit] at hdisciplined ⊢
      have hgiven : ∀ c, Disciplined (fun _ => .nothing)
          (requestsOf c (trace ++ [⟨a, .give v, some object⟩])) := fun c =>
        (hdisciplined c).of_isPrefix (requestsOf_isPrefix c _ _)
      obtain ⟨p, hisolates⟩ := ih fun c => (hgiven c).of_isPrefix (requestsOf_isPrefix c trace _)
      obtain ⟨answer, q, hgive⟩ :=
        hisolates.exists_private (e := ⟨a, .give v, some object⟩) (hgiven a)
      obtain ⟨o, hlive, rfl, rfl⟩ := Private.step_give hgive
      obtain rfl : o = object :=
        Option.some.inj ((hisolates.1.table_eq hlive held).symm.trans met)
      obtain ⟨p', hrelease⟩ :=
        hisolates.snoc (e := ⟨a, .give v, some o⟩) hgive (hisolates.1.release hlive held).moves
      obtain ⟨answer', q', hreceive⟩ :=
        hrelease.exists_private (e := ⟨b, .receive w o, none⟩) (hdisciplined b)
      obtain ⟨hlost, rfl, rfl⟩ := Private.step_receive hreceive
      have hacquire := hrelease.1.acquire (k := (b, w)) (Function.update_self fd none s.table)
        hlost o
      rw [Function.update_idem, ← met, Function.update_eq_self] at hacquire
      exact hrelease.snoc (e := ⟨b, .receive w o, none⟩) hreceive hacquire.moves

/-- Only finitely many descriptors are in use. -/
theorem Shared.Steps.exists_free {trace : List (Entry A V O)} {s : Shared A V O}
    (h : Shared.Steps .empty trace s) : ∃ n, ∀ fd, n ≤ fd → s.table fd = none := by
  induction h with
  | nil => exact ⟨0, fun _ _ => rfl⟩
  | snoc entry before hstep ih =>
      obtain ⟨n, hn⟩ := ih
      obtain ⟨a, request, answer⟩ := entry
      cases hstep with
      | acquire fd free =>
          refine ⟨max n (fd + 1), fun fd' hfd' => ?_⟩
          exact (Function.update_of_ne (by omega) ..).trans (hn fd' (by omega))
      | use fd held met =>
          refine ⟨max n (fd + 1), fun fd' hfd' => ?_⟩
          exact (Function.update_of_ne (by omega) ..).trans (hn fd' (by omega))
      | release fd held met =>
          refine ⟨max n (fd + 1), fun fd' hfd' => ?_⟩
          exact (Function.update_of_ne (by omega) ..).trans (hn fd' (by omega))
      | useNothing held => exact ⟨n, hn⟩
      | check met => exact ⟨n, hn⟩
      | releaseNothing held => exact ⟨n, hn⟩
      | forget => exact ⟨n, hn⟩
  | handOver fd before other held met ih => exact ih

theorem Shared.exists_step (s : Shared A V O) (a : A) {request : Request V O}
    (hown : request.isOwn = true) {fd : Nat} (hfree : s.table fd = none) :
    ∃ answer s', s.Step a request answer s' := by
  cases request with
  | acquire v object => exact ⟨_, _, .acquire fd hfree⟩
  | use v effect =>
      cases hheld : s.held (a, v) with
      | none => exact ⟨_, _, .useNothing hheld⟩
      | some fd => exact ⟨_, _, .use fd hheld rfl⟩
  | check v => exact ⟨_, _, .check rfl⟩
  | release v =>
      cases hheld : s.held (a, v) with
      | none => exact ⟨_, _, .releaseNothing hheld⟩
      | some fd => exact ⟨_, _, .release fd hheld rfl⟩
  | forget v => exact ⟨_, _, .forget⟩
  | _ => cases hown

/-- An agent can make more requests of its own at any time. -/
theorem Shared.Steps.extend {trace : List (Entry A V O)} {s : Shared A V O}
    (h : Shared.Steps .empty trace s) (a : A) {requests : List (Request V O)}
    (howned : ∀ request ∈ requests, request.isOwn = true) :
    ∃ more s', Shared.Steps .empty (trace ++ more) s' ∧
      requestsOf a (trace ++ more) = requestsOf a trace ++ requests ∧
      ∀ b, b ≠ a → requestsOf b (trace ++ more) = requestsOf b trace := by
  induction requests using List.reverseRecOn with
  | nil => exact ⟨[], s, by simpa using h, by simp, by simp⟩
  | append_singleton requests request ih =>
      obtain ⟨more, s', hsteps, hown, hothers⟩ :=
        ih fun request hmem => howned request (List.mem_append_left _ hmem)
      obtain ⟨n, hfree⟩ := hsteps.exists_free
      obtain ⟨answer, s'', hstep⟩ := s'.exists_step a
        (howned request (List.mem_append_right _ List.mem_cons_self)) (hfree n (Nat.le_refl n))
      refine ⟨more ++ [⟨a, request, answer⟩], s'', ?_, ?_, ?_⟩
      · rw [← List.append_assoc]
        exact hsteps.snoc ⟨a, request, answer⟩ hstep
      · rw [← List.append_assoc, ← List.append_assoc, ← hown, requestsOf,
          entriesOf_snoc _ ⟨a, request, answer⟩, List.map_append]
        rfl
      · intro b hb
        rw [← hothers b hb, ← List.append_assoc, requestsOf,
          entriesOf_snoc_of_ne _ ⟨a, request, answer⟩ hb.symm]
        rfl

/-- What an agent holds can be handed over. -/
theorem Shared.Steps.exists_handOver {trace : List (Entry A V O)} {s : Shared A V O}
    (h : Shared.Steps .empty trace s)
    (hdisciplined : ∀ a, Disciplined (fun _ => .nothing) (requestsOf a trace)) {a b : A}
    (other : b ≠ a) {v : V} (w : V) {q : Private V O} {object : O}
    (hreaches : Private.Reaches (fun _ => .nothing) (requestsOf a trace) q)
    (hlive : q v = .live object) :
    ∃ s', Shared.Steps .empty
      (trace ++ [⟨a, .give v, some object⟩, ⟨b, .receive w object, none⟩]) s' := by
  obtain ⟨p, hrepresents, hruns⟩ := h.isolated hdisciplined
  obtain ⟨answers, hrun⟩ := hreaches
  have hq : variablesOf p a = q := by
    rw [hruns a] at hrun
    exact (Prod.ext_iff.mp (Option.some.inj hrun)).2
  obtain ⟨fd, hheld, htable⟩ := hrepresents.live (k := (a, v)) (hq ▸ hlive)
  exact ⟨_, h.handOver fd other hheld htable⟩

/-- An agent can acquire an object and hand it over. -/
theorem Shared.Steps.extend_give {trace : List (Entry A V O)} {s : Shared A V O}
    (h : Shared.Steps .empty trace s)
    (hdisciplined : ∀ a, Disciplined (fun _ => .nothing) (requestsOf a trace)) {a b : A}
    (other : b ≠ a) {requests : List (Request V O)}
    (howned : ∀ request ∈ requests, request.isOwn = true) {v : V} (w : V) {o : O}
    (hown : Disciplined (fun _ => .nothing)
      (requestsOf a trace ++ (requests ++ [.acquire v o]))) :
    ∃ more s', Shared.Steps .empty (trace ++ more) s' ∧
      requestsOf a (trace ++ more) =
        requestsOf a trace ++ (requests ++ [.acquire v o, .give v]) ∧
      requestsOf b (trace ++ more) = requestsOf b trace ++ [.receive w o] ∧
      ∀ c, c ≠ a → c ≠ b → requestsOf c (trace ++ more) = requestsOf c trace := by
  have hacquire : ∀ request ∈ requests ++ [.acquire v o], request.isOwn = true := by
    intro request hmem
    rcases List.mem_append.mp hmem with hmem | hmem
    · exact howned request hmem
    · rw [List.mem_singleton.mp hmem]
      rfl
  obtain ⟨more, s₁, hsteps, hmade, hothers⟩ := h.extend a hacquire
  obtain ⟨⟨answers, q⟩, hrun⟩ := Option.isSome_iff_exists.mp hown
  have hlive : q v = .live o := by
    rw [← List.append_assoc] at hrun
    rw [Private.run_append] at hrun
    obtain ⟨⟨before, p⟩, -, hlast⟩ := Option.bind_eq_some_iff.mp hrun
    obtain ⟨⟨last, p'⟩, hstep, heq⟩ := Option.map_eq_some_iff.mp hlast
    cases heq
    obtain ⟨answer, r, rest, hacquired, hnil, -⟩ := Private.run_cons hstep
    cases hnil
    obtain ⟨-, -, rfl⟩ := Private.step_acquire hacquired
    exact Function.update_self ..
  have hall : ∀ c, Disciplined (fun _ => .nothing) (requestsOf c (trace ++ more)) := by
    intro c
    by_cases hc : c = a
    · rw [hc, hmade]
      exact hown
    · rw [hothers c hc]
      exact hdisciplined c
  have hreaches : Private.Reaches (fun _ => .nothing) (requestsOf a (trace ++ more)) q :=
    ⟨answers, by rw [hmade]; exact hrun⟩
  obtain ⟨s₂, hgiven⟩ := hsteps.exists_handOver hall other w hreaches hlive
  refine ⟨more ++ [⟨a, .give v, some o⟩, ⟨b, .receive w o, none⟩], s₂, ?_, ?_, ?_, ?_⟩
  · rw [← List.append_assoc]
    exact hgiven
  · rw [← List.append_assoc, requestsOf_append, hmade]
    simp [requestsOf, entriesOf, other]
  · rw [← List.append_assoc, requestsOf_append, hothers b other]
    simp [requestsOf, entriesOf, other.symm]
  · intro c ha hb
    rw [← List.append_assoc, requestsOf_append, hothers c ha]
    simp [requestsOf, entriesOf, ha.symm, hb.symm]

/-- In any order of requests, agents that are disciplined and keep to the objects
meant for their variables never meet another. -/
theorem Shared.Steps.meets {trace : List (Entry A V O)} {s : Shared A V O}
    (h : Shared.Steps .empty trace s)
    (hdisciplined : ∀ a, Disciplined (fun _ => .nothing) (requestsOf a trace))
    {ok : A → V → O → Prop} (hkeeps : ∀ a, ∀ request ∈ requestsOf a trace, request.Keeps (ok a)) :
    ∀ entry ∈ trace, entry.Meets (ok entry.agent) := by
  intro entry hentry
  obtain ⟨p, -, hruns⟩ := h.isolated hdisciplined
  have hkept : ∀ other ∈ entriesOf entry.agent trace, other.request.Keeps (ok entry.agent) :=
    fun other hother => hkeeps _ _ (List.mem_map_of_mem hother)
  have hmeets := Private.run_keeps _ hkept (hruns entry.agent) fun _ _ hlive => by cases hlive
  exact hmeets entry (List.mem_filter.mpr ⟨hentry, decide_eq_true rfl⟩)

end Shared

end HttpsServ.Descriptors
