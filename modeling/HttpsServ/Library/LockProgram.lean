import Mathlib.Logic.Function.Basic
import Mathlib.Logic.Relation
import Mathlib.Data.Set.Basic

/-!
# Straight-line programs over mutexes

Any number of threads call programs that lock and unlock mutexes. A program is
disciplined when it holds at most one mutex at a time, releases only the one it
holds, and ends with none. Where all the programs are, every run keeps an
owner's ledger, and no call waits for ever.
-/

namespace HttpsServ.LockProgram

inductive Instr (M A : Type*)
  | lock (mutex : M)
  | unlock (mutex : M)
  | act (action : A)

section Discipline

variable {M A : Type*} [DecidableEq M]

/-- The mutex held behind a program, from the one held in front of it; nothing
when a second one is taken, or one is released that is not held. -/
def heldAfter : Option M → List (Instr M A) → Option (Option M)
  | held, [] => some held
  | held, .lock m :: program => if held = none then heldAfter (some m) program else none
  | held, .unlock m :: program => if held = some m then heldAfter none program else none
  | held, .act _ :: program => heldAfter held program

def Disciplined (program : List (Instr M A)) : Prop := heldAfter none program = some none

instance (program : List (Instr M A)) : Decidable (Disciplined program) :=
  inferInstanceAs (Decidable (_ = _))

theorem heldAfter_lock_iff {held : Option M} {m : M} {program : List (Instr M A)} :
    heldAfter held (.lock m :: program) = some none ↔
      held = none ∧ heldAfter (some m) program = some none := by
  rw [heldAfter]
  split <;> simp [*]

theorem heldAfter_unlock_iff {held : Option M} {m : M} {program : List (Instr M A)} :
    heldAfter held (.unlock m :: program) = some none ↔
      held = some m ∧ heldAfter none program = some none := by
  rw [heldAfter]
  split <;> simp [*]

end Discipline

section States

variable {T M A : Type*} [DecidableEq M]

/-- The owner of each mutex, and what is left of the call of each thread. -/
structure State (T M A : Type*) where
  owner : M → Option T
  rest : T → List (Instr M A)

/-- No thread is inside a call, and every mutex is free. -/
def State.idle : State T M A where
  owner := fun _ => none
  rest := fun _ => []

/-- A ledger of the mutexes held: it agrees with the owners, and what is left of
each call gives its mutex back. -/
structure Ledger (s : State T M A) (held : T → Option M) : Prop where
  returns : ∀ t, heldAfter (held t) (s.rest t) = some none
  owner : ∀ t m, s.owner m = some t ↔ held t = some m

def Ordered (s : State T M A) : Prop := ∃ held, Ledger s held

theorem ordered_idle : Ordered (State.idle : State T M A) := by
  refine ⟨fun _ => none, fun _ => rfl, ?_⟩
  intro t m
  simp [State.idle]

/-- A mutex is released by its owner only. -/
theorem Ordered.owner_of_unlock {s : State T M A} (h : Ordered s) {t : T} {m : M}
    {program : List (Instr M A)} (hrest : s.rest t = .unlock m :: program) :
    s.owner m = some t := by
  obtain ⟨held, hledger⟩ := h
  have hreturns := hledger.returns t
  rw [hrest, heldAfter_unlock_iff] at hreturns
  exact (hledger.owner t m).mpr hreturns.1

/-- A thread outside its calls owns nothing. -/
theorem Ordered.owner_ne {s : State T M A} (h : Ordered s) {t : T} (hrest : s.rest t = [])
    (m : M) : s.owner m ≠ some t := by
  obtain ⟨held, hledger⟩ := h
  have hreturns := hledger.returns t
  rw [hrest, heldAfter, Option.some.injEq] at hreturns
  intro hown
  rw [hledger.owner, hreturns] at hown
  cases hown

theorem Ordered.owner_eq_none {s : State T M A} (h : Ordered s) (hrest : ∀ t, s.rest t = [])
    (m : M) : s.owner m = none := by
  rw [Option.eq_none_iff_forall_ne_some]
  intro t
  exact h.owner_ne (hrest t) m

end States

section Runs

variable {T M A : Type*} [DecidableEq T] [DecidableEq M]

/-- One step of a thread: it enters a call, or executes its next instruction. A
lock waits until the mutex is free; an unlock frees it, whoever owns it. -/
inductive Step (programs : Set (List (Instr M A))) (t : T) : State T M A → State T M A → Prop
  | call {s : State T M A} {program : List (Instr M A)} (hprogram : program ∈ programs)
      (hrest : s.rest t = []) :
      Step programs t s { s with rest := Function.update s.rest t program }
  | lock {s : State T M A} {m : M} {program : List (Instr M A)}
      (hrest : s.rest t = .lock m :: program) (hfree : s.owner m = none) :
      Step programs t s
        { owner := Function.update s.owner m (some t)
          rest := Function.update s.rest t program }
  | unlock {s : State T M A} {m : M} {program : List (Instr M A)}
      (hrest : s.rest t = .unlock m :: program) :
      Step programs t s
        { owner := Function.update s.owner m none
          rest := Function.update s.rest t program }
  | act {s : State T M A} {action : A} {program : List (Instr M A)}
      (hrest : s.rest t = .act action :: program) :
      Step programs t s { s with rest := Function.update s.rest t program }

/-- Runs in which the threads call these programs, in any order of steps. -/
def Runs (programs : Set (List (Instr M A))) : State T M A → State T M A → Prop :=
  Relation.ReflTransGen fun s s' => ∃ t, Step programs t s s'

/-- The ledger after a step of one thread that leaves it with another mutex. -/
theorem Ledger.update {s : State T M A} {held : T → Option M} (h : Ledger s held) {t : T}
    {owner : M → Option T} {program : List (Instr M A)} {now : Option M}
    (hreturns : heldAfter now program = some none)
    (hself : ∀ m, owner m = some t ↔ now = some m)
    (hothers : ∀ u m, u ≠ t → (owner m = some u ↔ s.owner m = some u)) :
    Ledger { owner := owner, rest := Function.update s.rest t program }
      (Function.update held t now) := by
  constructor
  · intro u
    rcases eq_or_ne u t with rfl | hne
    · simpa using hreturns
    · simpa [hne] using h.returns u
  · intro u m
    rcases eq_or_ne u t with rfl | hne
    · simpa using hself m
    · simpa [hne] using (hothers u m hne).trans (h.owner u m)

/-- What one step preserves. -/
theorem Ordered.step {programs : Set (List (Instr M A))}
    (hprograms : ∀ program ∈ programs, Disciplined program) {s s' : State T M A} {t : T}
    (h : Ordered s) (hstep : Step programs t s s') : Ordered s' := by
  obtain ⟨held, hledger⟩ := h
  have hreturns := hledger.returns t
  cases hstep with
  | call hprogram hrest =>
      rw [hrest, heldAfter, Option.some.injEq] at hreturns
      refine ⟨_, hledger.update (hprograms _ hprogram) ?_ fun _ _ _ => Iff.rfl⟩
      intro m
      rw [hledger.owner, hreturns]
  | lock hrest hfree =>
      rename_i m program
      rw [hrest, heldAfter_lock_iff] at hreturns
      obtain ⟨hnone, hreturns⟩ := hreturns
      refine ⟨_, hledger.update hreturns ?_ ?_⟩
      · intro m'
        rcases eq_or_ne m' m with rfl | hne
        · simp
        · have hnot := hledger.owner t m'
          rw [hnone] at hnot
          simpa [hne, hne.symm] using hnot
      · intro u m' hu
        rcases eq_or_ne m' m with rfl | hne
        · simp [hfree, hu.symm]
        · simp [hne]
  | unlock hrest =>
      rename_i m program
      rw [hrest, heldAfter_unlock_iff] at hreturns
      obtain ⟨hsome, hreturns⟩ := hreturns
      refine ⟨_, hledger.update hreturns ?_ ?_⟩
      · intro m'
        rcases eq_or_ne m' m with rfl | hne
        · simp
        · have hnot := hledger.owner t m'
          rw [hsome] at hnot
          simpa [hne, hne.symm] using hnot
      · intro u m' hu
        rcases eq_or_ne m' m with rfl | hne
        · have hown : s.owner m' = some t := (hledger.owner t m').mpr hsome
          simp [hown, hu.symm]
        · simp [hne]
  | act hrest =>
      rw [hrest, heldAfter] at hreturns
      refine ⟨_, hledger.update hreturns ?_ fun _ _ _ => Iff.rfl⟩
      intro m
      exact hledger.owner t m

/-- What a run preserves. -/
theorem Ordered.runs {programs : Set (List (Instr M A))}
    (hprograms : ∀ program ∈ programs, Disciplined program) {s s' : State T M A}
    (h : Ordered s) (hruns : Runs programs s s') : Ordered s' := by
  induction hruns with
  | refl => exact h
  | tail _ hstep ih =>
      obtain ⟨t, hstep⟩ := hstep
      exact ih.step hprograms hstep

/-- Runs in which the threads only go on with the calls they are in. -/
theorem Ordered.continued {s s' : State T M A} (h : Ordered s) (hruns : Runs ∅ s s') :
    Ordered s' :=
  h.runs (fun _ hprogram => absurd hprogram (Set.notMem_empty _)) hruns

/-- Where every call waits for a mutex that is owned, nothing moves. -/
theorem runs_of_stuck {s s' : State T M A}
    (hstuck : ∀ t, s.rest t = [] ∨
      ∃ m program, s.rest t = .lock m :: program ∧ s.owner m ≠ none)
    (hruns : Runs ∅ s s') : s' = s := by
  rcases hruns.cases_head with heq | ⟨s₁, ⟨t, hstep⟩, -⟩
  · exact heq.symm
  · exfalso
    rcases hstuck t with hout | ⟨m, program, hwaits, howned⟩
    · cases hstep with
      | call hprogram _ => exact hprogram
      | lock hrest _ | unlock hrest | act hrest =>
          rw [hout] at hrest
          cases hrest
    · cases hstep with
      | call hprogram _ => exact hprogram
      | lock hrest hfree =>
          rw [hwaits] at hrest
          cases hrest
          exact howned hfree
      | unlock hrest | act hrest =>
          rw [hwaits] at hrest
          cases hrest

/-- The owner of a mutex gives it back by steps of its own. -/
theorem Ordered.release {s : State T M A} (h : Ordered s) {t : T} {m : M}
    (hown : s.owner m = some t) :
    ∃ s', Runs ∅ s s' ∧ s'.owner m = none ∧ ∀ u, u ≠ t → s'.rest u = s.rest u := by
  generalize hrest : s.rest t = program
  induction program generalizing s with
  | nil => exact absurd hown (h.owner_ne hrest m)
  | cons instr program ih =>
      cases instr with
      | lock m' =>
          obtain ⟨held, hledger⟩ := h
          have hreturns := hledger.returns t
          rw [hrest, heldAfter_lock_iff, (hledger.owner t m).mp hown] at hreturns
          cases hreturns.1
      | unlock m' =>
          have hsame : m' = m := by
            have howner := h.owner_of_unlock hrest
            obtain ⟨held, hledger⟩ := h
            rw [hledger.owner] at hown howner
            exact Option.some.inj (howner.symm.trans hown)
          subst hsame
          have hstep : Step ∅ t s _ := .unlock hrest
          refine ⟨_, .single ⟨t, hstep⟩, Function.update_self _ _ _, ?_⟩
          intro u hu
          exact Function.update_of_ne hu _ _
      | act action =>
          have hstep : Step ∅ t s _ := .act hrest
          obtain ⟨s', hruns, hfree, hothers⟩ := ih (h.continued (.single ⟨t, hstep⟩)) hown
            (Function.update_self _ _ _)
          refine ⟨s', .head ⟨t, hstep⟩ hruns, hfree, ?_⟩
          intro u hu
          rw [hothers u hu]
          exact Function.update_of_ne hu _ _

/-- A lock that waits is granted after steps of the owner. -/
theorem Ordered.acquire {s : State T M A} (h : Ordered s) {t : T} {m : M}
    {program : List (Instr M A)} (hrest : s.rest t = .lock m :: program) :
    ∃ s', Runs ∅ s s' ∧ s'.rest t = program := by
  obtain ⟨s', hruns, hfree, hwaits⟩ : ∃ s', Runs ∅ s s' ∧ s'.owner m = none ∧
      s'.rest t = .lock m :: program := by
    cases hown : s.owner m with
    | none => exact ⟨s, .refl, hown, hrest⟩
    | some u =>
        obtain ⟨s', hruns, hfree, hothers⟩ := h.release hown
        refine ⟨s', hruns, hfree, ?_⟩
        rw [hothers, hrest]
        rintro rfl
        -- a thread that waits for a mutex does not own one
        obtain ⟨held, hledger⟩ := h
        have hreturns := hledger.returns t
        rw [hrest, heldAfter_lock_iff, (hledger.owner t m).mp hown] at hreturns
        cases hreturns.1
  have hstep : Step ∅ t s' _ := .lock hwaits hfree
  exact ⟨_, hruns.tail ⟨t, hstep⟩, Function.update_self _ _ _⟩

/-- Every call can be finished by the threads that are inside calls. -/
theorem Ordered.finish {s : State T M A} (h : Ordered s) (t : T) :
    ∃ s', Runs ∅ s s' ∧ s'.rest t = [] := by
  generalize hrest : s.rest t = program
  induction program generalizing s with
  | nil => exact ⟨s, .refl, hrest⟩
  | cons instr program ih =>
      obtain ⟨s', hruns, hrest'⟩ : ∃ s', Runs ∅ s s' ∧ s'.rest t = program := by
        cases instr with
        | lock m => exact h.acquire hrest
        | unlock m =>
            have hstep : Step ∅ t s _ := .unlock hrest
            exact ⟨_, .single ⟨t, hstep⟩, Function.update_self _ _ _⟩
        | act action =>
            have hstep : Step ∅ t s _ := .act hrest
            exact ⟨_, .single ⟨t, hstep⟩, Function.update_self _ _ _⟩
      obtain ⟨s'', hruns', hend⟩ := ih (h.continued hruns) hrest'
      exact ⟨s'', hruns.trans hruns', hend⟩

end Runs

end HttpsServ.LockProgram
