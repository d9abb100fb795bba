import HttpsServ.Library.LockProgram

/-!
# The order of critical sections

Threads that touch a resource only while they hold its mutex take turns. In
whatever order the steps come, the resource sees one whole section after the
other, and behind them as much as the owner has done of the section it is in.
-/

namespace HttpsServ.AtomicSections

open LockProgram

section Sections

variable {M A B : Type*} [DecidableEq M] (m : M) (effect : A → Option B)

/-- The sections that a thread has closed, and what it has done since. -/
structure Sections (B : Type*) where
  closed : List (List B) := []
  current : List B := []

def Sections.exec (s : Sections B) : Instr M A → Sections B
  | .lock _ => s
  | .unlock m' => if m' = m then { closed := s.closed ++ [s.current], current := [] } else s
  | .act action => { s with current := s.current ++ (effect action).toList }

def Sections.run (s : Sections B) (program : List (Instr M A)) : Sections B :=
  program.foldl (Sections.exec m effect) s

/-- The program touches the resource only while its mutex is held. -/
def Protected : Bool → List (Instr M A) → Prop
  | _, [] => True
  | inside, .lock m' :: program => Protected (inside || decide (m' = m)) program
  | inside, .unlock m' :: program => Protected (inside && decide (m' ≠ m)) program
  | inside, .act action :: program =>
      (effect action ≠ none → inside = true) ∧ Protected inside program

variable {m effect}

@[simp] theorem Sections.run_nil (s : Sections B) : s.run m effect [] = s := rfl

@[simp] theorem Sections.run_cons (s : Sections B) (instr : Instr M A)
    (program : List (Instr M A)) :
    s.run m effect (instr :: program) = (s.exec m effect instr).run m effect program := rfl

theorem Sections.run_append (s : Sections B) (first second : List (Instr M A)) :
    s.run m effect (first ++ second) = (s.run m effect first).run m effect second :=
  List.foldl_append

/-- Sections that are closed stay as they are. -/
theorem Sections.run_closed (s : Sections B) (program : List (Instr M A)) :
    s.run m effect program =
      { closed := s.closed ++ (Sections.run m effect { current := s.current } program).closed
        current := (Sections.run m effect { current := s.current } program).current } := by
  induction program generalizing s with
  | nil => simp
  | cons instr program ih =>
      rw [run_cons, run_cons, ih, ih (Sections.exec m effect _ instr)]
      cases instr with
      | lock m' => simp [Sections.exec]
      | act action => simp [Sections.exec]
      | unlock m' =>
          by_cases hm : m' = m
          · simp [Sections.exec, hm]
          · simp [Sections.exec, hm]

variable (m) in
def releases : Instr M A → Bool
  | .unlock m' => decide (m' = m)
  | _ => false

/-- Each release of the mutex closes a section. -/
theorem Sections.length_closed (s : Sections B) (program : List (Instr M A)) :
    (s.run m effect program).closed.length = s.closed.length + program.countP (releases m) := by
  induction program generalizing s with
  | nil => rfl
  | cons instr program ih =>
      rw [run_cons, ih, List.countP_cons]
      cases instr with
      | lock m' => simp [Sections.exec, releases]
      | act action => simp [Sections.exec, releases]
      | unlock m' =>
          by_cases hm : m' = m
          · simp only [Sections.exec, hm, if_true, List.length_append, List.length_singleton,
              releases, decide_true]
            omega
          · simp [Sections.exec, hm, releases]

variable (m effect) in
/-- What is done of the current section stays in front of it. -/
theorem Sections.run_current (s : Sections B) (program : List (Instr M A)) :
    ∃ later sections, (s.run m effect program).closed ++ [(s.run m effect program).current] =
      s.closed ++ (s.current ++ later) :: sections := by
  induction program generalizing s with
  | nil => exact ⟨[], [], by simp⟩
  | cons instr program ih =>
      obtain ⟨later, sections, heq⟩ := ih (s.exec m effect instr)
      rw [run_cons, heq]
      cases instr with
      | lock m' => exact ⟨later, sections, rfl⟩
      | act action =>
          refine ⟨(effect action).toList ++ later, sections, ?_⟩
          simp [Sections.exec]
      | unlock m' =>
          by_cases hm : m' = m
          · refine ⟨[], later :: sections, ?_⟩
            simp [Sections.exec, hm]
          · refine ⟨later, sections, ?_⟩
            simp [Sections.exec, hm]

def sectionProgram (m' : M) (actions : List A) : List (Instr M A) :=
  .lock m' :: (actions.map .act ++ [.unlock m'])

theorem heldAfter_acts (held : Option M) (actions : List A) (program : List (Instr M A)) :
    heldAfter held (actions.map .act ++ program) = heldAfter held program := by
  induction actions with
  | nil => rfl
  | cons action actions ih => exact ih

theorem sectionProgram_disciplined (m' : M) (actions : List A) :
    Disciplined (sectionProgram m' actions) := by
  rw [Disciplined, sectionProgram, heldAfter_lock_iff, heldAfter_acts, heldAfter_unlock_iff]
  exact ⟨rfl, rfl, rfl⟩

theorem protected_acts {inside : Bool} {actions : List A} {program : List (Instr M A)}
    (hactions : ∀ action ∈ actions, effect action ≠ none → inside = true)
    (hprogram : Protected m effect inside program) :
    Protected m effect inside (actions.map .act ++ program) := by
  induction actions with
  | nil => exact hprogram
  | cons action actions ih =>
      refine ⟨hactions action List.mem_cons_self, ih ?_⟩
      intro action' hmem
      exact hactions action' (List.mem_cons_of_mem _ hmem)

/-- A section of another mutex leaves the resource alone. -/
theorem sectionProgram_protected {m' : M} {actions : List A}
    (hactions : ∀ action ∈ actions, effect action ≠ none → m' = m) :
    Protected m effect false (sectionProgram m' actions) := by
  apply protected_acts
  · intro action hmem heffect
    simpa using hactions action hmem heffect
  · trivial

theorem Sections.run_acts (s : Sections B) (actions : List A) :
    s.run m effect (actions.map .act) =
      { s with current := s.current ++ actions.filterMap effect } := by
  induction actions generalizing s with
  | nil => simp
  | cons action actions ih =>
      rw [List.map_cons, run_cons, ih, List.filterMap_cons]
      cases heffect : effect action with
      | none => simp [Sections.exec, heffect]
      | some b => simp [Sections.exec, heffect]

theorem Sections.run_sectionProgram (closed : List (List B)) (m' : M) (actions : List A) :
    Sections.run m effect { closed := closed } (sectionProgram m' actions) =
      if m' = m then { closed := closed ++ [actions.filterMap effect] }
      else { closed := closed, current := actions.filterMap effect } := by
  rw [sectionProgram, run_cons, run_append]
  simp only [Sections.exec, run_acts, run_cons, run_nil, List.nil_append]

end Sections

section Traces

variable {T M A B : Type*} [DecidableEq T] [DecidableEq M]

inductive Event (M A : Type*)
  | call (program : List (Instr M A))
  | exec (instr : Instr M A)

/-- The step of a thread: it enters a call when it is in none. -/
def stepEvent (t : T) (s s' : State T M A) : Event M A :=
  match s.rest t with
  | [] => .call (s'.rest t)
  | instr :: _ => .exec instr

/-- Runs with the steps that the threads have taken, behind an earlier trace. -/
inductive Traced (programs : Set (List (Instr M A))) (trace₀ : List (T × Event M A))
    (s₀ : State T M A) : List (T × Event M A) → State T M A → Prop
  | start : Traced programs trace₀ s₀ trace₀ s₀
  | step {trace : List (T × Event M A)} {s s' : State T M A} {t : T}
      (before : Traced programs trace₀ s₀ trace s) (hstep : Step programs t s s') :
      Traced programs trace₀ s₀ (trace ++ [(t, stepEvent t s s')]) s'

theorem Traced.trans {programs : Set (List (Instr M A))}
    {trace₀ trace trace' : List (T × Event M A)} {s₀ s s' : State T M A}
    (h : Traced programs trace₀ s₀ trace s) (h' : Traced programs trace s trace' s') :
    Traced programs trace₀ s₀ trace' s' := by
  induction h' with
  | start => exact h
  | step _ hstep ih => exact ih.step hstep

/-- What one thread has contributed to a common list. -/
def onlyOf {X : Type*} (t : T) (common : List (T × X)) : List X :=
  common.filterMap fun entry => if entry.1 = t then some entry.2 else none

theorem onlyOf_snoc {X : Type*} (t u : T) (common : List (T × X)) (x : X) :
    onlyOf t (common ++ [(u, x)]) = onlyOf t common ++ if u = t then [x] else [] := by
  rw [onlyOf, List.filterMap_append]
  congr 1
  by_cases hu : u = t
  · simp [hu]
  · simp [hu]

theorem onlyOf_cons {X : Type*} (t u : T) (x : X) (common : List (T × X)) :
    onlyOf t ((u, x) :: common) = if u = t then x :: onlyOf t common else onlyOf t common := by
  rw [onlyOf, List.filterMap_cons]
  by_cases hu : u = t
  · simp [hu, onlyOf]
  · simp [hu, onlyOf]

theorem mem_onlyOf {X : Type*} {t : T} {x : X} {common : List (T × X)} (h : (t, x) ∈ common) :
    x ∈ onlyOf t common :=
  List.mem_filterMap.mpr ⟨(t, x), h, if_pos rfl⟩

theorem onlyOf_map {X Y : Type*} (f : X → Y) (t : T) (common : List (T × X)) :
    onlyOf t (common.map fun entry => (entry.1, f entry.2)) = (onlyOf t common).map f := by
  induction common with
  | nil => rfl
  | cons entry common ih =>
      rw [List.map_cons, onlyOf_cons, onlyOf_cons, ih]
      split
      · rfl
      · rfl

/-- A common order of images is the image of a common order. -/
theorem exists_onlyOf_of_map {X Y : Type*} {f : X → Y} {common : List (T × Y)}
    {own : T → List X} (h : ∀ t, onlyOf t common = (own t).map f) :
    ∃ order : List (T × X), common = order.map (fun entry => (entry.1, f entry.2)) ∧
      ∀ t, onlyOf t order = own t := by
  induction common generalizing own with
  | nil =>
      refine ⟨[], rfl, fun t => ?_⟩
      exact (List.map_eq_nil_iff.mp (h t).symm).symm
  | cons entry common ih =>
      obtain ⟨u, y⟩ := entry
      have hu := h u
      rw [onlyOf_cons, if_pos rfl] at hu
      obtain ⟨x, rest, hown, rfl, hrest⟩ := List.map_eq_cons_iff.mp hu.symm
      have htail : ∀ t, onlyOf t common = (Function.update own u rest t).map f := by
        intro t
        rcases eq_or_ne t u with rfl | hne
        · rw [Function.update_self, hrest]
        · rw [Function.update_of_ne hne, ← h t, onlyOf_cons, if_neg hne.symm]
      obtain ⟨order, hcommon, horder⟩ := ih htail
      refine ⟨(u, x) :: order, by rw [hcommon, List.map_cons], fun t => ?_⟩
      rw [onlyOf_cons, horder]
      rcases eq_or_ne t u with rfl | hne
      · rw [if_pos rfl, Function.update_self, hown]
      · rw [if_neg hne.symm, Function.update_of_ne hne]

def Event.called : Event M A → Option (List (Instr M A))
  | .call program => some program
  | .exec _ => none

def Event.executed : Event M A → Option (Instr M A)
  | .call _ => none
  | .exec instr => some instr

/-- The programs that a thread has entered. -/
def called (t : T) (trace : List (T × Event M A)) : List (List (Instr M A)) :=
  (onlyOf t trace).filterMap Event.called

/-- The instructions that a thread has executed. -/
def executed (t : T) (trace : List (T × Event M A)) : List (Instr M A) :=
  (onlyOf t trace).filterMap Event.executed

omit [DecidableEq M] in
theorem called_snoc (t u : T) (trace : List (T × Event M A)) (e : Event M A) :
    called t (trace ++ [(u, e)]) = called t trace ++ if u = t then e.called.toList else [] := by
  rw [called, onlyOf_snoc, List.filterMap_append, ← called]
  congr 1
  split
  · cases e <;> rfl
  · rfl

omit [DecidableEq M] in
theorem executed_snoc (t u : T) (trace : List (T × Event M A)) (e : Event M A) :
    executed t (trace ++ [(u, e)]) =
      executed t trace ++ if u = t then e.executed.toList else [] := by
  rw [executed, onlyOf_snoc, List.filterMap_append, ← executed]
  congr 1
  split
  · cases e <;> rfl
  · rfl

/-- What a thread has executed and what is left of its call are the calls it has
entered. -/
theorem Traced.executed_append_rest {programs : Set (List (Instr M A))}
    {trace : List (T × Event M A)} {s : State T M A} (h : Traced programs [] .idle trace s) (t : T) :
    executed t trace ++ s.rest t = (called t trace).flatten := by
  induction h with
  | start => rfl
  | step before hstep ih =>
      rename_i trace s s' u
      rw [executed_snoc, called_snoc, List.flatten_append, ← ih]
      by_cases hu : u = t
      · subst hu
        cases hstep with
        | call hprogram hrest => simp [stepEvent, hrest, Event.executed, Event.called]
        | lock hrest _ | unlock hrest | act hrest =>
            simp [stepEvent, hrest, Event.executed, Event.called]
      · have hrest : s'.rest t = s.rest t := by
          cases hstep <;> exact Function.update_of_ne (Ne.symm hu) _ _
        simp [hu, hrest]

/-- What is left of a call is the end of the last program entered. -/
theorem Traced.rest_suffix {programs : Set (List (Instr M A))} {trace : List (T × Event M A)}
    {s : State T M A} (h : Traced programs [] .idle trace s) (t : T) :
    s.rest t = [] ∨ ∃ program ∈ programs, s.rest t <:+ program := by
  induction h with
  | start => exact .inl rfl
  | step before hstep ih =>
      rename_i trace s s' u
      by_cases hu : u = t
      · subst hu
        cases hstep with
        | call hprogram hrest =>
            refine .inr ⟨_, hprogram, ?_⟩
            simp only [Function.update_self, List.suffix_refl]
        | lock hrest _ | unlock hrest | act hrest =>
            rw [hrest] at ih
            obtain hnil | ⟨program, hprogram, hsuffix⟩ := ih
            · cases hnil
            · refine .inr ⟨program, hprogram, ?_⟩
              simp only [Function.update_self]
              exact (List.suffix_cons _ _).trans hsuffix
      · have hrest : s'.rest t = s.rest t := by
          cases hstep <;> exact Function.update_of_ne (Ne.symm hu) _ _
        rw [hrest]
        exact ih

variable (m : M) (effect : A → Option B)

/-- What the resource sees of a trace, with the thread each effect comes from. -/
def effects (trace : List (T × Event M A)) : List (T × B) :=
  trace.filterMap fun entry =>
    match entry.2 with
    | .exec (.act action) => (effect action).map (entry.1, ·)
    | _ => none

def sectionsOf (t : T) (trace : List (T × Event M A)) : Sections B :=
  Sections.run m effect {} (executed t trace)

def Tagged (entry : T × List B) : List (T × B) := entry.2.map (entry.1, ·)

/-- The part of its section that the owner of the mutex has done. -/
def openSection (s : State T M A) (trace : List (T × Event M A)) : List (T × B) :=
  match s.owner m with
  | none => []
  | some t => Tagged (t, (sectionsOf m effect t trace).current)

/-- The sections come one after the other, each thread's in the order in which it
closed them. -/
structure TakesTurns (trace : List (T × Event M A)) (s : State T M A)
    (order : List (T × List B)) : Prop where
  effects_eq : effects effect trace = order.flatMap Tagged ++ openSection m effect s trace
  order_eq : ∀ t, onlyOf t order = (sectionsOf m effect t trace).closed

/-- What holds between two steps. -/
structure Between (trace : List (T × Event M A)) (s : State T M A)
    (order : List (T × List B)) : Prop where
  ordered : Ordered s
  protects : ∀ t, Protected m effect (decide (s.owner m = some t)) (s.rest t)
  outside : ∀ t, s.owner m ≠ some t → (sectionsOf m effect t trace).current = []
  turns : TakesTurns m effect trace s order

variable {m effect}

omit [DecidableEq T] [DecidableEq M] in
theorem effects_snoc (trace : List (T × Event M A)) (t : T) (e : Event M A) :
    effects effect (trace ++ [(t, e)]) = effects effect trace ++ effects effect [(t, e)] :=
  List.filterMap_append

theorem sectionsOf_snoc (t u : T) (trace : List (T × Event M A)) (e : Event M A) :
    sectionsOf m effect t (trace ++ [(u, e)]) =
      if u = t then (sectionsOf m effect t trace).run m effect e.executed.toList
      else sectionsOf m effect t trace := by
  rw [sectionsOf, executed_snoc, Sections.run_append, ← sectionsOf]
  split
  · rfl
  · rfl

/-- A step that leaves the mutex and the resource alone. -/
theorem Between.quiet {trace : List (T × Event M A)} {s s' : State T M A}
    {order : List (T × List B)} (h : Between m effect trace s order) {t : T} {e : Event M A}
    (hordered : Ordered s') (howner : s'.owner m = s.owner m)
    (hprotects : ∀ u, Protected m effect (decide (s.owner m = some u)) (s'.rest u))
    (hexec : ∀ c : Sections B, c.run m effect e.executed.toList = c)
    (hnone : effects effect [(t, e)] = []) :
    Between m effect (trace ++ [(t, e)]) s' order := by
  have hsections : ∀ u, sectionsOf m effect u (trace ++ [(t, e)]) = sectionsOf m effect u trace := by
    intro u
    rw [sectionsOf_snoc, hexec, ite_self]
  refine ⟨hordered, ?_, ?_, ?_, ?_⟩
  · intro u
    rw [howner]
    exact hprotects u
  · intro u hu
    rw [hsections]
    exact h.outside u (howner ▸ hu)
  · rw [effects_snoc, hnone, List.append_nil, h.turns.effects_eq, openSection, openSection, howner]
    simp only [hsections]
  · intro u
    rw [hsections]
    exact h.turns.order_eq u

/-- The threads other than the one that steps. -/
theorem rest_update_protected {s : State T M A} {t : T} {program : List (Instr M A)}
    {inside : T → Bool} (h : ∀ u, Protected m effect (inside u) (s.rest u))
    (ht : Protected m effect (inside t) program) (u : T) :
    Protected m effect (inside u) (Function.update s.rest t program u) := by
  rcases eq_or_ne u t with rfl | hu
  · rwa [Function.update_self]
  · rw [Function.update_of_ne hu]
    exact h u

/-- The mutex is taken: a section begins. -/
theorem Between.enter {trace : List (T × Event M A)} {s s' : State T M A}
    {order : List (T × List B)} (h : Between m effect trace s order) {t : T}
    (hordered : Ordered s') (hfree : s.owner m = none) (howner : s'.owner m = some t)
    (hself : Protected m effect true (s'.rest t)) (hothers : ∀ u, u ≠ t → s'.rest u = s.rest u) :
    Between m effect (trace ++ [(t, .exec (.lock m))]) s' order := by
  have hsections : ∀ u, sectionsOf m effect u (trace ++ [(t, .exec (.lock m))]) =
      sectionsOf m effect u trace := by
    intro u
    rw [sectionsOf_snoc]
    exact ite_self _
  have hempty : ∀ u, (sectionsOf m effect u trace).current = [] := by
    intro u
    apply h.outside u
    rw [hfree]
    exact Option.some_ne_none u |>.symm
  refine ⟨hordered, ?_, ?_, ?_, ?_⟩
  · intro u
    rcases eq_or_ne u t with rfl | hu
    · rwa [howner, decide_eq_true rfl]
    · have hprotects := h.protects u
      rw [hfree] at hprotects
      rw [hothers u hu, howner]
      simpa [hu.symm] using hprotects
  · intro u _
    rw [hsections, hempty]
  · rw [effects_snoc, h.turns.effects_eq, openSection, openSection, hfree, howner]
    simp [hsections, hempty, effects, Tagged]
  · intro u
    rw [hsections]
    exact h.turns.order_eq u

/-- The mutex is released by its owner: the section is closed. -/
theorem Between.leave {trace : List (T × Event M A)} {s s' : State T M A}
    {order : List (T × List B)} (h : Between m effect trace s order) {t : T}
    (hordered : Ordered s') (hown : s.owner m = some t) (hfree : s'.owner m = none)
    (hself : Protected m effect false (s'.rest t)) (hothers : ∀ u, u ≠ t → s'.rest u = s.rest u) :
    Between m effect (trace ++ [(t, .exec (.unlock m))]) s'
      (order ++ [(t, (sectionsOf m effect t trace).current)]) := by
  have hsections : ∀ u, sectionsOf m effect u (trace ++ [(t, .exec (.unlock m))]) =
      if t = u then
        { closed := (sectionsOf m effect u trace).closed ++ [(sectionsOf m effect u trace).current]
          current := [] }
      else sectionsOf m effect u trace := by
    intro u
    rw [sectionsOf_snoc]
    simp [Event.executed, Sections.exec]
  refine ⟨hordered, ?_, ?_, ?_, ?_⟩
  · intro u
    rw [hfree]
    rcases eq_or_ne u t with rfl | hu
    · exact hself
    · have hprotects := h.protects u
      rw [hown] at hprotects
      rw [hothers u hu]
      simpa [hu.symm] using hprotects
  · intro u _
    rw [hsections]
    split
    · rfl
    · rename_i hu
      apply h.outside u
      rw [hown]
      simpa using hu
  · rw [effects_snoc, h.turns.effects_eq, openSection, openSection, hown, hfree,
      List.flatMap_append, List.flatMap_singleton]
    rfl
  · intro u
    rw [onlyOf_snoc, hsections, h.turns.order_eq]
    split
    · rename_i hu
      rw [hu]
    · exact List.append_nil _

/-- The owner of the mutex touches the resource. -/
theorem Between.touch {trace : List (T × Event M A)} {s s' : State T M A}
    {order : List (T × List B)} (h : Between m effect trace s order) {t : T} {action : A} {b : B}
    (heffect : effect action = some b) (hordered : Ordered s') (hown : s.owner m = some t)
    (howner : s'.owner = s.owner)
    (hprotects : ∀ u, Protected m effect (decide (s.owner m = some u)) (s'.rest u)) :
    Between m effect (trace ++ [(t, .exec (.act action))]) s' order := by
  have hsections : ∀ u, sectionsOf m effect u (trace ++ [(t, .exec (.act action))]) =
      if t = u then
        { sectionsOf m effect u trace with current := (sectionsOf m effect u trace).current ++ [b] }
      else sectionsOf m effect u trace := by
    intro u
    rw [sectionsOf_snoc]
    simp [Event.executed, Sections.exec, heffect]
  refine ⟨hordered, ?_, ?_, ?_, ?_⟩
  · intro u
    rw [howner]
    exact hprotects u
  · intro u hu
    rw [howner, hown] at hu
    rw [hsections, if_neg (by simpa using hu)]
    apply h.outside u
    rwa [hown]
  · have hseen : effects effect [(t, (.exec (.act action) : Event M A))] = [(t, b)] := by
      simp [effects, heffect]
    rw [effects_snoc, hseen, h.turns.effects_eq, openSection, openSection, howner, hown]
    simp [hsections, Tagged]
  · intro u
    rw [hsections, h.turns.order_eq]
    split
    · rfl
    · rfl

theorem Between.step {programs : Set (List (Instr M A))}
    (hprograms : ∀ program ∈ programs, Disciplined program ∧ Protected m effect false program)
    {trace : List (T × Event M A)} {s s' : State T M A} {order : List (T × List B)}
    (h : Between m effect trace s order) {t : T} (hstep : Step programs t s s') :
    ∃ more, Between m effect (trace ++ [(t, stepEvent t s s')]) s' (order ++ more) := by
  have hordered : Ordered s' :=
    h.ordered.step (fun program hmem => (hprograms program hmem).1) hstep
  have hprotects := h.protects t
  cases hstep with
  | call hprogram hrest =>
      rename_i program
      have hout : decide (s.owner m = some t) = false :=
        decide_eq_false (h.ordered.owner_ne hrest m)
      refine ⟨[], (List.append_nil order).symm ▸ h.quiet hordered rfl ?_ ?_ ?_⟩
      · apply rest_update_protected h.protects
        rw [hout]
        exact (hprograms program hprogram).2
      · intro c
        simp [stepEvent, hrest, Event.executed]
      · simp [stepEvent, hrest, effects]
  | lock hrest hfree =>
      rename_i m' program
      rw [hrest, Protected] at hprotects
      have hevent : ∀ s', stepEvent t s s' = .exec (.lock m') := by
        intro s'
        rw [stepEvent, hrest]
      rw [hevent]
      by_cases hm : m' = m
      · subst hm
        refine ⟨[], (List.append_nil order).symm ▸
          h.enter hordered hfree (Function.update_self _ _ _) ?_ ?_⟩
        · simpa using hprotects
        · exact fun u hu => Function.update_of_ne hu _ _
      · refine ⟨[], (List.append_nil order).symm ▸
          h.quiet hordered (Function.update_of_ne (Ne.symm hm) _ _) ?_ ?_ rfl⟩
        · apply rest_update_protected h.protects
          simpa [hm] using hprotects
        · intro c
          rfl
  | unlock hrest =>
      rename_i m' program
      rw [hrest, Protected] at hprotects
      have hevent : ∀ s', stepEvent t s s' = .exec (.unlock m') := by
        intro s'
        rw [stepEvent, hrest]
      rw [hevent]
      by_cases hm : m' = m
      · subst hm
        refine ⟨_, h.leave hordered (h.ordered.owner_of_unlock hrest)
          (Function.update_self _ _ _) ?_ ?_⟩
        · simpa using hprotects
        · exact fun u hu => Function.update_of_ne hu _ _
      · refine ⟨[], (List.append_nil order).symm ▸
          h.quiet hordered (Function.update_of_ne (Ne.symm hm) _ _) ?_ ?_ rfl⟩
        · apply rest_update_protected h.protects
          simpa [hm] using hprotects
        · intro c
          simp [Event.executed, Sections.exec, hm]
  | act hrest =>
      rename_i action program
      rw [hrest, Protected] at hprotects
      have hevent : ∀ s', stepEvent t s s' = .exec (.act action) := by
        intro s'
        rw [stepEvent, hrest]
      rw [hevent]
      cases heffect : effect action with
      | none =>
          refine ⟨[], (List.append_nil order).symm ▸ h.quiet hordered rfl ?_ ?_ ?_⟩
          · exact rest_update_protected h.protects hprotects.2
          · intro c
            simp [Event.executed, Sections.exec, heffect]
          · simp [effects, heffect]
      | some b =>
          have hown : s.owner m = some t := by
            simpa [heffect] using hprotects.1
          exact ⟨[], (List.append_nil order).symm ▸ h.touch heffect hordered hown rfl
            (rest_update_protected h.protects hprotects.2)⟩

/-- Whatever order the steps come in, the threads take turns at the resource, and
what they have done stays in front. -/
theorem Between.run {programs : Set (List (Instr M A))}
    (hprograms : ∀ program ∈ programs, Disciplined program ∧ Protected m effect false program)
    {trace trace' : List (T × Event M A)} {s s' : State T M A} {order : List (T × List B)}
    (h : Between m effect trace s order) (hrun : Traced programs trace s trace' s') :
    ∃ more, Between m effect trace' s' (order ++ more) := by
  induction hrun with
  | start => exact ⟨[], (List.append_nil order).symm ▸ h⟩
  | step before hstep ih =>
      obtain ⟨more, hbetween⟩ := ih
      obtain ⟨more', hbetween'⟩ := hbetween.step hprograms hstep
      exact ⟨more ++ more', (List.append_assoc order more more') ▸ hbetween'⟩

theorem between_idle : Between m effect ([] : List (T × Event M A)) .idle [] := by
  refine ⟨ordered_idle, ?_, fun _ _ => rfl, rfl, fun _ => rfl⟩
  intro t
  trivial

theorem Traced.exists_between {programs : Set (List (Instr M A))}
    (hprograms : ∀ program ∈ programs, Disciplined program ∧ Protected m effect false program)
    {trace : List (T × Event M A)} {s : State T M A} (h : Traced programs [] .idle trace s) :
    ∃ order, Between m effect trace s order :=
  between_idle.run hprograms h

/-- The sections of the calls of a thread: those that it has closed, and those
that the rest of its call closes, of which it may have begun the first. -/
theorem Traced.closed_of_calls {programs : Set (List (Instr M A))}
    {trace : List (T × Event M A)} {s : State T M A} (h : Traced programs [] .idle trace s) (t : T)
    {sections : List (List B)}
    (hcalls : Sections.run m effect {} (called t trace).flatten = { closed := sections }) :
    ∃ pending, sections = (sectionsOf m effect t trace).closed ++ pending ∧
      pending.length = (s.rest t).countP (releases m) ∧
      ((sectionsOf m effect t trace).current = [] ∨
        ∃ first ∈ pending, (sectionsOf m effect t trace).current <+: first) := by
  rw [← h.executed_append_rest t, Sections.run_append, ← sectionsOf] at hcalls
  obtain ⟨later, more, hcurrent⟩ :=
    Sections.run_current m effect (sectionsOf m effect t trace) (s.rest t)
  obtain ⟨pending, hpending, hlength⟩ : ∃ pending,
      sections = (sectionsOf m effect t trace).closed ++ pending ∧
        pending.length = (s.rest t).countP (releases m) := by
    rw [Sections.run_closed] at hcalls
    refine ⟨_, (congrArg Sections.closed hcalls).symm, ?_⟩
    rw [Sections.length_closed]
    exact Nat.zero_add _
  refine ⟨pending, hpending, hlength, ?_⟩
  rw [hcalls, hpending, List.append_assoc, List.append_cancel_left_eq] at hcurrent
  cases pending with
  | nil =>
      left
      have hempty := (List.cons.inj hcurrent).1
      exact (List.append_eq_nil_iff.mp hempty.symm).1
  | cons first pending =>
      right
      refine ⟨first, List.mem_cons_self, later, ?_⟩
      exact (List.cons.inj hcurrent).1.symm

end Traces

end HttpsServ.AtomicSections
