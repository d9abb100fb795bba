import Mathlib.Data.List.Basic

/-!
# Scripts and their performances

A script is a list of events whose results are still open. An environment
fills them in from the log so far. What the events settle by themselves does
not depend on the performance.
-/

namespace HttpsServ.Script

variable {E : Type*} (answer : List E → E → E)

/-- The events of a script performed behind a log. -/
def perform : List E → List E → List E
  | _, [] => []
  | log, e :: script => answer log e :: perform (log ++ [answer log e]) script

@[simp] theorem perform_nil (log : List E) : perform answer log [] = [] := rfl

theorem perform_append (log first second : List E) :
    perform answer log (first ++ second) =
      perform answer log first ++
        perform answer (log ++ perform answer log first) second := by
  induction first generalizing log with
  | nil => simp
  | cons e first ih => simp [perform, ih, List.append_assoc]

/-- What can be told of an answer from its event can be told of the performance. -/
theorem filterMap_perform {B : Type*} {f g : E → Option B} (h : ∀ log e, f (answer log e) = g e)
    (log script : List E) :
    (perform answer log script).filterMap f = script.filterMap g := by
  induction script generalizing log with
  | nil => rfl
  | cons e script ih => rw [perform, List.filterMap_cons, List.filterMap_cons, h, ih]

end HttpsServ.Script
