import Mathlib.Data.List.Infix
import Mathlib.Data.List.Count

/-!
# Lexical resolution of paths

A path is read component by component against a stack of names. A component
stays, goes up by popping one name, or goes down by pushing one. The walk
fails as soon as it would pop the empty stack.
-/

namespace HttpsServ.LexicalPath

variable {Name : Type*}

/-- What one component does to the current directory. -/
inductive Move (Name : Type*)
  | stay
  | up
  | down (name : Name)
  deriving DecidableEq

/-- Resolve a list of components; `none` once one of them pops the empty stack. -/
def walk : List Name → List (Move Name) → Option (List Name)
  | stack, [] => some stack
  | stack, .stay :: moves => walk stack moves
  | [], .up :: _ => none
  | _ :: stack, .up :: moves => walk stack moves
  | stack, .down name :: moves => walk (name :: stack) moves

/-- The walk never leaves the directory it starts in. -/
def NeverAbove (moves : List (Move Name)) : Prop := (walk [] moves).isSome

instance (moves : List (Move Name)) : Decidable (NeverAbove moves) :=
  inferInstanceAs (Decidable (_ = true))

def isUp : Move Name → Bool
  | .up => true
  | _ => false

def isDown : Move Name → Bool
  | .down _ => true
  | _ => false

/-- A walk succeeds exactly when no prefix has more ups than names to pop. -/
theorem walk_isSome_iff (stack : List Name) (moves : List (Move Name)) :
    (walk stack moves).isSome ↔
      ∀ pre, pre <+: moves → pre.countP isUp ≤ stack.length + pre.countP isDown := by
  induction moves generalizing stack with
  | nil => simp [walk]
  | cons m moves ih =>
      -- a nonempty prefix of `m :: moves` is `m` and a prefix of `moves`
      have hcons : (∀ pre, pre <+: m :: moves →
            pre.countP isUp ≤ stack.length + pre.countP isDown) ↔
          ∀ pre, pre <+: moves →
            (m :: pre).countP isUp ≤ stack.length + (m :: pre).countP isDown := by
        constructor
        · intro h pre hp
          exact h (m :: pre) (List.cons_prefix_cons.mpr ⟨rfl, hp⟩)
        · intro h pre hp
          cases pre with
          | nil => simp
          | cons a pre =>
              obtain ⟨rfl, htail⟩ := List.cons_prefix_cons.mp hp
              exact h pre htail
      rw [hcons]
      cases m with
      | stay => simpa [walk, List.countP_cons, isUp, isDown] using ih stack
      | down name =>
          rw [walk, ih]
          simp [List.countP_cons, isUp, isDown, Nat.add_assoc, Nat.add_comm 1]
      | up =>
          cases stack with
          | nil =>
              constructor
              · intro h
                simp [walk] at h
              · intro h
                have := h [] (List.nil_prefix)
                simp [List.countP_cons, isUp, isDown] at this
          | cons name stack =>
              rw [walk, ih]
              constructor
              · intro h pre hp
                have := h pre hp
                simp [List.countP_cons, isUp, isDown] at this ⊢
                omega
              · intro h pre hp
                have := h pre hp
                simp [List.countP_cons, isUp, isDown] at this
                omega

/-- Staying inside, by counting the components that go up and down. -/
theorem neverAbove_iff (moves : List (Move Name)) :
    NeverAbove moves ↔
      ∀ pre, pre <+: moves → pre.countP isUp ≤ pre.countP isDown := by
  simpa [NeverAbove] using walk_isSome_iff [] moves

end HttpsServ.LexicalPath
